/-
Growth — more bytes never change what a buffer has already decided

A reader looks at the front of its buffer again each time the network brings
something.  It may do so because an answer other than "not yet" is final: the
head, the frame or the fault found at the front of some bytes is also found
when more bytes stand behind them.

So an attempt to read a frame gives the same whether the stream comes in
pieces or stands in the buffer at once (`next_ofPieces`).  What differs is
only how much of the rest is already in the buffer.
-/
import DeflateTrial.Frame.Reader

namespace DeflateTrial.Frame

/-- A reading that does not ask for more bytes. -/
def Settled {α : Type} (reading : Except Fault α) : Prop :=
  ∀ needed, reading ≠ .error (.incompleteFrame needed)

theorem settled_of_ok {α : Type} {outcome : Except Fault α} {value : α} (h : outcome = .ok value) :
    Settled outcome := by
  rintro needed missing
  cases h.symm.trans missing

theorem settled_of_bind {α β : Type} {first : Except Fault α} {next : α → Except Fault β}
    (h : Settled (first >>= next)) : Settled first := by
  intro needed hf
  apply h needed
  rw [hf]
  rfl

namespace Head

theorem takeExactly_of_le {count : Nat} {bytes : Bytes} (h : count ≤ bytes.length) :
    takeExactly count bytes = .ok (bytes.take count, bytes.drop count) := by
  have : ¬ (bytes.take count).length < count := by
    rw [List.length_take]
    omega
  simp only [takeExactly, if_neg this]

theorem takeExactly_of_lt {count : Nat} {bytes : Bytes} (h : bytes.length < count) :
    takeExactly count bytes = .error (.incompleteFrame (count - bytes.length)) := by
  have : (bytes.take count).length = bytes.length := by
    rw [List.length_take]
    omega
  simp only [takeExactly, this, if_pos h]

theorem takeExactly_append {count : Nat} {bytes : Bytes} (more : Bytes)
    (h : Settled (takeExactly count bytes)) :
    takeExactly count (bytes ++ more) =
      (takeExactly count bytes).map fun (front, rest) => (front, rest ++ more) := by
  rcases Nat.lt_or_ge bytes.length count with hlt | hle
  · exact absurd (takeExactly_of_lt hlt) (h _)
  · have hle' : count ≤ (bytes ++ more).length := by
      rw [List.length_append]
      omega
    rw [takeExactly_of_le hle, takeExactly_of_le hle', List.take_append_of_le_length hle,
      List.drop_append_of_le_length hle]
    rfl

theorem readLength_append {short : Nat} {rest : Bytes} (more : Bytes)
    (h : Settled (readLength short rest)) :
    readLength short (rest ++ more) =
      (readLength short rest).map fun (size, width, rest) => (size, width, rest ++ more) := by
  unfold readLength at h ⊢
  by_cases hs : short < 126
  · simp only [hs, if_true]
    rfl
  · simp only [hs, if_false] at h ⊢
    rw [takeExactly_append more (settled_of_bind h)]
    cases takeExactly (if short = 126 then 2 else 8) rest <;> rfl

theorem readMask_append {masked : Bool} {rest : Bytes} (more : Bytes)
    (h : Settled (readMask masked rest)) :
    readMask masked (rest ++ more) = readMask masked rest := by
  unfold readMask at h ⊢
  cases masked with
  | false => rfl
  | true =>
      simp only [if_true] at h ⊢
      rw [takeExactly_append more (settled_of_bind h)]
      cases takeExactly 4 rest <;> rfl

theorem parse_append {bytes : Bytes} (more : Bytes) (h : Settled (parse bytes)) :
    parse (bytes ++ more) = parse bytes := by
  match bytes with
  | [] => exact absurd rfl (h 2)
  | [_] => exact absurd rfl (h 1)
  | first :: second :: rest =>
      simp only [List.cons_append, parse] at h ⊢
      cases hop : Opcode.ofValue (first &&& 0x0f) with
      | error fault => rfl
      | ok opcode =>
          simp only [hop] at h
          have hlen : Settled (readLength (second &&& 0x7f).toNat rest) := settled_of_bind h
          change (readLength _ (rest ++ more) >>= _) = (readLength _ rest >>= _)
          rw [readLength_append more hlen]
          cases hl : readLength (second &&& 0x7f).toNat rest with
          | error fault => rfl
          | ok found =>
              obtain ⟨size, width, rest'⟩ := found
              have hmask : Settled (readMask (second &&& 0x80 != 0) rest') := by
                change Settled (readLength _ rest >>= _) at h
                rw [hl] at h
                exact settled_of_bind h
              change (readMask _ (rest' ++ more) >>= _) = (readMask _ rest' >>= _)
              rw [readMask_append more hmask]

/-! ## A head lies in the bytes it was read from -/

theorem length_of_takeExactly {count : Nat} {bytes front rest : Bytes}
    (h : takeExactly count bytes = .ok (front, rest)) :
    bytes.length = count + rest.length := by
  rcases Nat.lt_or_ge bytes.length count with hlt | hle
  · rw [takeExactly_of_lt hlt] at h
    cases h
  · rw [takeExactly_of_le hle] at h
    cases h
    rw [List.length_drop]
    omega

theorem length_of_readLength {short size width : Nat} {rest rest' : Bytes}
    (h : readLength short rest = .ok (size, width, rest')) :
    rest.length = width + rest'.length := by
  unfold readLength at h
  by_cases hs : short < 126
  · simp only [hs, if_true] at h
    cases h
    omega
  · simp only [hs, if_false] at h
    obtain ⟨⟨field, after⟩, ht, hr⟩ := exists_of_bind_ok h
    cases hr
    exact length_of_takeExactly ht

theorem length_of_readMask {rest : Bytes} {mask : Option Mask}
    (h : readMask true rest = .ok mask) : 4 ≤ rest.length := by
  obtain ⟨⟨key, after⟩, ht, -⟩ := exists_of_bind_ok h
  have := length_of_takeExactly ht
  omega

theorem headSize_le_of_parse {bytes : Bytes} {head : Head} (h : parse bytes = .ok head) :
    head.headSize ≤ bytes.length := by
  match bytes with
  | [] => cases h
  | [_] => cases h
  | first :: second :: rest =>
      obtain ⟨opcode, -, h⟩ := exists_of_bind_ok h
      obtain ⟨⟨size, width, rest'⟩, hl, h⟩ := exists_of_bind_ok h
      obtain ⟨mask, hm, h⟩ := exists_of_bind_ok h
      cases h
      have hw := length_of_readLength hl
      simp only [List.length_cons]
      cases hb : second &&& 0x80 != 0 with
      | false =>
          simp only [Bool.false_eq_true, if_false]
          omega
      | true =>
          rw [hb] at hm
          have := length_of_readMask hm
          simp only [if_true]
          omega

end Head

theorem parse_append {bytes : Bytes} (more : Bytes) (h : Settled (parse bytes)) :
    parse (bytes ++ more) = parse bytes := by
  unfold parse at h ⊢
  rw [Head.parse_append more (settled_of_bind h)]
  cases hh : Head.parse bytes with
  | error fault => rfl
  | ok head =>
      rw [hh] at h
      have hsize : head.headSize ≤ bytes.length := Head.headSize_le_of_parse hh
      by_cases hbig : head.headSize + head.payloadSize > maxSize
      · simp only [bind, Except.bind, if_pos hbig]
        rfl
      · simp only [bind, Except.bind, if_neg hbig] at h ⊢
        rw [List.drop_append_of_le_length hsize, Head.takeExactly_append more (settled_of_bind h)]
        cases Head.takeExactly head.payloadSize (bytes.drop head.headSize) <;> rfl

theorem size_le_of_parse {bytes : Bytes} {frame : Frame} {size : Nat}
    (h : parse bytes = .ok (frame, size)) : size ≤ bytes.length := by
  obtain ⟨head, hh, h⟩ := exists_of_bind_ok h
  have hsize := Head.headSize_le_of_parse hh
  by_cases hbig : head.headSize + head.payloadSize > maxSize
  · simp only [if_pos hbig] at h
    cases h
  · simp only [if_neg hbig] at h
    obtain ⟨-, -, h⟩ := exists_of_bind_ok h
    obtain ⟨⟨payload, rest⟩, ht, h⟩ := exists_of_bind_ok h
    cases h
    have hl := Head.length_of_takeExactly ht
    rw [List.length_drop] at hl
    omega

/-! ## Reading a frame from a buffer that grows -/

/-- The same verdict, with more bytes behind what it leaves. -/
def Scan.followedBy (more : Bytes) : Scan → Scan
  | .frame f rest => .frame f (rest ++ more)
  | .fault cause => .fault cause
  | .spent cause rest => .spent cause (rest ++ more)
  | .more => .more

namespace Reader

/-- The reader with more bytes in its buffer. -/
def fed (reader : Reader) (bytes : Bytes) : Reader :=
  { reader with buffer := reader.buffer ++ bytes }

@[simp] theorem fed_nil (reader : Reader) : reader.fed [] = reader := by
  simp [fed]

theorem fed_fed (reader : Reader) (bytes more : Bytes) :
    (reader.fed bytes).fed more = reader.fed (bytes ++ more) := by
  simp [fed]

theorem scanFrame_append {buffer : Bytes} (more : Bytes) (h : scanFrame buffer ≠ .more) :
    scanFrame (buffer ++ more) = (scanFrame buffer).followedBy more := by
  have settled : Settled (Frame.parse buffer) := by
    intro needed hp
    simp [scanFrame, hp] at h
  unfold scanFrame
  rw [parse_append more settled]
  cases hp : Frame.parse buffer with
  | ok found =>
      obtain ⟨frame, size⟩ := found
      have hsize : size ≤ buffer.length := size_le_of_parse hp
      simp only [List.drop_append_of_le_length hsize]
      cases frame.checkControl <;> rfl
  | error fault => cases fault <;> rfl

/-- The verdict of a scan is final. -/
theorem scan_fed {reader : Reader} (more : Bytes) (h : reader.scan ≠ .more) :
    (reader.fed more).scan = reader.scan.followedBy more := by
  have settled : Settled (Head.parse reader.buffer) := by
    intro needed hp
    simp [scan, hp] at h
  have judged : ∀ head, (reader.fed more).judge head = reader.judge head := fun _ => rfl
  unfold scan at h ⊢
  simp only [judged]
  rw [show (reader.fed more).buffer = reader.buffer ++ more from rfl,
    Head.parse_append more settled]
  cases hp : Head.parse reader.buffer with
  | ok head =>
      cases hj : reader.judge head with
      | error fault =>
          simp only [hj]
          rfl
      | ok _ =>
          simp only [hp, hj] at h ⊢
          exact scanFrame_append more h
  | error fault => cases fault <;> rfl

theorem next_of_scan_frame {reader : Reader} {source : Source} {frame : Frame} {rest : Bytes}
    (h : reader.scan = .frame frame rest) :
    reader.next source = (.frame frame, { reader with buffer := rest }, source) := by
  rw [next, h]

theorem next_of_scan_fault {reader : Reader} {source : Source} {fault : Fault}
    (h : reader.scan = .fault fault) : reader.next source = (.fault fault, reader, source) := by
  rw [next, h]

theorem next_of_scan_spent {reader : Reader} {source : Source} {fault : Fault} {rest : Bytes}
    (h : reader.scan = .spent fault rest) :
    reader.next source = (.fault fault, { reader with buffer := rest }, source) := by
  rw [next, h]

theorem next_of_scan_more_nil {reader : Reader} (h : reader.scan = .more) :
    reader.next (.ofPieces []) =
      (if reader.buffer.isEmpty then .ended else .fault reader.cutShort, reader, .ofPieces []) := by
  rw [next, h]
  rfl

theorem next_of_scan_more_cons {reader : Reader} {piece : Bytes} {pieces : List Bytes}
    (h : reader.scan = .more) :
    reader.next (.ofPieces (piece :: pieces)) = (reader.fed piece).next (.ofPieces pieces) := by
  rw [next, h]
  rfl

theorem next_ofPieces_of_scan {reader : Reader} (pieces : List Bytes) (h : reader.scan ≠ .more) :
    ∃ outcome reader',
      reader.next (.ofPieces pieces) = (outcome, reader', .ofPieces pieces) ∧
      (reader.fed pieces.flatten).next (.ofPieces []) =
        (outcome, reader'.fed pieces.flatten, .ofPieces []) := by
  have final := scan_fed pieces.flatten h
  cases hs : reader.scan with
  | frame frame rest =>
      rw [hs] at final
      exact ⟨_, _, next_of_scan_frame hs, next_of_scan_frame final⟩
  | fault fault =>
      rw [hs] at final
      exact ⟨_, _, next_of_scan_fault hs, next_of_scan_fault final⟩
  | spent fault rest =>
      rw [hs] at final
      exact ⟨_, _, next_of_scan_spent hs, next_of_scan_spent final⟩
  | more => exact absurd hs h

/-- However a stream is cut, an attempt gives what it would give if the whole
stream stood in the buffer, and leaves the same bytes. -/
theorem next_ofPieces (reader : Reader) (pieces : List Bytes) :
    ∃ outcome reader' rest,
      reader.next (.ofPieces pieces) = (outcome, reader', .ofPieces rest) ∧
      (reader.fed pieces.flatten).next (.ofPieces []) =
        (outcome, reader'.fed rest.flatten, .ofPieces []) := by
  induction pieces generalizing reader with
  | nil =>
      by_cases hs : reader.scan = .more
      · refine ⟨_, reader, [], next_of_scan_more_nil hs, ?_⟩
        rw [List.flatten_nil, fed_nil]
        exact next_of_scan_more_nil hs
      · obtain ⟨outcome, reader', h⟩ := next_ofPieces_of_scan [] hs
        exact ⟨outcome, reader', [], h⟩
  | cons piece pieces ih =>
      by_cases hs : reader.scan = .more
      · rw [next_of_scan_more_cons hs, List.flatten_cons, ← fed_fed]
        exact ih (reader.fed piece)
      · obtain ⟨outcome, reader', h⟩ := next_ofPieces_of_scan (piece :: pieces) hs
        exact ⟨outcome, reader', piece :: pieces, h⟩

end Reader

end DeflateTrial.Frame
