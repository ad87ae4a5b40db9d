/-
Codec — writing and reading frames undo each other

One direction holds for every frame: what is written is read back
(`parse_encode`).  The other is about bytes that somebody else wrote.  They
are written again just as they were if the writer would have had no choice:
the reserved bits are clear, and the length is in its shortest form
(`Head.Shortest`).  Both directions together are `codec`.

For the way back each field is rebuilt from what was read of it: the first
byte from the flags and the opcode, the length field from the length, the
masked payload from the payload.
-/
import DeflateTrial.Proofs.Frame.Encoding

namespace DeflateTrial

theorem Bytes.ofNat_toNat (bytes : Bytes) : ofNat bytes.length (toNat bytes) = bytes := by
  -- after a number that has been read already, which only the bytes further left show
  suffices rebuilt : ∀ before, ofNat bytes.length
      (bytes.foldl (fun n b => n * 256 + b.toNat) before) = bytes from rebuilt 0
  induction bytes with
  | nil => exact fun _ => rfl
  | cons byte bytes ih =>
      intro before
      have top (n : Nat) :
          bytes.foldl (fun n b => n * 256 + b.toNat) n / 256 ^ bytes.length = n := by
        clear ih
        induction bytes generalizing n with
        | nil => exact Nat.div_one n
        | cons next bytes ih =>
            have := next.toNat_lt
            rw [List.foldl_cons, List.length_cons, Nat.pow_succ, ← Nat.div_div_eq_div_mul, ih]
            omega
      rw [List.length_cons, List.foldl_cons, ofNat, ih, Nat.shiftRight_eq_div_pow, Nat.pow_mul,
        show (2 : Nat) ^ 8 = 256 from rfl, top]
      congr 1
      apply UInt8.toNat_inj.mp
      rw [UInt8.toNat_ofNat']
      have := byte.toNat_lt
      omega

theorem Bytes.forall_byte {P : UInt8 → Prop} (all : ∀ n < 256, P (UInt8.ofNat n)) (byte : UInt8) :
    P byte := by
  have here := all byte.toNat byte.toNat_lt
  rwa [UInt8.ofNat_toNat] at here

namespace Frame

/-! ## The head, written again -/

theorem first_byte_eq (first : UInt8) : (first &&& 0x20 != 0) = false →
    (first &&& 0x10 != 0) = false →
    (first &&& 0x0f) ||| flag (first &&& 0x80 != 0) 0x80 ||| flag (first &&& 0x40 != 0) 0x40 =
      first := by
  revert first
  exact Bytes.forall_byte (by decide +kernel)

theorem second_byte_eq (second : UInt8) :
    flag (second &&& 0x80 != 0) 0x80 ||| (second &&& 0x7f) = second := by
  revert second
  exact Bytes.forall_byte (by decide +kernel)

theorem value_of_ofValue {value : UInt8} {opcode : Opcode}
    (h : Opcode.ofValue value = .ok opcode) : opcode.value = value := by
  unfold Opcode.ofValue at h
  split at h <;> cases h <;> next same => exact (UInt8.toNat_inj.mp same).symm

namespace Head

/-- How many bytes the shortest form of a length takes behind the second byte. -/
def lengthSize (size : Nat) : Nat :=
  if size < 126 then 0 else if size < 65536 then 2 else 8

theorem range_of_lengthSize_two {size : Nat} (h : lengthSize size = 2) :
    ¬ size < 126 ∧ size < 65536 := by
  unfold lengthSize at h
  split at h
  · cases h
  · split at h
    · omega
    · cases h

theorem range_of_lengthSize_eight {size : Nat} (h : lengthSize size = 8) :
    ¬ size < 126 ∧ ¬ size < 65536 := by
  unfold lengthSize at h
  split at h
  · cases h
  · split at h
    · cases h
    · omega

/-- The length stands in its shortest form. -/
def Shortest (head : Head) : Prop :=
  head.headSize = 2 + lengthSize head.payloadSize + if head.mask.isSome then 4 else 0

instance (head : Head) : Decidable head.Shortest :=
  inferInstanceAs (Decidable (_ = _))

theorem eq_append_of_takeExactly {count : Nat} {bytes front rest : Bytes}
    (h : takeExactly count bytes = .ok (front, rest)) :
    front.length = count ∧ bytes = front ++ rest := by
  rcases Nat.lt_or_ge bytes.length count with hlt | hle
  · rw [takeExactly_of_lt hlt] at h
    cases h
  · rw [takeExactly_of_le hle] at h
    cases h
    exact ⟨List.length_take_of_le hle, (List.take_append_drop count bytes).symm⟩

theorem lengthField_of_readLength {short : UInt8} {size width : Nat} {bytes rest : Bytes}
    (small : short.toNat < 128) (h : readLength short.toNat bytes = .ok (size, width, rest))
    (shortest : width = lengthSize size) :
    shortLength size = short ∧ bytes = lengthField size ++ rest := by
  unfold readLength at h
  by_cases tiny : short.toNat < 126
  · rw [if_pos tiny] at h
    cases h
    rw [shortLength, lengthField, if_pos tiny, if_pos tiny, UInt8.ofNat_toNat]
    exact ⟨rfl, rfl⟩
  · rw [if_neg tiny] at h
    obtain ⟨⟨field, after⟩, taken, h⟩ := exists_of_bind_ok h
    cases h
    obtain ⟨length, split⟩ := eq_append_of_takeExactly taken
    have again : Bytes.ofNat field.length (Bytes.toNat field) = field := Bytes.ofNat_toNat field
    rw [length] at again
    rw [split, shortLength, lengthField]
    -- the width says which of the longer forms was read
    by_cases two : short.toNat = 126
    · rw [if_pos two] at shortest again
      obtain ⟨long, fits⟩ := range_of_lengthSize_two shortest.symm
      rw [if_neg long, if_neg long, if_pos fits, if_pos fits, again]
      exact ⟨(UInt8.toNat_inj.mp two).symm, rfl⟩
    · rw [if_neg two] at shortest again
      obtain ⟨long, big⟩ := range_of_lengthSize_eight shortest.symm
      have last : short.toNat = (127 : UInt8).toNat := by
        change short.toNat = 127
        omega
      rw [if_neg long, if_neg long, if_neg big, if_neg big, again]
      exact ⟨(UInt8.toNat_inj.mp last).symm, rfl⟩

theorem keyBytes_of_readMask {masked : Bool} {bytes : Bytes} {mask : Option Mask}
    (h : readMask masked bytes = .ok mask) :
    mask.isSome = masked ∧ ∃ rest, bytes = keyBytes mask ++ rest := by
  cases masked with
  | false =>
      cases h
      exact ⟨rfl, bytes, rfl⟩
  | true =>
      obtain ⟨⟨key, rest⟩, taken, h⟩ := exists_of_bind_ok h
      obtain ⟨length, split⟩ := eq_append_of_takeExactly taken
      match key, length with
      | [a, b, c, d], _ =>
          cases h
          exact ⟨rfl, rest, split⟩

theorem eq_of_parse {bytes : Bytes} {head : Head} (h : parse bytes = .ok head) :
    2 ≤ head.headSize ∧ head.headSize ≤ bytes.length ∧
    (head.rsv2 = false → head.rsv3 = false → head.Shortest →
      bytes.take head.headSize =
        (head.opcode.value ||| flag head.fin 0x80 ||| flag head.rsv1 0x40) ::
        (flag head.mask.isSome 0x80 ||| shortLength head.payloadSize) ::
        (lengthField head.payloadSize ++ keyBytes head.mask)) := by
  refine ⟨Reader.headSize_of_parse h, headSize_le_of_parse h, ?_⟩
  match bytes with
  | [] => cases h
  | [_] => cases h
  | first :: second :: rest =>
      obtain ⟨opcode, known, h⟩ := exists_of_bind_ok h
      obtain ⟨⟨size, width, rest'⟩, measured, h⟩ := exists_of_bind_ok h
      obtain ⟨mask, keyed, h⟩ := exists_of_bind_ok h
      cases h
      intro rsv2 rsv3 shortest
      obtain ⟨masked, rest'', behind⟩ := keyBytes_of_readMask keyed
      have narrow : width = lengthSize size := by
        simp only [Shortest, masked] at shortest
        omega
      have small : (second &&& 0x7f).toNat < 128 := by
        rw [UInt8.toNat_and]
        exact Nat.lt_of_le_of_lt Nat.and_le_right (by decide)
      obtain ⟨short, front⟩ := lengthField_of_readLength small measured narrow
      simp only at rsv2 rsv3
      simp only [value_of_ofValue known, first_byte_eq first rsv2 rsv3, masked, short,
        second_byte_eq]
      rw [front, behind, narrow, ← List.append_assoc]
      have total : 2 + lengthSize size + (if second &&& 0x80 != 0 then 4 else 0) =
          (first :: second :: (lengthField size ++ keyBytes mask)).length := by
        rw [← masked]
        simp only [List.length_cons, List.length_append, length_lengthField, length_keyBytes,
          lengthSize]
        omega
      rw [total]
      exact List.take_left

end Head

/-! ## The whole frame, written again -/

/-- A frame takes its head and its payload, and is written again as it was if
the writer has no choice. -/
theorem encode_of_parse {bytes : Bytes} {frame : Frame} {size : Nat}
    (h : parse bytes = .ok (frame, size)) :
    2 ≤ size ∧ ∃ head, Head.parse bytes = .ok head ∧
      (head.rsv2 = false → head.rsv3 = false → head.Shortest →
        frame.encode head.mask = bytes.take size) := by
  obtain ⟨head, found, h⟩ := exists_of_bind_ok h
  obtain ⟨least, inside, front⟩ := Head.eq_of_parse found
  by_cases big : head.headSize + head.payloadSize > maxSize
  · simp only [if_pos big] at h
    cases h
  · simp only [if_neg big] at h
    obtain ⟨-, -, h⟩ := exists_of_bind_ok h
    obtain ⟨⟨payload, rest⟩, taken, h⟩ := exists_of_bind_ok h
    cases h
    refine ⟨Nat.le_trans least (Nat.le_add_right ..), head, found, fun rsv2 rsv3 shortest => ?_⟩
    obtain ⟨length, behind⟩ := Head.eq_append_of_takeExactly taken
    have payload_taken : (bytes.drop head.headSize).take head.payloadSize = payload := by
      rw [behind, List.take_left' length]
    change encode ⟨head.fin, head.rsv1, head.opcode, hidden head.mask payload⟩ head.mask = _
    rw [encode_eq, List.take_add, payload_taken, front rsv2 rsv3 shortest]
    simp only [length_hidden, hidden_hidden, length, List.cons_append, List.append_assoc]

/-- Writing and reading a frame undo each other.

Whatever a buffer holds, writing a frame leaves that in place and adds the
frame's size in bytes, the length in its shortest form; and these bytes,
whatever follows them, are read as the frame and its size.  The size is one
that a machine can count, as that of everything in a memory is.

And whatever bytes a frame is read from, its size is at least two and no more
than there are; if RSV2 and RSV3 are clear and the length is in its shortest
form, the frame under the mask of its head is written again as just these bytes. -/
theorem codec :
    (∀ (frame : Frame) (mask : Option Mask) (buffer rest : Bytes),
      frame.wireSize mask.isSome ≤ maxSize → ∃ added,
        frame.appendTo buffer mask = buffer ++ added ∧
        added.length = frame.wireSize mask.isSome ∧
        (∃ head, Head.parse (added ++ rest) = .ok head ∧ head.Shortest ∧ head.mask = mask) ∧
        parse (added ++ rest) = .ok (frame, frame.wireSize mask.isSome)) ∧
    (∀ (bytes : Bytes) (frame : Frame) (size : Nat), parse bytes = .ok (frame, size) →
      2 ≤ size ∧ size ≤ bytes.length ∧ ∃ head, Head.parse bytes = .ok head ∧
        (head.rsv2 = false → head.rsv3 = false → head.Shortest →
          frame.encode head.mask = bytes.take size ∧
          frame.appendTo [] head.mask = bytes.take size)) := by
  constructor
  · intro frame mask buffer rest small
    refine ⟨frame.encode mask, frame.appendTo_eq buffer mask, length_encode frame mask,
      ⟨headOf frame mask, Head.parse_encode frame mask rest (length_payload_lt small), ?_, rfl⟩,
      parse_encode frame mask rest small⟩
    rw [Head.Shortest, headOf, length_lengthField]
    rfl
  · intro bytes frame size h
    obtain ⟨least, head, found, again⟩ := encode_of_parse h
    refine ⟨least, size_le_of_parse h, head, found, fun rsv2 rsv3 shortest => ?_⟩
    have same := again rsv2 rsv3 shortest
    exact ⟨same, by rw [appendTo_eq, List.nil_append, same]⟩

/-- A masked frame with the least payload whose length takes two bytes more,
behind two other bytes, and a bare ping with a byte behind it. -/
theorem codec_long_and_ping :
    (∃ added, (Frame.binary (List.replicate 126 7)).appendTo [1, 2] (some ⟨1, 2, 3, 4⟩) =
      [1, 2] ++ added ∧ added.length = 134 ∧
      parse (added ++ [9]) = .ok (Frame.binary (List.replicate 126 7), 134)) ∧
    (Frame.ping [65]).encode none = [0x89, 0x01, 65] := by
  constructor
  · have size : (Frame.binary (List.replicate 126 7)).wireSize true = 134 := by
      simp [wireSize, Frame.binary, plain]
    obtain ⟨added, placed, length, -, read⟩ :=
      codec.1 (Frame.binary (List.replicate 126 7)) (some ⟨1, 2, 3, 4⟩) [1, 2] [9]
        (by rw [Option.isSome_some, size]; decide)
    rw [Option.isSome_some, size] at length read
    exact ⟨added, placed, length, read⟩
  · obtain ⟨-, -, head, found, again⟩ :=
      codec.2 [0x89, 0x01, 65, 7] (Frame.ping [65]) 3 rfl
    cases found
    exact (again rfl rfl (by decide)).1

end Frame

end DeflateTrial
