/-
The search for the blank line — resumed where the last one stopped

Reading a head, each search leaves out the bytes that an earlier one has been
through, except the last three: a blank line may begin there and end in the
bytes that came since.  Leaving the others out changes nothing (`headIn_eq`),
and so a head is found where a search of the whole stream finds it, whatever
the pieces in which the stream comes (`readHead_ofPieces`).

Only one number tells the pieces apart.  Where no blank line comes in time,
the fault names the bytes that had come when that was noticed.
-/
import DeflateTrial.Handshake.HeadReader

namespace DeflateTrial.Handshake

/-! ## The first blank line -/

theorem headSize?_cons (b : UInt8) (rest : Bytes) :
    headSize? (b :: rest) =
      if blankLine.isPrefixOf (b :: rest) then some 4 else (headSize? rest).map (· + 1) := rfl

theorem isPrefixOf_take {bytes : Bytes} {count : Nat} (h : 4 ≤ count) :
    blankLine.isPrefixOf (bytes.take count) = blankLine.isPrefixOf bytes := by
  rw [Bool.eq_iff_iff, List.isPrefixOf_iff_prefix, List.isPrefixOf_iff_prefix]
  constructor
  · intro hp
    exact hp.trans (List.take_prefix _ _)
  · intro hp
    exact List.prefix_take_iff.mpr ⟨hp, h⟩

theorem le_of_headSize? {bytes : Bytes} {size : Nat} (h : headSize? bytes = some size) :
    4 ≤ size ∧ size ≤ bytes.length := by
  induction bytes generalizing size with
  | nil => cases h
  | cons b rest ih =>
      rw [headSize?_cons] at h
      by_cases hp : blankLine.isPrefixOf (b :: rest)
      · rw [if_pos hp] at h
        cases h
        exact ⟨Nat.le_refl 4, (List.isPrefixOf_iff_prefix.mp hp).length_le⟩
      · rw [if_neg hp, Option.map_eq_some_iff] at h
        obtain ⟨before, hb, rfl⟩ := h
        have := ih hb
        rw [List.length_cons]
        omega

theorem headSize?_append {bytes : Bytes} {size : Nat} (more : Bytes)
    (h : headSize? bytes = some size) : headSize? (bytes ++ more) = some size := by
  induction bytes generalizing size with
  | nil => cases h
  | cons b rest ih =>
      have hlen : 4 ≤ (b :: rest).length := by
        have := le_of_headSize? h
        omega
      have same :
          blankLine.isPrefixOf (b :: (rest ++ more)) = blankLine.isPrefixOf (b :: rest) := by
        rw [← isPrefixOf_take hlen, ← List.cons_append, List.take_left]
      rw [headSize?_cons] at h
      rw [List.cons_append, headSize?_cons, same]
      by_cases hp : blankLine.isPrefixOf (b :: rest)
      · rw [if_pos hp] at h ⊢
        exact h
      · rw [if_neg hp, Option.map_eq_some_iff] at h
        obtain ⟨before, hb, rfl⟩ := h
        rw [if_neg hp, ih hb]
        rfl

theorem lt_of_headSize?_append {bytes more : Bytes} {size : Nat} (h : headSize? bytes = none)
    (h' : headSize? (bytes ++ more) = some size) : bytes.length < size := by
  induction bytes generalizing size with
  | nil =>
      have := le_of_headSize? h'
      rw [List.length_nil]
      omega
  | cons b rest ih =>
      rw [headSize?_cons] at h
      rw [List.cons_append, headSize?_cons] at h'
      have absent : ¬ blankLine.isPrefixOf (b :: rest) := by
        intro hp
        simp [hp] at h
      rw [if_neg absent, Option.map_eq_none_iff] at h
      by_cases hp : blankLine.isPrefixOf (b :: (rest ++ more))
      · rw [if_pos hp] at h'
        cases h'
        rcases Nat.lt_or_ge (b :: rest).length 4 with hlt | hle
        · exact hlt
        · rw [← isPrefixOf_take hle, ← List.cons_append, List.take_left] at hp
          exact absurd hp absent
      · rw [if_neg hp, Option.map_eq_some_iff] at h'
        obtain ⟨before, hb, rfl⟩ := h'
        have := ih h hb
        rw [List.length_cons]
        omega

theorem exists_take_of_headSize? {bytes : Bytes} {size : Nat} (h : headSize? bytes = some size) :
    ∃ before, bytes.take size = before ++ blankLine := by
  induction bytes generalizing size with
  | nil => cases h
  | cons b rest ih =>
      rw [headSize?_cons] at h
      by_cases here : blankLine.isPrefixOf (b :: rest)
      · rw [if_pos here] at h
        cases h
        exact ⟨[], (List.prefix_iff_eq_take.mp (List.isPrefixOf_iff_prefix.mp here)).symm⟩
      · rw [if_neg here, Option.map_eq_some_iff] at h
        obtain ⟨size, found, rfl⟩ := h
        obtain ⟨before, taken⟩ := ih found
        exact ⟨b :: before, by rw [List.take_succ_cons, taken, List.cons_append]⟩

theorem exists_headSize?_append_blankLine (before : Bytes) :
    ∃ size, headSize? (before ++ blankLine) = some size := by
  induction before with
  | nil => exact ⟨4, rfl⟩
  | cons b before ih =>
      obtain ⟨size, found⟩ := ih
      rw [List.cons_append, headSize?_cons, found]
      by_cases here : blankLine.isPrefixOf (b :: (before ++ blankLine))
      · exact ⟨4, if_pos here⟩
      · exact ⟨size + 1, if_neg here⟩

/-! ## Resuming -/

theorem headSize?_drop {searched : Nat} {buffer : Bytes}
    (h : headSize? (buffer.take (searched + 3)) = none) :
    headSize? buffer = (headSize? (buffer.drop searched)).map (searched + ·) := by
  induction searched generalizing buffer with
  | zero => simp
  | succ searched ih =>
      cases buffer with
      | nil => rfl
      | cons b rest =>
          have step : searched + 1 + 3 = searched + 3 + 1 := by omega
          have absent : ¬ blankLine.isPrefixOf (b :: rest) := by
            intro hp
            rw [← isPrefixOf_take (show 4 ≤ searched + 1 + 3 by omega), step,
              List.take_succ_cons] at hp
            rw [step, List.take_succ_cons, headSize?_cons, if_pos hp] at h
            cases h
          rw [step, List.take_succ_cons, headSize?_cons] at h
          have hr : headSize? (rest.take (searched + 3)) = none := by
            split at h
            · cases h
            · exact Option.map_eq_none_iff.mp h
          rw [headSize?_cons, if_neg absent, ih hr, List.drop_succ_cons, Option.map_map]
          congr 1
          funext size
          simp only [Function.comp_apply]
          omega

/-- A search leaves nothing out that it has not been through; none has been
through the first three bytes. -/
theorem headSize?_take_three (buffer : Bytes) : headSize? (buffer.take 3) = none := by
  cases found : headSize? (buffer.take 3) with
  | none => rfl
  | some size =>
      have := le_of_headSize? found
      rw [List.length_take] at this
      omega

theorem headIn_eq {limits : Limits} {searched : Nat} {buffer : Bytes}
    (h : headSize? (buffer.take (searched + 3)) = none) :
    headIn limits searched buffer = headIn limits 0 buffer := by
  have hd := headSize?_drop h
  cases hf : headSize? (buffer.drop searched) with
  | none =>
      rw [hf, Option.map_none] at hd
      simp only [headIn, hf, hd, List.drop_zero]
  | some size =>
      rw [hf, Option.map_some] at hd
      simp only [headIn, hf, hd, List.drop_zero, Nat.zero_add]

/-- After a search without success, a blank line can only begin in the last
three bytes or later. -/
theorem headSize?_take_append {buffer : Bytes} (more : Bytes) (h : headSize? buffer = none) :
    headSize? ((buffer ++ more).take (buffer.length - 3 + 3)) = none := by
  rcases Nat.lt_or_ge buffer.length 3 with hlt | hle
  · -- too few bytes for a blank line
    cases hs : headSize? ((buffer ++ more).take (buffer.length - 3 + 3)) with
    | none => rfl
    | some size =>
        have := le_of_headSize? hs
        rw [List.length_take] at this
        omega
  · rw [Nat.sub_add_cancel hle, List.take_left]
    exact h

/-! ## The verdict on a buffer that grows -/

variable {limits : Limits} {buffer : Bytes}

theorem headIn_of_size {size : Nat} (h : headSize? buffer = some size) :
    headIn limits 0 buffer =
      some ((limits.checkHandshake size).map fun _ => (buffer.take size, buffer.drop size)) := by
  simp only [headIn, List.drop_zero, h, Nat.zero_add]

theorem headIn_of_whole {head : Bytes} (ends : headSize? head = some head.length)
    (small : head.length ≤ limits.handshakeSize) :
    headIn limits 0 head = some (.ok (head, [])) := by
  rw [headIn_of_size ends, Limits.checkHandshake, if_neg (Nat.not_lt.mpr small), List.take_length,
    List.drop_length]
  rfl

theorem headIn_of_noSize (h : headSize? buffer = none) :
    headIn limits 0 buffer =
      if buffer.length > limits.handshakeSize then
        some (.error (.handshakeTooLarge buffer.length limits.handshakeSize))
      else none := by
  simp only [headIn, List.drop_zero, h, Limits.checkHandshake]
  by_cases hl : buffer.length > limits.handshakeSize
  · simp only [if_pos hl]
  · simp only [if_neg hl]

theorem headSize?_of_headIn (h : headIn limits 0 buffer = none) : headSize? buffer = none := by
  cases hs : headSize? buffer with
  | none => rfl
  | some size =>
      rw [headIn_of_size hs] at h
      cases h

theorem headIn_append_found {head rest : Bytes} (more : Bytes)
    (h : headIn limits 0 buffer = some (.ok (head, rest))) :
    headIn limits 0 (buffer ++ more) = some (.ok (head, rest ++ more)) := by
  cases hs : headSize? buffer with
  | none =>
      rw [headIn_of_noSize hs] at h
      split at h <;> cases h
  | some size =>
      have hle := (le_of_headSize? hs).2
      rw [headIn_of_size hs] at h
      rw [headIn_of_size (headSize?_append more hs)]
      cases hc : limits.checkHandshake size with
      | error fault =>
          rw [hc] at h
          cases h
      | ok _ =>
          rw [hc] at h
          cases h
          rw [List.take_append_of_le_length hle, List.drop_append_of_le_length hle]
          rfl

theorem headIn_error {fault : Fault} (h : headIn limits 0 buffer = some (.error fault)) :
    ∃ size, fault = .handshakeTooLarge size limits.handshakeSize ∧ limits.handshakeSize < size ∧
      (headSize? buffer = some size ∨ headSize? buffer = none ∧ buffer.length = size) := by
  cases hs : headSize? buffer with
  | none =>
      rw [headIn_of_noSize hs] at h
      split at h <;> cases h
      exact ⟨_, rfl, by assumption, .inr ⟨rfl, rfl⟩⟩
  | some size =>
      rw [headIn_of_size hs, Limits.checkHandshake] at h
      split at h <;> cases h
      exact ⟨size, rfl, by assumption, .inl rfl⟩

/-- A head that was too large stays too large: a blank line that comes later
ends further on. -/
theorem headIn_append_fault {fault : Fault} (more : Bytes)
    (h : headIn limits 0 buffer = some (.error fault)) :
    ∃ fault', headIn limits 0 (buffer ++ more) = some (.error fault') := by
  cases hs : headSize? buffer with
  | some size =>
      rw [headIn_of_size hs] at h
      rw [headIn_of_size (headSize?_append more hs)]
      cases hc : limits.checkHandshake size with
      | error cause => exact ⟨cause, rfl⟩
      | ok _ =>
          rw [hc] at h
          cases h
  | none =>
      rw [headIn_of_noSize hs] at h
      have large : buffer.length > limits.handshakeSize := by
        split at h
        · assumption
        · cases h
      cases hs' : headSize? (buffer ++ more) with
      | none =>
          have : (buffer ++ more).length > limits.handshakeSize := by
            rw [List.length_append]
            omega
          rw [headIn_of_noSize hs', if_pos this]
          exact ⟨_, rfl⟩
      | some size =>
          have later := lt_of_headSize?_append hs hs'
          rw [headIn_of_size hs', Limits.checkHandshake, if_pos (by omega)]
          exact ⟨_, rfl⟩

/-! ## A head in pieces -/

/-- What reading a head from a stream in pieces comes to, by what a search of
the whole stream says. -/
def HeadRead (limits : Limits) (stream : Bytes)
    (result : Polled (Except Fault Bytes) × Bytes × Source) : Prop :=
  match headIn limits 0 stream with
  | some (.ok (head, rest)) =>
    ∃ left unread, result = (.ready (.ok head), left, .ofPieces unread) ∧
      left ++ unread.flatten = rest
  | some (.error _) =>
    ∃ size, result.1 = .ready (.error (.handshakeTooLarge size limits.handshakeSize))
  | none => result.1 = .ready (.error (.connectionClosed none))

theorem headRead_of_headIn {searched : Nat} {verdict : Except Fault (Bytes × Bytes)}
    (pieces : List Bytes) (hin : headIn limits searched buffer = some verdict)
    (h : headIn limits 0 buffer = some verdict) :
    HeadRead limits (buffer ++ pieces.flatten)
      (readHeadOn limits searched buffer (.ofPieces pieces)) := by
  unfold HeadRead
  rw [readHeadOn, hin]
  cases verdict with
  | error fault =>
      obtain ⟨fault', hf⟩ := headIn_append_fault pieces.flatten h
      obtain ⟨size, rfl, -⟩ := headIn_error h
      rw [hf]
      exact ⟨size, rfl⟩
  | ok found =>
      obtain ⟨head, rest⟩ := found
      rw [headIn_append_found pieces.flatten h]
      exact ⟨rest, pieces, rfl, rfl⟩

theorem readHeadOn_ofPieces (pieces : List Bytes) {searched : Nat}
    (h : headSize? (buffer.take (searched + 3)) = none) :
    HeadRead limits (buffer ++ pieces.flatten)
      (readHeadOn limits searched buffer (.ofPieces pieces)) := by
  induction pieces generalizing searched buffer with
  | nil =>
      have hin : headIn limits searched buffer = headIn limits 0 buffer := headIn_eq h
      cases hv : headIn limits 0 buffer with
      | some verdict => exact headRead_of_headIn [] (hin.trans hv) hv
      | none =>
          unfold HeadRead
          rw [List.flatten_nil, List.append_nil, readHeadOn, hin, hv]
          rfl
  | cons piece pieces ih =>
      have hin : headIn limits searched buffer = headIn limits 0 buffer := headIn_eq h
      cases hv : headIn limits 0 buffer with
      | some verdict => exact headRead_of_headIn (piece :: pieces) (hin.trans hv) hv
      | none =>
          have absent := headSize?_of_headIn hv
          rw [readHeadOn, hin, hv, List.flatten_cons, ← List.append_assoc]
          exact ih (headSize?_take_append piece absent)

/-- However a stream is cut, the head that is read is the one at its front. -/
theorem readHead_ofPieces (limits : Limits) (buffer : Bytes) (pieces : List Bytes) :
    HeadRead limits (buffer ++ pieces.flatten)
      (readHead limits buffer (.ofPieces pieces)) :=
  readHeadOn_ofPieces pieces (headSize?_take_three buffer)

end DeflateTrial.Handshake
