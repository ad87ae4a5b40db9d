/-
Incremental reading — what an answer about the front of a stream promises

A buffer holds the front of a stream, and a frame is looked for in it whenever
more has come.  Three answers are possible, and each is binding:

    a frame       more bytes behind it change neither it nor its size
    a fault       more bytes do not mend it
    "n more"      fewer than n leave the reading asking for just the others,
                  and every frame that comes of it takes the n

The last is `Asks`.  It is proved part by part, in the order in which a frame
is read: a field, the length, the key, the head, the payload.  Behind a whole
head the answer is exact: with the n bytes the frame is there.
-/
import DeflateTrial.Proofs.Frame.Indexed
import DeflateTrial.Proofs.Frame.Passing

namespace DeflateTrial.Frame

/-- An answer that asks for more bytes, and what it promises: it asks for some; with
fewer it asks for the others; and what is read in the end takes all of them. -/
structure Asks {α : Type} (reading : Bytes → Except Fault α) (size : α → Nat) (bytes : Bytes)
    (needed : Nat) : Prop where
  pos : 1 ≤ needed
  short : ∀ more : Bytes, more.length < needed →
    reading (bytes ++ more) = .error (.incompleteFrame (needed - more.length))
  within : ∀ more value, reading (bytes ++ more) = .ok value → bytes.length + needed ≤ size value

theorem ofValue_ne_incomplete {value : UInt8} {needed : Nat} :
    Opcode.ofValue value ≠ .error (.incompleteFrame needed) := by
  intro h
  unfold Opcode.ofValue at h
  split at h
  case h_7 =>
    split at h <;> cases h
  all_goals cases h

namespace Head

variable {bytes rest : Bytes} {needed : Nat}

theorem asks_of_takeExactly {count : Nat}
    (h : takeExactly count bytes = .error (.incompleteFrame needed)) :
    Asks (takeExactly count) (fun _ => count) bytes needed := by
  rcases Nat.lt_or_ge bytes.length count with missing | whole
  · rw [takeExactly_of_lt missing] at h
    cases h
    refine ⟨by omega, fun more few => ?_, fun more value _ => by omega⟩
    have still : (bytes ++ more).length < count := by
      rw [List.length_append]
      omega
    rw [takeExactly_of_lt still, List.length_append, Nat.sub_add_eq]
  · rw [takeExactly_of_le whole] at h
    cases h

theorem asks_of_readLength {short : Nat}
    (h : readLength short rest = .error (.incompleteFrame needed)) :
    Asks (readLength short) (·.2.1) rest needed := by
  by_cases tiny : short < 126
  · rw [readLength, if_pos tiny] at h
    cases h
  · have long (bytes : Bytes) : readLength short bytes =
        takeExactly (if short = 126 then 2 else 8) bytes >>= fun taken =>
          .ok (Bytes.toNat taken.1, if short = 126 then 2 else 8, taken.2) :=
      if_neg tiny
    rw [long] at h
    obtain failed | ⟨_, _, h⟩ := error_of_bind h
    · have asks := asks_of_takeExactly failed
      refine ⟨asks.pos, fun more few => ?_, fun more value found => ?_⟩
      · rw [long, asks.short more few]
        rfl
      · rw [long] at found
        obtain ⟨taken, is, found⟩ := exists_of_bind_ok found
        cases found
        exact asks.within more taken is
    · cases h

theorem asks_of_readMask {masked : Bool}
    (h : readMask masked rest = .error (.incompleteFrame needed)) :
    masked = true ∧ Asks (readMask true) (fun _ => 4) rest needed := by
  cases masked with
  | false => cases h
  | true =>
      obtain failed | ⟨_, _, h⟩ := error_of_bind h
      · have asks := asks_of_takeExactly failed
        refine ⟨rfl, asks.pos, fun more few => ?_, fun more value found => ?_⟩
        · change (takeExactly 4 (rest ++ more) >>= _) = _
          rw [asks.short more few]
          rfl
        · obtain ⟨taken, is, -⟩ := exists_of_bind_ok found
          exact asks.within more taken is
      · cases h

theorem asks_of_parse (h : parse bytes = .error (.incompleteFrame needed)) :
    Asks parse headSize bytes needed := by
  match bytes with
  | [] =>
      cases h
      refine ⟨by omega, fun more few => ?_, fun more head found => Reader.headSize_of_parse found⟩
      rcases more with _ | ⟨_, _ | ⟨_, more⟩⟩
      · rfl
      · rfl
      · exact absurd few (Nat.not_lt_of_le (Nat.le_add_left 2 more.length))
  | [_] =>
      cases h
      refine ⟨Nat.le_refl 1, fun more few => ?_,
        fun more head found => Reader.headSize_of_parse found⟩
      rcases more with _ | ⟨_, more⟩
      · rfl
      · exact absurd few (Nat.not_lt_of_le (Nat.le_add_left 1 more.length))
  | first :: second :: rest =>
      obtain unknown | ⟨opcode, known, h⟩ := error_of_bind h
      · exact absurd unknown ofValue_ne_incomplete
      -- the reading of more bytes, up to the length
      have reading (more : Bytes) : parse (first :: second :: rest ++ more) =
          readLength (second &&& 0x7f).toNat (rest ++ more) >>= fun measured =>
            readMask (second &&& 0x80 != 0) measured.2.2 >>= fun mask => .ok {
              fin := first &&& 0x80 != 0
              rsv1 := first &&& 0x40 != 0
              rsv2 := first &&& 0x20 != 0
              rsv3 := first &&& 0x10 != 0
              opcode, mask
              payloadSize := measured.1
              headSize := 2 + measured.2.1 + (if second &&& 0x80 != 0 then 4 else 0) } := by
        change (Opcode.ofValue _ >>= _) = _
        rw [known]
        rfl
      obtain failed | ⟨⟨size, width, behind⟩, measured, h⟩ := error_of_bind h
      · have asks := asks_of_readLength failed
        refine ⟨asks.pos, fun more few => ?_, fun more head found => ?_⟩
        · rw [reading, asks.short more few]
          rfl
        · rw [reading] at found
          obtain ⟨⟨size, width, behind⟩, is, found⟩ := exists_of_bind_ok found
          obtain ⟨mask, -, found⟩ := exists_of_bind_ok found
          cases found
          have : rest.length + needed ≤ width := asks.within more _ is
          simp only [List.length_cons]
          omega
      · obtain failed | ⟨_, _, h⟩ := error_of_bind h
        · obtain ⟨masked, asks⟩ := asks_of_readMask failed
          have place := length_of_readLength measured
          have length (more : Bytes) : readLength (second &&& 0x7f).toNat (rest ++ more) =
              .ok (size, width, behind ++ more) := by
            rw [readLength_append more (settled_of_ok measured), measured]
            rfl
          refine ⟨asks.pos, fun more few => ?_, fun more head found => ?_⟩
          · rw [reading, length]
            change (readMask (second &&& 0x80 != 0) (behind ++ more) >>= _) = _
            rw [masked, asks.short more few]
            rfl
          · rw [reading, length] at found
            change (readMask (second &&& 0x80 != 0) (behind ++ more) >>= _) = _ at found
            obtain ⟨mask, is, found⟩ := exists_of_bind_ok found
            cases found
            rw [masked] at is ⊢
            have := asks.within more mask is
            simp only [List.length_cons, if_true]
            omega
        · cases h

end Head

/-! ## Behind a whole head -/

variable {bytes : Bytes} {needed : Nat}

theorem missing_of_head {head : Head} (headed : Head.parse bytes = .ok head)
    (h : parse bytes = .error (.incompleteFrame needed)) :
    1 ≤ needed ∧ bytes.length + needed = head.frameSize ∧ head.frameSize ≤ maxSize := by
  by_cases large : maxSize < head.frameSize
  · rw [parse_of_large headed large] at h
    cases h
  · have small : head.frameSize ≤ maxSize := Nat.le_of_not_lt large
    rw [parse_of_head headed small] at h
    split at h
    · cases h
      omega
    · cases h

theorem asks_of_parse (h : parse bytes = .error (.incompleteFrame needed)) :
    Asks parse Prod.snd bytes needed := by
  cases headed : Head.parse bytes with
  | error fault =>
      have failed : parse bytes = .error fault := by
        unfold parse
        rw [headed]
        rfl
      cases failed.symm.trans h
      have asks := Head.asks_of_parse headed
      refine ⟨asks.pos, fun more few => ?_, fun more (frame, size) found => ?_⟩
      · unfold parse
        rw [asks.short more few]
        rfl
      · obtain ⟨head, whole, -, -, -, rfl⟩ := head_of_parse found
        exact Nat.le_trans (asks.within more head whole) (Nat.le_add_right ..)
  | ok head =>
      obtain ⟨pos, missing, small⟩ := missing_of_head headed h
      have same (more : Bytes) : Head.parse (bytes ++ more) = .ok head := by
        rw [Head.parse_append more (settled_of_ok headed), headed]
      refine ⟨pos, fun more few => ?_, fun more (frame, size) found => ?_⟩
      · have still : (bytes ++ more).length < head.frameSize := by
          rw [List.length_append]
          omega
        have rest : head.frameSize - (bytes ++ more).length = needed - more.length := by
          rw [List.length_append]
          omega
        rw [parse_of_head (same more) small, if_pos still, rest]
      · rw [parse_of_head (same more) small] at found
        split at found
        · cases found
        · cases found
          exact Nat.le_of_eq missing

/-- Once its head is whole, a frame is there with just the bytes that were asked for. -/
theorem parse_append_needed {head : Head} (headed : Head.parse bytes = .ok head)
    (h : parse bytes = .error (.incompleteFrame needed)) {more : Bytes}
    (enough : more.length = needed) :
    parse (bytes ++ more) = .ok (head.frameIn (bytes ++ more), bytes.length + needed) := by
  obtain ⟨-, missing, small⟩ := missing_of_head headed h
  have same : Head.parse (bytes ++ more) = .ok head := by
    rw [Head.parse_append more (settled_of_ok headed), headed]
  have whole : ¬ (bytes ++ more).length < head.frameSize := by
    rw [List.length_append]
    omega
  rw [parse_of_head same small, if_neg whole, missing]

/-- An answer about the front of a stream is binding.  The machine that reads it is never
stopped, by an index outside or a sum too large.  A frame, or a fault other than that bytes are
missing, is found again with more bytes behind.  If bytes are missing, fewer than were asked for
leave just the others missing, every frame that comes of it takes all that were asked for, and
behind a whole head it is there with these. -/
theorem parse_incremental (bytes more : Bytes) :
    (Indexed.parseHead bytes).run = some (Head.parse bytes) ∧
    (Indexed.parse bytes).run = some (parse bytes) ∧
    (∀ frame size, parse bytes = .ok (frame, size) →
      size ≤ bytes.length ∧ parse (bytes ++ more) = .ok (frame, size)) ∧
    (∀ fault, parse bytes = .error fault → (∀ needed, fault ≠ .incompleteFrame needed) →
      parse (bytes ++ more) = .error fault) ∧
    (∀ needed, parse bytes = .error (.incompleteFrame needed) →
      1 ≤ needed ∧
      (more.length < needed →
        parse (bytes ++ more) = .error (.incompleteFrame (needed - more.length))) ∧
      (∀ frame size, parse (bytes ++ more) = .ok (frame, size) → bytes.length + needed ≤ size) ∧
      (∀ head, Head.parse bytes = .ok head → more.length = needed →
        ∃ frame, parse (bytes ++ more) = .ok (frame, (bytes ++ more).length))) := by
  refine ⟨congrArg ExceptT.run (Indexed.parseHead_eq bytes),
    congrArg ExceptT.run (Indexed.parse_eq bytes), fun frame size found => ?_,
    fun fault failed other => ?_, fun needed missing => ?_⟩
  · exact ⟨size_le_of_parse found, (parse_append more (settled_of_ok found)).trans found⟩
  · have settled : Settled (parse bytes) := by
      rw [failed]
      rintro needed ⟨⟩
      exact other needed rfl
    exact (parse_append more settled).trans failed
  · have asks := asks_of_parse missing
    refine ⟨asks.pos, asks.short more, fun frame size => asks.within more (frame, size),
      fun head headed enough => ?_⟩
    have whole := parse_append_needed headed missing enough
    rw [← enough, ← List.length_append] at whole
    exact ⟨_, whole⟩

/-- A text frame of five bytes under a key, of which only one byte has come at first: three bytes
are asked for, then the five of the payload, with which it is there; and a reserved opcode. -/
theorem parse_incremental_masked :
    parse [0x81, 0x85, 1] = .error (.incompleteFrame 3) ∧
    parse ([0x81, 0x85, 1] ++ [2, 3]) = .error (.incompleteFrame 1) ∧
    (∃ frame, parse ([0x81, 0x85, 1, 2, 3, 4] ++ [105, 103, 111, 104, 110]) = .ok (frame, 11)) ∧
    parse ([0x81, 0x85, 1, 2, 3, 4, 105, 103, 111, 104, 110] ++ [9]) =
      .ok (Frame.text [104, 101, 108, 108, 111], 11) ∧
    parse ([0x83, 0x85] ++ [1]) = .error (.reservedOpcode 3) := by
  have missing : parse [0x81, 0x85, 1] = .error (.incompleteFrame 3) := rfl
  obtain ⟨-, -, -, -, asks⟩ := parse_incremental [0x81, 0x85, 1] [2, 3]
  obtain ⟨-, -, -, -, completes⟩ :=
    parse_incremental [0x81, 0x85, 1, 2, 3, 4] [105, 103, 111, 104, 110]
  obtain ⟨-, -, stays, -⟩ :=
    parse_incremental [0x81, 0x85, 1, 2, 3, 4, 105, 103, 111, 104, 110] [9]
  obtain ⟨-, -, -, fails, -⟩ := parse_incremental [0x83, 0x85] [1]
  exact ⟨missing, (asks 3 missing).2.1 (by decide), (completes 5 rfl).2.2.2 _ rfl rfl,
    (stays _ 11 rfl).2, fails (.reservedOpcode 3) rfl (fun needed => by simp)⟩

end DeflateTrial.Frame
