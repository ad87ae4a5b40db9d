/-
Head reading — exactly the head, and every byte behind it

    stream      what is in the buffer, and then what the source brings
    head        the stream up to the end of its first blank line

A head is read just if it is there and not too large.  Reading may stop before
that, at a read that fails; what has come by then is in the buffer, so reading
on from there is reading on (`readHeadAgain`).  However the stream is cut, and
wherever reads fail, the outcome is a matter of the stream and the limit alone,
and no byte is lost: what is left in the buffer, and then what is still to be
read, are the stream without the head that was returned (`readHeadAgain_exact`).
-/
import DeflateTrial.Proofs.Handshake.HeadSearch

namespace DeflateTrial.Handshake

variable {size : Nat} {stream : Bytes}

/-! ## The first blank line -/

/-- The first blank line of some bytes ends behind so many of them. -/
structure FirstBlank (bytes : Bytes) (size : Nat) : Prop where
  here : ∃ before after, bytes = before ++ blankLine ++ after ∧
    before.length + blankLine.length = size
  first : ∀ before after, bytes = before ++ blankLine ++ after →
    size ≤ before.length + blankLine.length

theorem exists_headSize?_le (before after : Bytes) :
    ∃ size, headSize? (before ++ blankLine ++ after) = some size ∧
      size ≤ before.length + blankLine.length := by
  obtain ⟨size, found⟩ := exists_headSize?_append_blankLine before
  refine ⟨size, headSize?_append after found, ?_⟩
  rw [← List.length_append]
  exact (le_of_headSize? found).2

theorem firstBlank_of_headSize? (found : headSize? stream = some size) :
    FirstBlank stream size := by
  constructor
  · obtain ⟨before, taken⟩ := exists_take_of_headSize? found
    refine ⟨before, stream.drop size, by rw [← taken, List.take_append_drop], ?_⟩
    rw [← List.length_append, ← taken, List.length_take, Nat.min_eq_left (le_of_headSize? found).2]
  · rintro before after rfl
    obtain ⟨size', found', le⟩ := exists_headSize?_le before after
    cases found.symm.trans found'
    exact le

/-- The search finds the first blank line, and nothing else. -/
theorem headSize?_eq_some_iff : headSize? stream = some size ↔ FirstBlank stream size := by
  refine ⟨firstBlank_of_headSize?, ?_⟩
  rintro ⟨⟨before, after, rfl, is⟩, first⟩
  obtain ⟨size', found, le⟩ := exists_headSize?_le before after
  obtain ⟨before', after', split, is'⟩ := (firstBlank_of_headSize? found).here
  have := first before' after' split
  rw [found, Option.some.injEq]
  omega

theorem headSize?_eq_none_iff : headSize? stream = none ↔ ∀ size, ¬ FirstBlank stream size := by
  simp only [← headSize?_eq_some_iff, Option.eq_none_iff_forall_ne_some, ne_eq]

theorem FirstBlank.unique {size size' : Nat} (first : FirstBlank stream size)
    (first' : FirstBlank stream size') : size = size' := by
  rw [← headSize?_eq_some_iff] at first first'
  exact Option.some.inj (first.symm.trans first')

/-! ## One call -/

/-- What one call comes to, from a source and a stream that ends with it: what is
decided by the bytes that have come, and that none is lost. -/
inductive Reads (limits : Limits) (source : Source) (stream : Bytes) :
    Polled (Except Fault Bytes) × Bytes × Source → Prop
  | found {head left : Bytes} {rest : Source}
      (decided : headIn limits 0 (head ++ left) = some (.ok (head, left)))
      (kept : head ++ left ++ rest.bytes = stream) :
      Reads limits source stream (.ready (.ok head), left, rest)
  | large {count : Nat} {left : Bytes} {rest : Source}
      (decided :
        headIn limits 0 left = some (.error (.handshakeTooLarge count limits.handshakeSize)))
      (kept : left ++ rest.bytes = stream) :
      Reads limits source stream
        (.ready (.error (.handshakeTooLarge count limits.handshakeSize)), left, rest)
  | failed {what : String} {left : Bytes} {rest : Source}
      (kept : left ++ rest.bytes = stream) (ended : rest.ended = source.ended)
      (less : rest.pending.length < source.pending.length) :
      Reads limits source stream (.ready (.error (.io what)), left, rest)
  | closed {left : Bytes} {rest : Source} (undecided : headIn limits 0 left = none)
      (kept : left ++ rest.bytes = stream) (spent : rest.bytes = []) :
      Reads limits source stream (.ready (.error (.connectionClosed none)), left, rest)
  | waiting {left : Bytes} {rest : Source}
      (kept : left ++ rest.bytes = stream) (live : source.ended = false) :
      Reads limits source stream (.waiting, left, rest)

variable {limits : Limits} {searched : Nat} {buffer head left : Bytes} {source rest : Source}

theorem headSize?_take (found : headSize? stream = some size) :
    headSize? (stream.take size) = some size := by
  have whole := List.take_append_drop size stream
  cases again : headSize? (stream.take size) with
  | none =>
      have beyond := lt_of_headSize?_append again (whole.symm ▸ found)
      rw [List.length_take, Nat.min_eq_left (le_of_headSize? found).2] at beyond
      omega
  | some size' =>
      rw [← found, ← whole]
      exact (headSize?_append (stream.drop size) again).symm

/-- A head that is found ends with its first blank line, is not too large, and stands
in front of what is left. -/
theorem headIn_ok (found : headIn limits 0 buffer = some (.ok (head, left))) :
    headSize? head = some head.length ∧ head.length ≤ limits.handshakeSize ∧
      head ++ left = buffer := by
  cases at? : headSize? buffer with
  | none =>
      rw [headIn_of_noSize at?] at found
      split at found <;> cases found
  | some size =>
      have within := (le_of_headSize? at?).2
      rw [headIn_of_size at?, Limits.checkHandshake] at found
      split at found
      · cases found
      · cases found
        rw [List.length_take, Nat.min_eq_left within]
        exact ⟨headSize?_take at?, by omega, List.take_append_drop size buffer⟩

theorem headIn_none (undecided : headIn limits 0 buffer = none) :
    headSize? buffer = none ∧ buffer.length ≤ limits.handshakeSize := by
  have absent := headSize?_of_headIn undecided
  rw [headIn_of_noSize absent] at undecided
  split at undecided
  · cases undecided
  · exact ⟨absent, by omega⟩

theorem Reads.of_read {source' : Source} {these : Bytes}
    {result : Polled (Except Fault Bytes) × Bytes × Source}
    (reads : Reads limits source' stream result) (read : source.read = (.bytes these, source')) :
    Reads limits source stream result := by
  have fewer := Source.pending_read_lt read (by simp)
  have same := Source.ended_of_read read
  cases reads with
  | found decided kept => exact .found decided kept
  | large decided kept => exact .large decided kept
  | failed kept ended less => exact .failed kept (ended.trans same) (Nat.lt_trans less fewer)
  | closed undecided kept spent => exact .closed undecided kept spent
  | waiting kept live => exact .waiting kept (same ▸ live)

theorem reads_readHeadOn (free : headSize? (buffer.take (searched + 3)) = none) :
    Reads limits source (buffer ++ source.bytes) (readHeadOn limits searched buffer source) := by
  fun_induction readHeadOn limits searched buffer source with
  | case1 searched buffer source head left found =>
      rw [headIn_eq free] at found
      have whole := (headIn_ok found).2.2
      exact .found (whole ▸ found) (by rw [whole])
  | case2 searched buffer source fault large =>
      rw [headIn_eq free] at large
      obtain ⟨count, rfl, -⟩ := headIn_error large
      exact .large large rfl
  | case3 searched buffer source undecided these source' read ih =>
      rw [headIn_eq free] at undecided
      rw [Source.bytes_of_read read, ← List.append_assoc]
      exact (ih (headSize?_take_append these (headSize?_of_headIn undecided))).of_read read
  | case4 searched buffer source undecided what source' read =>
      exact .failed (by rw [Source.bytes_of_read read, List.nil_append])
        (Source.ended_of_read read) (Source.pending_read_lt read (by simp))
  | case5 searched buffer source undecided source' read =>
      rw [headIn_eq free] at undecided
      exact .closed undecided (by rw [Source.bytes_of_read read, List.nil_append])
        (Source.bytes_of_endOfStream read)
  | case6 searched buffer source undecided source' read =>
      exact .waiting (by rw [Source.bytes_of_read read, List.nil_append])
        (Source.live_of_waiting read)

theorem reads_readHead (limits : Limits) (buffer : Bytes) (source : Source) :
    Reads limits source (buffer ++ source.bytes) (readHead limits buffer source) :=
  reads_readHeadOn (headSize?_take_three buffer)

theorem bytes_of_readHead (h : readHead limits buffer source = (.ready (.ok head), left, rest)) :
    head ++ left ++ rest.bytes = buffer ++ source.bytes := by
  have reads := reads_readHead limits buffer source
  rw [h] at reads
  cases reads with
  | found decided kept => exact kept

theorem headSize?_of_readHead
    (h : readHead limits buffer source = (.ready (.ok head), left, rest)) :
    headSize? head = some head.length := by
  have reads := reads_readHead limits buffer source
  rw [h] at reads
  cases reads with
  | found decided kept => exact (headIn_ok decided).1

/-! ## Until a call does not fail -/

/-- Reads a head, again after each read that fails, with what is then in the buffer. -/
def readHeadAgain (limits : Limits) (buffer : Bytes) (source : Source) :
    Polled (Except Fault Bytes) × Bytes × Source :=
  match _h : readHead limits buffer source with
  | (.ready (.error (.io _)), buffer', source') => readHeadAgain limits buffer' source'
  | result => result
termination_by source.pending.length
decreasing_by
  have reads := reads_readHead limits buffer source
  rw [_h] at reads
  cases reads with
  | failed kept ended less => exact less

theorem reads_readHeadAgain (limits : Limits) (buffer : Bytes) (source : Source) :
    ∃ source', source'.ended = source.ended ∧
      Reads limits source' (buffer ++ source.bytes) (readHeadAgain limits buffer source) ∧
      ∀ what left rest,
        readHeadAgain limits buffer source ≠ (.ready (.error (.io what)), left, rest) := by
  fun_induction readHeadAgain limits buffer source with
  | case1 buffer source what left rest fails ih =>
      have reads := reads_readHead limits buffer source
      rw [fails] at reads
      cases reads with
      | failed kept ended less =>
          obtain ⟨source', same, last⟩ := ih
          exact ⟨source', same.trans ended, kept ▸ last⟩
  | case2 buffer source answers => exact ⟨source, rfl, reads_readHead limits buffer source, answers⟩

/-- Reading to the end of a stream that ends gives the bytes up to its first blank line, if these
are not too many; else a fault, and which one is a matter of the stream and the limit alone.
Neither that nor a read that fails loses a byte. -/
theorem readHeadAgain_exact (limits : Limits) (buffer : Bytes) (pending : List Delivery) :
    let source : Source := ⟨pending, true⟩
    let stream := buffer ++ source.bytes
    (∀ what left rest, readHead limits buffer source = (.ready (.error (.io what)), left, rest) →
      left ++ rest.bytes = stream) ∧
    ∃ result left rest, readHeadAgain limits buffer source = (.ready result, left, rest) ∧
      (∀ size, FirstBlank stream size → size ≤ limits.handshakeSize →
        result = .ok (stream.take size) ∧ left ++ rest.bytes = stream.drop size) ∧
      (((∃ size, FirstBlank stream size ∧ limits.handshakeSize < size) ∨
          (∀ size, ¬ FirstBlank stream size) ∧ limits.handshakeSize < stream.length) →
        ∃ count, limits.handshakeSize < count ∧
          result = .error (.handshakeTooLarge count limits.handshakeSize) ∧
          left ++ rest.bytes = stream) ∧
      ((∀ size, ¬ FirstBlank stream size) → stream.length ≤ limits.handshakeSize →
        result = .error (.connectionClosed none) ∧ left ++ rest.bytes = stream) := by
  intro source stream
  constructor
  · intro what left rest fails
    have reads := reads_readHead limits buffer source
    rw [fails] at reads
    cases reads with
    | failed kept ended less => exact kept
  obtain ⟨source', live, reads, answers⟩ := reads_readHeadAgain limits buffer source
  change Reads limits source' stream _ at reads
  generalize readHeadAgain limits buffer source = outcome at reads answers
  clear_value stream
  cases reads with
  | @found head left rest decided kept =>
      obtain ⟨ends, fits, -⟩ := headIn_ok decided
      have here : FirstBlank stream head.length := by
        rw [← headSize?_eq_some_iff, ← kept, List.append_assoc]
        exact headSize?_append _ ends
      refine ⟨.ok head, left, rest, rfl, ?_, ?_, fun absent => absurd here (absent _)⟩
      · rintro size first -
        cases first.unique here
        rw [← kept, List.append_assoc, List.take_left, List.drop_left]
        exact ⟨rfl, rfl⟩
      · rintro (⟨size, first, large⟩ | ⟨absent, -⟩)
        · cases first.unique here
          omega
        · exact absurd here (absent _)
  | @large count left rest decided kept =>
      obtain ⟨_, is, large, -⟩ := headIn_error decided
      cases is
      -- what is too large in the buffer is too large in the stream
      obtain ⟨fault, verdict⟩ := headIn_append_fault rest.bytes decided
      obtain ⟨size, -, late, place⟩ := headIn_error (kept ▸ verdict)
      refine ⟨_, left, rest, rfl, ?_, fun _ => ⟨count, large, rfl, kept⟩, ?_⟩
      · intro size' first fits
        rw [← headSize?_eq_some_iff] at first
        rcases place with found | ⟨absent, -⟩
        · cases first.symm.trans found
          omega
        · cases first.symm.trans absent
      · intro absent short
        rw [← headSize?_eq_none_iff] at absent
        rcases place with found | ⟨-, rfl⟩
        · cases absent.symm.trans found
        · omega
  | failed kept ended less => exact absurd rfl (answers _ _ _)
  | @closed left rest undecided kept spent =>
      have all : left = stream := by rw [← kept, spent, List.append_nil]
      obtain ⟨absent, short⟩ := headIn_none (all ▸ undecided)
      rw [headSize?_eq_none_iff] at absent
      refine ⟨_, left, rest, rfl, fun size first => absurd first (absent size), ?_,
        fun _ _ => ⟨rfl, kept⟩⟩
      rintro (⟨size, first, -⟩ | ⟨-, long⟩)
      · exact absurd first (absent size)
      · omega
  | waiting kept waits => cases live.symm.trans waits

/-- A blank line in four pieces, with a read that fails between each two of them, and three
bytes behind it. -/
theorem readHeadAgain_exact_pieces :
    let pending : List Delivery := [.failure "reset", .bytes [10], .failure "reset", .bytes [13],
      .failure "reset", .bytes [10, 129], .bytes [1, 65]]
    FirstBlank [71, 13, 10, 13, 10, 129, 1, 65] 5 ∧
      ∃ left rest, readHeadAgain { handshakeSize := 5 } [71, 13] ⟨pending, true⟩ =
          (.ready (.ok [71, 13, 10, 13, 10]), left, rest) ∧
        left ++ rest.bytes = [129, 1, 65] := by
  intro pending
  have first : FirstBlank [71, 13, 10, 13, 10, 129, 1, 65] 5 :=
    headSize?_eq_some_iff.mp (by decide)
  obtain ⟨-, result, left, rest, is, found, -⟩ :=
    readHeadAgain_exact { handshakeSize := 5 } [71, 13] pending
  obtain ⟨rfl, kept⟩ := found 5 first (Nat.le_refl 5)
  exact ⟨first, left, rest, is, kept⟩

end DeflateTrial.Handshake
