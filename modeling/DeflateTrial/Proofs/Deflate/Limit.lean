/-
Limit — how much is decompressed of a message over its limit

The limit is not looked at for every byte, but when the buffer is full, and when
the bits are used up.  A full buffer is only doubled while it is not over the
limit, so it never holds more than twice the limit, or than it was made for at
first (`size_run_le`), and no message is refused with a size beyond that.

That what has been put out by then are bytes of the message is said without the
run.  The bits of a message bring a text if the steps of a stream lead to it,
whatever stands behind the bits that are read for it, be it malformed
(`Inflater.Brings`).  A run brings what it puts out, and what is brought is a
front of what the message decodes to, if it decodes to anything
(`Inflater.Brings.isPrefix`): steps that lead backwards through what goes on as a
stream does, lead forwards too (`Continues.behind`).
-/
import DeflateTrial.Proofs.Deflate.Resuming

namespace DeflateTrial.Deflate

open Relation (ReflTransGen)

/-! ## Steps forwards -/

section
variable {window : Nat} {text text' : Array UInt8} {bits rest : List Bool} {e : End} {final : Bool}

theorem readHeader_nil : Block.readHeader [] = .short := rfl

theorem Stream.inBlock {block : Block}
    (read : Block.readHeader bits = .done (final, block) rest)
    (h : Stream window text bits text' e) :
    Continues window (.inBlock final block) text rest text' e := by
  cases h with
  | boundary =>
      rw [readHeader_nil] at read
      cases read
  | header _ short =>
      rw [short] at read
      cases read
  | stored read' stream =>
      rw [read'] at read
      cases read
      exact .stored (.header stream)
  | storedFinal read' =>
      rw [read'] at read
      cases read
      exact .stored .ended
  | storedPart read' less short =>
      rw [read'] at read
      cases read
      exact .storedPart less short
  | coded read' items stream =>
      rw [read'] at read
      cases read
      exact .coded items (.header stream)
  | codedFinal read' items =>
      rw [read'] at read
      cases read
      exact .coded items .ended
  | codedPart read' unended =>
      rw [read'] at read
      cases read
      exact .codedPart unended

theorem Continues.storedByte {left n : Nat} (read : readNat 8 bits = .done n rest)
    (h : Continues window ⟨final, .stored (left + 1), .nothing⟩ text bits text' e) :
    Continues window ⟨final, .stored left, .nothing⟩ (text.push (UInt8.ofNat n)) rest text' e := by
  obtain ⟨data, more, rfl, place⟩ := h.of_stored
  cases data with
  | nil =>
      rcases place with ⟨none, -⟩ | ⟨-, short, -⟩
      · cases none
      · rw [readNat_short (by simpa [Bits.ofBytes] using short)] at read
        cases read
  | cons byte data =>
      have pushed : text ++ (byte :: data).toArray = text.push byte ++ data.toArray := by simp
      rw [readNat_ofBytes_cons] at read
      cases read
      rw [UInt8.ofNat_toNat]
      rcases place with ⟨whole, behind⟩ | ⟨less, short, rfl, rfl⟩
      · obtain rfl : left = data.length := Nat.succ.inj whole
        rw [pushed] at behind
        exact .stored behind
      · rw [pushed]
        exact .storedPart (Nat.lt_of_succ_lt_succ less) short

theorem Continues.item {literals distances : Code} {item : Item}
    (read : readItem literals distances bits = .done item rest)
    (h : Continues window ⟨final, .coded literals distances, .nothing⟩ text bits text' e) :
    Continues window (Position.afterItem ⟨final, .coded literals distances, .nothing⟩ item)
      text rest text' e := by
  rcases h.of_coded with ⟨mid, behind, items, onwards⟩ | ⟨unended, rfl⟩
  · cases items with
    | stop read' =>
        rw [read'] at read
        cases read
        exact onwards
    | literal read' items =>
        rw [read'] at read
        cases read
        exact .literal (.coded items onwards)
    | copy read' _ _ inside items =>
        rw [read'] at read
        cases read
        exact .copy (fun _ => inside) (.coded items onwards)
  · cases unended with
    | short short =>
        rw [short] at read
        cases read
    | literal read' unended =>
        rw [read'] at read
        cases read
        exact .literal (.codedPart unended)
    | copy read' _ _ inside unended =>
        rw [read'] at read
        cases read
        exact .copy (fun _ => inside) (.codedPart unended)

theorem Continues.behind {place next : Place} (step : Step place next)
    (h : Continues window place.position place.text place.bits text' e) :
    Continues window next.position next.text next.bits text' e := by
  cases step with
  | header read =>
      cases h with
      | header stream => exact stream.inBlock read
  | stored read => exact h.storedByte read
  | storedEnd =>
      obtain ⟨data, rest, rfl, ⟨none, behind⟩ | ⟨less, -⟩⟩ := h.of_stored
      · obtain rfl : data = [] := List.length_eq_zero_iff.mp none.symm
        rwa [Array.append_empty] at behind
      · exact absurd less (Nat.not_lt_zero _)
  | item read => exact h.item read
  | literal =>
      cases h with
      | literal h => exact h
  | copyEnd =>
      cases h with
      | copy _ h => exact h
  | copy inside =>
      cases h with
      | copy _ h =>
          refine .copy (fun _ => ?_) h
          rw [Array.size_push]
          omega

theorem Continues.behind_steps {place last : Place} (steps : ReflTransGen Step place last)
    (h : Continues window place.position place.text place.bits text' e) :
    Continues window last.position last.text last.bits text' e := by
  induction steps with
  | refl => exact h
  | tail _ step ih => exact ih.behind step

theorem Continues.begins {position : Position} (h : Continues window position text bits text' e) :
    ∃ more, text' = text ++ more := by
  have onwards {final : Bool} {stage : Stage} {text : Array UInt8}
      (h : Continues window ⟨final, stage, .nothing⟩ text bits text' e) :
      ∃ more, text' = text ++ more := by
    -- a run that has put out nothing yet puts out the rest
    obtain ⟨more, split, -⟩ := stops_of_continues (Nat.le_of_eq (Nat.min_self window).symm) rfl h
      Array.append_empty.symm (Nat.le_add_left text'.size text.size)
    exact ⟨more, split⟩
  obtain ⟨final, stage, pending⟩ := position
  cases pending with
  | nothing => exact onwards h
  | literal byte =>
      cases h with
      | literal h =>
          obtain ⟨more, rfl⟩ := onwards h
          rw [Array.push_eq_append, Array.append_assoc]
          exact ⟨_, rfl⟩
  | copy count distance =>
      cases h with
      | copy _ h =>
          obtain ⟨more, rfl⟩ := onwards h
          obtain ⟨copied, repeated⟩ := Token.exists_repeatBytes text distance count
          rw [repeated, Array.append_assoc]
          exact ⟨_, rfl⟩

end

/-! ## The buffer -/

/-- A buffer that holds an output, and is not larger than a bound. -/
structure Buffer.Within (bound size : Nat) (buffer : Buffer) : Prop where
  held : size ≤ buffer.capacity
  positive : 0 < buffer.capacity
  least : buffer.capacity ≤ bound

theorem Buffer.Within.makeRoom {limit size bound : Nat} {buffer room : Buffer}
    (within : buffer.Within bound size) (twice : 2 * limit ≤ bound)
    (made : makeRoom? limit buffer size = some room) : room.Within bound (size + 1) := by
  obtain ⟨held, positive, least⟩ := within
  unfold makeRoom? at made
  split at made
  · cases made
    exact ⟨‹_›, positive, least⟩
  · split at made
    · cases made
    · cases made
      constructor
      all_goals dsimp only
      all_goals omega

theorem size_run_le {limit own bound : Nat} {history : Array UInt8} (twice : 2 * limit ≤ bound)
    (buffer : Buffer) (position : Position) (bits : List Bool) (output : Array UInt8)
    (within : buffer.Within bound output.size) :
    (run limit own history buffer position bits output).output.size ≤ bound := by
  have pushed {buffer room : Buffer} {output : Array UInt8} (byte : UInt8)
      (within : buffer.Within bound output.size)
      (made : makeRoom? limit buffer output.size = some room) :
      room.Within bound (output.push byte).size := by
    rw [Array.size_push]
    exact within.makeRoom twice made
  fun_induction run limit own history buffer position bits output with
  | case1 | case4 | case5 | case7 | case8 | case9 | case12 | case13 | case14 | case16 | case17 =>
      exact Nat.le_trans within.held within.least
  | case2 buffer position bits output byte hp room made ih => exact ih (pushed byte within made)
  | case6 buffer position bits output count distance hp room made byte back ih =>
      exact ih (pushed byte within made)
  | case15 buffer position bits output hp left hs room made n rest read ih =>
      exact ih (pushed (UInt8.ofNat n) within made)
  | case3 _ _ _ _ _ _ ih | case10 _ _ _ _ _ _ _ _ _ _ ih | case11 _ _ _ _ _ _ ih
  | case18 _ _ _ _ _ _ _ _ _ _ _ ih => exact ih within

/-! ## Whole messages -/

namespace Inflater

variable {inflater : Inflater} {data : Bytes}

/-- Where the inflater stands, with the bits of a message and its tail in front of it. -/
def placeBefore (inflater : Inflater) (data : Bytes) : Place :=
  ⟨inflater.position, inflater.history, inflater.carry ++ Bits.ofBytes (data ++ Window.tail)⟩

/-- From where the inflater stands, the bits of a message bring a text by some steps, whatever
stands behind the bits that are read for them. -/
def Brings (inflater : Inflater) (data front : Bytes) : Prop :=
  ∃ place, ReflTransGen Step (inflater.placeBefore data) place ∧
    place.text = inflater.history ++ front.toArray

theorem Brings.isPrefix {window : Nat} {front text : Bytes} {e : End}
    (brings : inflater.Brings data front) (decodes : inflater.Decodes window data text e) :
    front <+: text := by
  obtain ⟨place, steps, there⟩ := brings
  obtain ⟨more, split⟩ := (Continues.behind_steps steps decodes).begins
  rw [there, Array.append_assoc, Array.append_right_inj] at split
  exact ⟨more.toList, by simpa using (congrArg Array.toList split).symm⟩

theorem brings_runOver (inflater : Inflater) (data : Bytes) :
    inflater.Brings data (inflater.runOver data).output.toList := by
  obtain ⟨steps, -⟩ := run_steps inflater.maxSize inflater.window inflater.history
    ⟨max (2 * data.length) 64, 0⟩ inflater.position
    (inflater.carry ++ Bits.ofBytes (data ++ Window.tail)) #[]
  rw [Array.append_empty] at steps
  exact ⟨_, steps, by rw [Array.toArray_toList]; rfl⟩

theorem size_runOver_le (inflater : Inflater) (data : Bytes) :
    (inflater.runOver data).output.size ≤
      max (max (2 * data.length) 64) (2 * inflater.maxSize) := by
  have some_ : 0 < max (2 * data.length) 64 := Nat.lt_of_lt_of_le (by decide) (Nat.le_max_right ..)
  exact size_run_le (Nat.le_max_right ..) _ _ _ _ ⟨Nat.zero_le _, some_, Nat.le_max_left ..⟩

theorem exists_of_tooLarge {size most : Nat}
    (h : (inflater.inflate data).1 = .error (.messageTooLarge size most)) :
    most = inflater.maxSize ∧ inflater.maxSize < size ∧
      size = (inflater.runOver data).output.size := by
  unfold inflate settle at h
  split at h
  · cases h
  · split at h
    · cases h
    · dsimp only at h
      split at h
      · cases h
        exact ⟨rfl, ‹_›, rfl⟩
      · cases h

/-- What a limit makes of a text: the text itself, or a refusal for its size. -/
def Limited (maxSize : Nat) (text : Bytes) (outcome : Except Fault Bytes) : Prop :=
  (text.length ≤ maxSize → outcome = .ok text) ∧
    (maxSize < text.length → ∃ size, outcome = .error (.messageTooLarge size maxSize))

theorem limited_of_decodes {window : Nat} {text : Bytes} {e : End} (rests : inflater.Rests)
    (wide : window ≤ inflater.window) (decodes : inflater.Decodes window data text e) :
    Limited inflater.maxSize text (inflater.inflate data).1 := by
  refine ⟨fun small => ?_, fun large => ?_⟩
  · rw [inflate_of_stops rests.unbroken (stops_of_decodes rests wide decodes small) small]
  · -- under a limit as large as the text, the run would put all of it out
    obtain ⟨size, -, refused⟩ := inflate_of_stops_over rests.unbroken
      (stops_of_decodes (rests.bounds _ _) wide decodes (Nat.le_refl _)) large
    exact ⟨size, refused⟩

/-- After any messages that were decompressed, what is given for the next one is what it decodes
to, and within the limit.  What it decodes to is given if it is within the limit, and refused for
its size if it is over it, provided that no copy begins further back than the inflater's window;
beyond that, though within the widest window, a copy may be refused as beginning too far back, but
there is no third thing.  Where a message is refused for its size, it brings so many bytes, and
they are more than the limit, but no more than twice the limit or the size of the first buffer. -/
theorem inflate_bounded {bits : Nat} {noContext : Bool} {maxSize : Nat}
    (attained : Attained bits noContext maxSize inflater) (data : Bytes) :
    (∀ text, (inflater.inflate data).1 = .ok text →
      text.length ≤ maxSize ∧ ∃ e, inflater.Decodes (Window.size Window.maxBits) data text e) ∧
    (∀ text e, inflater.Decodes inflater.window data text e →
      Limited maxSize text (inflater.inflate data).1) ∧
    (∀ text e, inflater.Decodes (Window.size Window.maxBits) data text e →
      Limited maxSize text (inflater.inflate data).1 ∨
        (inflater.inflate data).1 = .error (failure (some .distanceTooFar))) ∧
    ∀ size most, (inflater.inflate data).1 = .error (.messageTooLarge size most) →
      most = maxSize ∧ maxSize < size ∧ size ≤ max (max (2 * data.length) 64) (2 * maxSize) ∧
      ∃ front, front.length = size ∧ inflater.Brings data front ∧
        ∀ text e, inflater.Decodes (Window.size Window.maxBits) data text e → front <+: text := by
  obtain ⟨rests, rfl, rfl⟩ := attained.rests
  refine ⟨fun text => decodes_of_inflate rests.unbroken rests.proper,
    fun text e => limited_of_decodes rests (Nat.le_refl _), fun text e decodes => ?_, ?_⟩
  · have limited := limited_of_decodes (rests.bounds _ _) (inflater.le_widened _) decodes
    rcases inflate_widened rests.unbroken (Window.size Window.maxBits) data with same | failed
    · rw [same]
      exact .inl limited
    · exact .inr failed
  · intro size most refused
    obtain ⟨same, more, rfl⟩ := exists_of_tooLarge refused
    have brought := brings_runOver inflater data
    exact ⟨same, more, size_runOver_le inflater data, _, Array.length_toList, brought,
      fun text e decodes => brought.isPrefix decodes⟩

/-- A letter and a hundred copies of it, for which the first buffer is too small: given under a
limit that they just keep to, and refused under the one below it. -/
theorem inflate_bounded_grown :
    let data := Bits.toBytes (Compressor.fixedBlock [.literal 97, .copy 100 1])
    Attained 15 false 101 (new 15 false 101) ∧ Attained 15 false 100 (new 15 false 100) ∧
      ((new 15 false 101).inflate data).1 = .ok (List.replicate 101 97) ∧
      ∃ size, ((new 15 false 100).inflate data).1 = .error (.messageTooLarge size 100) ∧
        100 < size ∧ size ≤ max (max (2 * data.length) 64) 200 := by
  intro data
  have spelled : Deflate.Spells (Window.size 15) #[] [.literal 97, .copy 100 1]
      (List.replicate 101 97).toArray := by
    have repeated : (Token.copy 100 1).expand ((Token.literal 97).expand #[]) =
        (List.replicate 101 97).toArray := by
      rw [List.toArray_replicate]
      exact Token.repeatBytes_replicate 97 0 100
    rw [← repeated]
    exact .cons trivial (.cons ⟨by decide, by decide, by decide, by decide, by decide⟩ .nil)
  have decodes (maxSize : Nat) :
      (new 15 false maxSize).Decodes (Window.size 15) data (List.replicate 101 97) .boundary := by
    have stands : (new 15 false maxSize).Stands (new 15 false maxSize).history :=
      stands_new 15 false maxSize
    have whole : (new 15 false maxSize).history ++ (List.replicate 101 97).toArray =
        (List.replicate 101 97).toArray := Array.empty_append
    rw [stands.decodes_iff, Inflater.Spells, whole]
    exact (blocks_fixedBlock spelled (Nat.le_refl _)).stream
  have attained : Attained 15 false 101 (new 15 false 101) := .new
  have attained' : Attained 15 false 100 (new 15 false 100) := .new
  obtain ⟨-, given, -, -⟩ := inflate_bounded attained data
  obtain ⟨-, limited, -, refused⟩ := inflate_bounded attained' data
  obtain ⟨size, error⟩ := (limited _ _ (decodes 100)).2 (by decide)
  obtain ⟨-, more, within, -⟩ := refused size 100 error
  exact ⟨attained, attained', (given _ _ (decodes 101)).1 (by decide), size, error, more, within⟩

end Inflater

end DeflateTrial.Deflate
