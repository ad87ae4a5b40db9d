/-
Resuming — a message goes on where the one before it has stopped

A message may end inside a block, and then the next one goes on there: with the
item that was cut, and among the stored bytes or the symbols that are left.  So
what a message stands for depends on where the messages before it have left the
stream, and `Inflater.Decodes` says what it stands for there.

Wherever that is, nothing is owed (`Inflater.Attained.rests`), and from such a
place a decoder goes through what goes on as a stream does (`stops_of_continues`).
So after any messages that were decompressed, what is given for the next one is
what it stands for (`Inflater.stops_of_inflate`), and what is kept for the one
after it depends on where it ends (`Inflater.inflate_of_stops_rests`).
-/
import DeflateTrial.Proofs.Deflate.Truncation

namespace DeflateTrial.Deflate

section
variable {window limit own count : Nat} {past output text text' : Array UInt8} {bits : List Bool}
  {e : End} {final : Bool}

/-! ## Going on -/

theorem Continues.size_le_of_behind (h : Continues window (.behind final) text bits text' e) :
    text.size ≤ text'.size := by
  rcases h.of_behind with ⟨-, stream⟩ | ⟨-, rfl, -⟩
  · exact stream.size_le
  · exact Nat.le_refl _

theorem stops_of_behind (wide : window ≤ min own count)
    (h : Continues window (.behind final) text bits text' e) (ht : text = past ++ output)
    (fits : text'.size ≤ past.size + limit) :
    ∃ output', text' = past ++ output' ∧ ∀ buffer, Stops output' e
      (run limit own (Window.recent count past) buffer (.behind final) bits output) := by
  rcases h.of_behind with ⟨rfl, stream⟩ | ⟨rfl, rfl, rfl⟩
  · exact stops_of_stream wide stream ht fits
  · refine ⟨output, ht, fun buffer => ?_⟩
    rw [run_behind_final]
    exact .final

/-- From any place at which nothing is owed, a decoder goes through what goes on as a stream
does, and stops where its bits end. -/
theorem stops_of_continues (wide : window ≤ min own count) {position : Position}
    (idle : position.pending = .nothing) (h : Continues window position text bits text' e)
    (ht : text = past ++ output) (fits : text'.size ≤ past.size + limit) :
    ∃ output', text' = past ++ output' ∧ ∀ buffer, Stops output' e
      (run limit own (Window.recent count past) buffer position bits output) := by
  cases h with
  | header stream => exact stops_of_stream wide stream ht fits
  | ended =>
      refine ⟨output, ht, fun buffer => ?_⟩
      rw [run]
      exact .final
  | @stored final _ rest _ _ data behind =>
      subst ht
      have grown := behind.size_le_of_behind
      simp only [Array.size_append, List.size_toArray] at grown
      obtain ⟨output', ht', stops⟩ := stops_of_behind wide behind (Array.append_assoc ..) fits
      exact ⟨output', ht', (leadsTo_stored (by omega)).stops stops⟩
  | @storedPart final _ rest size data less short =>
      subst ht
      simp only [Array.size_append, List.size_toArray] at fits
      exact ⟨output ++ data.toArray, Array.append_assoc ..,
        stops_of_storedPart less short (by omega)⟩
  | coded items behind =>
      obtain ⟨middle, hm, coded⟩ :=
        leadsTo_items wide items ht (Nat.le_trans behind.size_le_of_behind fits)
      obtain ⟨output', ht', stops⟩ := stops_of_behind wide behind hm fits
      exact ⟨output', ht', coded.stops stops⟩
  | codedPart unended => exact stops_of_unended wide unended ht fits
  | literal _ => cases idle
  | copy _ _ => cases idle

end

theorem Halts.idle {halt : Halt} {place : Place} (halts : Halts halt place)
    (used : halt = .exhausted) : place.position.pending = .nothing := by
  cases halts with
  | header | stored | item => rfl
  | ended | full | failed => cases used

theorem idle_of_exhausted {limit own : Nat} {history : Array UInt8} (buffer : Buffer)
    (position : Position) (bits : List Bool) (output : Array UInt8) (proper : position.Proper)
    (used : (run limit own history buffer position bits output).halt = .exhausted) :
    (run limit own history buffer position bits output).position.pending = .nothing ∧
      (run limit own history buffer position bits output).position.Proper := by
  obtain ⟨steps, halts⟩ := run_steps limit own history buffer position bits output
  exact ⟨halts.idle used, proper_of_steps steps proper⟩

/-! ## Whole messages -/

namespace Inflater

variable {inflater : Inflater} {window : Nat} {data text : Bytes} {e : End}

/-- An inflater that no message has broken, and that owes nothing. -/
structure Rests (inflater : Inflater) : Prop where
  unbroken : inflater.broken = false
  idle : inflater.position.pending = .nothing
  proper : inflater.position.Proper

theorem rests_new (bits : Nat) (noContext : Bool) (maxSize : Nat) :
    (new bits noContext maxSize).Rests :=
  ⟨rfl, rfl, fun _ => rfl⟩

theorem stops_of_decodes (rests : inflater.Rests) (wide : window ≤ inflater.window)
    (decodes : inflater.Decodes window data text e) (small : text.length ≤ inflater.maxSize) :
    Stops text.toArray e (inflater.runOver data) :=
  stops_of_wide _ (Nat.le_max_right ..) (stops_of_continues (le_min_max wide _) rests.idle decodes
    Array.append_empty.symm (size_append_le small))

theorem Rests.bounds (rests : inflater.Rests) (window maxSize : Nat) :
    { inflater with window := window, maxSize := maxSize }.Rests :=
  ⟨rests.unbroken, rests.idle, rests.proper⟩

theorem Decodes.unique {text' : Bytes} {e' : End} (rests : inflater.Rests)
    (h : inflater.Decodes window data text e) (h' : inflater.Decodes window data text' e') :
    text = text' ∧ e = e' := by
  -- with the window and under a limit for both, a run stops at the one and at the other
  have wider := rests.bounds window (max text.length text'.length)
  obtain ⟨same, ends⟩ := (stops_of_decodes wider (Nat.le_refl _) h (Nat.le_max_left ..)).unique
    (stops_of_decodes wider (Nat.le_refl _) h' (Nat.le_max_right ..))
  exact ⟨by simpa using same, ends⟩

/-- What a run puts out within the limit is given.  The stream begins anew behind its last block,
and where messages stand on their own; otherwise the text comes to what was before it. -/
theorem inflate_of_stops_rests (rests : inflater.Rests)
    (stops : Stops text.toArray e (inflater.runOver data))
    (small : text.length ≤ inflater.maxSize) :
    ∃ next, inflater.inflate data = (.ok text, next) ∧ next.Rests ∧
      next.noContext = inflater.noContext ∧ next.maxSize = inflater.maxSize ∧
      (e = .final ∨ inflater.noContext = true → next = inflater.reset) ∧
      (¬ (e = .final ∨ inflater.noContext = true) → next.window = inflater.window ∧
        next.history = Window.recent inflater.window (inflater.history ++ text.toArray)) := by
  refine ⟨_, inflate_of_stops rests.unbroken stops small, ?_⟩
  by_cases anew : e = .final ∨ inflater.noContext = true
  · rw [if_pos anew]
    exact ⟨rests_new .., rfl, rfl, fun _ => rfl, fun kept => absurd anew kept⟩
  · have used : (inflater.runOver data).halt = .exhausted :=
      stops.exhausted fun last => anew (.inl last)
    obtain ⟨idle, proper⟩ := idle_of_exhausted _ _ _ _ rests.proper used
    rw [if_neg anew, ← stops.sound.1]
    exact ⟨⟨rests.unbroken, idle, proper⟩, rfl, rfl, fun is => absurd is anew, fun _ => ⟨rfl, rfl⟩⟩

theorem stops_of_inflate (rests : inflater.Rests) (given : (inflater.inflate data).1 = .ok text) :
    text.length ≤ inflater.maxSize ∧ ∃ e,
      inflater.Decodes (Window.size Window.maxBits) data text e ∧
        Stops text.toArray e (inflater.runOver data) := by
  obtain ⟨small, e, decodes⟩ := decodes_of_inflate rests.unbroken rests.proper given
  have wider := stops_of_decodes (rests.bounds _ _) (inflater.le_widened _) decodes small
  exact ⟨small, e, decodes, stops_of_ok rests.unbroken wider given⟩

/-- An inflater that messages have led to, each of them decompressed, wherever it has ended. -/
inductive Attained (bits : Nat) (noContext : Bool) (maxSize : Nat) : Inflater → Prop where
  | new : Attained bits noContext maxSize (.new bits noContext maxSize)
  | next {inflater next : Inflater} {data text : Bytes}
      (attained : Attained bits noContext maxSize inflater)
      (inflated : inflater.inflate data = (.ok text, next)) :
      Attained bits noContext maxSize next

theorem Attained.rests {bits : Nat} {noContext : Bool} {maxSize : Nat}
    (attained : Attained bits noContext maxSize inflater) :
    inflater.Rests ∧ inflater.noContext = noContext ∧ inflater.maxSize = maxSize := by
  induction attained with
  | new => exact ⟨rests_new bits noContext maxSize, rfl, rfl⟩
  | @next inflater next data text _ inflated ih =>
      obtain ⟨rests, rfl, rfl⟩ := ih
      obtain ⟨small, e, -, stops⟩ := stops_of_inflate rests (congrArg Prod.fst inflated)
      obtain ⟨after, inflated', rests', same, same', -⟩ := inflate_of_stops_rests rests stops small
      obtain rfl : next = after := congrArg Prod.snd (inflated.symm.trans inflated')
      exact ⟨rests', same, same'⟩

/-! ## Beginning anew -/

/-- Where messages stand on their own, or one has ended in the last block of its stream, what is
left is the inflater at the beginning of a stream with the widest window, whatever messages there
were and whatever stood behind that block.  In all other cases the window stays, and what is kept
are the last bytes of what was kept and of the message. -/
theorem forgets {bits : Nat} {noContext : Bool} {maxSize : Nat} {next : Inflater}
    (attained : Attained bits noContext maxSize inflater)
    (inflated : inflater.inflate data = (.ok text, next)) :
    (noContext = true ∨ inflater.Decodes (Window.size Window.maxBits) data text .final →
      next = new Window.maxBits noContext maxSize) ∧
    (¬ (noContext = true ∨ inflater.Decodes (Window.size Window.maxBits) data text .final) →
      next.window = inflater.window ∧
        next.history = Window.recent inflater.window (inflater.history ++ text.toArray)) := by
  obtain ⟨rests, rfl, rfl⟩ := attained.rests
  obtain ⟨small, e, decodes, stops⟩ := stops_of_inflate rests (congrArg Prod.fst inflated)
  obtain ⟨after, inflated', -, -, -, anew, kept⟩ := inflate_of_stops_rests rests stops small
  obtain rfl : next = after := congrArg Prod.snd (inflated.symm.trans inflated')
  have last : inflater.Decodes (Window.size Window.maxBits) data text .final ↔ e = .final := by
    constructor
    · intro final
      exact (decodes.unique rests final).2
    · rintro rfl
      exact decodes
  rw [last, or_comm]
  exact ⟨anew, kept⟩

/-- A narrow window, a message before, and bytes behind the last block of the stream. -/
theorem forgets_last :
    ∃ inflater next, Attained 9 false 64 inflater ∧
      inflater.history = #[97] ∧
      inflater.inflate [1, 1, 0, 254, 255, 98, 7, 7] = (.ok [98], next) ∧
      inflater.Decodes (Window.size Window.maxBits) [1, 1, 0, 254, 255, 98, 7, 7] [98] .final ∧
      next = new Window.maxBits false 64 := by
  have fresh : (new 9 false 64).Stands (new 9 false 64).history := stands_new 9 false 64
  have before : (new 9 false 64).Spells (Window.size 9) [0, 1, 0, 254, 255, 97, 0] [97]
      .boundary := by
    have closing : Blocks (Window.size 9) (#[] ++ [97].toArray) (Bits.ofBytes (0 :: Window.tail))
        (#[] ++ [97].toArray) := blocks_closing (by decide : 5 < 8)
    have short : ([97] : Bytes).length ≤ 65535 := by decide
    exact (blocks_storedHeader short closing).stream
  have stopped := stops_runOver fresh (Nat.le_refl _) before (by decide)
  obtain ⟨inflater, first, size, -, stands⟩ := inflate_of_stops_stands fresh stopped (by decide)
  obtain ⟨after, first', -, -, -, -, kept⟩ :=
    inflate_of_stops_rests (rests_new 9 false 64) stopped (by decide)
  obtain rfl : inflater = after := congrArg Prod.snd (first.symm.trans first')
  have attained : Attained 9 false 64 inflater := .next .new first
  have stands := stands (by decide)
  have last (window : Nat) : inflater.Spells window [1, 1, 0, 254, 255, 98, 7, 7] [98] .final := by
    have read : Block.readHeader (Bits.ofBytes ([1, 1, 0, 254, 255, 98, 7, 7] ++ Window.tail)) =
        .done (true, .stored ([98] : Bytes).length)
          (Bits.ofBytes [98] ++ Bits.ofBytes ([7, 7] ++ Window.tail)) := rfl
    exact .storedFinal read
  obtain ⟨next, inflated, -⟩ :=
    inflate_of_spells stands (Nat.le_refl _) (last _) (by rw [size]; decide)
  have decodes := stands.decodes_iff.mpr (last (Window.size Window.maxBits))
  exact ⟨inflater, next, attained, (kept (by decide)).2.trans (by decide), inflated, decodes,
    (forgets attained inflated).1 (.inr decodes)⟩

end Inflater

end DeflateTrial.Deflate
