/-
Truncation — a message that is cut short is taken for a whole one

What an inflater gives for a message is what its bits spell as far as they go,
and it gives that wherever they end: between two blocks, behind the last one,
or inside one.  Only a copy that begins further back than its window may keep
it from giving that (`Inflater.inflates_as_spelled`).  So a message of which
the end is missing is not refused but handed on without its end, with what the
bytes of the tail stand for in its place (`Inflater.inflates_cutShort`).

That the bits are a stream as far as they go is read off the run.  `Continues`
says of any place in a stream what `Stream` says of the place between two
blocks, and it is closed under the steps of a run backwards.
-/
import DeflateTrial.Proofs.Deflate.Soundness
import DeflateTrial.Proofs.Deflate.Steps
import DeflateTrial.Proofs.Deflate.Streams

namespace DeflateTrial.Deflate

open Relation (ReflTransGen)

/-! ## What a reading has read -/

theorem of_readNat {width n : Nat} {bits rest : List Bool} (h : readNat width bits = .done n rest) :
    n < 1 <<< width ∧ bits = Bits.ofNat width n ++ rest := by
  unfold readNat at h
  dsimp only at h
  split at h
  · cases h
  · rename_i enough
    cases h
    have length : (bits.take width).length = width :=
      Nat.le_antisymm (List.length_take_le ..) (Nat.le_of_not_lt enough)
    have least := Bits.toNat_lt (bits.take width)
    have front := Bits.ofNat_toNat (bits.take width) 0
    rw [length] at least
    rw [length, Nat.add_zero, List.replicate_zero, List.append_nil] at front
    refine ⟨least, ?_⟩
    rw [front, List.take_append_drop]

theorem short_of_readNat {width : Nat} {bits : List Bool} (h : readNat width bits = .short) :
    bits.length < width := by
  unfold readNat at h
  dsimp only at h
  split at h
  · rename_i few
    rw [List.length_take] at few
    omega
  · cases h

theorem ofBytes_of_readNat {n : Nat} {bits rest more : List Bool} {data : Bytes}
    (read : readNat 8 bits = .done n rest) (behind : rest = Bits.ofBytes data ++ more) :
    bits = Bits.ofBytes (UInt8.ofNat n :: data) ++ more := by
  obtain ⟨small, front⟩ := of_readNat read
  have value : (UInt8.ofNat n).toNat = n := UInt8.toNat_ofNat_of_lt' small
  rw [front, behind, Bits.ofBytes_cons, value, List.append_assoc]

theorem Reading.of_andThen {α β : Type} {reading : Reading α} {next : α → List Bool → Reading β}
    {value : β} {rest : List Bool} (h : reading.andThen next = .done value rest) :
    ∃ first mid, reading = .done first mid ∧ next first mid = .done value rest := by
  cases reading with
  | done first mid => exact ⟨first, mid, rfl, h⟩
  | short => cases h
  | bad error => cases h

theorem least_lengthRanges : ∀ range ∈ lengthRanges, 3 ≤ range.least := by decide

theorem bounds_distanceRanges : ∀ range ∈ distanceRanges,
    1 ≤ range.least ∧ range.least + 1 <<< range.extra ≤ 32769 := by decide

theorem bounds_of_readItem {literals distances : Code} {bits rest : List Bool}
    {count distance : Nat}
    (h : readItem literals distances bits = .done (.copy count distance) rest) :
    0 < count ∧ 0 < distance ∧ distance ≤ Window.size Window.maxBits := by
  obtain ⟨symbol, mid, -, h⟩ := Reading.of_andThen h
  split at h
  · cases h
  · split at h
    · cases h
    · split at h
      · cases h
      · rename_i range found
        obtain ⟨n, mid, -, h⟩ := Reading.of_andThen h
        obtain ⟨distance, mid, read, h⟩ := Reading.of_andThen h
        cases h
        have least := least_lengthRanges range (Array.mem_of_getElem? found)
        refine ⟨by omega, ?_⟩
        obtain ⟨symbol, mid, -, read⟩ := Reading.of_andThen read
        split at read
        · cases read
        · rename_i range found
          obtain ⟨n, mid, extra, read⟩ := Reading.of_andThen read
          cases read
          obtain ⟨least, most⟩ := bounds_distanceRanges range (Array.mem_of_getElem? found)
          have small := (of_readNat extra).1
          have wide : Window.size Window.maxBits = 32768 := by decide
          omega

/-! ## Any place in a stream -/

/-- From a place in a stream, bits that go on as a stream does take a text to a
longer one. -/
inductive Continues (window : Nat) :
    Position → Array UInt8 → List Bool → Array UInt8 → End → Prop
  | header {text bits text' e} :
      Stream window text bits text' e →
      Continues window ⟨false, .header, .nothing⟩ text bits text' e
  | ended {final text bits} :
      Continues window ⟨final, .ended, .nothing⟩ text bits text .final
  | stored {final text rest text' e} {data : Bytes} :
      Continues window (.behind final) (text ++ data.toArray) rest text' e →
      Continues window ⟨final, .stored data.length, .nothing⟩ text (Bits.ofBytes data ++ rest)
        text' e
  | storedPart {final text rest left} {data : Bytes} :
      data.length < left → rest.length < 8 →
      Continues window ⟨final, .stored left, .nothing⟩ text (Bits.ofBytes data ++ rest)
        (text ++ data.toArray) .inside
  | coded {final literals distances text bits text₁ rest text' e} :
      Items window literals distances text bits text₁ rest →
      Continues window (.behind final) text₁ rest text' e →
      Continues window ⟨final, .coded literals distances, .nothing⟩ text bits text' e
  | codedPart {final literals distances text bits text'} :
      Unended window literals distances text bits text' →
      Continues window ⟨final, .coded literals distances, .nothing⟩ text bits text' .inside
  | literal {final stage byte text bits text' e} :
      Continues window ⟨final, stage, .nothing⟩ (text.push byte) bits text' e →
      Continues window ⟨final, stage, .literal byte⟩ text bits text' e
  | copy {final stage count distance text bits text' e} :
      (0 < count → distance ≤ text.size) →
      Continues window ⟨final, stage, .nothing⟩ (Token.repeatBytes text distance count) bits
        text' e →
      Continues window ⟨final, stage, .copy count distance⟩ text bits text' e

variable {window : Nat} {text text' : Array UInt8} {bits rest : List Bool} {e : End}
  {final : Bool}

theorem Continues.of_behind (h : Continues window (.behind final) text bits text' e) :
    (final = false ∧ Stream window text bits text' e) ∨
      (final = true ∧ text' = text ∧ e = .final) := by
  cases final with
  | false =>
      generalize place : Position.behind false = position at h
      cases h <;> cases place
      rename_i stream
      exact .inl ⟨rfl, stream⟩
  | true =>
      generalize place : Position.behind true = position at h
      cases h <;> cases place
      exact .inr ⟨rfl, rfl, rfl⟩

theorem Continues.of_coded {literals distances : Code}
    (h : Continues window ⟨final, .coded literals distances, .nothing⟩ text bits text' e) :
    (∃ mid rest, Items window literals distances text bits mid rest ∧
        Continues window (.behind final) mid rest text' e) ∨
      (Unended window literals distances text bits text' ∧ e = .inside) := by
  cases h with
  | coded items behind => exact .inl ⟨_, _, items, behind⟩
  | codedPart unended => exact .inr ⟨unended, rfl⟩

theorem Continues.of_stored {left : Nat}
    (h : Continues window ⟨final, .stored left, .nothing⟩ text bits text' e) :
    ∃ (data : Bytes) (rest : List Bool), bits = Bits.ofBytes data ++ rest ∧
      ((left = data.length ∧ Continues window (.behind final) (text ++ data.toArray) rest text' e) ∨
        (data.length < left ∧ rest.length < 8 ∧ text' = text ++ data.toArray ∧ e = .inside)) := by
  cases h with
  | @stored _ _ rest _ _ data behind => exact ⟨data, rest, rfl, .inl ⟨rfl, behind⟩⟩
  | @storedPart _ _ rest _ data less short =>
      exact ⟨data, rest, rfl, .inr ⟨less, short, rfl, rfl⟩⟩

/-! ## Steps backwards -/

theorem Stream.of_inBlock {block : Block}
    (read : Block.readHeader bits = .done (final, block) rest)
    (h : Continues window (.inBlock final block) text rest text' e) :
    Stream window text bits text' e := by
  cases block with
  | stored size =>
      obtain ⟨data, rest, rfl, ⟨rfl, behind⟩ | ⟨less, short, rfl, rfl⟩⟩ :=
        Continues.of_stored h
      · rcases behind.of_behind with ⟨rfl, stream⟩ | ⟨rfl, rfl, rfl⟩
        · exact .stored read stream
        · exact .storedFinal read
      · exact .storedPart read less short
  | coded literals distances =>
      rcases Continues.of_coded h with ⟨mid, rest, items, behind⟩ | ⟨unended, rfl⟩
      · rcases behind.of_behind with ⟨rfl, stream⟩ | ⟨rfl, rfl, rfl⟩
        · exact .coded read items stream
        · exact .codedFinal read items
      · exact .codedPart read unended

theorem Continues.of_stored_zero (h : Continues window (.behind final) text bits text' e) :
    Continues window ⟨final, .stored 0, .nothing⟩ text bits text' e := by
  have none : text ++ ([] : Bytes).toArray = text := Array.append_empty
  rw [← none] at h
  exact .stored h

theorem Continues.of_stored_short {left : Nat} (short : bits.length < 8) :
    Continues window ⟨final, .stored (left + 1), .nothing⟩ text bits text .inside := by
  have none : text ++ ([] : Bytes).toArray = text := Array.append_empty
  have part : Continues window ⟨final, .stored (left + 1), .nothing⟩ text
      (Bits.ofBytes [] ++ bits) (text ++ ([] : Bytes).toArray) .inside :=
    .storedPart (Nat.succ_pos left) short
  rw [none] at part
  exact part

theorem Continues.of_storedByte {left n : Nat} (read : readNat 8 bits = .done n rest)
    (h : Continues window ⟨final, .stored left, .nothing⟩ (text.push (UInt8.ofNat n)) rest
      text' e) :
    Continues window ⟨final, .stored (left + 1), .nothing⟩ text bits text' e := by
  have pushed : ∀ data : Bytes, text.push (UInt8.ofNat n) ++ data.toArray =
      text ++ (UInt8.ofNat n :: data).toArray := fun data => by simp
  obtain ⟨data, more, behind_eq, ⟨rfl, behind⟩ | ⟨less, short, rfl, rfl⟩⟩ := h.of_stored
  · rw [pushed] at behind
    rw [ofBytes_of_readNat read behind_eq]
    exact .stored behind
  · rw [pushed, ofBytes_of_readNat read behind_eq]
    exact .storedPart (Nat.succ_lt_succ less) short

theorem Continues.of_item {literals distances : Code} {item : Item}
    (read : readItem literals distances bits = .done item rest)
    (wide : Window.size Window.maxBits ≤ window)
    (h : Continues window (Position.afterItem ⟨final, .coded literals distances, .nothing⟩ item)
      text rest text' e) :
    Continues window ⟨final, .coded literals distances, .nothing⟩ text bits text' e := by
  cases item with
  | literal byte =>
      cases h with
      | literal h =>
          rcases h.of_coded with ⟨mid, rest, items, behind⟩ | ⟨unended, rfl⟩
          · exact .coded (.literal read items) behind
          · exact .codedPart (.literal read unended)
  | copy count distance =>
      obtain ⟨some, pos, near⟩ := bounds_of_readItem read
      cases h with
      | copy inside h =>
          have near := Nat.le_trans near wide
          rcases h.of_coded with ⟨mid, rest, items, behind⟩ | ⟨unended, rfl⟩
          · exact .coded (.copy read pos near (inside some) items) behind
          · exact .codedPart (.copy read pos near (inside some) unended)
  | endOfBlock => exact .coded (.stop read) h

/-- A place that a stream can be at: a header is read only where no last block
has been. -/
def Position.Proper (position : Position) : Prop :=
  position.stage = .header → position.final = false

theorem proper_behind (final : Bool) : (Position.behind final).Proper := by
  cases final with
  | false => exact fun _ => rfl
  | true => exact fun is => by cases is

theorem Step.proper {place next : Place} (step : Step place next)
    (proper : place.position.Proper) : next.position.Proper := by
  cases step with
  | @header _ last _ _ block =>
      cases block with
      | stored | coded => exact fun is => by cases is
  | stored => exact fun is => by cases is
  | @storedEnd final => exact proper_behind final
  | @item final _ _ _ _ item =>
      cases item with
      | literal | copy => exact fun is => by cases is
      | endOfBlock => exact proper_behind final
  | literal | copyEnd | copy => exact proper

theorem proper_of_steps {place last : Place} (steps : ReflTransGen Step place last)
    (proper : place.position.Proper) : last.position.Proper := by
  induction steps with
  | refl => exact proper
  | tail _ step ih => exact step.proper ih

theorem Continues.before {place next : Place} (step : Step place next)
    (proper : place.position.Proper) (wide : Window.size Window.maxBits ≤ window)
    (h : Continues window next.position next.text next.bits text' e) :
    Continues window place.position place.text place.bits text' e := by
  cases step with
  | @header final _ _ _ _ _ read =>
      obtain rfl : final = false := proper rfl
      exact .header (.of_inBlock read h)
  | stored read => exact h.of_storedByte read
  | storedEnd => exact .of_stored_zero h
  | item read => exact h.of_item read wide
  | literal => exact .literal h
  | copyEnd => exact .copy (fun none => absurd none (Nat.lt_irrefl 0)) h
  | copy inside =>
      cases h with
      | copy _ h => exact .copy (fun _ => inside) h

theorem Continues.before_steps {place last : Place} (steps : ReflTransGen Step place last)
    (proper : place.position.Proper) (wide : Window.size Window.maxBits ≤ window)
    (h : Continues window last.position last.text last.bits text' e) :
    Continues window place.position place.text place.bits text' e := by
  induction steps using ReflTransGen.head_induction_on with
  | refl => exact h
  | head step _ ih => exact (ih (step.proper proper)).before step proper wide

theorem Halts.continues {halt : Halt} {place : Place} (halts : Halts halt place)
    (proper : place.position.Proper) (stopped : halt = .exhausted ∨ halt = .ended) :
    ∃ e, Continues window place.position place.text place.bits place.text e := by
  cases halts with
  | @header final text bits short =>
      obtain rfl : final = false := proper rfl
      by_cases empty : bits = []
      · subst empty
        exact ⟨.boundary, .header .boundary⟩
      · exact ⟨.inside, .header (.header empty short)⟩
  | stored short => exact ⟨.inside, .of_stored_short (short_of_readNat short)⟩
  | item short => exact ⟨.inside, .codedPart (.short short)⟩
  | ended => exact ⟨.final, .ended⟩
  | full | failed => rcases stopped with is | is <;> cases is

theorem continues_of_run {limit own : Nat} {history : Array UInt8} (buffer : Buffer)
    (position : Position) (bits : List Bool) (output : Array UInt8) (proper : position.Proper)
    (stopped : (run limit own history buffer position bits output).halt = .exhausted ∨
      (run limit own history buffer position bits output).halt = .ended) :
    ∃ e, Continues (Window.size Window.maxBits) position (history ++ output) bits
      (history ++ (run limit own history buffer position bits output).output) e := by
  obtain ⟨steps, halts⟩ := run_steps limit own history buffer position bits output
  obtain ⟨e, rest⟩ := halts.continues (proper_of_steps steps proper) stopped
  exact ⟨e, rest.before_steps steps proper (Nat.le_refl _)⟩

/-! ## Whole messages -/

namespace Inflater

variable {inflater : Inflater}

/-- From where the inflater stands, the bits of a message, with its tail put back, go on as a
stream does, and add a text to what the inflater still has; no copy in them begins further back
than a window. -/
def Decodes (inflater : Inflater) (window : Nat) (data text : Bytes) (e : End) : Prop :=
  Continues window inflater.position inflater.history
    (inflater.carry ++ Bits.ofBytes (data ++ Window.tail)) (inflater.history ++ text.toArray) e

theorem Stands.decodes_iff (stands : inflater.Stands inflater.history) {window : Nat}
    {data text : Bytes} {e : End} :
    inflater.Decodes window data text e ↔ inflater.Spells window data text e := by
  rw [Decodes, stands.position, stands.carry, List.nil_append]
  constructor
  · intro decodes
    cases decodes with
    | header stream => exact stream
  · exact .header

theorem decodes_of_inflate (unbroken : inflater.broken = false) (proper : inflater.position.Proper)
    {data text : Bytes} (h : (inflater.inflate data).1 = .ok text) :
    text.length ≤ inflater.maxSize ∧
      ∃ e, inflater.Decodes (Window.size Window.maxBits) data text e := by
  rw [inflate_of_sound unbroken] at h
  have sound : ∀ error, (inflater.runOver data).halt ≠ .failed error := by
    intro error failed
    unfold settle at h
    rw [failed] at h
    cases h
  by_cases large : inflater.maxSize < (inflater.runOver data).output.size
  · rw [settle_of_lt sound large] at h
    cases h
  · have small := Nat.le_of_not_lt large
    rw [settle_of_le sound small] at h
    cases h
    refine ⟨small, ?_⟩
    have stopped : (inflater.runOver data).halt = .exhausted ∨
        (inflater.runOver data).halt = .ended := by
      cases halt : (inflater.runOver data).halt with
      | exhausted => exact .inl rfl
      | ended => exact .inr rfl
      | full => exact absurd (lt_of_full halt) large
      | failed error => exact absurd halt (sound error)
    have decoded : ∃ e, Continues (Window.size Window.maxBits) inflater.position
        (inflater.history ++ #[]) (inflater.carry ++ Bits.ofBytes (data ++ Window.tail))
        (inflater.history ++ (inflater.runOver data).output) e :=
      continues_of_run _ _ _ _ proper stopped
    rwa [Array.append_empty] at decoded

theorem spells_of_inflate (stands : inflater.Stands inflater.history) {data text : Bytes}
    (h : (inflater.inflate data).1 = .ok text) :
    text.length ≤ inflater.maxSize ∧
      ∃ e, inflater.Spells (Window.size Window.maxBits) data text e := by
  have proper : inflater.position.Proper := by
    rw [stands.position]
    exact fun _ => rfl
  obtain ⟨small, e, decodes⟩ := decodes_of_inflate stands.sound proper h
  exact ⟨small, e, stands.decodes_iff.mp decodes⟩

/-- An inflater that messages have led to, each of them decompressed and ending
between two blocks or behind the last one. -/
inductive Reached (bits : Nat) (noContext : Bool) (maxSize : Nat) : Inflater → Prop where
  | new : Reached bits noContext maxSize (.new bits noContext maxSize)
  | next {inflater next : Inflater} {data text : Bytes} {e : End}
      (reached : Reached bits noContext maxSize inflater)
      (inflated : inflater.inflate data = (.ok text, next))
      (spells : inflater.Spells (Window.size Window.maxBits) data text e) (whole : e ≠ .inside) :
      Reached bits noContext maxSize next

theorem Reached.stands {bits : Nat} {noContext : Bool} {maxSize : Nat}
    (reached : Reached bits noContext maxSize inflater) :
    inflater.Stands inflater.history ∧ inflater.maxSize = maxSize := by
  induction reached with
  | new => exact ⟨stands_new bits noContext maxSize, rfl⟩
  | @next inflater next data text e _ inflated spells whole ih =>
      obtain ⟨stands, same⟩ := ih
      -- a run that gives a text is the run with the widest window, which stops where that ends
      have given : (inflater.inflate data).1 = .ok text := by rw [inflated]
      obtain ⟨small, -⟩ := spells_of_inflate stands given
      have wider := stops_runOver (stands.widened _) (inflater.le_widened _) spells small
      have stops := stops_of_ok stands.sound wider given
      obtain ⟨after, inflated', same', -, stands'⟩ := inflate_of_stops_stands stands stops small
      rw [inflated] at inflated'
      cases inflated'
      exact ⟨stands' whole, same'.trans same⟩

/-- Where messages have ended on a block's end so far, the next one is
decompressed to what its bits, with the tail put back, spell as far as they go,
within the limit: if they end between two blocks or behind the last one, but
also if they end inside a block.  It is decompressed to that if no copy begins
further back than the inflater's window; if one does, though within the widest
window, then to that or not at all. -/
theorem inflates_as_spelled {bits : Nat} {noContext : Bool} {maxSize : Nat}
    (reached : Reached bits noContext maxSize inflater) (data text : Bytes) :
    ((inflater.inflate data).1 = .ok text →
      text.length ≤ maxSize ∧ ∃ e, inflater.Spells (Window.size Window.maxBits) data text e) ∧
    (∀ e, inflater.Spells inflater.window data text e → text.length ≤ maxSize →
      (inflater.inflate data).1 = .ok text) ∧
    ∀ e, inflater.Spells (Window.size Window.maxBits) data text e → text.length ≤ maxSize →
      (inflater.inflate data).1 = .ok text ∨
        (inflater.inflate data).1 = .error (failure (some .distanceTooFar)) := by
  obtain ⟨stands, rfl⟩ := reached.stands
  refine ⟨spells_of_inflate stands, fun e spells small => ?_, fun e spells small => ?_⟩
  · obtain ⟨next, inflated, -⟩ := inflate_of_spells stands (Nat.le_refl _) spells small
    rw [inflated]
  · obtain ⟨next, inflated, -⟩ :=
      inflate_of_spells (stands.widened _) (inflater.le_widened _) spells small
    have compared := inflate_widened stands.sound (Window.size Window.maxBits) data
    rwa [inflated] at compared

/-- The empty message, as a compressor gives it. -/
theorem inflates_as_spelled_empty :
    Reached 15 false 64 (.new 15 false 64) ∧
      ((Inflater.new 15 false 64).inflate [0]).1 = .ok [] := by
  have whole : (Inflater.new 15 false 64).Spells (Window.size 15) [0] [] .boundary :=
    (blocks_closing (by decide : 5 < 8)).stream
  obtain ⟨-, given, -⟩ := inflates_as_spelled (.new : Reached 15 false 64 _) [0] []
  exact ⟨.new, given .boundary whole (by decide)⟩

/-- An empty payload, and a stored block of ten bytes of which two are there. -/
theorem inflates_cutShort :
    let inflater := Inflater.new 15 false 64
    let stored : Bytes := [0, 10, 0, 245, 255, 1, 2]
    Reached 15 false 64 inflater ∧
    (inflater.inflate []).1 = .ok [] ∧
    (∀ text e, inflater.Spells (Window.size Window.maxBits) [] text e → e = .inside) ∧
    (inflater.inflate stored).1 = .ok [1, 2, 0, 0, 255, 255] ∧
    (∀ text e, inflater.Spells (Window.size Window.maxBits) stored text e → e = .inside) := by
  intro inflater stored
  have stands : inflater.Stands inflater.history := stands_new 15 false 64
  have empty : inflater.Spells (Window.size Window.maxBits) [] [] .inside :=
    .header (List.cons_ne_nil _ _) rfl
  have cut : inflater.Spells (Window.size Window.maxBits) stored [1, 2, 0, 0, 255, 255]
      .inside := by
    have read : Block.readHeader (Bits.ofBytes (stored ++ Window.tail)) =
        .done (false, .stored 10) (Bits.ofBytes [1, 2, 0, 0, 255, 255] ++ []) :=
      readHeader_stored (by decide : 5 < 8) (by decide : 10 ≤ 65535) [1, 2, 0, 0, 255, 255]
    exact .storedPart read (by decide) (by decide)
  refine ⟨.new, ?_, fun text e spells => (spells.unique empty).2, ?_,
    fun text e spells => (spells.unique cut).2⟩
  · obtain ⟨next, inflated, -⟩ := inflate_of_spells stands (Nat.le_refl _) empty (by decide)
    rw [inflated]
  · obtain ⟨next, inflated, -⟩ := inflate_of_spells stands (Nat.le_refl _) cut (by decide)
    rw [inflated]

end Inflater

end DeflateTrial.Deflate
