/-
Streams — bits that are blocks as far as they go

The bits of a message are blocks one behind the other, but where they end is
not said by the blocks: it may be between two of them, behind the last of a
stream, or inside one.  `Stream window text bits text' e` says that `bits` take
`text` to `text'` as far as they go, and end at `e`.

    … | block | block |              boundary
    … | block | last block | …       final
    … | block | begi                 inside

A decoder goes through such bits and stops where they end (`stops_of_stream`).
It makes no difference to it which of the three that is, unless the block was
the last one.  Since a decoder is a function, the bits determine the text and
the end (`Stream.unique`).
-/
import DeflateTrial.Proofs.Deflate.Decoding

namespace DeflateTrial.Deflate

/-- Where the bits of a stream end. -/
inductive End where
  /-- Between two blocks. -/
  | boundary
  /-- Behind the last block of the stream, whatever bits follow. -/
  | final
  /-- In a block's header, in the description of its codes, among its stored
  bytes or its symbols. -/
  | inside
deriving DecidableEq, Repr

/-- The symbols of a block, of which the last is not all there: they take a
text to a longer one. -/
inductive Unended (window : Nat) (literals distances : Code) :
    Array UInt8 → List Bool → Array UInt8 → Prop
  | short {text bits} :
      readItem literals distances bits = .short →
      Unended window literals distances text bits text
  | literal {text bits byte mid text'} :
      readItem literals distances bits = .done (.literal byte) mid →
      Unended window literals distances (text.push byte) mid text' →
      Unended window literals distances text bits text'
  | copy {text bits count distance mid text'} :
      readItem literals distances bits = .done (.copy count distance) mid →
      0 < distance → distance ≤ window → distance ≤ text.size →
      Unended window literals distances (Token.repeatBytes text distance count) mid text' →
      Unended window literals distances text bits text'

/-- Bits that are blocks as far as they go take a text to a longer one. -/
inductive Stream (window : Nat) : Array UInt8 → List Bool → Array UInt8 → End → Prop
  | boundary {text} : Stream window text [] text .boundary
  | header {text bits} :
      bits ≠ [] → Block.readHeader bits = .short → Stream window text bits text .inside
  | stored {text bits text' rest e} {data : Bytes} :
      Block.readHeader bits = .done (false, .stored data.length) (Bits.ofBytes data ++ rest) →
      Stream window (text ++ data.toArray) rest text' e →
      Stream window text bits text' e
  | storedFinal {text bits rest} {data : Bytes} :
      Block.readHeader bits = .done (true, .stored data.length) (Bits.ofBytes data ++ rest) →
      Stream window text bits (text ++ data.toArray) .final
  | storedPart {text bits rest final size} {data : Bytes} :
      Block.readHeader bits = .done (final, .stored size) (Bits.ofBytes data ++ rest) →
      data.length < size → rest.length < 8 →
      Stream window text bits (text ++ data.toArray) .inside
  | coded {text bits literals distances mid text₁ rest text' e} :
      Block.readHeader bits = .done (false, .coded literals distances) mid →
      Items window literals distances text mid text₁ rest →
      Stream window text₁ rest text' e →
      Stream window text bits text' e
  | codedFinal {text bits literals distances mid text' rest} :
      Block.readHeader bits = .done (true, .coded literals distances) mid →
      Items window literals distances text mid text' rest →
      Stream window text bits text' .final
  | codedPart {text bits final literals distances mid text'} :
      Block.readHeader bits = .done (final, .coded literals distances) mid →
      Unended window literals distances text mid text' →
      Stream window text bits text' .inside

variable {window : Nat} {literals distances : Code} {text text' : Array UInt8}
  {bits rest : List Bool} {e : End}

theorem Blocks.stream (h : Blocks window text bits text') :
    Stream window text bits text' .boundary := by
  induction h with
  | none => exact .boundary
  | stored read _ ih => exact .stored read ih
  | coded read items _ ih => exact .coded read items ih

theorem Unended.size_le (h : Unended window literals distances text bits text') :
    text.size ≤ text'.size := by
  induction h with
  | short _ => exact Nat.le_refl _
  | literal _ _ ih =>
      rw [Array.size_push] at ih
      omega
  | copy _ _ _ _ _ ih =>
      rw [Token.size_repeatBytes] at ih
      omega

theorem Stream.size_le (h : Stream window text bits text' e) : text.size ≤ text'.size := by
  induction h with
  | boundary => exact Nat.le_refl _
  | header => exact Nat.le_refl _
  | stored _ _ ih =>
      rw [Array.size_append] at ih
      omega
  | storedFinal =>
      rw [Array.size_append]
      omega
  | storedPart =>
      rw [Array.size_append]
      omega
  | coded _ items _ ih => exact Nat.le_trans items.size_le ih
  | codedFinal _ items => exact items.size_le
  | codedPart _ items => exact items.size_le

/-! ## How a decoder stops -/

/-- How a run stops, by where its bits end, with an output. -/
inductive Stops (output : Array UInt8) : End → Run → Prop where
  | boundary : Stops output .boundary ⟨.exhausted, .start, [], output⟩
  | final {position : Position} {rest : List Bool} :
      Stops output .final ⟨.ended, position, rest, output⟩
  | inside {position : Position} {rest : List Bool}
      (midway : position = .start → rest ≠ []) :
      Stops output .inside ⟨.exhausted, position, rest, output⟩

theorem Stops.sound {output : Array UInt8} {ran : Run} (stops : Stops output e ran) :
    ran.output = output ∧ ∀ error, ran.halt ≠ .failed error := by
  cases stops <;> exact ⟨rfl, fun error is => by cases is⟩

theorem Stops.ended_iff {output : Array UInt8} {ran : Run} (stops : Stops output e ran) :
    ran.halt = .ended ↔ e = .final := by
  cases stops with
  | boundary => exact ⟨(by cases ·), (by cases ·)⟩
  | final => exact ⟨fun _ => rfl, fun _ => rfl⟩
  | inside _ => exact ⟨(by cases ·), (by cases ·)⟩

theorem Stops.exhausted {output : Array UInt8} {ran : Run} (stops : Stops output e ran)
    (open_ : e ≠ .final) : ran.halt = .exhausted := by
  cases stops with
  | boundary => rfl
  | final => exact absurd rfl open_
  | inside _ => rfl

theorem Stops.unique {output₁ output₂ : Array UInt8} {e₁ e₂ : End} {ran : Run}
    (one : Stops output₁ e₁ ran) (two : Stops output₂ e₂ ran) : output₁ = output₂ ∧ e₁ = e₂ := by
  cases one with
  | boundary =>
      cases two with
      | boundary => exact ⟨rfl, rfl⟩
      | inside midway => exact absurd rfl (midway rfl)
  | final =>
      cases two
      exact ⟨rfl, rfl⟩
  | inside midway =>
      cases two with
      | boundary => exact absurd rfl (midway rfl)
      | inside => exact ⟨rfl, rfl⟩

section
variable {limit own : Nat} {history output : Array UInt8} {final : Bool} (buffer : Buffer)

theorem run_header_short (short : Block.readHeader bits = .short) :
    run limit own history buffer .start bits output = ⟨.exhausted, .start, bits, output⟩ := by
  rw [Position.start, run]
  dsimp only
  split <;> simp_all

theorem run_item_short (short : readItem literals distances bits = .short) :
    run limit own history buffer ⟨final, .coded literals distances, .nothing⟩ bits output =
      ⟨.exhausted, ⟨final, .coded literals distances, .nothing⟩, bits, output⟩ := by
  rw [run]
  dsimp only
  split <;> simp_all

theorem run_stored_short {left : Nat} (fits : output.size ≤ limit) (short : bits.length < 8) :
    run limit own history buffer ⟨final, .stored (left + 1), .nothing⟩ bits output =
      ⟨.exhausted, ⟨final, .stored (left + 1), .nothing⟩, bits, output⟩ := by
  obtain ⟨room, made⟩ := makeRoom?_of_le buffer fits
  have read := readNat_short short
  rw [run]
  simp only [made]
  split <;> simp_all

theorem run_behind_final :
    run limit own history buffer (.behind true) bits output =
      ⟨.ended, .behind true, bits, output⟩ := by
  rw [Position.behind, Position.afterBlock, run]
  rfl

end

section
variable {limit own : Nat} {past output : Array UInt8} {final : Bool}

theorem LeadsTo.stops {p p' : Position} {bits' : List Bool} {output' final_output : Array UInt8}
    {history : Array UInt8} (leads : LeadsTo limit own history p bits output p' bits' output')
    (stops : ∀ buffer, Stops final_output e (run limit own history buffer p' bits' output'))
    (buffer : Buffer) : Stops final_output e (run limit own history buffer p bits output) := by
  obtain ⟨buffer', same⟩ := leads buffer
  rw [same]
  exact stops buffer'

theorem stops_of_storedPart {history : Array UInt8} {size : Nat} {data : Bytes}
    (less : data.length < size) (short : rest.length < 8)
    (room : output.size + data.length ≤ limit) (buffer : Buffer) :
    Stops (output ++ data.toArray) .inside (run limit own history buffer
      ⟨final, .stored size, .nothing⟩ (Bits.ofBytes data ++ rest) output) := by
  obtain ⟨left, rfl⟩ : ∃ left, size = left + 1 + data.length :=
    ⟨size - data.length - 1, by omega⟩
  refine (leadsTo_stored_part (left + 1) room).stops (fun buffer => ?_) buffer
  rw [run_stored_short buffer _ short]
  · exact .inside (fun is => by cases is)
  · rw [Array.size_append, List.size_toArray]
    exact room

theorem stops_of_unended {count : Nat} (wide : window ≤ min own count)
    (h : Unended window literals distances text bits text') (ht : text = past ++ output)
    (fits : text'.size ≤ past.size + limit) :
    ∃ output', text' = past ++ output' ∧ ∀ buffer, Stops output' .inside
      (run limit own (Window.recent count past) buffer ⟨final, .coded literals distances, .nothing⟩
        bits output) := by
  induction h generalizing output with
  | short read =>
      refine ⟨output, ht, fun buffer => ?_⟩
      rw [run_item_short buffer read]
      exact .inside (fun is => by cases is)
  | literal read unended ih =>
      subst ht
      have grown := unended.size_le
      rw [Array.size_push, Array.size_append] at grown
      obtain ⟨output', ht', stops⟩ := ih (Array.push_append ..) fits
      exact ⟨output', ht', ((leadsTo_item read).trans (leadsTo_literal (by omega))).stops stops⟩
  | @copy text bits n distance mid text' read pos near inside unended ih =>
      subst ht
      have grown := unended.size_le
      rw [Token.size_repeatBytes, Array.size_append] at grown
      have room : output.size + n ≤ limit := by omega
      obtain ⟨middle, repeated, copied⟩ := leadsTo_copy wide pos near inside room
      obtain ⟨output', ht', stops⟩ := ih repeated fits
      exact ⟨output', ht', ((leadsTo_item read).trans copied).stops stops⟩

/-- A decoder goes through a stream and stops where its bits end; what it puts
out is what they add to the text. -/
theorem stops_of_stream {count : Nat} (wide : window ≤ min own count)
    (h : Stream window text bits text' e) (ht : text = past ++ output)
    (fits : text'.size ≤ past.size + limit) :
    ∃ output', text' = past ++ output' ∧ ∀ buffer, Stops output' e
      (run limit own (Window.recent count past) buffer .start bits output) := by
  induction h generalizing output with
  | boundary =>
      refine ⟨output, ht, fun buffer => ?_⟩
      rw [run_start_nil]
      exact .boundary
  | header some short =>
      refine ⟨output, ht, fun buffer => ?_⟩
      rw [run_header_short buffer short]
      exact .inside fun _ => some
  | stored read stream ih =>
      subst ht
      have grown := stream.size_le
      simp only [Array.size_append, List.size_toArray] at grown
      obtain ⟨output', ht', stops⟩ := ih (Array.append_assoc ..) fits
      exact ⟨output', ht', ((leadsTo_header read).trans (leadsTo_stored (by omega))).stops stops⟩
  | @storedFinal text bits rest data read =>
      subst ht
      simp only [Array.size_append, List.size_toArray] at fits
      refine ⟨output ++ data.toArray, Array.append_assoc .., ?_⟩
      refine ((leadsTo_header read).trans (leadsTo_stored (by omega))).stops fun buffer => ?_
      rw [run_behind_final]
      exact .final
  | @storedPart text bits rest final size data read less short =>
      subst ht
      simp only [Array.size_append, List.size_toArray] at fits
      refine ⟨output ++ data.toArray, Array.append_assoc .., ?_⟩
      exact (leadsTo_header read).stops (stops_of_storedPart less short (by omega))
  | coded read items stream ih =>
      subst ht
      obtain ⟨middle, hm, coded⟩ := leadsTo_items wide items rfl (Nat.le_trans stream.size_le fits)
      obtain ⟨output', ht', stops⟩ := ih hm fits
      exact ⟨output', ht', ((leadsTo_header read).trans coded).stops stops⟩
  | codedFinal read items =>
      subst ht
      obtain ⟨output', ht', coded⟩ := leadsTo_items wide items rfl fits
      refine ⟨output', ht', ((leadsTo_header read).trans coded).stops fun buffer => ?_⟩
      rw [run_behind_final]
      exact .final
  | codedPart read unended =>
      subst ht
      obtain ⟨output', ht', stops⟩ := stops_of_unended wide unended rfl fits
      exact ⟨output', ht', (leadsTo_header read).stops stops⟩

end

/-- The bits of a stream determine the text they lead to and where they end. -/
theorem Stream.unique {text₁ text₂ : Array UInt8} {e₁ e₂ : End}
    (h₁ : Stream window text bits text₁ e₁) (h₂ : Stream window text bits text₂ e₂) :
    text₁ = text₂ ∧ e₁ = e₂ := by
  -- a run for which both texts are within the limit stops at the one and at the other
  obtain ⟨limit, fits₁, fits₂⟩ : ∃ limit, text₁.size ≤ text.size + limit ∧
      text₂.size ≤ text.size + limit := ⟨text₁.size + text₂.size, by omega, by omega⟩
  have start : text = text ++ #[] := Array.append_empty.symm
  have wide : window ≤ min window window := Nat.le_of_eq (Nat.min_self window).symm
  obtain ⟨output₁, rfl, stops₁⟩ := stops_of_stream wide h₁ start fits₁
  obtain ⟨output₂, rfl, stops₂⟩ := stops_of_stream wide h₂ start fits₂
  obtain ⟨rfl, same⟩ := (stops₁ ⟨0, 0⟩).unique (stops₂ ⟨0, 0⟩)
  exact ⟨rfl, same⟩

/-! ## The limit -/

theorem lt_of_makeRoom? {limit size : Nat} {buffer : Buffer}
    (h : makeRoom? limit buffer size = none) : limit < size := by
  rcases Nat.lt_or_ge limit size with more | within
  · exact more
  · obtain ⟨room, made⟩ := makeRoom?_of_le buffer within
    rw [made] at h
    cases h

theorem makeRoom?_mono {limit limit' size : Nat} {buffer room : Buffer} (le : limit ≤ limit')
    (h : makeRoom? limit buffer size = some room) :
    makeRoom? limit' buffer size = some room := by
  unfold makeRoom? at h ⊢
  split at h
  · rw [if_pos ‹_›]
    exact h
  · split at h
    · cases h
    · rw [if_neg ‹_›, if_neg (by omega)]
      exact h

/-- A run under a smaller limit is the same, or it stops when its buffer is full
and holds more than the limit. -/
theorem run_of_limit_le {limit limit' : Nat} (le : limit ≤ limit') (own : Nat)
    (history : Array UInt8) (buffer : Buffer) (position : Position) (bits : List Bool)
    (output : Array UInt8) :
    run limit own history buffer position bits output =
        run limit' own history buffer position bits output ∨
      ((run limit own history buffer position bits output).halt = .full ∧
        limit < (run limit own history buffer position bits output).output.size) := by
  have room : ∀ {buffer size room}, makeRoom? limit buffer size = some room →
      makeRoom? limit' buffer size = some room := makeRoom?_mono le
  fun_induction run limit own history buffer position bits output with
  | case1 buffer position bits output byte hp none => exact .inr ⟨rfl, lt_of_makeRoom? none⟩
  | case4 buffer position bits output count distance hp none =>
      exact .inr ⟨rfl, lt_of_makeRoom? none⟩
  | case12 buffer position bits output hp left hs none => exact .inr ⟨rfl, lt_of_makeRoom? none⟩
  | _ =>
      -- the step is the same under both limits
      rw [run.eq_def limit']
      repeat (split <;> simp_all)

/-- A run with a narrower window is the same, or it comes to a copy that begins
too far back. -/
theorem run_of_window_le (limit : Nat) {own own' : Nat} (le : own ≤ own')
    (history : Array UInt8) (buffer : Buffer) (position : Position) (bits : List Bool)
    (output : Array UInt8) :
    run limit own history buffer position bits output =
        run limit own' history buffer position bits output ∨
      (run limit own history buffer position bits output).halt = .failed .distanceTooFar := by
  have found : ∀ {began output distance byte},
      byteBack? own history began output distance = some byte →
      byteBack? own' history began output distance = some byte := byteBack?_mono le
  fun_induction run limit own history buffer position bits output with
  | case5 => exact .inr rfl
  | _ =>
      -- the step is the same with both windows
      rw [run.eq_def limit own']
      repeat (split <;> simp_all)

theorem lt_of_full {limit own : Nat} {history : Array UInt8} {buffer : Buffer}
    {position : Position} {bits : List Bool} {output : Array UInt8}
    (full : (run limit own history buffer position bits output).halt = .full) :
    limit < (run limit own history buffer position bits output).output.size := by
  fun_induction run limit own history buffer position bits output with
  | case1 buffer position bits output byte hp none => exact lt_of_makeRoom? none
  | case4 buffer position bits output count distance hp none => exact lt_of_makeRoom? none
  | case12 buffer position bits output hp left hs none => exact lt_of_makeRoom? none
  | case2 _ _ _ _ _ _ _ _ ih => exact ih full
  | case3 _ _ _ _ _ _ ih => exact ih full
  | case6 _ _ _ _ _ _ _ _ _ _ _ ih => exact ih full
  | case10 _ _ _ _ _ _ _ _ _ _ ih => exact ih full
  | case11 _ _ _ _ _ _ ih => exact ih full
  | case15 _ _ _ _ _ _ _ _ _ _ _ _ ih => exact ih full
  | case18 _ _ _ _ _ _ _ _ _ _ _ ih => exact ih full
  | _ => cases full

/-! ## Whole messages -/

namespace Inflater

variable {inflater : Inflater} {data text : Bytes}

theorem Stands.size_le {past : Array UInt8} (stands : inflater.Stands past) :
    inflater.history.size ≤ inflater.window := by
  rw [stands.history, Window.size_recent]
  exact Nat.min_le_left ..

/-- Between two messages an inflater may be taken to stand behind just what it
still has of the texts before. -/
theorem Stands.recent {past : Array UInt8} (stands : inflater.Stands past) :
    inflater.Stands inflater.history :=
  ⟨stands.position, stands.carry, stands.sound, (Window.recent_of_size_le stands.size_le).symm⟩

/-- The bits of a message, with its tail put back, are a stream behind what the
inflater still has, and add a text to it; no copy in them begins further back
than a window. -/
def Spells (inflater : Inflater) (window : Nat) (data text : Bytes) (e : End) : Prop :=
  Stream window inflater.history (Bits.ofBytes (data ++ Window.tail))
    (inflater.history ++ text.toArray) e

theorem stops_of_wide {limit own count : Nat} {history : Array UInt8} {position : Position}
    {bits : List Bool} (buffer : Buffer) (all : history.size ≤ count)
    (h : ∃ output, history ++ text.toArray = history ++ output ∧ ∀ buffer, Stops output e
      (run limit own (Window.recent count history) buffer position bits #[])) :
    Stops text.toArray e (run limit own history buffer position bits #[]) := by
  obtain ⟨output, same, stops⟩ := h
  rw [← Array.append_right_inj _ |>.mp same, Window.recent_of_size_le all] at stops
  exact stops buffer

theorem size_append_le {history : Array UInt8} {limit : Nat} (small : text.length ≤ limit) :
    (history ++ text.toArray).size ≤ history.size + limit := by
  rw [Array.size_append, List.size_toArray]
  exact Nat.add_le_add_left small _

theorem le_min_max {own : Nat} (wide : window ≤ own) (past : Nat) :
    window ≤ min own (max own past) :=
  Nat.le_min.mpr ⟨wide, Nat.le_trans wide (Nat.le_max_left ..)⟩

theorem stops_runOver (stands : inflater.Stands inflater.history)
    (wide : window ≤ inflater.window) (spells : inflater.Spells window data text e)
    (small : text.length ≤ inflater.maxSize) : Stops text.toArray e (inflater.runOver data) := by
  rw [runOver, stands.position, stands.carry, List.nil_append]
  exact stops_of_wide _ (Nat.le_max_right ..) (stops_of_stream (le_min_max wide _) spells
    Array.append_empty.symm (size_append_le small))

theorem inflate_of_sound (sound : inflater.broken = false) :
    inflater.inflate data = inflater.settle (inflater.runOver data) := by
  rw [inflate, sound, if_neg Bool.false_ne_true]

theorem settle_of_le {ran : Run} (sound : ∀ error, ran.halt ≠ .failed error)
    (small : ran.output.size ≤ inflater.maxSize) :
    inflater.settle ran = (.ok ran.output.toList,
      if ran.halt = .ended ∨ inflater.noContext then inflater.reset else inflater.after ran) := by
  unfold settle
  split
  · exact absurd ‹_› (sound _)
  · rw [if_neg (Nat.not_lt.mpr small)]

theorem settle_of_lt {ran : Run} (sound : ∀ error, ran.halt ≠ .failed error)
    (large : inflater.maxSize < ran.output.size) :
    (inflater.settle ran).1 = .error (.messageTooLarge ran.output.size inflater.maxSize) := by
  unfold settle
  split
  · exact absurd ‹_› (sound _)
  · rw [if_pos large]

theorem inflate_of_stops (sound : inflater.broken = false)
    (stops : Stops text.toArray e (inflater.runOver data))
    (small : text.length ≤ inflater.maxSize) :
    inflater.inflate data = (.ok text, if e = .final ∨ inflater.noContext = true then inflater.reset
      else inflater.after (inflater.runOver data)) := by
  obtain ⟨output, unfailed⟩ := stops.sound
  have within : (inflater.runOver data).output.size ≤ inflater.maxSize := by
    rw [output]
    exact small
  rw [inflate_of_sound sound, settle_of_le unfailed within, output]
  simp only [stops.ended_iff]

theorem inflate_of_stops_over (sound : inflater.broken = false)
    (stops : Stops text.toArray e ({ inflater with maxSize := text.length }.runOver data))
    (large : inflater.maxSize < text.length) :
    ∃ size, inflater.maxSize < size ∧
      (inflater.inflate data).1 = .error (.messageTooLarge size inflater.maxSize) := by
  obtain ⟨output, unfailed⟩ := stops.sound
  have limited : inflater.runOver data = { inflater with maxSize := text.length }.runOver data ∨
      ((inflater.runOver data).halt = .full ∧
        inflater.maxSize < (inflater.runOver data).output.size) :=
    run_of_limit_le (Nat.le_of_lt large) ..
  rw [inflate_of_sound sound]
  rcases limited with same | ⟨full, more⟩
  · rw [← same] at output unfailed
    have more : inflater.maxSize < (inflater.runOver data).output.size := by
      rw [output]
      exact large
    exact ⟨_, more, settle_of_lt unfailed more⟩
  · exact ⟨_, more, settle_of_lt (fun error is => by rw [full] at is; cases is) more⟩

theorem inflate_of_stops_stands (stands : inflater.Stands inflater.history)
    (stops : Stops text.toArray e (inflater.runOver data))
    (small : text.length ≤ inflater.maxSize) :
    ∃ next, inflater.inflate data = (.ok text, next) ∧ next.maxSize = inflater.maxSize ∧
      next.noContext = inflater.noContext ∧ (e ≠ .inside → next.Stands next.history) := by
  have reset : inflater.reset.Stands inflater.reset.history := stands_new ..
  refine ⟨_, inflate_of_stops stands.sound stops small, ?_, ?_, fun whole => ?_⟩
  · split <;> rfl
  · split <;> rfl
  · split
    · exact reset
    · rename_i kept
      generalize inflater.runOver data = ran at stops
      cases stops with
      | boundary =>
          have after : (inflater.after ⟨.exhausted, .start, [], text.toArray⟩).Stands
              (inflater.history ++ text.toArray) := ⟨rfl, rfl, stands.sound, rfl⟩
          exact after.recent
      | final => exact absurd (.inl rfl) kept
      | inside => exact absurd rfl whole

/-- A message within the limit is decompressed to what its bits spell, wherever they end, if no
copy begins further back than the inflater's window. -/
theorem inflate_of_spells (stands : inflater.Stands inflater.history)
    (wide : window ≤ inflater.window) (spells : inflater.Spells window data text e)
    (small : text.length ≤ inflater.maxSize) :
    ∃ next, inflater.inflate data = (.ok text, next) ∧ next.maxSize = inflater.maxSize ∧
      next.noContext = inflater.noContext ∧ (e ≠ .inside → next.Stands next.history) :=
  inflate_of_stops_stands stands (stops_runOver stands wide spells small) small

theorem inflate_of_large (stands : inflater.Stands inflater.history)
    (wide : window ≤ inflater.window) (spells : inflater.Spells window data text e)
    (large : inflater.maxSize < text.length) :
    ∃ size, inflater.maxSize < size ∧
      (inflater.inflate data).1 = .error (.messageTooLarge size inflater.maxSize) := by
  -- under a limit as large as the text, the run would put all of it out
  have stands' : { inflater with maxSize := text.length }.Stands inflater.history :=
    ⟨stands.position, stands.carry, stands.sound, stands.history⟩
  exact inflate_of_stops_over stands.sound (stops_runOver stands' wide spells (Nat.le_refl _)) large

/-! ## Beyond the window -/

/-- The inflater with a window that is as wide as another one, too. -/
def widened (inflater : Inflater) (window : Nat) : Inflater :=
  { inflater with window := max inflater.window window }

theorem le_widened (inflater : Inflater) (window : Nat) :
    window ≤ (inflater.widened window).window :=
  Nat.le_max_right ..

theorem Stands.widened (stands : inflater.Stands inflater.history) (window : Nat) :
    (inflater.widened window).Stands inflater.history := by
  have held : inflater.history.size ≤ max inflater.window window :=
    Nat.le_trans stands.size_le (Nat.le_max_left ..)
  exact ⟨stands.position, stands.carry, stands.sound, (Window.recent_of_size_le held).symm⟩

theorem runOver_widened (inflater : Inflater) (window : Nat) (data : Bytes) :
    inflater.runOver data = (inflater.widened window).runOver data ∨
      (inflater.runOver data).halt = .failed .distanceTooFar :=
  run_of_window_le inflater.maxSize (Nat.le_max_left ..) ..

theorem inflate_of_failed {error : StreamError} (sound : inflater.broken = false)
    (failed : (inflater.runOver data).halt = .failed error) :
    (inflater.inflate data).1 = .error (failure (some error)) := by
  rw [inflate_of_sound sound, settle, failed]

theorem settle_widened (inflater : Inflater) (window : Nat) (ran : Run) :
    ((inflater.widened window).settle ran).1 = (inflater.settle ran).1 := by
  unfold settle widened
  split
  · rfl
  · dsimp only
    split <;> rfl

/-- What a message comes to is what it would come to with a wider window, unless a copy begins too
far back. -/
theorem inflate_widened (sound : inflater.broken = false) (window : Nat) (data : Bytes) :
    (inflater.inflate data).1 = ((inflater.widened window).inflate data).1 ∨
      (inflater.inflate data).1 = .error (failure (some .distanceTooFar)) := by
  have sound' : (inflater.widened window).broken = false := sound
  rcases inflater.runOver_widened window data with same | failed
  · rw [inflate_of_sound sound, inflate_of_sound sound', settle_widened, same]
    exact .inl rfl
  · exact .inr (inflate_of_failed sound failed)

theorem stops_of_ok {given : Bytes} (sound : inflater.broken = false)
    (stops : Stops text.toArray e ((inflater.widened window).runOver data))
    (ok : (inflater.inflate data).1 = .ok given) :
    Stops text.toArray e (inflater.runOver data) := by
  rcases inflater.runOver_widened window data with same | failed
  · rw [same]
    exact stops
  · rw [inflate_of_failed sound failed] at ok
    cases ok

end Inflater

end DeflateTrial.Deflate
