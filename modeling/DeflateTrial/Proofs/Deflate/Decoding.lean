/-
Decoding — an inflater puts out what the blocks of a message add to the text

A decoder keeps less than the text: of the messages before, the last bytes
that fill its window.  That is enough, since no copy begins further back, and
so the decoder goes through whole blocks to their end (`leadsTo_blocks`) and
an inflater gives a message's text for its blocks (`inflate_of_blocks`).

`LeadsTo` is the run of a decoder from one point of a stream to another.  The
buffer is left open at both ends: it changes along the way, and decides nothing
as long as the output stays within the limit and no copy begins further back
than the decoder's own window.
-/
import DeflateTrial.Proofs.Deflate.Blocks
import DeflateTrial.Proofs.Deflate.Packing

namespace DeflateTrial.Deflate

theorem makeRoom?_of_le {limit size : Nat} (buffer : Buffer) (h : size ≤ limit) :
    ∃ room, makeRoom? limit buffer size = some room := by
  unfold makeRoom?
  by_cases hc : size < buffer.capacity
  · exact ⟨buffer, if_pos hc⟩
  · rw [if_neg hc, if_neg (Nat.not_lt.mpr h)]
    exact ⟨_, rfl⟩

/-! ## Looking back -/

theorem reach_le (window past began size : Nat) : reach window past began size ≤ past + size :=
  Nat.min_le_right ..

theorem le_reach {window past size distance : Nat} (began : Nat) (near : distance ≤ window)
    (inside : distance ≤ past + size) : distance ≤ reach window past began size :=
  Nat.le_min.mpr ⟨Nat.le_trans near (Nat.le_add_left ..), inside⟩

theorem reach_mono {window window' : Nat} (le : window ≤ window') (past began size : Nat) :
    reach window past began size ≤ reach window' past began size := by
  unfold reach
  omega

theorem byteBack?_recent {past output : Array UInt8} {window count distance : Nat} (began : Nat)
    (pos : 0 < distance) (near : distance ≤ min window count)
    (inside : distance ≤ (past ++ output).size) :
    byteBack? window (Window.recent count past) began output distance =
      some ((past ++ output).getD ((past ++ output).size - distance) 0) := by
  rw [Array.size_append] at inside ⊢
  have hs := Window.size_recent count past
  have reached : ¬ distance > reach window (Window.recent count past).size began output.size :=
    Nat.not_lt.mpr (le_reach began (by omega) (by omega))
  unfold byteBack?
  rw [if_neg reached]
  by_cases hd : distance ≤ output.size
  · have hi : output.size - distance < output.size := by omega
    have at_ : past.size + output.size - distance = past.size + (output.size - distance) := by
      omega
    rw [if_pos hd, at_, Array.getD_eq_getD_getElem?,
      Array.getElem?_append_right (Nat.le_add_right _ _), Nat.add_sub_cancel_left,
      Array.getElem?_eq_getElem hi]
    rfl
  · have hi : past.size + output.size - distance < past.size := by omega
    rw [if_neg hd, Array.getD_eq_getD_getElem?, Array.getElem?_append_left hi,
      Array.getElem?_eq_getElem hi]
    simp only [Window.recent, Array.getElem?_extract, Array.size_extract]
    rw [if_pos (by omega), Array.getElem?_eq_getElem (by omega)]
    simp only [Option.getD_some, Option.some.injEq]
    congr 1
    omega

theorem of_byteBack? {window began : Nat} {history output : Array UInt8} {distance : Nat}
    {byte : UInt8} (h : byteBack? window history began output distance = some byte) :
    distance ≤ (history ++ output).size ∧
      byte = (history ++ output).getD ((history ++ output).size - distance) 0 := by
  have far := reach_le window history.size began output.size
  rw [Array.size_append, Array.getD_eq_getD_getElem?]
  unfold byteBack? at h
  split at h
  · cases h
  · refine ⟨by omega, ?_⟩
    by_cases near : distance ≤ output.size
    · have at_ : history.size + output.size - distance =
          history.size + (output.size - distance) := by omega
      rw [if_pos near] at h
      rw [at_, Array.getElem?_append_right (Nat.le_add_right ..), Nat.add_sub_cancel_left, h]
      rfl
    · have at_ : history.size + output.size - distance =
          history.size - (distance - output.size) := by omega
      rw [if_neg near] at h
      rw [at_, Array.getElem?_append_left (by omega), h]
      rfl

theorem byteBack?_mono {window window' began : Nat} {history output : Array UInt8}
    {distance : Nat} {byte : UInt8} (le : window ≤ window')
    (h : byteBack? window history began output distance = some byte) :
    byteBack? window' history began output distance = some byte := by
  have further := reach_mono le history.size began output.size
  unfold byteBack? at h ⊢
  split at h
  · cases h
  · rw [if_neg (by omega)]
    exact h

/-- Where a decoder stands behind a block. -/
def Position.behind (final : Bool) : Position :=
  Position.afterBlock ⟨final, .header, .nothing⟩

section Runs
variable {limit own : Nat} {history : Array UInt8}

/-- A decoder at one point of a stream, with the output so far, comes to
another point. -/
def LeadsTo (limit own : Nat) (history : Array UInt8) (p : Position) (bits : List Bool)
    (output : Array UInt8) (p' : Position) (bits' : List Bool) (output' : Array UInt8) : Prop :=
  ∀ buffer, ∃ buffer',
    run limit own history buffer p bits output = run limit own history buffer' p' bits' output'

theorem LeadsTo.refl (p : Position) (bits : List Bool) (output : Array UInt8) :
    LeadsTo limit own history p bits output p bits output :=
  fun buffer => ⟨buffer, rfl⟩

theorem LeadsTo.trans {p p' p'' : Position} {bits bits' bits'' : List Bool}
    {output output' output'' : Array UInt8}
    (h : LeadsTo limit own history p bits output p' bits' output')
    (h' : LeadsTo limit own history p' bits' output' p'' bits'' output'') :
    LeadsTo limit own history p bits output p'' bits'' output'' := by
  intro buffer
  obtain ⟨between, hb⟩ := h buffer
  obtain ⟨buffer', hc⟩ := h' between
  exact ⟨buffer', hb.trans hc⟩

variable {final : Bool} {stage : Stage} {bits rest : List Bool} {output : Array UInt8}

/-! ## Single steps -/

theorem leadsTo_literal {byte : UInt8} (h : output.size ≤ limit) :
    LeadsTo limit own history ⟨final, stage, .literal byte⟩ bits output
      ⟨final, stage, .nothing⟩ bits (output.push byte) := by
  intro buffer
  obtain ⟨room, hr⟩ := makeRoom?_of_le buffer h
  refine ⟨room, ?_⟩
  rw [run]
  simp only [hr]

theorem leadsTo_copy_zero {distance : Nat} :
    LeadsTo limit own history ⟨final, stage, .copy 0 distance⟩ bits output
      ⟨final, stage, .nothing⟩ bits output := by
  intro buffer
  refine ⟨buffer, ?_⟩
  rw [run]

theorem leadsTo_copy_succ {count distance : Nat} {byte : UInt8} (h : output.size ≤ limit)
    (back : ∀ began, byteBack? own history began output distance = some byte) :
    LeadsTo limit own history ⟨final, stage, .copy (count + 1) distance⟩ bits output
      ⟨final, stage, .copy count distance⟩ bits (output.push byte) := by
  intro buffer
  obtain ⟨room, hr⟩ := makeRoom?_of_le buffer h
  refine ⟨room, ?_⟩
  rw [run]
  simp only [hr, back room.began]

theorem leadsTo_header {block : Block}
    (read : Block.readHeader bits = .done (final, block) rest) :
    LeadsTo limit own history .start bits output (Position.inBlock final block) rest output := by
  intro buffer
  refine ⟨buffer, ?_⟩
  rw [Position.start, run]
  dsimp only
  split <;> simp_all

theorem leadsTo_item {literals distances : Code} {item : Item}
    (read : readItem literals distances bits = .done item rest) :
    LeadsTo limit own history ⟨final, .coded literals distances, .nothing⟩ bits output
      (Position.afterItem ⟨final, .coded literals distances, .nothing⟩ item) rest output := by
  intro buffer
  refine ⟨buffer, ?_⟩
  rw [run]
  dsimp only
  split <;> simp_all

theorem leadsTo_stored_zero :
    LeadsTo limit own history ⟨final, .stored 0, .nothing⟩ bits output
      (.behind final) bits output := by
  intro buffer
  refine ⟨buffer, ?_⟩
  rw [run]
  rfl

theorem leadsTo_stored_succ {left : Nat} {byte : UInt8} {data : Bytes} (h : output.size ≤ limit) :
    LeadsTo limit own history ⟨final, .stored (left + 1), .nothing⟩
      (Bits.ofBytes (byte :: data) ++ rest) output
      ⟨final, .stored left, .nothing⟩ (Bits.ofBytes data ++ rest) (output.push byte) := by
  intro buffer
  obtain ⟨room, hr⟩ := makeRoom?_of_le buffer h
  have read := readNat_ofBytes_cons byte data rest
  refine ⟨room, ?_⟩
  rw [run]
  simp only [hr]
  split <;> simp_all

/-! ## Copies, stored bytes, items and blocks -/

theorem leadsTo_stored_part {data : Bytes} (left : Nat) (h : output.size + data.length ≤ limit) :
    LeadsTo limit own history ⟨final, .stored (left + data.length), .nothing⟩
      (Bits.ofBytes data ++ rest) output
      ⟨final, .stored left, .nothing⟩ rest (output ++ data.toArray) := by
  induction data generalizing output with
  | nil =>
      rw [show output ++ ([] : Bytes).toArray = output from Array.append_empty]
      exact .refl _ _ _
  | cons byte data ih =>
      rw [List.length_cons] at h
      have pushed : output.push byte ++ data.toArray = output ++ (byte :: data).toArray := by
        simp
      rw [← pushed]
      refine (leadsTo_stored_succ (by omega)).trans (ih ?_)
      rw [Array.size_push]
      omega

theorem leadsTo_stored {data : Bytes} (h : output.size + data.length ≤ limit) :
    LeadsTo limit own history ⟨final, .stored data.length, .nothing⟩ (Bits.ofBytes data ++ rest)
      output (.behind final) rest (output ++ data.toArray) := by
  have part : LeadsTo limit own history ⟨final, .stored data.length, .nothing⟩
      (Bits.ofBytes data ++ rest) output ⟨final, .stored 0, .nothing⟩ rest
      (output ++ data.toArray) := by
    rw [← Nat.zero_add data.length]
    exact leadsTo_stored_part 0 h
  exact part.trans leadsTo_stored_zero

variable {past : Array UInt8} {window count : Nat}

theorem leadsTo_copy {distance n : Nat} (wide : window ≤ min own count) (pos : 0 < distance)
    (near : distance ≤ window) (inside : distance ≤ (past ++ output).size)
    (fits : output.size + n ≤ limit) :
    ∃ output', Token.repeatBytes (past ++ output) distance n = past ++ output' ∧
      LeadsTo limit own (Window.recent count past) ⟨final, stage, .copy n distance⟩ bits output
        ⟨final, stage, .nothing⟩ bits output' := by
  induction n generalizing output with
  | zero => exact ⟨output, rfl, leadsTo_copy_zero⟩
  | succ n ih =>
      have back := fun began => byteBack?_recent began pos (Nat.le_trans near wide) inside
      have further : distance ≤ (past ++ output.push
          ((past ++ output).getD ((past ++ output).size - distance) 0)).size := by
        rw [← Array.push_append, Array.size_push]
        omega
      obtain ⟨output', repeated, leads⟩ := ih further (by rw [Array.size_push]; omega)
      refine ⟨output', ?_, (leadsTo_copy_succ (by omega) back).trans leads⟩
      rw [Token.repeatBytes, Array.push_append]
      exact repeated

theorem leadsTo_items {literals distances : Code} {text text' : Array UInt8}
    (wide : window ≤ min own count) (h : Items window literals distances text bits text' rest)
    (ht : text = past ++ output) (fits : text'.size ≤ past.size + limit) :
    ∃ output', text' = past ++ output' ∧
      LeadsTo limit own (Window.recent count past) ⟨final, .coded literals distances, .nothing⟩ bits
        output (.behind final) rest output' := by
  induction h generalizing output with
  | stop read => exact ⟨output, ht, leadsTo_item read⟩
  | literal read items ih =>
      subst ht
      have grown := items.size_le
      rw [Array.size_push, Array.size_append] at grown
      obtain ⟨output', ht', leads⟩ := ih (Array.push_append ..) fits
      exact ⟨output', ht', (leadsTo_item read).trans ((leadsTo_literal (by omega)).trans leads)⟩
  | @copy text bits n distance mid text' rest read pos near inside items ih =>
      subst ht
      have grown := items.size_le
      rw [Token.size_repeatBytes, Array.size_append] at grown
      have room : output.size + n ≤ limit := by omega
      obtain ⟨middle, repeated, copied⟩ := leadsTo_copy wide pos near inside room
      obtain ⟨output', ht', leads⟩ := ih repeated fits
      exact ⟨output', ht', (leadsTo_item read).trans (copied.trans leads)⟩

/-- A decoder goes through whole blocks to their end, and what it puts out is
what they add to the text. -/
theorem leadsTo_blocks {text text' : Array UInt8} (wide : window ≤ min own count)
    (h : Blocks window text bits text') (ht : text = past ++ output)
    (fits : text'.size ≤ past.size + limit) :
    ∃ output', text' = past ++ output' ∧
      LeadsTo limit own (Window.recent count past) .start bits output .start [] output' := by
  induction h generalizing output with
  | none => exact ⟨output, ht, .refl _ _ _⟩
  | stored read blocks ih =>
      subst ht
      have grown := blocks.size_le
      simp only [Array.size_append, List.size_toArray] at grown
      obtain ⟨output', ht', leads⟩ := ih (Array.append_assoc ..) fits
      exact ⟨output', ht', (leadsTo_header read).trans ((leadsTo_stored (by omega)).trans leads)⟩
  | coded read items blocks ih =>
      subst ht
      obtain ⟨middle, hm, coded⟩ := leadsTo_items wide items rfl (Nat.le_trans blocks.size_le fits)
      obtain ⟨output', ht', leads⟩ := ih hm fits
      exact ⟨output', ht', (leadsTo_header read).trans (coded.trans leads)⟩

end Runs

theorem run_start_nil (limit own : Nat) (history : Array UInt8) (buffer : Buffer)
    (output : Array UInt8) :
    run limit own history buffer .start [] output = ⟨.exhausted, .start, [], output⟩ := by
  rw [Position.start, run]
  rfl

/-! ## Whole messages -/

namespace Inflater

/-- An inflater between two messages, after a text. -/
structure Stands (inflater : Inflater) (past : Array UInt8) : Prop where
  position : inflater.position = .start
  carry : inflater.carry = []
  sound : inflater.broken = false
  history : inflater.history = Window.recent inflater.window past

theorem stands_new (bits : Nat) (noContext : Bool) (maxSize : Nat) :
    (new bits noContext maxSize).Stands #[] :=
  ⟨rfl, rfl, rfl, by simp [new, Window.recent]⟩

theorem runOver_of_blocks {inflater : Inflater} {past : Array UInt8} {window : Nat}
    {compressed data : Bytes} (stands : inflater.Stands past) (wide : window ≤ inflater.window)
    (small : data.length ≤ inflater.maxSize)
    (blocks : Blocks window past (Bits.ofBytes (compressed ++ Window.tail))
      (past ++ data.toArray)) :
    inflater.runOver compressed = ⟨.exhausted, .start, [], data.toArray⟩ := by
  have fits : (past ++ data.toArray).size ≤ past.size + inflater.maxSize := by
    rw [Array.size_append, List.size_toArray]
    exact Nat.add_le_add_left small _
  obtain ⟨output, ho, leads⟩ := leadsTo_blocks (Nat.le_min.mpr ⟨wide, wide⟩) blocks
    (Array.append_empty ..).symm fits
  obtain ⟨buffer, ran⟩ := leads ⟨max (2 * compressed.length) 64, 0⟩
  rw [run_start_nil, ← Array.append_right_inj _ |>.mp ho] at ran
  rw [runOver, stands.position, stands.carry, stands.history, List.nil_append, ran]

/-- For a message's blocks an inflater gives what they add to the text, and
stands behind it. -/
theorem inflate_of_blocks {inflater : Inflater} {past : Array UInt8} {window : Nat}
    {compressed data : Bytes} (stands : inflater.Stands past) (wide : window ≤ inflater.window)
    (small : data.length ≤ inflater.maxSize)
    (blocks : Blocks window past (Bits.ofBytes (compressed ++ Window.tail))
      (past ++ data.toArray)) :
    ∃ next, next.Stands (past ++ data.toArray) ∧ next.window = inflater.window ∧
      next.noContext = inflater.noContext ∧ next.maxSize = inflater.maxSize ∧
      inflater.inflate compressed =
        (.ok data, if inflater.noContext then inflater.reset else next) := by
  have ran := runOver_of_blocks stands wide small blocks
  refine ⟨inflater.after ⟨.exhausted, .start, [], data.toArray⟩,
    ⟨rfl, rfl, stands.sound, ?_⟩, rfl, rfl, rfl, ?_⟩
  · simp only [after, stands.history, Window.recent_recent_append]
  · have within : ¬ data.toArray.size > inflater.maxSize := by
      rw [List.size_toArray]
      omega
    rw [inflate, stands.sound, ran]
    simp only [Bool.false_eq_true, if_false, settle, if_neg within]
    simp

end Inflater

end DeflateTrial.Deflate
