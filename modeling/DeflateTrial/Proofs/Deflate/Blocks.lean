/-
Blocks — what a compressed stream means

A stream of whole blocks turns a text into a longer one: a stored block adds
its bytes, a block of symbols adds literals and repeats runs of the text.
`Blocks window text bits text'` says that `bits` are whole blocks, none of
them the last of its stream, that take `text` to `text'`, where no copy begins
more than `window` bytes back.

Nothing here depends on how a decoder goes about it: neither on buffers nor on
limits, and not on how much of the text it still has.  The text may always be
preceded by more (`Blocks.prepend`), so blocks that were made for a stream
alone may follow any other text.
-/
import DeflateTrial.Deflate.Inflater
import DeflateTrial.Deflate.Token

namespace DeflateTrial.Deflate

namespace Token

/-! ## Repeating a run -/

@[simp] theorem size_repeatBytes (output : Array UInt8) (distance count : Nat) :
    (repeatBytes output distance count).size = output.size + count := by
  induction count generalizing output with
  | zero => rfl
  | succ count ih =>
      rw [repeatBytes, ih, Array.size_push]
      omega

theorem repeatBytes_append (before output : Array UInt8) {distance : Nat} (count : Nat)
    (le : distance ≤ output.size) :
    repeatBytes (before ++ output) distance count =
      before ++ repeatBytes output distance count := by
  induction count generalizing output with
  | zero => rfl
  | succ count ih =>
      have same : (before ++ output).getD ((before ++ output).size - distance) 0 =
          output.getD (output.size - distance) 0 := by
        have hi : (before ++ output).size - distance = before.size + (output.size - distance) := by
          rw [Array.size_append]
          omega
        rw [hi, Array.getD_eq_getD_getElem?, Array.getD_eq_getD_getElem?,
          Array.getElem?_append_right (Nat.le_add_right _ _), Nat.add_sub_cancel_left]
      rw [repeatBytes, repeatBytes, same, Array.push_append]
      apply ih
      rw [Array.size_push]
      omega

theorem exists_repeatBytes (text : Array UInt8) (distance count : Nat) :
    ∃ more, repeatBytes text distance count = text ++ more := by
  induction count generalizing text with
  | zero => exact ⟨#[], Array.append_empty.symm⟩
  | succ count ih =>
      obtain ⟨more, grown⟩ := ih (text.push (text.getD (text.size - distance) 0))
      rw [repeatBytes, grown, Array.push_eq_append, Array.append_assoc]
      exact ⟨_, rfl⟩

theorem repeatBytes_replicate (byte : UInt8) (n count : Nat) :
    repeatBytes (Array.replicate (n + 1) byte) 1 count = Array.replicate (n + 1 + count) byte := by
  induction count generalizing n with
  | zero => rfl
  | succ count ih =>
      have last : (Array.replicate (n + 1) byte).getD ((Array.replicate (n + 1) byte).size - 1) 0 =
          byte := by simp
      rw [repeatBytes, last, ← Array.replicate_succ, ih, Nat.add_right_comm]
      rfl

end Token

/-- The symbols of a block up to its end take a text to a longer one. -/
inductive Items (window : Nat) (literals distances : Code) :
    Array UInt8 → List Bool → Array UInt8 → List Bool → Prop
  | stop {text bits rest} :
      readItem literals distances bits = .done .endOfBlock rest →
      Items window literals distances text bits text rest
  | literal {text bits byte mid text' rest} :
      readItem literals distances bits = .done (.literal byte) mid →
      Items window literals distances (text.push byte) mid text' rest →
      Items window literals distances text bits text' rest
  | copy {text bits count distance mid text' rest} :
      readItem literals distances bits = .done (.copy count distance) mid →
      0 < distance → distance ≤ window → distance ≤ text.size →
      Items window literals distances (Token.repeatBytes text distance count) mid text' rest →
      Items window literals distances text bits text' rest

/-- Whole blocks, none of them the last of its stream, take a text to a
longer one. -/
inductive Blocks (window : Nat) : Array UInt8 → List Bool → Array UInt8 → Prop
  | none {text} : Blocks window text [] text
  | stored {text bits text' rest} {data : Bytes} :
      Block.readHeader bits = .done (false, .stored data.length) (Bits.ofBytes data ++ rest) →
      Blocks window (text ++ data.toArray) rest text' →
      Blocks window text bits text'
  | coded {text bits literals distances mid text₁ rest text'} :
      Block.readHeader bits = .done (false, .coded literals distances) mid →
      Items window literals distances text mid text₁ rest →
      Blocks window text₁ rest text' →
      Blocks window text bits text'

variable {window : Nat} {literals distances : Code} {text text' : Array UInt8}
  {bits rest : List Bool}

/-! ## A text only grows -/

theorem Items.size_le (h : Items window literals distances text bits text' rest) :
    text.size ≤ text'.size := by
  induction h with
  | stop _ => exact Nat.le_refl _
  | literal _ _ ih =>
      rw [Array.size_push] at ih
      omega
  | copy _ _ _ _ _ ih =>
      rw [Token.size_repeatBytes] at ih
      omega

theorem Blocks.size_le (h : Blocks window text bits text') : text.size ≤ text'.size := by
  induction h with
  | none => exact Nat.le_refl _
  | stored _ _ ih =>
      rw [Array.size_append] at ih
      omega
  | coded _ items _ ih => exact Nat.le_trans items.size_le ih

/-! ## What stands before a text makes no difference -/

theorem Items.prepend (before : Array UInt8)
    (h : Items window literals distances text bits text' rest) :
    Items window literals distances (before ++ text) bits (before ++ text') rest := by
  induction h with
  | stop read => exact .stop read
  | literal read _ ih =>
      rw [← Array.push_append] at ih
      exact .literal read ih
  | copy read pos near inside _ ih =>
      rw [← Token.repeatBytes_append before _ _ inside] at ih
      refine .copy read pos near ?_ ih
      rw [Array.size_append]
      omega

theorem Blocks.prepend (before : Array UInt8) (h : Blocks window text bits text') :
    Blocks window (before ++ text) bits (before ++ text') := by
  induction h with
  | none => exact .none
  | stored read _ ih =>
      rw [← Array.append_assoc] at ih
      exact .stored read ih
  | coded read items _ ih => exact .coded read (items.prepend before) ih

end DeflateTrial.Deflate
