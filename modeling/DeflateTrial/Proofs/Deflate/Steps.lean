/-
Steps — a run goes through a stream step by step

A place in a stream is a position, the text up to there and the bits behind it.
`Step` says from which place to which a stream goes: a header, a stored byte or
an item is read, or a byte that is owed comes to the text.

    header ──> stored, coded ──> behind the block ──> header, ended

A step knows of no limit and no buffer, and of the text it only asks that a copy
begins in it.  A run takes such steps, and stops where there is none or where its
buffer is full (`run_steps`).  So whatever is said of a run without its buffer,
it is enough to say of each step and of the places where a run stops.
-/
import DeflateTrial.Proofs.Deflate.Decoding
import Mathlib.Logic.Relation

namespace DeflateTrial.Deflate

open Relation (ReflTransGen)

/-- Where a stream is, with the text up to there and the bits behind it. -/
structure Place where
  position : Position
  text : Array UInt8
  bits : List Bool

/-- One step of a stream. -/
inductive Step : Place → Place → Prop
  | header {final last text bits block rest} :
      Block.readHeader bits = .done (last, block) rest →
      Step ⟨⟨final, .header, .nothing⟩, text, bits⟩ ⟨.inBlock last block, text, rest⟩
  | stored {final left text bits n rest} :
      readNat 8 bits = .done n rest →
      Step ⟨⟨final, .stored (left + 1), .nothing⟩, text, bits⟩
        ⟨⟨final, .stored left, .nothing⟩, text.push (UInt8.ofNat n), rest⟩
  | storedEnd {final text bits} :
      Step ⟨⟨final, .stored 0, .nothing⟩, text, bits⟩ ⟨.behind final, text, bits⟩
  | item {final literals distances text bits item rest} :
      readItem literals distances bits = .done item rest →
      Step ⟨⟨final, .coded literals distances, .nothing⟩, text, bits⟩
        ⟨Position.afterItem ⟨final, .coded literals distances, .nothing⟩ item, text, rest⟩
  | literal {final stage byte text bits} :
      Step ⟨⟨final, stage, .literal byte⟩, text, bits⟩
        ⟨⟨final, stage, .nothing⟩, text.push byte, bits⟩
  | copyEnd {final stage distance text bits} :
      Step ⟨⟨final, stage, .copy 0 distance⟩, text, bits⟩ ⟨⟨final, stage, .nothing⟩, text, bits⟩
  | copy {final stage count distance text bits} :
      distance ≤ text.size →
      Step ⟨⟨final, stage, .copy (count + 1) distance⟩, text, bits⟩
        ⟨⟨final, stage, .copy count distance⟩,
          text.push (text.getD (text.size - distance) 0), bits⟩

/-- Why a run stops at a place. -/
inductive Halts : Halt → Place → Prop
  | header {final text bits} :
      Block.readHeader bits = .short →
      Halts .exhausted ⟨⟨final, .header, .nothing⟩, text, bits⟩
  | stored {final left text bits} :
      readNat 8 bits = .short →
      Halts .exhausted ⟨⟨final, .stored (left + 1), .nothing⟩, text, bits⟩
  | item {final literals distances text bits} :
      readItem literals distances bits = .short →
      Halts .exhausted ⟨⟨final, .coded literals distances, .nothing⟩, text, bits⟩
  | ended {final text bits} :
      Halts .ended ⟨⟨final, .ended, .nothing⟩, text, bits⟩
  | full {place} :
      Halts .full place
  | failed {error place} :
      Halts (.failed error) place

/-- Where a run has stopped, with the text before it. -/
def Run.place (ran : Run) (history : Array UInt8) : Place :=
  ⟨ran.position, history ++ ran.output, ran.rest⟩

/-- A run takes steps of its stream, and stops where it has to. -/
theorem run_steps (limit own : Nat) (history : Array UInt8) (buffer : Buffer)
    (position : Position) (bits : List Bool) (output : Array UInt8) :
    let ran := run limit own history buffer position bits output
    ReflTransGen Step ⟨position, history ++ output, bits⟩ (ran.place history) ∧
      Halts ran.halt (ran.place history) := by
  dsimp only
  fun_induction run limit own history buffer position bits output with
  | case1 | case4 | case12 => exact ⟨.refl, .full⟩
  | case5 | case9 | case14 | case17 => exact ⟨.refl, .failed⟩
  | case2 buffer position bits output byte hp room made ih =>
      obtain ⟨final, stage, pending⟩ := position
      cases hp
      rw [Array.append_push] at ih
      exact ⟨.head .literal ih.1, ih.2⟩
  | case3 buffer position bits output distance hp ih =>
      obtain ⟨final, stage, pending⟩ := position
      cases hp
      exact ⟨.head .copyEnd ih.1, ih.2⟩
  | case6 buffer position bits output count distance hp room made byte back ih =>
      obtain ⟨final, stage, pending⟩ := position
      cases hp
      obtain ⟨inside, rfl⟩ := of_byteBack? back
      rw [Array.append_push] at ih
      exact ⟨.head (.copy inside) ih.1, ih.2⟩
  | case7 buffer position bits output hp hs =>
      obtain ⟨final, stage, pending⟩ := position
      cases hp
      cases hs
      exact ⟨.refl, .ended⟩
  | case8 buffer position bits output hp hs short =>
      obtain ⟨final, stage, pending⟩ := position
      cases hp
      cases hs
      exact ⟨.refl, .header short⟩
  | case10 buffer position bits output hp hs last block rest read ih =>
      obtain ⟨final, stage, pending⟩ := position
      cases hp
      cases hs
      exact ⟨.head (.header read) ih.1, ih.2⟩
  | case11 buffer position bits output hp hs ih =>
      obtain ⟨final, stage, pending⟩ := position
      cases hp
      cases hs
      exact ⟨.head .storedEnd ih.1, ih.2⟩
  | case13 buffer position bits output hp left hs room made short =>
      obtain ⟨final, stage, pending⟩ := position
      cases hp
      cases hs
      exact ⟨.refl, .stored short⟩
  | case15 buffer position bits output hp left hs room made n rest read ih =>
      obtain ⟨final, stage, pending⟩ := position
      cases hp
      cases hs
      rw [Array.append_push] at ih
      exact ⟨.head (.stored read) ih.1, ih.2⟩
  | case16 buffer position bits output hp literals distances hs short =>
      obtain ⟨final, stage, pending⟩ := position
      cases hp
      cases hs
      exact ⟨.refl, .item short⟩
  | case18 buffer position bits output hp literals distances hs item rest read ih =>
      obtain ⟨final, stage, pending⟩ := position
      cases hp
      cases hs
      exact ⟨.head (.item read) ih.1, ih.2⟩

end DeflateTrial.Deflate
