/-
Matching — the tokens of a text spell it

The memory of the search only proposes places, and nothing is assumed about
it.  A copy repeats what it says because its count is counted on the text
itself (`repeatBytes_agreement`), and it stays in the window because `best`
looks at no place further back (`found_best`).
-/
import DeflateTrial.Deflate.Matcher
import DeflateTrial.Proofs.Deflate.Blocks

namespace DeflateTrial.Deflate

namespace Token

/-- What a copy after a text keeps to: the counts and the distances there are,
the window and the text. -/
def Fits (window : Nat) (text : Array UInt8) : Token → Prop
  | literal _ => True
  | copy count distance =>
    3 ≤ count ∧ count ≤ 258 ∧ 0 < distance ∧ distance ≤ window ∧ distance ≤ text.size

end Token

/-- Tokens that fit take a text to a longer one. -/
inductive Spells (window : Nat) : Array UInt8 → List Token → Array UInt8 → Prop
  | nil {text} : Spells window text [] text
  | cons {text token tokens text'} :
      token.Fits window text → Spells window (token.expand text) tokens text' →
      Spells window text (token :: tokens) text'

namespace Matcher
variable {window place older newer : Nat} {text : Array UInt8}

theorem repeatBytes_agreement (before : older < newer) (le : newer ≤ text.size) (most : Nat) :
    newer + agreement text older newer most ≤ text.size ∧
      Token.repeatBytes (text.extract 0 newer) (newer - older) (agreement text older newer most) =
        text.extract 0 (newer + agreement text older newer most) := by
  induction most generalizing older newer with
  | zero => exact ⟨le, rfl⟩
  | succ most ih =>
      rw [agreement]
      split
      · rename_i a b ha hb
        by_cases same : a = b
        · obtain ⟨hi, hb⟩ := Array.getElem?_eq_some_iff.mp hb
          have byte : (text.extract 0 newer).getD
              ((text.extract 0 newer).size - (newer - older)) 0 = text[newer] := by
            have back : min newer text.size - 0 - (newer - older) = older := by omega
            rw [Array.getD_eq_getD_getElem?, Array.size_extract, back, Array.getElem?_extract,
              if_pos (by omega), Nat.zero_add, ha, hb, same]
            rfl
          have next : (text.extract 0 newer).push text[newer] = text.extract 0 (newer + 1) := by
            rw [Array.push_extract_getElem hi, Nat.zero_min]
          obtain ⟨bound, repeated⟩ := ih (Nat.add_lt_add_right before 1) hi
          rw [Nat.add_sub_add_right, Nat.add_assoc, Nat.add_comm 1] at repeated
          rw [if_pos same, Token.repeatBytes, byte, next]
          exact ⟨by omega, repeated⟩
        · rw [if_neg same]
          exact ⟨le, rfl⟩
      · exact ⟨le, rfl⟩

theorem agreement_le (text : Array UInt8) (older newer most : Nat) :
    agreement text older newer most ≤ most := by
  induction most generalizing older newer with
  | zero => exact Nat.le_refl _
  | succ most ih =>
      rw [agreement]
      split
      · split
        · exact Nat.succ_le_succ (ih _ _)
        · exact Nat.zero_le _
      · exact Nat.zero_le _

/-- What the search has found: nothing yet, or the agreement with an older
place in the window. -/
def Found (window : Nat) (text : Array UInt8) (place : Nat) (found : Nat × Nat) : Prop :=
  found.1 = 0 ∨ ∃ older, older < place ∧ place - older ≤ window ∧
    found = (agreement text older place maxCount, place - older)

theorem found_best (window : Nat) (text : Array UInt8) (place : Nat) (proposals : List Nat) :
    Found window text place (best window text place proposals) := by
  rw [best]
  -- every proposal that is looked at keeps to it
  suffices h : ∀ found, Found window text place found → Found window text place
      (proposals.foldl (fun found older =>
        if older < place ∧ place - older ≤ window then
          let count := agreement text older place maxCount
          if count > found.1 then (count, place - older) else found
        else found) found) from h (0, 0) (.inl rfl)
  induction proposals with
  | nil => exact fun found h => h
  | cons older proposals ih =>
      intro found h
      rw [List.foldl_cons]
      apply ih
      split
      · rename_i inside
        dsimp only
        split
        · exact .inr ⟨older, inside.1, inside.2, rfl⟩
        · exact h
      · exact h

theorem spells_tokensFrom (window : Nat) (text : Array UInt8) (memory : Memory) (place : Nat)
    (found : List Token) (le : place ≤ text.size) :
    ∃ tokens, tokensFrom window text memory place found = found.reverse ++ tokens ∧
      Spells window (text.extract 0 place) tokens text := by
  induction memory, place, found using tokensFrom.induct window text with
  | case1 memory place found h count distance hb short ih =>
      obtain ⟨tokens, written, spells⟩ := ih h
      refine ⟨.literal text[place] :: tokens, ?_, .cons trivial ?_⟩
      · rw [tokensFrom, dif_pos h, hb]
        simp only [if_pos short, written, List.reverse_cons, List.append_assoc, List.cons_append,
          List.nil_append]
      · rw [Token.expand, Array.push_extract_getElem h, Nat.zero_min]
        exact spells
  | case2 memory place found h count distance hb long ih =>
      have searched := found_best window text place (memory.proposals text place)
      rw [hb] at searched
      have three : 3 ≤ count := Nat.le_of_not_lt long
      rcases searched with none | ⟨older, before, inside, run⟩
      · exact absurd none (Nat.ne_of_gt (Nat.lt_of_lt_of_le (by decide) three))
      · obtain ⟨hc, hd⟩ := Prod.mk.inj run
        obtain ⟨bound, repeated⟩ := repeatBytes_agreement before le maxCount
        have most := agreement_le text older place maxCount
        rw [← hc, ← hd] at repeated
        rw [← hc] at bound most
        obtain ⟨tokens, written, spells⟩ := ih bound
        refine ⟨.copy count distance :: tokens, ?_, .cons ?_ ?_⟩
        · rw [tokensFrom, dif_pos h, hb]
          simp only [if_neg long, written, List.reverse_cons, List.append_assoc, List.cons_append,
            List.nil_append]
        · rw [← hd] at inside
          refine ⟨three, most, hd ▸ Nat.sub_pos_of_lt before, inside, ?_⟩
          rw [Array.size_extract]
          omega
        · rw [Token.expand, repeated]
          exact spells
  | case3 memory place found h =>
      refine ⟨[], ?_, ?_⟩
      · rw [tokensFrom, dif_neg h, List.append_nil]
      · rw [Nat.le_antisymm le (Nat.le_of_not_lt h), Array.extract_size]
        exact .nil

theorem spells_tokens (window depth : Nat) (history : Array UInt8) (data : Bytes) :
    Spells window history (tokens window depth history data) (history ++ data.toArray) := by
  obtain ⟨found, written, spells⟩ := spells_tokensFrom window (history ++ data.toArray)
    ((Memory.empty depth).noteRun (history ++ data.toArray) 0 history.size) history.size []
    (by rw [Array.size_append]; omega)
  rw [Array.extract_append_left, Array.extract_size] at spells
  rw [tokens, written]
  exact spells

end Matcher

end DeflateTrial.Deflate
