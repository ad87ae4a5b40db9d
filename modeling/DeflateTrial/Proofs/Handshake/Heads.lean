/-
Heads — lines that were put out are the lines that are read

A head is its lines, each with its end, and an empty one.  Where no line holds
a line end of its own and none is empty, the blank line at the end is the
first there is (`headSize?_ofText`), and cutting the text gives the lines back
(`lines_textOf`).

The search for the blank line goes by bytes and the cutting by characters.
They meet in UTF-8, where a byte below 128 is always a character of its own
(`mem_ofText`).
-/
import DeflateTrial.Handshake.HeadReader
import DeflateTrial.Handshake.Writing
import DeflateTrial.Proofs.Handshake.HeadSearch
import DeflateTrial.Proofs.Text.Lines

namespace DeflateTrial

namespace Bytes

theorem mem_utf8EncodeChar {byte : UInt8} {c : Char} (ascii : byte.toNat < 128)
    (h : byte ∈ String.utf8EncodeChar c) : c.toNat = byte.toNat := by
  have high (n : Nat) (lead : 128 ≤ n % 256) : byte ≠ UInt8.ofNat n := by
    rintro rfl
    rw [UInt8.toNat_ofNat'] at ascii
    omega
  simp only [String.utf8EncodeChar] at h
  split at h
  · rw [List.mem_singleton] at h
    subst h
    rw [UInt8.toNat_ofNat', Nat.mod_eq_of_lt (by omega)]
    rfl
  · -- every other form has the highest bit set in each byte
    exfalso
    split at h
    · simp only [List.mem_cons, List.not_mem_nil, or_false] at h
      rcases h with h | h
      · exact high _ (by omega) h
      · exact high _ (by omega) h
    · split at h
      · simp only [List.mem_cons, List.not_mem_nil, or_false] at h
        rcases h with h | h | h
        · exact high _ (by omega) h
        · exact high _ (by omega) h
        · exact high _ (by omega) h
      · simp only [List.mem_cons, List.not_mem_nil, or_false] at h
        rcases h with h | h | h | h
        · exact high _ (by omega) h
        · exact high _ (by omega) h
        · exact high _ (by omega) h
        · exact high _ (by omega) h

theorem mem_ofText {byte : UInt8} {text : String} (ascii : byte.toNat < 128)
    (h : byte ∈ ofText text) : Char.ofNat byte.toNat ∈ text.toList := by
  rw [ofText_eq_flatMap, List.mem_flatMap] at h
  obtain ⟨c, member, h⟩ := h
  rw [← mem_utf8EncodeChar ascii h, Char.ofNat_toNat]
  exact member

end Bytes

namespace Handshake

/-! ## What is put out -/

/-- Lines with their ends, one after the other. -/
def textOf : List String → String
  | [] => ""
  | line :: lines => line ++ lineEnd ++ textOf lines

theorem putLines_ok (lines : List String) : putLines (lines.map .ok) = (textOf lines, .ok ()) := by
  induction lines with
  | nil => rfl
  | cons line lines ih =>
      rw [List.map_cons, putLines, ih]
      rfl

theorem putLines_error (lines : List String) (fault : Fault) (rest : List (Except Fault String)) :
    putLines (lines.map .ok ++ .error fault :: rest) = (textOf lines, .error fault) := by
  induction lines with
  | nil => rfl
  | cons line lines ih =>
      rw [List.map_cons, List.cons_append, putLines, ih]
      rfl

theorem putHead_ok (lines : List String) :
    putHead (lines.map .ok) = (textOf (lines ++ [""]), .ok ()) := by
  rw [putHead, ← putLines_ok, List.map_append]
  rfl

theorem toList_textOf (lines : List String) :
    (textOf lines).toList = lines.flatMap (·.toList ++ ['\r', '\n']) := by
  induction lines with
  | nil => rfl
  | cons line lines ih =>
      rw [textOf, String.toList_append, String.toList_append, ih, List.flatMap_cons]
      rfl

theorem ofText_textOf (lines : List String) :
    Bytes.ofText (textOf lines) = lines.flatMap (Bytes.ofText · ++ [13, 10]) := by
  induction lines with
  | nil => rfl
  | cons line lines ih =>
      rw [textOf, Bytes.ofText_append, Bytes.ofText_append, ih, List.flatMap_cons]
      rfl

/-! ## What is read -/

theorem toList_textOf_cons (line : String) (lines : List String) :
    (textOf (line :: lines)).toList = line.toList ++ ['\r'] ++ '\n' :: (textOf lines).toList := by
  rw [toList_textOf, toList_textOf, List.flatMap_cons]
  simp

theorem lines_textOf {lines : List String} (whole : ∀ line ∈ lines, '\n' ∉ line.toList) :
    Text.lines (textOf lines).toList = lines.map String.toList := by
  induction lines with
  | nil => rfl
  | cons line lines ih =>
      have free : '\n' ∉ line.toList ++ ['\r'] := by simp [whole line List.mem_cons_self]
      rw [toList_textOf_cons, Text.lines_of_line free, Text.dropReturn_append, List.map_cons,
        ih fun other member => whole other (List.mem_cons_of_mem _ member)]

/-! ## Where the head ends -/

theorem headSize?_append_of_not_mem {bytes : Bytes} (free : 13 ∉ bytes) (rest : Bytes) :
    headSize? (bytes ++ rest) = (headSize? rest).map (bytes.length + ·) := by
  induction bytes with
  | nil => simp
  | cons b bytes ih =>
      rw [List.mem_cons, not_or] at free
      have absent : blankLine.isPrefixOf (b :: (bytes ++ rest)) = false := by
        simp [blankLine, List.isPrefixOf, free.1]
      rw [List.cons_append, headSize?_cons, absent, ih free.2, Option.map_map]
      simp only [Bool.false_eq_true, if_false]
      congr 1
      funext size
      simp only [Function.comp_apply, List.length_cons]
      omega

theorem headSize?_lines {lines : List Bytes} (some_ : lines ≠ [])
    (solid : ∀ line ∈ lines, line ≠ [] ∧ 13 ∉ line) :
    headSize? (lines.flatMap (· ++ [13, 10]) ++ [13, 10]) =
      some (lines.flatMap (· ++ [13, 10]) ++ [13, 10]).length := by
  induction lines with
  | nil => exact absurd rfl some_
  | cons line lines ih =>
      obtain ⟨-, free⟩ := solid line List.mem_cons_self
      rw [List.flatMap_cons, List.append_assoc, List.append_assoc,
        headSize?_append_of_not_mem free, List.length_append]
      cases lines with
      | nil => rfl
      | cons next others =>
          have behind := ih (List.cons_ne_nil _ _) fun other member =>
            solid other (List.mem_cons_of_mem _ member)
          obtain ⟨ne, free'⟩ := solid next (List.mem_cons_of_mem _ List.mem_cons_self)
          obtain ⟨b, next, rfl⟩ := List.exists_cons_of_ne_nil ne
          generalize hr : (List.flatMap (· ++ [13, 10]) ((b :: next) :: others)) ++ [13, 10] = rest
            at behind ⊢
          have begins : ∃ rest', rest = b :: rest' := by
            rw [← hr, List.flatMap_cons]
            exact ⟨_, rfl⟩
          obtain ⟨rest', rfl⟩ := begins
          have other : b ≠ 13 := fun h => free' (h ▸ List.mem_cons_self)
          have one : blankLine.isPrefixOf (13 :: 10 :: b :: rest') = false := by
            simp [blankLine, List.isPrefixOf, Ne.symm other]
          have two : blankLine.isPrefixOf (10 :: b :: rest') = false := by
            simp [blankLine, List.isPrefixOf]
          rw [List.cons_append, List.cons_append, List.nil_append, headSize?_cons, one,
            headSize?_cons, two, behind]
          rfl

/-- A line that can stand in a head. -/
structure Solid (line : String) : Prop where
  filled : line ≠ ""
  whole : '\r' ∉ line.toList ∧ '\n' ∉ line.toList

theorem headSize?_ofText {lines : List String} (some_ : lines ≠ [])
    (solid : ∀ line ∈ lines, Solid line) :
    headSize? (Bytes.ofText (textOf (lines ++ [""]))) =
      some (Bytes.ofText (textOf (lines ++ [""]))).length := by
  have split : Bytes.ofText (textOf (lines ++ [""])) =
      (lines.map Bytes.ofText).flatMap (· ++ [13, 10]) ++ [13, 10] := by
    rw [ofText_textOf, List.flatMap_append, List.flatMap_map]
    rfl
  rw [split]
  refine headSize?_lines (by simpa using some_) ?_
  intro bytes written
  obtain ⟨line, member, rfl⟩ := List.mem_map.mp written
  have here := solid line member
  refine ⟨fun empty => here.filled ?_, fun return_ => here.whole.1 ?_⟩
  · have text := Bytes.toText?_ofText line
    rw [empty] at text
    exact (Option.some.inj text).symm
  · exact Bytes.mem_ofText (by decide) return_

/-- A head that was put out with some lines is read as these and an empty one. -/
theorem lines_head {lines : List String} (solid : ∀ line ∈ lines, Solid line) :
    Text.lines (textOf (lines ++ [""])).toList = lines.map String.toList ++ [[]] := by
  rw [lines_textOf, List.map_append]
  · rfl
  · intro line member
    rcases List.mem_append.mp member with member | member
    · exact (solid line member).whole.2
    · rw [List.mem_singleton.mp member]
      exact List.not_mem_nil

end Handshake

end DeflateTrial
