/-
Ends — what is left of a text when runs are taken from both of its ends

White space is taken from the ends of a text, and quotes are.  What is left is a
part of the text, and neither of its ends is of the kind that was taken
(`ends_between`).  So a text is left as it is just if its own ends are not
(`between_eq_self_iff`).
-/
import DeflateTrial.Proofs.Text.Cuts
import Mathlib.Data.List.DropRight
import Mathlib.Data.List.Infix

namespace DeflateTrial.Text

variable {cs piece before after : List Char} {c sep : Char} {p : Char → Bool}

theorem not_of_head?_dropWhile (head : (cs.dropWhile p).head? = some c) : p c = false := by
  have first := List.head?_dropWhile_not p cs
  rwa [head] at first

theorem ends_between (p : Char → Bool) (cs : List Char) :
    (∀ c, ((cs.dropWhile p).rdropWhile p).head? = some c → p c = false) ∧
    ∀ c, ((cs.dropWhile p).rdropWhile p).getLast? = some c → p c = false := by
  constructor
  · intro c head
    obtain ⟨behind, split⟩ := List.rdropWhile_prefix p (cs.dropWhile p)
    have first : (cs.dropWhile p).head? = some c := by
      rw [← split, List.head?_append, head, Option.some_or]
    exact not_of_head?_dropWhile first
  · intro c last
    rw [List.rdropWhile, List.getLast?_reverse] at last
    exact not_of_head?_dropWhile last

theorem between_isInfix (p : Char → Bool) (cs : List Char) :
    (cs.dropWhile p).rdropWhile p <:+: cs :=
  (List.rdropWhile_prefix p _).isInfix.trans (List.dropWhile_suffix p).isInfix

theorem dropWhile_of_first (first : ∀ c, cs.head? = some c → p c = false) :
    cs.dropWhile p = cs := by
  cases cs with
  | nil => rfl
  | cons c cs => rw [List.dropWhile_cons_of_neg (by simp [first c rfl])]

theorem between_eq_self_iff : (cs.dropWhile p).rdropWhile p = cs ↔
    (∀ c, cs.head? = some c → p c = false) ∧ ∀ c, cs.getLast? = some c → p c = false := by
  constructor
  · intro same
    have ends := ends_between p cs
    rwa [same] at ends
  · rintro ⟨first, last⟩
    have back : cs.reverse.dropWhile p = cs.reverse :=
      dropWhile_of_first fun c head => last c (by rwa [← List.head?_reverse])
    rw [dropWhile_of_first first, List.rdropWhile, back, List.reverse_reverse]

/-! ## White space -/

theorem trimmed_trim (cs : List Char) : Trimmed (trim cs) :=
  have ends := ends_between isBlank cs
  ⟨ends.1, ends.2⟩

theorem trim_isInfix (cs : List Char) : trim cs <:+: cs :=
  between_isInfix isBlank cs

theorem trimLeft_append_cons (solid : isBlank sep = false) (before after : List Char) :
    trimLeft (before ++ sep :: after) = trimLeft before ++ sep :: after := by
  induction before with
  | nil => exact List.dropWhile_cons_of_neg (by simp [solid])
  | cons c before ih =>
      cases blank : isBlank c with
      | true => simpa only [trimLeft, List.cons_append, List.dropWhile_cons_of_pos blank] using ih
      | false => simp [trimLeft, blank]

theorem trim_append_cons (solid : isBlank sep = false) (before after : List Char) :
    trim (before ++ sep :: after) = trimLeft before ++ sep :: trimRight after := by
  have turned : (trimLeft before ++ sep :: after).reverse =
      after.reverse ++ sep :: (trimLeft before).reverse := by simp
  have right (ds : List Char) : trimRight ds = (trimLeft ds.reverse).reverse := rfl
  rw [trim, trimLeft_append_cons solid, right, turned, trimLeft_append_cons solid, right]
  simp

/-! ## One character -/

theorem strip_isInfix (c : Char) (cs : List Char) : strip c cs <:+: cs :=
  between_isInfix (· == c) cs

theorem strip_eq_self_iff : strip c cs = cs ↔ cs.head? ≠ some c ∧ cs.getLast? ≠ some c := by
  have other {end_ : Option Char} : (∀ d, end_ = some d → (d == c) = false) ↔ end_ ≠ some c := by
    cases end_ <;> simp
  rw [← other, ← other]
  exact between_eq_self_iff

/-! ## Pieces -/

theorem of_mem_splitOn (member : piece ∈ cs.splitOn sep) : sep ∉ piece ∧ piece ⊆ cs := by
  induction n : cs.length using Nat.strongRecOn generalizing cs with
  | ind size ih =>
      by_cases several : sep ∈ cs
      · obtain ⟨first, rest, rfl, alone⟩ := List.eq_append_cons_of_mem several
        rw [List.splitOn_append_cons_self_of_not_mem alone, List.mem_cons] at member
        rcases member with rfl | member
        · exact ⟨alone, List.subset_append_left _ _⟩
        · have shorter : rest.length < size := by
            rw [← n, List.length_append, List.length_cons]
            omega
          obtain ⟨free, within⟩ := ih _ shorter member rfl
          exact ⟨free, fun c inside =>
            List.mem_append_right first (List.mem_cons_of_mem sep (within inside))⟩
      · rw [List.splitOn_eq_singleton several, List.mem_singleton] at member
        subst member
        exact ⟨several, List.Subset.refl _⟩

end DeflateTrial.Text
