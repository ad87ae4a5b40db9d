/-
Cuts — what cutting and trimming leave of texts that were put together

Each of the functions that take a text apart undoes one way of putting it
together, as long as the parts do not hold the separator and have no white
space at their ends.
-/
import DeflateTrial.Text.Blank
import DeflateTrial.Text.Split

namespace DeflateTrial.Text

/-- A text has no white space at its ends. -/
structure Trimmed (cs : List Char) : Prop where
  first : ∀ c, cs.head? = some c → isBlank c = false
  last : ∀ c, cs.getLast? = some c → isBlank c = false

theorem trimLeft_of_first {cs : List Char} (h : ∀ c, cs.head? = some c → isBlank c = false) :
    trimLeft cs = cs := by
  cases cs with
  | nil => rfl
  | cons c cs =>
      have first := h c rfl
      simp [trimLeft, first]

theorem trim_of_trimmed {cs : List Char} (h : Trimmed cs) : trim cs = cs := by
  have back : trimLeft cs.reverse = cs.reverse :=
    trimLeft_of_first fun c hc => h.last c (by rw [← List.head?_reverse]; exact hc)
  have right : trimRight cs = (trimLeft cs.reverse).reverse := rfl
  rw [trim, trimLeft_of_first h.first, right, back, List.reverse_reverse]

theorem trim_cons_of_blank {c : Char} (h : isBlank c = true) (cs : List Char) :
    trim (c :: cs) = trim cs := by
  rw [trim, trim, trimLeft, List.dropWhile_cons_of_pos h, trimLeft]

theorem trimmed_of_forall {cs : List Char} (h : ∀ c ∈ cs, isBlank c = false) : Trimmed cs :=
  ⟨fun c hc => h c (List.mem_of_head? hc), fun c hc => h c (List.mem_of_getLast? hc)⟩

theorem Trimmed.around {before after : List Char} {sep : Char} (h : Trimmed before)
    (h' : ∀ c, after.getLast? = some c → isBlank c = false) (solid : isBlank sep = false) :
    Trimmed (before ++ sep :: after) where
  first := by
    intro c hc
    cases before with
    | nil =>
        rw [List.nil_append, List.head?_cons, Option.some.injEq] at hc
        exact hc ▸ solid
    | cons b before => exact h.first c hc
  last := by
    intro c hc
    rw [List.getLast?_append, List.getLast?_cons, Option.some_or] at hc
    cases hl : after.getLast? with
    | none =>
        rw [hl, Option.getD_none, Option.some.injEq] at hc
        exact hc ▸ solid
    | some last =>
        rw [hl] at hc
        exact h' c (hl.trans hc)

theorem cutFirst_append {sep : Char} {before : List Char} (h : sep ∉ before)
    (after : List Char) : cutFirst sep (before ++ sep :: after) = some (before, after) := by
  induction before with
  | nil => simp [cutFirst]
  | cons c before ih =>
      rw [List.mem_cons, not_or] at h
      rw [List.cons_append, cutFirst, if_neg (Ne.symm h.1), ih h.2]
      rfl

theorem cutFirst_of_not_mem {sep : Char} {cs : List Char} (h : sep ∉ cs) :
    cutFirst sep cs = none := by
  induction cs with
  | nil => rfl
  | cons c cs ih =>
      rw [List.mem_cons, not_or] at h
      rw [cutFirst, if_neg (Ne.symm h.1), ih h.2]
      rfl

theorem isNone_dropStart?_iff {start cs : List Char} :
    (dropStart? start cs).isNone = true ↔ ¬ start <+: cs := by
  rw [Option.isNone_iff_eq_none, Option.eq_none_iff_forall_not_mem, ← not_exists, not_congr]
  exact exists_congr fun rest => dropStart?_eq_some.trans eq_comm

theorem isNone_dropStart?_eq_false {start cs : List Char} (h : start <+: cs) :
    (dropStart? start cs).isNone = false :=
  Bool.eq_false_iff.mpr fun none => isNone_dropStart?_iff.mp none h

theorem strip_of_not_mem {c : Char} {cs : List Char} (h : c ∉ cs) : strip c cs = cs := by
  have none {ds : List Char} (hd : c ∉ ds) : ds.dropWhile (· == c) = ds := by
    cases ds with
    | nil => rfl
    | cons d ds =>
        have other : (d == c) = false := by
          rw [beq_eq_false_iff_ne]
          rintro rfl
          exact hd List.mem_cons_self
        simp [other]
  rw [strip, none h, none (by rwa [List.mem_reverse]), List.reverse_reverse]

end DeflateTrial.Text
