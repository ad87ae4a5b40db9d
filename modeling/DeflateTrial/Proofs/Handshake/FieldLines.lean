/-
Field lines — what the lines of a head come to, name by name

Every line before the first empty one that has a colon is a field
(`Fields.inLines`).  What a head says of a name depends on the fields of that
name alone and on their order: the last value stands, the parts for extensions
add up, and a strict reading stops at a second field of a name that may stand
only once (`Fields.collect_cases`).  What stands between two fields of a name,
fields of other names or lines that are none, does not matter to it.
-/
import DeflateTrial.Proofs.Handshake.Lists
import Mathlib.Data.List.Induction

namespace DeflateTrial.Handshake.Fields

variable {strict : Bool} {written fields : Fields} {name other value : String}

/-- The fields in the lines up to the first empty one, as they follow one another. -/
def inLines (lines : List (List Char)) : Fields :=
  (lines.takeWhile (!·.isEmpty)).filterMap ofLine?

/-- The values of the fields of a name, in their order. -/
def valuesOf (written : Fields) (name : String) : List String :=
  (written.filter (·.1 = name)).map (·.2)

theorem valuesOf_concat_self :
    valuesOf (written ++ [(name, value)]) name = written.valuesOf name ++ [value] := by
  simp [valuesOf]

theorem valuesOf_concat_of_ne (ne : name ≠ other) :
    valuesOf (written ++ [(name, value)]) other = written.valuesOf other := by
  simp [valuesOf, ne]

theorem valuesOf_swap {first second : String × String} (ne : first.1 ≠ second.1)
    (before after : Fields) (name : String) :
    valuesOf (before ++ first :: second :: after) name =
      valuesOf (before ++ second :: first :: after) name := by
  by_cases here : first.1 = name
  · have there : second.1 ≠ name := fun same => ne (here.trans same.symm)
    simp [valuesOf, here, there]
  · simp [valuesOf, List.filter_cons, here]

/-- Takes fields up one by one. -/
def collect (strict : Bool) (written : Fields) : Except Problem Fields :=
  written.foldlM (fun fields field => fields.add strict field.1 field.2) []

theorem ofLines_eq_collect (strict : Bool) (lines : List (List Char)) :
    ofLines strict lines = collect strict (inLines lines) := by
  rw [ofLines, collect, inLines, List.foldlM_filterMap]
  congr 1
  funext fields line
  rw [addLine]
  cases ofLine? line <;> rfl

/-! ## One field more -/

/-- Of a name that is no list the last value is kept, of the list all parts. -/
structure Collected (written fields : Fields) : Prop where
  last : ∀ name, name ≠ extensionsName → fields.get? name = (written.valuesOf name).getLast?
  listed : fields.extensions = (written.valuesOf extensionsName).flatMap listOf

theorem collected_nil : Collected [] [] :=
  ⟨fun _ _ => rfl, rfl⟩

theorem add_of_ne (ne : name ≠ extensionsName) :
    fields.add strict name value =
      if (fields.get? name).isSome ∧ strict = true ∧ name ∈ singletons then .error (.duplicate name)
      else .ok (fields.set name value) := by
  rw [add]
  cases fields.get? name with
  | none => simp
  | some existing => simp [ne]

theorem Collected.set (collected : Collected written fields) (ne : name ≠ extensionsName) :
    Collected (written ++ [(name, value)]) (fields.set name value) where
  last := by
    intro other known
    by_cases same : other = name
    · subst same
      rw [get?_set_self, valuesOf_concat_self, List.getLast?_concat]
    · rw [get?_set_of_ne _ _ same, valuesOf_concat_of_ne (Ne.symm same), collected.last other known]
  listed := by
    rw [valuesOf_concat_of_ne ne, ← collected.listed, extensions, get?_set_of_ne _ _ (Ne.symm ne),
      extensions]

theorem Collected.add_cases (collected : Collected written fields) (strict : Bool)
    (name value : String) :
    (∃ after, fields.add strict name value = .ok after ∧
      Collected (written ++ [(name, value)]) after ∧
      (strict = true → name ∈ singletons → written.valuesOf name = [])) ∨
    (fields.add strict name value = .error (.duplicate name) ∧ strict = true ∧
      name ∈ singletons ∧ written.valuesOf name ≠ []) := by
  by_cases list : name = extensionsName
  · subst list
    have free : extensionsName ∉ singletons := by decide
    obtain ⟨after, added, listed, kept⟩ := add_extensions strict fields value
    refine .inl ⟨after, added, ⟨fun other ne => ?_, ?_⟩, fun _ single => absurd single free⟩
    · rw [kept other ne, valuesOf_concat_of_ne (Ne.symm ne), collected.last other ne]
    · rw [listed, collected.listed, valuesOf_concat_self, List.flatMap_append]
      simp
  · have known : (fields.get? name).isSome ↔ written.valuesOf name ≠ [] := by
      rw [collected.last name list, Option.isSome_iff_ne_none, ne_eq, List.getLast?_eq_none_iff]
    rw [add_of_ne list]
    by_cases repeated : (fields.get? name).isSome ∧ strict = true ∧ name ∈ singletons
    · exact .inr ⟨if_pos repeated, repeated.2.1, repeated.2.2, known.mp repeated.1⟩
    · refine .inl ⟨_, if_neg repeated, collected.set list, fun reading single => ?_⟩
      by_contra filled
      exact repeated ⟨known.mpr filled, reading, single⟩

/-! ## All fields -/

/-- No name that may stand only once stands twice. -/
def Once (written : Fields) : Prop :=
  ∀ name ∈ singletons, (written.valuesOf name).length ≤ 1

theorem Collected.only (collected : Collected written fields) (once : Once written)
    (single : name ∈ singletons) (found : fields.get? name = some value) :
    written.valuesOf name = [value] := by
  have ne : name ≠ extensionsName := by
    rintro rfl
    exact absurd single (by decide)
  rw [collected.last name ne] at found
  obtain ⟨before, split⟩ := List.getLast?_eq_some_iff.mp found
  have few := once name single
  rw [split, List.length_append, List.length_singleton] at few
  have none : before = [] := List.eq_nil_of_length_eq_zero (by omega)
  rw [split, none, List.nil_append]

/-- A strict reading refuses a name that it may not find twice; else, and in a reading
that is not strict, all fields are taken up. -/
theorem collect_cases (strict : Bool) (written : Fields) :
    (∃ fields, collect strict written = .ok fields ∧ Collected written fields ∧
      (strict = true → Once written)) ∨
    (∃ name, collect strict written = .error (.duplicate name) ∧ strict = true ∧
      ¬ Once written) := by
  induction written using List.reverseRecOn with
  | nil => exact .inl ⟨[], rfl, collected_nil, fun _ _ _ => Nat.zero_le 1⟩
  | append_singleton written field ih =>
      obtain ⟨name, value⟩ := field
      have onward : collect strict (written ++ [(name, value)]) =
          collect strict written >>= fun fields => fields.add strict name value := by
        rw [collect, List.foldlM_append, collect]
        simp
      rcases ih with ⟨fields, read, collected, once⟩ | ⟨twice, refused, reading, more⟩
      · rw [onward, read]
        rcases collected.add_cases strict name value with
          ⟨after, added, collected', first⟩ | ⟨refused, reading, single, before⟩
        · refine .inl ⟨after, added, collected', fun reading other single => ?_⟩
          by_cases same : name = other
          · subst same
            rw [valuesOf_concat_self, first reading single]
            exact Nat.le_refl 1
          · rw [valuesOf_concat_of_ne same]
            exact once reading other single
        · refine .inr ⟨name, refused, reading, fun once => ?_⟩
          have few := once name single
          rw [valuesOf_concat_self, List.length_append, List.length_singleton] at few
          have := List.length_pos_iff.mpr before
          omega
      · rw [onward, refused]
        refine .inr ⟨twice, rfl, reading, fun once => more fun other single => ?_⟩
        have few := once other single
        by_cases same : name = other
        · subst same
          rw [valuesOf_concat_self, List.length_append] at few
          omega
        · rwa [valuesOf_concat_of_ne same] at few

theorem collected_of_ofLines {lines : List (List Char)} (read : ofLines true lines = .ok fields) :
    Collected (inLines lines) fields ∧ Once (inLines lines) := by
  rw [ofLines_eq_collect] at read
  rcases collect_cases true (inLines lines) with
    ⟨after, found, collected, once⟩ | ⟨name, refused, -⟩
  · cases read.symm.trans found
    exact ⟨collected, once rfl⟩
  · cases read.symm.trans refused

theorem ofLines_of_once {lines : List (List Char)} (once : Once (inLines lines)) :
    ∃ fields, ofLines true lines = .ok fields ∧ Collected (inLines lines) fields := by
  rw [ofLines_eq_collect]
  rcases collect_cases true (inLines lines) with ⟨fields, found, collected, -⟩ | ⟨_, -, -, more⟩
  · exact ⟨fields, found, collected⟩
  · exact absurd once more

end DeflateTrial.Handshake.Fields
