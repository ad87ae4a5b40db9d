/-
Shown fields — a head's lines are read as the fields that they were written for

A line is the name as it is usually written, a colon and the value.  It is read
as the name in small letters and the trimmed value (`ofLine?_shownLine`).
Fields with different names do not touch each other, so the lines of a head
give all of them back (`ofLines_shown`), whatever their values are, as long as
these hold no line end.
-/
import DeflateTrial.Handshake.Response
import DeflateTrial.Proofs.Handshake.Heads
import DeflateTrial.Proofs.Text.Cuts

namespace DeflateTrial

namespace Text

/-- A text without line ends. -/
def Unbroken (text : String) : Prop :=
  '\r' ∉ text.toList ∧ '\n' ∉ text.toList

instance (text : String) : Decidable (Unbroken text) :=
  inferInstanceAs (Decidable (_ ∧ _))

theorem unbroken_append {a b : String} : Unbroken (a ++ b) ↔ Unbroken a ∧ Unbroken b := by
  simp only [Unbroken, String.toList_append, List.mem_append, not_or]
  exact ⟨fun ⟨⟨ra, rb⟩, na, nb⟩ => ⟨⟨ra, na⟩, rb, nb⟩, fun ⟨⟨ra, na⟩, rb, nb⟩ => ⟨⟨ra, rb⟩, na, nb⟩⟩

/-- A text without the white space around it. -/
def trimmed (text : String) : String :=
  String.ofList (trim text.toList)

theorem trimmed_eq {text : String} (h : Trimmed text.toList) : trimmed text = text := by
  rw [trimmed, trim_of_trimmed h, String.ofList_toList]

theorem unbroken_of_not_blank {text : String} (h : ∀ c ∈ text.toList, isBlank c = false) :
    Unbroken text :=
  ⟨fun member => absurd (h _ member) (by decide), fun member => absurd (h _ member) (by decide)⟩

theorem words_cons {word : List Char} {sep : Char} (solid : word ≠ [])
    (free : ∀ c ∈ word, isBlank c = false) (blank : isBlank sep = true) (rest : List Char) :
    words (word ++ sep :: rest) = word :: words rest := by
  rw [words, List.splitOnP_append_cons_of_forall_mem free _ blank, List.filter_cons_of_pos, words]
  simp [solid]

theorem words_three {first second third : List Char} (each : ∀ word ∈ [first, second, third],
    word ≠ [] ∧ ∀ c ∈ word, isBlank c = false) :
    words (first ++ ' ' :: (second ++ ' ' :: third)) = [first, second, third] := by
  have space : isBlank ' ' = true := by decide
  simp only [List.mem_cons, List.not_mem_nil, or_false, forall_eq_or_imp, forall_eq] at each
  obtain ⟨⟨solid, free⟩, ⟨solid', free'⟩, solid'', free''⟩ := each
  rw [words_cons solid free space, words_cons solid' free' space, words,
    List.splitOnP_eq_singleton free'']
  simp [solid'']

end Text

namespace Handshake

open Text (Unbroken)

theorem checkValue_ok {header value : String} (h : Unbroken value) :
    checkValue header value = .ok () := by
  rw [checkValue, if_neg]
  rw [List.any_eq_true]
  rintro ⟨c, member, broken⟩
  simp only [Bool.or_eq_true, decide_eq_true_eq] at broken
  rcases broken with rfl | rfl
  · exact h.1 member
  · exact h.2 member

theorem checkValue_broken {header value : String} (h : ¬ Unbroken value) :
    checkValue header value =
      .error (.invalidHeaderValue header "contains CR or LF characters") := by
  rw [checkValue, if_pos]
  rw [List.any_eq_true]
  rw [Unbroken, ← not_or, Decidable.not_not] at h
  rcases h with member | member
  · exact ⟨_, member, rfl⟩
  · exact ⟨_, member, rfl⟩

theorem checkedLine_ok {header value : String} (h : Unbroken value) :
    checkedLine header value = .ok (header ++ ": " ++ value) := by
  rw [checkedLine, checkValue_ok h]
  rfl

theorem checkedLine_broken {header value : String} (h : ¬ Unbroken value) :
    checkedLine header value =
      .error (.invalidHeaderValue header "contains CR or LF characters") := by
  rw [checkedLine, checkValue_broken h]
  rfl

/-! ## Fields -/

namespace Fields

/-- The line of a field, with the name as it is usually written. -/
def shownLine (field : String × String) : String :=
  field.1 ++ ": " ++ field.2

/-- What a name is read as. -/
def nameOf (shown : String) : String :=
  String.ofList (Text.lower (Text.trim shown.toList))

/-- What the line of a field is read as. -/
def readAs (field : String × String) : String × String :=
  (nameOf field.1, Text.trimmed field.2)

theorem ofLine?_shownLine {field : String × String} (free : ':' ∉ field.1.toList) :
    ofLine? (shownLine field).toList = some (readAs field) := by
  have split : (shownLine field).toList = field.1.toList ++ ':' :: ' ' :: field.2.toList := by
    simp only [shownLine, String.toList_append, List.append_assoc]
    rfl
  have trim := Text.trim_cons_of_blank (show Text.isBlank ' ' = true by decide) field.2.toList
  rw [split, ofLine?, Text.cutFirst_append free, readAs, nameOf, Text.trimmed, ← trim]
  rfl

theorem get?_eq_none_iff {fields : Fields} {name : String} :
    fields.get? name = none ↔ ∀ field ∈ fields, field.1 ≠ name := by
  rw [get?, List.lookup_eq_none_iff]
  simp only [bne_iff_ne]
  exact ⟨fun h field member => (h field member).symm, fun h field member => (h field member).symm⟩

theorem add_new {strict : Bool} {fields : Fields} {name : String} (value : String)
    (fresh : ∀ field ∈ fields, field.1 ≠ name) :
    fields.add strict name value = .ok ((name, value) :: fields) := by
  have kept : fields.filter (·.1 ≠ name) = fields :=
    List.filter_eq_self.mpr fun field member => decide_eq_true (fresh field member)
  rw [add, get?_eq_none_iff.mpr fresh, set, kept]

theorem foldlM_addLine (strict : Bool) {lines : List (List Char)} {fields before : Fields}
    (read : lines.map ofLine? = fields.map some)
    (distinct : ((before.map Prod.fst).reverse ++ fields.map Prod.fst).Nodup) :
    lines.foldlM (addLine strict) before = .ok (fields.reverse ++ before) := by
  induction fields generalizing lines before with
  | nil =>
      rw [List.map_nil, List.map_eq_nil_iff] at read
      rw [read]
      rfl
  | cons field fields ih =>
      obtain ⟨line, lines, rfl⟩ : ∃ line rest, lines = line :: rest := by
        cases lines with
        | nil => cases read
        | cons line rest => exact ⟨line, rest, rfl⟩
      obtain ⟨name, value⟩ := field
      rw [List.map_cons, List.map_cons, List.cons.injEq] at read
      have fresh : ∀ other ∈ before, other.1 ≠ name := by
        intro other member same
        refine (List.nodup_append.mp distinct).2.2 name ?_ name List.mem_cons_self rfl
        exact List.mem_reverse.mpr (List.mem_map.mpr ⟨other, member, same⟩)
      have added : addLine strict before line = .ok ((name, value) :: before) := by
        rw [addLine, read.1]
        exact add_new value fresh
      rw [List.foldlM_cons, added]
      refine (ih read.2 ?_).trans ?_
      · rw [List.map_cons, List.reverse_cons, List.append_assoc]
        exact distinct
      · rw [List.reverse_cons, List.append_assoc]
        rfl

/-- Names under which fields can stand beside each other. -/
structure Apart (names : List String) : Prop where
  undivided : ∀ name ∈ names, ':' ∉ name.toList ∧ Unbroken name
  distinct : (names.map nameOf).Nodup

theorem ofLines_of_filled (strict : Bool) {lines : List (List Char)}
    (filled : ∀ line ∈ lines, line ≠ []) :
    ofLines strict (lines ++ [[]]) = lines.foldlM (addLine strict) [] := by
  have front : (lines ++ [[]]).takeWhile (!·.isEmpty) = lines := by
    rw [List.takeWhile_append_of_pos]
    · simp
    · intro line member
      rw [List.isEmpty_eq_false_iff.mpr (filled line member)]
      rfl
  rw [ofLines, front]

theorem shownLine_ne_nil (field : String × String) : (shownLine field).toList ≠ [] := by
  simp [shownLine]

theorem ofLines_shown (strict : Bool) {names : List String} (apart : Apart names) {shown : Fields}
    (known : (shown.map Prod.fst).Sublist names) :
    ofLines strict ((shown.map fun field => (shownLine field).toList) ++ [[]]) =
      .ok (shown.map readAs).reverse := by
  have free (field : String × String) (member : field ∈ shown) : ':' ∉ field.1.toList :=
    (apart.undivided _ (known.subset (List.mem_map_of_mem member))).1
  have distinct : ((shown.map readAs).map Prod.fst).Nodup := by
    have each : (shown.map readAs).map Prod.fst = (shown.map Prod.fst).map nameOf := by
      simp only [List.map_map, Function.comp_def, readAs]
    rw [each]
    exact apart.distinct.sublist (known.map nameOf)
  have filled : ∀ line ∈ shown.map fun field => (shownLine field).toList, line ≠ [] := by
    intro line member
    obtain ⟨field, -, rfl⟩ := List.mem_map.mp member
    exact shownLine_ne_nil field
  have read : (shown.map fun field => (shownLine field).toList).map ofLine? =
      (shown.map readAs).map some := by
    rw [List.map_map, List.map_map]
    exact List.map_congr_left fun field member => ofLine?_shownLine (free field member)
  rw [ofLines_of_filled strict filled, foldlM_addLine strict read (by simpa using distinct),
    List.append_nil]

theorem solid_shownLine {names : List String} (apart : Apart names) {field : String × String}
    (known : field.1 ∈ names) (value : Unbroken field.2) : Solid (shownLine field) where
  filled := fun empty => by
    have toList := congrArg String.toList empty
    simp [shownLine] at toList
  whole := Text.unbroken_append.mpr
    ⟨Text.unbroken_append.mpr ⟨(apart.undivided _ known).2, by decide⟩, value⟩

end Fields

end Handshake

end DeflateTrial
