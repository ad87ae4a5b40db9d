/-
Lists — header values that are lists, in one line or in several

A list is cut at its commas, and the white space around a part does not belong
to it.  So the white space around the whole value does not matter either
(`listOf_trimmed`), and two lists with a comma between them are the parts of
the one and then of the other (`listOf_append`).

The field for extensions may have several lines.  Reading them adds up their
parts in order and leaves all other fields alone (`ofLines_extensions`).
-/
import DeflateTrial.Proofs.Handshake.Shown

namespace DeflateTrial

namespace Text

theorem trim_concat_of_blank {c : Char} (h : isBlank c = true) (cs : List Char) :
    trim (cs ++ [c]) = trim cs := by
  have back (ds : List Char) : trimRight (ds ++ [c]) = trimRight ds := by
    rw [trimRight, List.reverse_append, List.reverse_singleton, List.singleton_append,
      List.dropWhile_cons_of_pos h, trimRight]
  induction cs with
  | nil => exact trim_cons_of_blank h []
  | cons d ds ih =>
      cases blank : isBlank d with
      | true => rw [List.cons_append, trim_cons_of_blank blank, trim_cons_of_blank blank, ih]
      | false =>
          have first (rest : List Char) : trimLeft (d :: rest) = d :: rest :=
            trimLeft_of_first fun c' head => by
              rw [List.head?_cons, Option.some.injEq] at head
              exact head ▸ blank
          rw [trim, trim, List.cons_append, first, first, ← List.cons_append, back]

/-! ## Parts between commas -/

/-- The parts of a text between its commas, each without the white space around it. -/
def parts (cs : List Char) : List (List Char) :=
  (cs.splitOn ',').map trim

theorem parts_append (before after : List Char) :
    parts (before ++ ',' :: after) = parts before ++ parts after := by
  have cut : (before ++ ',' :: after).splitOn ',' = before.splitOn ',' ++ after.splitOn ',' :=
    List.splitOnP_append_cons before after (beq_self_eq_true ',')
  rw [parts, cut, List.map_append, parts, parts]

theorem parts_of_not_mem {cs : List Char} (h : ',' ∉ cs) : parts cs = [trim cs] := by
  rw [parts, List.splitOn_eq_singleton h, List.map_singleton]

theorem comma_ne_of_blank {c : Char} (h : isBlank c = true) : ',' ≠ c := by
  rintro rfl
  cases h

theorem parts_cons_of_blank {c : Char} (h : isBlank c = true) (cs : List Char) :
    parts (c :: cs) = parts cs := by
  have ne := comma_ne_of_blank h
  by_cases comma : ',' ∈ cs
  · obtain ⟨first, rest, rfl, free⟩ := List.eq_append_cons_of_mem comma
    rw [← List.cons_append, parts_append, parts_append, parts_of_not_mem (by simp [ne, free]),
      trim_cons_of_blank h, parts_of_not_mem free]
  · rw [parts_of_not_mem (by simp [ne, comma]), trim_cons_of_blank h, parts_of_not_mem comma]

theorem parts_concat_of_blank {c : Char} (h : isBlank c = true) (cs : List Char) :
    parts (cs ++ [c]) = parts cs := by
  have ne := comma_ne_of_blank h
  -- only the last part has the white space behind it
  induction hn : cs.length using Nat.strongRecOn generalizing cs with
  | ind n ih =>
      by_cases comma : ',' ∈ cs
      · obtain ⟨first, rest, rfl, -⟩ := List.eq_append_cons_of_mem comma
        have shorter : rest.length < n := by
          rw [← hn, List.length_append, List.length_cons]
          omega
        rw [List.append_assoc, List.cons_append, parts_append, parts_append,
          ih _ shorter rest rfl]
      · rw [parts_of_not_mem (by simp [ne, comma]), trim_concat_of_blank h, parts_of_not_mem comma]

theorem parts_trim (cs : List Char) : parts (trim cs) = parts cs := by
  have left (ds : List Char) : parts (trimLeft ds) = parts ds := by
    induction ds with
    | nil => rfl
    | cons d ds ih =>
        rw [trimLeft, List.dropWhile_cons]
        split
        · next blank => rw [parts_cons_of_blank blank]; exact ih
        · rfl
  have right (ds : List Char) : parts (ds.dropWhile isBlank).reverse = parts ds.reverse := by
    induction ds with
    | nil => rfl
    | cons d ds ih =>
        rw [List.dropWhile_cons]
        split
        · next blank => rw [List.reverse_cons, parts_concat_of_blank blank, ih]
        · rfl
  rw [trim, trimRight, right, List.reverse_reverse, left]

end Text

namespace Handshake.Fields

/-! ## Values that are lists -/

theorem listOf_eq_parts (value : String) :
    listOf value = ((Text.parts value.toList).filter (!·.isEmpty)).map String.ofList := rfl

theorem listOf_trimmed (value : String) : listOf (Text.trimmed value) = listOf value := by
  rw [listOf_eq_parts, listOf_eq_parts, Text.trimmed, String.toList_ofList, Text.parts_trim]

theorem listOf_append (first second : String) :
    listOf (first ++ ", " ++ second) = listOf first ++ listOf second := by
  have split : (first ++ ", " ++ second).toList =
      first.toList ++ ',' :: ' ' :: second.toList := by
    simp only [String.toList_append, List.append_assoc]
    rfl
  have space : Text.isBlank ' ' = true := by decide
  simp only [listOf_eq_parts, split, Text.parts_append, Text.parts_cons_of_blank space,
    List.filter_append, List.map_append]

/-! ## Several lines for one list -/

section
variable (strict : Bool) (fields : Fields)

theorem get?_set_self (name value : String) : (fields.set name value).get? name = some value := by
  rw [get?, set, List.lookup_cons, beq_self_eq_true]

theorem get?_set_of_ne {name other : String} (value : String) (ne : other ≠ name) :
    (fields.set name value).get? other = fields.get? other := by
  have differ : (other == name) = false := beq_eq_false_iff_ne.mpr ne
  rw [get?, get?, set, List.lookup_cons, differ]
  simp only
  induction fields with
  | nil => rfl
  | cons field fields ih =>
      obtain ⟨name', value'⟩ := field
      by_cases same : name' = name
      · subst same
        rw [List.filter_cons_of_neg (by simp), ih, List.lookup_cons, differ]
      · rw [List.filter_cons_of_pos (by simpa using same), List.lookup_cons, List.lookup_cons, ih]

theorem add_extensions (value : String) :
    ∃ after, fields.add strict extensionsName value = .ok after ∧
      after.extensions = fields.extensions ++ listOf value ∧
      ∀ name, name ≠ extensionsName → after.get? name = fields.get? name := by
  rw [add, extensions]
  cases has : fields.get? extensionsName with
  | none =>
      refine ⟨_, rfl, ?_, fun name ne => get?_set_of_ne fields value ne⟩
      rw [extensions, get?_set_self]
      rfl
  | some existing =>
      refine ⟨_, if_pos rfl, ?_, fun name ne => get?_set_of_ne fields _ ne⟩
      rw [extensions, get?_set_self]
      exact listOf_append existing value

/-- The line of a field for extensions. -/
def entryLine (entry : String) : String :=
  shownLine ("Sec-WebSocket-Extensions", entry)

theorem foldlM_addLine_extensions (entries : List String) :
    ∃ after, (entries.map fun entry => (entryLine entry).toList).foldlM (addLine strict) fields =
        .ok after ∧
      after.extensions = fields.extensions ++ entries.flatMap listOf ∧
      ∀ name, name ≠ extensionsName → after.get? name = fields.get? name := by
  induction entries generalizing fields with
  | nil => exact ⟨fields, rfl, (List.append_nil _).symm, fun _ _ => rfl⟩
  | cons entry entries ih =>
      obtain ⟨first, added, listed, kept⟩ := add_extensions strict fields (Text.trimmed entry)
      obtain ⟨after, read, listed', kept'⟩ := ih first
      have named : nameOf "Sec-WebSocket-Extensions" = extensionsName := by decide
      have line : addLine strict fields (entryLine entry).toList = .ok first := by
        have free : ':' ∉ "Sec-WebSocket-Extensions".toList := by decide
        have read : ofLine? (entryLine entry).toList = _ := ofLine?_shownLine free
        rw [addLine, read, readAs, named]
        exact added
      refine ⟨after, ?_, ?_, fun name ne => (kept' name ne).trans (kept name ne)⟩
      · rw [List.map_cons, List.foldlM_cons, line]
        exact read
      · rw [listed', listed, listOf_trimmed, List.flatMap_cons, List.append_assoc]

end

theorem ofLines_extensions (strict : Bool) {names : List String} (apart : Apart names)
    {shown : Fields} (known : (shown.map Prod.fst).Sublist names) (entries : List String) :
    ∃ fields, ofLines strict
        ((shown.map shownLine ++ entries.map entryLine).map String.toList ++ [[]]) = .ok fields ∧
      fields.extensions =
        Fields.extensions (shown.map readAs).reverse ++ entries.flatMap listOf ∧
      ∀ name, name ≠ extensionsName →
        fields.get? name = Fields.get? (shown.map readAs).reverse name := by
  have filled : ∀ line ∈ (shown.map shownLine ++ entries.map entryLine).map String.toList,
      line ≠ [] := by
    intro line member
    obtain ⟨text, written, rfl⟩ := List.mem_map.mp member
    rcases List.mem_append.mp written with h | h
    · obtain ⟨field, -, rfl⟩ := List.mem_map.mp h
      exact shownLine_ne_nil field
    · obtain ⟨entry, -, rfl⟩ := List.mem_map.mp h
      exact shownLine_ne_nil _
  have others : (shown.map fun field => (shownLine field).toList).foldlM (addLine strict) [] =
      .ok (shown.map readAs).reverse := by
    rw [← ofLines_of_filled strict, ofLines_shown strict apart known]
    intro line member
    obtain ⟨field, -, rfl⟩ := List.mem_map.mp member
    exact shownLine_ne_nil field
  obtain ⟨fields, read, listed, kept⟩ :=
    foldlM_addLine_extensions strict (shown.map readAs).reverse entries
  refine ⟨fields, ?_, listed, kept⟩
  rw [ofLines_of_filled strict filled, List.map_append, List.map_map, List.map_map,
    List.foldlM_append]
  exact (congrArg (· >>= _) others).trans read

end Handshake.Fields

end DeflateTrial
