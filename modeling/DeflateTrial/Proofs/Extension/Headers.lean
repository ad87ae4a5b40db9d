/-
Headers — a list of entries, read as a whole or one by one

A header value is cut at its commas.  Read as a whole it needs every part to be an
entry, and so none of them to be blank (`Offer.parseHeader_eq_ok_iff`).  Those who
read the parts one by one pass over the blank ones; where the whole is read, there
are none, and the same entries are found in the same order (`Offer.map_parse_listOf`).
-/
import DeflateTrial.Extension.Offer
import DeflateTrial.Proofs.Handshake.Lists

namespace DeflateTrial

theorem mapM_eq_ok_iff {ε α β : Type} {f : α → Except ε β} {xs : List α} {ys : List β} :
    xs.mapM f = .ok ys ↔ xs.map f = ys.map .ok := by
  induction xs generalizing ys with
  | nil => cases ys <;> simp [pure, Except.pure]
  | cons x xs ih =>
      rw [List.mapM_cons]
      cases first : f x with
      | error problem => cases ys <;> simp [bind, Except.bind, first]
      | ok y =>
          cases rest : xs.mapM f with
          | error problem => cases ys <;> simp [bind, Except.bind, first, ← ih, rest]
          | ok ys' => cases ys <;> simp [bind, Except.bind, pure, Except.pure, first, ← ih, rest]

namespace Text

variable {gap : String} {texts : List String}

theorem isBlank_of_mem_space : ∀ c ∈ " ".toList, isBlank c = true := by
  simp [isBlank]

theorem parts_append_of_blank {blanks : List Char} (blank : ∀ c ∈ blanks, isBlank c = true)
    (cs : List Char) : parts (blanks ++ cs) = parts cs := by
  induction blanks with
  | nil => rfl
  | cons c blanks ih =>
      rw [List.forall_mem_cons] at blank
      rw [List.cons_append, parts_cons_of_blank blank.1, ih blank.2]

theorem parts_intercalate (blank : ∀ c ∈ gap.toList, isBlank c = true) (some_ : texts ≠ []) :
    parts (String.intercalate ("," ++ gap) texts).toList =
      texts.flatMap fun text => parts text.toList := by
  induction texts with
  | nil => exact absurd rfl some_
  | cons text texts ih =>
      cases texts with
      | nil => simp
      | cons next rest =>
          have split : (String.intercalate ("," ++ gap) (text :: next :: rest)).toList =
              text.toList ++ ',' :: (gap.toList ++
                (String.intercalate ("," ++ gap) (next :: rest)).toList) := by
            rw [String.intercalate_cons_cons]
            simp only [String.toList_append, List.append_assoc]
            rfl
          rw [split, parts_append, parts_append_of_blank blank, ih (List.cons_ne_nil _ _)]
          rfl

end Text

namespace Extension.Offer

variable {text : String} {offer : Offer} {offers : List Offer}

theorem parseHeader_eq_ok_iff :
    parseHeader text = .ok offers ↔ (Text.parts text.toList).map ofChars = offers.map .ok := by
  rw [← mapM_eq_ok_iff, Text.parts, List.mapM_map]
  rfl

theorem ofChars_nil : ofChars [] = .error .emptyName := rfl

theorem map_parse_listOf (whole : parseHeader text = .ok offers) :
    (Handshake.Fields.listOf text).map parse = offers.map .ok := by
  rw [parseHeader_eq_ok_iff] at whole
  have filled : ∀ part ∈ Text.parts text.toList, (!part.isEmpty) = true := by
    intro part member
    have read : ofChars part ∈ offers.map Except.ok := whole ▸ List.mem_map_of_mem member
    cases part with
    | nil => simp [ofChars_nil] at read
    | cons c cs => rfl
  rw [Handshake.Fields.listOf_eq_parts, List.filter_eq_self.mpr filled, List.map_map, ← whole]
  refine List.map_congr_left fun part _ => ?_
  rw [Function.comp_apply, parse, String.toList_ofList]

theorem filterMap_parse {entries : List String} (read : entries.map parse = offers.map .ok) :
    (entries.filterMap fun entry => (parse entry).toOption) = offers := by
  have through : (entries.filterMap fun entry => (parse entry).toOption) =
      (entries.map parse).filterMap Except.toOption := by
    rw [List.filterMap_map]
    rfl
  rw [through, read, List.filterMap_map]
  exact List.filterMap_some

end Extension.Offer

end DeflateTrial
