/-
Legibility — the entries that their text gives back

    name; flag; parameter=value

An entry is cut at semicolons and a parameter at its first equals sign; white space
around each part is dropped, and so are quotes around a value.  An entry is legible
if none of its parts has anything in it that would be cut or dropped there.

Legible entries are read back from their text (`Offer.Plain`).  No other entry is,
since what is read has no such part but perhaps a value with white space or quotes at
its ends (`legible_of_ofChars`), and that value gets shorter when it is read again
(`Param.clean_of_ofChars_write`).
-/
import DeflateTrial.Proofs.Extension.Headers
import DeflateTrial.Proofs.Extension.Printing
import DeflateTrial.Proofs.Text.Ends

namespace DeflateTrial.Extension

open Text (Trimmed)

namespace Param

variable {param : Param} {piece : List Char} {value : String}

/-- A parameter of which nothing is cut or dropped. -/
structure Legible (param : Param) : Prop where
  name : Trimmed param.name.toList
  undivided : ';' ∉ param.name.toList ∧ '=' ∉ param.name.toList
  named : param.value = none → param.name ≠ ""
  value : ∀ value, param.value = some value → Trimmed value.toList ∧ ';' ∉ value.toList ∧
    value.toList.head? ≠ some '"' ∧ value.toList.getLast? ≠ some '"'

/-- Nothing is dropped at the ends of a parameter's value. -/
def Clean (param : Param) : Prop :=
  ∀ value, param.value = some value →
    Trimmed value.toList ∧ Text.strip '"' value.toList = value.toList

theorem name_subset_write (param : Param) : param.name.toList ⊆ param.write.toList := by
  rw [toList_write]
  cases param.value with
  | none => exact List.Subset.refl _
  | some value => exact List.subset_append_left _ _

theorem value_subset_write (valued : param.value = some value) :
    value.toList ⊆ param.write.toList := by
  rw [toList_write, valued]
  exact fun c member => List.mem_append_right _ (List.mem_cons_of_mem _ member)

theorem Legible.plain (legible : param.Legible) : param.Plain where
  name := legible.name
  undivided := legible.undivided.2
  named bare := by simpa using legible.named bare
  value value valued :=
    have whole := legible.value value valued
    ⟨whole.1, Text.strip_eq_self_iff.mpr whole.2.2⟩

theorem Legible.undivided_write (legible : param.Legible) : ';' ∉ param.write.toList := by
  rw [toList_write]
  cases valued : param.value with
  | none => exact legible.undivided.1
  | some value =>
      have whole := legible.value value valued
      simp [legible.undivided.1, whole.2.1]

/-! ## What is read -/

theorem ofChars_cases (piece : List Char) :
    (∃ name value, '=' ∉ name ∧ Text.trim piece = name ++ '=' :: value ∧
      ofChars piece = ⟨String.ofList (Text.trim name),
        some (String.ofList (Text.strip '"' (Text.trim value)))⟩) ∨
    ('=' ∉ Text.trim piece ∧ ofChars piece = ⟨String.ofList (Text.trim piece), none⟩) := by
  by_cases divided : '=' ∈ Text.trim piece
  · obtain ⟨name, value, split, free⟩ := List.eq_append_cons_of_mem divided
    exact .inl ⟨name, value, free, split, by rw [ofChars, split, Text.cutFirst_append free]⟩
  · exact .inr ⟨divided, by rw [ofChars, Text.cutFirst_of_not_mem divided]⟩

theorem write_ofChars_subset (piece : List Char) : (ofChars piece).write.toList ⊆ piece := by
  have within := (Text.trim_isInfix piece).subset
  rcases ofChars_cases piece with ⟨name, value, -, split, read⟩ | ⟨-, read⟩
  · rw [split] at within
    rw [toList_write, read]
    simp only [String.toList_ofList]
    refine List.Subset.trans ?_ within
    refine List.append_subset.mpr ⟨?_, List.cons_subset.mpr ⟨by simp, ?_⟩⟩
    · exact List.Subset.trans (Text.trim_isInfix name).subset (List.subset_append_left _ _)
    · intro c member
      have inside := ((Text.strip_isInfix '"' _).trans (Text.trim_isInfix value)).subset member
      exact List.mem_append_right _ (List.mem_cons_of_mem _ inside)
  · rw [toList_write, read]
    simpa only [String.toList_ofList] using within

theorem undivided_ofChars (piece : List Char) : '=' ∉ (ofChars piece).name.toList := by
  rcases ofChars_cases piece with ⟨name, value, free, -, read⟩ | ⟨free, read⟩
  · rw [read, String.toList_ofList]
    exact fun member => free ((Text.trim_isInfix name).subset member)
  · rwa [read, String.toList_ofList]

theorem trimmed_ofChars (piece : List Char) : Trimmed (ofChars piece).name.toList := by
  rcases ofChars_cases piece with ⟨name, value, -, -, read⟩ | ⟨-, read⟩
  · rw [read, String.toList_ofList]
    exact Text.trimmed_trim name
  · rw [read, String.toList_ofList]
    exact Text.trimmed_trim piece

theorem legible_ofChars (free : ';' ∉ piece) (filled : Text.trim piece ≠ [])
    (clean : (ofChars piece).Clean) : (ofChars piece).Legible := by
  have undivided : ';' ∉ (ofChars piece).write.toList :=
    fun member => free (write_ofChars_subset piece member)
  refine {
    name := trimmed_ofChars piece
    undivided := ⟨fun member => undivided (name_subset_write _ member), undivided_ofChars piece⟩
    named := fun bare => ?_
    value := fun value valued => ?_ }
  · rcases ofChars_cases piece with ⟨name, value, -, -, read⟩ | ⟨-, read⟩
    · rw [read] at bare
      cases bare
    · rw [read]
      exact fun empty => filled (String.ofList_eq_empty_iff.mp empty)
  · obtain ⟨trimmed, same⟩ := clean value valued
    exact ⟨trimmed, fun member => undivided (value_subset_write valued member),
      Text.strip_eq_self_iff.mp same⟩

theorem clean_ofChars_of_unquoted (unquoted : '"' ∉ piece) : (ofChars piece).Clean := by
  rcases ofChars_cases piece with ⟨name, value, -, split, read⟩ | ⟨-, read⟩
  · rw [read]
    rintro _ ⟨⟩
    have free : '"' ∉ Text.trim value := by
      intro member
      refine unquoted ((Text.trim_isInfix piece).subset ?_)
      rw [split]
      exact List.mem_append_right _
        (List.mem_cons_of_mem _ ((Text.trim_isInfix value).subset member))
    rw [Text.strip_of_not_mem free, String.toList_ofList]
    exact ⟨Text.trimmed_trim value, Text.strip_of_not_mem free⟩
  · rw [read]
    exact nofun

theorem clean_of_ofChars_write (undivided : '=' ∉ param.name.toList)
    (back : ofChars (' ' :: param.write.toList) = param) : param.Clean := by
  obtain ⟨name, valued⟩ := param
  rintro value rfl
  have free : '=' ∉ Text.trimLeft (' ' :: name.toList) := by
    intro member
    rcases List.mem_cons.mp ((List.dropWhile_suffix _).subset member) with space | member
    · exact absurd space (by decide)
    · exact undivided member
  have read : ofChars (' ' :: (name.toList ++ '=' :: value.toList)) =
      ⟨String.ofList (Text.trim (Text.trimLeft (' ' :: name.toList))),
        some (String.ofList (Text.strip '"' (Text.trim (Text.trimRight value.toList))))⟩ := by
    rw [ofChars, ← List.cons_append, Text.trim_append_cons (by decide), Text.cutFirst_append free]
  rw [toList_write] at back
  have same := congrArg Param.value (read.symm.trans back)
  simp only [Option.some.injEq] at same
  rw [← String.toList_inj, String.toList_ofList] at same
  -- what is left of the value is a part of a part of it, and all of it
  have inner : Text.trim (Text.trimRight value.toList) = value.toList := by
    refine List.infix_antisymm ?_ ?_
    · exact (Text.trim_isInfix _).trans (List.rdropWhile_prefix Text.isBlank value.toList).isInfix
    · conv_lhs => rw [← same]
      exact Text.strip_isInfix '"' _
  rw [inner] at same
  exact ⟨inner ▸ Text.trimmed_trim _, same⟩

end Param

namespace Offer

variable {offer : Offer} {cs : List Char}

/-- An entry of which nothing is cut or dropped. -/
structure Legible (offer : Offer) : Prop where
  name : Trimmed offer.name.toList
  named : offer.name ≠ ""
  undivided : ';' ∉ offer.name.toList
  params : ∀ param ∈ offer.params, param.Legible

theorem Legible.plain (legible : offer.Legible) : offer.Plain where
  name := legible.name
  named := by simpa using legible.named
  undivided := legible.undivided
  params param member :=
    have here := legible.params param member
    ⟨here.plain, here.undivided_write⟩

/-! ## What is read -/

theorem exists_of_ofChars (read : ofChars cs = .ok offer) :
    ∃ first pieces, cs.splitOn ';' = first :: pieces ∧ Text.trim first ≠ [] ∧
      offer = ⟨String.ofList (Text.trim first),
        (pieces.filter fun p => !(Text.trim p).isEmpty).map Param.ofChars⟩ := by
  unfold ofChars at read
  cases split : cs.splitOn ';' with
  | nil => exact absurd split (List.splitOn_ne_nil _ _)
  | cons first pieces =>
      rw [split] at read
      simp only at read
      split at read
      · cases read
      · rename_i filled
        cases read
        exact ⟨first, pieces, rfl, by simpa using filled, rfl⟩

theorem exists_piece_of_ofChars (read : ofChars cs = .ok offer) :
    ∀ param ∈ offer.params, ∃ piece, ';' ∉ piece ∧ piece ⊆ cs ∧ Text.trim piece ≠ [] ∧
      param = Param.ofChars piece := by
  obtain ⟨first, pieces, split, -, rfl⟩ := exists_of_ofChars read
  intro param member
  obtain ⟨piece, kept, rfl⟩ := List.mem_map.mp member
  obtain ⟨among, filled⟩ := List.mem_filter.mp kept
  obtain ⟨free, within⟩ := Text.of_mem_splitOn (split ▸ List.mem_cons_of_mem first among)
  exact ⟨piece, free, within, by simpa using filled, rfl⟩

theorem undivided_name_of_ofChars (read : ofChars cs = .ok offer) : ';' ∉ offer.name.toList := by
  obtain ⟨first, pieces, split, -, rfl⟩ := exists_of_ofChars read
  obtain ⟨free, -⟩ := Text.of_mem_splitOn (split ▸ List.mem_cons_self)
  rw [String.toList_ofList]
  exact fun member => free ((Text.trim_isInfix first).subset member)

theorem legible_of_ofChars (read : ofChars cs = .ok offer)
    (clean : ∀ param ∈ offer.params, param.Clean) : offer.Legible := by
  have params : ∀ param ∈ offer.params, param.Legible := by
    intro param member
    obtain ⟨piece, free, -, filled, rfl⟩ := exists_piece_of_ofChars read param member
    exact Param.legible_ofChars free filled (clean _ member)
  have undivided := undivided_name_of_ofChars read
  obtain ⟨first, pieces, -, filled, rfl⟩ := exists_of_ofChars read
  refine ⟨?_, fun empty => filled ?_, undivided, params⟩
  · rw [String.toList_ofList]
    exact Text.trimmed_trim first
  · exact String.ofList_eq_empty_iff.mp empty

/-- What is read from a text without quotes is legible. -/
theorem legible_of_unquoted (read : ofChars cs = .ok offer) (unquoted : '"' ∉ cs) :
    offer.Legible := by
  refine legible_of_ofChars read fun param member => ?_
  obtain ⟨piece, -, within, -, rfl⟩ := exists_piece_of_ofChars read param member
  exact Param.clean_ofChars_of_unquoted fun quote => unquoted (within quote)

/-! ## What is read back -/

theorem ofChars_write_of_parse_write (back : parse offer.write = .ok offer) :
    ∀ param ∈ offer.params, Param.ofChars (' ' :: param.write.toList) = param := by
  have undivided : ∀ text ∈ offer.params.map (·.write.toList), ';' ∉ text := by
    intro text member
    obtain ⟨param, among, rfl⟩ := List.mem_map.mp member
    obtain ⟨piece, free, -, -, rfl⟩ := exists_piece_of_ofChars back param among
    exact fun semicolon => free (Param.write_ofChars_subset piece semicolon)
  obtain ⟨first, pieces, split, -, same⟩ := exists_of_ofChars back
  rw [toList_write, splitOn_joined (undivided_name_of_ofChars back) undivided] at split
  obtain ⟨-, rfl⟩ := List.cons.inj split
  have params := congrArg Offer.params same
  simp only at params
  -- as many parameters are read as were written, so none is passed over
  have all := congrArg List.length params
  rw [List.length_map] at all
  have kept := List.filter_eq_self.mpr (List.length_filter_eq_length_iff.mp
    (all.symm.trans (by rw [List.length_map, List.length_map])))
  rw [kept, List.map_map, List.map_map] at params
  have each := params.symm.trans (List.map_id offer.params).symm
  exact fun param member => List.map_inj_left.mp each param member

theorem legible_of_parse_write (back : parse offer.write = .ok offer) : offer.Legible := by
  refine legible_of_ofChars back fun param member => ?_
  obtain ⟨piece, -, -, -, rfl⟩ := exists_piece_of_ofChars back param member
  have again := ofChars_write_of_parse_write back _ member
  exact Param.clean_of_ofChars_write (Param.undivided_ofChars piece) again

theorem parseHeader_intercalate {offers : List Offer} (some_ : offers ≠ [])
    (each : ∀ offer ∈ offers, offer.Legible ∧ ',' ∉ offer.write.toList) :
    parseHeader (String.intercalate ", " (offers.map write)) = .ok offers := by
  have header : String.intercalate ", " (offers.map write) =
      String.intercalate ("," ++ " ") (offers.map write) := rfl
  have parts : ∀ offer ∈ offers, Text.parts offer.write.toList = [offer.write.toList] := by
    intro offer member
    obtain ⟨legible, free⟩ := each offer member
    rw [Text.parts_of_not_mem free, Text.trim_of_trimmed (trimmed_write legible.plain)]
  have filled : offers.map write ≠ [] := by simpa using some_
  rw [parseHeader_eq_ok_iff, header, Text.parts_intercalate Text.isBlank_of_mem_space filled,
    List.flatMap_map, List.flatMap_congr parts, ← List.map_eq_flatMap, List.map_map]
  exact List.map_congr_left fun offer member => parse_write (each offer member).1.plain

/-- An entry is read back from its text just if it is legible.  Legible entries without
commas are read back from the header that they make together, in their order.  What is
read from any text without quotes is legible, so it is the same when it has been printed
and read again. -/
theorem parse_write_iff_legible :
    (∀ offer : Offer, parse offer.write = .ok offer ↔ offer.Legible) ∧
    (∀ offers : List Offer, offers ≠ [] →
      (∀ offer ∈ offers, offer.Legible ∧ ',' ∉ offer.write.toList) →
      parseHeader (String.intercalate ", " (offers.map write)) = .ok offers) ∧
    ∀ text offer, '"' ∉ text.toList → parse text = .ok offer →
      offer.Legible ∧ parse offer.write = .ok offer := by
  refine ⟨fun offer => ⟨legible_of_parse_write, fun legible => parse_write legible.plain⟩,
    fun offers => parseHeader_intercalate, ?_⟩
  intro text offer unquoted read
  have legible := legible_of_unquoted read unquoted
  exact ⟨legible, parse_write legible.plain⟩

/-- A parameter without a name, values that are empty or have an equals sign and a quote
in them, and an entry that is printed otherwise than it was written. -/
theorem parse_write_iff_legible_odd :
    let offers : List Offer :=
      [⟨"x y", [.flag "a", .valued "" "1=\"2"]⟩, ⟨"permessage-deflate", [.valued "b" ""]⟩]
    let text := " x;; a = 1 ;b"
    let read : Offer := ⟨"x", [.valued "a" "1", .flag "b"]⟩
    (∀ offer ∈ offers, offer.Legible ∧ ',' ∉ offer.write.toList) ∧
      parseHeader "x y; a; =1=\"2, permessage-deflate; b=" = .ok offers ∧
      '"' ∉ text.toList ∧ parse text = .ok read ∧ read.Legible ∧ read.write = "x; a=1; b" ∧
      parse "x; a=1; b" = .ok read := by
  intro offers text read
  obtain ⟨legible_iff, header, again⟩ := parse_write_iff_legible
  have each : ∀ offer ∈ offers, offer.Legible ∧ ',' ∉ offer.write.toList := by
    intro offer member
    refine ⟨(legible_iff offer).mp ?_, ?_⟩
    · revert offer
      decide +kernel
    · revert offer
      decide +kernel
  have unquoted : '"' ∉ text.toList := by decide
  have parsed : parse text = .ok read := by decide +kernel
  obtain ⟨legible, back⟩ := again text read unquoted parsed
  exact ⟨each, header offers (by decide) each, unquoted, parsed, legible, rfl, back⟩

end Offer

end DeflateTrial.Extension
