/-
Printing — an entry that was printed is read back

`Offer.Plain` says which entries survive their own text: no part holds a
character that the grammar cuts at, and none has white space or quotes at its
ends.  A header of one such entry without a comma is that entry alone
(`listOf_write`).
-/
import DeflateTrial.Extension.Offer
import DeflateTrial.Handshake.Fields
import DeflateTrial.Proofs.Text.Cuts

namespace DeflateTrial.Extension

open Text (Trimmed)

namespace Param

/-- A parameter that its text gives back. -/
structure Plain (param : Param) : Prop where
  name : Trimmed param.name.toList
  undivided : '=' ∉ param.name.toList
  named : param.value = none → param.name.toList ≠ []
  value : ∀ value, param.value = some value →
    Trimmed value.toList ∧ Text.strip '"' value.toList = value.toList

theorem toList_write (param : Param) :
    param.write.toList = match param.value with
      | some value => param.name.toList ++ '=' :: value.toList
      | none => param.name.toList := by
  unfold write
  cases param.value with
  | none => rfl
  | some value =>
      simp only [String.toList_append, List.append_assoc]
      rfl

theorem trimmed_write {param : Param} (plain : param.Plain) : Trimmed param.write.toList := by
  rw [toList_write]
  cases hv : param.value with
  | none => exact plain.name
  | some value => exact plain.name.around (plain.value value hv).1.last (by decide)

theorem write_ne_nil {param : Param} (plain : param.Plain) : param.write.toList ≠ [] := by
  rw [toList_write]
  cases hv : param.value with
  | none => exact plain.named hv
  | some value => simp

theorem ofChars_write {param : Param} (plain : param.Plain) :
    ofChars (' ' :: param.write.toList) = param := by
  have trimmed := Text.trim_of_trimmed (trimmed_write plain)
  rw [ofChars, Text.trim_cons_of_blank (by decide), trimmed, toList_write]
  have name := Text.trim_of_trimmed plain.name
  obtain ⟨pname, pvalue⟩ := param
  cases pvalue with
  | none =>
      simp only [Text.cutFirst_of_not_mem plain.undivided, String.ofList_toList]
  | some value =>
      obtain ⟨tv, sv⟩ := plain.value value rfl
      simp only [Text.cutFirst_append plain.undivided, name, Text.trim_of_trimmed tv, sv,
        String.ofList_toList]

end Param

namespace Offer

/-- An entry that its text gives back. -/
structure Plain (offer : Offer) : Prop where
  name : Trimmed offer.name.toList
  named : offer.name.toList ≠ []
  undivided : ';' ∉ offer.name.toList
  params : ∀ param ∈ offer.params, param.Plain ∧ ';' ∉ param.write.toList

/-- A name and its parameters, set apart as in a header. -/
def joined (name : List Char) : (params : List (List Char)) → List Char
  | [] => name
  | param :: params => name ++ ';' :: ' ' :: joined param params

theorem toList_write (offer : Offer) :
    offer.write.toList = joined offer.name.toList (offer.params.map (·.write.toList)) := by
  obtain ⟨name, params⟩ := offer
  rw [write]
  induction params generalizing name with
  | nil => simp [joined]
  | cons param params ih =>
      simp only [List.map_cons, String.intercalate_cons_cons, joined] at ih ⊢
      rw [← ih]
      simp

theorem splitOn_joined {name : List Char} {params : List (List Char)} (free : ';' ∉ name)
    (frees : ∀ param ∈ params, ';' ∉ param) :
    (joined name params).splitOn ';' = name :: params.map (' ' :: ·) := by
  induction params generalizing name with
  | nil => exact List.splitOn_eq_singleton free
  | cons param params ih =>
      have shifted : ' ' :: joined param params = joined (' ' :: param) params := by
        cases params <;> rfl
      have inner : ';' ∉ ' ' :: param := by
        rw [List.mem_cons, not_or]
        exact ⟨by decide, frees param List.mem_cons_self⟩
      rw [joined, List.splitOn_append_cons_self_of_not_mem free, shifted,
        ih inner fun p hp => frees p (List.mem_cons_of_mem _ hp), List.map_cons]

theorem trimmed_joined {name : List Char} {params : List (List Char)} (trimmed : Trimmed name)
    (each : ∀ param ∈ params, Trimmed param ∧ param ≠ []) : Trimmed (joined name params) := by
  induction params generalizing name with
  | nil => exact trimmed
  | cons param params ih =>
      obtain ⟨here, ne⟩ := each param List.mem_cons_self
      have rest := ih here fun p hp => each p (List.mem_cons_of_mem _ hp)
      have more : joined param params ≠ [] := by
        cases params with
        | nil => exact ne
        | cons _ _ => simp [joined]
      refine trimmed.around (fun c hc => rest.last c ?_) (by decide)
      rw [List.getLast?_cons_of_ne_nil more] at hc
      exact hc

theorem parse_write {offer : Offer} (plain : offer.Plain) : parse offer.write = .ok offer := by
  have frees : ∀ text ∈ offer.params.map (·.write.toList), ';' ∉ text := by
    intro text ht
    obtain ⟨param, hp, rfl⟩ := List.mem_map.mp ht
    exact (plain.params param hp).2
  have solid : offer.name.toList.isEmpty = false := by
    rw [List.isEmpty_eq_false_iff]
    exact plain.named
  -- no parameter's text is dropped, and each is read back
  have each : ∀ params : List Param, (∀ param ∈ params, param.Plain) →
      ((params.map fun param => ' ' :: param.write.toList).filter
        fun p => !(Text.trim p).isEmpty).map Param.ofChars = params := by
    intro params plains
    induction params with
    | nil => rfl
    | cons param params ih =>
        have here := plains param List.mem_cons_self
        have kept : (Text.trim (' ' :: param.write.toList)).isEmpty = false := by
          rw [Text.trim_cons_of_blank (by decide), Text.trim_of_trimmed (Param.trimmed_write here),
            List.isEmpty_eq_false_iff]
          exact Param.write_ne_nil here
        rw [List.map_cons, List.filter_cons_of_pos (by rw [kept]; rfl), List.map_cons,
          Param.ofChars_write here, ih fun p hp => plains p (List.mem_cons_of_mem _ hp)]
  rw [parse, toList_write, ofChars, splitOn_joined plain.undivided frees]
  simp only [Text.trim_of_trimmed plain.name, solid, Bool.false_eq_true, if_false, List.map_map,
    Function.comp_def, each offer.params fun p hp => (plain.params p hp).1, String.ofList_toList]

theorem trimmed_write {offer : Offer} (plain : offer.Plain) : Trimmed offer.write.toList := by
  rw [toList_write]
  refine trimmed_joined plain.name fun text ht => ?_
  obtain ⟨param, hp, rfl⟩ := List.mem_map.mp ht
  exact ⟨Param.trimmed_write (plain.params param hp).1,
    Param.write_ne_nil (plain.params param hp).1⟩

theorem mem_joined {c : Char} {name : List Char} {params : List (List Char)}
    (h : c ∈ joined name params) : c ∈ name ∨ c = ';' ∨ c = ' ' ∨ ∃ param ∈ params, c ∈ param := by
  induction params generalizing name with
  | nil => exact .inl h
  | cons param params ih =>
      rw [joined, List.mem_append, List.mem_cons, List.mem_cons] at h
      rcases h with h | h | h | h
      · exact .inl h
      · exact .inr (.inl h)
      · exact .inr (.inr (.inl h))
      · rcases ih h with h | h | h | ⟨p, hp, h⟩
        · exact .inr (.inr (.inr ⟨param, List.mem_cons_self, h⟩))
        · exact .inr (.inl h)
        · exact .inr (.inr (.inl h))
        · exact .inr (.inr (.inr ⟨p, List.mem_cons_of_mem _ hp, h⟩))

theorem not_mem_write {offer : Offer} {c : Char} (other : c ≠ ';' ∧ c ≠ ' ')
    (name : c ∉ offer.name.toList) (params : ∀ param ∈ offer.params, c ∉ param.write.toList) :
    c ∉ offer.write.toList := by
  rw [toList_write]
  intro h
  rcases mem_joined h with h | h | h | ⟨text, ht, h⟩
  · exact name h
  · exact other.1 h
  · exact other.2 h
  · obtain ⟨param, hp, rfl⟩ := List.mem_map.mp ht
    exact params param hp h

theorem listOf_write {offer : Offer} (plain : offer.Plain) (name : ',' ∉ offer.name.toList)
    (params : ∀ param ∈ offer.params, ',' ∉ param.write.toList) :
    Handshake.Fields.listOf offer.write = [offer.write] := by
  have whole : ',' ∉ offer.write.toList := not_mem_write (by decide) name params
  have solid : offer.write.toList.isEmpty = false := by
    rw [List.isEmpty_eq_false_iff, toList_write]
    cases offer.params with
    | nil => exact plain.named
    | cons _ _ => simp [joined]
  rw [Handshake.Fields.listOf, List.splitOn_eq_singleton whole, List.map_singleton,
    Text.trim_of_trimmed (trimmed_write plain), List.filter_cons_of_pos (by rw [solid]; rfl)]
  simp

end Offer

end DeflateTrial.Extension
