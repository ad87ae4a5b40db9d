/-
Parameters — what an entry says, whatever the order of its parameters

Both ends read an entry one parameter after the other and gather what each of
them says.  Where no name stands twice, a new parameter finds nothing gathered
under its name, so what is gathered from a whole entry is a matter of the names
alone: which of them stand in it, and which window exponents they state
(`stated`).

    a step takes one more parameter into account      `Gathers`
    a run takes all of them into account              `Gathers.foldlM_eq_ok_iff`

The server's reading of an offer and the client's reading of an answer are two
such gatherings (`Selection`, `Acceptance`).
-/
import DeflateTrial.Proofs.Extension.Negotiation
import Mathlib.Data.List.Induction
import Mathlib.Data.List.Nodup

namespace DeflateTrial.Extension

variable {param : Param} {params params' : List Param} {name : String} {bits : Nat}
  {offer : Offer}

/-! ## Window exponents -/

/-- A value spells a window exponent that may be agreed on. -/
def Spells (value : String) (bits : Nat) : Prop :=
  Text.Decimal.readBelow? 256 value.toList = some bits ∧ Allowed bits

theorem allowed_min {bits' : Nat} (h : Allowed bits) (h' : Allowed bits') :
    Allowed (min bits bits') :=
  ⟨Nat.le_min.mpr ⟨h.1, h'.1⟩, Nat.le_trans (Nat.min_le_left _ _) h.2⟩

theorem allowed_getD {asked : Option Nat} (h : ∀ bits, asked = some bits → Allowed bits) :
    Allowed (asked.getD maxWindowBits) := by
  cases asked with
  | none => decide
  | some bits => exact h bits rfl

/-- The parameters whose values are window exponents. -/
def windowNames : List String :=
  [serverWindowName, clientWindowName]

theorem windowIn_eq_ok_iff {value : String} :
    windowIn param value = .ok bits ↔ Spells value bits := by
  unfold windowIn Spells
  cases Text.Decimal.readBelow? 256 value.toList with
  | none => exact ⟨nofun, nofun⟩
  | some found =>
      constructor
      · intro h
        have allowed := allowed_of_checkWindow h
        dsimp only at h
        unfold checkWindow at h
        split at h
        · cases h
          exact ⟨rfl, allowed⟩
        · cases h
      · rintro ⟨⟨⟩, allowed⟩
        exact checkWindow_of_allowed _ allowed

/-- The window exponent that a parameter states, if its value spells one. -/
def Param.window? (param : Param) : Option Nat :=
  (requiredWindow param).toOption

theorem requiredWindow_eq_ok_iff :
    requiredWindow param = .ok bits ↔ param.window? = some bits := by
  unfold Param.window?
  cases requiredWindow param <;> simp [Except.toOption]

theorem Param.window?_eq_some_iff :
    param.window? = some bits ↔ ∃ value, param.value = some value ∧ Spells value bits := by
  rw [← requiredWindow_eq_ok_iff, requiredWindow]
  cases param.value with
  | none => simp
  | some value => simp [windowIn_eq_ok_iff]

theorem Param.allowed_of_window? (h : param.window? = some bits) : Allowed bits := by
  obtain ⟨value, -, -, allowed⟩ := Param.window?_eq_some_iff.mp h
  exact allowed

theorem Param.window?_of_bare (bare : param.value = none) : param.window? = none := by
  rw [window?, requiredWindow, bare]
  rfl

/-! ## What is stated under a name -/

/-- The window exponent that parameters state under a name. -/
def stated (name : String) (params : List Param) : Option Nat :=
  params.findSome? fun param => if param.name = name then param.window? else none

theorem stated_concat (name : String) (params : List Param) (param : Param) :
    stated name (params ++ [param]) =
      (stated name params).or (if param.name = name then param.window? else none) := by
  rw [stated, List.findSome?_append]
  congr 1
  rw [List.findSome?_singleton]

theorem stated_of_not_mem (absent : name ∉ params.map (·.name)) : stated name params = none := by
  rw [stated, List.findSome?_eq_none_iff]
  intro param member
  rw [if_neg]
  rintro rfl
  exact absent (List.mem_map_of_mem member)

theorem exists_of_stated (h : stated name params = some bits) :
    ∃ param ∈ params, param.name = name ∧ param.window? = some bits := by
  obtain ⟨param, member, here⟩ := List.exists_of_findSome?_eq_some h
  split at here
  · rename_i is
    exact ⟨param, member, is, here⟩
  · cases here

theorem allowed_of_stated (bits : Nat) (h : stated name params = some bits) : Allowed bits := by
  obtain ⟨param, -, -, states⟩ := exists_of_stated h
  exact Param.allowed_of_window? states

theorem eq_of_name_eq (unrepeated : (params.map (·.name)).Nodup) {other : Param}
    (member : param ∈ params) (member' : other ∈ params) (same : param.name = other.name) :
    param = other :=
  List.inj_on_of_nodup_map unrepeated member member' same

theorem stated_of_mem (unrepeated : (params.map (·.name)).Nodup) (member : param ∈ params) :
    stated param.name params = param.window? := by
  cases h : stated param.name params with
  | none =>
      rw [stated, List.findSome?_eq_none_iff] at h
      have nothing := h param member
      rw [if_pos rfl] at nothing
      exact nothing.symm
  | some bits =>
      obtain ⟨other, member', same, states⟩ := exists_of_stated h
      rw [eq_of_name_eq unrepeated member member' same.symm, states]

theorem stated_perm (unrepeated : (params.map (·.name)).Nodup) (perm : params.Perm params')
    (name : String) : stated name params = stated name params' := by
  have unrepeated' : (params'.map (·.name)).Nodup := (perm.map _).nodup_iff.mp unrepeated
  by_cases present : name ∈ params.map (·.name)
  · obtain ⟨param, member, rfl⟩ := List.mem_map.mp present
    rw [stated_of_mem unrepeated member, stated_of_mem unrepeated' (perm.subset member)]
  · rw [stated_of_not_mem present, stated_of_not_mem fun h => present ((perm.map _).mem_iff.mpr h)]

/-- A window exponent stands in an entry under a name. -/
def Offer.States (offer : Offer) (name : String) (bits : Nat) : Prop :=
  ∃ param ∈ offer.params, param.name = name ∧
    ∃ value, param.value = some value ∧ Spells value bits

theorem Offer.hasParam_iff : offer.hasParam name = true ↔ name ∈ offer.params.map (·.name) := by
  simp [hasParam]

theorem Offer.hasParam_eq_false_iff :
    offer.hasParam name = false ↔ name ∉ offer.params.map (·.name) := by
  rw [← hasParam_iff, Bool.not_eq_true]

theorem stated_of_hasParam_eq_false (absent : offer.hasParam name = false) :
    stated name offer.params = none :=
  stated_of_not_mem (Offer.hasParam_eq_false_iff.mp absent)

theorem stated_eq_some_iff (unrepeated : (offer.params.map (·.name)).Nodup) :
    stated name offer.params = some bits ↔ offer.States name bits := by
  constructor
  · intro h
    obtain ⟨param, member, is, states⟩ := exists_of_stated h
    exact ⟨param, member, is, Param.window?_eq_some_iff.mp states⟩
  · rintro ⟨param, member, rfl, states⟩
    rw [stated_of_mem unrepeated member]
    exact Param.window?_eq_some_iff.mpr states

/-! ## Names that stand twice -/

theorem Offer.nodup_of_repeated? (h : offer.repeated? = none) :
    (offer.params.map (·.name)).Nodup := by
  rw [repeated?] at h
  simp only [Option.map_eq_none_iff, List.find?_eq_none] at h
  rw [List.nodup_iff_pairwise_ne, List.pairwise_iff_getElem]
  intro i j hi hj lt same
  refine h (_, j) (List.mk_mem_zipIdx_iff_getElem?.mpr (List.getElem?_eq_getElem hj)) ?_
  rw [List.contains_iff_mem, List.mem_take_iff_getElem]
  exact ⟨i, by omega, same⟩

theorem refuseRepeated_eq_ok_iff :
    Agreement.refuseRepeated offer = .ok () ↔ (offer.params.map (·.name)).Nodup := by
  unfold Agreement.refuseRepeated
  cases h : offer.repeated? with
  | none => exact ⟨fun _ => Offer.nodup_of_repeated? h, fun _ => rfl⟩
  | some name =>
      refine ⟨nofun, fun unrepeated => ?_⟩
      rw [Offer.repeated?_of_nodup unrepeated] at h
      cases h

/-! ## Gathering -/

theorem names_apart :
    serverNoContextName ≠ clientNoContextName ∧ clientNoContextName ≠ serverNoContextName ∧
    serverNoContextName ≠ serverWindowName ∧ serverWindowName ≠ serverNoContextName ∧
    serverNoContextName ≠ clientWindowName ∧ clientWindowName ≠ serverNoContextName ∧
    clientNoContextName ≠ serverWindowName ∧ serverWindowName ≠ clientNoContextName ∧
    clientNoContextName ≠ clientWindowName ∧ clientWindowName ≠ clientNoContextName ∧
    serverWindowName ≠ clientWindowName ∧ clientWindowName ≠ serverWindowName := by
  decide

theorem name_cases (known : param.name ∈ paramNames) :
    param.name = serverNoContextName ∨ param.name = clientNoContextName ∨
      param.name = serverWindowName ∨ param.name = clientWindowName := by
  simpa [paramNames] using known

/-- A way to take parameters into account one after the other: only one that is
`fit` is taken, and where its name is new it joins what is `gathered` from those
before it. -/
structure Gathers {σ : Type} (take : σ → Param → Except Problem σ) (fit : Param → Prop)
    (gathered : List Param → σ) : Prop where
  fits : ∀ state param state', take state param = .ok state' → fit param
  takes : ∀ params param, param.name ∉ params.map (·.name) → fit param →
    take (gathered params) param = .ok (gathered (params ++ [param]))

variable {σ : Type} {take : σ → Param → Except Problem σ} {fit : Param → Prop}
  {gathered : List Param → σ}

theorem Gathers.fits_of_foldlM (gathers : Gathers take fit gathered) {state state' : σ}
    (run : params.foldlM take state = .ok state') : ∀ param ∈ params, fit param := by
  induction params generalizing state with
  | nil => exact nofun
  | cons first params ih =>
      rw [List.foldlM_cons] at run
      cases taken : take state first with
      | error problem =>
          rw [taken] at run
          cases run
      | ok next =>
          rw [taken] at run
          intro param member
          rcases List.mem_cons.mp member with rfl | member
          · exact gathers.fits state param next taken
          · exact ih run param member

theorem Gathers.foldlM_of_fits (gathers : Gathers take fit gathered)
    (unrepeated : (params.map (·.name)).Nodup) (all : ∀ param ∈ params, fit param) :
    params.foldlM take (gathered []) = .ok (gathered params) := by
  -- from the right: the last parameter joins what is gathered from the others
  induction params using List.reverseRecOn with
  | nil => rfl
  | append_singleton params param ih =>
      rw [List.map_append, List.nodup_append] at unrepeated
      obtain ⟨first, -, apart⟩ := unrepeated
      have new : param.name ∉ params.map (·.name) := fun member =>
        apart _ member _ List.mem_cons_self rfl
      rw [List.forall_mem_append, List.forall_mem_singleton] at all
      rw [List.foldlM_append, ih first all.1]
      change [param].foldlM take (gathered params) = _
      rw [List.foldlM_cons, gathers.takes params param new all.2]
      rfl

/-- Parameters whose names differ are taken just if all are fit, and then give
what is gathered from them. -/
theorem Gathers.foldlM_eq_ok_iff (gathers : Gathers take fit gathered)
    (unrepeated : (params.map (·.name)).Nodup) {state : σ} :
    params.foldlM take (gathered []) = .ok state ↔
      (∀ param ∈ params, fit param) ∧ state = gathered params := by
  constructor
  · intro run
    have all := gathers.fits_of_foldlM run
    rw [gathers.foldlM_of_fits unrepeated all] at run
    cases run
    exact ⟨all, rfl⟩
  · rintro ⟨all, rfl⟩
    exact gathers.foldlM_of_fits unrepeated all

/-- An entry is read just if no parameter stands in it twice and all are fit. -/
theorem Gathers.read_eq_ok_iff (gathers : Gathers take fit gathered) {entry : Offer} {state : σ} :
    (Agreement.refuseRepeated entry).bind (fun _ => entry.params.foldlM take (gathered [])) =
        .ok state ↔
      (entry.params.map (·.name)).Nodup ∧ (∀ param ∈ entry.params, fit param) ∧
        state = gathered entry.params := by
  cases passed : Agreement.refuseRepeated entry with
  | error problem =>
      refine ⟨nofun, ?_⟩
      rintro ⟨unrepeated, -⟩
      rw [refuseRepeated_eq_ok_iff.mpr unrepeated] at passed
      cases passed
  | ok _ =>
      have unrepeated := refuseRepeated_eq_ok_iff.mp passed
      rw [and_iff_right unrepeated]
      exact gathers.foldlM_eq_ok_iff unrepeated

end DeflateTrial.Extension
