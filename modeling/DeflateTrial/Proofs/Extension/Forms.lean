/-
Forms — how a parameter has to be written, and what is taken for it

A context flag has no value, and a window exponent is one of the numbers 8 to 15
as they are written, without sign and without zeros in front (`WellFormed`).
Both ends take more than that.  A parameter may stand for a well-formed one
(`StandsFor`):

    context flag         with any value, which is passed over
    window exponent      behind zeros, and these behind a plus sign

An entry whose parameters all stand for well-formed ones is read as the entry
with these, and an entry with any other form of a parameter is refused, by the
server and by the client (`accepted_as_wellFormed`).
-/
import DeflateTrial.Proofs.Extension.Acceptance
import DeflateTrial.Proofs.Extension.Selection
import DeflateTrial.Proofs.Text.Numerals

namespace DeflateTrial.Extension

variable {param form : Param} {params forms : List Param} {name : String} {offer formed : Offer}
  {s : Settings}

/-- The parameters that say something by standing in an entry. -/
def flagNames : List String :=
  [serverNoContextName, clientNoContextName]

theorem spells_iff {value : String} {bits : Nat} :
    Spells value bits ↔ Allowed bits ∧ Text.Decimal.Numeral value.toList bits := by
  rw [Spells, Text.Decimal.readBelow?_eq_some_iff]
  constructor
  · rintro ⟨⟨-, numeral⟩, allowed⟩
    exact ⟨allowed, numeral⟩
  · rintro ⟨allowed, numeral⟩
    exact ⟨⟨Nat.lt_of_le_of_lt allowed.2 (by decide), numeral⟩, allowed⟩

namespace Param

/-- A parameter as the extension has it: a flag stands alone, and a window
exponent has no sign and no zeros in front. -/
structure WellFormed (param : Param) : Prop where
  flag : param.name ∈ flagNames → param.value = none
  window : param.name ∈ windowNames → ∀ value, param.value = some value →
    ∃ bits, Allowed bits ∧ value = Text.Decimal.write bits

/-- What a parameter is taken for. -/
inductive StandsFor : Param → Param → Prop
  | flag {name : String} (value : Option String) (is : name ∈ flagNames) :
      StandsFor ⟨name, value⟩ (.flag name)
  | bare {name : String} (is : name ∈ windowNames) : StandsFor (.flag name) (.flag name)
  | window {name value : String} {bits : Nat} (is : name ∈ windowNames) (allowed : Allowed bits)
      (numeral : Text.Decimal.Numeral value.toList bits) :
      StandsFor (.valued name value) (Settings.windowParam name bits)

theorem flag_or_window (known : param.name ∈ paramNames) :
    param.name ∈ flagNames ∨ param.name ∈ windowNames := by
  rcases name_cases known with is | is | is | is
  · exact .inl (is ▸ by decide)
  · exact .inl (is ▸ by decide)
  · exact .inr (is ▸ by decide)
  · exact .inr (is ▸ by decide)

theorem flag_ne_window (flag : name ∈ flagNames) : name ∉ windowNames := by
  revert name
  decide

theorem StandsFor.wellFormed (stands : param.StandsFor form) : form.WellFormed := by
  cases stands with
  | flag value is => exact ⟨fun _ => rfl, fun _ _ given => by cases given⟩
  | bare is => exact ⟨fun _ => rfl, fun _ _ given => by cases given⟩
  | window is allowed numeral =>
      refine ⟨fun flag => absurd is (flag_ne_window flag), ?_⟩
      rintro _ value ⟨⟩
      exact ⟨_, allowed, rfl⟩

theorem WellFormed.standsFor (wellFormed : param.WellFormed) (known : param.name ∈ paramNames) :
    param.StandsFor param := by
  obtain ⟨name, value⟩ := param
  rcases flag_or_window known with flag | window
  · cases wellFormed.flag flag
    exact .flag none flag
  · cases value with
    | none => exact .bare window
    | some value =>
        obtain ⟨bits, allowed, rfl⟩ := wellFormed.window window value rfl
        refine .window window allowed ?_
        rw [Text.Decimal.write, String.toList_ofList]
        exact Text.Decimal.numeral_digits bits

theorem StandsFor.name_eq (stands : param.StandsFor form) : form.name = param.name := by
  cases stands <;> rfl

theorem StandsFor.known (stands : param.StandsFor form) : param.name ∈ paramNames := by
  have flags : ∀ name ∈ flagNames, name ∈ paramNames := by decide
  have windows : ∀ name ∈ windowNames, name ∈ paramNames := by decide
  cases stands with
  | flag value is => exact flags _ is
  | bare is => exact windows _ is
  | window is allowed numeral => exact windows _ is

theorem StandsFor.window?_eq (stands : param.StandsFor form) (window : param.name ∈ windowNames) :
    form.window? = param.window? := by
  cases stands with
  | flag value is => exact absurd window (flag_ne_window is)
  | bare is => rfl
  | window is allowed numeral =>
      rw [requiredWindow_eq_ok_iff.mp (requiredWindow_windowParam _ allowed)]
      exact (window?_eq_some_iff.mpr ⟨_, rfl, spells_iff.mpr ⟨allowed, numeral⟩⟩).symm

/-- The extension's own parameters stand for well-formed ones, unless one of a
window has a value that spells no exponent. -/
theorem exists_standsFor_iff : (∃ form, param.StandsFor form) ↔
    param.name ∈ paramNames ∧ (param.name ∈ windowNames → ∀ value, param.value = some value →
      ∃ bits, Spells value bits) := by
  constructor
  · rintro ⟨form, stands⟩
    refine ⟨stands.known, ?_⟩
    intro window value given
    cases stands with
    | flag value' is => exact absurd window (flag_ne_window is)
    | bare is => cases given
    | window is allowed numeral =>
        cases given
        exact ⟨_, spells_iff.mpr ⟨allowed, numeral⟩⟩
  · rintro ⟨known, spelled⟩
    obtain ⟨name, value⟩ := param
    rcases flag_or_window known with flag | window
    · exact ⟨_, .flag value flag⟩
    · cases value with
      | none => exact ⟨_, .bare window⟩
      | some value =>
          obtain ⟨bits, spells⟩ := spelled window value rfl
          obtain ⟨allowed, numeral⟩ := spells_iff.mp spells
          exact ⟨_, .window window allowed numeral⟩

theorem StandsFor.tame (stands : param.StandsFor form) : Tame form := by
  have tokens : ∀ name ∈ paramNames, name.toList.all isToken = true ∧ name.toList ≠ [] := by
    decide
  have named := tokens _ stands.known
  cases stands with
  | flag value is => exact tame_flag named.1 named.2
  | bare is => exact tame_flag named.1 named.2
  | window is allowed numeral => exact tame_windowParam named.1 _

theorem StandsFor.offerable (stands : param.StandsFor form) (offerable : param.Offerable) :
    form.Offerable := by
  have known : form.name ∈ paramNames := stands.name_eq ▸ stands.known
  cases stands with
  | flag value is => exact offerable_of_flag known (flag_ne_window is)
  | bare is => exact offerable
  | window is allowed numeral =>
      exact offerable_of_window? known
        (requiredWindow_eq_ok_iff.mp (requiredWindow_windowParam _ allowed))

theorem StandsFor.answerable (stands : param.StandsFor form) (answerable : param.Answerable s) :
    form.Answerable s := by
  have name := stands.name_eq
  refine ⟨name ▸ stands.known, ?_, ?_⟩
  · intro window
    rw [name] at window
    rw [stands.window?_eq window]
    exact answerable.valued window
  · intro is
    rw [name] at is
    rw [stands.window?_eq (is ▸ List.mem_cons_self)]
    exact answerable.within is

end Param

/-! ## Entries -/

namespace Offer

/-- An entry in which every parameter is written as the extension has it. -/
def WellFormed (offer : Offer) : Prop :=
  ∀ param ∈ offer.params, param.WellFormed

/-- What an entry is taken for. -/
structure StandsFor (offer formed : Offer) : Prop where
  name : formed.name = offer.name
  params : List.Forall₂ Param.StandsFor offer.params formed.params

theorem exists_of_mem (stand : List.Forall₂ Param.StandsFor params forms) (member : form ∈ forms) :
    ∃ param ∈ params, param.StandsFor form := by
  induction stand with
  | nil => cases member
  | cons first rest ih =>
      rcases List.mem_cons.mp member with rfl | member
      · exact ⟨_, List.mem_cons_self, first⟩
      · obtain ⟨param, member, stands⟩ := ih member
        exact ⟨param, List.mem_cons_of_mem _ member, stands⟩

theorem map_name_eq (stand : List.Forall₂ Param.StandsFor params forms) :
    forms.map (·.name) = params.map (·.name) := by
  induction stand with
  | nil => rfl
  | cons first rest ih => rw [List.map_cons, List.map_cons, first.name_eq, ih]

theorem stated_eq (stand : List.Forall₂ Param.StandsFor params forms)
    (window : name ∈ windowNames) : stated name forms = stated name params := by
  induction stand with
  | nil => rfl
  | @cons param form _ _ first rest ih =>
      have here : (if form.name = name then form.window? else none) =
          if param.name = name then param.window? else none := by
        rw [first.name_eq]
        split
        · rename_i is
          exact first.window?_eq (is ▸ window)
        · rfl
      rw [stated, stated, List.findSome?_cons, List.findSome?_cons, here, ← stated, ← stated, ih]

theorem exists_forms (each : ∀ param ∈ params, ∃ form, param.StandsFor form) :
    ∃ forms, List.Forall₂ Param.StandsFor params forms := by
  induction params with
  | nil => exact ⟨[], .nil⟩
  | cons param params ih =>
      rw [List.forall_mem_cons] at each
      obtain ⟨form, stands⟩ := each.1
      obtain ⟨forms, stand⟩ := ih each.2
      exact ⟨form :: forms, .cons stands stand⟩

theorem exists_standsFor (each : ∀ param ∈ offer.params, ∃ form, param.StandsFor form) :
    ∃ formed, offer.StandsFor formed := by
  obtain ⟨forms, stand⟩ := exists_forms each
  exact ⟨⟨offer.name, forms⟩, rfl, stand⟩

theorem StandsFor.wellFormed (stands : offer.StandsFor formed) : formed.WellFormed := by
  intro form member
  obtain ⟨param, -, here⟩ := exists_of_mem stands.params member
  exact here.wellFormed

theorem WellFormed.standsFor (wellFormed : offer.WellFormed)
    (known : ∀ param ∈ offer.params, param.name ∈ paramNames) : offer.StandsFor offer :=
  ⟨rfl, List.forall₂_same.mpr fun param member =>
    (wellFormed param member).standsFor (known param member)⟩

theorem StandsFor.parse_write (stands : offer.StandsFor formed) (named : offer.name = deflateName) :
    parse formed.write = .ok formed := by
  refine (read_write (stands.name.trans named) ?_).2
  intro form member
  obtain ⟨param, -, here⟩ := exists_of_mem stands.params member
  exact here.tame

/-! ### Read by the server -/

theorem Acceptable.exists_standsFor (acceptable : offer.Acceptable) :
    ∃ formed, offer.StandsFor formed :=
  Offer.exists_standsFor fun param member =>
    have offerable := acceptable.offerable param member
    Param.exists_standsFor_iff.mpr ⟨offerable.known, offerable.spelled⟩

theorem StandsFor.acceptable (stands : offer.StandsFor formed) (acceptable : offer.Acceptable) :
    formed.Acceptable where
  named := stands.name.trans acceptable.named
  unrepeated := (map_name_eq stands.params).symm ▸ acceptable.unrepeated
  offerable form member := by
    obtain ⟨param, member, here⟩ := exists_of_mem stands.params member
    exact here.offerable (acceptable.offerable param member)

theorem StandsFor.merged_eq (stands : offer.StandsFor formed) :
    Agreement.merged s formed = Agreement.merged s offer := by
  have server := stated_eq stands.params (show serverWindowName ∈ windowNames by decide)
  have client := stated_eq stands.params (show clientWindowName ∈ windowNames by decide)
  rw [Agreement.merged, Agreement.merged, Agreement.drafted, Agreement.drafted, server, client,
    map_name_eq stands.params]

/-! ### Read by the client -/

theorem Answers.exists_standsFor (answers : offer.Answers s) :
    ∃ formed, offer.StandsFor formed := by
  refine Offer.exists_standsFor fun param member => ?_
  have answerable := answers.answerable param member
  refine Param.exists_standsFor_iff.mpr ⟨answerable.known, fun window value given => ?_⟩
  obtain ⟨bits, states⟩ := answerable.valued window
  obtain ⟨value', given', spells⟩ := Param.window?_eq_some_iff.mp states
  cases given.symm.trans given'
  exact ⟨bits, spells⟩

theorem StandsFor.answers (stands : offer.StandsFor formed) (answers : offer.Answers s) :
    formed.Answers s where
  named := stands.name.trans answers.named
  unrepeated := (map_name_eq stands.params).symm ▸ answers.unrepeated
  answerable form member := by
    obtain ⟨param, member, here⟩ := exists_of_mem stands.params member
    exact here.answerable (answers.answerable param member)

theorem StandsFor.granted_eq (stands : offer.StandsFor formed) :
    Agreement.granted s formed.params = Agreement.granted s offer.params := by
  have server := stated_eq stands.params (show serverWindowName ∈ windowNames by decide)
  have client := stated_eq stands.params (show clientWindowName ∈ windowNames by decide)
  rw [Agreement.granted, Agreement.granted, server, client, map_name_eq stands.params]

end Offer

namespace Agreement

/-- An offer that a server does not accept is of no matter. -/
theorem negotiate_skip (refused : ¬ offer.Acceptable) (before after : List Offer) :
    negotiate s (before ++ offer :: after) = negotiate s (before ++ after) := by
  rw [negotiate_eq_findSome?, negotiate_eq_findSome?, List.findSome?_append,
    List.findSome?_append, List.findSome?_cons, answered?_eq_none_iff.mpr refused]

/-- Both ends take an entry only for a well-formed one, and then make of it what
they make of that one.  An entry that stands for no well-formed one is declined
by the server, as if it had not been offered, and makes the client refuse the
whole answer.  A well-formed entry stands for itself. -/
theorem accepted_as_wellFormed (s : Settings) :
    (∀ offers a, negotiate s offers = some a →
      ∃ offer ∈ offers, ∃ formed, offer.StandsFor formed ∧ formed.WellFormed ∧
        negotiate s [formed] = some a) ∧
    (∀ before offer after, (∀ formed, ¬ offer.StandsFor formed) →
      negotiate s (before ++ offer :: after) = negotiate s (before ++ after)) ∧
    (∀ entries a, accept s entries = .ok (some a) →
      ∃ entry offer formed, entries = [entry] ∧ Offer.parse entry = .ok offer ∧
        offer.StandsFor formed ∧ formed.WellFormed ∧ accept s [formed.write] = .ok (some a)) ∧
    (∀ entries, ∀ entry ∈ entries, ∀ offer, Offer.parse entry = .ok offer →
      (∀ formed, ¬ offer.StandsFor formed) →
      ∃ problem, accept s entries = .error problem ∧
        problem.fault = .invalidExtension problem.text) ∧
    ∀ offer : Offer, offer.WellFormed → (∀ param ∈ offer.params, param.name ∈ paramNames) →
      offer.StandsFor offer := by
  refine ⟨?_, ?_, ?_, ?_, fun offer wellFormed known => wellFormed.standsFor known⟩
  · intro offers a taken
    obtain ⟨before, offer, after, rfl, -, acceptable, rfl⟩ := negotiate_eq_some_iff.mp taken
    obtain ⟨formed, stands⟩ := acceptable.exists_standsFor
    refine ⟨offer, by simp, formed, stands, stands.wellFormed, ?_⟩
    exact negotiate_eq_some_iff.mpr
      ⟨[], formed, [], rfl, nofun, stands.acceptable acceptable, stands.merged_eq.symm⟩
  · intro before offer after formless
    refine negotiate_skip (fun acceptable => ?_) before after
    obtain ⟨formed, stands⟩ := acceptable.exists_standsFor
    exact formless formed stands
  · intro entries a accepted
    obtain ⟨-, ⟨⟩⟩ | ⟨entry, offer, rfl, parsed, answers, ⟨⟩⟩ := accept_eq_ok_iff.mp accepted
    obtain ⟨formed, stands⟩ := answers.exists_standsFor
    refine ⟨entry, offer, formed, rfl, parsed, stands, stands.wellFormed, ?_⟩
    exact accept_eq_ok_iff.mpr (.inr ⟨formed.write, formed, rfl, stands.parse_write answers.named,
      stands.answers answers, by rw [stands.granted_eq]⟩)
  · intro entries entry among offer parsed formless
    cases outcome : accept s entries with
    | error problem => exact ⟨problem, rfl, rfl⟩
    | ok accepted =>
        obtain ⟨rfl, -⟩ | ⟨entry', offer', rfl, parsed', answers, -⟩ := accept_eq_ok_iff.mp outcome
        · cases among
        · cases List.mem_singleton.mp among
          cases parsed.symm.trans parsed'
          obtain ⟨formed, stands⟩ := answers.exists_standsFor
          exact absurd stands (formless formed)

/-- A flag with a value, and exponents with a sign and zeros in front, are taken
for the well-formed ones; an exponent out of range is not. -/
theorem accepted_as_wellFormed_signed :
    let offer : Offer :=
      ⟨deflateName, [.valued serverNoContextName "true", .valued serverWindowName "+010"]⟩
    let formless : Offer := ⟨deflateName, [.valued clientWindowName "16"]⟩
    (∃ formed : Offer, formed.WellFormed ∧ negotiate {} [formed] = some ⟨true, false, 10, 15⟩ ∧
      offer.StandsFor formed) ∧
    negotiate {} [formless, offer] = some ⟨true, false, 10, 15⟩ ∧
    (∃ formed : Offer, formed.WellFormed ∧
      accept {} [formed.write] = .ok (some ⟨true, false, 10, 15⟩)) ∧
    ∃ problem, accept {} [formless.write] = .error problem ∧
      problem.fault = .invalidExtension problem.text := by
  intro offer formless
  have none : ∀ formed, ¬ formless.StandsFor formed := by
    rintro ⟨name, forms⟩ ⟨-, stand⟩
    cases stand with
    | cons here _ =>
        obtain ⟨bits, read, allowed⟩ :=
          (Param.exists_standsFor_iff.mp ⟨_, here⟩).2 (by decide) "16" rfl
        have sixteen : Text.Decimal.readBelow? 256 "16".toList = some 16 := by decide
        cases sixteen.symm.trans read
        exact absurd allowed (by decide)
  have taken : negotiate {} [offer] = some ⟨true, false, 10, 15⟩ := by decide +kernel
  have accepted : accept {} [offer.write] = .ok (some ⟨true, false, 10, 15⟩) := by decide +kernel
  have parsed : Offer.parse formless.write = .ok formless := by decide +kernel
  obtain ⟨server, declined, client, refused, -⟩ := accepted_as_wellFormed {}
  refine ⟨?_, ?_, ?_, refused [formless.write] _ List.mem_cons_self formless parsed none⟩
  · obtain ⟨offer', member, formed, stands, wellFormed, same⟩ := server _ _ taken
    cases List.mem_singleton.mp member
    exact ⟨formed, wellFormed, same, stands⟩
  · exact (declined [] formless [offer] none).trans taken
  · obtain ⟨-, -, formed, -, -, -, wellFormed, same⟩ := client _ _ accepted
    exact ⟨formed, wellFormed, same⟩

/-- A flag with a value, and an exponent with a sign and a zero in front, are taken
at both ends, although neither is well-formed. -/
theorem accepts_malformed :
    let flag : Offer := ⟨deflateName, [.valued serverNoContextName "true"]⟩
    let window : Offer := ⟨deflateName, [.valued serverWindowName "+010"]⟩
    ¬ flag.WellFormed ∧ negotiate {} [flag] = some ⟨true, false, 15, 15⟩ ∧
      accept {} [flag.write] = .ok (some ⟨true, false, 15, 15⟩) ∧
      ¬ window.WellFormed ∧ negotiate {} [window] = some ⟨false, false, 10, 15⟩ ∧
      accept {} [window.write] = .ok (some ⟨false, false, 10, 15⟩) := by
  intro flag window
  refine ⟨?_, by decide +kernel, by decide +kernel, ?_, by decide +kernel, by decide +kernel⟩
  · intro wellFormed
    cases (wellFormed _ List.mem_cons_self).flag (by decide)
  · intro wellFormed
    obtain ⟨bits, -, written⟩ := (wellFormed _ List.mem_cons_self).window (by decide) "+010" rfl
    have plus : '+' ∈ (Text.Decimal.write bits).toList :=
      written ▸ (by decide : '+' ∈ "+010".toList)
    rw [Text.Decimal.write, String.toList_ofList] at plus
    exact Text.Decimal.plus_not_mem 0 bits plus

end Agreement

end DeflateTrial.Extension
