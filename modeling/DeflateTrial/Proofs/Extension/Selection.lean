/-
Selection — which offer a server takes up, and what it answers

A server takes up the first offer of the extension in which no parameter stands
twice and every parameter is `Offerable`.  What it answers is a matter of its
own settings and that offer's parameters, in any order (`negotiate_selects`):

    a context flag      set if the offer or the server sets it
    server's window     the smaller of what was offered and the server's own
    client's window     the same, if the offer lets the server limit it
                        the greatest, if it does not

The answer states both windows.  No value in it is above the one that the offer
gives for the same parameter (`response_within`), but the client's window is
stated even to a client that did not offer it (`response_unoffered`).
-/
import DeflateTrial.Proofs.Extension.Parameters

namespace DeflateTrial.Extension

variable {param : Param} {params : List Param} {name : String} {bits : Nat} {offer : Offer}
  {offers : List Offer} {s : Settings} {a : Agreement}

/-! ## Parameters of an offer -/

namespace Param

/-- A parameter that a server can take into account: one of the extension's own,
in which a window exponent is an allowed one, and the server's is not left out. -/
structure Offerable (param : Param) : Prop where
  known : param.name ∈ paramNames
  spelled : param.name ∈ windowNames → ∀ value, param.value = some value →
    ∃ bits, Spells value bits
  valued : param.name = serverWindowName → param.value ≠ none

theorem offerable_of_flag (known : param.name ∈ paramNames) (flag : param.name ∉ windowNames) :
    param.Offerable where
  known := known
  spelled window := absurd window flag
  valued is := absurd (is ▸ List.mem_cons_self) flag

theorem offerable_of_window? (known : param.name ∈ paramNames)
    (states : param.window? = some bits) : param.Offerable := by
  obtain ⟨value, given, spells⟩ := window?_eq_some_iff.mp states
  refine ⟨known, ?_, ?_⟩
  · intro _ value' given'
    cases given.symm.trans given'
    exact ⟨bits, spells⟩
  · intro _ none
    cases given.symm.trans none

theorem offerable_of_bare (is : param.name = clientWindowName) (bare : param.value = none) :
    param.Offerable where
  known := is ▸ by decide
  spelled _ value given := by cases bare.symm.trans given
  valued other := absurd (is.symm.trans other) (by decide)

theorem Offerable.window?_of_value (offerable : param.Offerable)
    (window : param.name ∈ windowNames) {value : String} (given : param.value = some value) :
    ∃ bits, param.window? = some bits := by
  obtain ⟨bits, spells⟩ := offerable.spelled window value given
  exact ⟨bits, window?_eq_some_iff.mpr ⟨value, given, spells⟩⟩

end Param

/-- An offer that a server can accept. -/
structure Offer.Acceptable (offer : Offer) : Prop where
  named : offer.name = deflateName
  unrepeated : (offer.params.map (·.name)).Nodup
  offerable : ∀ param ∈ offer.params, param.Offerable

theorem Offer.Acceptable.perm {offer' : Offer} (acceptable : offer.Acceptable)
    (named : offer'.name = offer.name) (perm : offer.params.Perm offer'.params) :
    offer'.Acceptable where
  named := named.trans acceptable.named
  unrepeated := (perm.map _).nodup_iff.mp acceptable.unrepeated
  offerable param member := acceptable.offerable param (perm.symm.subset member)

namespace Agreement

/-! ## Reading an offer -/

/-- What the server has gathered from parameters whose names differ. -/
def drafted (s : Settings) (params : List Param) : Draft where
  terms := {
    serverNoContext := decide (serverNoContextName ∈ params.map (·.name)) || s.serverNoContext
    clientNoContext := decide (clientNoContextName ∈ params.map (·.name)) || s.clientNoContext
    serverWindowBits := (stated serverWindowName params).elim
      (s.serverWindowBits.getD maxWindowBits) (min (s.serverWindowBits.getD maxWindowBits))
    clientWindowBits := (stated clientWindowName params).getD maxWindowBits }
  clientWindowAllowed := decide (clientWindowName ∈ params.map (·.name))

theorem offerable_of_serverTakes {draft draft' : Draft}
    (taken : serverTakes draft param = .ok draft') : param.Offerable := by
  unfold serverTakes at taken
  split at taken
  · rename_i is
    exact Param.offerable_of_flag (is ▸ by decide) (is ▸ by decide)
  split at taken
  · rename_i is
    exact Param.offerable_of_flag (is ▸ by decide) (is ▸ by decide)
  split at taken
  · rename_i is
    cases required : requiredWindow param with
    | error problem =>
        rw [required] at taken
        cases taken
    | ok bits =>
        exact Param.offerable_of_window? (is ▸ by decide) (requiredWindow_eq_ok_iff.mp required)
  split at taken
  · rename_i is
    split at taken
    · rename_i bare
      exact Param.offerable_of_bare is bare
    · rename_i value given
      cases read : windowIn param value with
      | error problem =>
          rw [read] at taken
          cases taken
      | ok bits =>
          exact Param.offerable_of_window? (is ▸ by decide)
            (Param.window?_eq_some_iff.mpr ⟨value, given, windowIn_eq_ok_iff.mp read⟩)
  · cases taken

theorem serverTakes_drafted (s : Settings) (new : param.name ∉ params.map (·.name))
    (offerable : param.Offerable) :
    serverTakes (drafted s params) param = .ok (drafted s (params ++ [param])) := by
  have nothing : stated param.name params = none := stated_of_not_mem new
  rcases name_cases offerable.known with is | is | is | is
  · simp [serverTakes, drafted, stated_concat, is, names_apart]
  · simp [serverTakes, drafted, stated_concat, is, names_apart]
  · obtain ⟨value, given⟩ := Option.ne_none_iff_exists'.mp (offerable.valued is)
    obtain ⟨bits, states⟩ := offerable.window?_of_value (is ▸ by decide) given
    rw [is] at nothing
    simp [serverTakes, drafted, stated_concat, is, names_apart, nothing, states,
      requiredWindow_eq_ok_iff.mpr states, Except.map]
  · rw [is] at nothing
    cases given : param.value with
    | none =>
        simp [serverTakes, drafted, stated_concat, is, names_apart, nothing, given,
          Param.window?_of_bare given]
    | some value =>
        obtain ⟨bits, states⟩ := offerable.window?_of_value (is ▸ by decide) given
        have read : windowIn param value = .ok bits := by
          have required := requiredWindow_eq_ok_iff.mpr states
          rwa [requiredWindow, given] at required
        simp [serverTakes, drafted, stated_concat, is, names_apart, nothing, given, states, read,
          Except.map]

theorem gathers_serverTakes (s : Settings) : Gathers serverTakes Param.Offerable (drafted s) where
  fits _ _ _ taken := offerable_of_serverTakes taken
  takes _ _ new offerable := serverTakes_drafted s new offerable

/-- What a server makes of an offer that it can accept. -/
def merged (s : Settings) (offer : Offer) : Agreement :=
  limitClient s (drafted s offer.params)

theorem ofOffer_eq (s : Settings) (offer : Offer) :
    ofOffer s offer = ((refuseRepeated offer).bind fun _ =>
      offer.params.foldlM serverTakes (drafted s [])).map (limitClient s) := by
  have start : serverDraft s = drafted s [] := rfl
  unfold ofOffer
  rw [start]
  cases refuseRepeated offer with
  | error problem => rfl
  | ok _ => cases offer.params.foldlM serverTakes (drafted s []) <;> rfl

theorem ofOffer_eq_ok_iff (named : offer.name = deflateName) :
    ofOffer s offer = .ok a ↔ offer.Acceptable ∧ a = merged s offer := by
  have reads {draft : Draft} : (refuseRepeated offer).bind _ = .ok draft ↔ _ :=
    (gathers_serverTakes s).read_eq_ok_iff
  rw [ofOffer_eq]
  cases read : (refuseRepeated offer).bind fun _ =>
      offer.params.foldlM serverTakes (drafted s []) with
  | error problem =>
      refine ⟨nofun, ?_⟩
      rintro ⟨acceptable, -⟩
      rw [reads.mpr ⟨acceptable.unrepeated, acceptable.offerable, rfl⟩] at read
      cases read
  | ok draft =>
      obtain ⟨unrepeated, offerable, rfl⟩ := reads.mp read
      constructor
      · rintro ⟨⟩
        exact ⟨⟨named, unrepeated, offerable⟩, rfl⟩
      · rintro ⟨-, rfl⟩
        rfl

/-! ## Choosing an offer -/

/-- What a server answers to one offer of a list, if it takes it up. -/
def answered? (s : Settings) (offer : Offer) : Option Agreement :=
  if offer.name = deflateName then (ofOffer s offer).toOption else none

theorem answered?_eq_some_iff :
    answered? s offer = some a ↔ offer.Acceptable ∧ a = merged s offer := by
  unfold answered?
  split
  · rename_i named
    rw [← ofOffer_eq_ok_iff named]
    cases ofOffer s offer <;> simp [Except.toOption]
  · rename_i other
    constructor
    · intro answered
      cases answered
    · rintro ⟨acceptable, -⟩
      exact absurd acceptable.named other

theorem answered?_eq_none_iff : answered? s offer = none ↔ ¬ offer.Acceptable := by
  rw [Option.eq_none_iff_forall_ne_some]
  constructor
  · intro never acceptable
    exact never _ (answered?_eq_some_iff.mpr ⟨acceptable, rfl⟩)
  · intro refused a answered
    exact refused (answered?_eq_some_iff.mp answered).1

theorem negotiate_eq_findSome? (s : Settings) (offers : List Offer) :
    negotiate s offers = offers.findSome? (answered? s) := by
  unfold negotiate
  induction offers with
  | nil => rfl
  | cons offer offers ih =>
      rw [List.findSome?_cons, List.filter_cons, answered?]
      by_cases named : offer.name = deflateName
      · rw [if_pos (decide_eq_true named), if_pos named, List.findSome?_cons, ih]
      · rw [if_neg (by simpa using named), if_neg named, ih]

/-- A server takes up the first offer that it can accept, and no other. -/
theorem negotiate_eq_some_iff :
    negotiate s offers = some a ↔ ∃ before offer after, offers = before ++ offer :: after ∧
      (∀ other ∈ before, ¬ other.Acceptable) ∧ offer.Acceptable ∧ a = merged s offer := by
  rw [negotiate_eq_findSome?, List.findSome?_eq_some_iff]
  simp only [answered?_eq_some_iff, answered?_eq_none_iff]
  constructor
  · rintro ⟨before, offer, after, split, answered, none⟩
    exact ⟨before, offer, after, split, none, answered⟩
  · rintro ⟨before, offer, after, split, none, answered⟩
    exact ⟨before, offer, after, split, answered, none⟩

theorem isSome_negotiate_iff :
    (negotiate s offers).isSome = true ↔ ∃ offer ∈ offers, offer.Acceptable := by
  rw [negotiate_eq_findSome?, List.findSome?_isSome_iff]
  have answers (offer : Offer) : (answered? s offer).isSome = true ↔ offer.Acceptable := by
    rw [← Option.ne_none_iff_isSome, ne_eq, answered?_eq_none_iff, not_not]
  simp only [answers]

/-! ## What is answered -/

/-- What an answer to an offer holds. -/
structure Merges (s : Settings) (offer : Offer) (a : Agreement) : Prop where
  serverNoContext : a.serverNoContext = true ↔
    offer.hasParam serverNoContextName = true ∨ s.serverNoContext = true
  clientNoContext : a.clientNoContext = true ↔
    offer.hasParam clientNoContextName = true ∨ s.clientNoContext = true
  serverWindow : ∀ bits, offer.States serverWindowName bits →
    a.serverWindowBits = min bits (s.serverWindowBits.getD maxWindowBits)
  serverWindow_unasked : offer.hasParam serverWindowName = false →
    a.serverWindowBits = s.serverWindowBits.getD maxWindowBits
  clientWindow : ∀ bits, offer.States clientWindowName bits →
    a.clientWindowBits = min bits (s.clientWindowBits.getD maxWindowBits)
  /-- The client lets the server limit its window, and asks for nothing itself. -/
  clientWindow_bare : Param.flag clientWindowName ∈ offer.params →
    a.clientWindowBits = min maxWindowBits (s.clientWindowBits.getD maxWindowBits)
  clientWindow_unasked : offer.hasParam clientWindowName = false →
    a.clientWindowBits = maxWindowBits

theorem limitClient_apart (s : Settings) (draft : Draft) :
    (limitClient s draft).serverNoContext = draft.terms.serverNoContext ∧
      (limitClient s draft).clientNoContext = draft.terms.clientNoContext ∧
      (limitClient s draft).serverWindowBits = draft.terms.serverWindowBits := by
  unfold limitClient
  split <;> exact ⟨rfl, rfl, rfl⟩

theorem limitClient_of_allowed {draft : Draft} (allowed : draft.clientWindowAllowed = true)
    (within : draft.terms.clientWindowBits ≤ maxWindowBits) :
    (limitClient s draft).clientWindowBits =
      min draft.terms.clientWindowBits (s.clientWindowBits.getD maxWindowBits) := by
  unfold limitClient
  rw [allowed]
  cases s.clientWindowBits with
  | none => exact (Nat.min_eq_left within).symm
  | some limit => rfl

theorem limitClient_of_not_allowed {draft : Draft} (not : draft.clientWindowAllowed = false) :
    limitClient s draft = draft.terms := by
  unfold limitClient
  rw [not]

theorem clientWindow_merged (s : Settings)
    (present : clientWindowName ∈ offer.params.map (·.name)) :
    (merged s offer).clientWindowBits =
      min ((stated clientWindowName offer.params).getD maxWindowBits)
        (s.clientWindowBits.getD maxWindowBits) :=
  limitClient_of_allowed (decide_eq_true present) (allowed_getD allowed_of_stated).2

theorem clientWindow_merged_of_absent (s : Settings)
    (absent : clientWindowName ∉ offer.params.map (·.name)) :
    (merged s offer).clientWindowBits = maxWindowBits := by
  rw [merged, limitClient_of_not_allowed (decide_eq_false absent)]
  simp only [drafted, stated_of_not_mem absent, Option.getD_none]

theorem merges_merged (s : Settings) (acceptable : offer.Acceptable) :
    Merges s offer (merged s offer) := by
  have unrepeated := acceptable.unrepeated
  obtain ⟨serverFlag, clientFlag, serverWindow⟩ := limitClient_apart s (drafted s offer.params)
  have clientWindow (present : clientWindowName ∈ offer.params.map (·.name)) :=
    clientWindow_merged s present
  refine ⟨?_, ?_, ?_, ?_, ?_, ?_, ?_⟩
  · rw [merged, serverFlag, Offer.hasParam_iff]
    simp [drafted]
  · rw [merged, clientFlag, Offer.hasParam_iff]
    simp [drafted]
  · intro bits states
    rw [merged, serverWindow, Nat.min_comm]
    simp [drafted, (stated_eq_some_iff unrepeated).mpr states]
  · intro absent
    rw [merged, serverWindow]
    simp [drafted, stated_of_hasParam_eq_false absent]
  · intro bits states
    have present : clientWindowName ∈ offer.params.map (·.name) := by
      obtain ⟨param, member, is, -⟩ := states
      exact is ▸ List.mem_map_of_mem member
    rw [clientWindow present, (stated_eq_some_iff unrepeated).mpr states, Option.getD_some]
  · intro bare
    have nothing : stated clientWindowName offer.params = none :=
      (stated_of_mem unrepeated bare).trans (Param.window?_of_bare rfl)
    rw [clientWindow (List.mem_map_of_mem bare), nothing, Option.getD_none]
  · intro absent
    exact clientWindow_merged_of_absent s (Offer.hasParam_eq_false_iff.mp absent)

theorem allowed_merged (sound : s.Sound) (offer : Offer) :
    Allowed (merged s offer).serverWindowBits ∧ Allowed (merged s offer).clientWindowBits := by
  have serverLimit := allowed_getD sound.serverWindow
  have clientLimit := allowed_getD sound.clientWindow
  constructor
  · rw [merged, (limitClient_apart s _).2.2, drafted]
    cases is : stated serverWindowName offer.params with
    | none => exact serverLimit
    | some bits => exact allowed_min serverLimit (allowed_of_stated bits is)
  · by_cases present : clientWindowName ∈ offer.params.map (·.name)
    · rw [clientWindow_merged s present]
      exact allowed_min (allowed_getD allowed_of_stated) clientLimit
    · rw [clientWindow_merged_of_absent s present]
      decide

theorem drafted_perm {params' : List Param} (s : Settings)
    (unrepeated : (params.map (·.name)).Nodup) (perm : params.Perm params') :
    drafted s params = drafted s params' := by
  have names (name : String) : name ∈ params.map (·.name) ↔ name ∈ params'.map (·.name) :=
    (perm.map _).mem_iff
  simp only [drafted, names, stated_perm unrepeated perm]

/-- A server takes up an offer just if one is acceptable, and then the first such.
The answer holds what that offer and the server's settings make it hold, in
windows that may be agreed on, and it is the same whatever other offers stand
behind that one, whatever unacceptable ones before it, and in whatever order its
parameters stand. -/
theorem negotiate_selects (built : s.Built) (offers : List Offer) :
    ((negotiate s offers).isSome = true ↔ ∃ offer ∈ offers, offer.Acceptable) ∧
      ∀ before offer after, offers = before ++ offer :: after → offer.Acceptable →
        (∀ other ∈ before, ¬ other.Acceptable) →
        ∃ a, negotiate s offers = some a ∧ Merges s offer a ∧
          Allowed a.serverWindowBits ∧ Allowed a.clientWindowBits ∧
          ∀ before' offer' after', (∀ other ∈ before', ¬ other.Acceptable) →
            offer'.name = offer.name → offer.params.Perm offer'.params →
            negotiate s (before' ++ offer' :: after') = some a := by
  refine ⟨isSome_negotiate_iff, ?_⟩
  intro before offer after split acceptable first
  have taken : negotiate s offers = some (merged s offer) :=
    negotiate_eq_some_iff.mpr ⟨before, offer, after, split, first, acceptable, rfl⟩
  obtain ⟨serverWindow, clientWindow⟩ := allowed_merged built.sound offer
  refine ⟨merged s offer, taken, merges_merged s acceptable, serverWindow, clientWindow, ?_⟩
  intro before' offer' after' first' named perm
  have same : merged s offer = merged s offer' := by
    rw [merged, merged, drafted_perm s acceptable.unrepeated perm]
  exact negotiate_eq_some_iff.mpr
    ⟨before', offer', after', rfl, first', acceptable.perm named perm, same⟩

/-- The first of two offers leaves out the value that the server's window needs,
so the second is taken up, in either order of its parameters. -/
theorem negotiate_selects_second :
    let s : Settings := { clientWindowBits := some 10 }
    let declined : Offer := ⟨deflateName, [.flag serverWindowName]⟩
    let offer : Offer := ⟨deflateName, [.valued clientWindowName "12", .flag serverNoContextName]⟩
    let turned : Offer := ⟨deflateName, [.flag serverNoContextName, .valued clientWindowName "12"]⟩
    s.Built ∧ offer.Acceptable ∧ ¬ declined.Acceptable ∧
      negotiate s [declined, offer] = some ⟨true, false, 15, 10⟩ ∧
      negotiate s [turned] = some ⟨true, false, 15, 10⟩ := by
  intro s declined offer turned
  have built : s.Built :=
    .clientWindow .usual
      (rfl : Settings.withClientWindow {} 10 = .ok { clientWindowBits := some 10 })
  have acceptable : offer.Acceptable := by
    refine ⟨rfl, by decide, ?_⟩
    intro param member
    rcases List.mem_cons.mp member with rfl | member
    · have twelve : (Param.valued clientWindowName "12").window? = some 12 := by decide +kernel
      exact Param.offerable_of_window? (by decide) twelve
    · cases List.mem_singleton.mp member
      exact Param.offerable_of_flag (by decide) (by decide)
  have refused : ¬ declined.Acceptable := fun acceptable =>
    (acceptable.offerable _ List.mem_cons_self).valued rfl rfl
  have only : ∀ other ∈ [declined], ¬ other.Acceptable := by
    intro other member
    exact List.mem_singleton.mp member ▸ refused
  obtain ⟨a, taken, merges, -, -, same⟩ :=
    (negotiate_selects built [declined, offer]).2 [declined] offer [] rfl acceptable only
  have states : offer.States clientWindowName 12 :=
    ⟨_, List.mem_cons_self, rfl, "12", rfl, by decide +kernel, by decide⟩
  have is : a = ⟨true, false, 15, 10⟩ := by
    have serverNoContext : a.serverNoContext = true := merges.serverNoContext.mpr (.inl rfl)
    have clientNoContext : a.clientNoContext = false := by
      rw [Bool.eq_false_iff, ne_eq, merges.clientNoContext]
      decide
    have serverWindow : a.serverWindowBits = 15 := merges.serverWindow_unasked rfl
    have clientWindow : a.clientWindowBits = 10 := merges.clientWindow 12 states
    cases a
    simp_all
  refine ⟨built, acceptable, refused, ?_, ?_⟩
  · rw [taken, is]
  · rw [← is]
    exact same [] turned [] nofun rfl (List.Perm.swap ..)

/-! ## The text of the answer -/

theorem mem_response_of_valued {value : String} (member : param ∈ a.response.params)
    (given : param.value = some value) :
    param = Settings.windowParam serverWindowName a.serverWindowBits ∨
      param = Settings.windowParam clientWindowName a.clientWindowBits := by
  rw [response, List.mem_append] at member
  rcases member with flag | window
  · have bare : param.value = none := by
      revert flag
      cases a.serverNoContext <;> cases a.clientNoContext <;>
        simp +contextual [Settings.flags, Param.flag, or_imp]
    cases bare.symm.trans given
  · simpa using window

/-- What stands in an answer: no value above the one that the offer gives for the
same parameter, and both windows.  Where the offer does not have the client's
window it is stated all the same, as the greatest, so only a client that
allowed it is limited. -/
theorem response_within (found : negotiate s offers = some a) :
    ∃ before offer after, offers = before ++ offer :: after ∧ offer.Acceptable ∧
      (∀ other ∈ before, ¬ other.Acceptable) ∧
      (∀ param ∈ a.response.params, ∀ value, param.value = some value →
        ∃ bits, value = Text.Decimal.write bits ∧
          ∀ asked, offer.States param.name asked → bits ≤ asked) ∧
      (offer.hasParam clientWindowName = false →
        Settings.windowParam clientWindowName maxWindowBits ∈ a.response.params) ∧
      (a.clientWindowBits < maxWindowBits → offer.hasParam clientWindowName = true) := by
  obtain ⟨before, offer, after, split, first, acceptable, rfl⟩ := negotiate_eq_some_iff.mp found
  have merges := merges_merged s acceptable
  refine ⟨before, offer, after, split, acceptable, first, ?_, ?_, ?_⟩
  · intro param member value given
    obtain rfl | rfl := mem_response_of_valued member given
    · refine ⟨_, Option.some.inj given.symm, ?_⟩
      intro asked states
      rw [merges.serverWindow asked states]
      exact Nat.min_le_left _ _
    · refine ⟨_, Option.some.inj given.symm, ?_⟩
      intro asked states
      rw [merges.clientWindow asked states]
      exact Nat.min_le_left _ _
  · intro absent
    rw [← merges.clientWindow_unasked absent]
    simp [response]
  · intro limited
    by_contra absent
    rw [Bool.not_eq_true] at absent
    rw [merges.clientWindow_unasked absent] at limited
    exact Nat.lt_irrefl _ limited

/-- An offer of the server's window alone is answered with the client's too. -/
theorem response_within_ten :
    let offer : Offer := ⟨deflateName, [.valued serverWindowName "10"]⟩
    negotiate {} [offer] = some ⟨false, false, 10, 15⟩ ∧
      Settings.windowParam clientWindowName maxWindowBits ∈
        (response ⟨false, false, 10, 15⟩).params := by
  intro offer
  have found : negotiate {} [offer] = some ⟨false, false, 10, 15⟩ := by decide +kernel
  obtain ⟨before, taken, after, split, -, -, -, unasked, -⟩ := response_within found
  obtain ⟨rfl, rfl, rfl⟩ : before = [] ∧ taken = offer ∧ after = [] := by
    simpa [List.singleton_eq_append_iff] using split
  exact ⟨found, unasked rfl⟩

/-- A client that offers nothing about its own window is answered with one. -/
theorem response_unoffered :
    ∃ offer a, negotiate {} [offer] = some a ∧ offer.hasParam clientWindowName = false ∧
      a.response.hasParam clientWindowName = true :=
  ⟨⟨deflateName, []⟩, ⟨false, false, 15, 15⟩, by decide +kernel, by decide, by decide⟩

end Agreement

end DeflateTrial.Extension
