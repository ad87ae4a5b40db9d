/-
Acceptance — what a client settles for

A client takes an answer of one entry at most, and in it only the extension's
own parameters, none of them twice, with both windows spelled out where they
stand and the server's within the request (`Answerable`).  What it settles for
is a matter of its own settings and that entry's parameters, in any order
(`Grants`):

    a context flag      set if the answer sets it; the client's own also if
                        the client asked for it
    client's window     the smaller of its own and the answer's
    server's window     the answer's, and the greatest if the answer has none

A larger server's window than the one requested is refused where it stands in
the answer (`accept_within`).  An answer that leaves the parameter out is held
against no request (`accept_unlimited`).
-/
import DeflateTrial.Proofs.Extension.Parameters

namespace DeflateTrial.Extension

variable {param : Param} {params : List Param} {bits : Nat} {offer : Offer} {entry : String}
  {entries : List String} {s : Settings} {a : Agreement}

/-! ## Parameters of an answer -/

/-- A parameter that a client can take into account: one of the extension's own,
in which a window exponent is an allowed one, and the server's within the
request. -/
structure Param.Answerable (s : Settings) (param : Param) : Prop where
  known : param.name ∈ paramNames
  valued : param.name ∈ windowNames → ∃ bits, param.window? = some bits
  within : param.name = serverWindowName → ∀ bits, param.window? = some bits →
    ∀ requested, s.serverWindowBits = some requested → bits ≤ requested

theorem Param.answerable_of_flag (known : param.name ∈ paramNames)
    (flag : param.name ∉ windowNames) : param.Answerable s where
  known := known
  valued window := absurd window flag
  within is := absurd (is ▸ List.mem_cons_self) flag

/-- An entry that a client can settle for. -/
structure Offer.Answers (s : Settings) (offer : Offer) : Prop where
  named : offer.name = deflateName
  unrepeated : (offer.params.map (·.name)).Nodup
  answerable : ∀ param ∈ offer.params, param.Answerable s

theorem Offer.Answers.within {requested : Nat} (answers : offer.Answers s)
    (limit : s.serverWindowBits = some requested) (states : offer.States serverWindowName bits) :
    bits ≤ requested := by
  obtain ⟨param, member, is, here⟩ := states
  exact (answers.answerable param member).within is bits (Param.window?_eq_some_iff.mpr here)
    requested limit

theorem Offer.Answers.states_of_hasParam {name : String} (answers : offer.Answers s)
    (window : name ∈ windowNames) (present : offer.hasParam name = true) :
    ∃ bits, offer.States name bits := by
  obtain ⟨param, member, rfl⟩ := List.mem_map.mp (Offer.hasParam_iff.mp present)
  obtain ⟨bits, states⟩ := (answers.answerable param member).valued window
  exact ⟨bits, param, member, rfl, Param.window?_eq_some_iff.mp states⟩

namespace Agreement

/-! ## Reading an answer -/

/-- What the client has gathered from parameters whose names differ. -/
def granted (s : Settings) (params : List Param) : Agreement where
  serverNoContext := decide (serverNoContextName ∈ params.map (·.name))
  clientNoContext := decide (clientNoContextName ∈ params.map (·.name)) || s.clientNoContext
  serverWindowBits := (stated serverWindowName params).getD maxWindowBits
  clientWindowBits := (stated clientWindowName params).elim
    (s.clientWindowBits.getD maxWindowBits) (min (s.clientWindowBits.getD maxWindowBits))

theorem answerable_of_clientTakes {a' : Agreement} (taken : clientTakes s a param = .ok a') :
    param.Answerable s := by
  unfold clientTakes at taken
  split at taken
  · rename_i is
    exact Param.answerable_of_flag (is ▸ by decide) (is ▸ by decide)
  split at taken
  · rename_i is
    exact Param.answerable_of_flag (is ▸ by decide) (is ▸ by decide)
  split at taken
  · rename_i is
    cases required : requiredWindow param with
    | error problem =>
        rw [required] at taken
        cases taken
    | ok bits =>
        have states := requiredWindow_eq_ok_iff.mp required
        refine ⟨is ▸ by decide, fun _ => ⟨bits, states⟩, ?_⟩
        intro _ bits' states' requested limit
        cases states.symm.trans states'
        rw [required, limit] at taken
        by_contra larger
        simp [Except.bind, Nat.lt_of_not_le larger] at taken
  split at taken
  · rename_i other is
    cases required : requiredWindow param with
    | error problem =>
        rw [required] at taken
        cases taken
    | ok bits =>
        have states := requiredWindow_eq_ok_iff.mp required
        exact ⟨is ▸ by decide, fun _ => ⟨bits, states⟩, fun is => absurd is other⟩
  · cases taken

theorem clientTakes_granted (new : param.name ∉ params.map (·.name))
    (answerable : param.Answerable s) :
    clientTakes s (granted s params) param = .ok (granted s (params ++ [param])) := by
  have nothing : stated param.name params = none := stated_of_not_mem new
  rcases name_cases answerable.known with is | is | is | is
  · simp [clientTakes, granted, stated_concat, is, names_apart]
  · simp [clientTakes, granted, stated_concat, is, names_apart]
  · obtain ⟨bits, states⟩ := answerable.valued (is ▸ by decide)
    have within := answerable.within is bits states
    rw [is] at nothing
    cases limit : s.serverWindowBits with
    | none =>
        simp [clientTakes, granted, stated_concat, is, names_apart, nothing, states, limit,
          requiredWindow_eq_ok_iff.mpr states, Except.bind]
    | some requested =>
        simp [clientTakes, granted, stated_concat, is, names_apart, nothing, states, limit,
          requiredWindow_eq_ok_iff.mpr states, Except.bind, within requested limit]
  · obtain ⟨bits, states⟩ := answerable.valued (is ▸ by decide)
    rw [is] at nothing
    simp [clientTakes, granted, stated_concat, is, names_apart, nothing, states,
      requiredWindow_eq_ok_iff.mpr states, Except.map]

theorem gathers_clientTakes (s : Settings) :
    Gathers (clientTakes s) (Param.Answerable s) (granted s) where
  fits _ _ _ taken := answerable_of_clientTakes taken
  takes _ _ new answerable := clientTakes_granted new answerable

theorem ofEntry_eq_ok_iff (named : offer.name = deflateName) :
    ofEntry s offer = .ok a ↔ offer.Answers s ∧ a = granted s offer.params := by
  have reads : ofEntry s offer = .ok a ↔ _ := (gathers_clientTakes s).read_eq_ok_iff
  rw [reads]
  constructor
  · rintro ⟨unrepeated, answerable, is⟩
    exact ⟨⟨named, unrepeated, answerable⟩, is⟩
  · rintro ⟨⟨-, unrepeated, answerable⟩, is⟩
    exact ⟨unrepeated, answerable, is⟩

/-! ## The entries of an answer -/

theorem acceptEntry_none_eq_ok_iff {accepted : Option Agreement} :
    acceptEntry s none entry = .ok accepted ↔
      ∃ offer, Offer.parse entry = .ok offer ∧ offer.Answers s ∧
        accepted = some (granted s offer.params) := by
  unfold acceptEntry
  cases parsed : Offer.parse entry with
  | error problem => simp [bind, Except.bind]
  | ok offer =>
      by_cases named : offer.name = deflateName
      · have reads {a : Agreement} := ofEntry_eq_ok_iff (s := s) (a := a) named
        cases read : ofEntry s offer with
        | error problem =>
            have refused : ¬ offer.Answers s := by
              intro answers
              cases read.symm.trans (reads.mpr ⟨answers, rfl⟩)
            simp [bind, Except.bind, named, read, refused]
        | ok a =>
            obtain ⟨answers, rfl⟩ := reads.mp read
            simp [bind, Except.bind, pure, Except.pure, named, read, answers, eq_comm]
      · have refused : ¬ offer.Answers s := fun answers => named answers.named
        simp [bind, Except.bind, named, refused, throw, throwThe, MonadExceptOf.throw]

theorem acceptEntry_some_ne_ok {accepted : Option Agreement} :
    acceptEntry s (some a) entry ≠ .ok accepted := by
  unfold acceptEntry
  cases Offer.parse entry with
  | error problem => simp [bind, Except.bind]
  | ok offer =>
      by_cases named : offer.name = deflateName <;>
        simp [bind, Except.bind, named, throw, throwThe, MonadExceptOf.throw]

theorem foldlM_acceptEntry_some {accepted : Option Agreement} :
    entries.foldlM (acceptEntry s) (some a) = .ok accepted ↔
      entries = [] ∧ accepted = some a := by
  cases entries with
  | nil => simp [pure, Except.pure, eq_comm]
  | cons entry entries =>
      rw [List.foldlM_cons]
      cases taken : acceptEntry s (some a) entry with
      | error problem => simp [bind, Except.bind]
      | ok accepted => exact absurd taken acceptEntry_some_ne_ok

theorem accept_eq_ok_iff {accepted : Option Agreement} :
    accept s entries = .ok accepted ↔
      entries = [] ∧ accepted = none ∨
        ∃ entry offer, entries = [entry] ∧ Offer.parse entry = .ok offer ∧ offer.Answers s ∧
          accepted = some (granted s offer.params) := by
  unfold accept
  cases entries with
  | nil => simp [pure, Except.pure, eq_comm]
  | cons entry entries =>
      rw [List.foldlM_cons]
      have reads {accepted : Option Agreement} : acceptEntry s none entry = .ok accepted ↔ _ :=
        acceptEntry_none_eq_ok_iff
      cases taken : acceptEntry s none entry with
      | error problem =>
          refine ⟨nofun, ?_⟩
          rintro (⟨⟨⟩, -⟩ | ⟨entry, offer, ⟨⟩, parsed, answers, -⟩)
          rw [reads.mpr ⟨offer, parsed, answers, rfl⟩] at taken
          cases taken
      | ok first =>
          obtain ⟨offer, parsed, answers, rfl⟩ := reads.mp taken
          change entries.foldlM (acceptEntry s) (some (granted s offer.params)) = _ ↔ _
          rw [foldlM_acceptEntry_some]
          constructor
          · rintro ⟨rfl, rfl⟩
            exact .inr ⟨entry, offer, rfl, parsed, answers, rfl⟩
          · rintro (⟨⟨⟩, -⟩ | ⟨entry, offer', ⟨⟩, parsed', -, rfl⟩)
            cases parsed.symm.trans parsed'
            exact ⟨rfl, rfl⟩

/-! ## What is settled for -/

/-- What an answer makes a client settle for. -/
structure Grants (s : Settings) (offer : Offer) (a : Agreement) : Prop where
  serverNoContext : a.serverNoContext = true ↔ offer.hasParam serverNoContextName = true
  clientNoContext : a.clientNoContext = true ↔
    offer.hasParam clientNoContextName = true ∨ s.clientNoContext = true
  serverWindow : ∀ bits, offer.States serverWindowName bits → a.serverWindowBits = bits
  /-- The request is of no matter here. -/
  serverWindow_unstated : offer.hasParam serverWindowName = false →
    a.serverWindowBits = maxWindowBits
  clientWindow : ∀ bits, offer.States clientWindowName bits →
    a.clientWindowBits = min (s.clientWindowBits.getD maxWindowBits) bits
  clientWindow_unstated : offer.hasParam clientWindowName = false →
    a.clientWindowBits = s.clientWindowBits.getD maxWindowBits

theorem grants_granted (answers : offer.Answers s) : Grants s offer (granted s offer.params) := by
  have unrepeated := answers.unrepeated
  refine ⟨?_, ?_, ?_, ?_, ?_, ?_⟩
  · rw [Offer.hasParam_iff]
    simp [granted]
  · rw [Offer.hasParam_iff]
    simp [granted]
  · intro bits states
    simp [granted, (stated_eq_some_iff unrepeated).mpr states]
  · intro absent
    simp [granted, stated_of_hasParam_eq_false absent]
  · intro bits states
    simp [granted, (stated_eq_some_iff unrepeated).mpr states]
  · intro absent
    simp [granted, stated_of_hasParam_eq_false absent]

theorem allowed_granted (sound : s.Sound) (params : List Param) :
    Allowed (granted s params).serverWindowBits ∧ Allowed (granted s params).clientWindowBits := by
  have limit := allowed_getD sound.clientWindow
  refine ⟨allowed_getD allowed_of_stated, ?_⟩
  rw [granted]
  cases states : stated clientWindowName params with
  | none => exact limit
  | some bits => exact allowed_min limit (allowed_of_stated bits states)

theorem clientWindow_granted_le (s : Settings) (params : List Param) :
    (granted s params).clientWindowBits ≤ s.clientWindowBits.getD maxWindowBits := by
  rw [granted]
  cases stated clientWindowName params with
  | none => exact Nat.le_refl _
  | some bits => exact Nat.min_le_left _ _

/-- What a client settles for is within what it asked and what the one entry of
the answer states, and it does settle for an entry that it can.  The server's
window is held against the request where it stands in the answer, which is
refused if any entry has it with a larger value, or with none that may be agreed
on.  Where the entry leaves it out it is the greatest, whatever was requested. -/
theorem accept_within (built : s.Built) (entries : List String) :
    (∀ a, accept s entries = .ok (some a) →
      Allowed a.serverWindowBits ∧ Allowed a.clientWindowBits ∧
      (∀ requested, s.clientWindowBits = some requested → a.clientWindowBits ≤ requested) ∧
      (s.clientNoContext = true → a.clientNoContext = true) ∧
      ∃ entry offer, entries = [entry] ∧ Offer.parse entry = .ok offer ∧ Grants s offer a ∧
        (∀ bits, offer.States clientWindowName bits → a.clientWindowBits ≤ bits) ∧
        ∀ requested, s.serverWindowBits = some requested →
          offer.hasParam serverWindowName = true → a.serverWindowBits ≤ requested) ∧
    (∀ entry offer, entries = [entry] → Offer.parse entry = .ok offer → offer.Answers s →
      ∃ a, accept s entries = .ok (some a)) ∧
    ∀ entry ∈ entries, ∀ offer, Offer.parse entry = .ok offer →
      ∀ param ∈ offer.params, param.name = serverWindowName →
      ∀ requested, s.serverWindowBits = some requested →
      (∀ bits, param.window? = some bits → requested < bits) →
      ∃ problem, accept s entries = .error problem ∧
        problem.fault = .invalidExtension problem.text := by
  refine ⟨?_, ?_, ?_⟩
  · intro a accepted
    obtain ⟨-, ⟨⟩⟩ | ⟨entry, offer, only, parsed, answers, ⟨⟩⟩ := accept_eq_ok_iff.mp accepted
    have grants := grants_granted answers
    obtain ⟨serverWindow, clientWindow⟩ := allowed_granted built.sound offer.params
    refine ⟨serverWindow, clientWindow, ?_, ?_, entry, offer, only, parsed, grants, ?_, ?_⟩
    · intro requested limit
      have within := clientWindow_granted_le s offer.params
      rwa [limit, Option.getD_some] at within
    · intro asked
      exact grants.clientNoContext.mpr (.inr asked)
    · intro bits states
      rw [grants.clientWindow bits states]
      exact Nat.min_le_right _ _
    · intro requested limit present
      obtain ⟨bits, states⟩ := answers.states_of_hasParam List.mem_cons_self present
      rw [grants.serverWindow bits states]
      exact answers.within limit states
  · intro entry offer only parsed answers
    exact ⟨_, accept_eq_ok_iff.mpr (.inr ⟨entry, offer, only, parsed, answers, rfl⟩)⟩
  · intro entry among offer parsed param member is requested limit larger
    cases outcome : accept s entries with
    | error problem => exact ⟨problem, rfl, rfl⟩
    | ok accepted =>
        -- an answer that is taken has this entry alone, whose window is within the request
        obtain ⟨rfl, -⟩ | ⟨entry', offer', rfl, parsed', answers, -⟩ := accept_eq_ok_iff.mp outcome
        · cases among
        · cases List.mem_singleton.mp among
          cases parsed.symm.trans parsed'
          have answerable := answers.answerable param member
          obtain ⟨bits, states⟩ := answerable.valued (is ▸ List.mem_cons_self)
          exact absurd (answerable.within is bits states requested limit)
            (Nat.not_le.mpr (larger bits states))

/-- An answer within a request of both windows, and one whose server's window is
above it. -/
theorem accept_within_nine :
    let s : Settings := { serverWindowBits := some 10, clientWindowBits := some 12 }
    let entry := "permessage-deflate; client_max_window_bits=11; server_max_window_bits=9"
    let larger := "permessage-deflate; server_max_window_bits=11"
    s.Built ∧ accept s [entry] = .ok (some ⟨false, false, 9, 11⟩) ∧ 11 ≤ 12 ∧
      ∃ problem, accept s [larger] = .error problem ∧
        problem.fault = .invalidExtension problem.text := by
  intro s entry larger
  have limited : Settings.withServerWindow {} 10 = .ok { serverWindowBits := some 10 } := rfl
  have built : s.Built := .clientWindow (.serverWindow .usual limited)
    (rfl : Settings.withClientWindow { serverWindowBits := some 10 } 12 = .ok s)
  have accepted : accept s [entry] = .ok (some ⟨false, false, 9, 11⟩) := by decide +kernel
  have within : 11 ≤ 12 := ((accept_within built [entry]).1 _ accepted).2.2.1 12 rfl
  have parsed : Offer.parse larger =
      .ok ⟨deflateName, [.valued serverWindowName "11"]⟩ := by decide +kernel
  refine ⟨built, accepted, within, ?_⟩
  refine (accept_within built [larger]).2.2 larger List.mem_cons_self _ parsed
    (.valued serverWindowName "11") List.mem_cons_self rfl 10 rfl ?_
  intro bits states
  have eleven : (Param.valued serverWindowName "11").window? = some 11 := by decide +kernel
  cases eleven.symm.trans states
  decide

/-- A client that requested a small window of the server settles for the greatest
if the answer says nothing of it. -/
theorem accept_unlimited :
    ∃ s a, s.Built ∧ s.serverWindowBits = some 10 ∧ accept s ["permessage-deflate"] = .ok (some a) ∧
      a.serverWindowBits = 15 := by
  have limited : Settings.withServerWindow {} 10 = .ok { serverWindowBits := some 10 } := rfl
  exact ⟨_, ⟨false, false, 15, 15⟩, .serverWindow .usual limited, rfl, by decide +kernel, rfl⟩

end Agreement

end DeflateTrial.Extension
