/-
Negotiation — both ends come to the same agreement

The server merges an offer into its own settings, the client merges the answer
into its own, and the two merges start from different defaults.  Both end at
`Settings.agreed`: of the two window limits the smaller, and every flag that
either side set.

    client --offer--> server --response--> client

The offer and the answer travel as text, which is read back as it was written
(`Printing`), so the agreement is the same on both sides of the wire
(`accept_agree`).
-/
import DeflateTrial.Extension.Agreement
import DeflateTrial.Proofs.Extension.Printing
import DeflateTrial.Server.Answer

namespace DeflateTrial.Extension

/-! ## Settings -/

namespace Settings

/-- Settings that were made step by step from the usual ones. -/
inductive Built : Settings → Prop
  | usual : Built {}
  | serverNoContext {s} (set : Bool) : Built s → Built { s with serverNoContext := set }
  | clientNoContext {s} (set : Bool) : Built s → Built { s with clientNoContext := set }
  | serverWindow {s s' bits} : Built s → s.withServerWindow bits = .ok s' → Built s'
  | clientWindow {s s' bits} : Built s → s.withClientWindow bits = .ok s' → Built s'
  | threshold {s} (size : Nat) : Built s → Built { s with threshold := size }
  | level {s s' n} : Built s → s.withLevel n = .ok s' → Built s'

end Settings

/-- A window exponent that may be agreed on. -/
def Allowed (bits : Nat) : Prop :=
  minWindowBits ≤ bits ∧ bits ≤ maxWindowBits

instance (bits : Nat) : Decidable (Allowed bits) :=
  inferInstanceAs (Decidable (_ ∧ _))

theorem checkWindow_of_allowed (parameter : String) {bits : Nat} (h : Allowed bits) :
    checkWindow parameter bits = .ok bits :=
  if_pos h

theorem allowed_of_checkWindow {parameter : String} {bits bits' : Nat}
    (h : checkWindow parameter bits = .ok bits') : Allowed bits' := by
  unfold checkWindow at h
  split at h
  · next range =>
      cases h
      exact range
  · cases h

theorem exists_allowed_of_map {parameter : String} {bits : Nat} {set : Nat → Settings}
    {s : Settings} (h : (checkWindow parameter bits).map set = .ok s) :
    ∃ bits', Allowed bits' ∧ s = set bits' := by
  cases checked : checkWindow parameter bits with
  | error problem =>
      rw [checked] at h
      cases h
  | ok found =>
      rw [checked] at h
      cases h
      exact ⟨found, allowed_of_checkWindow checked, rfl⟩

namespace Settings

/-- Whatever windows settings ask for are allowed ones. -/
structure Sound (s : Settings) : Prop where
  serverWindow : ∀ bits, s.serverWindowBits = some bits → Allowed bits
  clientWindow : ∀ bits, s.clientWindowBits = some bits → Allowed bits

theorem Built.sound {s : Settings} (h : s.Built) : s.Sound := by
  induction h with
  | usual => exact ⟨nofun, nofun⟩
  | serverNoContext set _ ih => exact ⟨ih.serverWindow, ih.clientWindow⟩
  | clientNoContext set _ ih => exact ⟨ih.serverWindow, ih.clientWindow⟩
  | threshold size _ ih => exact ⟨ih.serverWindow, ih.clientWindow⟩
  | serverWindow _ made ih =>
      obtain ⟨bits, allowed, rfl⟩ := exists_allowed_of_map made
      exact ⟨fun _ h => by cases h; exact allowed, ih.clientWindow⟩
  | clientWindow _ made ih =>
      obtain ⟨bits, allowed, rfl⟩ := exists_allowed_of_map made
      exact ⟨ih.serverWindow, fun _ h => by cases h; exact allowed⟩
  | level _ made ih =>
      unfold withLevel at made
      split at made
      · cases made
      · cases made
        exact ⟨ih.serverWindow, ih.clientWindow⟩

/-- The smaller of the limits that were set, and the usual one if none was. -/
def least : Option Nat → Option Nat → Nat
  | none, none => maxWindowBits
  | some bits, none => bits
  | none, some bits => bits
  | some bits, some bits' => min bits bits'

theorem least_comm (asked asked' : Option Nat) : least asked asked' = least asked' asked := by
  cases asked <;> cases asked' <;> simp [least, Nat.min_comm]

/-- One limit after the other, where the usual one is the greatest. -/
theorem elim_min_eq_least {asked : Option Nat} (h : ∀ bits, asked = some bits → Allowed bits)
    (other : Option Nat) :
    asked.elim (other.getD maxWindowBits) (min (other.getD maxWindowBits)) = least asked other := by
  cases asked with
  | none => cases other <;> rfl
  | some bits =>
      cases other with
      | none => exact Nat.min_eq_right (h bits rfl).2
      | some bits' => exact Nat.min_comm bits' bits

theorem least_le {asked : Option Nat} {bits : Nat} (h : asked = some bits) (other : Option Nat) :
    least asked other ≤ bits := by
  subst h
  cases other with
  | none => exact Nat.le_refl _
  | some bits' => exact Nat.min_le_left _ _

theorem allowed_least {asked asked' : Option Nat} (h : ∀ bits, asked = some bits → Allowed bits)
    (h' : ∀ bits, asked' = some bits → Allowed bits) : Allowed (least asked asked') := by
  cases asked with
  | none =>
      cases asked' with
      | none => decide
      | some bits' => exact h' bits' rfl
  | some bits =>
      cases asked' with
      | none => exact h bits rfl
      | some bits' =>
          obtain ⟨low, high⟩ := h bits rfl
          obtain ⟨low', high'⟩ := h' bits' rfl
          exact ⟨Nat.le_min.mpr ⟨low, low'⟩, Nat.le_trans (Nat.min_le_left _ _) high⟩

theorem params_offer (s : Settings) :
    s.offer.params = flags s.serverNoContext s.clientNoContext
      ++ (s.serverWindowBits.map (windowParam serverWindowName)).toList
      ++ [s.clientWindowBits.elim (.flag clientWindowName) (windowParam clientWindowName)] := by
  rw [offer]
  cases s.serverWindowBits <;> cases s.clientWindowBits <;> rfl

/-- What a client and a server agree on. -/
def agreed (client server : Settings) : Agreement where
  serverNoContext := client.serverNoContext || server.serverNoContext
  clientNoContext := client.clientNoContext || server.clientNoContext
  serverWindowBits := least client.serverWindowBits server.serverWindowBits
  clientWindowBits := least client.clientWindowBits server.clientWindowBits

end Settings

/-! ## The texts -/

/-- A character that no part of the grammar gives a meaning. -/
def isToken (c : Char) : Bool :=
  !Text.isBlank c && c != ';' && c != ',' && c != '=' && c != '"'

/-- A parameter of an entry that is read back, also from a list of entries. -/
def Tame (param : Param) : Prop :=
  param.Plain ∧ ';' ∉ param.write.toList ∧ ',' ∉ param.write.toList

theorem not_blank_of_isToken {c : Char} (h : isToken c = true) : Text.isBlank c = false := by
  simp only [isToken, Bool.and_eq_true, Bool.not_eq_true'] at h
  exact h.1.1.1.1

theorem not_mem_of_isToken {cs : List Char} (h : cs.all isToken = true) {sep : Char}
    (hs : isToken sep = false) : sep ∉ cs := by
  intro member
  rw [List.all_eq_true.mp h sep member] at hs
  cases hs

theorem trimmed_of_isToken {cs : List Char} (h : cs.all isToken = true) : Text.Trimmed cs :=
  Text.trimmed_of_forall fun c hc => not_blank_of_isToken (List.all_eq_true.mp h c hc)

theorem tame_flag {name : String} (tokens : name.toList.all isToken = true)
    (named : name.toList ≠ []) : Tame (.flag name) := by
  refine ⟨⟨trimmed_of_isToken tokens, ?_, fun _ => named, nofun⟩, ?_, ?_⟩
  all_goals exact not_mem_of_isToken tokens (by decide)

theorem tame_windowParam {name : String} (tokens : name.toList.all isToken = true)
    (bits : Nat) : Tame (Settings.windowParam name bits) := by
  have digits : (Text.Decimal.write bits).toList.all isToken = true := by
    rw [Text.Decimal.write, String.toList_ofList, List.all_eq_true]
    intro c hc
    obtain ⟨d, lt, rfl⟩ := Text.Decimal.mem_digits hc
    exact (by decide : ∀ d < 10, isToken (Text.Decimal.digit d) = true) d lt
  have free {sep : Char} (hs : isToken sep = false) (other : sep ≠ '=') :
      sep ∉ (Settings.windowParam name bits).write.toList := by
    rw [Param.toList_write]
    intro h
    rcases List.mem_append.mp h with h | h
    · exact not_mem_of_isToken tokens hs h
    · rcases List.mem_cons.mp h with h | h
      · exact other h
      · exact not_mem_of_isToken digits hs h
  refine ⟨⟨trimmed_of_isToken tokens, not_mem_of_isToken tokens (by decide), nofun, ?_⟩,
    free (by decide) (by decide), free (by decide) (by decide)⟩
  rintro value ⟨⟩
  exact ⟨trimmed_of_isToken digits, Text.strip_of_not_mem (not_mem_of_isToken digits (by decide))⟩

theorem tame_flags (serverNoContext clientNoContext : Bool) :
    ∀ param ∈ Settings.flags serverNoContext clientNoContext, Tame param := by
  have server : Tame (.flag serverNoContextName) := tame_flag (by decide) (by decide)
  have client : Tame (.flag clientNoContextName) := tame_flag (by decide) (by decide)
  intro param h
  cases serverNoContext <;> cases clientNoContext <;>
    simp only [Settings.flags, if_true, Bool.false_eq_true, if_false, List.nil_append,
      List.append_nil, List.cons_append, List.mem_cons, List.not_mem_nil, or_false] at h
  · exact h ▸ client
  · exact h ▸ server
  · rcases h with rfl | rfl
    · exact server
    · exact client

theorem tame_serverWindow (bits : Nat) : Tame (Settings.windowParam serverWindowName bits) :=
  tame_windowParam (by decide) bits

theorem tame_clientWindow (bits : Nat) : Tame (Settings.windowParam clientWindowName bits) :=
  tame_windowParam (by decide) bits

theorem tame_offer (s : Settings) : ∀ param ∈ s.offer.params, Tame param := by
  intro param h
  rw [Settings.params_offer, List.mem_append, List.mem_append, List.mem_singleton] at h
  rcases h with (h | h) | rfl
  · exact tame_flags _ _ param h
  · obtain ⟨bits, -, rfl⟩ := Option.map_eq_some_iff.mp (Option.mem_toList.mp h)
    exact tame_serverWindow bits
  · cases s.clientWindowBits with
    | none => exact tame_flag (by decide) (by decide)
    | some bits => exact tame_clientWindow bits

theorem tame_response (a : Agreement) : ∀ param ∈ a.response.params, Tame param := by
  intro param h
  simp only [Agreement.response, List.mem_append, List.mem_cons, List.not_mem_nil, or_false] at h
  rcases h with h | rfl | rfl
  · exact tame_flags _ _ param h
  · exact tame_serverWindow _
  · exact tame_clientWindow _

theorem read_write {entry : Offer} (name : entry.name = deflateName)
    (tame : ∀ param ∈ entry.params, Tame param) :
    Handshake.Fields.listOf entry.write = [entry.write] ∧ Offer.parse entry.write = .ok entry := by
  have tokens : entry.name.toList.all isToken = true := by
    rw [name]
    decide
  have plain : entry.Plain := {
    name := trimmed_of_isToken tokens
    named := by rw [name]; decide
    undivided := not_mem_of_isToken tokens (by decide)
    params := fun param hp => ⟨(tame param hp).1, (tame param hp).2.1⟩ }
  exact ⟨Offer.listOf_write plain (not_mem_of_isToken tokens (by decide))
    fun param hp => (tame param hp).2.2, Offer.parse_write plain⟩

/-! ## The two merges -/

theorem Offer.repeated?_of_nodup {offer : Offer} (h : (offer.params.map (·.name)).Nodup) :
    offer.repeated? = none := by
  rw [repeated?]
  simp only [Option.map_eq_none_iff, List.find?_eq_none]
  rintro ⟨name, i⟩ member again
  rw [List.contains_iff_mem] at again
  obtain ⟨j, hj, found⟩ := List.getElem_of_mem again
  rw [List.length_take] at hj
  rw [List.getElem_take] at found
  obtain ⟨hi, here⟩ := List.getElem?_eq_some_iff.mp (List.mk_mem_zipIdx_iff_getElem?.mp member)
  have differ := List.pairwise_iff_getElem.mp h j i (by omega) hi (by omega)
  exact differ (found.trans here.symm)

/-- The parameters' names in the order in which they stand in an entry. -/
def paramNames : List String :=
  [serverNoContextName, clientNoContextName, serverWindowName, clientWindowName]

theorem names_flags (serverNoContext clientNoContext : Bool) :
    ((Settings.flags serverNoContext clientNoContext).map (·.name)).Sublist
      [serverNoContextName, clientNoContextName] := by
  cases serverNoContext <;> cases clientNoContext <;> decide

theorem refuseRepeated_of_sublist {entry : Offer}
    (h : (entry.params.map (·.name)).Sublist paramNames) :
    Agreement.refuseRepeated entry = .ok () := by
  have all : paramNames.Nodup := by decide
  rw [Agreement.refuseRepeated, Offer.repeated?_of_nodup (all.sublist h)]

theorem names_offer (s : Settings) : (s.offer.params.map (·.name)).Sublist paramNames := by
  have window : ((s.serverWindowBits.map (Settings.windowParam serverWindowName)).toList.map
      (·.name)).Sublist [serverWindowName] := by
    cases s.serverWindowBits with
    | none => exact List.nil_sublist _
    | some bits => exact List.Sublist.refl _
  have last : (s.clientWindowBits.elim (.flag clientWindowName)
      (Settings.windowParam clientWindowName)).name = clientWindowName := by
    cases s.clientWindowBits <;> rfl
  rw [Settings.params_offer, List.map_append, List.map_append, List.map_singleton, last]
  exact ((names_flags _ _).append window).append (List.Sublist.refl _)

theorem names_response (a : Agreement) : (a.response.params.map (·.name)).Sublist paramNames := by
  rw [Agreement.response, List.map_append]
  exact (names_flags _ _).append (List.Sublist.refl _)

theorem windowIn_write {param : Param} {bits : Nat} (h : Allowed bits) :
    windowIn param (Text.Decimal.write bits) = .ok bits := by
  have small : bits < 256 := Nat.lt_of_le_of_lt h.2 (by decide)
  rw [windowIn, Text.Decimal.readBelow?_write small]
  exact checkWindow_of_allowed _ h

theorem requiredWindow_windowParam (name : String) {bits : Nat} (h : Allowed bits) :
    requiredWindow (Settings.windowParam name bits) = .ok bits :=
  windowIn_write h

namespace Agreement

/-! ### The server's -/

section Server
variable (draft : Draft)

theorem serverTakes_serverNoContext : serverTakes draft (.flag serverNoContextName) =
    .ok { draft with terms := { draft.terms with serverNoContext := true } } := by
  simp [serverTakes, Param.flag]

theorem serverTakes_clientNoContext : serverTakes draft (.flag clientNoContextName) =
    .ok { draft with terms := { draft.terms with clientNoContext := true } } := by
  simp [serverTakes, Param.flag, clientNoContextName, serverNoContextName]

theorem serverTakes_serverWindow {bits : Nat} (h : Allowed bits) :
    serverTakes draft (Settings.windowParam serverWindowName bits) =
      .ok { draft with terms := { draft.terms with
        serverWindowBits := min draft.terms.serverWindowBits bits } } := by
  simp only [serverTakes, requiredWindow_windowParam _ h]
  rfl

theorem foldlM_serverTakes_flags (serverNoContext clientNoContext : Bool) :
    (Settings.flags serverNoContext clientNoContext).foldlM serverTakes draft =
      .ok { draft with terms := { draft.terms with
        serverNoContext := draft.terms.serverNoContext || serverNoContext
        clientNoContext := draft.terms.clientNoContext || clientNoContext } } := by
  cases serverNoContext <;> cases clientNoContext <;>
    simp [Settings.flags, List.foldlM, serverTakes_serverNoContext, serverTakes_clientNoContext,
      bind, Except.bind, pure, Except.pure]

theorem foldlM_serverTakes_serverWindow {asked : Option Nat}
    (h : ∀ bits, asked = some bits → Allowed bits) :
    (asked.map (Settings.windowParam serverWindowName)).toList.foldlM serverTakes draft =
      .ok { draft with terms := { draft.terms with
        serverWindowBits :=
          asked.elim draft.terms.serverWindowBits (min draft.terms.serverWindowBits) } } := by
  cases asked with
  | none => rfl
  | some bits =>
      rw [Option.map_some, Option.toList_some, List.foldlM_cons,
        serverTakes_serverWindow draft (h bits rfl)]
      rfl

theorem serverTakes_clientWindow {asked : Option Nat}
    (h : ∀ bits, asked = some bits → Allowed bits) :
    serverTakes draft
        (asked.elim (.flag clientWindowName) (Settings.windowParam clientWindowName)) =
      .ok { terms := { draft.terms with
              clientWindowBits := asked.getD draft.terms.clientWindowBits }
            clientWindowAllowed := true } := by
  cases asked with
  | none => rfl
  | some bits =>
      simp only [Option.elim_some, serverTakes, Settings.windowParam, Param.valued,
        windowIn_write (h bits rfl)]
      rfl

theorem foldlM_serverTakes_offer {client : Settings} (sound : client.Sound) :
    client.offer.params.foldlM serverTakes draft = .ok {
      terms := {
        serverNoContext := draft.terms.serverNoContext || client.serverNoContext
        clientNoContext := draft.terms.clientNoContext || client.clientNoContext
        serverWindowBits := client.serverWindowBits.elim draft.terms.serverWindowBits
          (min draft.terms.serverWindowBits)
        clientWindowBits := client.clientWindowBits.getD draft.terms.clientWindowBits }
      clientWindowAllowed := true } := by
  simp only [Settings.params_offer, List.foldlM_append, foldlM_serverTakes_flags, bind,
    Except.bind, foldlM_serverTakes_serverWindow _ sound.serverWindow, List.foldlM_cons,
    List.foldlM_nil, serverTakes_clientWindow _ sound.clientWindow]
  rfl

end Server

theorem ofOffer_offer {client server : Settings} (hc : client.Sound) (hs : server.Sound) :
    ofOffer server client.offer = .ok (client.agreed server) := by
  have limited (terms : Agreement) : limitClient server ⟨terms, true⟩ = { terms with
      clientWindowBits := server.clientWindowBits.elim terms.clientWindowBits
        (min terms.clientWindowBits) } := by
    rw [limitClient]
    cases server.clientWindowBits <;> rfl
  rw [ofOffer, refuseRepeated_of_sublist (names_offer client)]
  simp only [bind, Except.bind, foldlM_serverTakes_offer _ hc, pure, Except.pure, limited,
    serverDraft, Settings.elim_min_eq_least hc.serverWindow,
    Settings.elim_min_eq_least hs.clientWindow, Settings.agreed, Except.ok.injEq,
    Agreement.mk.injEq, true_and]
  exact ⟨Bool.or_comm _ _, Bool.or_comm _ _, Settings.least_comm _ _⟩

/-! ### The client's -/

section Client
variable (client : Settings) (a : Agreement)

theorem clientTakes_serverNoContext : clientTakes client a (.flag serverNoContextName) =
    .ok { a with serverNoContext := true } := by
  simp [clientTakes, Param.flag]

theorem clientTakes_clientNoContext : clientTakes client a (.flag clientNoContextName) =
    .ok { a with clientNoContext := true } := by
  simp [clientTakes, Param.flag, clientNoContextName, serverNoContextName]

theorem clientTakes_serverWindow {bits : Nat} (h : Allowed bits)
    (within : ∀ requested, client.serverWindowBits = some requested → bits ≤ requested) :
    clientTakes client a (Settings.windowParam serverWindowName bits) =
      .ok { a with serverWindowBits := bits } := by
  have other : serverWindowName ≠ serverNoContextName ∧ serverWindowName ≠ clientNoContextName := by
    decide
  rw [clientTakes, requiredWindow_windowParam _ h]
  simp only [Settings.windowParam, Param.valued, if_neg other.1, if_neg other.2, if_true,
    Except.bind]
  cases hr : client.serverWindowBits with
  | none => rfl
  | some requested => exact if_neg (Nat.not_lt.mpr (within requested hr))

theorem clientTakes_clientWindow {bits : Nat} (h : Allowed bits) :
    clientTakes client a (Settings.windowParam clientWindowName bits) =
      .ok { a with clientWindowBits := min a.clientWindowBits bits } := by
  rw [clientTakes, requiredWindow_windowParam _ h]
  rfl

theorem foldlM_clientTakes_flags (serverNoContext clientNoContext : Bool) :
    (Settings.flags serverNoContext clientNoContext).foldlM (clientTakes client) a =
      .ok { a with
        serverNoContext := a.serverNoContext || serverNoContext
        clientNoContext := a.clientNoContext || clientNoContext } := by
  cases serverNoContext <;> cases clientNoContext <;>
    simp [Settings.flags, List.foldlM, clientTakes_serverNoContext, clientTakes_clientNoContext,
      bind, Except.bind, pure, Except.pure]

end Client

theorem ofEntry_response {client server : Settings} (hc : client.Sound) (hs : server.Sound) :
    ofEntry client (client.agreed server).response = .ok (client.agreed server) := by
  have serverWindow : Allowed (client.agreed server).serverWindowBits :=
    Settings.allowed_least hc.serverWindow hs.serverWindow
  have clientWindow : Allowed (client.agreed server).clientWindowBits :=
    Settings.allowed_least hc.clientWindow hs.clientWindow
  have within (requested : Nat) (h : client.serverWindowBits = some requested) :
      (client.agreed server).serverWindowBits ≤ requested := Settings.least_le h _
  have kept : min (client.clientWindowBits.getD maxWindowBits)
      (client.agreed server).clientWindowBits = (client.agreed server).clientWindowBits := by
    apply Nat.min_eq_right
    cases asked : client.clientWindowBits with
    | none => exact clientWindow.2
    | some bits => exact Settings.least_le asked _
  rw [ofEntry, refuseRepeated_of_sublist (names_response _)]
  simp only [response, List.foldlM_append, foldlM_clientTakes_flags, List.foldlM_cons,
    List.foldlM_nil, clientTakes_serverWindow _ _ serverWindow within,
    clientTakes_clientWindow _ _ clientWindow, bind, Except.bind, pure, Except.pure, clientDraft,
    kept]
  simp [Settings.agreed]

/-- Each role's compressor has the window and the flag of the other role's
decompressor. -/
theorem window_deflater (a : Agreement) (role : Role) (s : Settings)
    (compressor : Deflate.Compressor) (limits : Limits) :
    (a.deflater role s compressor).window = (a.inflater role.peer limits).window ∧
      (a.deflater role s compressor).noContext = (a.inflater role.peer limits).noContext := by
  cases role <;> exact ⟨rfl, rfl⟩

theorem agree_offer {client : Settings} {server : Server} (hc : client.Sound)
    (hs : server.settings.Sound) :
    server.agree (Handshake.Fields.listOf client.offer.write) =
      some (client.agreed server.settings) := by
  have name : client.offer.name = deflateName := rfl
  obtain ⟨offered, offer⟩ := read_write name (tame_offer client)
  have read : [client.offer.write].filterMap (fun entry => (Offer.parse entry).toOption) =
      [client.offer] := by
    rw [List.filterMap_cons, offer]
    rfl
  have kept : [client.offer].filter (fun entry => decide (entry.name = deflateName)) =
      [client.offer] := by simp [name]
  rw [offered, Server.agree, read, negotiate, kept, List.findSome?_cons, ofOffer_offer hc hs]
  rfl

theorem accept_response {client server : Settings} (hc : client.Sound) (hs : server.Sound) :
    accept client (Handshake.Fields.listOf (client.agreed server).response.write) =
      .ok (some (client.agreed server)) := by
  have name : (client.agreed server).response.name = deflateName := rfl
  obtain ⟨answered, answer⟩ := read_write name (tame_response _)
  rw [answered, accept, List.foldlM_cons, acceptEntry, answer]
  simp only [bind, Except.bind, name, ofEntry_response hc hs, ne_eq, not_true_eq_false, if_false,
    Option.isSome_none, Bool.false_eq_true, pure, Except.pure, List.foldlM_nil]

/-- A client's offer, as text, brings the server to what is agreed, and the
server's answer to it, as text, brings the client there too; so what each side
compresses with fits what the other decompresses with. -/
theorem accept_agree {client : Settings} {server : Server} (hc : client.Built)
    (hs : server.settings.Built) :
    server.agree (Handshake.Fields.listOf client.offer.write) =
        some (client.agreed server.settings) ∧
      accept client (Handshake.Fields.listOf (client.agreed server.settings).response.write) =
        .ok (some (client.agreed server.settings)) ∧
      ∀ (role : Role) (s : Settings) (compressor : Deflate.Compressor) (limits : Limits),
        ((client.agreed server.settings).deflater role s compressor).window =
            ((client.agreed server.settings).inflater role.peer limits).window ∧
          ((client.agreed server.settings).deflater role s compressor).noContext =
            ((client.agreed server.settings).inflater role.peer limits).noContext :=
  ⟨agree_offer hc.sound hs.sound, accept_response hc.sound hs.sound, window_deflater _⟩

/-- A client that asks for one window and a server that asks for the other. -/
theorem accept_agree_windows :
    Server.agree { settings := { clientWindowBits := some 9, serverNoContext := true } }
        (Handshake.Fields.listOf (Settings.offer { serverWindowBits := some 10 }).write) =
      some ⟨true, false, 10, 9⟩ ∧
    accept { serverWindowBits := some 10 }
        (Handshake.Fields.listOf (response ⟨true, false, 10, 9⟩).write) =
      .ok (some ⟨true, false, 10, 9⟩) := by
  have asked : Settings.withServerWindow {} 10 = .ok { serverWindowBits := some 10 } := rfl
  have imposed : Settings.withClientWindow {} 9 = .ok { clientWindowBits := some 9 } := rfl
  have server : (Server.settings
      { settings := { clientWindowBits := some 9, serverNoContext := true } }).Built :=
    .serverNoContext true (.clientWindow .usual imposed)
  obtain ⟨offered, answered, -⟩ := accept_agree (.serverWindow .usual asked) server
  exact ⟨offered, answered⟩

end Agreement

end DeflateTrial.Extension
