/-
Granting — what a client asks is granted, and what is granted is what it asked

A plan that addresses an endpoint writes a request that the server reads,
answers under the agreement that the two settings come to, and whose answer
the client takes for its own (`answer_request`, `conclude_response`).

    client --request--> server --response--> client

Both heads stay far below the size that a head may have, and each ends where
its blank line does, so neither end takes a byte too many or waits for one
too few.
-/
import DeflateTrial.Proofs.Extension.Entries
import DeflateTrial.Server.Conversation
import DeflateTrial.Session.Opening

namespace DeflateTrial

/-! ## Settings -/

/-- A configuration whose windows are absent or may be agreed on. -/
structure Extension.WindowsAllowed (c : Configuration) : Prop where
  server : ∀ bits, c.serverWindowBits = some bits → Allowed bits
  client : ∀ bits, c.clientWindowBits = some bits → Allowed bits

namespace Extension.Settings

theorem Built.level_le {s : Settings} (h : s.Built) : s.level ≤ 9 := by
  induction h with
  | usual => decide
  | serverNoContext _ _ ih => exact ih
  | clientNoContext _ _ ih => exact ih
  | threshold _ _ ih => exact ih
  | serverWindow _ made ih =>
      obtain ⟨bits, -, rfl⟩ := exists_allowed_of_map made
      exact ih
  | clientWindow _ made ih =>
      obtain ⟨bits, -, rfl⟩ := exists_allowed_of_map made
      exact ih
  | level _ made ih =>
      unfold withLevel at made
      split at made
      · cases made
      · rename_i within
        cases made
        exact Nat.not_lt.mp within

theorem whenGiven_withServerWindow {s : Settings} {asked : Option Nat}
    (h : ∀ bits, asked = some bits → Allowed bits) (fresh : s.serverWindowBits = none) :
    whenGiven withServerWindow asked s = .ok { s with serverWindowBits := asked } := by
  cases asked with
  | none => rw [whenGiven, ← fresh]
  | some bits =>
      rw [whenGiven, withServerWindow, checkWindow_of_allowed _ (h bits rfl)]
      rfl

theorem whenGiven_withClientWindow {s : Settings} {asked : Option Nat}
    (h : ∀ bits, asked = some bits → Allowed bits) (fresh : s.clientWindowBits = none) :
    whenGiven withClientWindow asked s = .ok { s with clientWindowBits := asked } := by
  cases asked with
  | none => rw [whenGiven, ← fresh]
  | some bits =>
      rw [whenGiven, withClientWindow, checkWindow_of_allowed _ (h bits rfl)]
      rfl

theorem ofConfiguration_ok {c : Configuration} (windows : WindowsAllowed c) :
    ∃ settings, ofConfiguration c = .ok settings ∧
      (∀ s, settings = some s → s.Sound ∧ s.level ≤ 9) ∧ settings.isSome = c.enabled := by
  cases enabled : c.enabled with
  | false => exact ⟨none, by simp [ofConfiguration, enabled], nofun, rfl⟩
  | true =>
      refine ⟨some {
        serverNoContext := c.serverNoContext
        clientNoContext := c.clientNoContext
        serverWindowBits := c.serverWindowBits
        clientWindowBits := c.clientWindowBits
        threshold := c.threshold.getD usualThreshold }, ?_, ?_, rfl⟩
      · simp only [ofConfiguration, enabled, Bool.not_true, Bool.false_eq_true, if_false,
          whenGiven_withServerWindow windows.server, whenGiven_withClientWindow windows.client,
          Except.bind, Except.map]
      · rintro s ⟨⟩
        exact ⟨⟨windows.server, windows.client⟩, (by decide : 6 ≤ 9)⟩

end Extension.Settings

/-! ## How long heads are -/

theorem Bytes.length_ofText_le (text : String) : (ofText text).length ≤ 4 * text.length := by
  rw [ofText_eq_flatMap, ← String.length_toList]
  induction text.toList with
  | nil => exact Nat.le_refl 0
  | cons c cs ih =>
      have one : (String.utf8EncodeChar c).length ≤ 4 := by
        rw [String.length_utf8EncodeChar]
        exact Char.utf8Size_le_four c
      rw [List.flatMap_cons, List.length_append, List.length_cons]
      omega

namespace Handshake

theorem length_textOf_le {lines : List String} {most : Nat}
    (short : ∀ line ∈ lines, line.length ≤ most) :
    (textOf lines).length ≤ lines.length * (most + 2) := by
  induction lines with
  | nil => exact Nat.zero_le _
  | cons line lines ih =>
      have here := short line List.mem_cons_self
      have rest := ih fun other member => short other (List.mem_cons_of_mem _ member)
      rw [textOf, String.length_append, String.length_append, show lineEnd.length = 2 from rfl,
        List.length_cons, Nat.succ_mul]
      omega

theorem Fields.length_shownLine (field : String × String) :
    (shownLine field).length = field.1.length + field.2.length + 2 := by
  rw [shownLine, String.length_append, String.length_append, show ": ".length = 2 from rfl]
  omega

theorem length_encode (bytes : Bytes) :
    (Digest.Base64.encode bytes).length = (bytes.length + 2) / 3 * 4 := by
  rw [Digest.Base64.encode, String.length_ofList, Digest.Base64.length_encodeChars]

theorem length_digest (message : Bytes) : (Digest.Sha1.digest message).length = 20 := by
  simp [Digest.Sha1.digest, Digest.bytesBig, Digest.bytesLittle]

theorem length_acceptFor (key : String) : (acceptFor key).length = 28 := by
  rw [acceptFor, length_encode, length_digest]

theorem size_head_le {first : String} {shown : Fields} (start : first.length ≤ 100)
    (count : shown.length ≤ 6)
    (each : ∀ field ∈ shown, field.1.length ≤ 24 ∧ field.2.length ≤ 150) :
    (Bytes.ofText (textOf (first :: shown.map Fields.shownLine ++ [""]))).length ≤
      Limits.handshakeSize {} := by
  have short : ∀ line ∈ first :: shown.map Fields.shownLine ++ [""], line.length ≤ 176 := by
    intro line member
    rw [List.cons_append, List.mem_cons, List.mem_append, List.mem_map,
      List.mem_singleton] at member
    rcases member with rfl | ⟨field, given, rfl⟩ | rfl
    · omega
    · have := each field given
      rw [Fields.length_shownLine]
      omega
    · decide
  have text := length_textOf_le short
  rw [List.cons_append, List.length_cons, List.length_append, List.length_map,
    List.length_singleton] at text
  have bytes := Bytes.length_ofText_le (textOf (first :: shown.map Fields.shownLine ++ [""]))
  have limit : Limits.handshakeSize {} = 8192 := rfl
  rw [List.cons_append] at bytes ⊢
  omega

end Handshake

namespace Session.Plan

open Extension (Agreement Settings)
open Handshake (textOf keyOf)

/-- A plan that a server with an endpoint at the plan's path can do right by. -/
structure Addresses (plan : Plan) (endpoint : Endpoint) : Prop where
  authority : Text.Unbroken plan.target.authority
  short : plan.target.authority.length ≤ 100
  path : Endpoint.ofPath? plan.target.path = some endpoint
  settings : ∀ s, plan.settings = some s → s.Sound ∧ s.level ≤ 9

/-- What a plan comes to with a server. -/
def terms (plan : Plan) (server : Server) : Option Agreement :=
  plan.settings.map (·.agreed server.settings)

/-- The head of the request. -/
def requestHead (plan : Plan) (nonce : Bytes) : Bytes :=
  Bytes.ofText (textOf ((plan.request (keyOf nonce)).texts ++ [""]))

/-- The request as the server reads it. -/
def received (plan : Plan) (nonce : Bytes) : Handshake.Request where
  path := plan.target.path
  host := Text.trimmed plan.target.authority
  key := keyOf nonce
  version := 13
  extensions := (((plan.settings.map fun s => s.offer.write).map Text.trimmed).map
    Handshake.Fields.listOf).getD []

/-- The head of the response. -/
def responseHead (plan : Plan) (server : Server) (nonce : Bytes) : Bytes :=
  Bytes.ofText (textOf (Handshake.Response.texts (Handshake.acceptFor (keyOf nonce))
    ((plan.terms server).map (·.response.write)) ++ [""]))

/-! ## The request -/

section
variable {plan : Plan} {endpoint : Endpoint} {server : Server} {nonce : Bytes}

theorem path_of_addresses (addresses : plan.Addresses endpoint) :
    (plan.target.path.toList ≠ [] ∧ ∀ c ∈ plan.target.path.toList, Text.isBlank c = false) ∧
      plan.target.path.length ≤ 5 := by
  have path := addresses.path
  unfold Endpoint.ofPath? at path
  split at path
  · rename_i is
    rw [is]
    exact ⟨⟨by decide, by simp [Text.isBlank]⟩, by decide⟩
  · split at path
    · rename_i is
      rw [is]
      exact ⟨⟨by decide, by simp [Text.isBlank]⟩, by decide⟩
    · cases path

theorem sendable_request (addresses : plan.Addresses endpoint) (nonce : Bytes) :
    (plan.request (keyOf nonce)).Sendable where
  host := addresses.authority
  path := (path_of_addresses addresses).1
  key := (Handshake.trimmed_encode nonce).1
  extensions := by
    rintro value given
    obtain ⟨s, has, rfl⟩ := Option.map_eq_some_iff.mp given
    exact (Extension.fits_offer (addresses.settings s has).1).whole

theorem requestText_ok (addresses : plan.Addresses endpoint) (nonce : Bytes) :
    ∃ text, plan.requestText (keyOf nonce) = .ok text ∧
      Bytes.ofText text = plan.requestHead nonce := by
  refine ⟨_, ?_, rfl⟩
  rw [requestText, Handshake.ClientRequest.write_ok (sendable_request addresses nonce).writable]

theorem headSize?_requestHead (addresses : plan.Addresses endpoint) (nonce : Bytes) :
    Handshake.headSize? (plan.requestHead nonce) = some (plan.requestHead nonce).length :=
  Handshake.headSize?_ofText (List.cons_ne_nil _ _)
    (Handshake.ClientRequest.solid_texts (sendable_request addresses nonce))

theorem size_requestHead (addresses : plan.Addresses endpoint) (sixteen : nonce.length = 16) :
    (plan.requestHead nonce).length ≤ Limits.handshakeSize {} := by
  have names := (plan.request (keyOf nonce)).names_shown
  refine Handshake.size_head_le ?_ ?_ fun field member => ⟨?_, ?_⟩
  · have path := (path_of_addresses addresses).2
    rw [Handshake.ClientRequest.firstLine, String.length_append, String.length_append,
      show "GET ".length = 4 from rfl, show " HTTP/1.1".length = 9 from rfl]
    exact Nat.le_trans (Nat.add_le_add_right (Nat.add_le_add_left path 4) 9) (by decide)
  · have count := names.length_le
    rw [List.length_map] at count
    exact count
  · exact (by decide : ∀ name ∈ Handshake.ClientRequest.names, name.length ≤ 24) _
      (names.subset (List.mem_map_of_mem member))
  · simp only [Handshake.ClientRequest.shown, List.mem_append, List.mem_cons, List.not_mem_nil,
      or_false, Option.mem_toList, Option.map_eq_some_iff] at member
    rcases member with (rfl | rfl | rfl | rfl | rfl) | ⟨value, given, rfl⟩
    · exact Nat.le_trans addresses.short (by decide)
    · exact (by decide : "websocket".length ≤ 150)
    · exact (by decide : "Upgrade".length ≤ 150)
    · change (keyOf nonce).length ≤ 150
      rw [keyOf, Handshake.length_encode, sixteen]
      decide
    · exact (by decide : "13".length ≤ 150)
    · obtain ⟨s, has, rfl⟩ := Option.map_eq_some_iff.mp given
      exact (Extension.fits_offer (addresses.settings s has).1).short

/-! ## The answer -/

theorem fits_entry (addresses : plan.Addresses endpoint) (built : server.settings.Built)
    {value : String} (given : (plan.terms server).map (·.response.write) = some value) :
    Extension.Fits value := by
  obtain ⟨agreement, agreed, rfl⟩ := Option.map_eq_some_iff.mp given
  obtain ⟨s, has, rfl⟩ := Option.map_eq_some_iff.mp agreed
  exact Extension.fits_response (addresses.settings s has).1 built.sound

theorem parse_requestHead (addresses : plan.Addresses endpoint) (nonce : Bytes) :
    Handshake.Request.parse (plan.requestHead nonce) = .ok (plan.received nonce) := by
  have key : Text.trimmed (plan.request (keyOf nonce)).key = keyOf nonce :=
    (Handshake.trimmed_encode nonce).2
  have parsed := Handshake.ClientRequest.parse_texts (sendable_request addresses nonce)
  rw [key] at parsed
  exact parsed

theorem validate_received (plan : Plan) (sixteen : nonce.length = 16) :
    (plan.received nonce).validate = .ok () := by
  have decoded : Digest.Base64.decode? (plan.received nonce).key = some nonce :=
    Digest.Base64.decode?_encode nonce
  rw [Handshake.Request.validate, decoded]
  simp only [received, ne_eq, not_true_eq_false, if_false, sixteen, if_true]

theorem agree_received (addresses : plan.Addresses endpoint) (built : server.settings.Built)
    (nonce : Bytes) : server.agree (plan.received nonce).extensions = plan.terms server := by
  rw [received, terms]
  cases has : plan.settings with
  | none => rfl
  | some s =>
      have sound := (addresses.settings s has).1
      simp only [Option.map_some, Option.getD_some, (Extension.fits_offer sound).trimmed]
      exact Agreement.agree_offer sound built.sound

theorem answer_request (addresses : plan.Addresses endpoint) (built : server.settings.Built)
    (sixteen : nonce.length = 16) :
    server.answer (plan.requestHead nonce) = .grant endpoint (plan.terms server)
      ⟨Handshake.acceptFor (keyOf nonce),
        ((plan.terms server).map (·.response.write)).toList⟩ := by
  have read : Server.readRequest (plan.requestHead nonce) = .ok (plan.received nonce) := by
    rw [Server.readRequest, parse_requestHead addresses]
    simp only [bind, Except.bind, validate_received plan sixteen]
    rfl
  have path : Endpoint.ofPath? (plan.received nonce).path = some endpoint := addresses.path
  rw [Server.answer, read]
  simp only [path, agree_received addresses built]
  rfl

theorem text?_answer (addresses : plan.Addresses endpoint) (built : server.settings.Built)
    (nonce : Bytes) :
    ∃ text, Server.Answer.text? (.grant endpoint (plan.terms server)
        ⟨Handshake.acceptFor (keyOf nonce),
          ((plan.terms server).map (·.response.write)).toList⟩) = some text ∧
      Bytes.ofText text = plan.responseHead server nonce := by
  refine ⟨_, ?_, rfl⟩
  rw [Server.Answer.text?, Handshake.Response.write_ok fun _ given =>
    (fits_entry addresses built given).whole]

theorem headSize?_responseHead (addresses : plan.Addresses endpoint)
    (built : server.settings.Built) (nonce : Bytes) :
    Handshake.headSize? (plan.responseHead server nonce) =
      some (plan.responseHead server nonce).length :=
  Handshake.headSize?_ofText (List.cons_ne_nil _ _)
    (Handshake.Response.solid_texts (Handshake.trimmed_acceptFor _).1 fun _ given =>
      (fits_entry addresses built given).whole)

theorem responseHead_ne_nil (addresses : plan.Addresses endpoint)
    (built : server.settings.Built) (nonce : Bytes) : plan.responseHead server nonce ≠ [] := by
  intro empty
  have ends := headSize?_responseHead addresses built nonce
  rw [empty] at ends
  cases ends

theorem size_responseHead (addresses : plan.Addresses endpoint)
    (built : server.settings.Built) (nonce : Bytes) :
    (plan.responseHead server nonce).length ≤ Limits.handshakeSize {} := by
  have names := Handshake.Response.names_shown (Handshake.acceptFor (keyOf nonce))
    ((plan.terms server).map (·.response.write))
  refine Handshake.size_head_le (by decide) ?_ fun field member => ⟨?_, ?_⟩
  · have count := names.length_le
    rw [List.length_map] at count
    exact Nat.le_trans count (by decide)
  · exact (by decide : ∀ name ∈ Handshake.Response.names, name.length ≤ 24) _
      (names.subset (List.mem_map_of_mem member))
  · simp only [Handshake.Response.shown, List.mem_append, List.mem_cons, List.not_mem_nil,
      or_false, Option.mem_toList, Option.map_eq_some_iff] at member
    rcases member with (rfl | rfl | rfl) | ⟨value, given, rfl⟩
    · exact (by decide : "websocket".length ≤ 150)
    · exact (by decide : "Upgrade".length ≤ 150)
    · change (Handshake.acceptFor (keyOf nonce)).length ≤ 150
      rw [Handshake.length_acceptFor]
      decide
    · exact (fits_entry addresses built (Option.map_eq_some_iff.mpr given)).short

theorem agree_answered (addresses : plan.Addresses endpoint) (built : server.settings.Built) :
    plan.agree (((((plan.terms server).map (·.response.write)).map Text.trimmed).map
      Handshake.Fields.listOf).getD []) = .ok (plan.terms server) := by
  rw [agree, terms]
  cases has : plan.settings with
  | none => rfl
  | some s =>
      have sound := (addresses.settings s has).1
      simp only [Option.map_some, Option.getD_some,
        (Extension.fits_response sound built.sound).trimmed,
        Agreement.accept_response sound built.sound]
      rfl

/-- What is granted is what the plan asked, and the client takes it for that. -/
theorem conclude_response (addresses : plan.Addresses endpoint) (built : server.settings.Built)
    (nonce leftover : Bytes) (limits : Limits) (seed : UInt32) (compressor : Deflate.Compressor) :
    plan.conclude limits (keyOf nonce) seed (plan.responseHead server nonce) leftover compressor =
      .ok (plan.halves limits seed leftover (plan.terms server) compressor) := by
  have accept := Handshake.trimmed_acceptFor (keyOf nonce)
  have parsed := Handshake.Response.parse_texts accept.1 fun _ given =>
    (fits_entry addresses built given).whole
  rw [accept.2] at parsed
  have verified (entries : List String) : (⟨Handshake.acceptFor (keyOf nonce), entries⟩ :
      Handshake.Response).verify (keyOf nonce) = .ok () := if_pos rfl
  rw [conclude, responseHead, parsed]
  simp only [handshakeFault_ok, bind, Except.bind, verified, agree_answered addresses built]
  rfl

end

end Session.Plan

end DeflateTrial
