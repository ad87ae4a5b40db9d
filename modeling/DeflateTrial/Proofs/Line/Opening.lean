/-
Openings — a line to the reference server comes to be, and is idle

While the opening lasts there is one head between the two ends: the request on
its way to the server, or the response on its way back (`Asked`, `Answered`).
Turns of any kind lead from the one to the other and never back
(`stands_turns`), and one round of all that is due brings the response to the
client, who starts a session with it (`knock_ok`).  Both ends begin with the
same agreement, so the line that comes to be is joined in both directions.
-/
import DeflateTrial.Proofs.Handshake.Arrival
import DeflateTrial.Proofs.Handshake.Granting
import DeflateTrial.Proofs.Line.Exchange

namespace DeflateTrial

/-! ## An idle line begins -/

namespace Line

open Session (Plan)
open Extension (Agreement)

section
variable {plan : Plan} {endpoint : Endpoint} {server : Server} {compressor : Deflate.Compressor}
  {nonce : Bytes} {size worst : Nat}

/-- How much two ends may send to each other under what they agreed on: a
message goes into a frame as it is and, if they compress, also compressed. -/
structure Roomy (compressor : Deflate.Compressor) (size : Nat)
    (terms : Option Agreement) : Prop where
  plain : size ≤ Limits.frameSize {}
  compressed : terms.isSome = true → ∃ worst,
    compressor.Swells size worst ∧ size + worst ≤ Limits.frameSize {}

theorem ready_new {terms : Option Agreement} (roomy : Roomy compressor size terms)
    (frames : Frame.Writer) (role : Role) (settings : Extension.Settings) :
    Message.Writer.Ready size
      (.new frames (terms.map (·.deflater role settings compressor)) {}) where
  open_ := rfl
  limits := rfl
  plain := roomy.plain
  compressed := by
    rintro deflater has
    obtain ⟨agreement, agreed, rfl⟩ := Option.map_eq_some_iff.mp has
    rw [agreed] at roomy
    cases role <;> exact roomy.compressed rfl

/-- The session that a plan opens, once its opening has been pulled. -/
def begun (plan : Plan) (server : Server) (compressor : Deflate.Compressor) (seed : UInt32)
    (source : Source) : Session :=
  let session := Session.start (plan.halves {} seed [] (plan.terms server) compressor)
    (Transport.closeTimeout {}) source
  { session with queue := (Session.opened session.queue).2 }

/-- A line whose two ends begin with the same terms, and with nothing between
them, is idle. -/
theorem idle_begun (sound : compressor.Sound) (addresses : plan.Addresses endpoint)
    (built : server.settings.Built) (plain : server.transport = {})
    (roomy : Roomy compressor size (plan.terms server)) (seed : UInt32) {source : Source}
    {sent : List Outgoing} {connection : Server.Connection}
    (stage : connection.stage =
      Server.Connection.talk server endpoint (plan.terms server) [] compressor)
    (rising : Between connection.source sent []) (falling : Between source connection.sent []) :
    Idle endpoint size ⟨{ begun plan server compressor seed source with sent }, connection⟩ := by
  have wide : 125 ≤ Limits.frameSize {} := by decide
  have client_level : (plan.settings.getD {}).level ≤ 9 := by
    cases has : plan.settings with
    | none => exact (by decide : 6 ≤ 9)
    | some s => exact (addresses.settings s has).2
  have up := Message.joined_new sound .client wide (plan.terms server) client_level seed
  have down := Message.joined_new sound .server wide (plan.terms server) built.level_le 0
  rw [Server.Connection.talk, plain] at stage
  exact ⟨⟨_, _, []⟩, ⟨_, _, []⟩, {
      reading := rfl
      writing := rfl
      writer := rfl
      commands := rfl
      held := rfl
      deadline := rfl
      events := rfl
      live := rfl
      sinks := (by decide : 3 ≠ 0)
      stage
      rising
      falling }, ⟨rfl, up, ready_new roomy _ _ _⟩, ⟨rfl, down, ready_new roomy _ _ _⟩⟩

end

/-! ## Turns of an opening -/

namespace Opening

section
variable {plan : Plan} {endpoint : Endpoint} {server : Server} {compressor : Deflate.Compressor}
  {nonce : Bytes} {opening : Opening}

/-- Where an opening stands: what the server's end is at, and what is between
the two ends. -/
structure At (opening : Opening) (server : Server) (compressor : Deflate.Compressor)
    (stage : Server.Stage) (up down : Bytes) : Prop where
  server : opening.server.server = server
  compressor : opening.server.compressor = compressor
  stage : opening.server.stage = stage
  rising : Between opening.server.source opening.sent up
  falling : Between opening.source opening.server.sent down

/-- The request is between the two ends. -/
def Asked (opening : Opening) (plan : Plan) (server : Server) (compressor : Deflate.Compressor)
    (nonce : Bytes) : Prop :=
  opening.At server compressor (.opening []) (plan.requestHead nonce) []

/-- The response is between the two ends. -/
def Answered (opening : Opening) (plan : Plan) (endpoint : Endpoint) (server : Server)
    (compressor : Deflate.Compressor) (nonce : Bytes) : Prop :=
  opening.At server compressor
    (Server.Connection.talk server endpoint (plan.terms server) [] compressor) []
    (plan.responseHead server nonce)

theorem at_up {stage : Server.Stage} {up down : Bytes}
    (stands : opening.At server compressor stage up down) (count : Nat) :
    (opening.turn (.up count)).At server compressor stage up down :=
  { stands with rising := stands.rising.carried count }

theorem at_down {stage : Server.Stage} {up down : Bytes}
    (stands : opening.At server compressor stage up down) (count : Nat) :
    (opening.turn (.down count)).At server compressor stage up down :=
  { stands with falling := stands.falling.carried count }

theorem takeHead_requestHead (addresses : plan.Addresses endpoint)
    (built : server.settings.Built) (sixteen : nonce.length = 16)
    {connection : Server.Connection} (is : connection.server = server) :
    connection.takeHead (plan.requestHead nonce) [] = { connection with
      sent := connection.sent ++ [.bytes (plan.responseHead server nonce)]
      stage := Server.Connection.talk server endpoint (plan.terms server) []
        connection.compressor } := by
  obtain ⟨text, written, bytes⟩ := Plan.text?_answer addresses built nonce
  have some := Plan.responseHead_ne_nil addresses built nonce
  subst is
  simp only [Server.Connection.takeHead, Plan.answer_request addresses built sixteen, written,
    bytes, Server.Connection.put, List.isEmpty_iff, some, if_false]

theorem serve_of_asked (addresses : plan.Addresses endpoint) (built : server.settings.Built)
    (plain : server.transport = {}) (sixteen : nonce.length = 16)
    (asked : opening.Asked plan server compressor nonce) :
    (Outgoing.allBytes opening.sent ≠ [] ∧ opening.turn .serve = opening) ∨
      (opening.turn .serve).Answered plan endpoint server compressor nonce := by
  have ends := Plan.headSize?_requestHead addresses nonce
  have small := Plan.size_requestHead addresses sixteen
  obtain ⟨noEnd, pieces, came, whole⟩ := asked.rising
  by_cases missing : Outgoing.allBytes opening.sent = []
  · rw [missing, List.append_nil] at whole
    obtain ⟨rest, none, taken⟩ := Handshake.readHead_of_whole ends small whole
    have moved : opening.server.step = some { opening.server with
        source := .arrived rest false
        sent := opening.server.sent ++ [.bytes (plan.responseHead server nonce)]
        stage := Server.Connection.talk server endpoint (plan.terms server) []
          opening.server.compressor } := by
      have read : Handshake.readHead opening.server.server.transport.limits []
          opening.server.source =
            (.ready (.ok (plan.requestHead nonce)), [], .arrived rest false) := by
        rw [asked.server, plain, came]
        exact taken
      rw [Server.Connection.step_of_head asked.stage read]
      exact congrArg some (takeHead_requestHead addresses built sixteen asked.server)
    refine .inr ?_
    rw [turn, moved, Option.getD_some]
    exact {
      server := asked.server
      compressor := asked.compressor
      stage := by rw [asked.compressor]
      rising := ⟨noEnd, rest, rfl, by rw [none, missing]; rfl⟩
      falling := asked.falling.append _ }
  · obtain ⟨buffer, source, waits⟩ := Handshake.readHead_of_part ends small whole missing
    refine .inl ⟨missing, ?_⟩
    have stays : opening.server.step = none := by
      simp only [Server.Connection.step, asked.stage, asked.server, plain, came, waits]
    simp only [turn, stays, Option.getD_none]

theorem turn_serve_of_answered (answered : opening.Answered plan endpoint server compressor nonce) :
    opening.turn .serve = opening := by
  obtain ⟨-, pieces, came, whole⟩ := answered.rising
  obtain ⟨reader, source, waits⟩ : ∃ reader source,
      Message.Reader.next (.new (.new .server server.transport.limits [])
        ((plan.terms server).map (·.inflater .server server.transport.limits)))
        (.arrived pieces false) = (.waiting, reader, source) :=
    Message.Reader.next_of_nothing rfl (List.append_eq_nil_iff.mp whole).1
  have stays : opening.server.step = none := by
    simp only [Server.Connection.step, answered.stage, Server.Connection.talk, came, waits]
  simp only [turn, stays, Option.getD_none]

/-- An opening that goes on as it should. -/
def Proper (opening : Opening) (plan : Plan) (endpoint : Endpoint) (server : Server)
    (compressor : Deflate.Compressor) (nonce : Bytes) : Prop :=
  opening.Asked plan server compressor nonce ∨
    opening.Answered plan endpoint server compressor nonce

theorem proper_turn (addresses : plan.Addresses endpoint) (built : server.settings.Built)
    (plain : server.transport = {}) (sixteen : nonce.length = 16)
    (proper : opening.Proper plan endpoint server compressor nonce) (turn : Turn) :
    (opening.turn turn).Proper plan endpoint server compressor nonce := by
  cases turn with
  | serve =>
      rcases proper with asked | answered
      · obtain ⟨-, same⟩ | next := serve_of_asked addresses built plain sixteen asked
        · rw [same]
          exact .inl asked
        · exact .inr next
      · rw [turn_serve_of_answered answered]
        exact .inr answered
  | up count => exact proper.imp (at_up · count) (at_up · count)
  | down count => exact proper.imp (at_down · count) (at_down · count)
  | read => exact proper
  | write => exact proper
  | elapse _ => exact proper

theorem proper_turns (addresses : plan.Addresses endpoint) (built : server.settings.Built)
    (plain : server.transport = {}) (sixteen : nonce.length = 16)
    (proper : opening.Proper plan endpoint server compressor nonce) (turns : List Turn) :
    (opening.turns turns).Proper plan endpoint server compressor nonce := by
  induction turns generalizing opening with
  | nil => exact proper
  | cons turn turns ih => exact ih (proper_turn addresses built plain sixteen proper turn)

theorem answered_round (addresses : plan.Addresses endpoint) (built : server.settings.Built)
    (plain : server.transport = {}) (sixteen : nonce.length = 16)
    (proper : opening.Proper plan endpoint server compressor nonce) :
    opening.round.Answered plan endpoint server compressor nonce ∧
      Outgoing.allBytes opening.round.server.sent = [] := by
  refine ⟨at_down ?_ _, allBytes_carry ..⟩
  rcases proper with asked | answered
  · obtain ⟨missing, -⟩ | next := serve_of_asked addresses built plain sixteen
      (at_up asked (Outgoing.allBytes opening.sent).length)
    · exact absurd (allBytes_carry ..) missing
    · exact next
  · have arrived := at_up answered (Outgoing.allBytes opening.sent).length
    rw [turn_serve_of_answered arrived]
    exact arrived

/-! ## What an opening comes to -/

theorem complete_of_part (addresses : plan.Addresses endpoint) (built : server.settings.Built)
    {pieces : List Bytes} (came : opening.source = .arrived pieces false) {more : Bytes}
    (part : pieces.flatten ++ more = plan.responseHead server nonce) (missing : more ≠ [])
    (seed : UInt32) :
    opening.complete compressor plan (Handshake.keyOf nonce) seed = .waiting := by
  have ends := Plan.headSize?_responseHead addresses built nonce
  have small := Plan.size_responseHead addresses built nonce
  obtain ⟨buffer, source, waits⟩ := Handshake.readHead_of_part ends small part missing
  rw [← came] at waits
  simp only [complete, Plan.complete, Plan.establish, waits]

theorem complete_of_asked (addresses : plan.Addresses endpoint) (built : server.settings.Built)
    (asked : opening.Asked plan server compressor nonce) (seed : UInt32) :
    opening.complete compressor plan (Handshake.keyOf nonce) seed = .waiting := by
  obtain ⟨-, pieces, came, whole⟩ := asked.falling
  have part :
      pieces.flatten ++ plan.responseHead server nonce = plan.responseHead server nonce := by
    rw [(List.append_eq_nil_iff.mp whole).1, List.nil_append]
  exact complete_of_part addresses built came part (Plan.responseHead_ne_nil addresses built nonce)
    seed

/-- When all of the response is there, a session begins on an idle line; before
that the client waits. -/
theorem complete_of_answered {size : Nat} (sound : compressor.Sound)
    (addresses : plan.Addresses endpoint) (built : server.settings.Built)
    (plain : server.transport = {}) (roomy : Roomy compressor size (plan.terms server))
    (answered : opening.Answered plan endpoint server compressor nonce) (seed : UInt32) :
    (Outgoing.allBytes opening.server.sent ≠ [] ∧
        opening.complete compressor plan (Handshake.keyOf nonce) seed = .waiting) ∨
      ∃ line, opening.complete compressor plan (Handshake.keyOf nonce) seed = .ready (.ok line) ∧
        line.Idle endpoint size := by
  have ends := Plan.headSize?_responseHead addresses built nonce
  have small := Plan.size_responseHead addresses built nonce
  obtain ⟨noEnd, pieces, came, whole⟩ := answered.falling
  by_cases missing : Outgoing.allBytes opening.server.sent = []
  · rw [missing, List.append_nil] at whole
    obtain ⟨rest, none, taken⟩ := Handshake.readHead_of_whole ends small whole
    rw [← came] at taken
    have concluded := Plan.conclude_response addresses built nonce [] {} seed compressor
    refine .inr ⟨⟨{ begun plan server compressor seed (.arrived rest false) with
      sent := opening.sent ++ [] }, opening.server⟩, ?_,
      idle_begun sound addresses built plain roomy seed answered.stage ?_ ?_⟩
    · simp only [complete, Plan.complete, Plan.establish, taken, concluded]
      rfl
    · rw [List.append_nil]
      exact answered.rising
    · exact ⟨noEnd, rest, rfl, by rw [none, missing]; rfl⟩
  · exact .inl ⟨missing, complete_of_part addresses built came whole missing seed⟩

theorem complete_of_proper {size : Nat} (sound : compressor.Sound)
    (addresses : plan.Addresses endpoint) (built : server.settings.Built)
    (plain : server.transport = {}) (roomy : Roomy compressor size (plan.terms server))
    (proper : opening.Proper plan endpoint server compressor nonce) (seed : UInt32) :
    opening.complete compressor plan (Handshake.keyOf nonce) seed = .waiting ∨
      ∃ line, opening.complete compressor plan (Handshake.keyOf nonce) seed = .ready (.ok line) ∧
        line.Idle endpoint size := by
  rcases proper with asked | answered
  · exact .inl (complete_of_asked addresses built asked seed)
  · exact (complete_of_answered sound addresses built plain roomy answered seed).imp And.right id

theorem complete_round {size : Nat} (sound : compressor.Sound)
    (addresses : plan.Addresses endpoint) (built : server.settings.Built)
    (plain : server.transport = {}) (roomy : Roomy compressor size (plan.terms server))
    (sixteen : nonce.length = 16)
    (proper : opening.Proper plan endpoint server compressor nonce) (seed : UInt32) :
    ∃ line, opening.round.complete compressor plan (Handshake.keyOf nonce) seed =
      .ready (.ok line) ∧ line.Idle endpoint size := by
  obtain ⟨answered, all⟩ := answered_round addresses built plain sixteen proper
  obtain ⟨missing, -⟩ | begins :=
    complete_of_answered sound addresses built plain roomy answered seed
  · exact absurd all missing
  · exact begins

end

end Opening

/-- Whatever happens meanwhile, a line comes to be, and is idle. -/
theorem knock_ok {plan : Plan} {endpoint : Endpoint} {server : Server}
    {compressor : Deflate.Compressor} {nonce : Bytes} {size : Nat} (sound : compressor.Sound)
    (addresses : plan.Addresses endpoint) (built : server.settings.Built)
    (plain : server.transport = {}) (roomy : Roomy compressor size (plan.terms server))
    (sixteen : nonce.length = 16) (seed : UInt32) (turns : List Turn) :
    ∃ line, knock server compressor plan nonce seed turns = .ok line ∧
      line.Idle endpoint size := by
  obtain ⟨text, written, bytes⟩ := Plan.requestText_ok addresses nonce
  have asked : Opening.Asked ⟨[.bytes (plan.requestHead nonce)], .new server .silent compressor,
      .silent⟩ plan server compressor nonce :=
    ⟨rfl, rfl, rfl, between_silent _, ⟨List.not_mem_nil, [], rfl, rfl⟩⟩
  have proper := Opening.proper_turns addresses built plain sixteen (.inl asked) turns
  obtain waits | ⟨line, opened, idle⟩ :=
    Opening.complete_of_proper sound addresses built plain roomy proper seed
  · obtain ⟨line, opened, idle⟩ :=
      Opening.complete_round sound addresses built plain roomy sixteen proper seed
    refine ⟨line, ?_, idle⟩
    simp only [knock, written, bytes, waits, opened]
  · refine ⟨line, ?_, idle⟩
    simp only [knock, written, bytes, opened]

end Line

end DeflateTrial
