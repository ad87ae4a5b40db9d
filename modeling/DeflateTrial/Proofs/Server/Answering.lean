/-
Answering — every opening request gets the answer that is due

    no request, or one that asks improperly     400, and the end
    a path that is no endpoint                  404, and the end
    any other request                           101, and on as a conversation

A granted request is answered in four lines that depend on nothing but its key, and in a
fifth if an agreement comes of its entries.  Whatever the client wrote, no line end gets into
this line: an agreement is written with fixed names and two numbers
(`Agreement.unbroken_response`).  So the answer is always written as a whole, and what is
read of it is what was agreed (`granted_of_known`).

The lines for extensions take no part in what else is read of a head.  Two heads that are
the same apart from them are refused for the same problem, or read as requests that are
the same apart from their entries (`Request.parse_of_sameOthers`).  So nothing that stands
there makes a request fail.
-/
import DeflateTrial.Proofs.Extension.Entries
import DeflateTrial.Proofs.Handshake.Arrival
import DeflateTrial.Proofs.Handshake.Exchange
import DeflateTrial.Proofs.Handshake.Injection
import DeflateTrial.Proofs.Handshake.Repeated
import DeflateTrial.Proofs.Server.Conversation

namespace DeflateTrial

open Handshake (Request Response SplitsInto textOf)

/-! ## Endpoints -/

theorem Endpoint.ofPath?_eq_none_iff {path : String} :
    ofPath? path = none ↔ path ≠ "/md5" ∧ path ≠ "/echo" := by
  unfold ofPath?
  split <;> simp_all

/-! ## The lines for extensions and the rest of a head -/

namespace Handshake

open Fields (inLines)

/-- Two heads with the same first line and the same fields, apart from fields for
extensions, of which each may have any. -/
def SameOthers (head other : Bytes) : Prop :=
  ∃ text text' first rest rest', head = Bytes.ofText text ∧ other = Bytes.ofText text' ∧
    Text.lines text.toList = first :: rest ∧ Text.lines text'.toList = first :: rest' ∧
    (inLines rest).others = (inLines rest').others

namespace Request

/-- Two requests that differ in their entries at most. -/
def Like (request request' : Request) : Prop :=
  request' = { request with extensions := request'.extensions }

theorem ofLines_of_others {first : List Char} {rest rest' : List (List Char)}
    (same : (inLines rest).others = (inLines rest').others) :
    Alongside Like (ofLines (first :: rest)) (ofLines (first :: rest')) := by
  rw [ofLines, ofLines]
  refine .bind_self _ fun path => ?_
  rw [Fields.ofLines_eq_collect, Fields.ofLines_eq_collect]
  refine (Fields.collect_of_others same.symm).bind fun fields fields' agree => ?_
  rw [agree.checkUpgrade, agree.require (by decide), agree.require (by decide),
    agree.require (by decide)]
  refine .bind_self _ fun _ => .bind_self _ fun host => .bind_self _ fun key => ?_
  refine .bind_self _ fun text => .bind_self _ fun version => ?_
  exact .read rfl

theorem parse_of_sameOthers {head other : Bytes} (same : SameOthers head other) :
    Alongside Like (parse head) (parse other) := by
  obtain ⟨text, text', first, rest, rest', rfl, rfl, split, split', same⟩ := same
  rw [parse, parse, Bytes.toText?_ofText, Bytes.toText?_ofText]
  simp only [split, split']
  exact ofLines_of_others same

end Request

end Handshake

namespace Server

/-- A head that is read as a request which asks properly. -/
structure Proper (head : Bytes) (request : Request) : Prop where
  parsed : Request.parse head = .ok request
  valid : request.validate = .ok ()

variable {server : Server} {head other : Bytes} {request : Request}

theorem Proper.of_sameOthers (proper : Proper head request)
    (same : Handshake.SameOthers head other) :
    ∃ entries, Proper other { request with extensions := entries } := by
  have alongside := Request.parse_of_sameOthers same
  rw [proper.parsed] at alongside
  generalize read : Request.parse other = result at alongside
  cases alongside with
  | @read _ request' like =>
      refine ⟨request'.extensions, ?_, proper.valid⟩
      rw [read, ← like]

theorem readRequest_eq_ok_iff : readRequest head = .ok request ↔ Proper head request := by
  constructor
  · intro h
    unfold readRequest at h
    obtain ⟨request', parsed, h⟩ := exists_of_bind_ok h
    obtain ⟨⟨⟩, valid, h⟩ := exists_of_bind_ok h
    cases h
    exact ⟨parsed, valid⟩
  · rintro ⟨parsed, valid⟩
    simp only [readRequest, parsed, valid, bind, Except.bind, pure, Except.pure]

/-! ## The texts of answers -/

/-- The lines of a refusal that names a status and its reason. -/
def refusalLines (status : String) : List String :=
  ["HTTP/1.1 " ++ status, "Connection: close", "Content-Length: 0", ""]

/-- The lines of an answer that grants a request, with one entry for an agreement. -/
def grantLines (request : Request) (agreement : Option Extension.Agreement) : List String :=
  Response.texts (Handshake.acceptFor request.key) (agreement.map fun a => a.response.write) ++ [""]

theorem refusal_eq (status : Nat) (reason : String) : Handshake.refusal status reason =
    textOf (refusalLines (Text.Decimal.write status ++ " " ++ reason)) := by
  have lines : [.ok s!"HTTP/1.1 {Text.Decimal.write status} {reason}", .ok "Connection: close",
      .ok "Content-Length: 0"] = (["HTTP/1.1 " ++ Text.Decimal.write status ++ " " ++ reason,
        "Connection: close", "Content-Length: 0"].map .ok : List (Except Fault String)) := rfl
  rw [Handshake.refusal, lines, Handshake.putHead_ok, refusalLines, String.append_assoc,
    String.append_assoc, String.append_assoc]
  rfl

theorem unbroken_refusalLines {status : String} (whole : Text.Unbroken status) :
    ∀ line ∈ refusalLines status, Text.Unbroken line := by
  intro line member
  simp only [refusalLines, List.mem_cons, List.not_mem_nil, or_false] at member
  rcases member with rfl | rfl | rfl | rfl
  · exact Text.unbroken_append.mpr ⟨by decide, whole⟩
  · decide
  · decide
  · decide

theorem unbroken_entry (agreement : Option Extension.Agreement) (value : String)
    (given : (agreement.map fun a => a.response.write) = some value) : Text.Unbroken value := by
  obtain ⟨a, -, rfl⟩ := Option.map_eq_some_iff.mp given
  exact a.unbroken_response

theorem text?_grant (endpoint : Endpoint) (request : Request)
    (agreement : Option Extension.Agreement) :
    (Answer.grant endpoint agreement (granted request agreement)).text? =
      some (textOf (grantLines request agreement)) := by
  have written : (granted request agreement).write =
      (textOf (grantLines request agreement), .ok ()) :=
    Response.write_ok (unbroken_entry agreement)
  rw [Answer.text?, written]

theorem unbroken_grantLines (request : Request) (agreement : Option Extension.Agreement) :
    ∀ line ∈ grantLines request agreement, Text.Unbroken line := by
  have solid := Response.solid_texts (Handshake.trimmed_acceptFor request.key).1
    (unbroken_entry agreement)
  intro line member
  rcases List.mem_append.mp member with written | last
  · exact (solid line written).whole
  · rw [List.mem_singleton.mp last]
    decide

theorem parse_grantLines (request : Request) (agreement : Option Extension.Agreement) :
    Response.parse (Bytes.ofText (textOf (grantLines request agreement))) =
      .ok ⟨Handshake.acceptFor request.key, (agreement.map fun a => a.response.write).toList⟩ := by
  obtain ⟨whole, bare⟩ := Handshake.trimmed_acceptFor request.key
  rw [grantLines, Response.parse_texts whole (unbroken_entry agreement), bare]
  cases agreement with
  | none => rfl
  | some a =>
      simp only [Option.map_some, Option.getD_some, Option.toList_some,
        Handshake.Fields.listOf_trimmed, (Extension.read_write rfl (Extension.tame_response a)).1]

/-! ## The answer to a head -/

theorem answer_of_improper (improper : ∀ request, ¬ Proper head request) :
    server.answer head = .refuse 400 "Bad Request" := by
  unfold answer
  split
  · rfl
  · rename_i request read
    exact absurd (readRequest_eq_ok_iff.mp read) (improper request)

theorem answer_of_unknown (proper : Proper head request)
    (unknown : Endpoint.ofPath? request.path = none) :
    server.answer head = .refuse 404 "Not Found" := by
  simp only [answer, readRequest_eq_ok_iff.mpr proper, unknown]

theorem answer_of_known {endpoint : Endpoint} (proper : Proper head request)
    (known : Endpoint.ofPath? request.path = some endpoint) :
    server.answer head =
      .grant endpoint (server.agree request.extensions)
        (granted request (server.agree request.extensions)) := by
  simp only [answer, readRequest_eq_ok_iff.mpr proper, known]

namespace Connection

open Outgoing (InTime)

variable {c last next : Connection} {leftover : Bytes}

/-! ## What a connection has sent stays sent -/

theorem sent_put (c : Connection) (bytes : Bytes) : c.sent <+: (c.put bytes).sent := by
  unfold put
  split
  · exact List.prefix_rfl
  · exact List.prefix_append _ _

theorem sent_finish (c : Connection) : c.sent <+: c.finish.sent :=
  List.prefix_append _ _

theorem sent_takeHead (c : Connection) (head leftover : Bytes) :
    c.sent <+: (c.takeHead head leftover).sent := by
  simp only [takeHead]
  split
  · exact sent_finish c
  · split
    · exact (sent_put c _).trans (sent_finish _)
    · exact sent_put c _

theorem sent_say (c : Connection) (endpoint : Endpoint) (reader : Message.Reader)
    (writer : Message.Writer) (message : Message) :
    c.sent <+: (c.say endpoint reader writer message).sent := by
  unfold say
  split
  · exact sent_put c _
  · exact sent_finish c

theorem sent_takeMessage (c : Connection) (endpoint : Endpoint) (reader : Message.Reader)
    (writer : Message.Writer) (message : Message) :
    c.sent <+: (c.takeMessage endpoint reader writer message).sent := by
  cases message with
  | text s => exact sent_say c ..
  | binary data => exact sent_say c ..
  | ping data => exact sent_say c ..
  | pong data => exact List.prefix_rfl
  | close status => exact (sent_put c _).trans (sent_finish _)

theorem sent_takeFault (c : Connection) (writer : Message.Writer) (fault : Fault) :
    c.sent <+: (c.takeFault writer fault).sent :=
  (sent_put c _).trans (sent_finish _)

theorem sent_of_step (h : c.step = some next) : c.sent <+: next.sent := by
  unfold step at h
  split at h
  · split at h
    · rename_i head leftover rest taken
      cases h
      exact sent_takeHead { c with source := rest } head leftover
    · cases h
      exact sent_finish _
    · cases h
  · split at h
    · rename_i message reader rest taken
      cases h
      exact sent_takeMessage { c with source := rest } ..
    · rename_i fault reader rest taken
      cases h
      exact sent_takeFault { c with source := rest } ..
    · cases h
      exact sent_finish _
    · cases h
  · cases h

theorem sent_settle (c : Connection) : c.sent <+: c.settle.sent := by
  induction c using settle.induct with
  | case1 c next stepped ih =>
      rw [settle_of_step stepped]
      exact (sent_of_step stepped).trans ih
  | case2 c waits => exact (settle_of_none waits).symm ▸ List.prefix_rfl

/-! ## The answer to an opening request -/

variable {before : List Outgoing} {lines others : List String} {more more' : List Outgoing}

/-- Behind what it had said before, a connection has said some lines and then some more. -/
structure Answered (before : List Outgoing) (last : Connection) (lines : List String)
    (more : List Outgoing) : Prop where
  said : last.sent = before ++ .bytes (Bytes.ofText (textOf lines)) :: more
  lines : SplitsInto (Bytes.ofText (textOf lines)) lines

/-- A connection has said some lines and nothing else, and has ended. -/
structure Refused (before : List Outgoing) (last : Connection) (lines : List String) : Prop
    extends Answered before last lines [.fin] where
  ended : last.stage = .over

/-- What the server does when it grants a request. -/
def grant (c : Connection) (endpoint : Endpoint) (request : Request)
    (agreement : Option Extension.Agreement) (leftover : Bytes) : Connection :=
  { c with
    stage := talk c.server endpoint agreement leftover c.compressor
    sent := c.sent ++ [.bytes (Bytes.ofText (textOf (grantLines request agreement)))] }

/-- A connection has granted a request under an agreement.  Its answer is read as one to the
request's key, with the entry for the agreement and no other, and it has gone on as a
conversation under the agreement. -/
structure Granted (c last : Connection) (leftover : Bytes) (request : Request)
    (agreement : Option Extension.Agreement) : Prop where
  answered : ∃ more, Answered c.sent last (grantLines request agreement) more
  accepted : ∃ response,
    Response.parse (Bytes.ofText (textOf (grantLines request agreement))) = .ok response ∧
      response.verify request.key = .ok () ∧
      response.extensions = (agreement.map fun a => a.response.write).toList
  goes : ∃ endpoint, Endpoint.ofPath? request.path = some endpoint ∧
    last = (c.grant endpoint request agreement leftover).settle

theorem Answered.unique (answered : Answered before last lines more)
    (answered' : Answered before last others more') : lines = others := by
  have same := List.append_cancel_left (answered.said.symm.trans answered'.said)
  obtain ⟨bytes, -⟩ := List.cons.inj same
  have split := answered.lines
  rw [Outgoing.bytes.inj bytes] at split
  exact split.unique answered'.lines

theorem Refused.first_eq {status status' : String}
    (refused : Refused before last (refusalLines status))
    (refused' : Refused before last (refusalLines status')) :
    "HTTP/1.1 " ++ status = "HTTP/1.1 " ++ status' :=
  (List.cons.inj (refused.unique refused'.toAnswered)).1

theorem Granted.not_refused {status : String} {agreement : Option Extension.Agreement}
    (granted : Granted c last leftover request agreement)
    (other : "HTTP/1.1 " ++ status ≠ Response.firstLine) :
    ¬ Refused c.sent last (refusalLines status) := by
  intro refused
  obtain ⟨more, answered⟩ := granted.answered
  exact other (List.cons.inj (refused.unique answered)).1

theorem put_textOf (c : Connection) (some_ : lines ≠ []) : c.put (Bytes.ofText (textOf lines)) =
    { c with sent := c.sent ++ [.bytes (Bytes.ofText (textOf lines))] } := by
  obtain ⟨line, lines, rfl⟩ := List.exists_cons_of_ne_nil some_
  exact c.put_of_ne_nil (by simp [Handshake.ofText_textOf])

theorem refused_of_answer {status : Nat} {reason text : String}
    (refuses : c.server.answer head = .refuse status reason)
    (is : Text.Decimal.write status ++ " " ++ reason = text) (whole : Text.Unbroken text)
    (leftover : Bytes) :
    Refused c.sent (c.takeHead head leftover).settle (refusalLines text) := by
  have filled : refusalLines text ≠ [] := List.cons_ne_nil _ _
  have taken : c.takeHead head leftover =
      (c.put (Bytes.ofText (textOf (refusalLines text)))).finish := by
    simp only [takeHead, refuses, Answer.text?, refusal_eq, is]
  rw [taken, settle_finish, put_textOf c filled]
  exact {
    said := List.append_assoc ..
    lines := Handshake.splitsInto_textOf (unbroken_refusalLines whole)
    ended := rfl }

theorem refused_of_improper (improper : ∀ request, ¬ Proper head request) (leftover : Bytes) :
    Refused c.sent (c.takeHead head leftover).settle (refusalLines "400 Bad Request") :=
  refused_of_answer (answer_of_improper improper) (by decide +kernel) (by decide) leftover

theorem refused_of_unknown (proper : Proper head request)
    (unknown : Endpoint.ofPath? request.path = none) (leftover : Bytes) :
    Refused c.sent (c.takeHead head leftover).settle (refusalLines "404 Not Found") :=
  refused_of_answer (answer_of_unknown proper unknown) (by decide +kernel) (by decide) leftover

theorem takeHead_of_known {endpoint : Endpoint} (proper : Proper head request)
    (known : Endpoint.ofPath? request.path = some endpoint) (leftover : Bytes) :
    c.takeHead head leftover =
      c.grant endpoint request (c.server.agree request.extensions) leftover := by
  have grants : c.server.answer head = _ := answer_of_known proper known
  have filled (agreement : Option Extension.Agreement) : grantLines request agreement ≠ [] :=
    List.cons_ne_nil _ _
  simp only [takeHead, grants, text?_grant, put_textOf c (filled _)]
  rfl

theorem granted_of_known {endpoint : Endpoint} (proper : Proper head request)
    (known : Endpoint.ofPath? request.path = some endpoint) (leftover : Bytes) :
    Granted c (c.takeHead head leftover).settle leftover request
      (c.server.agree request.extensions) := by
  rw [takeHead_of_known proper known]
  generalize c.server.agree request.extensions = agreement
  obtain ⟨more, later⟩ := sent_settle (c.grant endpoint request agreement leftover)
  refine {
    answered := ⟨more, ?_, Handshake.splitsInto_textOf (unbroken_grantLines request agreement)⟩
    accepted := ⟨_, parse_grantLines request agreement, if_pos rfl, rfl⟩
    goes := ⟨endpoint, known, rfl⟩ }
  rw [← later, grant, List.append_assoc]
  rfl

section
variable {buffer : Bytes} {rest : Source} {moments : List Moment}

theorem settle_of_read (stage : c.stage = .opening buffer)
    (inTime : InTime c.source (arrivals moments))
    (read : Handshake.readHead c.server.transport.limits buffer
      (Outgoing.arriveAll c.source (arrivals moments)) = (.ready (.ok head), leftover, rest)) :
    (c.happenAll moments).settle = ({ c with source := rest }.takeHead head leftover).settle := by
  have stage : (c.arriveAll (arrivals moments)).stage = .opening buffer := stage
  rw [settle_happenAll inTime]
  exact settle_of_step (step_of_head stage read)

/-- Every head that the server reads gets the one answer that is due, whenever its pieces
arrive.  The two refusals are all that is said, and each is given just if it is due: the first
to what is not read as a request or does not pass the check, the second to a request for no
endpoint.  Any other request is granted, with the entry for what is agreed on its entries or
with none, and in no other lines.  Whatever stands in the lines for extensions, a proper
request stays one, to the same path and with the same key. -/
theorem answers_opening (stage : c.stage = .opening buffer)
    (inTime : InTime c.source (arrivals moments))
    (read : Handshake.readHead c.server.transport.limits buffer
      (Outgoing.arriveAll c.source (arrivals moments)) = (.ready (.ok head), leftover, rest)) :
    let last := (c.happenAll moments).settle
    (Refused c.sent last (refusalLines "400 Bad Request") ↔ ∀ request, ¬ Proper head request) ∧
    (Refused c.sent last (refusalLines "404 Not Found") ↔
      ∃ request, Proper head request ∧ request.path ≠ "/md5" ∧ request.path ≠ "/echo") ∧
    (∀ request, Proper head request → request.path = "/md5" ∨ request.path = "/echo" →
      Granted { c with source := rest } last leftover request
        (Extension.Agreement.negotiate c.server.settings
          (request.extensions.filterMap fun entry => (Extension.Offer.parse entry).toOption))) ∧
    ∀ other, Handshake.SameOthers head other → ∀ request, Proper head request →
      ∃ entries, Proper other { request with extensions := entries } := by
  intro last
  have settled : last = ({ c with source := rest }.takeHead head leftover).settle :=
    settle_of_read stage inTime read
  have bad (improper : ∀ request, ¬ Proper head request) :
      Refused c.sent last (refusalLines "400 Bad Request") := by
    rw [settled]
    exact refused_of_improper (c := { c with source := rest }) improper leftover
  have missing {request : Request} (proper : Proper head request)
      (unknown : Endpoint.ofPath? request.path = none) :
      Refused c.sent last (refusalLines "404 Not Found") := by
    rw [settled]
    exact refused_of_unknown (c := { c with source := rest }) proper unknown leftover
  have granted {request : Request} {endpoint : Endpoint} (proper : Proper head request)
      (known : Endpoint.ofPath? request.path = some endpoint) :
      Granted { c with source := rest } last leftover request
        (c.server.agree request.extensions) := by
    rw [settled]
    exact granted_of_known proper known leftover
  -- each answer is given if it is due; no other is, for there is one answer
  refine ⟨⟨fun refused request proper => ?_, bad⟩, ⟨fun refused => ?_, ?_⟩, ?_,
    fun other same request proper => proper.of_sameOthers same⟩
  · cases known : Endpoint.ofPath? request.path with
    | none => exact absurd (refused.first_eq (missing proper known)) (by decide)
    | some endpoint => exact (granted proper known).not_refused (by decide) refused
  · by_cases improper : ∀ request, ¬ Proper head request
    · exact absurd (refused.first_eq (bad improper)) (by decide)
    · simp only [not_forall, not_not] at improper
      obtain ⟨request, proper⟩ := improper
      refine ⟨request, proper, Endpoint.ofPath?_eq_none_iff.mp ?_⟩
      cases known : Endpoint.ofPath? request.path with
      | none => rfl
      | some endpoint => exact absurd refused ((granted proper known).not_refused (by decide))
  · rintro ⟨request, proper, unknown⟩
    exact missing proper (Endpoint.ofPath?_eq_none_iff.mpr unknown)
  · intro request proper path
    cases known : Endpoint.ofPath? request.path with
    | none => exact absurd path (not_or.mpr (Endpoint.ofPath?_eq_none_iff.mp known))
    | some endpoint => exact granted proper known

/-- An entry without a name and one with an unknown parameter, in a line before the one that is
taken up, in a head that arrives in two pieces; and a head in which nothing in the line for
extensions is an entry. -/
theorem answers_opening_malformed :
    let fields := ["Host: h", "Upgrade: websocket", "Connection: Upgrade",
      "Sec-WebSocket-Key: dGhlIHNhbXBsZSBub25jZQ==", "Sec-WebSocket-Version: 13"]
    let written := "Sec-WebSocket-Extensions: ;=x, permessage-deflate; y" :: fields ++
      ["sec-websocket-extensions:permessage-deflate;server_max_window_bits=9;"]
    let written' := fields ++ ["Sec-WebSocket-Extensions: ,;;\t="]
    let head := Bytes.ofText (textOf ("GET /echo HTTP/1.1" :: written ++ [""]))
    let other := Bytes.ofText (textOf ("GET /echo HTTP/1.1" :: written' ++ [""]))
    let moments : List Moment :=
      [.arrive (.bytes (head.take 30)), .serve, .arrive (.bytes (head.drop 30))]
    let c : Connection := .new {} .silent
    let entry := "permessage-deflate; server_max_window_bits=9; client_max_window_bits=15"
    c.stage = .opening [] ∧ InTime c.source (arrivals moments) ∧
    (∃ rest, Handshake.readHead c.server.transport.limits []
      (Outgoing.arriveAll c.source (arrivals moments)) = (.ready (.ok head), [], rest)) ∧
    (∃ bytes more response, (c.happenAll moments).settle.sent = .bytes bytes :: more ∧
      SplitsInto bytes ["HTTP/1.1 101 Switching Protocols", "Upgrade: websocket",
        "Connection: Upgrade", "Sec-WebSocket-Accept: s3pPLMBiTxaQ9kYGzzhZRbK+xOo=",
        "Sec-WebSocket-Extensions: " ++ entry, ""] ∧
      Response.parse bytes = .ok response ∧ response.extensions = [entry]) ∧
    Handshake.SameOthers head other ∧ ∃ request, Proper other request := by
  intro fields written written' head other moments c entry
  let request : Request := ⟨"/echo", "h", "dGhlIHNhbXBsZSBub25jZQ==", 13,
    [";=x", "permessage-deflate; y", "permessage-deflate;server_max_window_bits=9;"]⟩
  let named := [("host", "h"), ("upgrade", "websocket"), ("connection", "Upgrade"),
    ("sec-websocket-key", "dGhlIHNhbXBsZSBub25jZQ=="), ("sec-websocket-version", "13")]
  -- the two heads, line by line
  have each {lines : List String} (each : ∀ line ∈ lines, line ≠ "" ∧ Text.Unbroken line) :
      ∀ line ∈ lines, Handshake.Solid line :=
    fun line member => ⟨(each line member).1, (each line member).2⟩
  have solid : ∀ line ∈ "GET /echo HTTP/1.1" :: written, Handshake.Solid line :=
    each (by decide +kernel)
  have solid' : ∀ line ∈ "GET /echo HTTP/1.1" :: written', Handshake.Solid line :=
    each (by decide +kernel)
  have found : Handshake.Fields.inLines (written.map String.toList ++ [[]]) =
      ("sec-websocket-extensions", ";=x, permessage-deflate; y") :: named ++
        [("sec-websocket-extensions", "permessage-deflate;server_max_window_bits=9;")] := by
    decide +kernel
  have found' : Handshake.Fields.inLines (written'.map String.toList ++ [[]]) =
      named ++ [("sec-websocket-extensions", ",;;\t=")] := by
    decide
  have proper : Proper head request := by
    refine ⟨?_, by decide +kernel⟩
    rw [Request.parse_ofText (Handshake.lines_head solid)]
    change Request.Asks _ (Handshake.Fields.inLines (written.map String.toList ++ [[]])) _
    rw [found]
    exact {
      line := by decide
      host := by decide
      upgrade := ⟨"websocket", by decide, by decide⟩
      connection := ⟨"Upgrade", by decide, Text.contains_iff.mp (by decide)⟩
      key := by decide
      version := ⟨"13", by decide, Text.Decimal.readBelow?_eq_some_iff.mp (by decide)⟩
      extensions := by decide }
  have same : Handshake.SameOthers head other := by
    refine ⟨_, _, _, _, _, rfl, rfl, Handshake.lines_head solid, Handshake.lines_head solid', ?_⟩
    change (Handshake.Fields.inLines (written.map String.toList ++ [[]])).others =
      (Handshake.Fields.inLines (written'.map String.toList ++ [[]])).others
    rw [found, found']
    decide
  -- the first of them arrives
  have inTime : InTime c.source (arrivals moments) := ⟨rfl, rfl, trivial⟩
  have small : head.length ≤ Limits.handshakeSize {} := by decide +kernel
  have whole : [head.take 30, head.drop 30].flatten = head := by
    rw [List.flatten_cons, List.flatten_singleton, List.take_append_drop]
  obtain ⟨rest, -, taken⟩ := Handshake.readHead_of_whole
    (Handshake.headSize?_ofText (List.cons_ne_nil _ _) solid) small whole
  obtain ⟨-, -, grants, passes⟩ :=
    answers_opening (show c.stage = .opening [] from rfl) inTime taken
  have agreed : Extension.Agreement.negotiate c.server.settings (request.extensions.filterMap
      fun entry => (Extension.Offer.parse entry).toOption) = some ⟨false, false, 9, 15⟩ := by
    decide +kernel
  have spelled : (⟨false, false, 9, 15⟩ : Extension.Agreement).response.write = entry := by
    decide +kernel
  have texts : grantLines request (some ⟨false, false, 9, 15⟩) =
      ["HTTP/1.1 101 Switching Protocols", "Upgrade: websocket", "Connection: Upgrade",
        "Sec-WebSocket-Accept: s3pPLMBiTxaQ9kYGzzhZRbK+xOo=",
        "Sec-WebSocket-Extensions: " ++ entry, ""] := by
    decide +kernel
  have granted := grants request proper (.inr rfl)
  rw [agreed] at granted
  obtain ⟨⟨more, said, lines⟩, ⟨response, read, -, listed⟩, -⟩ := granted
  rw [texts] at said lines read
  rw [Option.map_some, Option.toList_some, spelled] at listed
  obtain ⟨entries, proper'⟩ := passes other same request proper
  exact ⟨rfl, inTime, ⟨_, taken⟩, ⟨_, more, response, said, lines, read, listed⟩, same, _, proper'⟩

end

end Connection

end Server

end DeflateTrial
