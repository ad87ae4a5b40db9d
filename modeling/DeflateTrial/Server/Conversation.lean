/-
Conversations — what the reference server says after the opening

Every data message gets one reply, every ping one pong, and a close is
answered with the same close.  A fault is answered with its close code.  After
that, and at the end of the stream, the server ends its direction.
-/
import DeflateTrial.Handshake.HeadReader
import DeflateTrial.Message.Reader
import DeflateTrial.Message.Writer
import DeflateTrial.Outgoing
import DeflateTrial.Server.Answer

namespace DeflateTrial.Server

/-- How far a connection to the server has come. -/
inductive Stage where
  /-- The request is still arriving; these bytes of it are here. -/
  | opening (buffer : Bytes)
  | talking (endpoint : Endpoint) (reader : Message.Reader) (writer : Message.Writer)
  | over

structure Connection where
  server : Server
  stage : Stage
  /-- What the client has sent and the server has not read. -/
  source : Source
  /-- What has been given to the network, the oldest first. -/
  sent : List Outgoing
  /-- What compresses the replies. -/
  compressor : Deflate.Compressor

namespace Connection

/-- A connection that a client has just made. -/
def new (server : Server) (source : Source)
    (compressor : Deflate.Compressor := .fixedCode) : Connection :=
  ⟨server, .opening [], source, [], compressor⟩

def put (c : Connection) (bytes : Bytes) : Connection :=
  if bytes.isEmpty then c else { c with sent := c.sent ++ [.bytes bytes] }

def finish (c : Connection) : Connection :=
  { c with stage := .over, sent := c.sent ++ [.fin] }

/-- The stage after a granted request; `leftover` came behind its head. -/
def talk (server : Server) (endpoint : Endpoint) (agreement : Option Extension.Agreement)
    (leftover : Bytes) (compressor : Deflate.Compressor := .fixedCode) : Stage :=
  let limits := server.transport.limits
  .talking endpoint
    (.new (.new .server limits leftover) (agreement.map fun a => a.inflater .server limits))
    (.new ⟨.server, 0⟩ (agreement.map fun a => a.deflater .server server.settings compressor)
      limits)

/-- What the server does with the head of a request. -/
def takeHead (c : Connection) (head leftover : Bytes) : Connection :=
  let answer := c.server.answer head
  match answer.text? with
  | none => c.finish
  | some text =>
    let c := c.put (Bytes.ofText text)
    match answer with
    | .refuse .. => c.finish
    | .grant endpoint agreement _ =>
      { c with stage := talk c.server endpoint agreement leftover c.compressor }

/-- Sends a message, or ends the connection if the writer refuses it. -/
def say (c : Connection) (endpoint : Endpoint) (reader : Message.Reader) (writer : Message.Writer)
    (message : Message) : Connection :=
  match writer.send message with
  | (.ok bytes, writer) => { c.put bytes with stage := .talking endpoint reader writer }
  | (.error _, _) => c.finish

/-- What the server does with a message. -/
def takeMessage (c : Connection) (endpoint : Endpoint) (reader : Message.Reader)
    (writer : Message.Writer) (message : Message) : Connection :=
  match message with
  | .close status => (c.put (writer.close status).1).finish
  | .ping data => c.say endpoint reader writer (.pong data)
  | .pong _ => { c with stage := .talking endpoint reader writer }
  | message => c.say endpoint reader writer (endpoint.reply message)

/-- What the server does with a fault. -/
def takeFault (c : Connection) (writer : Message.Writer) (fault : Fault) : Connection :=
  (c.put (writer.close (some ⟨.forFault fault, ""⟩)).1).finish

/-- One turn of the server, unless it has to wait or the connection is over. -/
def step (c : Connection) : Option Connection :=
  match c.stage with
  | .opening buffer =>
    match Handshake.readHead c.server.transport.limits buffer c.source with
    | (.ready (.ok head), leftover, source) => some ({ c with source }.takeHead head leftover)
    | (.ready (.error _), _, source) => some { c with source }.finish
    | (.waiting, _, _) => none
  | .talking endpoint reader writer =>
    match reader.next c.source with
    | (.message message, reader, source) =>
      some ({ c with source }.takeMessage endpoint reader writer message)
    | (.fault fault, _, source) => some ({ c with source }.takeFault writer fault)
    | (.ended, _, source) => some { c with source }.finish
    | (.waiting, _, _) => none
  | .over => none

/-! ## Going on as long as something has arrived -/

/-- How far a connection is from its end: the stages that remain, and the
bytes that messages may still come from. -/
def work (c : Connection) : Nat × Nat :=
  match c.stage with
  | .opening _ => (2, 0)
  | .talking _ reader _ => (1, (reader.ahead c.source).length)
  | .over => (0, 0)

theorem work_finish (c : Connection) : c.finish.work = (0, 0) := rfl

theorem source_put (c : Connection) (bytes : Bytes) : (c.put bytes).source = c.source := by
  unfold put
  split <;> rfl

theorem work_takeHead (c : Connection) (head leftover : Bytes) :
    (c.takeHead head leftover).work.1 < 2 := by
  simp only [takeHead]
  split
  · simp [work_finish]
  · split
    · simp [work_finish]
    · simp [work, talk]

theorem work_say (c : Connection) (endpoint : Endpoint) (reader : Message.Reader)
    (writer : Message.Writer) (message : Message) :
    (c.say endpoint reader writer message).work.1 < 1
      ∨ (c.say endpoint reader writer message).work = (1, (reader.ahead c.source).length) := by
  simp only [say]
  split
  · right
    simp [work, source_put]
  · left
    simp [work_finish]

theorem work_takeMessage (c : Connection) (endpoint : Endpoint) (reader : Message.Reader)
    (writer : Message.Writer) (message : Message) :
    (c.takeMessage endpoint reader writer message).work.1 < 1
      ∨ (c.takeMessage endpoint reader writer message).work
        = (1, (reader.ahead c.source).length) := by
  unfold takeMessage
  split
  · left
    simp [work_finish]
  · exact work_say ..
  · right
    rfl
  · exact work_say ..

theorem step_of_head {c : Connection} {buffer head leftover : Bytes} {source : Source}
    (opening : c.stage = .opening buffer)
    (taken : Handshake.readHead c.server.transport.limits buffer c.source =
      (.ready (.ok head), leftover, source)) :
    c.step = some ({ c with source }.takeHead head leftover) := by
  obtain ⟨server, stage, source', sent, compressor⟩ := c
  obtain rfl : stage = _ := opening
  simp only [step, taken]

theorem step_of_message {c : Connection} {endpoint : Endpoint}
    {reader reader' : Message.Reader} {writer : Message.Writer} {source : Source}
    {message : Message} (talking : c.stage = .talking endpoint reader writer)
    (taken : reader.next c.source = (.message message, reader', source)) :
    c.step = some ({ c with source }.takeMessage endpoint reader' writer message) := by
  obtain ⟨server, stage, source', sent, compressor⟩ := c
  obtain rfl : stage = _ := talking
  simp only [step, taken]

theorem work_lt_of_step {c next : Connection} (h : c.step = some next) :
    Prod.Lex (· < ·) (· < ·) next.work c.work := by
  unfold step at h
  split at h
  · rename_i buffer opening
    have before : c.work = (2, 0) := by simp [work, opening]
    rw [before, Prod.lex_def]
    left
    split at h
    · cases h
      exact work_takeHead ..
    · cases h
      simp [work_finish]
    · cases h
  · rename_i endpoint reader writer talking
    have before : c.work = (1, (reader.ahead c.source).length) := by simp [work, talking]
    rw [before, Prod.lex_def]
    split at h
    · rename_i message reader' source' taken
      cases h
      have less := Message.Reader.ahead_lt_of_next taken
      rcases work_takeMessage { c with source := source' } endpoint reader' writer message with
        fewer | on
      · exact .inl fewer
      · rw [on]
        exact .inr ⟨rfl, less⟩
    · cases h
      exact .inl (by simp [takeFault, work_finish])
    · cases h
      exact .inl (by simp [work_finish])
    · cases h
  · cases h

/-- The server goes on as long as it can. -/
def settle (c : Connection) : Connection :=
  match _h : c.step with
  | some next => next.settle
  | none => c
termination_by c.work
decreasing_by exact work_lt_of_step _h

/-- Something from the client arrives. -/
def arrive (c : Connection) (incoming : Outgoing) : Connection :=
  { c with source := incoming.arrive c.source }

end Connection

/-- Everything that a server sends to a client that sends some bytes and then
ends its direction. -/
def reply (server : Server) (bytes : Bytes) : Bytes :=
  Outgoing.allBytes (Connection.new server (Source.ofPieces [bytes])).settle.sent

end DeflateTrial.Server
