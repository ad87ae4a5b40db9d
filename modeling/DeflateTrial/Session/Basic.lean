/-
Sessions — one connection under trial, step by step

An open connection is worked by two loops and by its caller.  The reading loop
turns messages into events and answers pings and closes with commands; the
writing loop carries out the commands in order; the caller sends commands and
pulls events.  They share the queue of events and the line of commands and
nothing else, and each takes its steps in any order relative to the others:
so a session is a state with a function for every step.
-/
import DeflateTrial.Outgoing
import DeflateTrial.Queue
import DeflateTrial.Session.Opening

namespace DeflateTrial

namespace Session

/-- What the writing loop is told to do. -/
inductive Command where
  | send (message : Message)
  | close (status : Option CloseFrame)
  /-- End the loop and shut the direction down. -/
  | shutdown
deriving DecidableEq, Repr

inductive Reading where
  | running (reader : Message.Reader)
  /-- It has read its last; these commands and this event are still to be given. -/
  | leaving (parting : List Command) (last : Event)
  | over

inductive Ending where
  /-- It has carried out everything, or failed, or nobody is left to command it. -/
  | finished
  /-- The peer did not answer a close frame in time. -/
  | timedOut
deriving DecidableEq, Repr

inductive Writing where
  | running
  /-- It carries out no more; the direction is still to be shut down. -/
  | leaving (ending : Ending)
  | over (ending : Ending)
deriving DecidableEq, Repr

end Session

open Session in
/-- The state of an open connection. -/
structure Session where
  queue : Queue
  reading : Reading
  /-- What the peer has sent and the reading loop has not read. -/
  source : Source
  writing : Writing
  writer : Message.Writer
  /-- The commands that are not yet carried out, the oldest first. -/
  commands : List Command
  /-- What has been given to the network, the oldest first. -/
  sent : List Outgoing
  /-- Whether the caller still has the session. -/
  held : Bool
  /-- Whether the caller has asked for the close. -/
  closeRequested : Bool
  now : Nat
  /-- How long the peer may take to answer a close frame, in milliseconds. -/
  patience : Nat
  /-- When the peer's time is up, once a close frame was due. -/
  deadline : Option Nat

namespace Session

/-- The session that begins with the halves of a connection.  The queue's
sinks are the connection's own and one for each loop. -/
def start (halves : Plan.Halves) (patience : Nat) (source : Source) : Session where
  queue := (Queue.new.push .open).1.addSink.addSink
  reading := .running halves.reader
  source := source
  writing := .running
  writer := halves.writer
  commands := []
  sent := []
  held := true
  closeRequested := false
  now := 0
  patience := patience
  deadline := none

/-- The queue of a connection that could not be opened. -/
def failedQueue (fault : Fault) : Queue :=
  (Queue.new.push (.error fault)).1.dropSink.1

/-- What the caller is told about the first event of a connection. -/
def opened (queue : Queue) : Polled (Except Trouble Unit) × Queue :=
  match queue.next (some .open) with
  | (.ready (.ok _), queue) => (.ready (.ok ()), queue)
  | (.ready (.error trouble), queue) => (.ready (.error (.establishment trouble)), queue)
  | (.waiting, queue) => (.waiting, queue)

/-- The trouble of a connection that could not be opened. -/
def notOpened (fault : Fault) : Trouble :=
  .establishment (.connection fault)

/-- Reads the response that a peer has sent, and starts the session if it is
right; `seed` starts the masks. -/
def Plan.establish (plan : Plan) (transport : Transport) (key : String) (seed : UInt32)
    (source : Source) (compressor : Deflate.Compressor := .fixedCode) :
    Polled (Except Fault Session) :=
  match Handshake.readHead transport.limits [] source with
  | (.waiting, _, _) => .waiting
  | (.ready (.error fault), _, _) => .ready (.error fault)
  | (.ready (.ok head), leftover, source) =>
    .ready ((plan.conclude transport.limits key seed head leftover compressor).map fun halves =>
      start halves transport.closeTimeout source)

/-- What opening a session comes to, by what the peer has sent: the caller
gets the session once the opening has been pulled from its queue. -/
def Plan.complete (plan : Plan) (transport : Transport) (key : String) (seed : UInt32)
    (source : Source) (compressor : Deflate.Compressor := .fixedCode) :
    Polled (Except Trouble Session) :=
  match plan.establish transport key seed source compressor with
  | .waiting => .waiting
  | .ready (.error fault) => .ready (.error (notOpened fault))
  | .ready (.ok session) => .ready (.ok { session with queue := (opened session.queue).2 })

def report (s : Session) (event : Event) : Session :=
  { s with queue := (s.queue.push event).1 }

/-- Whether commands are still taken: a loop that is leaving takes them and
does not carry them out. -/
def takesCommands (s : Session) : Bool :=
  match s.writing with
  | .running | .leaving _ => true
  | .over _ => false

/-- Gives the writing loop a command, if it takes any. -/
def command (s : Session) (command : Command) : Session :=
  if s.takesCommands then { s with commands := s.commands ++ [command] } else s

/-! ## The reading loop -/

def closeEvent : Option CloseFrame → Event
  | some status => .close status
  | none => .close ⟨.noStatus, ""⟩

/-- The event of a stream that ended, or was cut off, without a close frame. -/
def lostEvent : Event :=
  .close ⟨.abnormal, ""⟩

/-- How a fault is answered. -/
def faultStatus (fault : Fault) : CloseFrame :=
  ⟨.forFault fault, ""⟩

/-- The loop has read its last. -/
def leave (s : Session) (parting : List Command) (last : Event) : Session :=
  { s with reading := .leaving parting last }

/-- What the reading loop does with a message. -/
def takeMessage (s : Session) (message : Message) : Session :=
  match message with
  | .text text => s.report (.message (Bytes.ofText text) false)
  | .binary data => s.report (.message data true)
  | .ping data => s.command (.send (.pong data))
  | .pong _ => s
  | .close status => s.leave [.close status, .shutdown] (closeEvent status)

/-- One turn of the reading loop, unless it has to wait or is over. -/
def readStep (s : Session) : Option Session :=
  match s.reading with
  | .running reader =>
    match reader.next s.source with
    | (.message message, reader, source) =>
      some ({ s with reading := .running reader, source }.takeMessage message)
    | (.fault fault, reader, source) =>
      some ({ s with reading := .running reader, source }.leave
        [.close (some (faultStatus fault)), .shutdown] (.error fault))
    | (.ended, reader, source) =>
      some ({ s with reading := .running reader, source }.leave [.shutdown] lostEvent)
    | (.waiting, _, _) => none
  | .leaving (command :: parting) last =>
    some { s.command command with reading := .leaving parting last }
  | .leaving [] last =>
    let s := s.report last
    some { s with reading := .over, queue := s.queue.dropSink.1 }
  | .over => none

/-! ## The writing loop -/

/-- The loop fails: the fault is reported, and no command is carried out any more. -/
def failWriting (s : Session) (fault : Fault) : Session :=
  { s.report (.error fault) with writing := .leaving .finished }

/-- Gives bytes to the network, which may have something against it. -/
def put (s : Session) (obstacle : Option String) (bytes : Bytes) : Session :=
  if bytes.isEmpty then s
  else match obstacle with
    | some what => s.failWriting (.io what)
    | none => { s with sent := s.sent ++ [.bytes bytes] }

/-- Carries out one command.  The first close starts the peer's time. -/
def perform (s : Session) (obstacle : Option String) : Command → Session
  | .send message =>
    match s.writer.send message with
    | (.ok bytes, writer) => { s with writer }.put obstacle bytes
    | (.error fault, writer) => { s with writer }.failWriting fault
  | .close status =>
    let (bytes, writer) := s.writer.close status
    let deadline := s.deadline.getD (s.now + s.patience)
    { s with writer, deadline := some deadline }.put obstacle bytes
  | .shutdown => { s with writing := .leaving .finished }

/-- Whether anybody may still give a command. -/
def isCommanded (s : Session) : Bool :=
  s.held || match s.reading with
    | .over => false
    | _ => true

/-- Whether the peer's time to answer the close frame is up. -/
def isOverdue (s : Session) : Bool :=
  match s.deadline with
  | some deadline => deadline ≤ s.now
  | none => false

/-- The reading loop is cut off, unless it is leaving by itself. -/
def cutReading (s : Session) : Session :=
  match s.reading with
  | .running _ => { s with reading := .over, queue := s.queue.dropSink.1 }
  | _ => s

/-- The connection lets its own sink go; if the peer did not answer in time,
the connection is cut off first. -/
def finish (s : Session) : Ending → Session
  | .finished => { s with queue := s.queue.dropSink.1 }
  | .timedOut =>
    let s := s.cutReading.report lostEvent
    { s with queue := s.queue.dropSink.1 }

/-- The direction is shut down, and the writing loop is over. -/
def endWriting (s : Session) (ending : Ending) : Session :=
  { s with
    writer := s.writer.shutdown
    writing := .over ending
    commands := []
    sent := s.sent ++ [Outgoing.fin]
    queue := s.queue.dropSink.1 : Session }.finish ending

/-- One turn of the writing loop, unless it has to wait or is over.  A command
that is there is carried out, however late it is. -/
def writeStep (s : Session) (obstacle : Option String) : Option Session :=
  match s.writing with
  | .running =>
    match s.commands with
    | command :: commands => some ({ s with commands }.perform obstacle command)
    | [] =>
      if !s.isCommanded then some { s with writing := .leaving .finished }
      else if s.isOverdue then some { s with writing := .leaving .timedOut }
      else none
  | .leaving ending => some (s.endWriting ending)
  | .over _ => none

/-! ## The caller, the peer and the time -/

def submit (s : Session) (message : Message) : Except Trouble Unit × Session :=
  if s.takesCommands then (.ok (), s.command (.send message))
  else (.error (.connection (.connectionClosed none)), s)

/-- The caller asks for the close, at most once. -/
def requestClose (s : Session) : Session :=
  if s.closeRequested then s
  else { s with closeRequested := true }.command (.close (some ⟨.normal, ""⟩))

/-- The caller gives the session up, with or without having asked for the close. -/
def drop (s : Session) : Session :=
  { s.requestClose with held := false }

/-- The caller pulls an event of an expected kind, or of any. -/
def next (s : Session) (expected : Option Event.Kind) : Polled (Except Trouble Event) × Session :=
  let (answer, queue) := s.queue.next expected
  (answer, { s with queue })

/-- Something from the peer arrives. -/
def arrive (s : Session) (incoming : Outgoing) : Session :=
  { s with source := incoming.arrive s.source }

def elapse (s : Session) (milliseconds : Nat) : Session :=
  { s with now := s.now + milliseconds }

end Session

end DeflateTrial
