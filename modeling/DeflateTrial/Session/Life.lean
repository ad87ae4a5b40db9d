/-
Lives — a session from the attempt to open it

A caller that opens a session waits for the first event.  Meanwhile the
connection is made: the address is connected to, the request is written and
the response is read.  If that fails, the fault is the first event and the
only one; otherwise the opening is, and the two loops begin.
-/
import DeflateTrial.Session.Run

namespace DeflateTrial.Session

/-- What a session is opened with. -/
structure Attempt where
  network : Network
  address : String
  configuration : Configuration
  transport : Transport
  /-- The key of the request. -/
  key : String
  /-- What starts the masks. -/
  seed : UInt32
  compressor : Deflate.Compressor
  /-- What the network has against the request, if anything. -/
  obstacle : Option String

/-- What an attempt comes to, by what the peer has sent. -/
def Attempt.establish (attempt : Attempt) (source : Source) : Polled (Except Fault Session) :=
  match Plan.connect attempt.network attempt.address attempt.configuration with
  | .error fault => .ready (.error fault)
  | .ok plan =>
    match plan.requestText attempt.key with
    | .error fault => .ready (.error fault)
    | .ok _ =>
      match attempt.obstacle with
      | some what => .ready (.error (.io what))
      | none => plan.establish attempt.transport attempt.key attempt.seed source attempt.compressor

/-- How far an attempt has come. -/
inductive Life where
  /-- The response is awaited; this is what has arrived from the peer. -/
  | opening (source : Source)
  | failed (queue : Queue)
  | begun (session : Session)

namespace Life

/-- The queue that the caller pulls from. -/
def queue : Life → Queue
  | opening _ => .new
  | failed queue => queue
  | begun session => session.queue

/-- The life after a step.  Until the session has begun, a turn of its reading
loop is a turn of what makes the connection. -/
def act (attempt : Attempt) : Life → Action → Life
  | opening source, .read =>
    match attempt.establish source with
    | .waiting => opening source
    | .ready (.error fault) => failed (failedQueue fault)
    | .ready (.ok session) => begun session
  | opening source, .arrive incoming => opening (incoming.arrive source)
  | opening source, _ => opening source
  | failed queue, .next expected => failed (queue.next expected).2
  | failed queue, _ => failed queue
  | begun session, action => begun (session.act action)

/-- The life after steps in some order. -/
def acts (attempt : Attempt) (life : Life) (actions : List Action) : Life :=
  actions.foldl (act attempt) life

end Life

end DeflateTrial.Session
