/-
Lines — trials of the reference server over connections that take their time

A line joins a session to a connection of the reference server as a network
does: what one end gives to it arrives at the other whole and in order, but in
pieces of any size and at any time.  The loops of the session, the server and
the network take their turns in any order.  Which turns are taken is left to
chance, like payloads, keys and masks; whatever is still due when a trial
looks for it happens once then.
-/
import DeflateTrial.Loopback

namespace DeflateTrial

/-- What can happen on a line while a trial waits. -/
inductive Turn where
  /-- A turn of the session's reading loop. -/
  | read
  /-- A turn of the session's writing loop. -/
  | write
  /-- A turn of the server. -/
  | serve
  /-- At most so many bytes arrive at the server, in one piece. -/
  | up (count : Nat)
  /-- At most so many bytes arrive at the client, in one piece. -/
  | down (count : Nat)
  | elapse (milliseconds : Nat)
deriving DecidableEq, Repr

/-- The next bytes of what is under way arrive; the end of the direction
arrives when no bytes are left.  With it what is then under way. -/
def carry (count : Nat) (way : List Outgoing) (source : Source) : List Outgoing × Source :=
  match Outgoing.allBytes way with
  | [] => if way.contains .fin then ([], source.finish) else ([], source)
  | bytes =>
    if count = 0 then (way, source)
    else (.bytes (bytes.drop count) :: way.filter (· = .fin), source.push (bytes.take count))

/-- A session, the server's end of its connection, and what is between them:
what either has sent is under way until it arrives at the other. -/
structure Line where
  session : Session
  server : Server.Connection

namespace Line

def turn (line : Line) : Turn → Line
  | .read => { line with session := line.session.act .read }
  | .write => { line with session := line.session.act (.write none) }
  | .serve => { line with server := line.server.step.getD line.server }
  | .up count =>
    let (sent, source) := carry count line.session.sent line.server.source
    { session := { line.session with sent }, server := { line.server with source } }
  | .down count =>
    let (sent, source) := carry count line.server.sent line.session.source
    { session := { line.session with source }, server := { line.server with sent } }
  | .elapse milliseconds => { line with session := line.session.act (.elapse milliseconds) }

def turns (line : Line) (turns : List Turn) : Line :=
  turns.foldl turn line

/-- Everything that is under way to the server arrives. -/
def allUp (line : Line) : Line :=
  line.turn (.up (Outgoing.allBytes line.session.sent).length)

/-- Everything that is under way to the client arrives. -/
def allDown (line : Line) : Line :=
  line.turn (.down (Outgoing.allBytes line.server.sent).length)

/-- Everything that is due happens once, from the session's order to its event. -/
def round (line : Line) : Line :=
  ((((line.turn .write).allUp).turn .serve).allDown).turn .read

/-! ## Before the session is open -/

/-- A client whose request is under way, and the server's end of its connection. -/
structure Opening where
  sent : List Outgoing
  server : Server.Connection
  /-- What has arrived at the client. -/
  source : Source

namespace Opening

/-- The client does nothing but wait. -/
def turn (opening : Opening) : Turn → Opening
  | .serve => { opening with server := opening.server.step.getD opening.server }
  | .up count =>
    let (sent, source) := carry count opening.sent opening.server.source
    { opening with sent, server := { opening.server with source } }
  | .down count =>
    let (sent, source) := carry count opening.server.sent opening.source
    { opening with source, server := { opening.server with sent } }
  | .read | .write | .elapse _ => opening

def turns (opening : Opening) (turns : List Turn) : Opening :=
  turns.foldl turn opening

/-- Everything that is due happens once, from the request to the response. -/
def round (opening : Opening) : Opening :=
  let opening := opening.turn (.up (Outgoing.allBytes opening.sent).length)
  let opening := opening.turn .serve
  opening.turn (.down (Outgoing.allBytes opening.server.sent).length)

/-- What the opening comes to, by what has arrived at the client. -/
def complete (opening : Opening) (compressor : Deflate.Compressor) (plan : Session.Plan)
    (key : String) (seed : UInt32) : Polled (Except Trouble Line) :=
  match plan.complete {} key seed opening.source compressor with
  | .waiting => .waiting
  | .ready (.error trouble) => .ready (.error trouble)
  | .ready (.ok session) =>
    .ready (.ok ⟨{ session with sent := opening.sent ++ session.sent }, opening.server⟩)

end Opening

/-! ## The venue -/

/-- What is left to chance, by the number of the draw. -/
structure Chances where
  /-- What the random source gives for a key or a payload, position by position. -/
  byteAt : (draw position : Nat) → UInt8
  seed : (draw : Nat) → UInt32
  /-- What happens while a trial waits. -/
  turns : (draw : Nat) → List Turn

namespace Chances

/-- So many bytes from the random source. -/
def bytes (chances : Chances) (draw size : Nat) : Bytes :=
  (List.range size).map (chances.byteAt draw)

end Chances

/-- Opens a line to a server for a plan's session. -/
def knock (server : Server) (compressor : Deflate.Compressor) (plan : Session.Plan)
    (nonce : Bytes) (seed : UInt32) (turns : List Turn) : Except Trouble Line :=
  let key := Handshake.keyOf nonce
  match plan.requestText key with
  | .error fault => .error (Session.notOpened fault)
  | .ok request =>
    let opening : Opening :=
      ⟨[.bytes (Bytes.ofText request)], .new server .silent compressor, .silent⟩
    let opening := opening.turns turns
    match opening.complete compressor plan key seed with
    | .ready result => result
    | .waiting =>
      match opening.round.complete compressor plan key seed with
      | .ready result => result
      | .waiting => .error (Session.notOpened (.connectionClosed none))

/-- Opens a session to the server, if the network lets it. -/
def reach (server : Server) (compressor : Deflate.Compressor) (network : Network)
    (chances : Chances) (address : String) (configuration : Configuration) :
    Loopback.Step (Except Trouble Line) := do
  match Session.Plan.connect network address configuration with
  | .error fault => return .error (Session.notOpened fault)
  | .ok plan =>
    let n ← Loopback.draw
    return knock server compressor plan (chances.bytes n 16) (chances.seed n) (chances.turns n)

/-- Gives a line's session a binary message to send. -/
def send (line : Line) (payload : Bytes) : Except Trouble Line :=
  match line.session.submit (.binary payload) with
  | (.ok (), session) => .ok { line with session }
  | (.error trouble, _) => .error trouble

/-- Pulls an event from a line's session, if one is there. -/
def pull (line : Line) (kind : Event.Kind) : Polled (Except Trouble (Event × Line)) :=
  match line.session.next (some kind) with
  | (.ready (.ok event), session) => .ready (.ok (event, { line with session }))
  | (.ready (.error trouble), _) => .ready (.error trouble)
  | (.waiting, _) => .waiting

/-- Pulls an event when some turns have been taken, and what is still due then. -/
def await (line : Line) (turns : List Turn) (kind : Event.Kind) :
    Except Trouble (Event × Line) :=
  let line := line.turns turns
  match line.pull kind with
  | .ready result => result
  | .waiting =>
    match line.round.pull kind with
    | .ready result => result
    | .waiting => .error (.connection (.connectionClosed none))

/-- The venue at which a server is tried over lines. -/
def venue (server : Server) (compressor : Deflate.Compressor) (network : Network)
    (chances : Chances) : Venue Loopback.Step Line where
  reach address configuration :=
    ExceptT.mk (reach server compressor network chances address configuration)
  payload size := do
    let n ← Loopback.draw
    return chances.bytes n size
  send line payload := do
    let n ← Loopback.draw
    ExceptT.mk (pure ((line.turns (chances.turns n)).send payload))
  await line kind := do
    let n ← Loopback.draw
    ExceptT.mk (pure (line.await (chances.turns n) kind))
  leave _ := pure ()
  tell report := modify fun ledger => { ledger with reports := ledger.reports ++ [report] }

/-- Runs a trial of a server over lines: how it ended, and its reports. -/
def run (server : Server) (compressor : Deflate.Compressor) (network : Network)
    (chances : Chances) (trial : Trial) : Except Failure Unit × List Report :=
  let (result, ledger) := (trial.run (venue server compressor network chances)).run {}
  (result, ledger.reports)

end Line

end DeflateTrial
