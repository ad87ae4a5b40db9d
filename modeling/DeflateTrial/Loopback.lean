/-
Loopback — trials of the reference server, with nothing between the two ends

A link joins a session to a connection of the reference server: what one end
gives to the network arrives at the other, whole and in order.  The chances
that a live trial takes — payloads, keys, masks — are functions here.
-/
import DeflateTrial.Server.Conversation
import DeflateTrial.Session.Run
import DeflateTrial.Trial.Run

namespace DeflateTrial

namespace Loopback

/-- A session and the server's end of its connection. -/
structure Link where
  session : Session
  server : Server.Connection

namespace Link

/-- Everything that the session gives to the network arrives at the server. -/
def up (link : Link) : Link :=
  let session := link.session.settle
  { session := { session with sent := [] }
    server := (session.sent.foldl Server.Connection.arrive link.server).settle }

/-- Everything that the server gives to the network arrives at the session. -/
def down (link : Link) : Link :=
  { session := (link.server.sent.foldl Session.arrive link.session).settle
    server := { link.server with sent := [] } }

/-- Both ends have said what they have to say: the session, the server in
reply, and the session in reply to that. -/
def exchange (link : Link) : Link :=
  link.up.down.up.down

end Link

/-- What is left to chance, by the number of the draw. -/
structure Chances where
  payload : (draw size : Nat) → Bytes
  nonce : (draw : Nat) → Bytes
  seed : (draw : Nat) → UInt32

/-- What a trial leaves behind. -/
structure Ledger where
  draws : Nat := 0
  reports : List Report := []

/-- A step of a trial on a loopback. -/
abbrev Step := StateM Ledger

/-- The number of the next draw. -/
def draw : Step Nat :=
  modifyGet fun ledger => (ledger.draws, { ledger with draws := ledger.draws + 1 })

/-- The link of a plan's session to a server. -/
def join (server : Server) (transport : Transport) (plan : Session.Plan) (nonce : Bytes)
    (seed : UInt32) : Except Trouble Link :=
  let key := Handshake.keyOf nonce
  match plan.requestText key with
  | .error fault => .error (Session.notOpened fault)
  | .ok request =>
    let source := Source.silent.push (Bytes.ofText request)
    let connection := (Server.Connection.new server source).settle
    match plan.complete transport key seed (Outgoing.arriveAll .silent connection.sent) with
    | .ready (.ok session) => .ok ⟨session, { connection with sent := [] }⟩
    | .ready (.error trouble) => .error trouble
    | .waiting => .error (Session.notOpened (.connectionClosed none))

/-- Opens a session to the server, if the network lets it. -/
def reach (server : Server) (network : Network) (chances : Chances) (address : String)
    (configuration : Configuration) : Step (Except Trouble Link) := do
  match Session.Plan.connect network address configuration with
  | .error fault => return .error (Session.notOpened fault)
  | .ok plan =>
    let n ← draw
    return join server {} plan (chances.nonce n) (chances.seed n)

/-- Sends a binary message through a link. -/
def send (link : Link) (payload : Bytes) : Except Trouble Link :=
  match link.session.submit (.binary payload) with
  | (.ok (), session) => .ok { link with session }.exchange
  | (.error trouble, _) => .error trouble

/-- Pulls an event from a link; what has not come by now does not come. -/
def await (link : Link) (kind : Event.Kind) : Except Trouble (Event × Link) :=
  match link.session.next (some kind) with
  | (.ready (.ok event), session) => .ok (event, { link with session })
  | (.ready (.error trouble), _) => .error trouble
  | (.waiting, _) => .error (.connection (.connectionClosed none))

/-- The venue at which a server is tried over a loopback. -/
def venue (server : Server) (network : Network) (chances : Chances) : Venue Step Link where
  reach address configuration := reach server network chances address configuration
  payload size := do
    let n ← draw
    return chances.payload n size
  send link payload := ExceptT.mk (pure (send link payload))
  await link kind := ExceptT.mk (pure (await link kind))
  leave _ := pure ()
  tell report := modify fun ledger => { ledger with reports := ledger.reports ++ [report] }

/-- Runs a trial of a server: how it ended, and its reports. -/
def run (server : Server) (network : Network) (chances : Chances) (trial : Trial) :
    Except Failure Unit × List Report :=
  let (result, ledger) := (trial.run (venue server network chances)).run {}
  (result, ledger.reports)

end Loopback

end DeflateTrial
