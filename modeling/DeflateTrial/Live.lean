/-
Live — trials and the reference server over real sockets

The outer layer: it moves bytes between sockets and the two state machines,
`Session` and `Server.Connection`, and decides nothing itself.
-/
import DeflateTrial.CommandLine.Execute
import DeflateTrial.Listening
import DeflateTrial.Server.Conversation
import DeflateTrial.Session.Run
import Std.Async.DNS
import Std.Async.Signal
import Std.Async.TCP

namespace DeflateTrial.Live

open Std.Async Std.Net

/-- The system's number for an error, if it has one. -/
def errorNumber? : IO.Error → Option Nat
  | .otherError code _ | .resourceBusy code _ | .resourceVanished code _
  | .unsupportedOperation code _ | .noSuchThing _ code _ | .timeExpired code _
  | .permissionDenied _ code _ | .invalidArgument _ code _ | .resourceExhausted _ code _ =>
    -- The sockets give the number with its sign turned.
    some (min code.toNat ((1 <<< 32) - code.toNat))
  | _ => none

/-- What the system calls the errors that networks bring. -/
def errorName? : Nat → Option String
  | 13 => some "Permission denied"
  | 32 => some "Broken pipe"
  | 98 => some "Address already in use"
  | 99 => some "Cannot assign requested address"
  | 101 => some "Network is unreachable"
  | 104 => some "Connection reset by peer"
  | 110 => some "Connection timed out"
  | 111 => some "Connection refused"
  | 113 => some "No route to host"
  | _ => none

def errorText (e : IO.Error) : String :=
  match errorNumber? e with
  | none => toString e
  | some number =>
    match errorName? number with
    | some name => s!"{name} (os error {number})"
    | none => toString e

/-- Does something whose exceptions are faults of the network. -/
def guarded {α : Type} (act : IO α) : ExceptT Fault IO α :=
  ExceptT.mk (tryCatch (Except.ok <$> act) fun e => pure (.error (.io (errorText e))))

def resolve (host : String) (port : Nat) : IO (List SocketAddress) := do
  let withPort : IPAddr → SocketAddress
    | .v4 address => .v4 ⟨address, UInt16.ofNat port⟩
    | .v6 address => .v6 ⟨address, UInt16.ofNat port⟩
  match IPv4Addr.ofString host, IPv6Addr.ofString host with
  | some address, _ => return [withPort (.v4 address)]
  | none, some address => return [withPort (.v6 address)]
  | none, none =>
    let found ← (DNS.getAddrInfo host (toString port)).block
    return found.toList.map withPort

/-- Connects to the first address that lets itself be connected to. -/
def connectTo : List SocketAddress → IO TCP.Socket.Client
  | [] => throw (IO.userError "no address to connect to")
  | address :: rest => do
    let socket ← TCP.Socket.Client.mk
    try
      (socket.connect address).block
      socket.noDelay
      return socket
    catch e =>
      if rest.isEmpty then throw e else connectTo rest

/-- Sends everything that an end has given to the network. -/
def transmit (socket : TCP.Socket.Client) (sent : List Outgoing) : IO Unit :=
  sent.forM fun
    | .bytes these => (socket.send (ByteArray.mk these.toArray)).block
    | .fin => socket.shutdown.block

/-- The next thing from the other end. -/
def receive (socket : TCP.Socket.Client) (size : Nat) : IO Outgoing := do
  match ← (socket.recv? (UInt64.ofNat size)).block with
  | some bytes => return .bytes bytes.toList
  | none => return .fin

/-- An open session and its socket. -/
structure Conn where
  socket : TCP.Socket.Client
  session : Session

/-- Both loops of the session have gone on, and what they sent is on its way. -/
def Conn.settle (conn : Conn) : IO Conn := do
  let session := conn.session.settle
  transmit conn.socket session.sent
  return { conn with session := { session with sent := [] } }

/-- Does something whose fault means that the session does not open. -/
def orNotOpened {α : Type} (act : ExceptT Fault IO α) : ExceptT Trouble IO α :=
  act.adapt Session.notOpened

/-- Reads the response until it is clear whether the session opens. -/
partial def complete (socket : TCP.Socket.Client) (plan : Session.Plan) (transport : Transport)
    (key : String) (seed : UInt32) (source : Source) : ExceptT Trouble IO Session := do
  match plan.complete transport key seed source with
  | .ready (.ok session) => return session
  | .ready (.error trouble) => throw trouble
  | .waiting =>
    let incoming ← orNotOpened (guarded (receive socket transport.readBuffer))
    complete socket plan transport key seed (incoming.arrive source)

/-- Connects to an address and sends the opening request with a key. -/
def knock (address : String) (configuration : Configuration) (key : String) :
    ExceptT Fault IO (TCP.Socket.Client × Session.Plan) := do
  let plan ← ExceptT.mk (pure (Session.Plan.make address configuration))
  let socket ← guarded do connectTo (← resolve plan.target.host plan.target.port)
  let request ← ExceptT.mk (pure (plan.requestText key))
  guarded (transmit socket [.bytes (Bytes.ofText request)])
  return (socket, plan)

def openSession (address : String) (configuration : Configuration) : ExceptT Trouble IO Conn := do
  let nonce ← orNotOpened (guarded (IO.getRandomBytes 16))
  let random ← orNotOpened (guarded (IO.getRandomBytes 4))
  let key := Handshake.keyOf nonce.toList
  let seed := UInt32.ofNat (Bytes.toNat random.toList)
  let (socket, plan) ← orNotOpened (knock address configuration key)
  let session ← complete socket plan {} key seed .silent
  orNotOpened (guarded (Conn.settle ⟨socket, session⟩))

/-- Pulls an event of a kind, and waits for it. -/
partial def await (conn : Conn) (kind : Event.Kind) : ExceptT Trouble IO (Event × Conn) := do
  match conn.session.next (some kind) with
  | (.ready (.ok event), session) => return (event, { conn with session })
  | (.ready (.error trouble), _) => throw trouble
  | (.waiting, session) =>
    let incoming ← (guarded (receive conn.socket ({} : Transport).readBuffer)).adapt .connection
    let conn ← (guarded
      (Conn.settle { conn with session := session.arrive incoming })).adapt .connection
    await conn kind

/-- Trials of live servers, whose reports go somewhere. -/
def venue (tell : Report → IO Unit) : Venue IO Conn where
  reach := openSession
  payload size := do
    let bytes ← (guarded (IO.getRandomBytes (USize.ofNat size))).adapt .connection
    return bytes.toList
  send conn payload := do
    match conn.session.submit (.binary payload) with
    | (.ok (), session) => (guarded (Conn.settle { conn with session })).adapt .connection
    | (.error trouble, _) => throw trouble
  await conn kind := await conn kind
  leave conn := do
    discard (guarded (Conn.settle { conn with session := conn.session.drop })).run
  tell := tell

/-- Serves one connection until it is over. -/
partial def converse (socket : TCP.Socket.Client) (connection : Server.Connection) : IO Unit := do
  let connection := connection.settle
  transmit socket connection.sent
  match connection.stage with
  | .over => return
  | _ =>
    let incoming ← receive socket connection.server.transport.readBuffer
    converse socket ({ connection with sent := [] }.arrive incoming)

/-- Serves every connection that is made, each in its own task. -/
partial def acceptAll (server : Server) (listener : TCP.Socket.Server) : IO Unit := do
  let socket ← listener.accept.block
  socket.noDelay
  discard (IO.asTask (converse socket (.new server .silent)))
  acceptAll server listener

/-- Serves the reference endpoints until the program is interrupted. -/
def serve (listen : String) (ready : String → IO Unit) : ExceptT Fault IO Unit := do
  let address ← ExceptT.mk (pure (ListeningAddress.parse listen))
  let listener ← guarded TCP.Socket.Server.mk
  let addresses ← guarded (resolve address.host address.port)
  match addresses with
  | [] => throw (.io "no address to listen at")
  | first :: _ =>
    guarded (listener.bind first)
    guarded (listener.listen 128)
    let name ← guarded listener.getSockName
    guarded (ready (ListeningAddress.urlOf s!"{name}"))
    guarded do
      discard (IO.asTask (acceptAll {} listener))
      let interrupt ← (← Signal.Waiter.mk .sigint false).wait
      discard interrupt.block

/-- Waits for a task until a time. -/
partial def waitUntil {α : Type} (deadline : Nat) (task : Task (Except IO.Error α)) :
    IO (Option α) := do
  if ← IO.hasFinished task then
    return some (← IO.ofExcept task.get)
  else if deadline ≤ (← IO.monoMsNow) then return none
  else
    IO.sleep 5
    waitUntil deadline task

/-- Does something for at most some seconds. -/
def within {α : Type} (seconds : Option Nat) (act : IO α) : IO (Option α) := do
  match seconds with
  | none => return some (← act)
  | some seconds =>
    let deadline := (← IO.monoMsNow) + 1000 * seconds
    waitUntil deadline (← IO.asTask act)

/-- Tells reports as text on the standard error output; `midLine` remembers
whether a line of dots has been begun. -/
def tell (midLine : IO.Ref Bool) (report : Report) : IO Unit := do
  let (written, after) := report.write (← midLine.get)
  midLine.set after
  IO.eprint written

/-- The machine that the program runs on.  It starts no programs itself. -/
def host (midLine : IO.Ref Bool) : Host IO Conn where
  venue := venue (tell midLine)
  launch _ _ _ := throw (.notStarted "Operation not supported (os error 95)")
  stop := pure ()
  serve := serve
  within := within
  print := IO.print
  complain := IO.eprint

end DeflateTrial.Live
