/-
Scripts — trials of which every outcome is laid down

A script says beforehand what becomes of each session that a trial asks for:
whether it opens, what the random source gives for its payloads, which of its
messages can be sent, and which events come after its opening.  Whatever a
trial meets with, it could have met with on some script.
-/
import DeflateTrial.Queue
import DeflateTrial.Trial.Run

namespace DeflateTrial.Trial

/-- What becomes of the sessions of a trial, by their number, and of the
payloads in each, by their exponent. -/
structure Script where
  opening : (session : Nat) → Except Trouble Unit
  /-- What the random source gives for a payload, position by position. -/
  random : (session exponent : Nat) → Except Trouble (Nat → UInt8)
  sending : (session exponent : Nat) → Except Trouble Unit
  /-- The events after the opening.  Nothing can come behind the last. -/
  events : (session : Nat) → List Event

namespace Script

/-- A session of a script, while it is open. -/
structure Conn where
  session : Nat
  /-- How many messages it was given to send. -/
  sent : Nat
  queue : Queue

/-- What a trial on a script leaves behind. -/
structure Ledger where
  /-- The sessions that were asked for: the address and the configuration of each. -/
  asked : List (String × Configuration) := []
  /-- How many payloads were made up for the last of them. -/
  drawn : Nat := 0
  /-- The messages that were given to be sent, each with the number of its session. -/
  given : List (Nat × Bytes) := []
  reports : List Report := []
deriving DecidableEq, Repr

abbrev Step := StateM Ledger

/-- A queue that holds these events and has lost its last sink. -/
def queueOf (events : List Event) : Queue :=
  ⟨events, none, events.length + 1, events.any Event.isTerminal, 0⟩

def reach (script : Script) (address : String) (configuration : Configuration) :
    Step (Except Trouble Conn) :=
  modifyGet fun ledger =>
    let session := ledger.asked.length
    ((script.opening session).map fun _ => ⟨session, 0, queueOf (script.events session)⟩,
      { ledger with asked := ledger.asked ++ [(address, configuration)], drawn := 0 })

/-- Makes up a payload for the session that was asked for last. -/
def payload (script : Script) (size : Nat) : Step (Except Trouble Bytes) :=
  modifyGet fun ledger =>
    ((script.random (ledger.asked.length - 1) ledger.drawn).map fun byteAt =>
      (List.range size).map byteAt,
      { ledger with drawn := ledger.drawn + 1 })

def send (script : Script) (conn : Conn) (message : Bytes) : Step (Except Trouble Conn) :=
  modifyGet fun ledger =>
    ((script.sending conn.session conn.sent).map fun _ => { conn with sent := conn.sent + 1 },
      { ledger with given := ledger.given ++ [(conn.session, message)] })

/-- Pulls an event; what has not come does not come. -/
def await (conn : Conn) (kind : Event.Kind) : Except Trouble (Event × Conn) :=
  match conn.queue.next (some kind) with
  | (.ready (.ok event), queue) => .ok (event, { conn with queue })
  | (.ready (.error trouble), _) => .error trouble
  | (.waiting, _) => .error (.connection (.connectionClosed none))

/-- The venue at which a trial meets with what the script lays down. -/
def venue (script : Script) : Venue Step Conn where
  reach address configuration := ExceptT.mk (script.reach address configuration)
  payload size := ExceptT.mk (script.payload size)
  send conn message := ExceptT.mk (script.send conn message)
  await conn kind := ExceptT.mk (pure (await conn kind))
  leave _ := pure ()
  tell report := modify fun ledger => { ledger with reports := ledger.reports ++ [report] }

/-- Runs a trial on a script: how it ended, and what it leaves behind. -/
def run (script : Script) (trial : Trial) : Except Failure Unit × Ledger :=
  (trial.run script.venue).run {}

end Script

end DeflateTrial.Trial
