/-
Troubles — why a trial stops

Besides the faults of a connection, a trial stops when an event of the wrong
kind comes, when a reply is not the right one, when a session does not open,
and when the trial itself was set up inconsistently.
-/
import DeflateTrial.Event

namespace DeflateTrial

/-- The reason why a trial stops. -/
inductive Trouble where
  /-- An event came that was not of the expected kind. -/
  | unexpectedEvent (expected actual : Event.Kind)
  | connection (cause : Fault)
  /-- A reply is not the one that was due. -/
  | assertion (what : String)
  /-- The first event of a session was not its opening. -/
  | establishment (cause : Trouble)
  /-- The trial is set up inconsistently. -/
  | config (what : String)
deriving DecidableEq, Repr

def Trouble.message : Trouble → String
  | unexpectedEvent expected actual =>
    s!"Unexpected WebSocket event (expected '{expected.name}', got '{actual.name}')"
  | connection cause => s!"connection error: {cause.message}"
  | assertion what => s!"assertion failed: {what}"
  | establishment cause => s!"session establishment failed: {cause.message}"
  | config what => s!"invalid configuration: {what}"

end DeflateTrial
