/-
Events — what a connection reports to the run that uses it

Open comes first and at most once.  Close and error are terminal: nothing
follows them.
-/
import DeflateTrial.Close

namespace DeflateTrial

/-- One report from a connection. -/
inductive Event where
  | open
  | message (data : Bytes) (isBinary : Bool)
  | close (status : CloseFrame)
  | error (cause : Fault)
deriving DecidableEq, Repr

namespace Event

inductive Kind where
  | open
  | message
  | close
  | error
deriving DecidableEq, Repr

def Kind.name : Kind → String
  | .open => "open"
  | .message => "message"
  | .close => "close"
  | .error => "error"

def kind : Event → Kind
  | .open => .open
  | .message .. => .message
  | .close _ => .close
  | .error _ => .error

/-- Whether nothing may follow the event. -/
def isTerminal : Event → Bool
  | .open | .message .. => false
  | .close _ | .error _ => true

def data? : Event → Option Bytes
  | .message data _ => some data
  | _ => none

end Event

end DeflateTrial
