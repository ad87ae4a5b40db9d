/-
Listening addresses — where a server can be told to listen

A host and a port, with a colon between them; the port is what follows the
last colon.
-/
import DeflateTrial.Fault
import DeflateTrial.Text.Split

namespace DeflateTrial

structure ListeningAddress where
  host : String
  port : Nat
deriving DecidableEq, Repr

namespace ListeningAddress

def parse (text : String) : Except Fault ListeningAddress :=
  match Text.cutLast ':' text.toList with
  | none => .error (.io "invalid socket address")
  | some (host, port) =>
    match Text.Decimal.readBelow? 65536 port with
    | none => .error (.io "invalid port value")
    | some port => .ok ⟨String.ofList host, port⟩

/-- The name of the socket that listens there. -/
def name (address : ListeningAddress) : String :=
  s!"{address.host}:{Text.Decimal.write address.port}"

/-- Where a server can be reached whose socket has this name. -/
def urlOf (name : String) : String :=
  s!"ws://{name}/"

end ListeningAddress

end DeflateTrial
