/-
Networks — what can be reached from where a trial runs
-/
import DeflateTrial.Target

namespace DeflateTrial

/-- What can be reached, and why the rest cannot. -/
structure Network where
  /-- What the system says when a host is connected to at a port in vain. -/
  obstacle : (host : String) → (port : Nat) → Option String

namespace Network

/-- A network on which nothing can be reached. -/
def unreachable : Network :=
  ⟨fun _ _ => some "Network is unreachable (os error 101)"⟩

/-- A network on which nobody listens. -/
def refusing : Network :=
  ⟨fun _ _ => some "Connection refused (os error 111)"⟩

/-- A network on which everybody listens. -/
def reachable : Network :=
  ⟨fun _ _ => none⟩

def connect (network : Network) (target : Target) : Except Fault Unit :=
  match network.obstacle target.host target.port with
  | some what => .error (.io what)
  | none => .ok ()

end Network

end DeflateTrial
