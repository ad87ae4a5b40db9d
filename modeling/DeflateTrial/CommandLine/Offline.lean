/-
Offline — command lines on a machine that cannot reach anybody

The machine writes down what it is told to complain of.  The programs it starts
take the course that their command lines tell, and the machine itself takes no
time for anything.
-/
import DeflateTrial.CommandLine.Execute
import DeflateTrial.CommandLine.Program
import DeflateTrial.Listening
import DeflateTrial.Session.Basic

namespace DeflateTrial.CommandLine.Offline

/-- What has been written to the standard error output, and whether it ends
inside a line of dots. -/
structure Console where
  errors : String := ""
  midLine : Bool := false

/-- A step of the machine. -/
abbrev Step := StateM Console

/-- Writes to the standard error output. -/
def complain (text : String) : Step Unit :=
  modify fun console => { console with errors := console.errors ++ text }

def tell (report : Report) : Step Unit :=
  modify fun console =>
    let (text, midLine) := report.write console.midLine
    ⟨console.errors ++ text, midLine⟩

/-- Opens no session: the network has something against it, or nobody answers. -/
def refuse (network : Network) (address : String) (configuration : Configuration) : Trouble :=
  match Session.Plan.connect network address configuration with
  | .error fault => Session.notOpened fault
  | .ok _ => Session.notOpened (.connectionClosed none)

/-- What starting a program and giving it some milliseconds comes to. -/
def launch (program : String) (arguments : List String) (delay : Nat) :
    Except LaunchProblem Unit :=
  match courseOf program arguments with
  | .error what => .error (.notStarted what)
  | .ok course =>
    match course.endedWithin delay with
    | some ending => .error (.exited ending.text)
    | none => .ok ()

/-- Ports below this one are for the machine's owner. -/
def firstOpenPort : Nat := 1024

/-- What the machine says when it is told to listen in vain: low ports are
barred, and it has none of the addresses that are written in brackets. -/
def listeningObstacle (address : ListeningAddress) : Option String :=
  if 0 < address.port ∧ address.port < firstOpenPort then
    some "Permission denied (os error 13)"
  else if address.host.startsWith "[" ∧ address.host ≠ "[::]" then
    some "Cannot assign requested address (os error 99)"
  else none

/-- Listens at an address, and is told to stop at once. -/
def listen (text : String) : Except Fault Unit := do
  match listeningObstacle (← ListeningAddress.parse text) with
  | some what => throw (.io what)
  | none => return ()

/-- The machine on a network. -/
def host (network : Network) : Host Step Empty where
  venue := {
    reach := fun address configuration => throw (refuse network address configuration)
    payload := fun _ => throw (.config "no payloads here")
    send := fun conn _ => nomatch conn
    await := fun conn _ => nomatch conn
    leave := fun conn => nomatch conn
    tell := tell }
  launch program arguments delay := ExceptT.mk (pure (launch program arguments delay))
  stop := pure ()
  serve address _ := ExceptT.mk (pure (listen address))
  within _ act := some <$> act
  print _ := pure ()
  complain := complain

/-- Executes a command line: its status, and what it complains of. -/
def execute (network : Network) (words : List String) : UInt32 × String :=
  let (status, console) := (CommandLine.execute (host network) words).run {}
  (status, console.errors)

end DeflateTrial.CommandLine.Offline
