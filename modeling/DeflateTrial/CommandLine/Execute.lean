/-
Executing command lines — what is done, and the status that it ends with

The status is 0 if everything passed, 1 if a scenario failed, and 2 if the
command line or the trial is not right.  What the machine has to do for it —
start a program, reach a server, listen — is a host's affair.
-/
import DeflateTrial.CommandLine.Options
import DeflateTrial.Trial.Run

namespace DeflateTrial

/-- Why a program that should start a server is of no use. -/
inductive LaunchProblem where
  | notStarted (what : String)
  /-- The program came to its end while it was given time to listen. -/
  | exited (status : String)
deriving DecidableEq, Repr

/-- The problem of a program as a fault. -/
def LaunchProblem.fault (program : String) : LaunchProblem → Fault
  | notStarted what => .io s!"failed to spawn {program}: {what}"
  | exited status => .io s!"{program} exited during start-up: {status}"

/-- The machine that a command line is executed on. -/
structure Host (m : Type → Type) (Conn : Type) where
  venue : Venue m Conn
  /-- Starts a program and gives it some milliseconds. -/
  launch : (program : String) → (arguments : List String) → (delay : Nat) →
    ExceptT LaunchProblem m Unit
  stop : m Unit
  /-- Listens at an address and serves until told to stop; `ready` is told the
  server's own address. -/
  serve : (address : String) → (ready : String → m Unit) → ExceptT Fault m Unit
  /-- Does something for at most some seconds, if a number is given. -/
  within : {α : Type} → Option Nat → m α → m (Option α)
  print : String → m Unit
  /-- Writes to the standard error output. -/
  complain : String → m Unit

namespace CommandLine

/-- The status of a command line that is not right. -/
def misused : UInt32 := 2

/-- The status of a run. -/
def statusOf : Except Failure Unit → UInt32
  | .ok () => 0
  | .error failure =>
    match failure.trouble with
    | .config _ => misused
    | _ => 1

variable {m : Type → Type} [Monad m] {Conn : Type}

/-- Runs a trial, for as long as it may take. -/
def runTrial (host : Host m Conn) (options : RunOptions) (trial : Trial) : m UInt32 := do
  let result ← host.within options.timeout (trial.run host.venue)
  match result, options.timeout with
  | some result, _ => return statusOf result
  | none, seconds =>
    host.complain s!"\ntimed out after {Text.Decimal.write (seconds.getD 0)}s\n"
    return 1

def run (host : Host m Conn) (options : RunOptions) : m UInt32 := do
  match Trial.against options.address with
  | .error trouble =>
    host.complain s!"{trouble.message}\n"
    return misused
  | .ok trial =>
    let trial := { trial with maxExponent := options.maxExponent }
    match options.serverCommand with
    | [] => runTrial host options trial
    | program :: arguments =>
      match ← (host.launch program arguments options.startupDelay).run with
      | .error problem =>
        host.complain s!"{(problem.fault program).message}\n"
        return misused
      | .ok () =>
        let status ← runTrial host options trial
        host.stop
        return status

/-- What is said once the server listens. -/
def served (address : String) : String :=
  s!"Serving {address}md5 and {address}echo\n"

def serve (host : Host m Conn) (listen : String) : m UInt32 := do
  match ← (host.serve listen fun address => host.complain (served address)).run with
  | .error fault =>
    host.complain s!"cannot listen on {listen}: {fault.message}\n"
    return misused
  | .ok () => return 0

def execute (host : Host m Conn) (words : List String) : m UInt32 := do
  match read words with
  | .error misuse =>
    host.complain s!"error: {misuse.message}\n\n{usage}"
    return misused
  | .ok .help =>
    host.print usage
    return 0
  | .ok (.run options) => run host options
  | .ok (.serve listen) => serve host listen

end CommandLine

end DeflateTrial
