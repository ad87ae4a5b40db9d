/-
Running a trial — the steps, at a venue

A venue is where a trial takes place: it opens sessions, carries messages,
makes up payloads and hears the reports.  The run is the same at every venue.
It stops at the first failure, which it reports and returns.
-/
import DeflateTrial.Report
import DeflateTrial.Trial.Basic

namespace DeflateTrial

/-- Where a trial takes place; `Conn` is an open session. -/
structure Venue (m : Type → Type) (Conn : Type) where
  reach : (address : String) → Configuration → ExceptT Trouble m Conn
  payload : (size : Nat) → ExceptT Trouble m Bytes
  send : Conn → Bytes → ExceptT Trouble m Conn
  /-- Awaits an event of a kind. -/
  await : Conn → Event.Kind → ExceptT Trouble m (Event × Conn)
  leave : Conn → m Unit
  tell : Report → m Unit

namespace Trial

variable {m : Type → Type} [Monad m] {Conn : Type}

def roundTrip (venue : Venue m Conn) (scenario : Scenario) (conn : Conn) (exponent : Nat) :
    ExceptT Trouble m Conn := do
  let payload ← venue.payload (1 <<< exponent)
  let conn ← venue.send conn payload
  let (event, conn) ← venue.await conn .message
  match scenario.check payload (event.data?.getD []) with
  | .ok () => return conn
  | .error trouble => throw trouble

/-- A step whose trouble is a failure of a scenario. -/
def during {α : Type} (scenario : Scenario) (configuration : Configuration)
    (exponent : Option Nat) (step : ExceptT Trouble m α) : ExceptT Failure m α :=
  ExceptT.adapt (Failure.mk scenario configuration exponent) step

/-- Runs a scenario in an open session. -/
def runScenario (venue : Venue m Conn) (trial : Trial) (configuration : Configuration)
    (scenario : Scenario) (conn : Conn) : ExceptT Failure m Conn := do
  venue.tell (.started scenario configuration)
  let conn ← (List.range (trial.maxExponent + 1)).foldlM (fun conn exponent => do
    venue.tell (.payload scenario exponent)
    during scenario configuration (some exponent) (roundTrip venue scenario conn exponent)) conn
  venue.tell (.finished scenario configuration)
  return conn

/-- Opens a session, runs a scenario in it and closes it. -/
def runPair (venue : Venue m Conn) (trial : Trial) (configuration : Configuration)
    (scenario : Scenario) : ExceptT Failure m Unit := do
  let conn ← during scenario configuration none (venue.reach (trial.url scenario) configuration)
  let conn ← runScenario venue trial configuration scenario conn
  venue.leave conn

/-- Runs every scenario under every configuration, as far as nothing fails. -/
def runAll (venue : Venue m Conn) (trial : Trial) : ExceptT Failure m Unit :=
  match trial.obstacle? with
  | some failure => throw failure
  | none =>
    trial.configurations.forM fun configuration =>
      trial.scenarios.forM fun scenario => runPair venue trial configuration scenario

/-- Runs a trial and reports how it ended. -/
def run (venue : Venue m Conn) (trial : Trial) : m (Except Failure Unit) := do
  let result ← (trial.runAll venue).run
  match result with
  | .ok () => venue.tell .passed
  | .error failure => venue.tell (.failed failure)
  return result

end Trial

end DeflateTrial
