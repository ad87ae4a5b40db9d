/-
Trials — every scenario under every configuration, against one server

A trial names the server, the configurations and the scenarios, and how large
the payloads grow.  It is only sound if the payloads outgrow every window that
its configurations ask for: a window that no payload fills is not tried.
-/
import DeflateTrial.Failure
import DeflateTrial.Target

namespace DeflateTrial

/-- What is tried. -/
structure Trial where
  /-- The server's address, which ends in a slash. -/
  address : String
  /-- The configurations, in the order in which they are tried. -/
  configurations : List Configuration
  /-- The scenarios that are run under each configuration, in order. -/
  scenarios : List Scenario
  /-- The last payload has two to this power of bytes. -/
  maxExponent : Nat
deriving DecidableEq, Repr

namespace Trial

/-- A configuration with small windows that compresses every message. -/
def smallWindows : Configuration :=
  ((Configuration.plain.withThreshold 0).withServerWindow 9).withClientWindow 9

/-- The configurations that are tried unless others are named. -/
def usualConfigurations : List Configuration :=
  [.disabled, .plain, Configuration.plain.withThreshold 0, smallWindows,
    smallWindows.withServerNoContext true]

/-- The exponent of the last payload, unless another is named: 2 MiB. -/
def usualExponent : Nat := 21

/-- No payload can have two to this power of bytes, or more. -/
def exponentBound : Nat := 64

/-- An address that ends in a slash. -/
def completed (address : String) : String :=
  if address.toList.getLast? = some '/' then address else address ++ "/"

/-- The usual trial of the server at an address. -/
def against (address : String) : Except Trouble Trial :=
  match Target.parse address with
  | .error fault => .error (.config fault.message)
  | .ok _ => .ok ⟨completed address, usualConfigurations, Scenario.all, usualExponent⟩

def url (trial : Trial) (scenario : Scenario) : String :=
  trial.address ++ scenario.path

/-- The failure of a trial that is not sound: it belongs to the first scenario. -/
def unsound (trial : Trial) (configuration : Configuration) (what : String) : Failure where
  scenario := trial.scenarios.head?.getD .hashCheck
  configuration := configuration
  exponent := none
  trouble := .config what

/-- Why a configuration cannot be tried with payloads that small. -/
def windowObstacle? (trial : Trial) (configuration : Configuration) : Option Failure :=
  match configuration.maxWindowBits with
  | none => none
  | some bits =>
    if trial.maxExponent < bits then
      let exponent := Text.Decimal.write trial.maxExponent
      let window := Text.Decimal.write bits
      some (trial.unsound configuration
        s!"max bits {exponent} is below the window size {window} under test")
    else none

/-- Why a trial is not sound, unless it is. -/
def obstacle? (trial : Trial) : Option Failure :=
  match trial.configurations.findSome? trial.windowObstacle? with
  | some failure => some failure
  | none =>
    if trial.maxExponent ≥ exponentBound then
      let exponent := Text.Decimal.write trial.maxExponent
      some (trial.unsound (trial.configurations.head?.getD .disabled)
        s!"max bits {exponent} is too large")
    else none

end Trial

end DeflateTrial
