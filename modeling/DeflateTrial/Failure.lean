/-
Failures — a trial that stopped, with what is needed to repeat it
-/
import DeflateTrial.Configuration
import DeflateTrial.Scenario

namespace DeflateTrial

structure Failure where
  scenario : Scenario
  configuration : Configuration
  /-- The exponent of the payload that was under way, if one was. -/
  exponent : Option Nat
  trouble : Trouble
deriving DecidableEq, Repr

namespace Failure

/-- The size of the payload that was under way. -/
def payloadSize? (failure : Failure) : Option Nat :=
  failure.exponent.map (1 <<< ·)

/-- How far the scenario had come. -/
def progress : Option Nat → String
  | some exponent =>
    s!" at 2^{Text.Decimal.write exponent} ({Text.Decimal.write (1 <<< exponent)} bytes)"
  | none => ""

def message (failure : Failure) : String :=
  let configuration := failure.configuration.describe
  let reached := progress failure.exponent
  let trouble := failure.trouble.message
  s!"{failure.scenario.path} scenario failed with [{configuration}]{reached}: {trouble}"

end Failure

end DeflateTrial
