/-
Reports — what a run tells while it goes on

A run reports when a scenario starts, each payload, when the scenario is
finished, and at last that the run failed or passed.  As text, a scenario is a
line of dots under the configuration that it runs with.
-/
import DeflateTrial.Failure

namespace DeflateTrial

inductive Report where
  /-- A session is open, and the scenario is about to send its first payload. -/
  | started (scenario : Scenario) (configuration : Configuration)
  /-- A payload of `2 ^ exponent` bytes is about to be sent. -/
  | payload (scenario : Scenario) (exponent : Nat)
  | finished (scenario : Scenario) (configuration : Configuration)
  | failed (failure : Failure)
  | passed
deriving DecidableEq, Repr

namespace Report

/-- The exponents of the payloads that a scenario sent, in order. -/
def exponents (scenario : Scenario) (reports : List Report) : List Nat :=
  reports.filterMap fun
    | .payload s exponent => if s = scenario then some exponent else none
    | _ => none

/-- The width of the field in which a scenario's name stands. -/
def nameWidth : Nat := 6

/-- A report as text; `midLine` tells whether a line of dots has been begun,
before the report and after it. -/
def write (midLine : Bool) (report : Report) : String × Bool :=
  let ended := if midLine then "\n" else ""
  match report with
  | started scenario configuration =>
    (s!"{ended}[{configuration.describe}]\n{scenario.padded .right nameWidth}: ", true)
  | payload .. => (".", midLine)
  | finished .. => (ended, false)
  | failed failure => (s!"{ended}{failure.message}\n", false)
  | passed => (s!"{ended}All tests passed!\n", false)

def writeEach (midLine : Bool) : List Report → List String
  | [] => []
  | report :: rest =>
    let (text, midLine) := write midLine report
    text :: writeEach midLine rest

def writeAll (reports : List Report) : String :=
  String.join (writeEach false reports)

end Report

end DeflateTrial
