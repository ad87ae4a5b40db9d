/-
The command line
-/
import DeflateTrial.Live

/-- Executes the command line on this machine. -/
def main (words : List String) : IO UInt32 := do
  let midLine ← IO.mkRef false
  DeflateTrial.CommandLine.execute (DeflateTrial.Live.host midLine) words
