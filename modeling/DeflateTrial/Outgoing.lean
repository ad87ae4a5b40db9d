/-
Outgoing — what an end of a connection gives to the network, in order
-/
import DeflateTrial.Source

namespace DeflateTrial

/-- One thing that an end gives to the network. -/
inductive Outgoing where
  | bytes (bytes : Bytes)
  /-- The end of the direction. -/
  | fin
deriving DecidableEq, Repr

namespace Outgoing

/-- The bytes among what was given to the network. -/
def allBytes (sent : List Outgoing) : Bytes :=
  sent.flatMap fun
    | .bytes these => these
    | .fin => []

/-- What the other end can read once one thing more has arrived. -/
def arrive (source : Source) : Outgoing → Source
  | .bytes these => source.push these
  | .fin => source.finish

/-- What the other end can read once everything has arrived. -/
def arriveAll (source : Source) (sent : List Outgoing) : Source :=
  sent.foldl arrive source

end Outgoing

end DeflateTrial
