/-
Scenarios — the two conversations that a server is tried with

Both send payloads of powers of two, one binary message at a time, and check
the one reply to each.  One expects the payload's digest, the other the
payload itself.
-/
import DeflateTrial.Digest.Md5
import DeflateTrial.Text.Quoted
import DeflateTrial.Text.Replacement
import DeflateTrial.Trouble

namespace DeflateTrial

/-- Which endpoint is tried, and what its replies have to be. -/
inductive Scenario where
  /-- The reply is the payload's digest in hexadecimal. -/
  | hashCheck
  | echo
deriving DecidableEq, Repr

namespace Scenario

/-- Both scenarios, in the order in which they run. -/
def all : List Scenario := [hashCheck, echo]

/-- The endpoint's path after the server's address, which is also the name of the scenario. -/
def path : Scenario → String
  | hashCheck => "md5"
  | echo => "echo"

/-- Where a text stands in a wider field. -/
inductive Alignment where
  | left
  | right
  | center
deriving DecidableEq, Repr

/-- The name of a scenario in a field of some width. -/
def padded (scenario : Scenario) (alignment : Alignment) (width : Nat) : String :=
  let name := scenario.path.toList
  let gap := width - name.length
  let before := match alignment with
    | .left => 0
    | .right => gap
    | .center => gap / 2
  String.ofList (List.replicate before ' ' ++ name ++ List.replicate (gap - before) ' ')

/-- How many bytes of a wrong reply are shown. -/
def shownBytes : Nat := 64

/-- A wrong reply as a diagnostic shows it. -/
def showReply (reply : Bytes) : String :=
  let text := Text.Replacement.read (reply.take shownBytes)
  if reply.length > shownBytes then
    s!"{text}... ({Text.Decimal.write reply.length} bytes)"
  else text

/-- The first position at which two byte strings differ, or the length of the shorter. -/
def firstDifference : Bytes → Bytes → Nat
  | a :: as, b :: bs => if a = b then firstDifference as bs + 1 else 0
  | _, _ => 0

/-- The reply that is due to a payload. -/
def due (scenario : Scenario) (payload : Bytes) : Bytes :=
  match scenario with
  | hashCheck => Bytes.ofText (Digest.Md5.hex payload)
  | echo => payload

/-- What is wrong with a reply that is not the one that is due. -/
def complaint (scenario : Scenario) (payload reply : Bytes) : String :=
  match scenario with
  | hashCheck =>
    let digest := Digest.Md5.hex payload
    let shown := Text.Quoted.quote (showReply reply)
    s!"md5 of payload must match server's response: expected {digest}, got {shown}"
  | echo =>
    let sent := Text.Decimal.write payload.length
    let received := Text.Decimal.write reply.length
    let offset := Text.Decimal.write (firstDifference payload reply)
    let sizes := s!"sent {sent} bytes, received {received} bytes"
    s!"payload must match server's response: {sizes}, first difference at offset {offset}"

/-- Checks a reply against the payload that provoked it. -/
def check (scenario : Scenario) (payload reply : Bytes) : Except Trouble Unit :=
  if reply = scenario.due payload then .ok ()
  else .error (.assertion (scenario.complaint payload reply))

end Scenario

end DeflateTrial
