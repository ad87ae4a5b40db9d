/-
Configurations — what a session asks of the extension under trial

A disabled configuration offers no compression.  An enabled one offers it
with the given limits and flags; its text names all of them, in a fixed order,
so that a failed run can be repeated.
-/
import DeflateTrial.Text.Decimal

namespace DeflateTrial

/-- The compression parameters requested when a session is opened. -/
structure Configuration where
  enabled : Bool := false
  /-- Shorter messages are sent as they are; by default those below 1024 bytes. -/
  threshold : Option Nat := none
  /-- The exponent of the server's window that is asked for. -/
  serverWindowBits : Option Nat := none
  /-- The exponent of the client's window that is asked for. -/
  clientWindowBits : Option Nat := none
  /-- Ask the server to forget its context after every message. -/
  serverNoContext : Bool := false
  /-- Forget the client's context after every message. -/
  clientNoContext : Bool := false
deriving DecidableEq, Repr

namespace Configuration

/-- The exponent of a window of which nothing is said. -/
def usualWindowBits : Nat := 15

def disabled : Configuration := {}

/-- An offer without limits. -/
def plain : Configuration := { enabled := true }

/-- Sets the threshold, and enables the offer. -/
def withThreshold (c : Configuration) (bytes : Nat) : Configuration :=
  { c with enabled := true, threshold := some bytes }

/-- Asks for a server window, and enables the offer. -/
def withServerWindow (c : Configuration) (bits : Nat) : Configuration :=
  { c with enabled := true, serverWindowBits := some bits }

/-- Asks for a client window, and enables the offer. -/
def withClientWindow (c : Configuration) (bits : Nat) : Configuration :=
  { c with enabled := true, clientWindowBits := some bits }

/-- Sets the server's context flag, and enables the offer. -/
def withServerNoContext (c : Configuration) (value : Bool) : Configuration :=
  { c with enabled := true, serverNoContext := value }

/-- Sets the client's context flag, and enables the offer. -/
def withClientNoContext (c : Configuration) (value : Bool) : Configuration :=
  { c with enabled := true, clientNoContext := value }

/-- The greatest window exponent in use on either side, if compression is offered. -/
def maxWindowBits (c : Configuration) : Option Nat :=
  if c.enabled then
    some (max (c.serverWindowBits.getD usualWindowBits) (c.clientWindowBits.getD usualWindowBits))
  else none

/-- A part of the text that names a number. -/
def numberPart (name : String) : Option Nat → List String
  | some n => [s!"{name}={Text.Decimal.write n}"]
  | none => []

/-- A part of the text that is there or not. -/
def flagPart (name : String) (set : Bool) : List String :=
  if set then [name] else []

/-- The parts of an enabled configuration's text. -/
def parts (c : Configuration) : List String :=
  ["permessage-deflate"]
    ++ numberPart "threshold" c.threshold
    ++ numberPart "server_max_window_bits" c.serverWindowBits
    ++ numberPart "client_max_window_bits" c.clientWindowBits
    ++ flagPart "server_no_context_takeover" c.serverNoContext
    ++ flagPart "client_no_context_takeover" c.clientNoContext

def describe (c : Configuration) : String :=
  if c.enabled then String.intercalate "; " c.parts else "disabled"

end Configuration

end DeflateTrial
