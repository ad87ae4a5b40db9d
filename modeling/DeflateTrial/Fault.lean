/-
Faults — everything that can go wrong on a connection

A fault names its cause: framing, handshake, compression, negotiation, size
limits, or the transport below.  `Fault.message` is the one place that words
them.
-/
import DeflateTrial.Text.Decimal

namespace DeflateTrial

open Text (Decimal.write Decimal.writeHex)

/-- The cause of a failed transport operation. -/
inductive Fault where
  /-- The peer broke a rule of the message protocol. -/
  | protocolViolation (what : String)
  /-- A text message or a close reason is not UTF-8. -/
  | invalidUtf8
  | frameTooLarge (size max : Nat)
  | messageTooLarge (size max : Nat)
  /-- The connection is over, with the peer's close code if it sent one. -/
  | connectionClosed (code : Option UInt16)
  | invalidHandshake (what : String)
  | handshakeTooLarge (size max : Nat)
  /-- A header value would break the head that carries it. -/
  | invalidHeaderValue (header reason : String)
  | io (what : String)
  | extension (what : String)
  /-- An extension was configured or negotiated wrongly. -/
  | invalidExtension (what : String)
  /-- A frame has an opcode kept for later versions of the protocol. -/
  | reservedOpcode (value : UInt8)
  | invalidOpcode (value : UInt8)
  | fragmentedControlFrame
  /-- A control frame's payload is longer than 125 bytes. -/
  | controlFrameTooLarge (size : Nat)
  | unmaskedClientFrame
  | maskedServerFrame
  /-- A reserved bit is set that no extension gives a meaning. -/
  | reservedBitsSet
  /-- A frame is not complete yet. -/
  | incompleteFrame (needed : Nat)
  | invalidUrl (what : String)
deriving DecidableEq, Repr

namespace Fault

def name : Fault → String
  | protocolViolation _ => "ProtocolViolation"
  | invalidUtf8 => "InvalidUtf8"
  | frameTooLarge .. => "FrameTooLarge"
  | messageTooLarge .. => "MessageTooLarge"
  | connectionClosed _ => "ConnectionClosed"
  | invalidHandshake _ => "InvalidHandshake"
  | handshakeTooLarge .. => "HandshakeTooLarge"
  | invalidHeaderValue .. => "InvalidHeaderValue"
  | io _ => "Io"
  | extension _ => "Extension"
  | invalidExtension _ => "InvalidExtension"
  | reservedOpcode _ => "ReservedOpcode"
  | invalidOpcode _ => "InvalidOpcode"
  | fragmentedControlFrame => "FragmentedControlFrame"
  | controlFrameTooLarge _ => "ControlFrameTooLarge"
  | unmaskedClientFrame => "UnmaskedClientFrame"
  | maskedServerFrame => "MaskedServerFrame"
  | reservedBitsSet => "ReservedBitsSet"
  | incompleteFrame _ => "IncompleteFrame"
  | invalidUrl _ => "InvalidUrl"

/-- How a close code that may be missing is shown. -/
def showCode : Option UInt16 → String
  | none => "None"
  | some code => s!"Some({Decimal.write code.toNat})"

/-- A size and the limit it exceeds. -/
def overLimit (what : String) (size max : Nat) : String :=
  s!"{what} too large: {Decimal.write size} bytes (max: {Decimal.write max})"

def message : Fault → String
  | protocolViolation what => s!"Protocol violation: {what}"
  | invalidUtf8 => "Invalid UTF-8 in text frame"
  | frameTooLarge size max => overLimit "Frame" size max
  | messageTooLarge size max => overLimit "Message" size max
  | connectionClosed code => s!"Connection closed: {showCode code}"
  | invalidHandshake what => s!"Invalid handshake: {what}"
  | handshakeTooLarge size max => overLimit "Handshake" size max
  | invalidHeaderValue header reason => s!"Invalid value for header {header}: {reason}"
  | io what => s!"I/O error: {what}"
  | extension what => s!"Extension error: {what}"
  | invalidExtension what => s!"Invalid extension: {what}"
  | reservedOpcode value => s!"Reserved opcode: 0x{Decimal.writeHex value.toNat}"
  | invalidOpcode value => s!"Invalid opcode: 0x{Decimal.writeHex value.toNat}"
  | fragmentedControlFrame => "Control frames cannot be fragmented"
  | controlFrameTooLarge size =>
    s!"Control frame payload too large: {Decimal.write size} bytes (max: 125)"
  | unmaskedClientFrame => "Client frame must be masked"
  | maskedServerFrame => "Server frame must not be masked"
  | reservedBitsSet => "Reserved bits set without negotiated extension"
  | incompleteFrame needed => s!"Incomplete frame: need {Decimal.write needed} more bytes"
  | invalidUrl what => s!"Invalid URL: {what}"

end Fault

theorem exists_of_bind_ok {ε α β : Type} {first : Except ε α} {next : α → Except ε β} {b : β}
    (h : (first >>= next) = .ok b) : ∃ a, first = .ok a ∧ next a = .ok b := by
  cases first with
  | error cause => cases h
  | ok a => exact ⟨a, rfl, h⟩

end DeflateTrial
