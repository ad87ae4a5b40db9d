/-
Frames — the unit in which bytes travel

A frame has an opcode, a final flag, the bit RSV1 that marks compressed
messages, and a payload.  Close, ping and pong are control frames: they are
never fragmented and carry at most 125 bytes.
-/
import DeflateTrial.Bytes
import DeflateTrial.Fault

namespace DeflateTrial

/-- What a frame is for. -/
inductive Opcode where
  /-- A later part of a fragmented message. -/
  | continuation
  /-- The first part of a text message. -/
  | text
  /-- The first part of a binary message. -/
  | binary
  | close
  | ping
  | pong
deriving DecidableEq, Repr

namespace Opcode

/-- The value on the wire. -/
def value : Opcode → UInt8
  | continuation => 0
  | text => 1
  | binary => 2
  | close => 8
  | ping => 9
  | pong => 10

def name : Opcode → String
  | continuation => "Continuation"
  | text => "Text"
  | binary => "Binary"
  | close => "Close"
  | ping => "Ping"
  | pong => "Pong"

/-- The opcode with a given value.  The other four-bit values are reserved;
wider ones are none at all. -/
def ofValue (value : UInt8) : Except Fault Opcode :=
  match value.toNat with
  | 0 => .ok continuation
  | 1 => .ok text
  | 2 => .ok binary
  | 8 => .ok close
  | 9 => .ok ping
  | 10 => .ok pong
  | n => .error (if n < 16 then .reservedOpcode value else .invalidOpcode value)

def isControl : Opcode → Bool
  | close | ping | pong => true
  | continuation | text | binary => false

@[simp] theorem ofValue_value (opcode : Opcode) : ofValue opcode.value = .ok opcode := by
  cases opcode <;> rfl

end Opcode

/-- One frame, its payload unmasked. -/
structure Frame where
  /-- Whether this is the last part of its message. -/
  fin : Bool
  /-- Set on the first frame of a compressed message. -/
  rsv1 : Bool
  opcode : Opcode
  payload : Bytes
deriving DecidableEq, Repr

namespace Frame

def maxControlPayload : Nat := 125

/-- A frame that carries nothing compressed. -/
def plain (fin : Bool) (opcode : Opcode) (payload : Bytes) : Frame :=
  ⟨fin, false, opcode, payload⟩

def text (payload : Bytes) : Frame := plain true .text payload

def binary (payload : Bytes) : Frame := plain true .binary payload

def ping (payload : Bytes) : Frame := plain true .ping payload

def pong (payload : Bytes) : Frame := plain true .pong payload

/-- A close frame: two bytes of code and the reason, or nothing at all
without a code. -/
def close (code : Option UInt16) (reason : String) : Frame :=
  plain true .close (match code with
    | some code => Bytes.ofNat 2 code.toNat ++ Bytes.ofText reason
    | none => [])

/-- The rules for control frames: final, and at most 125 bytes. -/
def checkControl (frame : Frame) : Except Fault Unit :=
  if !frame.opcode.isControl then .ok ()
  else if !frame.fin then .error .fragmentedControlFrame
  else if frame.payload.length > maxControlPayload then
    .error (.controlFrameTooLarge frame.payload.length)
  else .ok ()

theorem checkControl_eq_ok_iff {frame : Frame} : frame.checkControl = .ok () ↔
    (frame.opcode.isControl = true →
      frame.fin = true ∧ frame.payload.length ≤ maxControlPayload) := by
  unfold checkControl
  cases frame.opcode.isControl with
  | false => exact ⟨nofun, fun _ => rfl⟩
  | true =>
    cases frame.fin with
    | false => exact ⟨nofun, fun h => absurd (h rfl).1 Bool.false_ne_true⟩
    | true =>
      by_cases long : frame.payload.length > maxControlPayload
      · simp [long]
      · simp [long, Nat.le_of_not_lt long]

theorem checkControl_of_data {frame : Frame} (data : frame.opcode.isControl = false) :
    frame.checkControl = .ok () := by
  rw [checkControl, data]
  rfl

end Frame

end DeflateTrial
