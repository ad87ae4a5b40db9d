/-
Close codes — why a connection ends

A close frame carries nothing, or a code of two bytes and a reason in UTF-8.
Some codes never appear on the wire: they are what an end reports to itself.
-/
import DeflateTrial.Bytes
import DeflateTrial.Fault

namespace DeflateTrial

/-- The code in a close frame. -/
structure CloseCode where
  value : UInt16
deriving DecidableEq, Repr

namespace CloseCode

/-- The connection has served its purpose. -/
def normal : CloseCode := ⟨1000⟩

/-- The end is going away. -/
def goingAway : CloseCode := ⟨1001⟩

/-- The peer broke the protocol. -/
def protocolError : CloseCode := ⟨1002⟩

/-- Reported where a close frame carried no code. -/
def noStatus : CloseCode := ⟨1005⟩

/-- Reported where the stream ended without a close frame. -/
def abnormal : CloseCode := ⟨1006⟩

/-- The payload does not fit the type of the message. -/
def invalidPayload : CloseCode := ⟨1007⟩

def messageTooBig : CloseCode := ⟨1009⟩

/-- Something unexpected happened. -/
def internalError : CloseCode := ⟨1011⟩

/-- Whether the code may stand in a close frame. -/
def isValid (code : CloseCode) : Bool :=
  let n := code.value.toNat
  (1000 ≤ n && n ≤ 1003) || (1007 ≤ n && n ≤ 1014) || (3000 ≤ n && n ≤ 4999)

/-- The name of a code that has one, and otherwise its number. -/
def name (code : CloseCode) : String :=
  if code = normal then "Normal"
  else if code = goingAway then "GoingAway"
  else if code = protocolError then "ProtocolError"
  else if code = invalidPayload then "InvalidPayload"
  else if code = messageTooBig then "MessageTooBig"
  else if code = internalError then "InternalError"
  else s!"Other({Text.Decimal.write code.value.toNat})"

/-- The code with which an end answers a fault. -/
def forFault : Fault → CloseCode
  | .invalidUtf8 => invalidPayload
  | .messageTooLarge .. | .frameTooLarge .. => messageTooBig
  | .extension _ | .io _ => internalError
  | _ => protocolError

end CloseCode

/-- The code and the reason in a close frame. -/
structure CloseFrame where
  code : CloseCode
  reason : String
deriving DecidableEq, Repr

namespace CloseFrame

def payload (close : CloseFrame) : Bytes :=
  Bytes.ofNat 2 close.code.value.toNat ++ Bytes.ofText close.reason

/-- Reads the payload of a close frame; without any byte it carries nothing. -/
def parse (payload : Bytes) : Except Fault (Option CloseFrame) :=
  match payload with
  | [] => .ok none
  | [_] => .error (.protocolViolation "Close frame payload of 1 byte")
  | high :: low :: reason =>
    let code : CloseCode := ⟨UInt16.ofNat (Bytes.toNat [high, low])⟩
    if !code.isValid then
      .error (.protocolViolation s!"Invalid close code: {Text.Decimal.write code.value.toNat}")
    else match Bytes.toText? reason with
      | none => .error .invalidUtf8
      | some reason => .ok (some ⟨code, reason⟩)

theorem parse_payload {close : CloseFrame} (valid : close.code.isValid = true) :
    parse close.payload = .ok (some close) := by
  obtain ⟨⟨code⟩, reason⟩ := close
  have fits : code.toNat < 1 <<< (8 * 2) := code.toNat_lt
  have read : Bytes.toNat [UInt8.ofNat (code.toNat >>> 8), UInt8.ofNat (code.toNat >>> 0)] =
      code.toNat := Bytes.toNat_ofNat fits
  change parse (UInt8.ofNat (code.toNat >>> 8) :: UInt8.ofNat (code.toNat >>> 0) ::
    Bytes.ofText reason) = _
  rw [parse]
  simp only [read, UInt16.ofNat_toNat, valid, Bytes.toText?_ofText]
  rfl

end CloseFrame

end DeflateTrial
