/-
Frame heads — what stands before a payload

Two bytes of flags, opcode and length, two or eight more for a longer length,
and four for a masking key.  A head is read as soon as it is whole, so that a
frame can be refused before its payload has come.
-/
import DeflateTrial.Frame.Basic
import DeflateTrial.Frame.Mask

namespace DeflateTrial.Frame

structure Head where
  fin : Bool
  rsv1 : Bool
  rsv2 : Bool
  rsv3 : Bool
  opcode : Opcode
  /-- The masking key, if the payload is masked. -/
  mask : Option Mask
  payloadSize : Nat
  /-- Bytes in the head itself, with the key. -/
  headSize : Nat
deriving DecidableEq, Repr

namespace Head

/-- Splits off the first `count` bytes, or tells how many of them are missing. -/
def takeExactly (count : Nat) (bytes : Bytes) : Except Fault (Bytes × Bytes) :=
  let front := bytes.take count
  if front.length < count then .error (.incompleteFrame (count - front.length))
  else .ok (front, bytes.drop count)

/-- The payload length, from the seven bits of the second byte and the bytes
after it; with it the size of the length field and what follows. -/
def readLength (short : Nat) (rest : Bytes) : Except Fault (Nat × Nat × Bytes) :=
  if short < 126 then .ok (short, 0, rest)
  else do
    let width := if short = 126 then 2 else 8
    let (field, rest) ← takeExactly width rest
    return (Bytes.toNat field, width, rest)

/-- The masking key, if there is to be one. -/
def readMask (masked : Bool) (rest : Bytes) : Except Fault (Option Mask) :=
  if masked then do
    let (key, _) ← takeExactly 4 rest
    return Mask.ofBytes? key
  else .ok none

/-- Reads a head from the front of the bytes. -/
def parse (bytes : Bytes) : Except Fault Head :=
  match bytes with
  | [] => .error (.incompleteFrame 2)
  | [_] => .error (.incompleteFrame 1)
  | first :: second :: rest => do
    let opcode ← Opcode.ofValue (first &&& 0x0f)
    let masked := second &&& 0x80 != 0
    let (payloadSize, lengthSize, rest) ← readLength (second &&& 0x7f).toNat rest
    let mask ← readMask masked rest
    return {
      fin := first &&& 0x80 != 0
      rsv1 := first &&& 0x40 != 0
      rsv2 := first &&& 0x20 != 0
      rsv3 := first &&& 0x10 != 0
      opcode, mask, payloadSize
      headSize := 2 + lengthSize + (if masked then 4 else 0) }

end Head

end DeflateTrial.Frame
