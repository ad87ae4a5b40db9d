/-
The wire form of frames — writing a frame out and reading one back

A length below 126 stands in the second byte, one below 65536 in two bytes
after it, a larger one in eight.  Writing uses the shortest form; reading
takes every form.
-/
import DeflateTrial.Frame.Head

namespace DeflateTrial.Frame

/-- The greatest size that a length of eight bytes can have. -/
def maxSize : Nat := (1 <<< 64) - 1

/-- A bit of a head byte. -/
def flag (set : Bool) (bit : UInt8) : UInt8 :=
  if set then bit else 0

/-- The bytes of the length field after the second byte, in the shortest form. -/
def lengthField (size : Nat) : Bytes :=
  if size < 126 then []
  else if size < 65536 then Bytes.ofNat 2 size
  else Bytes.ofNat 8 size

/-- The seven length bits of the second byte. -/
def shortLength (size : Nat) : UInt8 :=
  if size < 126 then UInt8.ofNat size
  else if size < 65536 then 126
  else 127

/-- How many bytes the frame takes on the wire. -/
def wireSize (frame : Frame) (masked : Bool) : Nat :=
  let size := frame.payload.length
  let extended := if size < 126 then 0 else if size < 65536 then 2 else 8
  2 + extended + (if masked then 4 else 0) + size

/-- The frame on the wire, masked if a key is given. -/
def encode (frame : Frame) (mask : Option Mask) : Bytes :=
  let size := frame.payload.length
  let first := frame.opcode.value ||| flag frame.fin 0x80 ||| flag frame.rsv1 0x40
  let second := flag mask.isSome 0x80 ||| shortLength size
  let body := match mask with
    | some key => key.bytes ++ key.apply frame.payload
    | none => frame.payload
  first :: second :: (lengthField size ++ body)

/-- Writes the frame behind what a buffer holds already.  The payload is put
there as it is, and then masked where it stands. -/
def appendTo (frame : Frame) (buffer : Bytes) (mask : Option Mask) : Bytes :=
  let size := frame.payload.length
  let first := frame.opcode.value ||| flag frame.fin 0x80 ||| flag frame.rsv1 0x40
  let second := flag mask.isSome 0x80 ||| shortLength size
  let buffer := buffer ++ [first] ++ (second :: lengthField size)
  match mask with
  | some key =>
    let buffer := buffer ++ key.bytes
    let start := buffer.length
    let buffer := buffer ++ frame.payload
    buffer.take start ++ key.apply (buffer.drop start)
  | none => buffer ++ frame.payload

theorem appendTo_eq (frame : Frame) (buffer : Bytes) (mask : Option Mask) :
    frame.appendTo buffer mask = buffer ++ frame.encode mask := by
  cases mask with
  | none => simp [appendTo, encode]
  | some key =>
    simp only [appendTo, encode]
    rw [List.take_left' rfl, List.drop_left' rfl]
    simp

/-- Reads one whole frame from the front of the bytes; with it the number of
bytes it takes. -/
def parse (bytes : Bytes) : Except Fault (Frame × Nat) := do
  let head ← Head.parse bytes
  let total := head.headSize + head.payloadSize
  if total > maxSize then
    throw (.frameTooLarge head.payloadSize (maxSize - head.headSize))
  let (payload, _) ← Head.takeExactly head.payloadSize (bytes.drop head.headSize)
  let payload := match head.mask with
    | some key => key.apply payload
    | none => payload
  return (⟨head.fin, head.rsv1, head.opcode, payload⟩, total)

end DeflateTrial.Frame
