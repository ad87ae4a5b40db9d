/-
Assembling messages — from frames, across fragments and compression

Data messages may come in fragments, with control frames between them.  The
fragments are joined; a message whose first frame has RSV1 set is inflated
once it is whole; and text is decoded last, so a character may be cut by a
fragment's end.
-/
import DeflateTrial.Deflate.Inflater
import DeflateTrial.Frame.Basic
import DeflateTrial.Limits
import DeflateTrial.Message.Basic

namespace DeflateTrial.Message

/-- A data message whose last fragment has not come. -/
structure Unfinished where
  opcode : Opcode
  compressed : Bool
  data : Bytes
  fragments : Nat
deriving DecidableEq, Repr

/-- One end's view of the messages that come to it. -/
structure Assembler where
  limits : Limits
  /-- The decompressor, if compression was agreed on. -/
  inflater : Option Deflate.Inflater
  unfinished : Option Unfinished

namespace Assembler

/-- An assembler before the first frame. -/
def new (limits : Limits) (inflater : Option Deflate.Inflater) : Assembler :=
  ⟨limits, inflater, none⟩

/-- The data of a whole message, inflated if it is compressed. -/
def inflate (assembler : Assembler) (whole : Unfinished) : Except Fault Bytes × Assembler :=
  if !whole.compressed then (.ok whole.data, assembler)
  else match assembler.inflater with
    | none => (.error .reservedBitsSet, assembler)
    | some inflater =>
      let (result, inflater) := inflater.inflate whole.data
      (result, { assembler with inflater := some inflater })

/-- The message that data stands for. -/
def decode (limits : Limits) (opcode : Opcode) (data : Bytes) : Except Fault Message := do
  limits.checkMessage data.length
  match opcode with
  | .text => match Bytes.toText? data with
    | some s => return .text s
    | none => throw .invalidUtf8
  | .binary => return .binary data
  | other => throw (.protocolViolation s!"Unexpected opcode {other.name} at message start")

def finish (assembler : Assembler) (whole : Unfinished) :
    Except Fault (Option Message) × Assembler :=
  let (data, assembler) := assembler.inflate whole
  ((data.bind (decode assembler.limits whole.opcode)).map some, assembler)

/-- Takes the first frame of a data message. -/
def start (assembler : Assembler) (frame : Frame) : Except Fault (Option Message) × Assembler :=
  if assembler.unfinished.isSome then
    (.error (.protocolViolation "New data frame while a fragmented message is in progress"),
      assembler)
  else
    let unfinished : Unfinished := ⟨frame.opcode, frame.rsv1, frame.payload, 1⟩
    if frame.fin then assembler.finish unfinished
    else match assembler.limits.checkMessage unfinished.data.length with
      | .error fault => (.error fault, assembler)
      | .ok () => (.ok none, { assembler with unfinished := some unfinished })

/-- The message with one more fragment, if it stays within the limits. -/
def extend (limits : Limits) (unfinished : Unfinished) (payload : Bytes) :
    Except Fault Unfinished := do
  let fragments := unfinished.fragments + 1
  limits.checkFragments fragments
  limits.checkMessage (unfinished.data.length + payload.length)
  return { unfinished with data := unfinished.data ++ payload, fragments }

/-- Takes a later frame of a data message.  A message that cannot go on is given up. -/
def continueWith (assembler : Assembler) (frame : Frame) :
    Except Fault (Option Message) × Assembler :=
  if frame.rsv1 then
    (.error (.protocolViolation "RSV1 set on a continuation frame"), assembler)
  else match assembler.unfinished with
    | none =>
      (.error (.protocolViolation "Continuation frame without a message in progress"), assembler)
    | some unfinished =>
      let idle := { assembler with unfinished := none }
      match extend assembler.limits unfinished frame.payload with
      | .error fault => (.error fault, idle)
      | .ok unfinished =>
        if frame.fin then idle.finish unfinished
        else (.ok none, { idle with unfinished := some unfinished })

/-- Takes one frame; with it comes a message, or none yet. -/
def accept (assembler : Assembler) (frame : Frame) : Except Fault (Option Message) × Assembler :=
  match frame.opcode with
  | .ping => (.ok (some (.ping frame.payload)), assembler)
  | .pong => (.ok (some (.pong frame.payload)), assembler)
  | .close => ((CloseFrame.parse frame.payload).map fun status => some (.close status), assembler)
  | .text | .binary => assembler.start frame
  | .continuation => assembler.continueWith frame

end Assembler

end DeflateTrial.Message
