/-
Writing messages — one frame each, compressed where that was agreed on

A writer is open, closing once it has given out a close frame, and closed once
its direction is shut down.  Each operation says what to write, or why it
refuses; whether the write then succeeds is the transport's affair and does
not change what the writer does next.
-/
import DeflateTrial.Deflate.Deflater
import DeflateTrial.Frame.Wire
import DeflateTrial.Limits
import DeflateTrial.Message.Basic
import DeflateTrial.Role

namespace DeflateTrial

namespace Frame

/-- Gives out frames in their wire form, with a fresh mask for each if the
role masks. -/
structure Writer where
  role : Role
  /-- The number that the next mask is made from. -/
  counter : UInt32
deriving DecidableEq, Repr

namespace Writer

/-- The next mask: the counter moves on by a fixed step and is then mixed. -/
def nextMask (writer : Writer) : Mask × Writer :=
  let counter := writer.counter + 0x9e3779b9
  let b := counter * 0x85ebca6b
  let c := b ^^^ (b >>> 13)
  let d := c * 0xc2b2ae35
  (⟨d.toUInt8, (d >>> 8).toUInt8, (d >>> 16).toUInt8, (d >>> 24).toUInt8⟩, { writer with counter })

theorem nextMask_role (writer : Writer) : writer.nextMask.2.role = writer.role := by
  -- for any counter: the mixing is not to be computed
  have keeps (mask : Mask) (counter : UInt32) :
      (mask, { writer with counter }).2.role = writer.role := rfl
  exact keeps _ _

def write (writer : Writer) (frame : Frame) : Bytes × Writer :=
  if writer.role.masks then
    let (mask, writer) := writer.nextMask
    (frame.encode (some mask), writer)
  else (frame.encode none, writer)

end Writer

end Frame

namespace Message

/-- How far the sending side of a connection has come. -/
inductive Phase where
  | open
  /-- A close frame has been sent. -/
  | closing
  /-- The direction is shut down. -/
  | closed
deriving DecidableEq, Repr

def Phase.name : Phase → String
  | .open => "open"
  | .closing => "closing"
  | .closed => "closed"

def Phase.canSend (phase : Phase) : Bool :=
  phase = .open

/-- One end's sending side. -/
structure Writer where
  frames : Frame.Writer
  /-- The compressor, if compression was agreed on. -/
  deflater : Option Deflate.Deflater
  limits : Limits
  phase : Phase

namespace Writer

/-- A writer before the first message. -/
def new (frames : Frame.Writer) (deflater : Option Deflate.Deflater) (limits : Limits) : Writer :=
  ⟨frames, deflater, limits, .open⟩

def dataFrame (writer : Writer) (opcode : Opcode) (data : Bytes) :
    Except Fault (Frame × Option Deflate.Deflater) := do
  writer.limits.checkMessage data.length
  match writer.deflater with
  | some deflater =>
    if deflater.shouldCompress data.length then
      let (compressed, deflater) := deflater.deflate data
      return ({ Frame.plain true opcode compressed with rsv1 := true }, some deflater)
    else return (Frame.plain true opcode data, some deflater)
  | none => return (Frame.plain true opcode data, none)

/-- Gives out a close frame, unless the writer is past that.  The answer is
what to write. -/
def close (writer : Writer) (status : Option CloseFrame) : Bytes × Writer :=
  if writer.phase ≠ .open then ([], writer)
  else
    let frame := match status with
      | some status => Frame.close (some status.code.value) status.reason
      | none => Frame.close none ""
    let (bytes, frames) := writer.frames.write frame
    (bytes, { writer with frames, phase := .closing })

/-- Gives out a planned frame, if the writer is open and the frame is sound. -/
def transmit (writer : Writer) (planned : Except Fault (Frame × Option Deflate.Deflater)) :
    Except Fault Bytes × Writer :=
  if !writer.phase.canSend then (.error (.connectionClosed none), writer)
  else match planned with
    | .error fault => (.error fault, writer)
    | .ok (frame, deflater) =>
      match frame.checkControl with
      | .error fault => (.error fault, { writer with deflater })
      | .ok () =>
        let (bytes, frames) := writer.frames.write frame
        (.ok bytes, { writer with frames, deflater })

/-- Sends one message.  The answer is what to write, or why nothing is. -/
def send (writer : Writer) (message : Message) : Except Fault Bytes × Writer :=
  match message with
  | .text s => writer.transmit (writer.dataFrame .text (Bytes.ofText s))
  | .binary data => writer.transmit (writer.dataFrame .binary data)
  | .ping data => writer.transmit (.ok (Frame.ping data, writer.deflater))
  | .pong data => writer.transmit (.ok (Frame.pong data, writer.deflater))
  | .close status =>
    let (bytes, writer) := writer.close status
    (.ok bytes, writer)

/-- Sends messages one after the other, until one is refused.  The answer is
all that is to be written, or why no more is. -/
def sendAll (writer : Writer) : List Message → Except Fault Bytes × Writer
  | [] => (.ok [], writer)
  | message :: messages =>
    match writer.send message with
    | (.error fault, writer) => (.error fault, writer)
    | (.ok bytes, writer) =>
      let (sent, writer) := writer.sendAll messages
      (sent.map (bytes ++ ·), writer)

def shutdown (writer : Writer) : Writer :=
  { writer with phase := .closed }

end Writer

end Message

end DeflateTrial
