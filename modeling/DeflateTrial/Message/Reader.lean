/-
Reading messages — from the bytes of one direction

A reader takes frames until one of them completes a message.  It answers with
the message, with a fault, or with the end of the stream; after a fault it may
be asked again.
-/
import DeflateTrial.Frame.Reader
import DeflateTrial.Message.Assembler

namespace DeflateTrial.Message

/-- One end's view of what comes to it. -/
structure Reader where
  frames : Frame.Reader
  assembler : Assembler

/-- What an attempt to read a message gives. -/
inductive Reader.Outcome where
  | message (message : Message)
  | fault (fault : Fault)
  /-- The stream ended without a close frame. -/
  | ended
  | waiting
deriving DecidableEq, Repr

namespace Reader

/-- A reader of messages.  Data frames may be compressed if there is an inflater. -/
def new (frames : Frame.Reader) (inflater : Option Deflate.Inflater) : Reader :=
  ⟨{ frames with compression := inflater.isSome }, Assembler.new frames.limits inflater⟩

/-- Whether compression was agreed on for this direction. -/
def isCompressed (reader : Reader) : Bool :=
  reader.assembler.inflater.isSome

def next (reader : Reader) (source : Source) : Outcome × Reader × Source :=
  match _h : reader.frames.next source with
  | (.frame frame, frames, source') =>
    match reader.assembler.accept frame with
    | (.ok (some message), assembler) => (.message message, ⟨frames, assembler⟩, source')
    | (.ok none, assembler) => next ⟨frames, assembler⟩ source'
    | (.error fault, assembler) => (.fault fault, ⟨frames, assembler⟩, source')
  | (.fault fault, frames, source') => (.fault fault, { reader with frames }, source')
  | (.ended, frames, source') => (.ended, { reader with frames }, source')
  | (.waiting, frames, source') => (.waiting, { reader with frames }, source')
termination_by (reader.frames.ahead source).length
decreasing_by exact Frame.Reader.ahead_lt_of_next _h

/-- All the bytes that a reader may still take messages from. -/
def ahead (reader : Reader) (source : Source) : Bytes :=
  reader.frames.ahead source

theorem ahead_lt_of_next {reader reader' : Reader} {source source' : Source} {message : Message}
    (h : reader.next source = (.message message, reader', source')) :
    (reader'.ahead source').length < (reader.ahead source).length := by
  fun_induction next reader source with
  | case1 reader source frame frames source'' hn m assembler ha =>
    cases h
    exact Frame.Reader.ahead_lt_of_next hn
  | case2 reader source frame frames source'' hn assembler ha ih =>
    exact Nat.lt_trans (ih h) (Frame.Reader.ahead_lt_of_next hn)
  | _ => simp at h

/-- All messages up to the first attempt that brings none, and what that
attempt gives. -/
def readAll (reader : Reader) (source : Source) : List Message × Outcome :=
  match _h : reader.next source with
  | (.message message, reader', source') =>
    let (messages, last) := readAll reader' source'
    (message :: messages, last)
  | (.fault fault, _, _) => ([], .fault fault)
  | (.ended, _, _) => ([], .ended)
  | (.waiting, _, _) => ([], .waiting)
termination_by (reader.ahead source).length
decreasing_by exact ahead_lt_of_next _h

end Reader

end DeflateTrial.Message
