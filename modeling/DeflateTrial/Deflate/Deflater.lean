/-
Deflater — compressing the messages of one direction

Every message ends on a byte boundary with an empty stored block, whose four
length bytes are not sent.  An empty message is such a block alone: it never
comes to the compressor.  Where every message stands on its own, the
compressor begins a new stream after each.
-/
import DeflateTrial.Deflate.Compressor

namespace DeflateTrial.Deflate

/-- The compressor of one direction of a connection. -/
structure Deflater where
  compressor : Compressor
  /-- Whether every message stands on its own. -/
  noContext : Bool
  /-- How hard to look for repetitions; zero stores. -/
  level : Nat
  /-- The shortest message that is worth compressing. -/
  threshold : Nat
  /-- How far back a copy may begin. -/
  window : Nat
  /-- What the compressor has kept of the messages so far. -/
  kept : Array UInt8

namespace Deflater

/-- A deflater at the beginning of its stream, for a window of `2 ^ bits` bytes. -/
def new (bits : Nat) (noContext : Bool) (level threshold : Nat)
    (compressor : Compressor := .fixedCode) : Deflater :=
  ⟨compressor, noContext, level, threshold, Window.size bits, #[]⟩

/-- Whether a message of this size is to be compressed. -/
def shouldCompress (deflater : Deflater) (size : Nat) : Bool :=
  size ≥ deflater.threshold

/-- Compresses one whole message, without the tail of its stream.  An empty
message is an empty stored block by itself. -/
def deflate (deflater : Deflater) (data : Bytes) : Bytes × Deflater :=
  if data.isEmpty then ([0x00], deflater)
  else
    let (stream, kept) :=
      deflater.compressor.next deflater.window deflater.level deflater.kept data
    (stream.take (stream.length - Window.tail.length),
      { deflater with kept := if deflater.noContext then #[] else kept })

end Deflater

end DeflateTrial.Deflate
