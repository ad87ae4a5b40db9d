/-
Compressors — how texts become a compressed stream

Which blocks and which copies stand in a stream is the compressor's own
choice, and so is what it keeps from one text to the next.  A text that is not
empty becomes blocks of its own, none of them final, and the last of them is
an empty stored block, whose lengths end the text on a byte boundary.

The compressor here stores at level zero.  At the other levels a text is one
block in the fixed code, and the level is how many earlier places the search
for repetitions looks at.
-/
import DeflateTrial.Deflate.Matcher
import DeflateTrial.Deflate.Window

namespace DeflateTrial.Deflate

/-- A way to compress the texts of one stream. -/
structure Compressor where
  /-- The stream of a text that is not empty, for a window of so many bytes and
  a level, and what is kept after the text.  Nothing is kept before the first. -/
  next : (window level : Nat) → (kept : Array UInt8) → (data : Bytes) → Bytes × Array UInt8

namespace Compressor

/-- The most bytes that one stored block holds. -/
def maxStored : Nat := 65535

/-- The header of a stored block that begins on a byte boundary. -/
def storedHeader (size : Nat) : Bytes :=
  0x00 :: ((Bytes.ofNat 2 size).reverse ++ (Bytes.ofNat 2 (65535 - size)).reverse)

/-- A text as stored blocks, after blocks already written. -/
def storedBlocks (written : Array UInt8) (data : Bytes) : Array UInt8 :=
  if _h : data.isEmpty then written
  else
    let part := data.take maxStored
    storedBlocks (written ++ (storedHeader part.length).toArray ++ part.toArray)
      (data.drop maxStored)
termination_by data.length
decreasing_by
  have : data.length ≠ 0 := by simpa using _h
  simp only [List.length_drop, maxStored]
  omega

/-- A block in the fixed code that is not the last, and the three header bits
of the empty stored block after it. -/
def fixedBlock (tokens : List Token) : List Bool :=
  [false, true, false] ++ tokens.flatMap Token.bits ++ literalWords.getD endOfBlock []
    ++ [false, false, false]

/-- The stream of a text after the texts that its copies may refer to. -/
def fixedStream (window level : Nat) (history : Array UInt8) (data : Bytes) : Bytes :=
  (if level = 0 then (storedBlocks #[] data).toList ++ [0x00]
  else Bits.toBytes (fixedBlock (Matcher.tokens window level history data))) ++ Window.tail

/-- Compression with stored blocks or the fixed code.  Kept are the bytes that
the next copies may refer to. -/
def fixedCode : Compressor where
  next window level kept data :=
    (fixedStream window level kept data, Window.recent window (kept ++ data.toArray))

end Compressor

end DeflateTrial.Deflate
