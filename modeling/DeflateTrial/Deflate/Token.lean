/-
Tokens — a text as literals and references to what stands before

A copy repeats a run of bytes that begins some distance back; it may run into
the bytes that it itself puts out.  Tokens are written in the fixed code.
-/
import DeflateTrial.Deflate.Block

namespace DeflateTrial.Deflate

/-- One byte, or the repetition of earlier ones. -/
inductive Token where
  | literal (byte : UInt8)
  | copy (count distance : Nat)
deriving DecidableEq, Repr

/-- The words of a code, in the order of the symbols. -/
def wordTable (lengths : List Nat) : Array (List Bool) :=
  (Code.words lengths).foldl (fun table (symbol, word) => table.setIfInBounds symbol word)
    (Array.replicate lengths.length [])

/-- The words of the fixed code for literals and lengths. -/
def literalWords : Array (List Bool) :=
  wordTable fixedLiteralLengths

/-- The words of the fixed code for distances. -/
def distanceWords : Array (List Bool) :=
  wordTable fixedDistanceLengths

/-- A value as the word of its range's symbol and the extra bits after it. -/
def rangeBits (words : Array (List Bool)) (ranges : Array Range) (base value : Nat) : List Bool :=
  let i := rangeOf ranges value
  let range := ranges.getD i ⟨0, 0⟩
  words.getD (base + i) [] ++ Bits.ofNat range.extra (value - range.least)

namespace Token

def bits : Token → List Bool
  | literal byte => literalWords.getD byte.toNat []
  | copy count distance =>
    rangeBits literalWords lengthRanges 257 count
      ++ rangeBits distanceWords distanceRanges 0 distance

/-- The bytes put out after a copy of `count` bytes from `distance` back. -/
def repeatBytes (output : Array UInt8) (distance : Nat) : (count : Nat) → Array UInt8
  | 0 => output
  | count + 1 => repeatBytes (output.push (output.getD (output.size - distance) 0)) distance count

/-- The bytes put out after a token. -/
def expand (output : Array UInt8) : Token → Array UInt8
  | literal byte => output.push byte
  | copy count distance => repeatBytes output distance count

end Token

end DeflateTrial.Deflate
