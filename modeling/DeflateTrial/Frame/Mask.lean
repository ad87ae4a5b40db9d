/-
Masks — the four-byte keys that hide a client's payloads

Byte `i` of a payload is combined with byte `i mod 4` of the key, so the
operation is its own inverse.  The running form takes four bytes at a time as
one word; the order in which a machine puts bytes into a word does not
matter, since key and payload are read in the same order.
-/
import DeflateTrial.Bytes

namespace DeflateTrial

structure Mask where
  a : UInt8
  b : UInt8
  c : UInt8
  d : UInt8
deriving DecidableEq, Repr

/-- Which end of a word a machine stores first. -/
inductive ByteOrder where
  | little
  | big
deriving DecidableEq, Repr

namespace ByteOrder

/-- The word that four bytes form in memory. -/
def word (order : ByteOrder) (a b c d : UInt8) : UInt32 :=
  let little (a b c d : UInt8) : UInt32 :=
    a.toUInt32 ||| (b.toUInt32 <<< 8) ||| (c.toUInt32 <<< 16) ||| (d.toUInt32 <<< 24)
  match order with
  | .little => little a b c d
  | .big => little d c b a

/-- The four bytes of a word in memory. -/
def bytes (order : ByteOrder) (w : UInt32) : Bytes :=
  let little : Bytes :=
    [w.toUInt8, (w >>> 8).toUInt8, (w >>> 16).toUInt8, (w >>> 24).toUInt8]
  match order with
  | .little => little
  | .big => little.reverse

end ByteOrder

namespace Mask

def bytes (key : Mask) : Bytes :=
  [key.a, key.b, key.c, key.d]

/-- The key whose bytes these are, if there are four. -/
def ofBytes? : Bytes → Option Mask
  | [a, b, c, d] => some ⟨a, b, c, d⟩
  | _ => none

/-- The key's byte for a payload position. -/
def byteAt (key : Mask) (i : Nat) : UInt8 :=
  match i % 4 with
  | 0 => key.a
  | 1 => key.b
  | 2 => key.c
  | _ => key.d

/-- A word of payload under the key. -/
def applyWord (order : ByteOrder) (key : Mask) (a b c d : UInt8) : Bytes :=
  order.bytes (order.word a b c d ^^^ order.word key.a key.b key.c key.d)

/-- Masks whole words after what is already masked, in reverse; the last up to
three bytes start the key again. -/
def applyTo (order : ByteOrder) (key : Mask) (masked : Bytes) : Bytes → Bytes
  | a :: b :: c :: d :: rest =>
    applyTo order key ((applyWord order key a b c d).reverse ++ masked) rest
  | [a, b, c] => ((c ^^^ key.c) :: (b ^^^ key.b) :: (a ^^^ key.a) :: masked).reverse
  | [a, b] => ((b ^^^ key.b) :: (a ^^^ key.a) :: masked).reverse
  | [a] => ((a ^^^ key.a) :: masked).reverse
  | [] => masked.reverse

/-- Masks, or unmasks, a payload word by word. -/
def applyWords (order : ByteOrder) (key : Mask) (data : Bytes) : Bytes :=
  applyTo order key [] data

/-- Masks, or unmasks, a payload. -/
def apply (key : Mask) (data : Bytes) : Bytes :=
  applyWords .little key data

end Mask

end DeflateTrial
