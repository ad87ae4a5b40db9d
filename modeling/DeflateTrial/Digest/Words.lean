/-
Blocks of words — what the two message digests have in common

A digest reads its message in blocks of 64 bytes, each sixteen 32-bit words.
The message is completed by a one bit, by as many zero bits as the last block
needs, and by its own length in bits.
-/
import DeflateTrial.Bytes

namespace DeflateTrial.Digest

/-- A word from its four bytes, least significant first. -/
def wordLittle (a b c d : UInt8) : UInt32 :=
  a.toUInt32 ||| (b.toUInt32 <<< 8) ||| (c.toUInt32 <<< 16) ||| (d.toUInt32 <<< 24)

/-- A word from its four bytes, most significant first. -/
def wordBig (a b c d : UInt8) : UInt32 :=
  wordLittle d c b a

/-- The words of a byte string whose length is a multiple of four. -/
def words (word : UInt8 → UInt8 → UInt8 → UInt8 → UInt32) : Bytes → List UInt32
  | a :: b :: c :: d :: rest => word a b c d :: words word rest
  | _ => []

/-- The four bytes of a word, least significant first. -/
def bytesLittle (w : UInt32) : Bytes :=
  [w.toUInt8, (w >>> 8).toUInt8, (w >>> 16).toUInt8, (w >>> 24).toUInt8]

/-- The four bytes of a word, most significant first. -/
def bytesBig (w : UInt32) : Bytes :=
  (bytesLittle w).reverse

/-- A word turned left by `n` places. -/
def rotateLeft (w : UInt32) (n : UInt32) : UInt32 :=
  (w <<< n) ||| (w >>> (32 - n))

/-- The bytes that complete a message of the given length; `lengthField`
writes its length in bits as eight bytes. -/
def padding (lengthField : Nat → Bytes) (size : Nat) : Bytes :=
  (0x80 :: List.replicate ((119 - size % 64) % 64) 0) ++ lengthField (size * 8)

/-- Takes a state through all whole blocks of a byte string. -/
def absorb {σ : Type} (block : σ → Bytes → σ) (state : σ) (bytes : Bytes) : σ :=
  match _h : bytes.drop 63 with
  | [] => state
  | _ :: rest => absorb block (block state (bytes.take 64)) rest
termination_by bytes.length
decreasing_by
  have := congrArg List.length _h
  simp only [List.length_drop, List.length_cons] at this
  omega

end DeflateTrial.Digest
