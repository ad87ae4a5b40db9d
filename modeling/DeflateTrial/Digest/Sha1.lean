/-
SHA-1 — the digest by which a server proves that it read the opening key

Eighty steps per block on five 32-bit words; the sixteen words of the block
are stretched to eighty by turning sums of earlier ones.
-/
import DeflateTrial.Digest.Words

namespace DeflateTrial.Digest.Sha1

/-- The five words that are carried from block to block. -/
structure State where
  a : UInt32
  b : UInt32
  c : UInt32
  d : UInt32
  e : UInt32

def start : State :=
  ⟨0x67452301, 0xefcdab89, 0x98badcfe, 0x10325476, 0xc3d2e1f0⟩

/-- Adds the next word of the schedule. -/
def stretch (schedule : Array UInt32) (n : Nat) : Array UInt32 :=
  let word (back : Nat) := schedule.getD (n - back) 0
  schedule.push (rotateLeft (word 3 ^^^ word 8 ^^^ word 14 ^^^ word 16) 1)

/-- The eighty words of a block's schedule. -/
def schedule (block : Bytes) : Array UInt32 :=
  (List.range' 16 64).foldl stretch (words wordBig block).toArray

/-- A step's mixing function of three words and its additive constant. -/
def mix (step : Nat) (b c d : UInt32) : UInt32 × UInt32 :=
  if step < 20 then ((b &&& c) ||| ((~~~b) &&& d), 0x5a827999)
  else if step < 40 then (b ^^^ c ^^^ d, 0x6ed9eba1)
  else if step < 60 then ((b &&& c) ||| (b &&& d) ||| (c &&& d), 0x8f1bbcdc)
  else (b ^^^ c ^^^ d, 0xca62c1d6)

/-- One step with its word of the schedule. -/
def step (words : Array UInt32) (s : State) (n : Nat) : State :=
  let (mixed, constant) := mix n s.b s.c s.d
  ⟨rotateLeft s.a 5 + mixed + s.e + constant + words.getD n 0, s.a, rotateLeft s.b 30, s.c, s.d⟩

/-- Takes the state through one block of 64 bytes. -/
def compress (s : State) (block : Bytes) : State :=
  let t := (List.range 80).foldl (step (schedule block)) s
  ⟨s.a + t.a, s.b + t.b, s.c + t.c, s.d + t.d, s.e + t.e⟩

/-- The digest of a message, 20 bytes. -/
def digest (message : Bytes) : Bytes :=
  let s := absorb compress start (message ++ padding (Bytes.ofNat 8) message.length)
  bytesBig s.a ++ bytesBig s.b ++ bytesBig s.c ++ bytesBig s.d ++ bytesBig s.e

end DeflateTrial.Digest.Sha1
