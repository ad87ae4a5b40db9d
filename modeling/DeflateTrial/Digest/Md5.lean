/-
MD5 — the content digest that the hash endpoint answers with

Sixty-four steps per block on four 32-bit words, in four rounds of sixteen
that differ in their mixing function, their order of words and their turns.
-/
import DeflateTrial.Digest.Words

namespace DeflateTrial.Digest.Md5

/-- The four words that are carried from block to block. -/
structure State where
  a : UInt32
  b : UInt32
  c : UInt32
  d : UInt32

def start : State :=
  ⟨0x67452301, 0xefcdab89, 0x98badcfe, 0x10325476⟩

/-- The additive constants, one for each step: the integer parts of `2^32`
times the sines of 1 to 64 radians. -/
def sines : Array UInt32 := #[
  0xd76aa478, 0xe8c7b756, 0x242070db, 0xc1bdceee, 0xf57c0faf, 0x4787c62a, 0xa8304613, 0xfd469501,
  0x698098d8, 0x8b44f7af, 0xffff5bb1, 0x895cd7be, 0x6b901122, 0xfd987193, 0xa679438e, 0x49b40821,
  0xf61e2562, 0xc040b340, 0x265e5a51, 0xe9b6c7aa, 0xd62f105d, 0x02441453, 0xd8a1e681, 0xe7d3fbc8,
  0x21e1cde6, 0xc33707d6, 0xf4d50d87, 0x455a14ed, 0xa9e3e905, 0xfcefa3f8, 0x676f02d9, 0x8d2a4c8a,
  0xfffa3942, 0x8771f681, 0x6d9d6122, 0xfde5380c, 0xa4beea44, 0x4bdecfa9, 0xf6bb4b60, 0xbebfbc70,
  0x289b7ec6, 0xeaa127fa, 0xd4ef3085, 0x04881d05, 0xd9d4d039, 0xe6db99e5, 0x1fa27cf8, 0xc4ac5665,
  0xf4292244, 0x432aff97, 0xab9423a7, 0xfc93a039, 0x655b59c3, 0x8f0ccc92, 0xffeff47d, 0x85845dd1,
  0x6fa87e4f, 0xfe2ce6e0, 0xa3014314, 0x4e0811a1, 0xf7537e82, 0xbd3af235, 0x2ad7d2bb, 0xeb86d391]

/-- How far each step turns its sum to the left. -/
def turns : Array UInt32 := #[
  7, 12, 17, 22, 7, 12, 17, 22, 7, 12, 17, 22, 7, 12, 17, 22,
  5, 9, 14, 20, 5, 9, 14, 20, 5, 9, 14, 20, 5, 9, 14, 20,
  4, 11, 16, 23, 4, 11, 16, 23, 4, 11, 16, 23, 4, 11, 16, 23,
  6, 10, 15, 21, 6, 10, 15, 21, 6, 10, 15, 21, 6, 10, 15, 21]

/-- A step's mixing function of three words and the word of the block it adds. -/
def mix (step : Nat) (b c d : UInt32) : UInt32 × Nat :=
  if step < 16 then ((b &&& c) ||| ((~~~b) &&& d), step)
  else if step < 32 then ((d &&& b) ||| ((~~~d) &&& c), (5 * step + 1) % 16)
  else if step < 48 then (b ^^^ c ^^^ d, (3 * step + 5) % 16)
  else (c ^^^ (b ||| (~~~d)), (7 * step) % 16)

/-- One step over the sixteen words of a block. -/
def step (block : Array UInt32) (s : State) (n : Nat) : State :=
  let (mixed, place) := mix n s.b s.c s.d
  let sum := s.a + mixed + sines.getD n 0 + block.getD place 0
  ⟨s.d, s.b + rotateLeft sum (turns.getD n 0), s.b, s.c⟩

/-- Takes the state through one block of 64 bytes. -/
def compress (s : State) (block : Bytes) : State :=
  let t := (List.range 64).foldl (step (words wordLittle block).toArray) s
  ⟨s.a + t.a, s.b + t.b, s.c + t.c, s.d + t.d⟩

/-- The digest of a message, 16 bytes. -/
def digest (message : Bytes) : Bytes :=
  let s := absorb compress start
    (message ++ padding (fun bits => (Bytes.ofNat 8 bits).reverse) message.length)
  bytesLittle s.a ++ bytesLittle s.b ++ bytesLittle s.c ++ bytesLittle s.d

/-- The digest of a message in lowercase hexadecimal. -/
def hex (message : Bytes) : String :=
  Bytes.hex (digest message)

theorem length_ofText_hex (message : Bytes) : (Bytes.ofText (hex message)).length = 32 := by
  have sixteen : (digest message).length = 16 := by
    simp [digest, bytesLittle]
  rw [hex, Bytes.length_ofText_hex, sixteen]

end DeflateTrial.Digest.Md5
