/-
Windows — how much of what went before a compressed stream may refer to

A window is a power of two, from 2^9 to 2^15 bytes.  An exponent outside that
range stands for the nearest one in it: eight bits may be agreed on, but no
stream has a window smaller than nine.
-/
import DeflateTrial.Bytes

namespace DeflateTrial.Deflate.Window

/-- The smallest exponent of a stream's window. -/
def minBits : Nat := 9

/-- The greatest exponent, which is also the usual one. -/
def maxBits : Nat := 15

/-- The size of the window for an exponent. -/
def size (bits : Nat) : Nat :=
  1 <<< max minBits (min bits maxBits)

def recent (count : Nat) (bytes : Array UInt8) : Array UInt8 :=
  bytes.extract (bytes.size - count) bytes.size

/-- The bytes that end every message's stream and are not sent: the lengths
of an empty stored block. -/
def tail : Bytes :=
  [0x00, 0x00, 0xff, 0xff]

theorem size_recent (count : Nat) (bytes : Array UInt8) :
    (recent count bytes).size = min count bytes.size := by
  simp only [recent, Array.size_extract]
  omega

theorem recent_of_size_le {count : Nat} {bytes : Array UInt8} (h : bytes.size ≤ count) :
    recent count bytes = bytes := by
  rw [recent, Nat.sub_eq_zero_of_le h, Array.extract_size]

theorem front_append_recent (count : Nat) (bytes : Array UInt8) :
    bytes.extract 0 (bytes.size - count) ++ recent count bytes = bytes := by
  rw [recent, Array.extract_append_extract, Nat.min_eq_left (Nat.zero_le _),
    Nat.max_eq_right (Nat.sub_le _ _), Array.extract_size]

theorem recent_append_of_le {count : Nat} (before : Array UInt8) {bytes : Array UInt8}
    (h : count ≤ bytes.size) : recent count (before ++ bytes) = recent count bytes := by
  have start : before.size + bytes.size - count = before.size + (bytes.size - count) := by omega
  rw [recent, recent, Array.size_append, Array.extract_append, start,
    Array.extract_eq_empty_of_le (by omega), Array.empty_append]
  congr 1 <;> omega

theorem recent_recent_append (count : Nat) (past more : Array UInt8) :
    recent count (recent count past ++ more) = recent count (past ++ more) := by
  rcases Nat.lt_or_ge past.size count with hlt | hle
  · rw [recent_of_size_le (Nat.le_of_lt hlt)]
  · have enough : count ≤ (recent count past ++ more).size := by
      rw [Array.size_append, size_recent]
      omega
    have split := recent_append_of_le (past.extract 0 (past.size - count)) enough
    rw [← Array.append_assoc, front_append_recent] at split
    exact split.symm

theorem size_mono {a b : Nat} (h : a ≤ b) : size a ≤ size b := by
  simp only [size, Nat.one_shiftLeft]
  exact Nat.pow_le_pow_right (by decide) (by simp only [minBits, maxBits]; omega)

theorem size_le_maxBits (bits : Nat) : size bits ≤ size maxBits := by
  simp only [size, Nat.one_shiftLeft]
  exact Nat.pow_le_pow_right (by decide) (by simp only [minBits, maxBits]; omega)

end DeflateTrial.Deflate.Window
