/-
Bits — byte strings as streams of bits

A compressed stream fills each byte from its least significant bit.  Numbers
in it come least significant bit first, code words most significant bit
first.
-/
import DeflateTrial.Bytes

namespace DeflateTrial.Deflate.Bits

/-- The `width` low bits of a number, least significant first. -/
def ofNat : (width n : Nat) → List Bool
  | 0, _ => []
  | width + 1, n => (n % 2 == 1) :: ofNat width (n / 2)

/-- The `width` low bits of a number, most significant first. -/
def word (width n : Nat) : List Bool :=
  (ofNat width n).reverse

/-- The number that bits write, least significant first. -/
def toNat : List Bool → Nat
  | [] => 0
  | b :: bits => b.toNat + 2 * toNat bits

def ofBytes (bytes : Bytes) : List Bool :=
  bytes.flatMap fun b => ofNat 8 b.toNat

/-- Fills bytes with bits after the bytes already filled, which are in
reverse; a last byte without bits enough is filled up with zeros. -/
def pack (filled : Bytes) (bits : List Bool) : Bytes :=
  match bits with
  | [] => filled.reverse
  | b :: rest =>
    pack (UInt8.ofNat (toNat (b :: rest.take 7)) :: filled) (rest.drop 7)
termination_by bits.length
decreasing_by simp only [List.length_drop, List.length_cons]; omega

/-- The bytes that a stream of bits fills. -/
def toBytes (bits : List Bool) : Bytes :=
  pack [] bits

@[simp] theorem ofNat_length (width n : Nat) : (ofNat width n).length = width := by
  induction width generalizing n with
  | zero => rfl
  | succ width ih => simp [ofNat, ih]

theorem toNat_ofNat (width n : Nat) : toNat (ofNat width n) = n % (1 <<< width) := by
  rw [Nat.one_shiftLeft]
  induction width generalizing n with
  | zero => simp [ofNat, toNat, Nat.mod_one]
  | succ width ih =>
    simp only [ofNat, toNat, ih]
    rw [Nat.pow_succ, Nat.mul_comm (2 ^ width) 2, Nat.mod_mul]
    rcases Nat.mod_two_eq_zero_or_one n with h | h <;> simp [h]

theorem length_ofBytes (bytes : Bytes) : (ofBytes bytes).length = 8 * bytes.length := by
  induction bytes with
  | nil => rfl
  | cons b bytes ih =>
    simp only [ofBytes, List.flatMap_cons, List.length_append, ofNat_length,
      List.length_cons] at ih ⊢
    omega

end DeflateTrial.Deflate.Bits
