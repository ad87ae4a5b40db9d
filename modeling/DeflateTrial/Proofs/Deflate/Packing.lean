/-
Packing — bits in bytes, and the numbers read back from them

Three facts carry everything that is read from a stream which something else
has written:

* a number written in `width` bits is read back, whatever follows
  (`readNat_ofNat`);
* two bytes are read as one number, the low one first
  (`readNat_ofBytes_pair`);
* a stream of bits fills bytes with at most seven zeros behind it
  (`ofBytes_toBytes`).
-/
import DeflateTrial.Deflate.Reading

namespace DeflateTrial.Deflate

namespace Bits

theorem toNat_append (xs ys : List Bool) :
    toNat (xs ++ ys) = toNat xs + toNat ys <<< xs.length := by
  induction xs with
  | nil => simp [toNat]
  | cons x xs ih =>
      simp only [List.cons_append, toNat, ih, List.length_cons, Nat.shiftLeft_succ]
      omega

theorem toNat_lt (bits : List Bool) : toNat bits < 1 <<< bits.length := by
  induction bits with
  | nil => simp [toNat]
  | cons b bits ih =>
      simp only [toNat, List.length_cons, Nat.shiftLeft_succ]
      cases b <;> simp only [Bool.toNat_true, Bool.toNat_false] <;> omega

theorem ofNat_toNat (bits : List Bool) (spare : Nat) :
    ofNat (bits.length + spare) (toNat bits) = bits ++ List.replicate spare false := by
  induction bits with
  | nil =>
      induction spare with
      | zero => rfl
      | succ spare ih =>
          simp only [List.length_nil, Nat.zero_add, toNat, List.nil_append] at ih ⊢
          rw [ofNat, List.replicate_succ, ih]
          rfl
  | cons b bits ih =>
      rw [List.length_cons, show bits.length + 1 + spare = bits.length + spare + 1 by omega,
        ofNat, toNat]
      have half : (b.toNat + 2 * toNat bits) / 2 = toNat bits := by
        cases b <;> simp only [Bool.toNat_true, Bool.toNat_false] <;> omega
      have low : ((b.toNat + 2 * toNat bits) % 2 == 1) = b := by
        cases b <;> simp only [Bool.toNat_true, Bool.toNat_false] <;>
          simp [Nat.add_mul_mod_self_left]
      rw [half, low, ih, List.cons_append]

theorem ofBytes_cons (b : UInt8) (bytes : Bytes) :
    ofBytes (b :: bytes) = ofNat 8 b.toNat ++ ofBytes bytes := rfl

theorem ofBytes_append (bytes more : Bytes) :
    ofBytes (bytes ++ more) = ofBytes bytes ++ ofBytes more :=
  List.flatMap_append

theorem ofNat_byte {bits : List Bool} (h : bits.length ≤ 8) :
    ofNat 8 (UInt8.ofNat (toNat bits)).toNat =
      bits ++ List.replicate (8 - bits.length) false := by
  have lt : toNat bits < UInt8.size := by
    have most := toNat_lt bits
    rw [Nat.one_shiftLeft] at most
    exact Nat.lt_of_lt_of_le most (Nat.pow_le_pow_right (by decide) h)
  rw [UInt8.toNat_ofNat_of_lt' lt, ← ofNat_toNat bits (8 - bits.length), Nat.add_sub_cancel' h]

theorem ofBytes_pack (filled : Bytes) (bits : List Bool) :
    ∃ spare < 8, (bits.length + spare) % 8 = 0 ∧
      ofBytes (pack filled bits) =
        ofBytes filled.reverse ++ (bits ++ List.replicate spare false) := by
  induction filled, bits using pack.induct with
  | case1 filled => exact ⟨0, by decide, rfl, by simp [pack]⟩
  | case2 filled b rest ih =>
      obtain ⟨spare, lt, whole, hp⟩ := ih
      have byte : (b :: rest.take 7).length ≤ 8 := by
        rw [List.length_cons, List.length_take]
        omega
      rw [pack, hp, List.reverse_cons, ofBytes_append, ofBytes_cons, ofNat_byte byte]
      rcases Nat.lt_or_ge rest.length 7 with hlt | hle
      · -- the last byte
        have none : rest.drop 7 = [] := List.drop_of_length_le (by omega)
        rw [none, List.length_nil] at whole
        have : spare = 0 := by omega
        refine ⟨7 - rest.length, by omega, ?_, ?_⟩
        · rw [List.length_cons]
          omega
        · simp [none, this, List.take_of_length_le (Nat.le_of_lt hlt), ofBytes]
      · have full : (b :: rest.take 7).length = 8 := by
          rw [List.length_cons, List.length_take]
          omega
        refine ⟨spare, lt, ?_, ?_⟩
        · rw [List.length_drop] at whole
          rw [List.length_cons]
          omega
        · simp only [full, Nat.sub_self, List.replicate_zero, List.append_nil, ofBytes,
            List.flatMap_nil, List.append_assoc, List.cons_append]
          rw [← List.append_assoc (rest.take 7), List.take_append_drop]

theorem ofBytes_toBytes (bits : List Bool) :
    ∃ spare < 8, (bits.length + spare) % 8 = 0 ∧
      ofBytes (toBytes bits) = bits ++ List.replicate spare false :=
  ofBytes_pack [] bits

end Bits

theorem readNat_append (bits rest : List Bool) :
    readNat bits.length (bits ++ rest) = .done (Bits.toNat bits) rest := by
  simp [readNat]

theorem readNat_ofNat {width n : Nat} (h : n < 1 <<< width) (rest : List Bool) :
    readNat width (Bits.ofNat width n ++ rest) = .done n rest := by
  have read := readNat_append (Bits.ofNat width n) rest
  rw [Bits.ofNat_length, Bits.toNat_ofNat, Nat.mod_eq_of_lt h] at read
  exact read

theorem readNat_ofBytes_cons (byte : UInt8) (bytes : Bytes) (rest : List Bool) :
    readNat 8 (Bits.ofBytes (byte :: bytes) ++ rest) =
      .done byte.toNat (Bits.ofBytes bytes ++ rest) := by
  rw [Bits.ofBytes_cons, List.append_assoc]
  exact readNat_ofNat byte.toNat_lt _

theorem readNat_short {width : Nat} {bits : List Bool} (short : bits.length < width) :
    readNat width bits = .short := by
  rw [readNat, List.take_of_length_le (Nat.le_of_lt short)]
  exact if_pos short

theorem readNat_ofBytes_pair (low high : UInt8) (bytes : Bytes) :
    readNat 16 (Bits.ofBytes (low :: high :: bytes)) =
      .done (low.toNat + 256 * high.toNat) (Bits.ofBytes bytes) := by
  have read := readNat_append (Bits.ofNat 8 low.toNat ++ Bits.ofNat 8 high.toNat)
    (Bits.ofBytes bytes)
  have value (b : UInt8) : Bits.toNat (Bits.ofNat 8 b.toNat) = b.toNat := by
    rw [Bits.toNat_ofNat, Nat.one_shiftLeft, Nat.mod_eq_of_lt b.toNat_lt]
  rw [Bits.toNat_append, List.length_append, Bits.ofNat_length, Bits.ofNat_length, value, value,
    Nat.shiftLeft_eq, Nat.mul_comm, List.append_assoc] at read
  exact read

end DeflateTrial.Deflate
