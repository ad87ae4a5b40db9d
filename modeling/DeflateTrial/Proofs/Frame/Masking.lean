/-
Masking — taking words at a time changes nothing

A word is combined with the key's word byte by byte, whatever the order in
which a machine keeps them, so the running form is the combination of byte `i`
with byte `i mod 4` of the key (`applyWords_eq_mapIdx`).  Combining twice with
the same byte gives the byte back, and so does masking twice, where there is a
key at all (`Frame.hidden`).

Behind a part of the payload the key stands turned by the length of that part
(`applyWords_append`).  Behind whole words it is as it was, so a payload may be
cut there and masked in two parts.
-/
import DeflateTrial.Frame.Mask
import Mathlib.Data.Option.NAry

namespace DeflateTrial

namespace ByteOrder

theorem bytes_word (order : ByteOrder) (a b c d : UInt8) :
    order.bytes (order.word a b c d) = [a, b, c, d] := by
  have little (a b c d : UInt8) : ByteOrder.little.bytes (ByteOrder.little.word a b c d) =
      [a, b, c, d] := by
    simp only [bytes, word, List.cons.injEq, and_true]
    refine ⟨?_, ?_, ?_, ?_⟩ <;> apply UInt8.toBitVec_inj.1 <;> ext i hi <;> simp <;> grind
  cases order with
  | little => exact little a b c d
  | big => exact congrArg List.reverse (little d c b a)

theorem bytes_xor (order : ByteOrder) (v w : UInt32) :
    order.bytes (v ^^^ w) = List.zipWith (· ^^^ ·) (order.bytes v) (order.bytes w) := by
  cases order <;> simp [bytes, UInt32.shiftRight_xor]

end ByteOrder

namespace Mask

theorem applyWord_eq (order : ByteOrder) (key : Mask) (a b c d : UInt8) :
    applyWord order key a b c d = [a ^^^ key.a, b ^^^ key.b, c ^^^ key.c, d ^^^ key.d] := by
  rw [applyWord, ByteOrder.bytes_xor, ByteOrder.bytes_word, ByteOrder.bytes_word]
  rfl

theorem byteAt_add_four (key : Mask) (i : Nat) : key.byteAt (i + 4) = key.byteAt i := by
  rw [byteAt, byteAt, Nat.add_mod_right]

theorem applyWords_eq_mapIdx (order : ByteOrder) (key : Mask) (data : Bytes) :
    applyWords order key data = data.mapIdx fun i b => b ^^^ key.byteAt i := by
  -- after bytes that are masked already
  suffices h : ∀ masked, applyTo order key masked data =
      masked.reverse ++ data.mapIdx fun i b => b ^^^ key.byteAt i from h []
  intro masked
  induction masked, data using applyTo.induct order key with
  | case1 masked a b c d rest ih =>
      have turn (i : Nat) : key.byteAt (i + 1 + 1 + 1 + 1) = key.byteAt i := byteAt_add_four key i
      rw [applyTo, ih, applyWord_eq]
      simp only [List.mapIdx_cons, turn, List.reverse_append, List.reverse_reverse,
        List.append_assoc]
      rfl
  | case2 masked a b c => simp [applyTo, byteAt]
  | case3 masked a b => simp [applyTo, byteAt]
  | case4 masked a => simp [applyTo, byteAt]
  | case5 masked => simp [applyTo]

@[simp] theorem length_applyWords (order : ByteOrder) (key : Mask) (data : Bytes) :
    (applyWords order key data).length = data.length := by
  rw [applyWords_eq_mapIdx, List.length_mapIdx]

@[simp] theorem length_apply (key : Mask) (data : Bytes) :
    (key.apply data).length = data.length :=
  length_applyWords .little key data

theorem applyWords_applyWords (order order' : ByteOrder) (key : Mask) (data : Bytes) :
    applyWords order' key (applyWords order key data) = data := by
  apply List.ext_getElem
  · rw [length_applyWords, length_applyWords]
  · intro i _ _
    simp only [applyWords_eq_mapIdx, List.getElem_mapIdx]
    rw [UInt8.xor_assoc, UInt8.xor_self, UInt8.xor_zero]

theorem apply_apply (key : Mask) (data : Bytes) : key.apply (key.apply data) = data :=
  applyWords_applyWords .little .little key data

/-! ## In parts -/

/-- The key as it stands behind so many bytes of payload. -/
def turned (key : Mask) (n : Nat) : Mask :=
  ⟨key.byteAt n, key.byteAt (n + 1), key.byteAt (n + 2), key.byteAt (n + 3)⟩

theorem byteAt_turned (key : Mask) (n i : Nat) :
    (key.turned n).byteAt i = key.byteAt (n + i) := by
  -- what is left of `i` is one of the four positions that are turned
  have place (r : Nat) (is : i % 4 = r) : key.byteAt (n + i) = key.byteAt (n + r) := by
    rw [byteAt, byteAt, ← is, Nat.add_mod_mod]
  have four : i % 4 = 0 ∨ i % 4 = 1 ∨ i % 4 = 2 ∨ i % 4 = 3 := by omega
  rcases four with is | is | is | is <;> rw [place _ is, byteAt, is] <;> rfl

/-- Whole words leave the key as it stands. -/
theorem turned_of_dvd {n : Nat} (whole : 4 ∣ n) (key : Mask) : key.turned n = key := by
  have place (r : Nat) : key.byteAt (n + r) = key.byteAt r := by
    obtain ⟨words, rfl⟩ := whole
    rw [byteAt, byteAt, Nat.mul_add_mod]
  rw [turned, place 1, place 2, place 3, ← Nat.add_zero n, place 0]
  rfl

theorem applyWords_append (order : ByteOrder) (key : Mask) (front back : Bytes) :
    applyWords order key (front ++ back) =
      applyWords order key front ++ applyWords order (key.turned front.length) back := by
  simp only [applyWords_eq_mapIdx, List.mapIdx_append, byteAt_turned, Nat.add_comm]

theorem getElem?_bytes (key : Mask) (i : Nat) : key.bytes[i % 4]? = some (key.byteAt i) := by
  have four : i % 4 = 0 ∨ i % 4 = 1 ∨ i % 4 = 2 ∨ i % 4 = 3 := by omega
  rcases four with is | is | is | is <;> rw [byteAt, is] <;> rfl

/-- On a machine of either order, masking word by word keeps the length and combines byte
`i` with byte `i mod 4` of the key, those behind the last whole word too.  Hence masking
again, on a machine of whichever order, gives the payload back, and a payload that is cut
behind whole words may be masked in its two parts. -/
theorem applyWords_bytewise (order : ByteOrder) (key : Mask) (data : Bytes) :
    (applyWords order key data).length = data.length ∧
    (∀ i, (applyWords order key data)[i]? =
      Option.map₂ (· ^^^ ·) data[i]? key.bytes[i % 4]?) ∧
    (∀ order', applyWords order' key (applyWords order key data) = data) ∧
    ∀ words, applyWords order key data =
      applyWords order key (data.take (4 * words)) ++
        applyWords order key (data.drop (4 * words)) := by
  refine ⟨length_applyWords order key data, fun i => ?_,
    fun order' => applyWords_applyWords order order' key data, fun words => ?_⟩
  · rw [getElem?_bytes, applyWords_eq_mapIdx, List.getElem?_mapIdx, Option.map₂_coe_right]
  · rcases Nat.lt_or_ge data.length (4 * words) with short | long
    · -- there is nothing behind the cut
      rw [List.take_of_length_le (Nat.le_of_lt short), List.drop_of_length_le (Nat.le_of_lt short)]
      exact (List.append_nil _).symm
    · have cut : (data.take (4 * words)).length = 4 * words := by
        rw [List.length_take, Nat.min_eq_left long]
      have parts := applyWords_append order key (data.take (4 * words)) (data.drop (4 * words))
      rwa [List.take_append_drop, cut, turned_of_dvd (Nat.dvd_mul_right 4 words)] at parts

/-- Cut inside a word, the parts need the key turned. -/
example : apply ⟨1, 2, 3, 4⟩ [0, 0, 0] = [1, 2, 3] ∧
    apply ⟨1, 2, 3, 4⟩ [0] ++ apply ⟨1, 2, 3, 4⟩ [0, 0] = [1, 1, 2] := by decide

end Mask

namespace Frame

/-- A payload under a key, if there is one. -/
def hidden (mask : Option Mask) (payload : Bytes) : Bytes :=
  match mask with
  | some key => key.apply payload
  | none => payload

@[simp] theorem length_hidden (mask : Option Mask) (payload : Bytes) :
    (hidden mask payload).length = payload.length := by
  cases mask with
  | none => rfl
  | some key => exact key.length_apply payload

theorem hidden_hidden (mask : Option Mask) (payload : Bytes) :
    hidden mask (hidden mask payload) = payload := by
  cases mask with
  | none => rfl
  | some key => exact key.apply_apply payload

end Frame

end DeflateTrial
