/-
Bytes — strings of octets, with the numbers and texts they stand for

A byte string is a list.  Numbers on the wire are written most significant
byte first, texts in UTF-8, and digests and diagnostics show bytes as
lowercase hexadecimal.
-/

namespace DeflateTrial

abbrev Bytes := List UInt8

namespace Bytes

/-- The UTF-8 form of a text. -/
def ofText (text : String) : Bytes :=
  text.toByteArray.data.toList

/-- The text whose UTF-8 form `bytes` is, if there is one. -/
def toText? (bytes : Bytes) : Option String :=
  String.fromUTF8? ⟨bytes.toArray⟩

/-- The `width` low bytes of a number, most significant first. -/
def ofNat : (width n : Nat) → Bytes
  | 0, _ => []
  | width + 1, n => UInt8.ofNat (n >>> (8 * width)) :: ofNat width n

/-- The number that `bytes` writes, most significant byte first. -/
def toNat (bytes : Bytes) : Nat :=
  bytes.foldl (fun n b => n * 256 + b.toNat) 0

/-- One hexadecimal digit, in lowercase. -/
def hexDigit (n : Nat) : Char :=
  if n < 10 then Char.ofNat (48 + n) else Char.ofNat (87 + n)

def hex (bytes : Bytes) : String :=
  String.ofList (bytes.flatMap fun b => [hexDigit (b.toNat / 16), hexDigit (b.toNat % 16)])

@[simp] theorem ofNat_length (width n : Nat) : (ofNat width n).length = width := by
  induction width with
  | zero => rfl
  | succ width ih => simp [ofNat, ih]

theorem ofText_eq_flatMap (text : String) :
    ofText text = text.toList.flatMap String.utf8EncodeChar := by
  have whole : text.toByteArray = (text.toList.flatMap String.utf8EncodeChar).toByteArray := by
    rw [← List.utf8Encode, ← String.toByteArray_ofList, String.ofList_toList]
  rw [ofText, whole, List.data_toByteArray]

/-- The digits are characters of one byte each. -/
theorem length_ofText_hex (bytes : Bytes) : (ofText (hex bytes)).length = 2 * bytes.length := by
  have digit : ∀ n < 16, (String.utf8EncodeChar (hexDigit n)).length = 1 := by decide
  rw [ofText_eq_flatMap, hex, String.toList_ofList]
  induction bytes with
  | nil => rfl
  | cons b bytes ih =>
      have := b.toNat_lt
      simp only [List.flatMap_cons, List.flatMap_append, List.flatMap_nil, List.append_nil,
        List.length_append, ih, List.length_cons, digit (b.toNat / 16) (by omega),
        digit (b.toNat % 16) (by omega)]
      omega

theorem ofText_append (s t : String) : ofText (s ++ t) = ofText s ++ ofText t := by
  simp [ofText, String.toByteArray_append]

@[simp] theorem toText?_ofText (text : String) : toText? (ofText text) = some text := by
  have whole : (⟨(ofText text).toArray⟩ : ByteArray) = text.toByteArray := rfl
  rw [toText?, whole, String.fromUTF8?, dif_pos text.isValidUTF8]
  rfl

theorem toNat_ofNat {width n : Nat} (h : n < 1 <<< (8 * width)) :
    toNat (ofNat width n) = n := by
  rw [Nat.one_shiftLeft, Nat.pow_mul] at h
  -- after a number that has been read already
  suffices read : ∀ before, (ofNat width n).foldl (fun n b => n * 256 + b.toNat) before =
      before * 256 ^ width + n % 256 ^ width by
    rw [toNat, read, Nat.mod_eq_of_lt h, Nat.zero_mul, Nat.zero_add]
  clear h
  induction width with
  | zero => intro before; simp [ofNat, Nat.mod_one]
  | succ width ih =>
    intro before
    have high : (UInt8.ofNat (n >>> (8 * width))).toNat = n / 256 ^ width % 256 := by
      rw [UInt8.toNat_ofNat', Nat.shiftRight_eq_div_pow, Nat.pow_mul]
    rw [ofNat, List.foldl_cons, ih, high, Nat.pow_succ, Nat.mod_mul, Nat.add_mul, Nat.mul_assoc,
      Nat.mul_comm 256, Nat.mul_comm (256 ^ width) (n / 256 ^ width % 256)]
    omega

end Bytes

end DeflateTrial
