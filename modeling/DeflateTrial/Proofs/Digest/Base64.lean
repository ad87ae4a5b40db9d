/-
Base64 — a text is read back as the bytes that it was written for

Three bytes and four characters are two ways to write one number below
`2 ^ 24`, so a group is read back by arithmetic alone; the padded groups at
the end are shorter cases of the same.  What a text needs to stand in a header
is that none of its characters is white space (`not_blank_of_mem_encodeChars`).
-/
import DeflateTrial.Digest.Base64
import DeflateTrial.Text.Blank

namespace DeflateTrial.Digest.Base64

/-! ## Characters -/

theorem value?_symbol {n : Nat} (h : n < 64) : value? (symbol n) = some n :=
  (by decide : ∀ n < 64, value? (symbol n) = some n) n h

theorem symbol_ne_padding {n : Nat} (h : n < 64) : symbol n ≠ '=' :=
  (by decide : ∀ n < 64, symbol n ≠ '=') n h

theorem not_blank_symbol {n : Nat} (h : n < 64) : Text.isBlank (symbol n) = false :=
  (by decide : ∀ n < 64, Text.isBlank (symbol n) = false) n h

theorem ofNat_eq {n : Nat} (byte : UInt8) (h : n % 256 = byte.toNat) : UInt8.ofNat n = byte := by
  rw [← UInt8.toNat_inj, UInt8.toNat_ofNat', h]

/-! ## Groups -/

section
variable (a b c : UInt8)

theorem decodeChars_one : decodeChars (encodeChars [a]) = some [a] := by
  have ha := a.toNat_lt
  have even : a.toNat * 16 % 64 % 16 = 0 := by omega
  simp only [encodeChars, decodeChars, decodeLast, bind, Option.bind, pure, even, and_self, if_true,
    value?_symbol (show a.toNat * 16 / 64 < 64 by omega),
    value?_symbol (show a.toNat * 16 % 64 < 64 by omega)]
  rw [ofNat_eq a (by omega)]

theorem decodeChars_two : decodeChars (encodeChars [a, b]) = some [a, b] := by
  have ha := a.toNat_lt
  have hb := b.toNat_lt
  have whole (n : Nat) : n / 4096 * 4096 + n / 64 % 64 * 64 + n % 64 = n := by omega
  simp only [encodeChars, decodeChars]
  generalize hn : a.toNat * 1024 + b.toNat * 4 = n
  have even : n % 64 % 4 = 0 := by omega
  have hp := value?_symbol (show n / 4096 < 64 by omega)
  have hq := value?_symbol (show n / 64 % 64 < 64 by omega)
  have hr := value?_symbol (show n % 64 < 64 by omega)
  have solid := symbol_ne_padding (show n % 64 < 64 by omega)
  simp only [decodeLast, hp, hq, hr, solid, even, bind, Option.bind, pure, false_and, if_true,
    if_false, whole]
  rw [ofNat_eq a (by omega), ofNat_eq b (by omega)]

theorem decodeChars_three (rest : Bytes) :
    decodeChars (encodeChars (a :: b :: c :: rest)) =
      (decodeChars (encodeChars rest)).map (a :: b :: c :: ·) := by
  have ha := a.toNat_lt
  have hb := b.toNat_lt
  have hc := c.toNat_lt
  rw [encodeChars]
  generalize hn : a.toNat * 65536 + b.toNat * 256 + c.toNat = n
  have hp := value?_symbol (show n / 262144 < 64 by omega)
  have hq := value?_symbol (show n / 4096 % 64 < 64 by omega)
  have hr := value?_symbol (show n / 64 % 64 < 64 by omega)
  have hs := value?_symbol (show n % 64 < 64 by omega)
  have solid := symbol_ne_padding (show n % 64 < 64 by omega)
  cases more : encodeChars rest with
  | nil =>
      simp only [decodeChars, decodeLast, hp, hq, hr, hs, solid, bind, Option.bind, pure,
        and_false, if_false, Option.map_some]
      rw [ofNat_eq a (by omega), ofNat_eq b (by omega), ofNat_eq c (by omega)]
  | cons symbol symbols =>
      simp only [decodeChars, hp, hq, hr, hs, bind, Option.bind, pure]
      cases decodeChars (symbol :: symbols) with
      | none => rfl
      | some bytes =>
          simp only [Option.map_some]
          rw [ofNat_eq a (by omega), ofNat_eq b (by omega), ofNat_eq c (by omega)]

end

/-! ## Whole texts -/

theorem decodeChars_encodeChars (bytes : Bytes) : decodeChars (encodeChars bytes) = some bytes := by
  induction bytes using encodeChars.induct with
  | case1 a b c rest ih => rw [decodeChars_three, ih, Option.map_some]
  | case2 a b => exact decodeChars_two a b
  | case3 a => exact decodeChars_one a
  | case4 => rfl

/-- The text of some bytes is read as these. -/
theorem decode?_encode (bytes : Bytes) : decode? (encode bytes) = some bytes := by
  rw [decode?, encode, String.toList_ofList, decodeChars_encodeChars]

theorem length_encodeChars (bytes : Bytes) :
    (encodeChars bytes).length = (bytes.length + 2) / 3 * 4 := by
  induction bytes using encodeChars.induct with
  | case1 a b c rest ih =>
      simp only [encodeChars, List.length_cons, ih]
      omega
  | case2 a b => simp [encodeChars]
  | case3 a => simp [encodeChars]
  | case4 => rfl

theorem not_blank_of_mem_encodeChars {bytes : Bytes} {c : Char} (h : c ∈ encodeChars bytes) :
    Text.isBlank c = false := by
  have padding : Text.isBlank '=' = false := by decide
  induction bytes using encodeChars.induct with
  | case1 a b c rest ih =>
      have ha := a.toNat_lt
      have hb := b.toNat_lt
      have hc := c.toNat_lt
      simp only [encodeChars, List.mem_cons] at h
      obtain rfl | rfl | rfl | rfl | h := h
      · exact not_blank_symbol (by omega)
      · exact not_blank_symbol (by omega)
      · exact not_blank_symbol (by omega)
      · exact not_blank_symbol (by omega)
      · exact ih h
  | case2 a b =>
      have ha := a.toNat_lt
      have hb := b.toNat_lt
      simp only [encodeChars, List.mem_cons, List.not_mem_nil, or_false] at h
      obtain rfl | rfl | rfl | rfl := h
      · exact not_blank_symbol (by omega)
      · exact not_blank_symbol (by omega)
      · exact not_blank_symbol (by omega)
      · exact padding
  | case3 a =>
      have ha := a.toNat_lt
      simp only [encodeChars, List.mem_cons, List.not_mem_nil, or_false] at h
      obtain rfl | rfl | rfl | rfl := h
      · exact not_blank_symbol (by omega)
      · exact not_blank_symbol (by omega)
      · exact padding
      · exact padding
  | case4 => cases h

end DeflateTrial.Digest.Base64
