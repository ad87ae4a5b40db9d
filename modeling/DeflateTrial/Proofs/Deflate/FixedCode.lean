/-
Fixed code — tokens are read back from the bits that write them

The words of the fixed code lead through its trees to their symbols
(`find_literalWords`, `find_distanceWords`), and the ranges of the two
alphabets follow each other without a gap, so that every count and every
distance has a symbol and extra bits (`readRange_rangeBits`).  The rest is the
order in which an item's parts stand in the stream.
-/
import DeflateTrial.Proofs.Deflate.Packing
import DeflateTrial.Proofs.Deflate.Blocks

namespace DeflateTrial.Deflate

/-! ## Words -/

namespace Tree

/-- The symbol at the end of a word. -/
def find : Tree → (word : List Bool) → Option Nat
  | leaf symbol, [] => some symbol
  | fork zero one, bit :: word => (if bit then one else zero).find word
  | _, _ => none

theorem read_of_find {tree : Tree} {word : List Bool} {symbol : Nat}
    (h : tree.find word = some symbol) (rest : List Bool) (invalid : StreamError) :
    tree.read (word ++ rest) invalid = .done symbol rest := by
  induction tree generalizing word with
  | void => cases word <;> simp [find] at h
  | leaf s =>
      cases word with
      | nil =>
          rw [find, Option.some.injEq] at h
          rw [List.nil_append, read, h]
      | cons bit word => simp [find] at h
  | fork zero one ihz iho =>
      cases word with
      | nil => simp [find] at h
      | cons bit word =>
          rw [List.cons_append, read]
          cases bit
          · exact ihz h
          · exact iho h

end Tree

namespace Code

/-- The symbol of a word. -/
def find (code : Code) (word : List Bool) : Option Nat :=
  (Tree.fork code.zero code.one).find word

theorem read_of_find {code : Code} {word : List Bool} {symbol : Nat}
    (h : code.find word = some symbol) (rest : List Bool) (invalid : StreamError) :
    code.read (word ++ rest) invalid = .done symbol rest := by
  cases word with
  | nil => simp [find, Tree.find] at h
  | cons bit word =>
      cases bit
      · exact Tree.read_of_find h rest invalid
      · exact Tree.read_of_find h rest invalid

end Code

theorem find_literalWords :
    ∀ symbol < 288, Block.fixedLiterals.find (literalWords.getD symbol []) = some symbol := by
  decide +kernel

theorem find_distanceWords :
    ∀ symbol < 32, Block.fixedDistances.find (distanceWords.getD symbol []) = some symbol := by
  decide +kernel

/-! ## Ranges -/

/-- Ranges that follow each other without a gap up to a bound. -/
def Covers (bound : Nat) : List Range → Prop
  | [] => False
  | [range] => bound ≤ range.least + 1 <<< range.extra
  | range :: next :: ranges =>
    next.least ≤ range.least + 1 <<< range.extra ∧ Covers bound (next :: ranges)

instance (bound : Nat) : (ranges : List Range) → Decidable (Covers bound ranges)
  | [] => inferInstanceAs (Decidable False)
  | [_] => inferInstanceAs (Decidable (bound ≤ _))
  | _ :: next :: ranges =>
    have := instDecidableCovers bound (next :: ranges)
    inferInstanceAs (Decidable (_ ∧ Covers bound (next :: ranges)))

theorem exists_range_of_covers {bound value : Nat} {first : Range} {ranges : List Range}
    (covers : Covers bound (first :: ranges)) (least : first.least ≤ value)
    (lt : value < bound) :
    ∃ range, (first :: ranges)[rangeOf (first :: ranges).toArray value]? = some range ∧
      range.least ≤ value ∧ value < range.least + 1 <<< range.extra := by
  induction ranges generalizing first with
  | nil =>
      refine ⟨first, ?_, least, Nat.lt_of_lt_of_le lt covers⟩
      simp [rangeOf, least]
  | cons next ranges ih =>
      rcases Nat.lt_or_ge value next.least with before | from_
      · refine ⟨first, ?_, least, Nat.lt_of_lt_of_le before covers.1⟩
        simp [rangeOf, least, Nat.not_le.mpr before]
      · obtain ⟨range, found, inside⟩ := ih covers.2 from_
        refine ⟨range, ?_, inside⟩
        simpa [rangeOf, least, from_] using found

/-- A value that the ranges hold is written as the word of a symbol and the
value's place in the symbol's range. -/
theorem exists_range_of_le {bound value : Nat} {ranges : Array Range}
    (covers : Covers bound ranges.toList) (least : (ranges.getD 0 ⟨0, 0⟩).least ≤ value)
    (lt : value < bound) :
    ∃ i range, ranges[i]? = some range ∧
      range.least ≤ value ∧ value - range.least < 1 <<< range.extra ∧
      ∀ words base, rangeBits words ranges base value =
        words.getD (base + i) [] ++ Bits.ofNat range.extra (value - range.least) := by
  obtain ⟨ranges⟩ := ranges
  cases ranges with
  | nil => exact covers.elim
  | cons first ranges =>
      obtain ⟨range, found, low, high⟩ := exists_range_of_covers covers least lt
      have here : (first :: ranges).toArray[rangeOf (first :: ranges).toArray value]? =
          some range := by
        rw [List.getElem?_toArray]
        exact found
      refine ⟨_, range, here, low, by omega, fun words base => ?_⟩
      rw [rangeBits]
      simp only [Array.getD_eq_getD_getElem?, here, Option.getD_some]

/-! ## Items -/

theorem readDistance_rangeBits {distance : Nat} (pos : 0 < distance) (le : distance ≤ 32768)
    (rest : List Bool) :
    readDistance Block.fixedDistances
      (rangeBits distanceWords distanceRanges 0 distance ++ rest) = .done distance rest := by
  obtain ⟨i, range, found, low, high, written⟩ :=
    exists_range_of_le (by decide : Covers 32769 distanceRanges.toList) pos (by omega)
  have symbol : i < 30 := (Array.getElem?_eq_some_iff.mp found).1
  rw [written, readDistance, Nat.zero_add, List.append_assoc,
    Code.read_of_find (find_distanceWords i (by omega))]
  simp only [Reading.andThen, found, readNat_ofNat high]
  rw [Nat.add_sub_cancel' low]

namespace Token

/-- What the two alphabets can write: a copy's count and distance lie in
their ranges. -/
def Writable : Token → Prop
  | literal _ => True
  | copy count distance => 3 ≤ count ∧ count ≤ 258 ∧ 0 < distance ∧ distance ≤ 32768

/-- The item that a token is read as. -/
def item : Token → Item
  | literal byte => .literal byte
  | copy count distance => .copy count distance

end Token

theorem readItem_bits {token : Token} (h : token.Writable) (rest : List Bool) :
    readItem Block.fixedLiterals Block.fixedDistances (token.bits ++ rest) =
      .done token.item rest := by
  cases token with
  | literal byte =>
      have lt : byte.toNat < endOfBlock := byte.toNat_lt
      rw [Token.bits, readItem,
        Code.read_of_find (find_literalWords byte.toNat (Nat.lt_trans lt (by decide)))]
      simp only [Reading.andThen, if_pos lt, UInt8.ofNat_toNat, Token.item]
  | copy count distance =>
      obtain ⟨low, high, pos, near⟩ := h
      obtain ⟨i, range, found, least, extra, written⟩ :=
        exists_range_of_le (by decide : Covers 259 lengthRanges.toList) low (by omega)
      have symbol : i < 29 := (Array.getElem?_eq_some_iff.mp found).1
      rw [Token.bits, written, readItem, List.append_assoc, List.append_assoc,
        Code.read_of_find (find_literalWords (257 + i) (by omega))]
      have above : ¬ 257 + i < endOfBlock := by simp only [endOfBlock]; omega
      have other : 257 + i ≠ endOfBlock := by simp only [endOfBlock]; omega
      simp only [Reading.andThen, if_neg above, if_neg other, Nat.add_sub_cancel_left, found,
        readNat_ofNat extra, readDistance_rangeBits pos near, Token.item]
      rw [Nat.add_sub_cancel' least]

theorem readItem_endOfBlock (rest : List Bool) :
    readItem Block.fixedLiterals Block.fixedDistances
      (literalWords.getD endOfBlock [] ++ rest) = .done .endOfBlock rest := by
  rw [readItem, Code.read_of_find (find_literalWords endOfBlock (by decide))]
  rfl

end DeflateTrial.Deflate
