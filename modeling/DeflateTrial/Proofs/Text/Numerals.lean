/-
Numerals — the texts that are read as a number

A number is written in one way and read in many: zeros may stand in front of
its digits, and a plus sign in front of these.  That is all
(`readBelow?_eq_some_iff`).  No other text is read as the number, so what a
reader takes for it is known but for the zeros and the sign.
-/
import DeflateTrial.Text.Decimal
import Mathlib.Data.List.Induction

namespace DeflateTrial.Text.Decimal

variable {cs : List Char} {bound n : Nat}

/-- A text spells a number: the digits that the number is written with, behind
any zeros, and these behind a plus sign or none. -/
def Numeral (cs : List Char) (n : Nat) : Prop :=
  ∃ sign zeros, (sign = [] ∨ sign = ['+']) ∧ cs = sign ++ (List.replicate zeros '0' ++ digits n)

theorem numeral_digits (n : Nat) : Numeral (digits n) n :=
  ⟨[], 0, .inl rfl, rfl⟩

theorem digits_injective : Function.Injective digits := by
  intro n m same
  have read := readDigits_digits n
  rw [same, readDigits_digits, Option.some.injEq] at read
  exact read.symm

theorem eq_digit_of_digitValue? {c : Char} {d : Nat} (h : digitValue? c = some d) :
    d < 10 ∧ c = digit d := by
  unfold digitValue? at h
  split at h
  · rename_i range
    obtain ⟨low, high⟩ := range
    have low' : 48 ≤ c.toNat := low
    have high' : c.toNat ≤ 57 := high
    cases h
    refine ⟨by omega, ?_⟩
    rw [digit, Nat.add_sub_cancel' low', Char.ofNat_toNat]
  · cases h

/-! ## Without a sign -/

theorem readDigits_zeros (zeros : Nat) (cs : List Char) :
    readDigits 0 (List.replicate zeros '0' ++ cs) = readDigits 0 cs := by
  have zero : digitValue? '0' = some 0 := by decide
  induction zeros with
  | zero => rfl
  | succ zeros ih => rw [List.replicate_succ, List.cons_append, readDigits, zero]; exact ih

theorem digits_of_lt (lt : n < 10) : digits n = [digit n] := by
  rw [digits, if_pos lt]

theorem digits_concat {d : Nat} (lt : d < 10) (pos : 0 < n) :
    digits (n * 10 + d) = digits n ++ [digit d] := by
  have high : (n * 10 + d) / 10 = n := by omega
  have low : (n * 10 + d) % 10 = d := by omega
  rw [digits, if_neg (by omega), high, low]

theorem eq_of_readDigits (filled : cs ≠ []) (h : readDigits 0 cs = some n) :
    ∃ zeros, cs = List.replicate zeros '0' ++ digits n := by
  -- from the right: the last digit is the one that the number is written with
  induction cs using List.reverseRecOn generalizing n with
  | nil => exact absurd rfl filled
  | append_singleton before c ih =>
      rw [readDigits_append, Option.bind_eq_some_iff] at h
      obtain ⟨high, read, h⟩ := h
      obtain ⟨d, value, rfl⟩ : ∃ d, digitValue? c = some d ∧ high * 10 + d = n := by
        simpa [readDigits, Option.bind_eq_some_iff] using h
      obtain ⟨lt, rfl⟩ := eq_digit_of_digitValue? value
      by_cases first : before = []
      · subst first
        cases read
        exact ⟨0, by rw [Nat.zero_mul, Nat.zero_add, digits_of_lt lt]; rfl⟩
      · obtain ⟨zeros, rfl⟩ := ih first read
        rcases Nat.eq_zero_or_pos high with rfl | pos
        · -- all that stands before it is zeros
          have zero : digits 0 = ['0'] := digits_of_lt (by decide)
          exact ⟨zeros + 1, by
            rw [Nat.zero_mul, Nat.zero_add, digits_of_lt lt, zero, List.replicate_succ']⟩
        · exact ⟨zeros, by rw [digits_concat lt pos, List.append_assoc]⟩

theorem readUnsigned?_eq_some_iff :
    readUnsigned? cs = some n ↔ ∃ zeros, cs = List.replicate zeros '0' ++ digits n := by
  unfold readUnsigned?
  constructor
  · intro h
    split at h
    · cases h
    · rename_i filled
      exact eq_of_readDigits (by simpa using filled) h
  · rintro ⟨zeros, rfl⟩
    have filled : (List.replicate zeros '0' ++ digits n).isEmpty = false := by
      simp [digits_ne_nil]
    rw [filled, readDigits_zeros, readDigits_digits]
    rfl

/-! ## With a sign or without -/

theorem plus_not_mem (zeros n : Nat) : '+' ∉ List.replicate zeros '0' ++ digits n := by
  rw [List.mem_append, not_or]
  refine ⟨fun member => ?_, not_mem_digits (by decide) n⟩
  exact absurd (List.eq_of_mem_replicate member) (by decide)

theorem readBelow?_plus (cs : List Char) :
    readBelow? bound ('+' :: cs) = (readUnsigned? cs).filter (· < bound) := rfl

theorem readBelow?_of_unsigned (unsigned : cs.head? ≠ some '+') :
    readBelow? bound cs = (readUnsigned? cs).filter (· < bound) := by
  unfold readBelow?
  split
  · exact absurd rfl unsigned
  · rfl

theorem filter_lt_eq_some_iff {found : Option Nat} :
    found.filter (· < bound) = some n ↔ n < bound ∧ found = some n := by
  rw [Option.filter_eq_some_iff, decide_eq_true_eq, and_comm]

/-- A text is read as a number below the bound just if it is a numeral of one. -/
theorem readBelow?_eq_some_iff : readBelow? bound cs = some n ↔ n < bound ∧ Numeral cs n := by
  constructor
  · intro h
    by_cases signed : cs.head? = some '+'
    · obtain ⟨rest, rfl⟩ := List.head?_eq_some_iff.mp signed
      rw [readBelow?_plus, filter_lt_eq_some_iff, readUnsigned?_eq_some_iff] at h
      obtain ⟨lt, zeros, rfl⟩ := h
      exact ⟨lt, ['+'], zeros, .inr rfl, rfl⟩
    · rw [readBelow?_of_unsigned signed, filter_lt_eq_some_iff, readUnsigned?_eq_some_iff] at h
      obtain ⟨lt, zeros, rfl⟩ := h
      exact ⟨lt, [], zeros, .inl rfl, rfl⟩
  · rintro ⟨lt, sign, zeros, rfl | rfl, rfl⟩
    · have unsigned : (List.replicate zeros '0' ++ digits n).head? ≠ some '+' :=
        fun head => plus_not_mem zeros n (List.mem_of_head? head)
      rw [List.nil_append, readBelow?_of_unsigned unsigned, filter_lt_eq_some_iff]
      exact ⟨lt, readUnsigned?_eq_some_iff.mpr ⟨zeros, rfl⟩⟩
    · rw [List.cons_append, List.nil_append, readBelow?_plus, filter_lt_eq_some_iff]
      exact ⟨lt, readUnsigned?_eq_some_iff.mpr ⟨zeros, rfl⟩⟩

example : readBelow? 256 "+0010".toList = some 10 := by decide

end DeflateTrial.Text.Decimal
