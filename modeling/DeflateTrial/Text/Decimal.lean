/-
Decimal numbers — how they are written and which spellings are read

A number is written with the fewest digits.  Reading is more generous: a plus
sign may stand in front and zeros may lead, but nothing else may stand in the
text, and the value has to lie below a bound.
-/

namespace DeflateTrial.Text.Decimal

def digit (n : Nat) : Char :=
  Char.ofNat (48 + n)

/-- The decimal digits of a number, without leading zeros. -/
def digits (n : Nat) : List Char :=
  if n < 10 then [digit n] else digits (n / 10) ++ [digit (n % 10)]

def write (n : Nat) : String :=
  String.ofList (digits n)

def digitValue? (c : Char) : Option Nat :=
  if '0' ≤ c ∧ c ≤ '9' then some (c.toNat - 48) else none

/-- The value of a string of digits read after a number that precedes it. -/
def readDigits (value : Nat) : List Char → Option Nat
  | [] => some value
  | c :: cs => (digitValue? c).bind fun d => readDigits (value * 10 + d) cs

/-- A number without sign: at least one digit, and digits only. -/
def readUnsigned? (cs : List Char) : Option Nat :=
  if cs.isEmpty then none else readDigits 0 cs

/-- A number below `bound`: digits after an optional plus sign. -/
def readBelow? (bound : Nat) (cs : List Char) : Option Nat :=
  let body := match cs with
    | '+' :: rest => rest
    | _ => cs
  (readUnsigned? body).filter (· < bound)

/-- A number from `-bound` up to but not including `bound`: digits after an
optional sign. -/
def readSigned? (bound : Nat) (cs : List Char) : Option Int :=
  match cs with
  | '-' :: rest => ((readUnsigned? rest).filter (· ≤ bound)).map fun n => -(n : Int)
  | _ => (readBelow? bound cs).map Int.ofNat

/-- The digits of a number in a base of at most sixteen, without leading zeros. -/
def digitsIn (base : Nat) (n : Nat) : List Char :=
  if _h : n < base ∨ base < 2 then [Nat.digitChar n]
  else digitsIn base (n / base) ++ [Nat.digitChar (n % base)]
termination_by n
decreasing_by exact Nat.div_lt_self (by omega) (by omega)

/-- A number in lowercase hexadecimal, without leading zeros. -/
def writeHex (n : Nat) : String :=
  String.ofList (digitsIn 16 n)

theorem digitValue?_digit {n : Nat} (h : n < 10) : digitValue? (digit n) = some n := by
  have : ∀ k : Fin 10, digitValue? (digit k.val) = some k.val := by decide
  exact this ⟨n, h⟩

theorem readDigits_append (value : Nat) (cs ds : List Char) :
    readDigits value (cs ++ ds) = (readDigits value cs).bind fun v => readDigits v ds := by
  induction cs generalizing value with
  | nil => rfl
  | cons c cs ih =>
    simp only [List.cons_append, readDigits]
    cases digitValue? c with
    | none => rfl
    | some d => exact ih _

theorem readDigits_digits (n : Nat) : readDigits 0 (digits n) = some n := by
  induction n using digits.induct with
  | case1 n h => simp [digits, h, readDigits, digitValue?_digit h]
  | case2 n h ih =>
    have hd := digitValue?_digit (Nat.mod_lt n (by decide : 0 < 10))
    rw [digits, if_neg h, readDigits_append, ih]
    simp only [Option.bind_some, readDigits, hd]
    congr 1
    omega

theorem mem_digits {c : Char} {n : Nat} (h : c ∈ digits n) : ∃ d < 10, c = digit d := by
  induction n using digits.induct with
  | case1 n lt =>
    rw [digits, if_pos lt, List.mem_singleton] at h
    exact ⟨n, lt, h⟩
  | case2 n ge ih =>
    rw [digits, if_neg ge, List.mem_append, List.mem_singleton] at h
    rcases h with h | h
    · exact ih h
    · exact ⟨n % 10, Nat.mod_lt n (by decide), h⟩

theorem not_mem_digits {c : Char} (other : ∀ d < 10, c ≠ digit d) (n : Nat) : c ∉ digits n := by
  intro member
  obtain ⟨d, lt, is⟩ := mem_digits member
  exact other d lt is

theorem digits_ne_nil (n : Nat) : digits n ≠ [] := by
  unfold digits
  split <;> simp

theorem readBelow?_write {bound n : Nat} (h : n < bound) :
    readBelow? bound (write n).toList = some n := by
  have text : (write n).toList = digits n := String.toList_ofList
  have unsigned (rest : List Char) : digits n ≠ '+' :: rest := by
    intro plus
    exact not_mem_digits (by decide) n (plus ▸ List.mem_cons_self : '+' ∈ digits n)
  have solid : (digits n).isEmpty = false := by
    rw [List.isEmpty_eq_false_iff]
    exact digits_ne_nil n
  rw [text, readBelow?]
  · simp only [readUnsigned?, solid, Bool.false_eq_true, if_false, readDigits_digits,
      Option.filter_some, h, decide_true, if_true]
  · exact unsigned

end DeflateTrial.Text.Decimal
