/-
Replacement — reading bytes as text when they may not be UTF-8

Every maximal part of the bytes that begins no character, or begins one and
does not finish it, is shown as one replacement character U+FFFD.
-/
import DeflateTrial.Bytes

namespace DeflateTrial.Text.Replacement

/-- The values that the second byte of a character may take, and how many
bytes follow the first, by the first byte. -/
def followers (first : Nat) : Option (Nat × Nat × Nat) :=
  if 0xc2 ≤ first ∧ first ≤ 0xdf then some (0x80, 0xbf, 1)
  else if first = 0xe0 then some (0xa0, 0xbf, 2)
  else if first = 0xed then some (0x80, 0x9f, 2)
  else if 0xe1 ≤ first ∧ first ≤ 0xef then some (0x80, 0xbf, 2)
  else if first = 0xf0 then some (0x90, 0xbf, 3)
  else if first = 0xf4 then some (0x80, 0x8f, 3)
  else if 0xf1 ≤ first ∧ first ≤ 0xf3 then some (0x80, 0xbf, 3)
  else none

/-- How many of the `wanted` bytes that should follow are there: the first of
them lies between `low` and `high`, the others are continuation bytes. -/
def present (low high : Nat) : (wanted : Nat) → Bytes → Nat
  | 0, _ => 0
  | _ + 1, [] => 0
  | wanted + 1, b :: rest =>
    if low ≤ b.toNat ∧ b.toNat ≤ high then present 0x80 0xbf wanted rest + 1 else 0

/-- The code point that a complete character's bytes hold. -/
def codePoint (first : Nat) (following : Bytes) : Nat :=
  let high := match following.length with
    | 1 => first % 32
    | 2 => first % 16
    | _ => first % 8
  following.foldl (fun n b => n * 64 + b.toNat % 64) high

/-- The character in front, or a replacement for the bytes that form none,
and how many bytes it stands for after the first. -/
def front (first : UInt8) (rest : Bytes) : Char × Nat :=
  if first.toNat < 0x80 then (Char.ofNat first.toNat, 0)
  else match followers first.toNat with
    | none => ('\ufffd', 0)
    | some (low, high, wanted) =>
      let found := present low high wanted rest
      if found = wanted then (Char.ofNat (codePoint first.toNat (rest.take wanted)), wanted)
      else ('\ufffd', found)

/-- The characters of `bytes`, with replacements where they form none. -/
def chars : Bytes → List Char
  | [] => []
  | first :: rest =>
    let (c, used) := front first rest
    c :: chars (rest.drop used)
termination_by bytes => bytes.length
decreasing_by simp only [List.length_drop, List.length_cons]; omega

/-- `bytes` as text, with replacements where they are not UTF-8. -/
def read (bytes : Bytes) : String :=
  String.ofList (chars bytes)

end DeflateTrial.Text.Replacement
