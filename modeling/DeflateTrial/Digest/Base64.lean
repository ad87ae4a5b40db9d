/-
Base64 — bytes as printable text, three bytes to four characters

Reading is strict: the text is a whole number of groups, padding stands only
where the last group needs it, and the bits that padding leaves over are zero.
So each byte string has exactly one text.
-/
import DeflateTrial.Bytes

namespace DeflateTrial.Digest.Base64

def symbol (n : Nat) : Char :=
  if n < 26 then Char.ofNat (65 + n)
  else if n < 52 then Char.ofNat (71 + n)
  else if n < 62 then Char.ofNat (n - 4)
  else if n = 62 then '+' else '/'

/-- The value of a character of the alphabet. -/
def value? (c : Char) : Option Nat :=
  if 'A' ≤ c ∧ c ≤ 'Z' then some (c.toNat - 65)
  else if 'a' ≤ c ∧ c ≤ 'z' then some (c.toNat - 71)
  else if '0' ≤ c ∧ c ≤ '9' then some (c.toNat + 4)
  else if c = '+' then some 62
  else if c = '/' then some 63
  else none

/-- The characters for a byte string. -/
def encodeChars : Bytes → List Char
  | a :: b :: c :: rest =>
    let n := a.toNat * 65536 + b.toNat * 256 + c.toNat
    symbol (n / 262144) :: symbol (n / 4096 % 64) :: symbol (n / 64 % 64) :: symbol (n % 64)
      :: encodeChars rest
  | [a, b] =>
    let n := a.toNat * 1024 + b.toNat * 4
    [symbol (n / 4096), symbol (n / 64 % 64), symbol (n % 64), '=']
  | [a] =>
    let n := a.toNat * 16
    [symbol (n / 64), symbol (n % 64), '=', '=']
  | [] => []

def encode (bytes : Bytes) : String :=
  String.ofList (encodeChars bytes)

/-- The last group, which may be padded. -/
def decodeLast (p q r s : Char) : Option Bytes := do
  let p ← value? p
  let q ← value? q
  if r = '=' ∧ s = '=' then
    if q % 16 = 0 then return [UInt8.ofNat (p * 4 + q / 16)] else none
  else
    let r ← value? r
    let n := p * 4096 + q * 64 + r
    if s = '=' then
      if r % 4 = 0 then return [UInt8.ofNat (n / 1024), UInt8.ofNat (n / 4)] else none
    else
      let s ← value? s
      return [UInt8.ofNat (n / 1024), UInt8.ofNat (n / 4), UInt8.ofNat (n * 64 + s)]

/-- The bytes that whole groups of characters stand for. -/
def decodeChars : List Char → Option Bytes
  | [] => some []
  | [p, q, r, s] => decodeLast p q r s
  | p :: q :: r :: s :: rest => do
    let p ← value? p
    let q ← value? q
    let r ← value? r
    let s ← value? s
    let n := p * 262144 + q * 4096 + r * 64 + s
    let bytes ← decodeChars rest
    return UInt8.ofNat (n / 65536) :: UInt8.ofNat (n / 256) :: UInt8.ofNat n :: bytes
  | _ => none

/-- The bytes whose text this is. -/
def decode? (text : String) : Option Bytes :=
  decodeChars text.toList

end DeflateTrial.Digest.Base64
