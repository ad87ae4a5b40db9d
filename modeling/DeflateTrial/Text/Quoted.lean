/-
Quoted texts — the form in which diagnostics show a text that may hold anything

The text stands in double quotes.  A quote, a backslash, and the tab, line
feed, carriage return and null characters have short escapes; every other
character that does not print, or that would attach to its neighbour, is
written by its code point.
-/
import DeflateTrial.Text.Decimal
import DeflateTrial.Text.Extender

namespace DeflateTrial.Text.Quoted

/-- The escape of a character by its code point, in hexadecimal. -/
def byCodePoint (c : Char) : List Char :=
  ['\\', 'u', '\x7b'] ++ Decimal.digitsIn 16 c.toNat ++ ['\x7d']

/-- One character of a quoted text. -/
def escape (c : Char) : List Char :=
  match c with
  | '\t' => ['\\', 't']
  | '\n' => ['\\', 'n']
  | '\r' => ['\\', 'r']
  | '\x00' => ['\\', '0']
  | '"' => ['\\', '"']
  | '\\' => ['\\', '\\']
  | _ =>
    if 0x20 ≤ c.toNat ∧ c.toNat < 0x7f then [c]
    else if isExtender c || isUnprintable c then byCodePoint c
    else [c]

/-- A text in double quotes, with the escapes that it needs. -/
def quote (text : String) : String :=
  String.ofList (['"'] ++ text.toList.flatMap escape ++ ['"'])

end DeflateTrial.Text.Quoted
