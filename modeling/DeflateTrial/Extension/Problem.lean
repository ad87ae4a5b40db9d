/-
Problems with extensions — what makes an offer or an answer unacceptable
-/
import DeflateTrial.Fault

namespace DeflateTrial.Extension

open Text (Decimal.write)

/-- Why an extension entry, a setting or an answer is refused. -/
inductive Problem where
  | emptyName
  /-- A window exponent lies outside 8 to 15. -/
  | windowRange (parameter : String) (bits : Nat)
  /-- A window parameter's value is no number of one byte. -/
  | windowValue (parameter value : String)
  /-- The compression level lies outside 0 to 9. -/
  | levelRange (level : Nat)
  | duplicate (parameter : String)
  /-- A parameter that needs a value has none. -/
  | valueRequired (parameter : String)
  /-- A parameter that the extension does not have. -/
  | unknown (parameter : String)
  /-- The server claims a larger window than it was asked to keep to. -/
  | exceedsRequest (bits requested : Nat)
  /-- The server accepts another extension. -/
  | notOffered (name : String)
  | acceptedTwice
  /-- The server accepts extensions although none were offered. -/
  | nothingOffered (entries : List String)
deriving DecidableEq, Repr

namespace Problem

def text : Problem → String
  | emptyName => "Empty extension name"
  | windowRange parameter bits => s!"{parameter} must be 8-15, got {Decimal.write bits}"
  | windowValue parameter value => s!"Invalid {parameter} value: {value}"
  | levelRange level => s!"compression_level must be 0-9, got {Decimal.write level}"
  | duplicate parameter => s!"Duplicate parameter: {parameter}"
  | valueRequired parameter => s!"{parameter} requires a value"
  | unknown parameter => s!"Unknown parameter: {parameter}"
  | exceedsRequest bits requested =>
    s!"server_max_window_bits {Decimal.write bits} exceeds requested {Decimal.write requested}"
  | notOffered name => s!"Server accepted an extension that was not offered: {name}"
  | acceptedTwice => "permessage-deflate accepted twice"
  | nothingOffered entries =>
    "Server accepted extensions that were not offered: " ++ String.intercalate ", " entries

def fault (problem : Problem) : Fault :=
  .invalidExtension problem.text

end Problem

end DeflateTrial.Extension
