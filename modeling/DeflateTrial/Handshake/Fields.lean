/-
Header fields — the named values of an opening head

Every line up to the first empty one that has a colon is a field.  Names do
not depend on case, and white space around names and values is dropped.  The
lines for extensions add up to one list; for any other name a later line
replaces an earlier one, except that a request may not repeat the fields that
decide what it means.
-/
import DeflateTrial.Handshake.Problem
import DeflateTrial.Text.Blank
import DeflateTrial.Text.Split

namespace DeflateTrial.Handshake

/-- The fields of a head: lowercase names, each with its value. -/
abbrev Fields := List (String × String)

namespace Fields

/-- The field whose lines add up to one list. -/
def extensionsName : String := "sec-websocket-extensions"

/-- The fields that a request may not repeat. -/
def singletons : List String :=
  ["host", "upgrade", "connection", "sec-websocket-key", "sec-websocket-version"]

def get? (fields : Fields) (name : String) : Option String :=
  List.lookup name fields

/-- Gives a field a value, in place of any that it had. -/
def set (fields : Fields) (name value : String) : Fields :=
  (name, value) :: fields.filter (·.1 ≠ name)

def add (strict : Bool) (fields : Fields) (name value : String) : Except Problem Fields :=
  match fields.get? name with
  | some existing =>
    if name = extensionsName then .ok (fields.set name s!"{existing}, {value}")
    else if strict ∧ name ∈ singletons then .error (.duplicate name)
    else .ok (fields.set name value)
  | none => .ok (fields.set name value)

/-- The name and the value in a line that has a colon. -/
def ofLine? (line : List Char) : Option (String × String) :=
  (Text.cutFirst ':' line).map fun (name, value) =>
    (String.ofList (Text.lower (Text.trim name)), String.ofList (Text.trim value))

def addLine (strict : Bool) (fields : Fields) (line : List Char) : Except Problem Fields :=
  match ofLine? line with
  | some (name, value) => fields.add strict name value
  | none => .ok fields

/-- The fields in the lines up to the first empty one.  A strict reading
refuses repeated fields. -/
def ofLines (strict : Bool) (lines : List (List Char)) : Except Problem Fields :=
  (lines.takeWhile (!·.isEmpty)).foldlM (addLine strict) []

/-- The value of a field that has to be there; `shown` is its usual name. -/
def require (fields : Fields) (name shown : String) : Except Problem String :=
  match fields.get? name with
  | some value => .ok value
  | none => .error (.missing shown)

/-- The parts of a value that is a list: set apart by commas, trimmed, and not empty. -/
def listOf (value : String) : List String :=
  ((value.toList.splitOn ',').map Text.trim).filter (!·.isEmpty) |>.map String.ofList

def extensions (fields : Fields) : List String :=
  match fields.get? extensionsName with
  | some value => listOf value
  | none => []

/-- Checks that the head asks for, or grants, the upgrade of the protocol. -/
def checkUpgrade (fields : Fields) : Except Problem Unit := do
  let upgrade ← fields.require "upgrade" "Upgrade"
  if !Text.sameIgnoringCase upgrade.toList "websocket".toList then
    throw (.notUpgrade "Upgrade" upgrade)
  let connection ← fields.require "connection" "Connection"
  if !Text.contains "upgrade".toList (Text.lower connection.toList) then
    throw (.notUpgrade "Connection" connection)

end Fields

end DeflateTrial.Handshake
