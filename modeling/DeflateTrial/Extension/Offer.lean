/-
Offers — entries of the extensions header

The header is a list of entries set apart by commas.  An entry is a name and,
after semicolons, parameters; a parameter is a name alone, or a name, an
equals sign and a value that may stand in quotes.  White space around each
part is dropped, and so are blank parameters.
-/
import DeflateTrial.Extension.Problem
import DeflateTrial.Text.Blank
import DeflateTrial.Text.Split

namespace DeflateTrial.Extension

structure Param where
  name : String
  /-- The value, unless the name stands alone. -/
  value : Option String
deriving DecidableEq, Repr

namespace Param

/-- A name that stands alone. -/
def flag (name : String) : Param := ⟨name, none⟩

def valued (name value : String) : Param := ⟨name, some value⟩

/-- Reads a parameter; quotes around its value are dropped. -/
def ofChars (cs : List Char) : Param :=
  match Text.cutFirst '=' (Text.trim cs) with
  | some (name, value) =>
    ⟨String.ofList (Text.trim name), some (String.ofList (Text.strip '"' (Text.trim value)))⟩
  | none => ⟨String.ofList (Text.trim cs), none⟩

/-- Reads a parameter; quotes around its value are dropped. -/
def parse (text : String) : Param :=
  ofChars text.toList

def write (param : Param) : String :=
  match param.value with
  | some value => s!"{param.name}={value}"
  | none => param.name

end Param

structure Offer where
  name : String
  params : List Param
deriving DecidableEq, Repr

namespace Offer

def ofChars (cs : List Char) : Except Problem Offer :=
  match cs.splitOn ';' with
  | [] => .error .emptyName
  | name :: params =>
    let name := Text.trim name
    if name.isEmpty then .error .emptyName
    else .ok ⟨String.ofList name,
      (params.filter fun p => !(Text.trim p).isEmpty).map Param.ofChars⟩

def parse (text : String) : Except Problem Offer :=
  ofChars text.toList

/-- Reads a whole header value; every entry has to be sound. -/
def parseHeader (text : String) : Except Problem (List Offer) :=
  (text.toList.splitOn ',').mapM fun part => ofChars (Text.trim part)

def write (offer : Offer) : String :=
  String.intercalate "; " (offer.name :: offer.params.map Param.write)

def param? (offer : Offer) (name : String) : Option Param :=
  offer.params.find? (·.name = name)

/-- Whether a parameter of a name stands in the entry. -/
def hasParam (offer : Offer) (name : String) : Bool :=
  offer.params.any (·.name = name)

/-- The first parameter that stands in the entry for the second time. -/
def repeated? (offer : Offer) : Option String :=
  let names := offer.params.map (·.name)
  (names.zipIdx.find? fun (name, i) => (names.take i).contains name).map (·.1)

end Offer

end DeflateTrial.Extension
