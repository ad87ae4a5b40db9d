/-
Writing heads — lines that are put out one after the other

A value that holds a line end would break the head that carries it, so a line
with such a value is refused; the lines before it have been put out by then.
-/
import DeflateTrial.Fault

namespace DeflateTrial.Handshake

def lineEnd : String := "\r\n"

/-- Refuses a value that holds a carriage return or a line feed. -/
def checkValue (header value : String) : Except Fault Unit :=
  if value.toList.any fun c => c = '\r' || c = '\n' then
    .error (.invalidHeaderValue header "contains CR or LF characters")
  else .ok ()

/-- A header line, unless its value would break it. -/
def checkedLine (header value : String) : Except Fault String :=
  (checkValue header value).map fun _ => s!"{header}: {value}"

/-- Puts out lines until one is refused: the text written, and the refusal. -/
def putLines : List (Except Fault String) → String × Except Fault Unit
  | [] => ("", .ok ())
  | .error fault :: _ => ("", .error fault)
  | .ok line :: rest =>
    let (text, result) := putLines rest
    (line ++ lineEnd ++ text, result)

/-- Puts out lines and a blank one, unless one of them is refused. -/
def putHead (lines : List (Except Fault String)) : String × Except Fault Unit :=
  putLines (lines ++ [.ok ""])

end DeflateTrial.Handshake
