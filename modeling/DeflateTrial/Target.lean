/-
Targets — the addresses that sessions are opened to

An address is a scheme, a host, perhaps a port, and perhaps a path.  A host
may stand in brackets, and then holds colons of its own.
-/
import DeflateTrial.Fault
import DeflateTrial.Text.Quoted
import DeflateTrial.Text.Split

namespace DeflateTrial

/-- An address, taken apart. -/
structure Target where
  host : String
  port : Nat
  /-- The host and port as they were written. -/
  authority : String
  /-- The path, which begins with a slash. -/
  path : String
deriving DecidableEq, Repr

namespace Target

/-- Why an address cannot be used. -/
inductive Problem where
  | encrypted
  /-- The address has another scheme, or none. -/
  | scheme
  | unterminated
  | missingHost
  /-- The port is no number of two bytes. -/
  | port (text : String)
deriving DecidableEq, Repr

/-- The wording of a problem with an address. -/
def Problem.text (url : String) : Problem → String
  | encrypted => s!"TLS is not supported: {url}"
  | scheme => s!"expected a ws:// URL: {url}"
  | unterminated => s!"unterminated IPv6 host: {url}"
  | missingHost => s!"missing host: {url}"
  | port text => s!"invalid port {Text.Quoted.quote text} in {url}"

/-- The port of an address that names none. -/
def usualPort : Nat := 80

def afterScheme (url : List Char) : Except Problem (List Char) :=
  match Text.cutAt "://".toList url with
  | none => .error .scheme
  | some (scheme, rest) =>
    if Text.sameIgnoringCase scheme "ws".toList then .ok rest
    else if Text.sameIgnoringCase scheme "wss".toList then .error .encrypted
    else .error .scheme

def splitPath (rest : List Char) : List Char × List Char :=
  let authority := rest.takeWhile (· ≠ '/')
  let path := rest.dropWhile (· ≠ '/')
  (authority, if path.isEmpty then ['/'] else path)

/-- The host and the text of the port, if there is one. -/
def splitAuthority (authority : List Char) :
    Except Problem (List Char × Option (List Char)) :=
  match authority with
  | '[' :: bracketed =>
    match Text.cutFirst ']' bracketed with
    | none => .error .unterminated
    | some (host, tail) => .ok (host, Text.dropStart? [':'] tail)
  | _ =>
    match Text.cutLast ':' authority with
    | some (host, port) => .ok (host, some port)
    | none => .ok (authority, none)

/-- The port that a text names. -/
def portOf : Option (List Char) → Except Problem Nat
  | none => .ok usualPort
  | some text => match Text.Decimal.readBelow? 65536 text with
    | some port => .ok port
    | none => .error (.port (String.ofList text))

def ofChars (url : List Char) : Except Problem Target := do
  let rest ← afterScheme url
  let (authority, path) := splitPath rest
  let (host, port) ← splitAuthority authority
  if host.isEmpty then throw .missingHost
  let port ← portOf port
  return {
    host := String.ofList host, port
    authority := String.ofList authority, path := String.ofList path }

def parse (url : String) : Except Fault Target :=
  match ofChars url.toList with
  | .ok target => .ok target
  | .error problem => .error (.invalidUrl (problem.text url))

end Target

end DeflateTrial
