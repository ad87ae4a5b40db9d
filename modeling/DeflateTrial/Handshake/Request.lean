/-
Opening requests — how a client asks for a connection

The client names a path, its host, a key of sixteen bytes and the extensions
that it offers.  The server reads the request strictly.
-/
import DeflateTrial.Bytes
import DeflateTrial.Digest.Base64
import DeflateTrial.Handshake.Fields
import DeflateTrial.Handshake.Writing
import DeflateTrial.Text.Decimal
import DeflateTrial.Text.Quoted

namespace DeflateTrial.Handshake

/-- The text of a fresh key. -/
def keyOf (nonce : Bytes) : String :=
  Digest.Base64.encode nonce

/-- What a client sends. -/
structure ClientRequest where
  host : String
  path : String
  key : String
  /-- The offer of extensions, if any is made. -/
  extensions : Option String
deriving DecidableEq, Repr

namespace ClientRequest

def lines (request : ClientRequest) : List (Except Fault String) :=
  [.ok s!"GET {request.path} HTTP/1.1",
    .ok s!"Host: {request.host}",
    .ok "Upgrade: websocket",
    .ok "Connection: Upgrade",
    .ok s!"Sec-WebSocket-Key: {request.key}",
    .ok "Sec-WebSocket-Version: 13"]
    ++ (match request.extensions with
      | some extensions => [checkedLine "Sec-WebSocket-Extensions" extensions]
      | none => [])

/-- What has to hold before anything is written. -/
def check (request : ClientRequest) : Except Fault Unit := do
  checkValue "Host" request.host
  if request.path.toList.any Text.isBlank then
    throw (.invalidUrl s!"path contains whitespace: {Text.Quoted.quote request.path}")

/-- The text that is written, and whether it is the whole request. -/
def write (request : ClientRequest) : String × Except Fault Unit :=
  match request.check with
  | .error fault => ("", .error fault)
  | .ok () => putHead request.lines

end ClientRequest

/-- What a server reads. -/
structure Request where
  path : String
  host : String
  key : String
  version : Nat
  extensions : List String
deriving DecidableEq, Repr

namespace Request

def pathOf (line : List Char) : Except Problem String :=
  match (Text.words line).map String.ofList with
  | [method, path, version] =>
    if method ≠ "GET" then .error (.method method)
    else if version ≠ "HTTP/1.1" then .error (.httpVersion version)
    else .ok path
  | _ => .error .requestLine

/-- The version that a request names. -/
def versionOf (text : String) : Except Problem Nat :=
  match Text.Decimal.readBelow? 256 text.toList with
  | some version => .ok version
  | none => .error (.versionText text)

/-- The request that the lines of a head make. -/
def ofLines : List (List Char) → Except Problem Request
  | [] => .error .emptyRequest
  | first :: rest => do
    let path ← pathOf first
    let fields ← Fields.ofLines true rest
    fields.checkUpgrade
    let host ← fields.require "host" "Host"
    let key ← fields.require "sec-websocket-key" "Sec-WebSocket-Key"
    let version ← versionOf (← fields.require "sec-websocket-version" "Sec-WebSocket-Version")
    return { path, host, key, version, extensions := fields.extensions }

def parse (head : Bytes) : Except Problem Request :=
  match Bytes.toText? head with
  | none => .error .notUtf8
  | some text => ofLines (Text.lines text.toList)

/-- Checks the version, and that the key is the text of sixteen bytes. -/
def validate (request : Request) : Except Problem Unit :=
  if request.version ≠ 13 then .error (.unsupported request.version)
  else match Digest.Base64.decode? request.key with
    | none => .error .keyText
    | some key => if key.length = 16 then .ok () else .error (.keySize key.length)

end Request

end DeflateTrial.Handshake
