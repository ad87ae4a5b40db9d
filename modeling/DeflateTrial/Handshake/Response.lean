/-
Opening responses — how a server grants a connection

The server proves that it read the request by a digest of the request's key,
and names the extensions that it takes up.  A request that it will not serve
gets a plain refusal.
-/
import DeflateTrial.Digest.Sha1
import DeflateTrial.Handshake.Request

namespace DeflateTrial.Handshake

/-- What is appended to a key before its digest is taken. -/
def acceptSalt : String :=
  "258EAFA5-E914-47DA-95CA-C5AB0DC85B11"

def acceptFor (key : String) : String :=
  Digest.Base64.encode (Digest.Sha1.digest (Bytes.ofText (key ++ acceptSalt)))

/-- A granted connection. -/
structure Response where
  accept : String
  extensions : List String
deriving DecidableEq, Repr

namespace Response

/-- The response to a request, without extensions. -/
def ofRequest (request : Request) : Response :=
  ⟨acceptFor request.key, []⟩

/-- The lines of the response, one for each extension. -/
def lines (response : Response) : List (Except Fault String) :=
  [.ok "HTTP/1.1 101 Switching Protocols",
    .ok "Upgrade: websocket",
    .ok "Connection: Upgrade",
    .ok s!"Sec-WebSocket-Accept: {response.accept}"]
    ++ response.extensions.map (checkedLine "Sec-WebSocket-Extensions")

/-- The text that is written, and whether it is the whole response. -/
def write (response : Response) : String × Except Fault Unit :=
  putHead response.lines

/-- How the first line of a granted connection begins. -/
def granted : String := "HTTP/1.1 101"

/-- The response that the lines of a head make. -/
def ofLines : List (List Char) → Except Problem Response
  | [] => .error .emptyResponse
  | first :: rest => do
    if (Text.dropStart? granted.toList first).isNone then
      throw (.status (String.ofList first))
    let fields ← Fields.ofLines false rest
    fields.checkUpgrade
    let accept ← fields.require "sec-websocket-accept" "Sec-WebSocket-Accept"
    return { accept, extensions := fields.extensions }

def parse (head : Bytes) : Except Problem Response :=
  match Bytes.toText? head with
  | none => .error .notUtf8
  | some text => ofLines (Text.lines text.toList)

/-- Checks that the accept value belongs to a key. -/
def verify (response : Response) (key : String) : Except Problem Unit :=
  if response.accept = acceptFor key then .ok ()
  else .error (.mismatch (acceptFor key) response.accept)

end Response

/-- A refusal with a status and its reason. -/
def refusal (status : Nat) (reason : String) : String :=
  (putHead [.ok s!"HTTP/1.1 {Text.Decimal.write status} {reason}",
    .ok "Connection: close",
    .ok "Content-Length: 0"]).1

end DeflateTrial.Handshake
