/-
Problems of the handshake — what makes an opening head unacceptable
-/
import DeflateTrial.Fault

namespace DeflateTrial.Handshake

open Text (Decimal.write)

/-- Why an opening request or its response is refused. -/
inductive Problem where
  | notUtf8
  | emptyRequest
  | emptyResponse
  /-- The first line of a request is not three words. -/
  | requestLine
  | method (word : String)
  | httpVersion (word : String)
  | status (line : String)
  /-- A header that may stand only once stands twice. -/
  | duplicate (name : String)
  /-- A header that is needed is not there; its name as usually written. -/
  | missing (name : String)
  /-- A header does not ask for the upgrade. -/
  | notUpgrade (name value : String)
  /-- The version is no number of one byte. -/
  | versionText (text : String)
  | unsupported (version : Nat)
  /-- The key is the text of a wrong number of bytes. -/
  | keySize (size : Nat)
  | keyText
  /-- The accept value does not belong to the key. -/
  | mismatch (expected actual : String)
deriving DecidableEq, Repr

namespace Problem

def text : Problem → String
  | notUtf8 => "Invalid UTF-8"
  | emptyRequest => "Empty request"
  | emptyResponse => "Empty response"
  | requestLine => "Invalid request line"
  | method word => s!"Expected GET method, got {word}"
  | httpVersion word => s!"Expected HTTP/1.1, got {word}"
  | status line => s!"Expected 101 status, got: {line}"
  | duplicate name => s!"Duplicate header: {name}"
  | missing name => s!"Missing {name} header"
  | notUpgrade name value => s!"Invalid {name} header: {value}"
  | versionText version => s!"Invalid version: {version}"
  | unsupported version =>
    s!"Unsupported WebSocket version: {Decimal.write version} (expected 13)"
  | keySize size => s!"Sec-WebSocket-Key must be 16 bytes, got {Decimal.write size}"
  | keyText => "Invalid Sec-WebSocket-Key: not valid Base64"
  | mismatch expected actual =>
    s!"Sec-WebSocket-Accept mismatch: expected {expected}, got {actual}"

def fault (problem : Problem) : Fault :=
  .invalidHandshake problem.text

end Problem

end DeflateTrial.Handshake
