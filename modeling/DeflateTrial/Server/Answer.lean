/-
Answering opening requests — what the reference server says first

A request that does not ask properly is refused with 400, and a path that is
no endpoint with 404.  Any other request is granted.  Entries for extensions
that cannot be read are passed over: nothing in them makes a request fail.
-/
import DeflateTrial.Extension.Agreement
import DeflateTrial.Handshake.Response
import DeflateTrial.Digest.Md5
import DeflateTrial.Message.Basic

namespace DeflateTrial

/-- The reference server's two endpoints. -/
inductive Endpoint where
  /-- Answers data with its digest, as text in lowercase hexadecimal. -/
  | digest
  /-- Answers data with itself. -/
  | echo
deriving DecidableEq, Repr

namespace Endpoint

def ofPath? (path : String) : Option Endpoint :=
  if path = "/md5" then some digest
  else if path = "/echo" then some echo
  else none

/-- The reply to a data message. -/
def reply (endpoint : Endpoint) (message : Message) : Message :=
  match endpoint, message with
  | digest, .text s => .text (Digest.Md5.hex (Bytes.ofText s))
  | digest, .binary data => .text (Digest.Md5.hex data)
  | _, message => message

end Endpoint

/-- A reference server; unless told otherwise it compresses every reply. -/
structure Server where
  settings : Extension.Settings := { threshold := 0 }
  transport : Transport := {}
deriving DecidableEq, Repr

namespace Server

/-- What a server makes of an opening request. -/
inductive Answer where
  | refuse (status : Nat) (reason : String)
  | grant (endpoint : Endpoint) (agreement : Option Extension.Agreement)
    (response : Handshake.Response)
deriving DecidableEq, Repr

/-- The agreement that a request's entries lead to. -/
def agree (server : Server) (entries : List String) : Option Extension.Agreement :=
  Extension.Agreement.negotiate server.settings
    (entries.filterMap fun entry => (Extension.Offer.parse entry).toOption)

/-- The response that grants a request under an agreement. -/
def granted (request : Handshake.Request) (agreement : Option Extension.Agreement) :
    Handshake.Response :=
  { Handshake.Response.ofRequest request with
    extensions := (agreement.map fun a => a.response.write).toList }

/-- A request that asks properly. -/
def readRequest (head : Bytes) : Except Handshake.Problem Handshake.Request := do
  let request ← Handshake.Request.parse head
  request.validate
  return request

/-- The answer to the head of a request. -/
def answer (server : Server) (head : Bytes) : Answer :=
  match readRequest head with
  | .error _ => .refuse 400 "Bad Request"
  | .ok request =>
    match Endpoint.ofPath? request.path with
    | none => .refuse 404 "Not Found"
    | some endpoint =>
      let agreement := server.agree request.extensions
      .grant endpoint agreement (granted request agreement)

/-- The text of an answer, if it can be written. -/
def Answer.text? : Answer → Option String
  | refuse status reason => some (Handshake.refusal status reason)
  | grant _ _ response =>
    match response.write with
    | (text, .ok ()) => some text
    | (_, .error _) => none

end Server

end DeflateTrial
