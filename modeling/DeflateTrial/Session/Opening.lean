/-
Opening a session — from an address to the two halves of a connection

The address and the configuration are checked before anything is sent.  Then
the client sends its request, reads the head of the response, and checks that
the head grants the connection, belongs to the key that was sent, and takes up
no more than was offered.
-/
import DeflateTrial.Extension.Agreement
import DeflateTrial.Handshake.HeadReader
import DeflateTrial.Handshake.Response
import DeflateTrial.Message.Reader
import DeflateTrial.Message.Writer
import DeflateTrial.Network

namespace DeflateTrial

namespace Session

/-- What a session needs to know before it connects. -/
structure Plan where
  target : Target
  /-- The client's settings, if it offers compression. -/
  settings : Option Extension.Settings
deriving DecidableEq, Repr

/-- A problem with an extension as a fault. -/
def extensionFault {α : Type} (result : Except Extension.Problem α) : Except Fault α :=
  result.mapError Extension.Problem.fault

@[simp] theorem extensionFault_ok {α : Type} (a : α) : extensionFault (.ok a) = .ok a := rfl

/-- A problem with the handshake as a fault. -/
def handshakeFault {α : Type} (result : Except Handshake.Problem α) : Except Fault α :=
  result.mapError Handshake.Problem.fault

@[simp] theorem handshakeFault_ok {α : Type} (a : α) : handshakeFault (.ok a) = .ok a := rfl

namespace Plan

/-- Checks an address and a configuration. -/
def make (url : String) (configuration : Configuration) : Except Fault Plan := do
  let target ← Target.parse url
  let settings ← extensionFault (Extension.Settings.ofConfiguration configuration)
  return ⟨target, settings⟩

/-- Checks an address and a configuration, and then connects. -/
def connect (network : Network) (url : String) (configuration : Configuration) :
    Except Fault Plan := do
  let plan ← make url configuration
  network.connect plan.target
  return plan

/-- The opening request, with a key. -/
def request (plan : Plan) (key : String) : Handshake.ClientRequest where
  host := plan.target.authority
  path := plan.target.path
  key := key
  extensions := plan.settings.map fun s => s.offer.write

def requestText (plan : Plan) (key : String) : Except Fault String :=
  match (plan.request key).write with
  | (text, .ok ()) => .ok text
  | (_, .error fault) => .error fault

/-- What the response's extensions mean for what the plan offered. -/
def agree (plan : Plan) (entries : List String) : Except Fault (Option Extension.Agreement) :=
  match plan.settings with
  | some settings => extensionFault (Extension.Agreement.accept settings entries)
  | none =>
    if entries.isEmpty then .ok none
    else .error (Extension.Problem.nothingOffered entries).fault

/-- The two halves of a client's connection. -/
structure Halves where
  reader : Message.Reader
  writer : Message.Writer

/-- The halves of a connection under an agreement; `leftover` came behind the
response's head, and `seed` starts the masks. -/
def halves (plan : Plan) (limits : Limits) (seed : UInt32) (leftover : Bytes)
    (agreement : Option Extension.Agreement)
    (compressor : Deflate.Compressor := .fixedCode) : Halves where
  reader := .new (.new .client limits leftover) (agreement.map fun a => a.inflater .client limits)
  writer := .new ⟨.client, seed⟩
    (agreement.map fun a => a.deflater .client (plan.settings.getD {}) compressor) limits

/-- Checks the response's head and gives the halves of the connection. -/
def conclude (plan : Plan) (limits : Limits) (key : String) (seed : UInt32)
    (head leftover : Bytes) (compressor : Deflate.Compressor := .fixedCode) :
    Except Fault Halves := do
  let response ← handshakeFault (Handshake.Response.parse head)
  handshakeFault (response.verify key)
  let agreement ← plan.agree response.extensions
  return plan.halves limits seed leftover agreement compressor

end Plan

end Session

end DeflateTrial
