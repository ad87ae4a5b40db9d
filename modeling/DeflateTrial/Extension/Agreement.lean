/-
Agreements — the compression parameters that both ends keep to

A client turns its settings into an offer.  A server answers the first offer
that it can accept, with the smaller of the two window limits and every flag
that either side asked for; the client checks the answer against what it
asked.  From the same agreement each end makes its compressor and the
decompressor that fits its peer's.
-/
import DeflateTrial.Configuration
import DeflateTrial.Deflate.Deflater
import DeflateTrial.Deflate.Inflater
import DeflateTrial.Extension.Offer
import DeflateTrial.Limits
import DeflateTrial.Role

namespace DeflateTrial.Extension

/-- The extension's registered name. -/
def deflateName : String := "permessage-deflate"

/-- The parameter by which the server gives up its context. -/
def serverNoContextName : String := "server_no_context_takeover"

/-- The parameter by which the client gives up its context. -/
def clientNoContextName : String := "client_no_context_takeover"

def serverWindowName : String := "server_max_window_bits"

def clientWindowName : String := "client_max_window_bits"

/-- The smallest window exponent that may be agreed on. -/
def minWindowBits : Nat := 8

/-- The greatest window exponent, which holds where nothing is said. -/
def maxWindowBits : Nat := 15

/-- The size below which messages are sent as they are, unless set otherwise. -/
def usualThreshold : Nat := 1024

/-- Refuses a window exponent outside the range. -/
def checkWindow (parameter : String) (bits : Nat) : Except Problem Nat :=
  if minWindowBits ≤ bits ∧ bits ≤ maxWindowBits then .ok bits
  else .error (.windowRange parameter bits)

/-- The window exponent in a parameter's value. -/
def windowIn (param : Param) (value : String) : Except Problem Nat :=
  match Text.Decimal.readBelow? 256 value.toList with
  | some bits => checkWindow param.name bits
  | none => .error (.windowValue param.name value)

/-- The window exponent of a parameter that must have a value. -/
def requiredWindow (param : Param) : Except Problem Nat :=
  match param.value with
  | some value => windowIn param value
  | none => .error (.valueRequired param.name)

/-- One end's own wishes. -/
structure Settings where
  serverNoContext : Bool := false
  clientNoContext : Bool := false
  serverWindowBits : Option Nat := none
  clientWindowBits : Option Nat := none
  /-- Shorter messages are sent as they are. -/
  threshold : Nat := usualThreshold
  /-- How hard to compress, from 0 to 9. -/
  level : Nat := 6
deriving DecidableEq, Repr

namespace Settings

def withServerWindow (s : Settings) (bits : Nat) : Except Problem Settings :=
  (checkWindow serverWindowName bits).map fun bits => { s with serverWindowBits := some bits }

def withClientWindow (s : Settings) (bits : Nat) : Except Problem Settings :=
  (checkWindow clientWindowName bits).map fun bits => { s with clientWindowBits := some bits }

def withLevel (s : Settings) (level : Nat) : Except Problem Settings :=
  if level > 9 then .error (.levelRange level) else .ok { s with level }

/-- Sets what is given and keeps the rest. -/
def whenGiven {α : Type} (set : Settings → α → Except Problem Settings) (given : Option α)
    (s : Settings) : Except Problem Settings :=
  match given with
  | some value => set s value
  | none => .ok s

/-- The client's settings for a configuration, or none if it offers nothing. -/
def ofConfiguration (c : Configuration) : Except Problem (Option Settings) :=
  if !c.enabled then .ok none
  else
    let s : Settings := {
      serverNoContext := c.serverNoContext
      clientNoContext := c.clientNoContext
      threshold := c.threshold.getD usualThreshold }
    (whenGiven withServerWindow c.serverWindowBits s).bind fun s =>
    (whenGiven withClientWindow c.clientWindowBits s).map some

/-- A flag that is set, as a list of parameters. -/
def flags (serverNoContext clientNoContext : Bool) : List Param :=
  (if serverNoContext then [Param.flag serverNoContextName] else [])
    ++ (if clientNoContext then [Param.flag clientNoContextName] else [])

def windowParam (name : String) (bits : Nat) : Param :=
  Param.valued name (Text.Decimal.write bits)

/-- The client's offer.  The parameter for the client's window is always
there, so the server knows that it may limit that window. -/
def offer (s : Settings) : Offer where
  name := deflateName
  params :=
    flags s.serverNoContext s.clientNoContext
      ++ (match s.serverWindowBits with
        | some bits => [windowParam serverWindowName bits]
        | none => [])
      ++ [match s.clientWindowBits with
        | some bits => windowParam clientWindowName bits
        | none => Param.flag clientWindowName]

end Settings

structure Agreement where
  serverNoContext : Bool
  clientNoContext : Bool
  serverWindowBits : Nat
  clientWindowBits : Nat
deriving DecidableEq, Repr

namespace Agreement

/-- Refuses an entry in which a parameter stands twice. -/
def refuseRepeated (offer : Offer) : Except Problem Unit :=
  match offer.repeated? with
  | some name => .error (.duplicate name)
  | none => .ok ()

/-- What the server has gathered from an offer's parameters. -/
structure Draft where
  terms : Agreement
  /-- Whether the client said that its window may be limited. -/
  clientWindowAllowed : Bool
deriving DecidableEq, Repr

/-- The server takes one parameter of an offer into account. -/
def serverTakes (draft : Draft) (param : Param) : Except Problem Draft :=
  let terms := draft.terms
  if param.name = serverNoContextName then
    .ok { draft with terms := { terms with serverNoContext := true } }
  else if param.name = clientNoContextName then
    .ok { draft with terms := { terms with clientNoContext := true } }
  else if param.name = serverWindowName then
    (requiredWindow param).map fun bits =>
      { draft with terms := { terms with serverWindowBits := min terms.serverWindowBits bits } }
  else if param.name = clientWindowName then
    match param.value with
    | none => .ok { draft with clientWindowAllowed := true }
    | some value => (windowIn param value).map fun bits =>
      { terms := { terms with clientWindowBits := bits }, clientWindowAllowed := true }
  else .error (.unknown param.name)

def serverDraft (s : Settings) : Draft where
  terms := {
    serverNoContext := s.serverNoContext
    clientNoContext := s.clientNoContext
    serverWindowBits := s.serverWindowBits.getD maxWindowBits
    clientWindowBits := maxWindowBits }
  clientWindowAllowed := false

/-- The server's own limit on the client's window, where it may have one. -/
def limitClient (s : Settings) (draft : Draft) : Agreement :=
  match draft.clientWindowAllowed, s.clientWindowBits with
  | true, some bits =>
    { draft.terms with clientWindowBits := min draft.terms.clientWindowBits bits }
  | _, _ => draft.terms

/-- The server's answer to one offer. -/
def ofOffer (s : Settings) (offer : Offer) : Except Problem Agreement := do
  refuseRepeated offer
  let draft ← offer.params.foldlM serverTakes (serverDraft s)
  return limitClient s draft

/-- The server's answer to a list of offers: the first one that it can accept. -/
def negotiate (s : Settings) (offers : List Offer) : Option Agreement :=
  (offers.filter (·.name = deflateName)).findSome? fun offer => (ofOffer s offer).toOption

def response (a : Agreement) : Offer where
  name := deflateName
  params :=
    Settings.flags a.serverNoContext a.clientNoContext
      ++ [Settings.windowParam serverWindowName a.serverWindowBits,
        Settings.windowParam clientWindowName a.clientWindowBits]

/-- The client takes one parameter of the server's answer into account. -/
def clientTakes (s : Settings) (a : Agreement) (param : Param) : Except Problem Agreement :=
  if param.name = serverNoContextName then .ok { a with serverNoContext := true }
  else if param.name = clientNoContextName then .ok { a with clientNoContext := true }
  else if param.name = serverWindowName then
    (requiredWindow param).bind fun bits =>
      match s.serverWindowBits with
      | some requested =>
        if bits > requested then .error (.exceedsRequest bits requested)
        else .ok { a with serverWindowBits := bits }
      | none => .ok { a with serverWindowBits := bits }
  else if param.name = clientWindowName then
    (requiredWindow param).map fun bits =>
      { a with clientWindowBits := min a.clientWindowBits bits }
  else .error (.unknown param.name)

def clientDraft (s : Settings) : Agreement where
  serverNoContext := false
  clientNoContext := s.clientNoContext
  serverWindowBits := maxWindowBits
  clientWindowBits := s.clientWindowBits.getD maxWindowBits

/-- What one entry of the server's answer means to the client. -/
def ofEntry (s : Settings) (offer : Offer) : Except Problem Agreement := do
  refuseRepeated offer
  offer.params.foldlM (clientTakes s) (clientDraft s)

/-- The client takes one entry of the response header into account. -/
def acceptEntry (s : Settings) (accepted : Option Agreement) (entry : String) :
    Except Problem (Option Agreement) := do
  let offer ← Offer.parse entry
  if offer.name ≠ deflateName then throw (.notOffered offer.name)
  if accepted.isSome then throw .acceptedTwice
  return some (← ofEntry s offer)

/-- What the entries of the response header mean to the client: an agreement,
or none if the server did not take up the offer. -/
def accept (s : Settings) (entries : List String) : Except Problem (Option Agreement) :=
  entries.foldlM (acceptEntry s) none

/-- The window exponent and the context flag for what a role sends. -/
def outgoing (a : Agreement) : Role → Nat × Bool
  | .client => (a.clientWindowBits, a.clientNoContext)
  | .server => (a.serverWindowBits, a.serverNoContext)

/-- The compressor for what a role sends. -/
def deflater (a : Agreement) (role : Role) (s : Settings)
    (compressor : Deflate.Compressor := .fixedCode) : Deflate.Deflater :=
  let (bits, noContext) := a.outgoing role
  .new bits noContext s.level s.threshold compressor

/-- The decompressor for what a role receives. -/
def inflater (a : Agreement) (role : Role) (limits : Limits) : Deflate.Inflater :=
  let (bits, noContext) := a.outgoing role.peer
  .new bits noContext limits.messageSize

end Agreement

end DeflateTrial.Extension
