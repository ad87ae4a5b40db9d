/-
Roles — the two ends of a connection

The role fixes the direction of masking: a client masks every frame it sends
and takes only bare ones, a server the other way round.
-/

namespace DeflateTrial

/-- Which end of a connection this is. -/
inductive Role where
  | client
  | server
deriving DecidableEq, Repr

namespace Role

/-- Whether this end masks the frames it sends. -/
def masks : Role → Bool
  | client => true
  | server => false

/-- Whether this end takes only masked frames. -/
def expectsMasked : Role → Bool
  | client => false
  | server => true

def peer : Role → Role
  | client => server
  | server => client

def name : Role → String
  | client => "client"
  | server => "server"

theorem expectsMasked_peer (role : Role) : role.peer.expectsMasked = role.masks := by
  cases role <;> rfl

end Role

end DeflateTrial
