/-
Limits — how much a connection takes in before it gives up

Four sizes are bounded: a frame, a whole message after reassembly and
inflation, the number of a message's fragments, and the opening head.  The
defaults leave room for the largest payload of a run, 2 MiB.
-/
import DeflateTrial.Fault

namespace DeflateTrial

/-- Upper bounds on what a peer may send. -/
structure Limits where
  frameSize : Nat := 16 * 1024 * 1024
  /-- Bytes in one message, reassembled and inflated. -/
  messageSize : Nat := 64 * 1024 * 1024
  fragmentCount : Nat := 1024
  /-- Bytes in the head of the opening handshake. -/
  handshakeSize : Nat := 8192
deriving DecidableEq, Repr

namespace Limits

def checkFrame (limits : Limits) (size : Nat) : Except Fault Unit :=
  if size > limits.frameSize then .error (.frameTooLarge size limits.frameSize) else .ok ()

def checkMessage (limits : Limits) (size : Nat) : Except Fault Unit :=
  if size > limits.messageSize then .error (.messageTooLarge size limits.messageSize) else .ok ()

def checkFragments (limits : Limits) (count : Nat) : Except Fault Unit :=
  if count > limits.fragmentCount then
    let most := Text.Decimal.write limits.fragmentCount
    .error (.protocolViolation
      s!"Too many fragments: {Text.Decimal.write count} (max: {most})")
  else .ok ()

def checkHandshake (limits : Limits) (size : Nat) : Except Fault Unit :=
  if size > limits.handshakeSize then .error (.handshakeTooLarge size limits.handshakeSize)
  else .ok ()

end Limits

/-- How a connection is run: its limits, the size of its read buffer, and how
long a closing client waits for its peer. -/
structure Transport where
  limits : Limits := {}
  /-- Bytes that one read may bring. -/
  readBuffer : Nat := 64 * 1024
  /-- Milliseconds between a client's close frame and the end of its patience. -/
  closeTimeout : Nat := 30000
deriving DecidableEq, Repr

end DeflateTrial
