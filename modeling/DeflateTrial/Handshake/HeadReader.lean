/-
Reading a head — the bytes up to and including the first blank line

What arrives behind the blank line stays in the buffer: it belongs to the
first frames.
-/
import DeflateTrial.Limits
import DeflateTrial.Source

namespace DeflateTrial.Handshake

/-- The end of the last line and the blank line after it. -/
def blankLine : Bytes :=
  [13, 10, 13, 10]

/-- How many bytes stand up to the end of the first blank line, if there is one. -/
def headSize? (bytes : Bytes) : Option Nat :=
  match bytes with
  | [] => none
  | _ :: rest => if blankLine.isPrefixOf bytes then some 4 else (headSize? rest).map (· + 1)

/-- What the buffer alone decides: a head that is not too long and what
follows it, or a fault, or nothing yet.  No blank line begins among the first
`searched` bytes, so the search leaves them out. -/
def headIn (limits : Limits) (searched : Nat) (buffer : Bytes) :
    Option (Except Fault (Bytes × Bytes)) :=
  match headSize? (buffer.drop searched) with
  | some size =>
    let size := searched + size
    some ((limits.checkHandshake size).map fun _ => (buffer.take size, buffer.drop size))
  | none =>
    match limits.checkHandshake buffer.length with
    | .error fault => some (.error fault)
    | .ok () => none

/-- Reads on until the head is whole, in a buffer of which a part has been
searched.  A blank line that begins in the last three bytes may not be whole
yet, so the next search takes them in again. -/
def readHeadOn (limits : Limits) (searched : Nat) (buffer : Bytes) (source : Source) :
    Polled (Except Fault Bytes) × Bytes × Source :=
  match headIn limits searched buffer with
  | some (.ok (head, rest)) => (.ready (.ok head), rest, source)
  | some (.error fault) => (.ready (.error fault), buffer, source)
  | none =>
    match _h : source.read with
    | (.bytes bytes, source') =>
      readHeadOn limits (buffer.length - (blankLine.length - 1)) (buffer ++ bytes) source'
    | (.failure what, source') => (.ready (.error (.io what)), buffer, source')
    | (.endOfStream, source') => (.ready (.error (.connectionClosed none)), buffer, source')
    | (.waiting, source') => (.waiting, buffer, source')
termination_by source.pending.length
decreasing_by exact Source.pending_read_lt _h (by simp)

/-- Reads until the head is whole; with it what is left in the buffer and to
be read. -/
def readHead (limits : Limits) (buffer : Bytes) (source : Source) :
    Polled (Except Fault Bytes) × Bytes × Source :=
  readHeadOn limits 0 buffer source

end DeflateTrial.Handshake
