/-
Sources — what the network brings, read by read

A source is the list of what its reads will give, and whether the far side
has ended its stream.  A read brings some bytes, or fails, or finds the end,
or has to wait.  How the bytes are cut into reads is the network's affair:
`Source.bytes` is the stream without the cuts.
-/
import DeflateTrial.Bytes

namespace DeflateTrial

inductive Delivery where
  | bytes (bytes : Bytes)
  /-- The read fails; later reads go on. -/
  | failure (what : String)
deriving DecidableEq, Repr

/-- What a connection still has to bring. -/
structure Source where
  pending : List Delivery
  /-- Whether the far side sends no more. -/
  ended : Bool
deriving DecidableEq, Repr

inductive Read where
  | bytes (bytes : Bytes)
  | failure (what : String)
  | endOfStream
  /-- Nothing has come, and more may. -/
  | waiting
deriving DecidableEq, Repr

namespace Source

/-- A source that brings nothing yet. -/
def silent : Source :=
  ⟨[], false⟩

/-- Bytes in pieces of a size, the last one perhaps smaller; in one piece if
the size is zero. -/
def cut (size : Nat) (bytes : Bytes) : List Bytes :=
  if _h : bytes.isEmpty then []
  else if _z : size = 0 then [bytes]
  else bytes.take size :: cut size (bytes.drop size)
termination_by bytes.length
decreasing_by
  have : bytes.length ≠ 0 := by simpa using _h
  simp only [List.length_drop]
  omega

/-- A stream in given pieces, and its end. -/
def ofPieces (pieces : List Bytes) : Source :=
  ⟨pieces.map .bytes, true⟩

/-- One read, and what remains. -/
def read (source : Source) : Read × Source :=
  match source.pending with
  | [] => (if source.ended then .endOfStream else .waiting, source)
  | .bytes bytes :: rest => (.bytes bytes, { source with pending := rest })
  | .failure what :: rest => (.failure what, { source with pending := rest })

def push (source : Source) (bytes : Bytes) : Source :=
  { source with pending := source.pending ++ [.bytes bytes] }

def finish (source : Source) : Source :=
  { source with ended := true }

def bytes (source : Source) : Bytes :=
  source.pending.flatMap fun
    | .bytes bytes => bytes
    | .failure _ => []

theorem pending_read_lt {source rest : Source} {r : Read} (h : source.read = (r, rest))
    (live : r ≠ .endOfStream ∧ r ≠ .waiting) : rest.pending.length < source.pending.length := by
  unfold read at h
  split at h
  · split at h <;> simp_all
  · simp only [Prod.mk.injEq] at h
    simp_all [← h.2]
  · simp only [Prod.mk.injEq] at h
    simp_all [← h.2]

theorem bytes_of_read {source rest : Source} {r : Read} (h : source.read = (r, rest)) :
    source.bytes = (match r with | .bytes bytes => bytes | _ => []) ++ rest.bytes := by
  obtain ⟨pending, ended⟩ := source
  match pending with
  | [] =>
      cases ended <;> cases h <;> rfl
  | .bytes these :: pending =>
      cases h
      rfl
  | .failure what :: pending =>
      cases h
      rfl

theorem ended_of_read {source rest : Source} {r : Read} (h : source.read = (r, rest)) :
    rest.ended = source.ended := by
  obtain ⟨pending, ended⟩ := source
  match pending with
  | [] => cases h; rfl
  | .bytes these :: pending => cases h; rfl
  | .failure what :: pending => cases h; rfl

theorem ended_of_endOfStream {source rest : Source} (h : source.read = (.endOfStream, rest)) :
    source.ended = true := by
  obtain ⟨pending, ended⟩ := source
  match pending, ended with
  | [], true => rfl
  | [], false => cases h
  | .bytes _ :: _, _ => cases h
  | .failure _ :: _, _ => cases h

theorem bytes_of_endOfStream {source rest : Source} (h : source.read = (.endOfStream, rest)) :
    rest.bytes = [] := by
  obtain ⟨pending, ended⟩ := source
  match pending, ended with
  | [], true =>
      cases h
      rfl
  | [], false => cases h
  | .bytes _ :: _, _ => cases h
  | .failure _ :: _, _ => cases h

theorem live_of_waiting {source rest : Source} (h : source.read = (.waiting, rest)) :
    source.ended = false := by
  obtain ⟨pending, ended⟩ := source
  match pending, ended with
  | [], true => cases h
  | [], false => rfl
  | .bytes _ :: _, _ => cases h
  | .failure _ :: _, _ => cases h

end Source

/-- The outcome of an operation that may have to wait for its peer. -/
inductive Polled (α : Type) where
  | ready (value : α)
  | waiting
deriving DecidableEq, Repr

end DeflateTrial
