/-
Captures — the frames in bytes that went over the network
-/
import DeflateTrial.Frame.Reader

namespace DeflateTrial.Frame

/-- A frame as it was seen on the network. -/
structure Sighting where
  frame : Frame
  masked : Bool
deriving DecidableEq, Repr

/-- The first frame in captured bytes, and the bytes after it. -/
def sight (bytes : Bytes) : Option (Sighting × Bytes) :=
  match Head.parse bytes, Frame.parse bytes with
  | .ok head, .ok (frame, size) => some (⟨frame, head.mask.isSome⟩, bytes.drop size)
  | _, _ => none

theorem length_sight {bytes rest : Bytes} {sighting : Sighting}
    (h : sight bytes = some (sighting, rest)) : rest.length < bytes.length := by
  unfold sight at h
  split at h
  · rename_i head frame size hh hp
    cases h
    obtain ⟨pos, ne⟩ := Reader.size_of_parse hp
    have := List.length_pos_iff.mpr ne
    rw [List.length_drop]
    omega
  · cases h

/-- The frames in captured bytes, and the bytes behind the last whole one. -/
def capture (bytes : Bytes) : List Sighting × Bytes :=
  match _h : sight bytes with
  | some (sighting, rest) =>
    let (others, left) := capture rest
    (sighting :: others, left)
  | none => ([], bytes)
termination_by bytes.length
decreasing_by exact length_sight _h

end DeflateTrial.Frame
