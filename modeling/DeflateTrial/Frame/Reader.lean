/-
Reading frames — from a buffer that fills as the network brings bytes

Each time, the head at the front of the buffer is read and judged first, and
the payload only then.  A fault in the head leaves the buffer as it is, so
the next attempt finds it again; a control frame that breaks its own rules is
taken out before it is refused.
-/
import DeflateTrial.Frame.Wire
import DeflateTrial.Limits
import DeflateTrial.Role
import DeflateTrial.Source

namespace DeflateTrial.Frame

/-- One end's view of the frames that come to it. -/
structure Reader where
  role : Role
  limits : Limits
  compression : Bool
  /-- The bytes that belong to no frame taken out yet. -/
  buffer : Bytes
deriving DecidableEq, Repr

/-- What the buffer alone decides. -/
inductive Scan where
  | frame (frame : Frame) (rest : Bytes)
  /-- A fault that takes nothing out of the buffer. -/
  | fault (fault : Fault)
  /-- A fault of a frame that is taken out, and the bytes after it. -/
  | spent (fault : Fault) (rest : Bytes)
  | more
deriving DecidableEq, Repr

/-- What an attempt to read a frame gives. -/
inductive Reader.Outcome where
  | frame (frame : Frame)
  | fault (fault : Fault)
  | ended
  | waiting
deriving DecidableEq, Repr

namespace Reader

/-- A reader for a role, with the bytes that were read behind the opening head. -/
def new (role : Role) (limits : Limits) (leftover : Bytes) : Reader :=
  ⟨role, limits, false, leftover⟩

/-- Judges a head: the direction of masking, the reserved bits, the size. -/
def judge (reader : Reader) (head : Head) : Except Fault Unit :=
  if reader.role.expectsMasked && head.mask.isNone then .error .unmaskedClientFrame
  else if !reader.role.expectsMasked && head.mask.isSome then .error .maskedServerFrame
  else if head.rsv2 || head.rsv3 then .error .reservedBitsSet
  else if head.rsv1 && (!reader.compression || head.opcode.isControl) then
    .error .reservedBitsSet
  else reader.limits.checkFrame head.payloadSize

/-- Takes the frame at the front of the buffer, if its head is sound. -/
def scanFrame (buffer : Bytes) : Scan :=
  match Frame.parse buffer with
  | .ok (frame, size) =>
    match frame.checkControl with
    | .ok () => .frame frame (buffer.drop size)
    | .error fault => .spent fault (buffer.drop size)
  | .error (.incompleteFrame _) => .more
  | .error fault => .fault fault

def scan (reader : Reader) : Scan :=
  match Head.parse reader.buffer with
  | .ok head =>
    match reader.judge head with
    | .error fault => .fault fault
    | .ok () => scanFrame reader.buffer
  | .error (.incompleteFrame _) => .more
  | .error fault => .fault fault

/-- The fault of a stream that ends inside a frame. -/
def cutShort (reader : Reader) : Fault :=
  .io s!"stream ended inside a frame ({Text.Decimal.write reader.buffer.length} bytes buffered)"

def next (reader : Reader) (source : Source) : Outcome × Reader × Source :=
  match reader.scan with
  | .frame frame rest => (.frame frame, { reader with buffer := rest }, source)
  | .fault fault => (.fault fault, reader, source)
  | .spent fault rest => (.fault fault, { reader with buffer := rest }, source)
  | .more =>
    match _h : source.read with
    | (.bytes bytes, source') => next { reader with buffer := reader.buffer ++ bytes } source'
    | (.failure what, source') => (.fault (.io what), reader, source')
    | (.endOfStream, source') =>
      (if reader.buffer.isEmpty then .ended else .fault reader.cutShort, reader, source')
    | (.waiting, source') => (.waiting, reader, source')
termination_by source.pending.length
decreasing_by exact Source.pending_read_lt _h (by simp)

/-! ## A frame that is read takes bytes away -/

theorem headSize_of_parse {bytes : Bytes} {head : Head} (h : Head.parse bytes = .ok head) :
    2 ≤ head.headSize := by
  unfold Head.parse at h
  split at h
  · cases h
  · cases h
  · simp only [bind, Except.bind, pure, Except.pure] at h
    split at h
    · cases h
    · split at h
      · cases h
      · split at h
        · cases h
        · cases h
          simp only
          omega

theorem ne_nil_of_parse {bytes : Bytes} {head : Head} (h : Head.parse bytes = .ok head) :
    bytes ≠ [] := by
  rintro rfl
  cases h

theorem size_of_parse {bytes : Bytes} {frame : Frame} {size : Nat}
    (h : Frame.parse bytes = .ok (frame, size)) : 0 < size ∧ bytes ≠ [] := by
  unfold Frame.parse at h
  simp only [bind, Except.bind, pure, Except.pure, throw, throwThe, MonadExceptOf.throw] at h
  cases hh : Head.parse bytes with
  | error fault => simp [hh] at h
  | ok head =>
    have := headSize_of_parse hh
    have ne := ne_nil_of_parse hh
    simp only [hh] at h
    split at h
    · cases h
    · split at h
      · cases h
      · split at h <;> (cases h; exact ⟨by omega, ne⟩)

/-- All the bytes that a reader may still take frames from. -/
def ahead (reader : Reader) (source : Source) : Bytes :=
  reader.buffer ++ source.bytes

theorem rest_lt_of_scanFrame {buffer rest : Bytes} {frame : Frame}
    (h : scanFrame buffer = .frame frame rest) : rest.length < buffer.length := by
  unfold scanFrame at h
  split at h
  · rename_i f size hp
    obtain ⟨pos, ne⟩ := size_of_parse hp
    split at h
    · cases h
      have := List.length_pos_iff.mpr ne
      rw [List.length_drop]
      omega
    · cases h
  · cases h
  · cases h

theorem rest_lt_of_scan {reader : Reader} {rest : Bytes} {frame : Frame}
    (h : reader.scan = .frame frame rest) : rest.length < reader.buffer.length := by
  unfold scan at h
  split at h
  · split at h
    · cases h
    · exact rest_lt_of_scanFrame h
  · cases h
  · cases h

theorem ahead_lt_of_next {reader reader' : Reader} {source source' : Source} {frame : Frame}
    (h : reader.next source = (.frame frame, reader', source')) :
    (reader'.ahead source').length < (reader.ahead source).length := by
  fun_induction next reader source with
  | case1 reader source f rest hs =>
    cases h
    have := rest_lt_of_scan hs
    simp only [ahead, List.length_append]
    omega
  | case4 reader source hs bytes source'' hr ih =>
    have he : source.bytes = bytes ++ source''.bytes := by
      unfold Source.read at hr
      split at hr
      · split at hr <;> simp at hr
      · rename_i b rest hp
        cases hr
        simp [Source.bytes, hp]
      · simp at hr
    have := ih h
    simp only [ahead, List.length_append, he] at this ⊢
    omega
  | case6 => simp at h; split at h <;> simp at h
  | _ => simp at h

end Reader

end DeflateTrial.Frame
