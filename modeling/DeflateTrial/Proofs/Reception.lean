/-
Reception — what an end takes in, from the first byte to the last

An end reads a head and then messages, each of them out of what the ones
before left over.  Three readers hand their leftovers on, and each reads the
network only when its own buffer does not suffice.

    stream = head ++ frames,   whatever the pieces

The content is `sizeless_receive_congr`: two ways to cut one stream into reads
give the same head, the same messages in the same order and the same end.  The
one thing that the cuts can be told by is the size in the fault of a head that
is too large (`Reception.sizeless`).
-/
import DeflateTrial.Message.Reader
import DeflateTrial.Proofs.Frame.Growth
import DeflateTrial.Proofs.Handshake.HeadSearch

namespace DeflateTrial

namespace Message.Reader

/-- The reader with more bytes in its buffer. -/
def fed (reader : Reader) (bytes : Bytes) : Reader :=
  { reader with frames := reader.frames.fed bytes }

theorem next_of_frame {reader : Reader} {source source' : Source} {frame : Frame}
    {frames : Frame.Reader} (h : reader.frames.next source = (.frame frame, frames, source')) :
    reader.next source =
      match reader.assembler.accept frame with
      | (.ok (some message), assembler) => (.message message, ⟨frames, assembler⟩, source')
      | (.ok none, assembler) => next ⟨frames, assembler⟩ source'
      | (.error fault, assembler) => (.fault fault, ⟨frames, assembler⟩, source') := by
  rw [next]
  split
  · next taken =>
      rw [h] at taken
      cases taken
      rcases reader.assembler.accept frame with ⟨_ | _ | _, _⟩ <;> rfl
  all_goals simp_all

theorem next_of_fault {reader : Reader} {source source' : Source} {fault : Fault}
    {frames : Frame.Reader} (h : reader.frames.next source = (.fault fault, frames, source')) :
    reader.next source = (.fault fault, { reader with frames }, source') := by
  rw [next]
  split <;> simp_all

theorem next_of_ended {reader : Reader} {source source' : Source}
    {frames : Frame.Reader} (h : reader.frames.next source = (.ended, frames, source')) :
    reader.next source = (.ended, { reader with frames }, source') := by
  rw [next]
  split <;> simp_all

theorem next_of_waiting {reader : Reader} {source source' : Source}
    {frames : Frame.Reader} (h : reader.frames.next source = (.waiting, frames, source')) :
    reader.next source = (.waiting, { reader with frames }, source') := by
  rw [next]
  split <;> simp_all

/-- However a stream is cut, the next message is the one that comes if the
whole stream stands in the buffer. -/
theorem next_ofPieces (reader : Reader) (pieces : List Bytes) :
    ∃ outcome reader' rest,
      reader.next (.ofPieces pieces) = (outcome, reader', .ofPieces rest) ∧
      (reader.fed pieces.flatten).next (.ofPieces []) =
        (outcome, reader'.fed rest.flatten, .ofPieces []) := by
  -- on the bytes ahead: a frame that completes no message leads to the next one
  induction hn : (reader.ahead (.ofPieces pieces)).length using Nat.strongRecOn
    generalizing reader pieces with
  | ind n ih =>
      subst hn
      obtain ⟨outcome, frames, rest, hr, hw⟩ := reader.frames.next_ofPieces pieces
      cases outcome with
      | frame frame =>
          have less := Frame.Reader.ahead_lt_of_next hr
          have hw' : (reader.fed pieces.flatten).next (.ofPieces []) = _ := next_of_frame hw
          rw [next_of_frame hr]
          rcases ha : reader.assembler.accept frame with ⟨result, assembler⟩
          rw [show (reader.fed pieces.flatten).assembler = reader.assembler from rfl, ha] at hw'
          match result with
          | .ok (some message) => exact ⟨_, ⟨frames, assembler⟩, rest, rfl, hw'⟩
          | .ok none =>
              obtain ⟨outcome, reader', unread, hn, hnw⟩ := ih _ less ⟨frames, assembler⟩ rest rfl
              exact ⟨outcome, reader', unread, hn, hw'.trans hnw⟩
          | .error fault => exact ⟨_, ⟨frames, assembler⟩, rest, rfl, hw'⟩
      | fault fault =>
          exact ⟨_, { reader with frames }, rest, next_of_fault hr, next_of_fault hw⟩
      | ended => exact ⟨_, { reader with frames }, rest, next_of_ended hr, next_of_ended hw⟩
      | waiting =>
          exact ⟨_, { reader with frames }, rest, next_of_waiting hr, next_of_waiting hw⟩

theorem readAll_of_message {reader reader' : Reader} {source source' : Source}
    {message : Message} (h : reader.next source = (.message message, reader', source')) :
    reader.readAll source =
      (message :: (reader'.readAll source').1, (reader'.readAll source').2) := by
  rw [readAll]
  split <;> simp_all

theorem readAll_of_none {reader reader' : Reader} {source source' : Source}
    {outcome : Outcome} (h : reader.next source = (outcome, reader', source'))
    (none : ∀ message, outcome ≠ .message message) :
    reader.readAll source = ([], outcome) := by
  rw [readAll]
  split
  · next message _ _ taken =>
      rw [h] at taken
      cases taken
      exact absurd rfl (none message)
  all_goals simp_all

/-- However a stream is cut, it brings the same messages and the same end. -/
theorem readAll_ofPieces (reader : Reader) (pieces : List Bytes) :
    reader.readAll (.ofPieces pieces) = (reader.fed pieces.flatten).readAll (.ofPieces []) := by
  induction hn : (reader.ahead (.ofPieces pieces)).length using Nat.strongRecOn
    generalizing reader pieces with
  | ind n ih =>
      subst hn
      obtain ⟨outcome, reader', rest, hr, hw⟩ := reader.next_ofPieces pieces
      cases outcome with
      | message message =>
          have less := ahead_lt_of_next hr
          rw [readAll_of_message hr, readAll_of_message hw, ih _ less reader' rest rfl]
      | fault fault => rw [readAll_of_none hr (by simp), readAll_of_none hw (by simp)]
      | ended => rw [readAll_of_none hr (by simp), readAll_of_none hw (by simp)]
      | waiting => rw [readAll_of_none hr (by simp), readAll_of_none hw (by simp)]

end Message.Reader

/-- What an end takes in. -/
inductive Reception where
  /-- No head came. -/
  | refused (fault : Fault)
  /-- A head, the messages behind it and what came when there were no more. -/
  | taken (head : Bytes) (messages : List Message) (last : Message.Reader.Outcome)
  /-- The head is not whole, and more may come. -/
  | waiting
deriving DecidableEq, Repr

/-- Reads a head and then, with what came behind it, messages until none
comes.  Some bytes stand in the buffer already. -/
def receive (role : Role) (limits : Limits) (inflater : Option Deflate.Inflater)
    (buffered : Bytes) (source : Source) : Reception :=
  match Handshake.readHead limits buffered source with
  | (.ready (.ok head), leftover, source) =>
    let (messages, last) :=
      (Message.Reader.new (.new role limits leftover) inflater).readAll source
    .taken head messages last
  | (.ready (.error fault), _, _) => .refused fault
  | (.waiting, _, _) => .waiting

/-- A reception without the size in the fault of a head that is too large. -/
def Reception.sizeless : Reception → Reception
  | .refused (.handshakeTooLarge _ max) => .refused (.handshakeTooLarge 0 max)
  | reception => reception

/-- What is received from a stream in pieces, as the stream alone says it. -/
def receivedOf (role : Role) (limits : Limits) (inflater : Option Deflate.Inflater)
    (stream : Bytes) : Reception :=
  match Handshake.headIn limits 0 stream with
  | some (.ok (head, rest)) =>
    let (messages, last) :=
      (Message.Reader.new (.new role limits rest) inflater).readAll (.ofPieces [])
    .taken head messages last
  | some (.error _) => .refused (.handshakeTooLarge 0 limits.handshakeSize)
  | none => .refused (.connectionClosed none)

section
variable (role : Role) (limits : Limits) (inflater : Option Deflate.Inflater) (buffered : Bytes)

theorem sizeless_receive (pieces : List Bytes) :
    (receive role limits inflater buffered (.ofPieces pieces)).sizeless =
      receivedOf role limits inflater (buffered ++ pieces.flatten) := by
  have read := Handshake.readHead_ofPieces limits buffered pieces
  unfold Handshake.HeadRead at read
  unfold receive receivedOf
  cases hv : Handshake.headIn limits 0 (buffered ++ pieces.flatten) with
  | none =>
      rcases hr : Handshake.readHead limits buffered (.ofPieces pieces) with
        ⟨polled, left, source⟩
      rw [hv, hr] at read
      rw [show polled = _ from read]
      rfl
  | some verdict =>
      cases verdict with
      | error fault =>
          rcases hr : Handshake.readHead limits buffered (.ofPieces pieces) with
            ⟨polled, left, source⟩
          rw [hv, hr] at read
          obtain ⟨size, hp⟩ := read
          rw [show polled = _ from hp]
          rfl
      | ok found =>
          obtain ⟨head, rest⟩ := found
          rw [hv] at read
          obtain ⟨left, unread, hr, rfl⟩ := read
          rw [hr]
          simp only [Message.Reader.readAll_ofPieces _ unread]
          rfl

/-- Two ways to cut a stream into reads give the same head, the same messages
in the same order and the same end; only the size in the fault of a head that
is too large may differ. -/
theorem sizeless_receive_congr {pieces pieces' : List Bytes}
    (same : pieces.flatten = pieces'.flatten) :
    (receive role limits inflater buffered (.ofPieces pieces)).sizeless =
      (receive role limits inflater buffered (.ofPieces pieces')).sizeless := by
  rw [sizeless_receive, sizeless_receive, same]

end

/-- A head and a text frame, once with cuts inside the blank line and inside
the frame's head, and once in a single read. -/
theorem sizeless_receive_congr_blankLine :
    [[13, 10, 13], [10, 0x81], [1], [65]].flatten =
      ([[13, 10, 13, 10, 0x81, 1, 65]] : List Bytes).flatten ∧
    (receive .client {} none [71] (.ofPieces [[13, 10, 13], [10, 0x81], [1], [65]])).sizeless =
      (receive .client {} none [71] (.ofPieces [[13, 10, 13, 10, 0x81, 1, 65]])).sizeless :=
  ⟨rfl, sizeless_receive_congr .client {} none [71] rfl⟩

end DeflateTrial
