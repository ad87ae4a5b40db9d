/-
Acceptance — which of the frames that a writer writes the other end takes

A frame that is written agrees with the other end in the direction of masking
and in RSV1, whatever was asked of the writer before.  Two things are left
open.  A writer has no regard to the limit on frames, and it hands a close
frame on without the rules for control frames, so its reason may be too long
for them.  These are the only ways for a frame to be refused
(`Writer.accepts_handed_iff`).
-/
import DeflateTrial.Proofs.Message.Calls
import DeflateTrial.Proofs.Message.Transport

namespace DeflateTrial

namespace Frame.Reader

/-- The bytes bring the frame to the reader: however many of them are in the
buffer, however the network cuts the others, and whatever follows. -/
def Accepts (reader : Reader) (bytes : Bytes) (frame : Frame) : Prop :=
  ∀ buffered pieces rest, buffered ++ pieces.flatten = bytes ++ rest →
    ∃ unread pieces', { reader with buffer := buffered }.next (.ofPieces pieces) =
        (.frame frame, { reader with buffer := unread }, .ofPieces pieces') ∧
      unread ++ pieces'.flatten = rest

theorem scan_of_next {reader reader' : Reader} {source : Source} {frame : Frame}
    (h : reader.next (.ofPieces []) = (.frame frame, reader', source)) :
    reader.scan = .frame frame reader'.buffer := by
  cases hs : reader.scan with
  | frame found rest =>
      rw [next_of_scan_frame hs] at h
      cases h
      rfl
  | fault fault =>
      rw [next_of_scan_fault hs] at h
      cases h
  | spent fault rest =>
      rw [next_of_scan_spent hs] at h
      cases h
  | more =>
      rw [next_of_scan_more_nil hs] at h
      cases he : reader.buffer.isEmpty <;> rw [he] at h <;> cases h

theorem accepts_encode_iff {reader : Reader} {frame : Frame} {mask : Option Mask}
    (wire : frame.wireSize mask.isSome ≤ maxSize) :
    reader.Accepts (frame.encode mask) frame ↔ reader.Takes frame mask := by
  constructor
  · intro accepts
    obtain ⟨unread, pieces, read, rest⟩ := accepts (frame.encode mask) [] [] rfl
    have scanned := scan_of_next read
    obtain rfl := (List.append_eq_nil_iff.mp rest).1
    have takes := (scan_encode_iff wire (List.append_nil _).symm).mp scanned
    exact ⟨takes.masked, takes.rsv1, takes.size, takes.control, wire⟩
  · intro takes buffered pieces rest whole
    obtain ⟨outcome, reader', unread, read, same⟩ :=
      next_ofPieces { reader with buffer := buffered } pieces
    have scanned : (fed { reader with buffer := buffered } pieces.flatten).scan =
        .frame frame rest :=
      scan_encode ⟨takes.masked, takes.rsv1, takes.size, takes.control, wire⟩ whole
    rw [next_of_scan_frame scanned] at same
    injection same with outcome_eq same
    injection same with reader_eq _
    subst outcome_eq
    refine ⟨reader'.buffer, unread, ?_, (congrArg Reader.buffer reader_eq).symm⟩
    rw [read]
    obtain ⟨role, limits, compression, buffer⟩ := reader'
    cases reader_eq
    rfl

theorem not_accepts_of_fault {reader : Reader} {bytes : Bytes} {fault : Fault}
    (h : (({ reader with buffer := bytes } : Reader).next (.ofPieces [])).1 = .fault fault)
    (frame : Frame) : ¬ reader.Accepts bytes frame := by
  intro accepts
  obtain ⟨unread, pieces, read, -⟩ := accepts bytes [] [] rfl
  rw [read] at h
  cases h

end Frame.Reader

namespace Message

namespace Writer

/-- The reader of frames at the other end, with the same limits and the same
choice about compression. -/
def peer (writer : Writer) : Frame.Reader :=
  { Frame.Reader.new writer.frames.role.peer writer.limits [] with
    compression := writer.deflater.isSome }

variable (writer : Writer)

theorem peer_ask (call : Call) : (writer.ask call).2.peer = writer.peer := by
  have comes := writer.comes_ask call
  generalize writer.ask call = ask at comes ⊢
  generalize writer.handed call = handed at comes
  obtain ⟨asked, after⟩ := ask
  cases comes with
  | @handed call frame deflater open_ emits same =>
      obtain ⟨mask, -, -, role⟩ := writer.frames.exists_mask_of_write frame
      simp only [peer, role, same]
  | refused | settled | shut => rfl

theorem peer_askAll (calls : List Call) : (writer.askAll calls).peer = writer.peer := by
  induction calls generalizing writer with
  | nil => rfl
  | cons call calls ih => exact (ih (writer.ask call).2).trans (writer.peer_ask call)

theorem checkControl_emits_iff {writer : Writer} {frame : Frame} (emits : writer.Emits frame) :
    frame.checkControl = .ok () ↔
      (frame.opcode = .close → frame.payload.length ≤ Frame.maxControlPayload) := by
  by_cases close : frame.opcode = .close
  · rw [Frame.checkControl_eq_ok_iff, close]
    exact ⟨fun h _ => (h rfl).2, fun short _ => ⟨emits.fin, short rfl⟩⟩
  · exact ⟨fun _ h => absurd h close, fun _ => emits.control close⟩

theorem takes_emits_iff {frame : Frame} {mask : Option Mask} (emits : writer.Emits frame)
    (masked : mask.isSome = writer.frames.role.masks)
    (wire : frame.wireSize mask.isSome ≤ Frame.maxSize) :
    writer.peer.Takes frame mask ↔ frame.payload.length ≤ writer.limits.frameSize ∧
      (frame.opcode = .close → frame.payload.length ≤ Frame.maxControlPayload) := by
  rw [← checkControl_emits_iff emits]
  constructor
  · intro takes
    exact ⟨takes.size, takes.control⟩
  · rintro ⟨size, control⟩
    exact ⟨masked.trans (Role.expectsMasked_peer _).symm, emits.rsv1, size, control, wire⟩

/-- What a call comes to for a reader at the other end.  A frame that is handed
on is written, and the reader takes it just if it is within the limit on frames
and, if it is a close frame, within that on control frames.  If none is handed
on, nothing is written: a message is refused, and only a close of a writer that
is past it, or a shutdown, succeeds. -/
def Reaches (reader : Frame.Reader) (call : Call) : Prop :=
  match writer.handed call with
  | some frame => ∃ bytes, (writer.ask call).1 = .ok bytes ∧
    (frame.wireSize reader.role.expectsMasked ≤ Frame.maxSize →
      (reader.Accepts bytes frame ↔ frame.payload.length ≤ reader.limits.frameSize ∧
        (frame.opcode = .close → frame.payload.length ≤ Frame.maxControlPayload)))
  | none => (∃ fault, (writer.ask call).1 = .error fault) ∨
    (writer.ask call).1 = .ok [] ∧
      (call.isClose = true ∧ writer.phase ≠ .open ∨ call = .shutdown)

theorem reaches_peer (call : Call) : writer.Reaches writer.peer call := by
  have comes := writer.comes_ask call
  unfold Reaches
  generalize writer.ask call = ask at comes ⊢
  generalize writer.handed call = handed at comes ⊢
  obtain ⟨asked, after⟩ := ask
  cases comes with
  | @handed call frame deflater open_ emits same =>
      obtain ⟨mask, masked, written, -⟩ := writer.frames.exists_mask_of_write frame
      refine ⟨_, rfl, fun (wire : frame.wireSize writer.frames.role.peer.expectsMasked ≤ _) => ?_⟩
      rw [Role.expectsMasked_peer, ← masked] at wire
      rw [written, Frame.Reader.accepts_encode_iff wire]
      exact writer.takes_emits_iff emits masked wire
  | @refused message fault other late => exact .inl ⟨fault, rfl⟩
  | @settled call past close => exact .inr ⟨rfl, .inl ⟨close, past⟩⟩
  | shut => exact .inr ⟨rfl, .inr rfl⟩

/-- Whatever was asked of a writer before: the frame that a call writes is one
that the other end takes, but for a payload over the limit on frames and a
close frame over the limit on control frames; and what is not sent is refused
with nothing written. -/
theorem accepts_handed_iff (role : Role) (counter : UInt32) (deflater : Option Deflate.Deflater)
    (limits : Limits) (calls : List Call) (call : Call) :
    ((Writer.new ⟨role, counter⟩ deflater limits).askAll calls).Reaches
      { Frame.Reader.new role.peer limits [] with compression := deflater.isSome } call := by
  have reaches := ((Writer.new ⟨role, counter⟩ deflater limits).askAll calls).reaches_peer call
  rw [peer_askAll] at reaches
  exact reaches

/-- A reason of 124 bytes is one too many: the close frame is written, and the
other end refuses it. -/
theorem refuses_long_reason :
    let status : CloseFrame := ⟨.normal, String.ofList (List.replicate 124 'a')⟩
    let reader : Frame.Reader := .new .client {} []
    ∃ bytes, ((Writer.new ⟨.server, 0⟩ none {}).ask (.close (some status))).1 = .ok bytes ∧
      (({ reader with buffer := bytes }).next (.ofPieces [])).1 =
        .fault (.controlFrameTooLarge 126) ∧
      ∀ frame, ¬ reader.Accepts bytes frame := by
  intro status reader
  have refused : (({ reader with
      buffer := ((Writer.new ⟨.server, 0⟩ none {}).close (some status)).1 } :
        Frame.Reader).next (.ofPieces [])).1 = .fault (.controlFrameTooLarge 126) := by
    decide +kernel
  exact ⟨_, rfl, refused, Frame.Reader.not_accepts_of_fault refused⟩

end Writer

end Message

end DeflateTrial
