/-
Sending — messages that go out, each in a frame of its own

`Writer.Sends writer messages frames after` says that a writer sent the
messages in their order, none of them refused: each was handed on in one
frame, which was written with a mask just if the role masks, and `after` is
the writer then.  What the network is given for them is `given frames`.

An open writer refuses no message within its limits (`gives_of_within`), and
stays open until it has sent a close.
-/
import DeflateTrial.Outgoing
import DeflateTrial.Proofs.Message.Bounds
import DeflateTrial.Proofs.Message.Calls
import DeflateTrial.Proofs.Message.Transport

namespace DeflateTrial

theorem Frame.encode_ne_nil (frame : Frame) (mask : Option Mask) : frame.encode mask ≠ [] :=
  List.cons_ne_nil _ _

namespace Message

/-- What is given to the network for frames: one after the other, each whole. -/
def given (sent : Sent) : List Outgoing :=
  sent.map fun (frame, mask) => .bytes (frame.encode mask)

theorem given_append (sent more : Sent) : given (sent ++ more) = given sent ++ given more :=
  List.map_append

/-- The opcode of the frame that a message goes out in. -/
def opcode : Message → Opcode
  | text _ => .text
  | binary _ => .binary
  | ping _ => .ping
  | pong _ => .pong
  | close _ => .close

namespace Writer

/-- A message goes out: it is handed on in a frame, and the frame is written,
masked if the role masks. -/
structure Gives (writer : Writer) (message : Message) (frame : Frame) (mask : Option Mask)
    (next : Writer) : Prop where
  handed : writer.handed (.send message) = some frame
  masked : mask.isSome = writer.frames.role.masks
  sent : writer.send message = (.ok (frame.encode mask), next)

/-- Messages go out one after the other. -/
inductive Sends : Writer → List Message → Sent → Writer → Prop where
  | none (writer : Writer) : Sends writer [] [] writer
  | one {writer next after : Writer} {message : Message} {messages : List Message}
      {frame : Frame} {mask : Option Mask} {frames : Sent}
      (gives : writer.Gives message frame mask next) (rest : next.Sends messages frames after) :
      Sends writer (message :: messages) ((frame, mask) :: frames) after

variable {writer next after : Writer} {message : Message} {messages more : List Message}
  {frame : Frame} {mask : Option Mask} {frames later : Sent}

theorem Sends.append (first : writer.Sends messages frames next)
    (second : next.Sends more later after) :
    writer.Sends (messages ++ more) (frames ++ later) after := by
  induction first with
  | none => exact second
  | one gives _ ih => exact .one gives (ih second)

theorem Sends.snoc (first : writer.Sends messages frames next)
    (gives : next.Gives message frame mask after) :
    writer.Sends (messages ++ [message]) (frames ++ [(frame, mask)]) after :=
  first.append (.one gives (.none after))

/-! ## One message -/

/-- What becomes of a writer by a message that goes out. -/
structure Kept (writer next : Writer) (message : Message) : Prop where
  limits : next.limits = writer.limits
  role : next.frames.role = writer.frames.role
  phase : next.phase = if message.opcode = .close then .closing else .open

theorem opcode_dataFrame {opcode : Opcode} {data : Bytes} {deflater : Option Deflate.Deflater}
    (h : writer.dataFrame opcode data = .ok (frame, deflater)) : frame.opcode = opcode := by
  unfold dataFrame at h
  cases within : writer.limits.checkMessage data.length with
  | error fault =>
      rw [within] at h
      cases h
  | ok _ =>
      rw [within] at h
      cases hd : writer.deflater with
      | none =>
          rw [hd] at h
          cases h
          rfl
      | some compressor =>
          rw [hd] at h
          simp only at h
          split at h <;> cases h <;> rfl

theorem of_sound {planned : Except Fault (Frame × Option Deflate.Deflater)}
    (h : sound planned = some frame) : ∃ deflater, planned = .ok (frame, deflater) := by
  unfold sound at h
  split at h
  · split at h
    · cases h
      exact ⟨_, rfl⟩
    · cases h
  · cases h

theorem send_close_of_past (past : writer.phase ≠ .open) (status : Option CloseFrame) :
    writer.send (.close status) = (.ok [], writer) := by
  simp only [send, close, if_pos past]

theorem opcode_handed (h : writer.handed (.send message) = some frame) :
    frame.opcode = message.opcode := by
  unfold handed at h
  split at h
  · cases h
  · cases message with
    | text s =>
        obtain ⟨deflater, planned⟩ := of_sound h
        exact opcode_dataFrame planned
    | binary data =>
        obtain ⟨deflater, planned⟩ := of_sound h
        exact opcode_dataFrame planned
    | ping data =>
        obtain ⟨deflater, planned⟩ := of_sound h
        cases planned
        rfl
    | pong data =>
        obtain ⟨deflater, planned⟩ := of_sound h
        cases planned
        rfl
    | close status =>
        cases h
        exact opcode_closeFrame status

theorem gives_of_handed (h : writer.handed (.send message) = some frame) :
    ∃ mask next, writer.Gives message frame mask next ∧ writer.Kept next message := by
  have comes := writer.comes_ask (.send message)
  have opcode := opcode_handed h
  rw [h] at comes
  rcases asked : writer.ask (.send message) with ⟨answer, next⟩
  rw [asked] at comes
  cases comes with
  | @handed _ _ deflater open_ emits same =>
      obtain ⟨mask, masked, written, role⟩ := writer.frames.exists_mask_of_write frame
      rw [written] at asked
      refine ⟨mask, _, ⟨h, masked, asked⟩, rfl, role, ?_⟩
      rw [← opcode]

theorem Gives.kept (gives : writer.Gives message frame mask next) :
    writer.phase = .open ∧ writer.Kept next message := by
  obtain ⟨mask', next', gives', kept⟩ := gives_of_handed gives.handed
  have same : next' = next := congrArg Prod.snd (gives'.sent.symm.trans gives.sent)
  refine ⟨Decidable.byContradiction fun past => ?_, same ▸ kept⟩
  have handed := gives.handed
  unfold Writer.handed at handed
  rw [if_pos past] at handed
  cases handed

/-- Of messages that go out one after the other, only the last can be a close. -/
theorem Sends.close_last (sends : writer.Sends messages frames after) {sent : Frame × Option Mask}
    (h : sent ∈ frames.dropLast) : sent.1.opcode ≠ .close := by
  induction sends with
  | none => cases h
  | one gives rest ih =>
      cases rest with
      | none => cases h
      | one gives' rest' =>
          rw [List.dropLast_cons_of_ne_nil (List.cons_ne_nil _ _)] at h
          rcases List.mem_cons.mp h with rfl | h
          · -- what goes out next goes out from an open writer
            intro close
            have phase := gives.kept.2.phase
            rw [← opcode_handed gives.handed, if_pos close, gives'.kept.1] at phase
            cases phase
          · exact ih h

theorem sound_dataFrame {opcode : Opcode} {data : Bytes} (bare : opcode.isControl = false)
    (small : data.length ≤ writer.limits.messageSize) :
    ∃ frame, sound (writer.dataFrame opcode data) = some frame := by
  obtain ⟨⟨frame, deflater⟩, planned⟩ : ∃ planned, writer.dataFrame opcode data = .ok planned := by
    unfold dataFrame Limits.checkMessage
    rw [if_neg (Nat.not_lt.mpr small)]
    cases writer.deflater with
    | none => exact ⟨_, rfl⟩
    | some deflater =>
        simp only [bind, Except.bind]
        split <;> exact ⟨_, rfl⟩
  have data : frame.opcode.isControl = false := by rw [opcode_dataFrame planned, bare]
  exact ⟨frame, by rw [planned, sound, Frame.checkControl_of_data data]⟩

theorem sound_control {frame : Frame} {deflater : Option Deflate.Deflater} (fin : frame.fin = true)
    (short : frame.payload.length ≤ Frame.maxControlPayload) :
    sound (.ok (frame, deflater)) = some frame := by
  have checked : frame.checkControl = .ok () :=
    Frame.checkControl_eq_ok_iff.mpr fun _ => ⟨fin, short⟩
  rw [sound, checked]

/-- An open writer refuses no message within its limits. -/
theorem gives_of_within (open_ : writer.phase = .open)
    (within : message.Within writer.limits.messageSize) :
    ∃ frame mask next, writer.Gives message frame mask next ∧ writer.Kept next message := by
  obtain ⟨frame, handed⟩ : ∃ frame, writer.handed (.send message) = some frame := by
    unfold handed
    rw [if_neg (not_not_intro open_)]
    cases message with
    | text s => exact sound_dataFrame rfl within
    | binary data => exact sound_dataFrame rfl within
    | ping data => exact ⟨_, sound_control rfl within⟩
    | pong data => exact ⟨_, sound_control rfl within⟩
    | close status => exact ⟨_, rfl⟩
  obtain ⟨mask, next, gives, kept⟩ := gives_of_handed handed
  exact ⟨frame, mask, next, gives, kept⟩

end Writer

end Message

end DeflateTrial
