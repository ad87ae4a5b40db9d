/-
Calls — what a writer may be asked, and all that can come of it

A writer is asked to send a message, to give out a close frame, or to shut its
direction down.  `Writer.handed` says which frame, if any, a call hands on to
be written; `Writer.Comes` lists the four things that a call can come to, and
`Writer.comes_ask` says that there are no others.  Whatever is claimed of a
writer over a run of calls is claimed of these four.
-/
import DeflateTrial.Message.Writer

namespace DeflateTrial.Message

/-- What a writer may be asked. -/
inductive Call where
  | send (message : Message)
  | close (status : Option CloseFrame)
  | shutdown
deriving DecidableEq, Repr

namespace Call

/-- Whether a close frame is asked for, in either of two ways. -/
def isClose : Call → Bool
  | .send (.close _) | .close _ => true
  | .send _ | .shutdown => false

end Call

namespace Writer

/-- A call carried out: what is to be written, or why nothing is. -/
def ask (writer : Writer) : Call → Except Fault Bytes × Writer
  | .send message => writer.send message
  | .close status =>
    let (bytes, writer) := writer.close status
    (.ok bytes, writer)
  | .shutdown => (.ok [], writer.shutdown)

/-- A writer after one call and another. -/
def askAll (writer : Writer) (calls : List Call) : Writer :=
  calls.foldl (fun writer call => (writer.ask call).2) writer

/-- The frame that a close goes out in. -/
def closeFrame : Option CloseFrame → Frame
  | some status => Frame.close (some status.code.value) status.reason
  | none => Frame.close none ""

/-- The frame of a planned one that is sound. -/
def sound : Except Fault (Frame × Option Deflate.Deflater) → Option Frame
  | .ok (frame, _) => match frame.checkControl with
    | .ok () => some frame
    | .error _ => none
  | .error _ => none

/-- The frame that a call hands on to be written, if any.  A close is handed on
as it is, unlike the other control frames. -/
def handed (writer : Writer) (call : Call) : Option Frame :=
  if writer.phase ≠ .open then none
  else match call with
    | .send (.text s) => sound (writer.dataFrame .text (Bytes.ofText s))
    | .send (.binary data) => sound (writer.dataFrame .binary data)
    | .send (.ping data) => sound (.ok (Frame.ping data, writer.deflater))
    | .send (.pong data) => sound (.ok (Frame.pong data, writer.deflater))
    | .send (.close status) | .close status => some (closeFrame status)
    | .shutdown => none

/-! ## The frames that are handed on -/

/-- What every frame that a writer hands on keeps to.  The rules for control
frames are one thing that a close frame may break. -/
structure Emits (writer : Writer) (frame : Frame) : Prop where
  fin : frame.fin = true
  rsv1 : frame.rsv1 = true → writer.deflater.isSome = true ∧ frame.opcode.isControl = false
  control : frame.opcode ≠ .close → frame.checkControl = .ok ()

theorem opcode_closeFrame (status : Option CloseFrame) : (closeFrame status).opcode = .close := by
  cases status <;> rfl

theorem emits_closeFrame (writer : Writer) (status : Option CloseFrame) :
    writer.Emits (closeFrame status) := by
  cases status <;> exact ⟨rfl, nofun, fun other => absurd rfl other⟩

/-- A planned frame that may go out without a further check, apart from the
rules for control frames; the compressor stays, or stays away. -/
structure Plans (writer : Writer) (frame : Frame) (deflater : Option Deflate.Deflater) :
    Prop where
  fin : frame.fin = true
  rsv1 : frame.rsv1 = true → writer.deflater.isSome = true ∧ frame.opcode.isControl = false
  close : frame.opcode ≠ .close
  same : deflater.isSome = writer.deflater.isSome
  /-- Where the frame may yet be refused, the compressor has not moved. -/
  settled : frame.opcode.isControl = true → deflater = writer.deflater

theorem plans_dataFrame {writer : Writer} {opcode : Opcode} {data : Bytes} {frame : Frame}
    {deflater : Option Deflate.Deflater} (bare : opcode.isControl = false)
    (h : writer.dataFrame opcode data = .ok (frame, deflater)) :
    writer.Plans frame deflater := by
  have other : opcode ≠ .close := by
    rintro rfl
    cases bare
  have never : ¬ opcode.isControl = true := by
    rw [bare]
    exact Bool.false_ne_true
  unfold dataFrame at h
  cases within : writer.limits.checkMessage data.length with
  | error fault =>
      rw [within] at h
      cases h
  | ok _ =>
      rw [within] at h
      cases hd : writer.deflater with
      | none =>
          rw [hd] at h
          cases h
          exact ⟨rfl, nofun, other, by rw [hd], fun control => absurd control never⟩
      | some compressor =>
          rw [hd] at h
          by_cases worth : compressor.shouldCompress data.length = true
          · simp only [worth, if_true] at h
            cases h
            exact ⟨rfl, fun _ => ⟨by rw [hd]; rfl, bare⟩, other, by rw [hd]; rfl,
              fun control => absurd control never⟩
          · simp only [worth] at h
            cases h
            exact ⟨rfl, nofun, other, by rw [hd], fun control => absurd control never⟩

theorem plans_ping (writer : Writer) (data : Bytes) :
    writer.Plans (Frame.ping data) writer.deflater :=
  ⟨rfl, nofun, nofun, rfl, fun _ => rfl⟩

theorem plans_pong (writer : Writer) (data : Bytes) :
    writer.Plans (Frame.pong data) writer.deflater :=
  ⟨rfl, nofun, nofun, rfl, fun _ => rfl⟩

/-! ## What a call can come to -/

/-- What a call can come to: by the frame that is handed on, the answer, and
the writer after it. -/
inductive Comes (writer : Writer) : Call → Option Frame → Except Fault Bytes → Writer → Prop where
  /-- A frame is written; after a close frame the writer is closing. -/
  | handed {call : Call} {frame : Frame} {deflater : Option Deflate.Deflater}
      (open_ : writer.phase = .open) (emits : writer.Emits frame)
      (same : deflater.isSome = writer.deflater.isSome) :
      Comes writer call (some frame) (.ok (writer.frames.write frame).1)
        { writer with
          frames := (writer.frames.write frame).2
          deflater
          phase := if frame.opcode = .close then .closing else .open }
  /-- A message is refused, and nothing has happened. -/
  | refused {message : Message} {fault : Fault} (other : (Call.send message).isClose = false)
      (late : writer.phase ≠ .open → fault = .connectionClosed none) :
      Comes writer (.send message) none (.error fault) writer
  /-- A close is not needed any more. -/
  | settled {call : Call} (past : writer.phase ≠ .open) (close : call.isClose = true) :
      Comes writer call none (.ok []) writer
  | shut : Comes writer .shutdown none (.ok []) writer.shutdown

theorem comes_transmit {writer : Writer} {message : Message}
    {planned : Except Fault (Frame × Option Deflate.Deflater)}
    (other : (Call.send message).isClose = false)
    (plans : ∀ frame deflater, planned = .ok (frame, deflater) → writer.Plans frame deflater) :
    Comes writer (.send message) (if writer.phase ≠ .open then none else sound planned)
      (writer.transmit planned).1 (writer.transmit planned).2 := by
  by_cases open_ : writer.phase = .open
  · have can : (!writer.phase.canSend) = false := by rw [open_]; rfl
    rw [if_neg (not_not_intro open_)]
    simp only [transmit, can, Bool.false_eq_true, if_false]
    match planned, plans with
    | .error fault, _ => exact .refused other fun past => absurd open_ past
    | .ok (frame, deflater), plans =>
        have plan := plans frame deflater rfl
        simp only [sound]
        cases hc : frame.checkControl with
        | ok _ =>
            have comes : Comes writer (.send message) (some frame) _ _ :=
              .handed open_ ⟨plan.fin, plan.rsv1, fun _ => hc⟩ plan.same
            rw [if_neg plan.close, ← open_] at comes
            exact comes
        | error fault =>
            -- only a control frame is unsound, and it has not come to the compressor
            have control : frame.opcode.isControl = true := by
              cases hk : frame.opcode.isControl with
              | true => rfl
              | false =>
                  rw [Frame.checkControl_of_data hk] at hc
                  cases hc
            rw [plan.settled control]
            exact .refused other fun past => absurd open_ past
  · have can : (!writer.phase.canSend) = true := by simp [Phase.canSend, open_]
    rw [if_pos open_]
    simp only [transmit, can, if_true]
    exact .refused other fun _ => rfl

theorem comes_close {writer : Writer} {call : Call} (close : call.isClose = true)
    (status : Option CloseFrame) :
    Comes writer call (if writer.phase ≠ .open then none else some (closeFrame status))
      (.ok (writer.close status).1) (writer.close status).2 := by
  by_cases open_ : writer.phase = .open
  · have comes : Comes writer call _ _ _ := .handed open_ (emits_closeFrame writer status) rfl
    rw [if_pos (opcode_closeFrame status)] at comes
    simp only [Writer.close, ne_eq, open_, not_true_eq_false, if_false]
    cases status <;> exact comes
  · simp only [Writer.close, ne_eq, open_, not_false_eq_true, if_true]
    exact .settled open_ close

theorem comes_ask (writer : Writer) (call : Call) :
    Comes writer call (writer.handed call) (writer.ask call).1 (writer.ask call).2 := by
  cases call with
  | send message =>
      cases message with
      | text s => exact comes_transmit rfl fun _ _ h => plans_dataFrame rfl h
      | binary data => exact comes_transmit rfl fun _ _ h => plans_dataFrame rfl h
      | ping data => exact comes_transmit rfl fun _ _ h => by cases h; exact plans_ping writer data
      | pong data => exact comes_transmit rfl fun _ _ h => by cases h; exact plans_pong writer data
      | close status => exact comes_close rfl status
  | close status => exact comes_close rfl status
  | shutdown =>
      have none? : writer.handed .shutdown = none := by simp [handed]
      rw [none?]
      exact .shut

end Writer

end DeflateTrial.Message
