/-
Refusals — a message that is not sent leaves no trace

A compressor cannot be rolled back, and a mask that has been made is not made
again.  So a writer has to say what it has against a message before the message
comes to either.  `Writer.objection` is all that it can have against one;
`Writer.send_eq_error_iff` says that it says just that, and
`Writer.untouched_of_error` that it is then as it was.

A refusal may therefore be struck out of a run together with its call, and the
run is otherwise the same (`Writer.refused_traceless`).
-/
import DeflateTrial.Proofs.Message.Lifecycle
import DeflateTrial.Proofs.Message.Sending

namespace DeflateTrial

/-- The faults by which a writer refuses a message.  A transport that fails
answers with another. -/
def Fault.isRefusal : Fault → Bool
  | .connectionClosed _ | .messageTooLarge .. | .controlFrameTooLarge _ => true
  | _ => false

namespace Message

/-- What is wrong with data that is over a limit. -/
def excess (limit : Nat) (fault : Nat → Fault) (data : Bytes) : Option Fault :=
  if data.length > limit then some (fault data.length) else none

/-- What is wrong with a message by its size alone. -/
def oversize (limit : Nat) : Message → Option Fault
  | .text s => excess limit (.messageTooLarge · limit) (Bytes.ofText s)
  | .binary data => excess limit (.messageTooLarge · limit) data
  | .ping data | .pong data => excess Frame.maxControlPayload .controlFrameTooLarge data
  | .close _ => none

namespace Writer

/-- What a writer has against a message: nothing against a close. -/
def objection (writer : Writer) (message : Message) : Option Fault :=
  if (Call.send message).isClose then none
  else if writer.phase ≠ .open then some (.connectionClosed none)
  else message.oversize writer.limits.messageSize

/-! ## One message -/

/-- What is wrong with a planned frame. -/
def unsound : Except Fault (Frame × Option Deflate.Deflater) → Option Fault
  | .ok (frame, _) => match frame.checkControl with
    | .ok () => none
    | .error fault => some fault
  | .error fault => some fault

section
variable {writer : Writer} {message : Message} {fault : Fault}
  {planned : Except Fault (Frame × Option Deflate.Deflater)}

theorem unsound_of_sound {frame : Frame} (h : sound planned = some frame) :
    unsound planned = none := by
  obtain ⟨deflater, rfl⟩ := of_sound h
  cases checked : frame.checkControl with
  | ok _ => simp only [unsound, checked]
  | error fault =>
      simp only [sound, checked] at h
      cases h

theorem unsound_dataFrame {opcode : Opcode} (bare : opcode.isControl = false) (data : Bytes) :
    unsound (writer.dataFrame opcode data) =
      excess writer.limits.messageSize (.messageTooLarge · writer.limits.messageSize) data := by
  unfold excess
  by_cases long : data.length > writer.limits.messageSize
  · rw [if_pos long]
    unfold dataFrame Limits.checkMessage
    rw [if_pos long]
    rfl
  · rw [if_neg long]
    obtain ⟨frame, planned⟩ : ∃ frame, sound (writer.dataFrame opcode data) = some frame :=
      sound_dataFrame bare (Nat.le_of_not_lt long)
    exact unsound_of_sound planned

theorem unsound_control {frame : Frame} (deflater : Option Deflate.Deflater)
    (control : frame.opcode.isControl = true) (fin : frame.fin = true) :
    unsound (.ok (frame, deflater)) =
      excess Frame.maxControlPayload .controlFrameTooLarge frame.payload := by
  unfold excess
  by_cases long : frame.payload.length > Frame.maxControlPayload
  · rw [if_pos long]
    simp [unsound, Frame.checkControl, control, fin, long]
  · rw [if_neg long]
    exact unsound_of_sound (sound_control fin (Nat.le_of_not_lt long))

theorem transmit_eq_error_iff (other : (Call.send message).isClose = false)
    (same : unsound planned = message.oversize writer.limits.messageSize) :
    (writer.transmit planned).1 = .error fault ↔ writer.objection message = some fault := by
  unfold transmit objection
  rw [other, ← same]
  by_cases open_ : writer.phase = .open
  · have can : (!writer.phase.canSend) = false := by rw [open_]; rfl
    rw [if_neg (not_not_intro open_), can]
    match planned with
    | .error cause => simp [unsound]
    | .ok (frame, deflater) => cases checked : frame.checkControl <;> simp [unsound, checked]
  · have can : (!writer.phase.canSend) = true := by simp [Phase.canSend, open_]
    rw [if_pos open_, can]
    simp

theorem send_eq_error_iff :
    (writer.send message).1 = .error fault ↔ writer.objection message = some fault := by
  cases message with
  | text s => exact transmit_eq_error_iff rfl (unsound_dataFrame rfl _)
  | binary data => exact transmit_eq_error_iff rfl (unsound_dataFrame rfl data)
  | ping data => exact transmit_eq_error_iff rfl (unsound_control _ rfl rfl)
  | pong data => exact transmit_eq_error_iff rfl (unsound_control _ rfl rfl)
  | close status => exact ⟨nofun, nofun⟩

theorem untouched_of_error {call : Call} (refused : (writer.ask call).1 = .error fault) :
    writer.handed call = none ∧ writer.ask call = (.error fault, writer) := by
  have comes := writer.comes_ask call
  generalize writer.ask call = ask at comes refused ⊢
  generalize writer.handed call = handed at comes ⊢
  obtain ⟨asked, after⟩ := ask
  cases comes with
  | handed | settled | shut => cases refused
  | refused =>
      cases refused
      exact ⟨rfl, rfl⟩

end

end Writer

/-! ## Runs -/

/-- Whether the writer refused the message that it was asked to send. -/
def Record.isRefused (record : Record) : Bool :=
  match record.answer with
  | .error fault => fault.isRefusal
  | .ok () => false

namespace Writer

/-- The writer after a part of a run.  What the transport had against the calls
is nothing to it. -/
def afterAll (writer : Writer) (attempts : List (Call × Option String)) : Writer :=
  writer.askAll (attempts.map Prod.fst)

/-- A call leaves no trace in a run. -/
structure Traceless (start : Writer) (earlier : List (Call × Option String)) (call : Call)
    (obstacle : Option String) : Prop where
  frame : ((start.afterAll earlier).perform call obstacle).1.frame = none
  written : ((start.afterAll earlier).perform call obstacle).1.written = []
  /-- The phase, the compressor and the masks are as they were. -/
  same : ((start.afterAll earlier).perform call obstacle).2 = start.afterAll earlier
  /-- Whatever is asked later, a run without the call differs in the record of the call alone. -/
  struck : ∀ later, start.performAll (earlier ++ later) =
    (start.performAll (earlier ++ (call, obstacle) :: later)).eraseIdx earlier.length
  wire : ∀ later, (start.performAll (earlier ++ later)).flatMap Record.written =
    (start.performAll (earlier ++ (call, obstacle) :: later)).flatMap Record.written
  ends : ∀ later, start.afterAll (earlier ++ later) =
    start.afterAll (earlier ++ (call, obstacle) :: later)

section
variable (writer : Writer) (attempts earlier later : List (Call × Option String))

theorem length_performAll : (writer.performAll attempts).length = attempts.length := by
  induction attempts generalizing writer with
  | nil => rfl
  | cons attempt attempts ih => exact congrArg Nat.succ (ih _)

theorem performAll_append : writer.performAll (earlier ++ later) =
    writer.performAll earlier ++ (writer.afterAll earlier).performAll later := by
  induction earlier generalizing writer with
  | nil => rfl
  | cons attempt earlier ih => exact congrArg (_ :: ·) (ih (writer.ask attempt.1).2)

theorem afterAll_append : writer.afterAll (earlier ++ later) =
    (writer.afterAll earlier).afterAll later := by
  simp only [afterAll, askAll, List.map_append, List.foldl_append]

theorem isRefused_of_asked {call : Call} {obstacle : Option String} {bytes : Bytes}
    (asked : (writer.ask call).1 = .ok bytes) :
    (writer.perform call obstacle).1.isRefused = false := by
  have answer : (writer.perform call obstacle).1.answer =
      call.answer (.ok bytes) obstacle := by
    rw [← asked]
    rfl
  rw [Record.isRefused, answer]
  cases obstacle with
  | none => rfl
  | some what =>
      cases engages : call.engages bytes <;> simp only [Call.answer, engages] <;> rfl

theorem perform_of_refused {call : Call} {obstacle : Option String}
    (refused : (writer.perform call obstacle).1.isRefused = true) :
    ∃ fault, (writer.ask call).1 = .error fault ∧ writer.perform call obstacle =
      ({ call, answer := .error fault, frame := none, written := [], phase := writer.phase },
        writer) := by
  cases asked : (writer.ask call).1 with
  | ok bytes =>
      rw [writer.isRefused_of_asked asked] at refused
      cases refused
  | error fault =>
      obtain ⟨handed, same⟩ := untouched_of_error asked
      refine ⟨fault, rfl, ?_⟩
      unfold perform
      rw [same, handed]
      rfl

theorem traceless_of_refused (start : Writer) {call : Call} {obstacle : Option String}
    (refused : ((start.afterAll earlier).perform call obstacle).1.isRefused = true) :
    start.Traceless earlier call obstacle := by
  obtain ⟨fault, asked, performed⟩ := (start.afterAll earlier).perform_of_refused refused
  have written : ((start.afterAll earlier).perform call obstacle).1.written = [] := by
    rw [performed]
  have whole later : start.performAll (earlier ++ (call, obstacle) :: later) =
      start.performAll earlier ++ ((start.afterAll earlier).perform call obstacle).1 ::
        (start.afterAll earlier).performAll later := by
    rw [performAll_append]
    simp only [performAll, performed]
  exact {
    frame := by rw [performed]
    written
    same := by rw [performed]
    struck := fun later => by
      rw [whole, performAll_append, ← start.length_performAll earlier,
        List.eraseIdx_append_of_length_le (Nat.le_refl _), Nat.sub_self, List.eraseIdx_cons_zero]
    wire := fun later => by
      rw [whole, performAll_append, List.flatMap_append, List.flatMap_append, List.flatMap_cons,
        written, List.nil_append]
    ends := fun later => by
      have same : ((start.afterAll earlier).ask call).2 = start.afterAll earlier := by
        rw [(untouched_of_error asked).2]
      rw [afterAll_append, afterAll_append]
      exact congrArg (Writer.afterAll · later) same.symm }

/-- Whatever was asked of a writer before: a message that it refuses is one that
it has just this against, and the refusal leaves no trace. -/
theorem refused_traceless (start : Writer) (message : Message) (obstacle : Option String)
    (fault : Fault) (refusal : fault.isRefusal = true)
    (answer : ((start.afterAll earlier).perform (.send message) obstacle).1.answer =
      .error fault) :
    (start.afterAll earlier).objection message = some fault ∧
      start.Traceless earlier (.send message) obstacle := by
  have refused : ((start.afterAll earlier).perform (.send message) obstacle).1.isRefused =
      true := by
    rw [Record.isRefused, answer]
    exact refusal
  obtain ⟨cause, asked, performed⟩ := (start.afterAll earlier).perform_of_refused refused
  rw [performed] at answer
  cases answer
  exact ⟨send_eq_error_iff.mp asked, start.traceless_of_refused earlier refused⟩

/-- A message over the limit is refused by a writer whose compressor and masks
have moved, and so it is if the transport would have failed as well. -/
theorem refused_traceless_between :
    let start := Writer.new ⟨.client, 7⟩ (some (.new 15 false 6 0)) { messageSize := 4 }
    let earlier : List (Call × Option String) := [(.send (.binary [1, 2, 3, 1]), none)]
    let message : Message := .binary [1, 2, 3, 1, 2]
    let fault : Fault := .messageTooLarge 5 4
    fault.isRefusal = true ∧
      ((start.afterAll earlier).perform (.send message) (some "pipe full")).1.answer =
        .error fault ∧
      (start.afterAll earlier).objection message = some fault ∧
      start.Traceless earlier (.send message) (some "pipe full") := by
  intro start earlier message fault
  have answer : ((start.afterAll earlier).perform (.send message) (some "pipe full")).1.answer =
      .error fault := rfl
  exact ⟨rfl, answer, refused_traceless earlier start message _ fault rfl answer⟩

end

end Writer

end Message

end DeflateTrial
