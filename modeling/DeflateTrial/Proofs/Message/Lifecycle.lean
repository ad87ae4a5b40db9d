/-
Life cycle — a writer goes from open to closing to closed, and never back

The calls of a run come in any order, and the transport may fail at any of
them.  Whether it does decides the answer to the call and nothing else: the
phase has changed before the transport is asked.

    open ──close──▸ closing ──shutdown──▸ closed,   or at once open ──▸ closed

`Writer.stepped_perform` says what one call keeps to.  From it come, for a
whole run (`Writer.lifecycle_performAll`), the order of the phases, the one
close frame with no frame after it, and a writer past its close that refuses
messages and lets closes be.
-/
import DeflateTrial.Proofs.Message.Calls
import DeflateTrial.Proofs.Message.Transport

namespace DeflateTrial.Message

/-- The order of the phases: none leads back. -/
inductive Phase.Leads : Phase → Phase → Prop where
  | stay (phase : Phase) : Leads phase phase
  | close : Leads .open .closing
  | shut : Leads .closing .closed
  | abandon : Leads .open .closed

theorem Phase.Leads.trans {a b c : Phase} (h : a.Leads b) (h' : b.Leads c) : a.Leads c := by
  cases h with
  | stay => exact h'
  | close => cases h' with
    | stay => exact .close
    | shut => exact .abandon
  | shut => cases h' with
    | stay => exact .shut
  | abandon => cases h' with
    | stay => exact .abandon

theorem Phase.Leads.ne_open {a b : Phase} (h : a.Leads b) (past : a ≠ .open) : b ≠ .open := by
  cases h with
  | stay => exact past
  | close | shut | abandon => exact nofun

/-! ## Runs -/

/-- Whether a call has something for the transport to do: bytes to write, or
the direction to shut down. -/
def Call.engages (call : Call) (bytes : Bytes) : Bool :=
  !bytes.isEmpty || call = .shutdown

/-- The answer to a call, given what the transport has against it: the writer
may refuse by itself, and the transport is asked only if it has something to do. -/
def Call.answer (call : Call) (asked : Except Fault Bytes) (obstacle : Option String) :
    Except Fault Unit :=
  match asked, obstacle with
  | .error fault, _ => .error fault
  | .ok bytes, some what => if call.engages bytes then .error (.io what) else .ok ()
  | .ok _, none => .ok ()

/-- What is seen of one call. -/
structure Record where
  call : Call
  answer : Except Fault Unit
  /-- The frame handed on to be written. -/
  frame : Option Frame
  /-- The bytes given to the transport. -/
  written : Bytes
  /-- The phase after the call. -/
  phase : Phase

namespace Record

def closes (record : Record) : Bool :=
  record.frame.any (·.opcode = .close)

/-- What is written is the wire form of the frame handed on, and nothing if there is none. -/
def Faithful (record : Record) : Prop :=
  match record.frame with
  | some frame => ∃ mask, record.written = frame.encode mask
  | none => record.written = []

/-- Nothing comes of the call: no frame, no byte.  A message is refused, and a
close is as good as done. -/
structure Idle (record : Record) : Prop where
  frame : record.frame = none
  written : record.written = []
  answer : record.call ≠ .shutdown → record.answer =
    if record.call.isClose then .ok () else .error (.connectionClosed none)

end Record

namespace Writer

/-- One call, with what the transport has against it. -/
def perform (writer : Writer) (call : Call) (obstacle : Option String) : Record × Writer :=
  let (asked, after) := writer.ask call
  ({ call
     answer := call.answer asked obstacle
     frame := writer.handed call
     written := asked.toOption.getD []
     phase := after.phase }, after)

/-- One call after the other. -/
def performAll (writer : Writer) : List (Call × Option String) → List Record
  | [] => []
  | (call, obstacle) :: attempts =>
    let (record, after) := writer.perform call obstacle
    record :: after.performAll attempts

/-! ## One call -/

/-- What one call keeps to. -/
structure Stepped (writer : Writer) (record : Record) (after : Writer) : Prop where
  phase : record.phase = after.phase
  leads : writer.phase.Leads after.phase
  closes : record.closes = true → after.phase ≠ .open
  faithful : record.Faithful
  idle : writer.phase ≠ .open → record.Idle

theorem stepped_perform (writer : Writer) (call : Call) (obstacle : Option String) :
    writer.Stepped (writer.perform call obstacle).1 (writer.perform call obstacle).2 := by
  unfold perform
  have comes := writer.comes_ask call
  generalize writer.ask call = ask at comes ⊢
  generalize writer.handed call = handed at comes ⊢
  obtain ⟨asked, after⟩ := ask
  cases comes with
  | @handed call frame deflater open_ emits same =>
      refine ⟨rfl, ?_, ?_, ?_, fun past => absurd open_ past⟩
      · rw [open_]
        change Phase.Leads .open (if frame.opcode = .close then .closing else .open)
        split
        · exact .close
        · exact .stay .open
      · intro (closes : decide (frame.opcode = .close) = true)
        change (if frame.opcode = .close then Phase.closing else .open) ≠ .open
        rw [if_pos (of_decide_eq_true closes)]
        exact nofun
      · obtain ⟨mask, -, written, -⟩ := writer.frames.exists_mask_of_write frame
        exact ⟨mask, written⟩
  | @refused message fault other late =>
      refine ⟨rfl, .stay _, nofun, rfl, fun past => ⟨rfl, rfl, fun _ => ?_⟩⟩
      rw [late past, other]
      rfl
  | @settled call past close =>
      refine ⟨rfl, .stay _, nofun, rfl, fun _ => ⟨rfl, rfl, fun other => ?_⟩⟩
      have nothing : call.engages [] = false := decide_eq_false other
      rw [close]
      cases obstacle with
      | none => rfl
      | some what =>
          simp only [Call.answer, nothing]
          rfl
  | shut =>
      refine ⟨rfl, ?_, nofun, rfl, fun _ => ⟨rfl, rfl, fun other => absurd rfl other⟩⟩
      change Phase.Leads writer.phase .closed
      cases writer.phase with
      | «open» => exact .abandon
      | closing => exact .shut
      | closed => exact .stay _

/-! ## Any calls -/

/-- What the records of a run keep to. -/
structure Lifecycle (records : List Record) : Prop where
  /-- The phases come in their order, from the first. -/
  phases : (Phase.open :: records.map Record.phase).Pairwise Phase.Leads
  faithful : ∀ record ∈ records, record.Faithful
  /-- There is at most one close frame. -/
  once : records.countP Record.closes ≤ 1
  /-- No frame comes after it. -/
  last : records.Pairwise fun earlier later => earlier.closes = true → later.frame = none
  /-- A writer that is not open does nothing more. -/
  idle : records.Pairwise fun earlier later => earlier.phase ≠ .open → later.Idle

variable (writer : Writer) (attempts : List (Call × Option String))

theorem leads_performAll :
    (writer.phase :: (writer.performAll attempts).map Record.phase).Pairwise Phase.Leads := by
  induction attempts generalizing writer with
  | nil => exact List.pairwise_singleton ..
  | cons attempt attempts ih =>
      have step := writer.stepped_perform attempt.1 attempt.2
      have rest := ih (writer.perform attempt.1 attempt.2).2
      rw [← step.phase] at rest
      refine .cons (fun phase later => ?_) rest
      have first := step.leads
      rw [← step.phase] at first
      rcases List.mem_cons.mp later with rfl | later
      · exact first
      · exact first.trans (List.rel_of_pairwise_cons rest later)

theorem idle_performAll (past : writer.phase ≠ .open) {record : Record}
    (h : record ∈ writer.performAll attempts) : record.Idle := by
  induction attempts generalizing writer with
  | nil => cases h
  | cons attempt attempts ih =>
      have step := writer.stepped_perform attempt.1 attempt.2
      rcases List.mem_cons.mp h with rfl | later
      · exact step.idle past
      · exact ih _ (step.leads.ne_open past) later

theorem pairwise_idle_performAll : (writer.performAll attempts).Pairwise
    fun earlier later => earlier.phase ≠ .open → later.Idle := by
  induction attempts generalizing writer with
  | nil => exact .nil
  | cons attempt attempts ih =>
      have step := writer.stepped_perform attempt.1 attempt.2
      exact .cons (fun later h past => idle_performAll _ attempts (step.phase ▸ past) h) (ih _)

theorem exists_stepped {record : Record} (h : record ∈ writer.performAll attempts) :
    ∃ before after : Writer, before.Stepped record after := by
  induction attempts generalizing writer with
  | nil => cases h
  | cons attempt attempts ih =>
      rcases List.mem_cons.mp h with rfl | later
      · exact ⟨_, _, writer.stepped_perform attempt.1 attempt.2⟩
      · exact ih _ later

/-- After a close frame the writer is not open. -/
theorem closes_performAll {record : Record} (h : record ∈ writer.performAll attempts)
    (closes : record.closes = true) : record.phase ≠ .open := by
  obtain ⟨before, after, step⟩ := exists_stepped writer attempts h
  rw [step.phase]
  exact step.closes closes

theorem countP_closes_le {records : List Record}
    (last : records.Pairwise fun earlier later => earlier.closes = true → later.frame = none) :
    records.countP Record.closes ≤ 1 := by
  induction last with
  | nil => exact Nat.zero_le 1
  | @cons record records after _ ih =>
      by_cases closes : record.closes = true
      · have none_left : records.countP Record.closes = 0 := by
          rw [List.countP_eq_zero]
          intro later h
          rw [Record.closes, after later h closes]
          exact Bool.false_ne_true
        rw [List.countP_cons_of_pos closes]
        omega
      · rw [List.countP_cons_of_neg closes]
        exact ih

/-- Whatever is asked of a writer, and whether or not the transport fails: the
phases come in their order; one close frame is handed on at most, and no frame
after it; and once the writer is not open, messages are refused, closes
succeed, and nothing is written. -/
theorem lifecycle_performAll (frames : Frame.Writer) (deflater : Option Deflate.Deflater)
    (limits : Limits) : Lifecycle ((Writer.new frames deflater limits).performAll attempts) := by
  have idle := pairwise_idle_performAll (.new frames deflater limits) attempts
  have last : ((Writer.new frames deflater limits).performAll attempts).Pairwise
      fun earlier later => earlier.closes = true → later.frame = none :=
    idle.imp_of_mem fun mem _ past closes => (past (closes_performAll _ attempts mem closes)).frame
  exact {
    phases := leads_performAll (.new frames deflater limits) attempts
    faithful := fun record h =>
      have ⟨_, _, step⟩ := exists_stepped _ attempts h
      step.faithful
    once := countP_closes_le last
    last
    idle }

/-- A close that fails to be written counts as given out. -/
example : ((Writer.new ⟨.server, 0⟩ none {}).performAll
      [(.close none, some "pipe full"), (.send (.text "x"), none), (.close none, none),
        (.shutdown, some "pipe full")]).map (fun record => (record.answer, record.written)) =
    [(.error (.io "pipe full"), [0x88, 0]), (.error (.connectionClosed none), []), (.ok (), []),
      (.error (.io "pipe full"), [])] := by
  rfl

end Writer

end DeflateTrial.Message
