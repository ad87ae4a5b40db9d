/-
Line — the commands that a session's writing loop is given

The caller and the reading loop give commands into one line.  `entered` is the
history of the commands that entered it, each with who gave it.  In any order
of the steps:

    the caller asks for the close at most once           `countP_asksClose_le`
    the pongs of the reading loop are those of the pings
    that it decoded, each once and in their order        `pongs_entered`

and every step but those of the writing loop leaves the line as it was, with
what entered behind it (`feeds_act`).
-/
import DeflateTrial.Proofs.Session.Turns

namespace DeflateTrial.Session

variable {s next : Session}

/-! ## What enters the line -/

/-- Who gives a command. -/
inductive Origin where
  | caller
  | reader
deriving DecidableEq, Repr

/-- A command and who gave it. -/
structure Entry where
  origin : Origin
  command : Command
deriving DecidableEq, Repr

/-- What the reading loop gives for what an attempt brings, if it goes on. -/
def answers : Message.Reader.Outcome → List Entry
  | .message (.ping data) => [⟨.reader, .send (.pong data)⟩]
  | .message _ | .fault _ | .ended | .waiting => []

/-- The commands that are given at a step. -/
def offers (s : Session) : Action → List Entry
  | .read => match s.reading with
    | .running reader => answers (reader.next s.source).1
    | .leaving (command :: _) _ => [⟨.reader, command⟩]
    | .leaving [] _ | .over => []
  | .submit message => [⟨.caller, .send message⟩]
  | .requestClose | .drop =>
    if s.closeRequested then [] else [⟨.caller, .close (some ⟨.normal, ""⟩)⟩]
  | .write _ | .next _ | .arrive _ | .elapse _ => []

/-- The commands that enter the line at a step: those that are given, as long as
commands are taken. -/
def enters (s : Session) (action : Action) : List Entry :=
  if s.takesCommands then s.offers action else []

/-- The commands that enter the line, step by step. -/
def entered (s : Session) : List Action → List Entry
  | [] => []
  | action :: actions => s.enters action ++ (s.act action).entered actions

/-! ## Steps that leave the line alone -/

theorem commands_command (s : Session) (command : Command) :
    (s.command command).commands =
      s.commands ++ if s.takesCommands then [command] else [] := by
  unfold Session.command
  split <;> simp_all

/-- A step that leaves the writing loop alone, and brings nobody back to command
it. -/
structure Spares (s next : Session) : Prop where
  writing : next.writing = s.writing
  writer : next.writer = s.writer
  deadline : next.deadline = s.deadline
  sent : next.sent = s.sent
  held : s.held = false → next.held = false
  requested : s.closeRequested = true → next.closeRequested = true
  isOver : s.reading = .over → next.reading = .over

theorem Spares.trans {after : Session} (h : s.Spares next) (h' : next.Spares after) :
    s.Spares after where
  writing := h'.writing.trans h.writing
  writer := h'.writer.trans h.writer
  deadline := h'.deadline.trans h.deadline
  sent := h'.sent.trans h.sent
  held := h'.held ∘ h.held
  requested := h'.requested ∘ h.requested
  isOver := h'.isOver ∘ h.isOver

theorem spares_command (s : Session) (command : Command) : s.Spares (s.command command) := by
  unfold Session.command
  split <;> exact ⟨rfl, rfl, rfl, rfl, id, id, id⟩

theorem spares_requestClose (s : Session) : s.Spares s.requestClose := by
  unfold requestClose
  split
  · exact ⟨rfl, rfl, rfl, rfl, id, id, id⟩
  · have first : s.Spares { s with closeRequested := true } :=
      ⟨rfl, rfl, rfl, rfl, id, fun _ => rfl, id⟩
    exact first.trans (spares_command _ _)

/-- A step that leaves the writing loop alone puts what enters behind what is in
the line. -/
structure Feeds (s : Session) (action : Action) (next : Session) : Prop where
  spares : s.Spares next
  commands : next.commands = s.commands ++ (s.enters action).map Entry.command

theorem feeds_of_offer {action : Action} {origin : Origin} {command : Command}
    (offers : s.offers action = [⟨origin, command⟩])
    (commands : next.commands = s.commands ++ if s.takesCommands then [command] else [])
    (spares : s.Spares next) : s.Feeds action next := by
  refine ⟨spares, ?_⟩
  rw [commands, enters, offers]
  split <;> rfl

theorem feeds_of_quiet {action : Action} (offers : s.offers action = [])
    (commands : next.commands = s.commands) (spares : s.Spares next) : s.Feeds action next := by
  refine ⟨spares, ?_⟩
  rw [commands, enters, offers]
  split <;> exact (List.append_nil _).symm

theorem offers_of_running {reader reader' : Message.Reader} {source : Source}
    {outcome : Message.Reader.Outcome} (running : s.reading = .running reader)
    (taken : reader.next s.source = (outcome, reader', source)) :
    s.offers .read = answers outcome := by
  simp only [offers, running, taken]

theorem offers_of_waiting (waits : s.readStep = none) : s.offers .read = [] := by
  rcases waiting_of_readStep waits with isOver | ⟨reader, reader', source, running, taken⟩
  · simp only [offers, isOver]
  · rw [offers_of_running running taken, answers]

theorem feeds_reads (reads : s.Reads next) : s.Feeds .read next := by
  -- a loop that is running is not over
  have on {reader : Message.Reader} (running : s.reading = .running reader) (next : Reading) :
      s.reading = .over → next = .over := by
    rw [running]
    exact nofun
  cases reads with
  | @told reader reader' source message event running taken is =>
      refine feeds_of_quiet ?_ rfl ⟨rfl, rfl, rfl, rfl, id, id, on running _⟩
      rw [offers_of_running running taken]
      cases message <;> cases is <;> rfl
  | @answered reader reader' source data running taken =>
      refine feeds_of_offer (offers_of_running running taken)
        (commands_command { s with reading := .running reader', source } _) ?_
      have first : s.Spares { s with reading := .running reader', source } :=
        ⟨rfl, rfl, rfl, rfl, id, id, on running _⟩
      exact first.trans (spares_command _ _)
  | passed running taken =>
      exact feeds_of_quiet (offers_of_running running taken) rfl
        ⟨rfl, rfl, rfl, rfl, id, id, on running _⟩
  | @leaves reader reader' source outcome parting last running taken is =>
      refine feeds_of_quiet ?_ rfl ⟨rfl, rfl, rfl, rfl, id, id, on running _⟩
      rw [offers_of_running running taken]
      rcases farewell_cases is with ⟨status, rfl, -⟩ | ⟨fault, rfl, -⟩ | ⟨rfl, -⟩ <;> rfl
  | @gives command parting last leaving =>
      have spares := spares_command s command
      have gives : s.offers .read = [⟨.reader, command⟩] := by simp only [offers, leaving]
      refine feeds_of_offer gives (commands_command s command)
        { spares with isOver := ?_ }
      rw [leaving]
      exact nofun
  | ends leaving =>
      have nothing : s.offers .read = [] := by simp only [offers, leaving]
      exact feeds_of_quiet nothing rfl ⟨rfl, rfl, rfl, rfl, id, id, fun _ => rfl⟩

theorem feeds_requestClose {action : Action}
    (offers : s.offers action =
      if s.closeRequested then [] else [⟨.caller, .close (some ⟨.normal, ""⟩)⟩]) :
    s.Feeds action s.requestClose := by
  have spares := spares_requestClose s
  unfold requestClose at spares ⊢
  split
  · rename_i asked
    rw [if_pos asked] at offers
    rw [if_pos asked] at spares
    exact feeds_of_quiet offers rfl spares
  · rename_i unasked
    rw [if_neg unasked] at offers
    rw [if_neg unasked] at spares
    exact feeds_of_offer offers (commands_command { s with closeRequested := true } _) spares

/-- Every step but those of the writing loop leaves the line as it was, with what
enters behind it. -/
theorem feeds_act (s : Session) {action : Action} (other : ∀ obstacle, action ≠ .write obstacle) :
    s.Feeds action (s.act action) := by
  cases action with
  | read =>
      rcases s.act_read with ⟨waits, same⟩ | reads
      · rw [same]
        exact feeds_of_quiet (offers_of_waiting waits) rfl ⟨rfl, rfl, rfl, rfl, id, id, id⟩
      · exact feeds_reads reads
  | write obstacle => exact absurd rfl (other obstacle)
  | submit message =>
      have is : s.act (.submit message) = s.command (.send message) := submit_eq s message
      rw [is]
      exact feeds_of_offer rfl (commands_command s _) (spares_command s _)
  | requestClose => exact feeds_requestClose rfl
  | drop =>
      have feeds : s.Feeds .drop s.requestClose := feeds_requestClose rfl
      have spares := feeds.spares
      exact ⟨{ spares with held := fun _ => rfl }, feeds.commands⟩
  | next expected => exact feeds_of_quiet rfl rfl ⟨rfl, rfl, rfl, rfl, id, id, id⟩
  | arrive incoming => exact feeds_of_quiet rfl rfl ⟨rfl, rfl, rfl, rfl, id, id, id⟩
  | elapse milliseconds => exact feeds_of_quiet rfl rfl ⟨rfl, rfl, rfl, rfl, id, id, id⟩

/-! ## The caller's close -/

/-- Whether a command is the close that the caller asks for. -/
def Entry.asksClose : Entry → Bool
  | ⟨.caller, .close _⟩ => true
  | _ => false

theorem requested_of_writes {obstacle : Option String} (h : s.Writes obstacle next) :
    next.closeRequested = s.closeRequested := by
  cases h with
  | @ends last leaving =>
      cases last with
      | finished => rfl
      | timedOut =>
          unfold endWriting finish cutReading report
          dsimp only
          split <;> rfl
  | _ => rfl

theorem requested_act (s : Session) (action : Action) (requested : s.closeRequested = true) :
    (s.act action).closeRequested = true := by
  by_cases turn : ∃ obstacle, action = .write obstacle
  · obtain ⟨obstacle, rfl⟩ := turn
    rcases s.act_write obstacle with same | writes
    · rw [same]
      exact requested
    · exact (requested_of_writes writes).trans requested
  · exact (s.feeds_act fun obstacle is => turn ⟨obstacle, is⟩).spares.requested requested

theorem asksClose_offers (s : Session) (action : Action) :
    (s.offers action).countP Entry.asksClose = 0 ∨
      s.closeRequested = false ∧ (s.act action).closeRequested = true ∧
        (s.offers action).countP Entry.asksClose = 1 := by
  have asks (same : s.offers action =
      if s.closeRequested then [] else [⟨.caller, .close (some ⟨.normal, ""⟩)⟩])
      (after : (s.act action).closeRequested = s.requestClose.closeRequested) :
      (s.offers action).countP Entry.asksClose = 0 ∨
        s.closeRequested = false ∧ (s.act action).closeRequested = true ∧
          (s.offers action).countP Entry.asksClose = 1 := by
    rw [same, after]
    cases requested : s.closeRequested with
    | true => exact .inl rfl
    | false =>
        refine .inr ⟨rfl, ?_, rfl⟩
        unfold requestClose
        rw [requested]
        exact (spares_command { s with closeRequested := true } _).requested rfl
  cases action with
  | read =>
      refine .inl ?_
      cases reading : s.reading with
      | running reader =>
          simp only [offers, reading]
          cases (reader.next s.source).1 with
          | message message => cases message <;> rfl
          | fault _ | ended | waiting => rfl
      | leaving parting last =>
          simp only [offers, reading]
          cases parting <;> rfl
      | «over» =>
          simp only [offers, reading]
          rfl
  | requestClose => exact asks rfl rfl
  | drop => exact asks rfl rfl
  | submit | write | next | arrive | elapse => exact .inl rfl

theorem countP_asksClose_le (s : Session) (actions : List Action) :
    (s.entered actions).countP Entry.asksClose ≤ if s.closeRequested then 0 else 1 := by
  induction actions generalizing s with
  | nil => exact Nat.zero_le _
  | cons action actions ih =>
      have rest := ih (s.act action)
      have few : (s.enters action).countP Entry.asksClose ≤
          (s.offers action).countP Entry.asksClose := by
        unfold enters
        split
        · exact Nat.le_refl _
        · exact Nat.zero_le _
      rw [entered, List.countP_append]
      rcases s.asksClose_offers action with none | ⟨unasked, asked, one⟩
      · cases requested : s.closeRequested with
        | true =>
            rw [s.requested_act action requested, if_pos rfl] at rest
            rw [if_pos rfl]
            omega
        | false =>
            rw [if_neg Bool.false_ne_true]
            split at rest <;> omega
      · rw [asked, if_pos rfl] at rest
        rw [unasked, if_neg Bool.false_ne_true]
        omega

/-! ## Pings and pongs -/

/-- The data of a pong that the reading loop gives. -/
def Entry.pong? : Entry → Option Bytes
  | ⟨.reader, .send (.pong data)⟩ => some data
  | _ => none

/-- The data of a ping. -/
def ping? : Message → Option Bytes
  | .ping data => some data
  | _ => none

/-- The last commands of a reading loop send nothing. -/
def Mute (s : Session) : Prop :=
  ∀ parting last, s.reading = .leaving parting last → ∀ command ∈ parting, ∀ message,
    command ≠ .send message

theorem mute_of_reading (mute : s.Mute)
    (reading : next.reading = s.reading ∨ next.reading = .over) : next.Mute := by
  intro parting last leaving
  rcases reading with same | isOver
  · exact mute parting last (same.symm.trans leaving)
  · rw [isOver] at leaving
    cases leaving

theorem mute_reads (mute : s.Mute) (reads : s.Reads next) : next.Mute := by
  cases reads with
  | told | passed => exact nofun
  | answered =>
      intro parting last leaving
      rw [reading_command] at leaving
      cases leaving
  | @leaves _ _ _ outcome _ _ running taken is =>
      rintro _ _ ⟨⟩ command among message rfl
      rcases farewell_cases is with ⟨status, -, rfl, -⟩ | ⟨fault, -, rfl, -⟩ | ⟨-, rfl, -⟩ <;>
        simp at among
  | gives leaving =>
      rintro _ _ ⟨⟩ command among
      exact mute _ _ leaving command (List.mem_cons_of_mem _ among)
  | ends => exact nofun

theorem mute_act (mute : s.Mute) (action : Action) : (s.act action).Mute := by
  cases action with
  | read =>
      rcases s.act_read with ⟨-, same⟩ | reads
      · rw [same]
        exact mute
      · exact mute_reads mute reads
  | write obstacle =>
      rcases s.act_write obstacle with same | writes
      · rw [same]
        exact mute
      · exact mute_of_reading mute ((reading_of_writes writes).2.imp_right And.right)
  | submit message =>
      have is : s.act (.submit message) = s.command (.send message) := submit_eq s message
      rw [is]
      exact mute_of_reading mute (.inl (reading_command ..))
  | requestClose => exact mute_of_reading mute (.inl (reading_requestClose s))
  | drop => exact mute_of_reading mute (.inl (reading_requestClose s))
  | next | arrive | elapse => exact mute

theorem pongs_offers (mute : s.Mute) (action : Action) :
    (s.offers action).filterMap Entry.pong? = (s.decodes action).filterMap ping? := by
  cases action with
  | read =>
      cases reading : s.reading with
      | running reader =>
          simp only [offers, decodes, reading]
          cases (reader.next s.source).1 with
          | message message => cases message <;> rfl
          | fault _ | ended | waiting => rfl
      | leaving parting last =>
          simp only [offers, decodes, reading]
          cases parting with
          | nil => rfl
          | cons command parting =>
              have other := mute _ _ reading command List.mem_cons_self
              cases command with
              | send message => exact absurd rfl (other message)
              | close _ | shutdown => rfl
      | «over» => simp only [offers, decodes, reading, List.filterMap_nil]
  | requestClose | drop =>
      simp only [offers]
      split <;> rfl
  | submit | write | next | arrive | elapse => rfl

/-- Once a loop takes no commands, it never does. -/
theorem takesCommands_act (stopped : s.takesCommands = false) (action : Action) :
    (s.act action).takesCommands = false := by
  by_cases turn : ∃ obstacle, action = .write obstacle
  · obtain ⟨obstacle, rfl⟩ := turn
    have waits : s.writeStep obstacle = none := by
      unfold takesCommands at stopped
      unfold writeStep
      cases writing : s.writing with
      | running =>
          rw [writing] at stopped
          cases stopped
      | leaving _ =>
          rw [writing] at stopped
          cases stopped
      | «over» _ => rfl
    have same : s.act (.write obstacle) = s := by
      simp only [act, waits, Option.getD_none]
    rw [same]
    exact stopped
  · have spares := (s.feeds_act fun obstacle is => turn ⟨obstacle, is⟩).spares
    unfold takesCommands at stopped ⊢
    rw [spares.writing]
    exact stopped

theorem entered_of_stopped (stopped : s.takesCommands = false) (actions : List Action) :
    s.entered actions = [] ∧ (s.acts actions).takesCommands = false := by
  induction actions generalizing s with
  | nil => exact ⟨rfl, stopped⟩
  | cons action actions ih =>
      obtain ⟨rest, later⟩ := ih (takesCommands_act stopped action)
      refine ⟨?_, later⟩
      rw [entered, rest, enters, stopped]
      rfl

/-- The pongs of the reading loop in the line are those of the pings that it
decoded, each once and in their order: of all of them as long as commands are
taken, and otherwise of the first. -/
theorem pongs_entered (mute : s.Mute) (actions : List Action) :
    (s.entered actions).filterMap Entry.pong? <+: (s.decoded actions).filterMap ping? ∧
      ((s.acts actions).takesCommands = true →
        (s.entered actions).filterMap Entry.pong? = (s.decoded actions).filterMap ping?) := by
  induction actions generalizing s with
  | nil => exact ⟨List.prefix_rfl, fun _ => rfl⟩
  | cons action actions ih =>
      cases takes : s.takesCommands with
      | true =>
          obtain ⟨part, all⟩ := ih (mute_act mute action)
          have here : (s.enters action).filterMap Entry.pong? =
              (s.decodes action).filterMap ping? := by
            rw [enters, takes, if_pos rfl]
            exact pongs_offers mute action
          rw [entered, decoded, List.filterMap_append, List.filterMap_append, here]
          exact ⟨(List.prefix_append_right_inj _).mpr part, fun going => congrArg _ (all going)⟩
      | false =>
          obtain ⟨none, stopped⟩ := entered_of_stopped takes (action :: actions)
          rw [none, stopped]
          exact ⟨List.nil_prefix, fun takes => absurd takes Bool.false_ne_true⟩

end DeflateTrial.Session
