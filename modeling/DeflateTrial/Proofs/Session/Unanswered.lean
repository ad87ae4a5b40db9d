/-
Unanswered closes — when the peer's time is up

A close starts the peer's time to answer it.  As long as the peer neither closes
nor ends its stream no shutdown enters the line (`Unanswered`), and the writing
loop can leave in two ways only (`Lapse`):

    a message in the line     is refused, and the loop ends as finished
    no message in the line    the loop waits, and once the peer's time is up it
                              ends as timed out

Only the second cuts the reading loop off (`close_unanswered`).  The pong for a
ping that the peer sends meanwhile is such a message: then the reading loop goes
on, however long the peer takes (`close_unanswered_pinged`).
-/
import DeflateTrial.Proofs.Session.Wire

namespace DeflateTrial.Session

variable {s next : Session} {obstacle : Option String} {action : Action} {due : Nat}
  {line : List Command}

/-! ## No shutdown -/

/-- As long as commands are taken, the shutdown that ends the line is still to
come from the reading loop. -/
structure Unanswered (s : Session) : Prop where
  line : ∀ command ∈ s.commands, command ≠ .shutdown
  reading : s.takesCommands = true → s.reading ≠ .over
  parting : s.takesCommands = true → ∀ parting last, s.reading = .leaving parting last →
    .shutdown ∈ parting

theorem unanswered_of_running {reader : Message.Reader}
    (line : ∀ command ∈ s.commands, command ≠ .shutdown) (running : s.reading = .running reader) :
    s.Unanswered := by
  refine ⟨line, ?_, ?_⟩
  · intro _ isOver
    cases running.symm.trans isOver
  · intro _ parting last leaving
    cases running.symm.trans leaving

theorem unanswered_of_leaving {parting : List Command} {last : Event}
    (line : ∀ command ∈ s.commands, command ≠ .shutdown)
    (leaving : s.reading = .leaving parting last)
    (among : s.takesCommands = true → .shutdown ∈ parting) : s.Unanswered := by
  refine ⟨line, ?_, ?_⟩
  · intro _ isOver
    cases leaving.symm.trans isOver
  · intro takes parting' last' leaving'
    cases leaving.symm.trans leaving'
    exact among takes

theorem unanswered_start (halves : Plan.Halves) (patience : Nat) (source : Source) :
    (start halves patience source).Unanswered := by
  refine unanswered_of_running ?_ rfl
  intro command member
  cases member

theorem takesCommands_of_running (running : s.writing = .running) : s.takesCommands = true := by
  rw [takesCommands, running]

theorem Feeds.mem_commands (feeds : s.Feeds action next) {command : Command}
    (member : command ∈ next.commands) :
    command ∈ s.commands ∨ ∃ entry ∈ s.enters action, entry.command = command := by
  rw [feeds.commands, List.mem_append, List.mem_map] at member
  exact member

theorem Feeds.takesCommands (feeds : s.Feeds action next) :
    next.takesCommands = s.takesCommands := by
  rw [Session.takesCommands, Session.takesCommands, feeds.spares.writing]

theorem Unanswered.line_feeds (unanswered : s.Unanswered) (feeds : s.Feeds action next)
    (quiet : ∀ entry ∈ s.enters action, entry.command ≠ .shutdown) :
    ∀ command ∈ next.commands, command ≠ .shutdown := by
  intro command member
  rcases feeds.mem_commands member with before | ⟨entry, entered, rfl⟩
  · exact unanswered.line command before
  · exact quiet entry entered

theorem Unanswered.feeds (unanswered : s.Unanswered) (feeds : s.Feeds action next)
    (quiet : ∀ entry ∈ s.enters action, entry.command ≠ .shutdown)
    (same : next.reading = s.reading) : next.Unanswered := by
  refine ⟨unanswered.line_feeds feeds quiet, ?_, ?_⟩
  · intro takes
    rw [same]
    exact unanswered.reading (feeds.takesCommands ▸ takes)
  · intro takes
    rw [same]
    exact unanswered.parting (feeds.takesCommands ▸ takes)

theorem unanswered_reads (unanswered : s.Unanswered) (reads : s.Reads next)
    (quiet : ∀ entry ∈ s.enters .read, entry.command ≠ .shutdown) : next.Unanswered := by
  have feeds := feeds_reads reads
  have line := unanswered.line_feeds feeds quiet
  have takes (now : next.takesCommands = true) : s.takesCommands = true :=
    feeds.takesCommands ▸ now
  cases reads with
  | told => exact unanswered_of_running line rfl
  | answered => exact unanswered_of_running line (reading_command ..)
  | passed => exact unanswered_of_running line rfl
  | leaves running taken is =>
      refine unanswered_of_leaving line rfl ?_
      intro _
      rcases farewell_cases is with ⟨_, -, rfl, -⟩ | ⟨_, -, rfl, -⟩ | ⟨-, rfl, -⟩
      · exact List.mem_cons_of_mem _ List.mem_cons_self
      · exact List.mem_cons_of_mem _ List.mem_cons_self
      · exact List.mem_cons_self
  | @gives command parting last leaving =>
      refine unanswered_of_leaving line rfl ?_
      intro now
      have among := unanswered.parting (takes now) _ _ leaving
      rcases List.mem_cons.mp among with given | later
      · -- the shutdown itself is given, and enters the line
        have gives : s.enters .read = [⟨.reader, command⟩] := by
          rw [enters, takes now, if_pos rfl, offers, leaving]
        rw [gives] at quiet
        exact absurd given.symm (quiet _ List.mem_cons_self)
      · exact later
  | ends leaving =>
      -- it has not given the shutdown, so it cannot be at its end
      refine ⟨line, ?_, ?_⟩
      · intro now
        cases unanswered.parting (takes now) _ _ leaving
      · intro now
        cases unanswered.parting (takes now) _ _ leaving

theorem unanswered_writes (unanswered : s.Unanswered) (writes : s.Writes obstacle next) :
    next.Unanswered := by
  -- a turn takes from the line, and leaves the reading loop where it is
  have kept (running : s.writing = .running) (same : next.reading = s.reading)
      (fewer : ∀ command ∈ next.commands, command ∈ s.commands) : next.Unanswered := by
    have takes := takesCommands_of_running running
    refine ⟨?_, ?_, ?_⟩
    · intro command member
      exact unanswered.line command (fewer command member)
    · intro _
      rw [same]
      exact unanswered.reading takes
    · intro _
      rw [same]
      exact unanswered.parting takes
  have rest {command : Command} {commands : List Command}
      (first : s.commands = command :: commands) : ∀ c ∈ commands, c ∈ s.commands := by
    intro c member
    exact first ▸ List.mem_cons_of_mem _ member
  cases writes with
  | sent running first => exact kept running rfl (rest first)
  | blocked running first => exact kept running rfl (rest first)
  | settled running first => exact kept running rfl (rest first)
  | refused running first => exact kept running rfl (rest first)
  | stopped running first => exact kept running rfl (rest first)
  | deserted running => exact kept running rfl fun _ => id
  | overdue running => exact kept running rfl fun _ => id
  | @ends ending leaving =>
      have stopped : (s.endWriting ending).takesCommands ≠ true := by
        rw [takesCommands, (s.ended_endWriting ending).1]
        exact Bool.false_ne_true
      have idle : (s.endWriting ending).commands = [] := by
        cases ending with
        | finished => rfl
        | timedOut =>
            unfold endWriting finish cutReading report
            dsimp only
            split <;> rfl
      refine ⟨?_, fun takes => absurd takes stopped, fun takes => absurd takes stopped⟩
      intro command member
      rw [idle] at member
      cases member

theorem unanswered_act (unanswered : s.Unanswered)
    (quiet : ∀ entry ∈ s.enters action, entry.command ≠ .shutdown) :
    (s.act action).Unanswered := by
  cases action with
  | read =>
      rcases s.act_read with ⟨-, same⟩ | reads
      · rw [same]
        exact unanswered
      · exact unanswered_reads unanswered reads quiet
  | write obstacle =>
      rcases s.act_write obstacle with same | writes
      · rw [same]
        exact unanswered
      · exact unanswered_writes unanswered writes
  | submit message =>
      refine unanswered.feeds (s.feeds_act nofun) quiet ?_
      have is : s.act (.submit message) = s.command (.send message) := submit_eq s message
      rw [is, reading_command]
  | requestClose => exact unanswered.feeds (s.feeds_act nofun) quiet (reading_requestClose s)
  | drop => exact unanswered.feeds (s.feeds_act nofun) quiet (reading_requestClose s)
  | next _ => exact unanswered.feeds (s.feeds_act nofun) quiet rfl
  | arrive _ => exact unanswered.feeds (s.feeds_act nofun) quiet rfl
  | elapse _ => exact unanswered.feeds (s.feeds_act nofun) quiet rfl

theorem unanswered_acts {actions : List Action} (unanswered : s.Unanswered)
    (quiet : ∀ entry ∈ s.entered actions, entry.command ≠ .shutdown) :
    (s.acts actions).Unanswered := by
  induction actions generalizing s with
  | nil => exact unanswered
  | cons action actions ih =>
      rw [entered, List.forall_mem_append] at quiet
      exact ih (unanswered_act unanswered quiet.1) quiet.2

theorem Unanswered.isCommanded (unanswered : s.Unanswered) (running : s.writing = .running) :
    s.isCommanded ≠ false := by
  intro nobody
  exact unanswered.reading (takesCommands_of_running running) (left_of_not_isCommanded nobody).2

/-! ## The time -/

theorem clock_command (s : Session) (command : Command) :
    (s.command command).now = s.now ∧ (s.command command).patience = s.patience := by
  unfold Session.command
  split <;> exact ⟨rfl, rfl⟩

theorem clock_requestClose (s : Session) :
    s.requestClose.now = s.now ∧ s.requestClose.patience = s.patience := by
  unfold requestClose
  split
  · exact ⟨rfl, rfl⟩
  · exact clock_command { s with closeRequested := true } _

theorem clock_reads (reads : s.Reads next) :
    next.now = s.now ∧ next.patience = s.patience := by
  cases reads with
  | @answered reader reader' source =>
      exact clock_command { s with reading := .running reader', source } _
  | gives => exact clock_command s _
  | told | passed | leaves | ends => exact ⟨rfl, rfl⟩

theorem clock_writes (writes : s.Writes obstacle next) :
    next.now = s.now ∧ next.patience = s.patience := by
  cases writes with
  | @ends ending leaving =>
      cases ending with
      | finished => exact ⟨rfl, rfl⟩
      | timedOut =>
          unfold endWriting finish cutReading report
          dsimp only
          split <;> exact ⟨rfl, rfl⟩
  | _ => exact ⟨rfl, rfl⟩

/-- Time does not run back, and the peer's time is of one length. -/
theorem clock_act (s : Session) (action : Action) :
    s.now ≤ (s.act action).now ∧ (s.act action).patience = s.patience := by
  have still {next : Session} (clock : next.now = s.now ∧ next.patience = s.patience) :
      s.now ≤ next.now ∧ next.patience = s.patience :=
    ⟨Nat.le_of_eq clock.1.symm, clock.2⟩
  cases action with
  | read =>
      rcases s.act_read with ⟨-, same⟩ | reads
      · rw [same]
        exact still ⟨rfl, rfl⟩
      · exact still (clock_reads reads)
  | write obstacle =>
      rcases s.act_write obstacle with same | writes
      · rw [same]
        exact still ⟨rfl, rfl⟩
      · exact still (clock_writes writes)
  | submit message =>
      have is : s.act (.submit message) = s.command (.send message) := submit_eq s message
      rw [is]
      exact still (clock_command s _)
  | requestClose => exact still (clock_requestClose s)
  | drop => exact still (clock_requestClose s)
  | next | arrive => exact still ⟨rfl, rfl⟩
  | elapse milliseconds => exact ⟨Nat.le_add_right _ _, rfl⟩

theorem clock_acts (s : Session) (actions : List Action) :
    s.now ≤ (s.acts actions).now ∧ (s.acts actions).patience = s.patience := by
  induction actions generalizing s with
  | nil => exact ⟨Nat.le_refl _, rfl⟩
  | cons action actions ih =>
      obtain ⟨later, same⟩ := s.clock_act action
      obtain ⟨later', same'⟩ := ih (s.act action)
      exact ⟨Nat.le_trans later later', same'.trans same⟩

/-! ## A cut reading loop -/

def Reading.isRunning : Reading → Bool
  | .running _ => true
  | .leaving .. | .over => false

theorem isRunning_act (stopped : s.reading.isRunning = false) (action : Action) :
    (s.act action).reading.isRunning = false := by
  have on {reader : Message.Reader} (running : s.reading = .running reader) : False := by
    rw [running] at stopped
    cases stopped
  cases action with
  | read =>
      rcases s.act_read with ⟨-, same⟩ | reads
      · rw [same]
        exact stopped
      · generalize s.act .read = next at reads ⊢
        cases reads with
        | told running => exact (on running).elim
        | answered running => exact (on running).elim
        | passed running => exact (on running).elim
        | leaves | gives | ends => rfl
  | write obstacle =>
      rcases s.act_write obstacle with same | writes
      · rw [same]
        exact stopped
      · rcases (reading_of_writes writes).2 with same | ⟨-, isOver⟩
        · rw [same]
          exact stopped
        · rw [isOver]
          rfl
  | submit message =>
      have is : s.act (.submit message) = s.command (.send message) := submit_eq s message
      rw [is, reading_command]
      exact stopped
  | requestClose => exact (reading_requestClose s).symm ▸ stopped
  | drop =>
      change s.requestClose.reading.isRunning = false
      rw [reading_requestClose]
      exact stopped
  | next | arrive | elapse => exact stopped

theorem isRunning_endWriting (s : Session) :
    (s.endWriting .timedOut).reading.isRunning = false := by
  unfold endWriting finish cutReading report
  dsimp only
  split
  · rfl
  · rename_i other
    cases reading : s.reading with
    | running reader => exact absurd reading (other reader)
    | leaving | «over» => rfl

/-! ## Waiting for the answer -/

/-- Whether a command asks for a message other than a close. -/
def Command.speaks : Command → Bool
  | .send (.close _) | .close _ | .shutdown => false
  | .send _ => true

/-- The loop has taken a close from the line, and the peer's time runs. -/
structure Awaits (due : Nat) (s : Session) : Prop where
  running : s.writing = .running
  limit : s.deadline = some due
  past : s.writer.phase ≠ .open

theorem speaks_of_refused {writer writer' : Message.Writer} {message : Message} {fault : Fault}
    (refused : writer.send message = (.error fault, writer')) :
    (Command.send message).speaks = true := by
  cases message with
  | close status => cases refused
  | text | binary | ping | pong => rfl

theorem not_speaks_of_close {command : Command} {status : Option CloseFrame}
    (is : command.message? = some (.close status)) : command.speaks = false := by
  cases command with
  | send message =>
      cases is
      rfl
  | close status => rfl
  | shutdown => cases is

theorem deadlineAfter_of_some (limit : s.deadline = some due) (command : Command) :
    s.deadlineAfter command = some due := by
  cases command <;> simp [deadlineAfter, limit]

/-- What a turn comes to while the loop waits. -/
inductive Awaited (due : Nat) (s : Session) : Session → Prop where
  /-- A close is not needed any more. -/
  | settled {command : Command} {commands : List Command} (first : s.commands = command :: commands)
      (silent : command.speaks = false) :
      Awaited due s { s with commands, deadline := some due }
  /-- A message is refused. -/
  | refused {command : Command} {commands : List Command} {fault : Fault}
      (first : s.commands = command :: commands) (speaks : command.speaks = true) :
      Awaited due s ({ s with commands }.failWriting fault)
  /-- The peer's time is up. -/
  | overdue (idle : s.commands = []) (late : due ≤ s.now) :
      Awaited due s { s with writing := .leaving .timedOut }

theorem Awaits.awaited (awaits : s.Awaits due) (unanswered : s.Unanswered)
    (writes : s.Writes obstacle next) : s.Awaited due next := by
  cases writes with
  | sent _ _ _ gives => exact absurd gives.kept.1 awaits.past
  | blocked _ _ _ gives => exact absurd gives.kept.1 awaits.past
  | settled _ first is =>
      rw [deadlineAfter_of_some awaits.limit]
      exact .settled first (not_speaks_of_close is)
  | refused _ first refused => exact .refused first (speaks_of_refused refused)
  | stopped _ first =>
      exact absurd rfl (unanswered.line .shutdown (first ▸ List.mem_cons_self))
  | deserted running _ nobody => exact absurd nobody (unanswered.isCommanded running)
  | overdue _ idle late =>
      rw [isOverdue, awaits.limit] at late
      exact .overdue idle (of_decide_eq_true late)
  | ends leaving => cases awaits.running.symm.trans leaving

theorem Awaits.of_awaited_settled {commands : List Command} (awaits : s.Awaits due) :
    Awaits due { s with commands, deadline := some due } :=
  ⟨awaits.running, rfl, awaits.past⟩

theorem awaits_of_close {status : Option CloseFrame} {commands : List Command}
    (writes : s.Writes none next) (running : s.writing = .running)
    (first : s.commands = .close status :: commands) (undue : s.deadline = none) :
    next.Awaits (s.now + s.patience) ∧ next.commands = commands := by
  have limit : s.deadlineAfter (.close status) = some (s.now + s.patience) := by
    rw [deadlineAfter, undue]
    rfl
  cases writes with
  | sent _ first' is gives =>
      cases first.symm.trans first'
      cases is
      refine ⟨⟨running, limit, ?_⟩, rfl⟩
      rw [gives.kept.2.phase]
      exact nofun
  | blocked _ _ _ _ blocked => cases blocked
  | settled _ first' _ past =>
      cases first.symm.trans first'
      exact ⟨⟨running, limit, past⟩, rfl⟩
  | refused _ first' => cases first.symm.trans first'
  | stopped _ first' => cases first.symm.trans first'
  | deserted _ idle => cases first.symm.trans idle
  | overdue _ idle => cases first.symm.trans idle
  | ends leaving => cases running.symm.trans leaving

/-! ## How it ends -/

/-- How a session stands whose close the peer does not answer: `line` is what has
been in the line behind the close. -/
inductive Lapse (due : Nat) (line : List Command) (s : Session) : Prop where
  | awaiting (awaits : s.Awaits due) (among : ∀ command ∈ s.commands, command ∈ line)
  /-- A message was refused. -/
  | refused (stopped : s.writing = .leaving .finished ∨ s.writing = .over .finished)
      (spoken : ∃ command ∈ line, command.speaks = true)
  /-- The peer's time was up. -/
  | timedOut (late : due ≤ s.now)
      (stopped : s.writing = .leaving .timedOut ∨
        s.writing = .over .timedOut ∧ s.reading.isRunning = false)

theorem Lapse.ne_finished (lapse : Lapse due line s)
    (silent : line.any Command.speaks = false) :
    s.writing ≠ .leaving .finished ∧ s.writing ≠ .over .finished := by
  cases lapse with
  | awaiting awaits =>
      rw [awaits.running]
      exact ⟨nofun, nofun⟩
  | refused _ spoken =>
      obtain ⟨command, member, speaks⟩ := spoken
      rw [List.any_eq_false] at silent
      exact absurd speaks (silent command member)
  | timedOut _ stopped =>
      rcases stopped with leaving | ⟨isOver, -⟩
      · rw [leaving]
        exact ⟨nofun, nofun⟩
      · rw [isOver]
        exact ⟨nofun, nofun⟩

theorem Lapse.awaits (lapse : Lapse due line s) (running : s.writing = .running) :
    s.Awaits due := by
  cases lapse with
  | awaiting awaits => exact awaits
  | refused stopped =>
      rcases stopped with leaving | isOver
      · cases running.symm.trans leaving
      · cases running.symm.trans isOver
  | timedOut _ stopped =>
      rcases stopped with leaving | ⟨isOver, -⟩
      · cases running.symm.trans leaving
      · cases running.symm.trans isOver

theorem eq_endWriting_of_writes {ending : Ending} (leaving : s.writing = .leaving ending)
    (writes : s.Writes obstacle next) : next = s.endWriting ending := by
  cases writes with
  | ends leaving' =>
      cases leaving.symm.trans leaving'
      rfl
  | sent running | blocked running | settled running | refused running | stopped running
  | deserted running | overdue running => cases leaving.symm.trans running

theorem not_writes_of_over {ending : Ending} (isOver : s.writing = .over ending) :
    ¬ s.Writes obstacle next := by
  intro writes
  cases writes with
  | ends leaving => cases isOver.symm.trans leaving
  | sent running | blocked running | settled running | refused running | stopped running
  | deserted running | overdue running => cases isOver.symm.trans running

theorem lapse_writes (lapse : Lapse due line s) (unanswered : s.Unanswered)
    (writes : s.Writes obstacle next) : Lapse due line next := by
  cases lapse with
  | awaiting awaits among =>
      cases awaits.awaited unanswered writes with
      | settled first =>
          refine .awaiting awaits.of_awaited_settled ?_
          intro command member
          exact among command (first ▸ List.mem_cons_of_mem _ member)
      | refused first speaks =>
          exact .refused (.inl rfl) ⟨_, among _ (first ▸ List.mem_cons_self), speaks⟩
      | overdue _ late => exact .timedOut late (.inl rfl)
  | refused stopped spoken =>
      rcases stopped with leaving | isOver
      · cases eq_endWriting_of_writes leaving writes
        exact .refused (.inr (s.ended_endWriting .finished).1) spoken
      · exact absurd writes (not_writes_of_over isOver)
  | timedOut late stopped =>
      rcases stopped with leaving | ⟨isOver, -⟩
      · rw [← (clock_writes writes).1] at late
        cases eq_endWriting_of_writes leaving writes
        exact .timedOut late
          (.inr ⟨(s.ended_endWriting .timedOut).1, s.isRunning_endWriting⟩)
      · exact absurd writes (not_writes_of_over isOver)

theorem lapse_feeds (lapse : Lapse due line s) (feeds : s.Feeds action (s.act action)) :
    Lapse due (line ++ (s.enters action).map Entry.command) (s.act action) := by
  have spares := feeds.spares
  cases lapse with
  | awaiting awaits among =>
      refine .awaiting ⟨?_, ?_, ?_⟩ ?_
      · exact spares.writing.trans awaits.running
      · exact spares.deadline.trans awaits.limit
      · rw [spares.writer]
        exact awaits.past
      · intro command member
        rw [feeds.commands, List.mem_append] at member
        exact List.mem_append.mpr (member.imp_left (among command))
  | refused stopped spoken =>
      obtain ⟨command, member, speaks⟩ := spoken
      rw [← spares.writing] at stopped
      exact .refused stopped ⟨command, List.mem_append_left _ member, speaks⟩
  | timedOut late stopped =>
      refine .timedOut (Nat.le_trans late (s.clock_act action).1) ?_
      rw [spares.writing]
      exact stopped.imp_right fun ⟨isOver, cut⟩ => ⟨isOver, isRunning_act cut action⟩

theorem enters_write (s : Session) (obstacle : Option String) :
    s.enters (.write obstacle) = [] := by
  unfold enters
  split <;> rfl

theorem lapse_act (lapse : Lapse due line s) (unanswered : s.Unanswered) (action : Action) :
    Lapse due (line ++ (s.enters action).map Entry.command) (s.act action) := by
  by_cases turn : ∃ obstacle, action = .write obstacle
  · obtain ⟨obstacle, rfl⟩ := turn
    rw [enters_write, List.map_nil, List.append_nil]
    rcases s.act_write obstacle with same | writes
    · rw [same]
      exact lapse
    · exact lapse_writes lapse unanswered writes
  · exact lapse_feeds lapse (s.feeds_act fun obstacle is => turn ⟨obstacle, is⟩)

theorem lapse_acts {actions : List Action} (lapse : Lapse due line s)
    (unanswered : s.Unanswered)
    (quiet : ∀ entry ∈ s.entered actions, entry.command ≠ .shutdown) :
    Lapse due (line ++ (s.entered actions).map Entry.command) (s.acts actions) := by
  induction actions generalizing s line with
  | nil =>
      rw [entered, List.map_nil, List.append_nil]
      exact lapse
  | cons action actions ih =>
      rw [entered, List.forall_mem_append] at quiet
      rw [entered, List.map_append, ← List.append_assoc]
      exact ih (lapse_act lapse unanswered action) (unanswered_act unanswered quiet.1) quiet.2

theorem writeOn_of_leaving {ending : Ending} (leaving : s.writing = .leaving ending) :
    s.writeOn = s.endWriting ending := by
  have stepped : s.writeStep none = some (s.endWriting ending) := by
    rw [writeStep, leaving]
  have waits : (s.endWriting ending).writeStep none = none := by
    rw [writeStep, (s.ended_endWriting ending).1]
  rw [writeOn_of_writeStep stepped, writeOn_of_waits waits]

/-- The turns that a waiting loop can still take: a message in the line ends it at
once, and nothing else does before the peer's time is up. -/
theorem writeOn_of_awaits (awaits : s.Awaits due) (unanswered : s.Unanswered) :
    if s.commands.any Command.speaks then
      s.writeOn.writing = .over .finished ∧ s.writeOn.reading = s.reading
    else if due ≤ s.now then
      s.writeOn.writing = .over .timedOut ∧ s.writeOn.reading.isRunning = false
    else s.writeOn.writing = .running := by
  induction s using writeOn.induct with
  | case1 s next stepped ih =>
      rw [writeOn_of_writeStep stepped]
      have writes := writes_of_writeStep stepped
      have unanswered' := unanswered_writes unanswered writes
      cases awaits.awaited unanswered writes with
      | settled first silent =>
          rw [first, List.any_cons, silent, Bool.false_or]
          exact ih awaits.of_awaited_settled unanswered'
      | refused first speaks =>
          rw [first, List.any_cons, speaks, Bool.true_or, if_pos rfl, writeOn_of_leaving rfl]
          exact ⟨(ended_endWriting _ _).1, rfl⟩
      | overdue idle late =>
          rw [idle, List.any_nil, if_neg Bool.false_ne_true, if_pos late, writeOn_of_leaving rfl]
          exact ⟨(ended_endWriting _ _).1, isRunning_endWriting _⟩
  | case2 s waits =>
      rw [writeOn_of_waits waits]
      unfold writeStep at waits
      rw [awaits.running] at waits
      dsimp only at waits
      split at waits
      · cases waits
      · rename_i idle
        have early : ¬ due ≤ s.now := by
          intro late
          have isOverdue : s.isOverdue = true := by
            rw [Session.isOverdue, awaits.limit]
            exact decide_eq_true late
          rw [isOverdue] at waits
          split at waits <;> cases waits
        rw [idle, List.any_nil, if_neg Bool.false_ne_true, if_neg early]
        exact awaits.running

/-! ## Any steps -/

theorem entered_append (s : Session) (actions more : List Action) :
    s.entered (actions ++ more) = s.entered actions ++ (s.acts actions).entered more := by
  induction actions generalizing s with
  | nil => rfl
  | cons action actions ih =>
      rw [List.cons_append, entered, ih, entered, List.append_assoc]
      rfl

/-- What comes of a close that the peer does not answer, in any order of the
steps: the writing loop takes the first close from the line, at `s.now`, the
network has nothing against its frame, and no shutdown enters the line before or
behind it.

* Behind the close the loop waits, or it has refused a message of the line, or it
  has ended as timed out, not before the peer's time was up.
* Where no message has entered the line it never ends as finished.
* With the turns that it can still take, a loop that waits ends as finished if a
  message stands in the line, whatever the time, and leaves the reading loop as it
  is.  If none does it ends as timed out once the peer's time is up, and cuts the
  reading loop off, and does not end before. -/
theorem close_unanswered (halves : Plan.Halves) (patience : Nat) (source : Source)
    (before later : List Action) (status : Option CloseFrame) (rest : List Command)
    (running : ((start halves patience source).acts before).writing = .running)
    (first : ((start halves patience source).acts before).commands = .close status :: rest)
    (undue : ((start halves patience source).acts before).deadline = none)
    (quiet : ∀ entry ∈ (start halves patience source).entered (before ++ .write none :: later),
      entry.command ≠ .shutdown) :
    let s := (start halves patience source).acts before
    let last := s.acts (.write none :: later)
    let due := s.now + patience
    let line := rest ++ ((s.act (.write none)).entered later).map Entry.command
    Lapse due line last ∧
      (line.any Command.speaks = false →
        last.writing ≠ .leaving .finished ∧ last.writing ≠ .over .finished) ∧
      (last.writing = .running →
        (last.commands.any Command.speaks = true →
          last.writeOn.writing = .over .finished ∧ last.writeOn.reading = last.reading) ∧
        (last.commands.any Command.speaks = false →
          (due ≤ last.now → last.writeOn.writing = .over .timedOut ∧
            last.writeOn.reading.isRunning = false) ∧
          (last.now < due → last.writeOn.writing = .running))) := by
  intro s last due line
  rw [entered_append, List.forall_mem_append] at quiet
  obtain ⟨quietBefore, quiet⟩ := quiet
  have unanswered : s.Unanswered :=
    unanswered_acts (unanswered_start halves patience source) quietBefore
  change ∀ entry ∈ s.entered (.write none :: later), _ at quiet
  rw [entered, enters_write, List.nil_append] at quiet
  -- the turn that takes the close
  have stepped : s.writeStep none = some (s.act (.write none)) := by
    simp only [act, writeStep, show s.writing = .running from running,
      show s.commands = .close status :: rest from first, Option.getD_some]
  have writes := writes_of_writeStep stepped
  obtain ⟨awaits, commands⟩ := awaits_of_close writes running first undue
  have patient : s.patience = patience := (clock_acts _ before).2
  rw [patient] at awaits
  have unanswered' := unanswered_writes unanswered writes
  have taken : Lapse due rest (s.act (.write none)) :=
    .awaiting awaits fun command member => commands ▸ member
  -- and the steps behind it
  have lapse : Lapse due line last := lapse_acts taken unanswered' quiet
  have unansweredLast : last.Unanswered :=
    unanswered_acts (s := s.act (.write none)) unanswered' quiet
  refine ⟨lapse, lapse.ne_finished, ?_⟩
  intro runs
  have outcome := writeOn_of_awaits (lapse.awaits runs) unansweredLast
  refine ⟨?_, ?_⟩
  · intro spoken
    rwa [if_pos spoken] at outcome
  · intro silent
    rw [if_neg (Bool.eq_false_iff.mp silent)] at outcome
    refine ⟨?_, ?_⟩
    · intro late
      rwa [if_pos late] at outcome
    · intro early
      rwa [if_neg (Nat.not_le.mpr early)] at outcome

/-- The caller asks for the close and the peer says nothing: the loop waits for
five seconds, and then ends as timed out. -/
theorem close_unanswered_silent :
    let halves : Plan.Halves := ⟨.new (.new .client {} []) none, .new ⟨.client, 0⟩ none {}⟩
    let s := (start halves 5000 .silent).acts [.requestClose]
    let last := s.acts [.write none, .elapse 5000]
    s.writing = .running ∧ s.commands = [.close (some ⟨.normal, ""⟩)] ∧ s.deadline = none ∧
      last.writeOn.writing = .over .timedOut ∧ last.writeOn.reading.isRunning = false := by
  intro halves s last
  have quiet : ∀ entry ∈ (start halves 5000 .silent).entered
      ([.requestClose] ++ .write none :: [.elapse 5000]), entry.command ≠ .shutdown := by
    decide +kernel
  obtain ⟨-, -, rests⟩ := close_unanswered halves 5000 .silent [.requestClose] [.elapse 5000]
    (some ⟨.normal, ""⟩) [] rfl rfl rfl quiet
  exact ⟨rfl, rfl, rfl, ((rests (by decide +kernel)).2 (by decide +kernel)).1 (by decide +kernel)⟩

/-- The peer pings instead of answering: its pong is refused, the loop ends as
finished and the reading loop still runs when the time is long up. -/
theorem close_unanswered_pinged :
    let halves : Plan.Halves := ⟨.new (.new .client {} []) none, .new ⟨.client, 0⟩ none {}⟩
    let s := start halves 5000 .silent
    let actions : List Action := [.requestClose, .write none, .arrive (.bytes [0x89, 0]), .read,
      .write none, .write none, .elapse 60000]
    (∀ entry ∈ s.entered actions, entry.command ≠ .shutdown) ∧
      (s.acts actions).deadline = some 5000 ∧ (s.acts actions).now = 60000 ∧
      (s.acts actions).writing = .over .finished ∧
      (s.acts actions).reading.isRunning = true := by
  decide +kernel

end DeflateTrial.Session
