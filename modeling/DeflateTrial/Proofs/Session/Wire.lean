/-
Wire order — what a session writes

The writing loop carries out the commands of the line.  Which of them it
carries out, and what it writes for them, is a matter of their order in the
line alone (`carry`): each of them up to the first close, and none from the
first shutdown on, or from the first message on that the writer refuses.

In any order of the steps, what was written is what is carried out of the
commands that were taken from the line, and the rest of them is still in the
line (`Wired`).  Once the loop has stopped, nothing that entered the line would
have been carried out besides.  With what is known of the line that makes the
order of what a session writes (`wire_order`).
-/
import DeflateTrial.Proofs.Session.Line

namespace DeflateTrial.Session

open Message (Sent given given_append)

variable {s next : Session}

/-! ## Carrying out commands -/

/-- The commands that are carried out of those in a line, and the writer then if
it goes on: each up to the first close, but not the first shutdown or the first
message that is refused. -/
def carry (writer : Message.Writer) : List Entry → List Entry × Option Message.Writer
  | [] => ([], some writer)
  | entry :: entries =>
    match entry.command with
    | .shutdown => ([], none)
    | .close _ => ([entry], none)
    | .send message =>
      match writer.send message with
      | (.error _, _) => ([], none)
      | (.ok _, after) =>
        if message.opcode = .close then ([entry], none)
        else
          let (carried, last) := carry after entries
          (entry :: carried, last)

/-- The messages that commands ask to be sent. -/
def asked (entries : List Entry) : List Message :=
  entries.filterMap fun entry => entry.command.message?

theorem asked_append (entries more : List Entry) :
    asked (entries ++ more) = asked entries ++ asked more :=
  List.filterMap_append

theorem asked_singleton {entry : Entry} {message : Message}
    (is : entry.command.message? = some message) : asked [entry] = [message] := by
  simp only [asked, List.filterMap_cons, is, List.filterMap_nil]

/-- What is carried out is a beginning of the line. -/
theorem carry_prefix (writer : Message.Writer) (entries : List Entry) :
    (carry writer entries).1 <+: entries := by
  induction entries generalizing writer with
  | nil => exact List.prefix_rfl
  | cons entry entries ih =>
      rw [carry]
      split
      · exact List.nil_prefix
      · exact List.prefix_append [entry] entries
      · split
        · exact List.nil_prefix
        · split
          · exact List.prefix_append [entry] entries
          · exact List.prefix_cons_inj entry |>.mpr (ih _)

/-- What is carried out of a longer line: the same, if that has come to an end,
and otherwise what is carried out of the rest besides. -/
theorem carry_append (writer : Message.Writer) (entries more : List Entry) :
    carry writer (entries ++ more) = match (carry writer entries).2 with
      | none => carry writer entries
      | some after => ((carry writer entries).1 ++ (carry after more).1, (carry after more).2) := by
  induction entries generalizing writer with
  | nil => rfl
  | cons entry entries ih =>
      rw [List.cons_append, carry, carry]
      split
      · rfl
      · rfl
      · split
        · rfl
        · split
          · rfl
          · rename_i after _ _
            simp only [ih after]
            cases rest : (carry after entries).2 with
            | none => simp only [rest]
            | some last => rfl

theorem carry_append_of_none {writer : Message.Writer} {entries : List Entry}
    (h : (carry writer entries).2 = none) (more : List Entry) :
    carry writer (entries ++ more) = carry writer entries := by
  rw [carry_append, h]

theorem carry_append_of_some {writer after : Message.Writer} {entries : List Entry}
    (h : (carry writer entries).2 = some after) (more : List Entry) :
    carry writer (entries ++ more) =
      ((carry writer entries).1 ++ (carry after more).1, (carry after more).2) := by
  rw [carry_append, h]

theorem carry_of_gives {writer after : Message.Writer} {entry : Entry} {message : Message}
    {frame : Frame} {mask : Option Mask} (is : entry.command.message? = some message)
    (gives : writer.Gives message frame mask after) :
    carry writer [entry] =
      ([entry], if message.opcode = .close then none else some after) := by
  obtain ⟨origin, command⟩ := entry
  cases command with
  | send message' =>
      cases is
      simp only [carry, gives.sent]
      split <;> rfl
  | close status =>
      cases is
      rfl
  | shutdown => cases is

theorem carry_of_stops {writer : Message.Writer} {entry : Entry}
    (stops : entry.command = .shutdown ∨
      ∃ message fault, entry.command = .send message ∧
        writer.send message = (.error fault, writer)) :
    carry writer [entry] = ([], none) := by
  rcases stops with shutdown | ⟨message, fault, send, refused⟩
  · simp only [carry, shutdown]
  · simp only [carry, send, refused]

/-- The writer after commands, if the loop goes on after them: none of them is a
shutdown, and no message is refused. -/
def outlasts (writer : Message.Writer) : List Entry → Option Message.Writer
  | [] => some writer
  | entry :: entries =>
    match entry.command.message? with
    | none => none
    | some message =>
      match writer.send message with
      | (.error _, _) => none
      | (.ok _, after) => outlasts after entries

theorem outlasts_snoc {writer last after : Message.Writer} {entries : List Entry} {entry : Entry}
    {message : Message} {bytes : Bytes} (h : outlasts writer entries = some last)
    (is : entry.command.message? = some message) (sent : last.send message = (.ok bytes, after)) :
    outlasts writer (entries ++ [entry]) = some after := by
  induction entries generalizing writer with
  | nil =>
      cases h
      simp only [List.nil_append, outlasts, is, sent]
  | cons entry' entries ih =>
      rw [outlasts] at h
      rw [List.cons_append, outlasts]
      split at h
      · cases h
      · split at h
        · cases h
        · exact ih h

/-! ## The writing loop -/

/-- The end of the direction, if the writing loop has shut it down. -/
def ending (s : Session) : List Outgoing :=
  match s.writing with
  | .running | .leaving _ => []
  | .over _ => [.fin]

theorem ending_of_running (running : s.writing = .running) : s.ending = [] := by
  rw [ending, running]

theorem ending_of_leaving {last : Ending} (leaving : s.writing = .leaving last) :
    s.ending = [] := by
  rw [ending, leaving]

theorem ending_of_over {last : Ending} (isOver : s.writing = .over last) :
    s.ending = [.fin] := by
  rw [ending, isOver]

theorem ne_running_of_leaving {last : Ending} (leaving : s.writing = .leaving last) :
    s.writing ≠ .running := by
  intro running
  rw [leaving] at running
  cases running

theorem ne_running_of_over {last : Ending} (isOver : s.writing = .over last) :
    s.writing ≠ .running := by
  intro running
  rw [isOver] at running
  cases running

/-- How the writing loop stands to the commands that were taken from the line. -/
inductive Standing (first : Message.Writer) (s : Session) (entries done : List Entry)
    (frames : Sent) : Prop where
  /-- It carries out what is asked. -/
  | going (running : s.writing = .running) (on : (carry first done).2 = some s.writer)
      (sends : first.Sends (asked (carry first done).1) frames s.writer)
      (phase : s.writer.phase = .open) (undue : s.deadline = none)
  /-- It has carried out its last. -/
  | ceased {after : Message.Writer} (last : (carry first done).2 = none)
      (sends : first.Sends (asked (carry first done).1) frames after)
      (past : s.writing = .running → s.writer.phase ≠ .open)
  /-- It has carried out everything, and nobody is left to command it. -/
  | deserted {after : Message.Writer} (stopped : s.writing ≠ .running) (all : entries = done)
      (sends : first.Sends (asked (carry first done).1) frames after) (left : s.held = false)
      (isOver : s.reading = .over)

/-- What was written is what is carried out of the commands that were taken from
the line; the others are still in it. -/
structure Wired (first : Message.Writer) (s : Session) (entries done rest : List Entry)
    (frames : Sent) : Prop where
  order : entries = done ++ rest
  waiting : s.takesCommands = true → rest.map Entry.command = s.commands
  sent : s.sent = given frames ++ s.ending
  standing : Standing first s entries done frames
  outlasted : s.writing = .running → outlasts first done = some s.writer

variable {first : Message.Writer} {entries done rest : List Entry} {frames : Sent}

/-- The commands that are carried out are no more than those of the whole line,
once the loop has stopped. -/
theorem Standing.carry_all (standing : Standing first s entries done frames)
    (order : entries = done ++ rest) (stopped : s.writing ≠ .running) :
    (carry first entries).1 = (carry first done).1 := by
  cases standing with
  | going running => exact absurd running stopped
  | ceased last => rw [order, carry_append_of_none last]
  | deserted _ all => rw [all]

theorem Standing.sends (standing : Standing first s entries done frames) :
    ∃ after, first.Sends (asked (carry first done).1) frames after := by
  cases standing with
  | going _ _ sends => exact ⟨_, sends⟩
  | ceased _ sends => exact ⟨_, sends⟩
  | deserted _ _ sends => exact ⟨_, sends⟩

theorem Wired.unended (wired : Wired first s entries done rest frames)
    (on : s.ending = []) : s.sent = given frames := by
  rw [wired.sent, on, List.append_nil]

theorem Wired.line (wired : Wired first s entries done rest frames)
    (running : s.writing = .running) : rest.map Entry.command = s.commands :=
  wired.waiting (by rw [takesCommands, running])

theorem Wired.next_entry {command : Command} {commands : List Command}
    (wired : Wired first s entries done rest frames) (running : s.writing = .running)
    (waits : s.commands = command :: commands) :
    ∃ entry later, rest = entry :: later ∧ entry.command = command ∧
      later.map Entry.command = commands := by
  have line := wired.line running
  rw [waits] at line
  cases rest with
  | nil => cases line
  | cons entry later =>
      obtain ⟨is, rest⟩ := List.cons.inj line
      exact ⟨entry, later, rfl, is, rest⟩

theorem Standing.sent {entry : Entry} {message : Message} {frame : Frame} {mask : Option Mask}
    (standing : Standing first s entries done frames) (running : s.writing = .running)
    (is : entry.command.message? = some message)
    (gives : s.writer.Gives message frame mask next.writer) (goes_on : next.writing = .running)
    (due : next.deadline = s.deadlineAfter entry.command) :
    Standing first next entries (done ++ [entry]) (frames ++ [(frame, mask)]) := by
  obtain ⟨phase, kept⟩ := gives.kept
  cases standing with
  | going _ on sends _ undue =>
      have carried := carry_append_of_some on [entry]
      rw [carry_of_gives is gives] at carried
      have sends' : first.Sends (asked (carry first (done ++ [entry])).1)
          (frames ++ [(frame, mask)]) next.writer := by
        rw [carried, asked_append, asked_singleton is]
        exact sends.snoc gives
      by_cases close : message.opcode = .close
      · refine .ceased (by rw [carried, if_pos close]) sends' fun _ => ?_
        rw [kept.phase, if_pos close]
        exact nofun
      · refine .going goes_on (by rw [carried, if_neg close]) sends' ?_ ?_
        · rw [kept.phase, if_neg close]
        · rw [due]
          obtain ⟨origin, command⟩ := entry
          cases command with
          | send _ => exact undue
          | close status =>
              cases is
              exact absurd rfl close
          | shutdown => cases is
  | ceased _ _ past => exact absurd phase (past running)
  | deserted stopped => exact absurd running stopped

theorem Standing.stopped {entry : Entry} (standing : Standing first s entries done frames)
    (running : s.writing = .running) (stops : carry s.writer [entry] = ([], none))
    (ends : next.writing ≠ .running) :
    Standing first next entries (done ++ [entry]) frames := by
  cases standing with
  | going _ on sends =>
      have carried := carry_append_of_some on [entry]
      rw [stops, List.append_nil] at carried
      exact .ceased (by rw [carried]) (by rw [carried]; exact sends)
        fun goes_on => absurd goes_on ends
  | ceased last sends =>
      have carried := carry_append_of_none last [entry]
      exact .ceased (by rw [carried, last]) (by rw [carried]; exact sends)
        fun goes_on => absurd goes_on ends
  | deserted stopped => exact absurd running stopped

theorem Standing.settled {entry : Entry} (standing : Standing first s entries done frames)
    (running : s.writing = .running) (past : s.writer.phase ≠ .open)
    (writer : next.writer = s.writer) :
    Standing first next entries (done ++ [entry]) frames := by
  cases standing with
  | going _ _ _ phase => exact absurd phase past
  | ceased last sends =>
      have carried := carry_append_of_none last [entry]
      exact .ceased (by rw [carried, last]) (by rw [carried]; exact sends) fun _ => writer ▸ past
  | deserted stopped => exact absurd running stopped

theorem Standing.left (standing : Standing first s entries done frames)
    (ends : next.writing ≠ .running)
    (reason : s.writing = .running → s.deadline = none →
      entries = done ∧ next.held = false ∧ next.reading = .over)
    (held : s.held = false → next.held = false)
    (reading : s.reading = .over → next.reading = .over) :
    Standing first next entries done frames := by
  cases standing with
  | going running _ sends _ undue =>
      obtain ⟨all, nobody, isOver⟩ := reason running undue
      exact .deserted ends all sends nobody isOver
  | ceased last sends => exact .ceased last sends fun goes_on => absurd goes_on ends
  | deserted _ all sends nobody isOver =>
      exact .deserted ends all sends (held nobody) (reading isOver)

theorem ended_endWriting (s : Session) (last : Ending) :
    (s.endWriting last).writing = .over last ∧ (s.endWriting last).held = s.held ∧
      (s.endWriting last).sent = s.sent ++ [.fin] := by
  cases last with
  | finished => exact ⟨rfl, rfl, rfl⟩
  | timedOut =>
      unfold endWriting finish cutReading report
      dsimp only
      split <;> exact ⟨rfl, rfl, rfl⟩

/-- A line that nobody commands: the caller has given the session up, and the
reading loop is over. -/
theorem left_of_not_isCommanded (nobody : s.isCommanded = false) :
    s.held = false ∧ s.reading = .over := by
  obtain ⟨held, reading⟩ := (Bool.or_eq_false_iff ..).mp nobody
  refine ⟨held, ?_⟩
  cases stage : s.reading with
  | «over» => rfl
  | running _ | leaving _ _ =>
      rw [stage] at reading
      cases reading

theorem Wired.stops {command : Command} {commands : List Command}
    (wired : Wired first s entries done rest frames) (running : s.writing = .running)
    (waits : s.commands = command :: commands) (ends : next.writing = .leaving .finished)
    (line : next.commands = commands) (same : next.sent = s.sent)
    (stops : ∀ entry : Entry, entry.command = command → carry s.writer [entry] = ([], none)) :
    ∃ done' rest' frames', Wired first next entries done' rest' frames' := by
  obtain ⟨entry, later, rfl, is, commands_eq⟩ := wired.next_entry running waits
  have leaves := ne_running_of_leaving ends
  exact ⟨done ++ [entry], later, frames,
    { order := by rw [wired.order, List.append_assoc]; rfl
      waiting := fun _ => commands_eq.trans line.symm
      sent := by
        rw [same, wired.unended (ending_of_running running), ending_of_leaving ends,
          List.append_nil]
      standing := wired.standing.stopped running (stops entry is) leaves
      outlasted := fun on => absurd on leaves }⟩

theorem Wired.leaves {last : Ending} (wired : Wired first s entries done rest frames)
    (running : s.writing = .running) (idle : s.commands = [])
    (reason : s.deadline = none → s.held = false ∧ s.reading = .over) :
    Wired first { s with writing := .leaving last } entries done rest frames where
  order := wired.order
  waiting _ := wired.line running
  sent := by
    rw [ending_of_leaving rfl, List.append_nil]
    exact wired.unended (ending_of_running running)
  standing := by
    have none : rest = [] := List.map_eq_nil_iff.mp ((wired.line running).trans idle)
    refine wired.standing.left (ne_running_of_leaving rfl) (fun _ undue => ⟨?_, reason undue⟩) id id
    rw [wired.order, none, List.append_nil]
  outlasted on := absurd on (ne_running_of_leaving rfl)

theorem Wired.ends {last : Ending} (wired : Wired first s entries done rest frames)
    (leaving : s.writing = .leaving last)
    (reading : (s.endWriting last).reading = s.reading ∨
      (∃ reader, s.reading = .running reader) ∧ (s.endWriting last).reading = .over) :
    Wired first (s.endWriting last) entries done rest frames := by
  obtain ⟨isOver, held, sent⟩ := s.ended_endWriting last
  have stopped := ne_running_of_over isOver
  have idle (read : s.reading = .over) : (s.endWriting last).reading = .over := by
    rcases reading with same | ⟨-, cut⟩
    · exact same.trans read
    · exact cut
  exact
    { order := wired.order
      waiting := by
        intro takes
        rw [takesCommands, isOver] at takes
        cases takes
      sent := by
        rw [sent, wired.unended (ending_of_leaving leaving), ending_of_over isOver]
      standing := wired.standing.left stopped
        (fun running => absurd running (ne_running_of_leaving leaving))
        (fun none => held.trans none) idle
      outlasted := fun on => absurd on stopped }

theorem wired_writes (wired : Wired first s entries done rest frames)
    (writes : s.Writes none next) :
    ∃ done' rest' frames', Wired first next entries done' rest' frames' := by
  have reading := (reading_of_writes writes).2
  cases writes with
  | sent running waits is gives clear =>
      obtain ⟨entry, later, rfl, rfl, line⟩ := wired.next_entry running waits
      have before := wired.unended (ending_of_running running)
      exact ⟨done ++ [entry], later, _,
        { order := by rw [wired.order, List.append_assoc]; rfl
          waiting := fun _ => line
          sent := by
            simp only [before, ending, running, List.append_nil, given_append]
            rfl
          standing := wired.standing.sent running is gives running rfl
          outlasted := fun _ => outlasts_snoc (wired.outlasted running) is gives.sent }⟩
  | blocked _ _ _ _ blocked => cases blocked
  | settled running waits is past =>
      obtain ⟨entry, later, rfl, rfl, line⟩ := wired.next_entry running waits
      exact ⟨done ++ [entry], later, frames,
        { order := by rw [wired.order, List.append_assoc]; rfl
          waiting := fun _ => line
          sent := wired.sent
          standing := wired.standing.settled running past rfl
          outlasted := fun _ => outlasts_snoc (wired.outlasted running) is
            (Message.Writer.send_close_of_past past _) }⟩
  | refused running waits refused =>
      exact wired.stops running waits rfl rfl rfl fun _ is =>
        carry_of_stops (.inr ⟨_, _, is, refused⟩)
  | stopped running waits =>
      exact wired.stops running waits rfl rfl rfl fun _ is => carry_of_stops (.inl is)
  | deserted running idle nobody =>
      exact ⟨done, rest, frames, wired.leaves running idle fun _ => left_of_not_isCommanded nobody⟩
  | overdue running idle late =>
      refine ⟨done, rest, frames, wired.leaves running idle fun undue => ?_⟩
      rw [isOverdue, undue] at late
      cases late
  | ends leaving => exact ⟨done, rest, frames, wired.ends leaving reading⟩

theorem writeOn_of_writeStep (h : s.writeStep none = some next) : s.writeOn = next.writeOn := by
  rw [writeOn]
  split
  · rename_i next' h'
    rw [Option.some.inj (h.symm.trans h')]
  · rename_i waits
    rw [h] at waits
    cases waits

theorem writeOn_of_waits (waits : s.writeStep none = none) : s.writeOn = s := by
  rw [writeOn]
  split
  · rename_i next h
    rw [waits] at h
    cases h
  · rfl

/-- The writing loop goes on as long as it can. -/
theorem wired_writeOn (wired : Wired first s entries done rest frames) :
    ∃ done' rest' frames', Wired first s.writeOn entries done' rest' frames' := by
  induction s using writeOn.induct generalizing done rest frames with
  | case1 s next stepped ih =>
      obtain ⟨done', rest', frames', wired'⟩ := wired_writes wired (writes_of_writeStep stepped)
      rw [writeOn_of_writeStep stepped]
      exact ih wired'
  | case2 s waits =>
      rw [writeOn_of_waits waits]
      exact ⟨done, rest, frames, wired⟩

theorem rests_writeOn (s : Session) :
    (∃ last, s.writeOn.writing = .over last) ∨
      s.writeOn.writing = .running ∧ s.writeOn.commands = [] := by
  induction s using writeOn.induct with
  | case1 s next stepped ih =>
      rw [writeOn_of_writeStep stepped]
      exact ih
  | case2 s waits =>
      rw [writeOn_of_waits waits]
      unfold writeStep at waits
      split at waits
      · rename_i running
        split at waits
        · cases waits
        · rename_i idle
          exact .inr ⟨running, idle⟩
      · cases waits
      · rename_i last isOver
        exact .inl ⟨last, isOver⟩

/-- What a loop has written that has gone on as long as it can: everything that
is carried out of the line.  It has ended the direction if one of the commands
is a shutdown or is refused. -/
theorem drained (wired : Wired first s entries done rest frames) :
    ∃ all after, first.Sends (asked (carry first entries).1) all after ∧
      s.writeOn.sent = given all ++ s.writeOn.ending ∧
      (s.writeOn.ending = [.fin] ∨ s.writeOn.ending = [] ∧ (outlasts first entries).isSome) := by
  obtain ⟨done', rest', all, wired'⟩ := wired_writeOn wired
  obtain ⟨after, sends⟩ := wired'.standing.sends
  rcases s.rests_writeOn with ⟨last, isOver⟩ | ⟨running, idle⟩
  · refine ⟨all, after, ?_, wired'.sent, .inl (ending_of_over isOver)⟩
    rw [wired'.standing.carry_all wired'.order (ne_running_of_over isOver)]
    exact sends
  · have none : rest' = [] := List.map_eq_nil_iff.mp ((wired'.line running).trans idle)
    have everything : entries = done' := by rw [wired'.order, none, List.append_nil]
    refine ⟨all, after, everything ▸ sends, wired'.sent, .inr ⟨ending_of_running running, ?_⟩⟩
    rw [everything, wired'.outlasted running]
    rfl

/-! ## Any steps -/

/-- Whether a step is one of the caller with its session: it sends, asks for the
close, or gives the session up. -/
def Action.byCaller : Action → Bool
  | .submit _ | .requestClose | .drop => true
  | .read | .write _ | .next _ | .arrive _ | .elapse _ => false

/-- The caller takes its steps while it has the session. -/
def Held (s : Session) : List Action → Prop
  | [] => True
  | action :: actions => (action.byCaller = true → s.held = true) ∧ (s.act action).Held actions

instance decidableHeld (s : Session) : (actions : List Action) → Decidable (s.Held actions)
  | [] => .isTrue trivial
  | action :: actions =>
    have := decidableHeld (s.act action) actions
    inferInstanceAs (Decidable ((action.byCaller = true → s.held = true) ∧ _))

theorem enters_of_deserted {action : Action} (held : action.byCaller = true → s.held = true)
    (left : s.held = false) (isOver : s.reading = .over) : s.enters action = [] := by
  have nobody : ¬ action.byCaller = true := fun caller => by
    rw [left] at held
    exact absurd (held caller) Bool.false_ne_true
  have nothing : s.offers action = [] := by
    cases action with
    | read => simp only [offers, isOver]
    | submit | requestClose | drop => exact absurd rfl nobody
    | write | next | arrive | elapse => rfl
  rw [enters, nothing]
  split <;> rfl

theorem wired_feeds {action : Action} (wired : Wired first s entries done rest frames)
    (held : action.byCaller = true → s.held = true) (feeds : s.Feeds action next) :
    Wired first next (entries ++ s.enters action) done (rest ++ s.enters action) frames where
  order := by rw [wired.order, List.append_assoc]
  waiting takes := by
    rw [takesCommands, feeds.spares.writing] at takes
    rw [List.map_append, wired.waiting takes, feeds.commands]
  sent := by
    rw [feeds.spares.sent, wired.sent, ending, ending, feeds.spares.writing]
  outlasted running := by
    rw [feeds.spares.writer]
    exact wired.outlasted (feeds.spares.writing.symm.trans running)
  standing := by
    have spares := feeds.spares
    cases wired.standing with
    | going running on sends phase undue =>
        rw [← spares.writer] at on sends phase
        exact .going (spares.writing.trans running) on sends phase (spares.deadline.trans undue)
    | ceased last sends past =>
        refine .ceased last sends fun running => ?_
        rw [spares.writer]
        exact past (spares.writing.symm.trans running)
    | deserted stopped all sends left isOver =>
        have nothing := enters_of_deserted held left isOver
        refine .deserted ?_ ?_ sends (spares.held left) (spares.isOver isOver)
        · rw [spares.writing]
          exact stopped
        · rw [nothing, List.append_nil]
          exact all

theorem wired_act {action : Action} (wired : Wired first s entries done rest frames)
    (held : action.byCaller = true → s.held = true)
    (clear : ∀ what, action ≠ .write (some what)) :
    ∃ done' rest' frames',
      Wired first (s.act action) (entries ++ s.enters action) done' rest' frames' := by
  by_cases turn : action = .write none
  · subst turn
    have nothing : s.enters (.write none) = [] := by
      unfold enters
      split <;> rfl
    rw [nothing, List.append_nil]
    rcases s.act_write none with same | writes
    · rw [same]
      exact ⟨done, rest, frames, wired⟩
    · exact wired_writes wired writes
  · have other (obstacle : Option String) : action ≠ .write obstacle := by
      cases obstacle with
      | none => exact turn
      | some what => exact clear what
    exact ⟨done, rest ++ s.enters action, frames, wired_feeds wired held (s.feeds_act other)⟩

theorem wired_acts {actions : List Action} (wired : Wired first s entries done rest frames)
    (held : s.Held actions) (clear : ∀ what, Action.write (some what) ∉ actions) :
    ∃ done' rest' frames',
      Wired first (s.acts actions) (entries ++ s.entered actions) done' rest' frames' := by
  induction actions generalizing s entries done rest frames with
  | nil =>
      rw [entered, List.append_nil]
      exact ⟨done, rest, frames, wired⟩
  | cons action actions ih =>
      obtain ⟨done', rest', frames', wired'⟩ := wired_act wired held.1
        fun what is => clear what (is ▸ List.mem_cons_self)
      rw [entered, ← List.append_assoc]
      exact ih wired' held.2 fun what among => clear what (List.mem_cons_of_mem _ among)

/-- What a session writes, in any order of the caller's steps, the turns of the
two loops, what arrives and the time, if no write meets an obstacle:

* the commands are taken in the order in which they entered the line, and the
  others wait in it;
* what is carried out of those that were taken was written, each message in one
  frame, and once the loop has stopped nothing else of the line would be;
* a close frame is the last frame, and the end of the direction comes once and
  behind it;
* the caller asks for the close at most once;
* the pongs that the reading loop gave are those of the first pings that it
  decoded, in their order, and of all as long as commands are taken;
* with the turns that the writing loop can still take, everything is written that
  is carried out of the line, and the direction ends if one of the commands is a
  shutdown or is refused. -/
theorem wire_order (halves : Plan.Halves) (patience : Nat) (source : Source)
    (actions : List Action) (fresh : halves.writer.phase = .open)
    (held : (start halves patience source).Held actions)
    (clear : ∀ what, Action.write (some what) ∉ actions) :
    let s := start halves patience source
    let entries := s.entered actions
    let pings := (s.decoded actions).filterMap ping?
    let last := (s.acts actions).writeOn
    (∃ done rest frames after,
      entries = done ++ rest ∧
      ((s.acts actions).takesCommands = true →
        rest.map Entry.command = (s.acts actions).commands) ∧
      (carry halves.writer done).1 <+: done ∧
      ((s.acts actions).writing ≠ .running →
        (carry halves.writer done).1 = (carry halves.writer entries).1) ∧
      halves.writer.Sends (asked (carry halves.writer done).1) frames after ∧
      (s.acts actions).sent = given frames ++ (s.acts actions).ending ∧
      ∀ sent ∈ frames.dropLast, sent.1.opcode ≠ .close) ∧
    entries.countP Entry.asksClose ≤ 1 ∧
    entries.filterMap Entry.pong? <+: pings ∧
    ((s.acts actions).takesCommands = true → entries.filterMap Entry.pong? = pings) ∧
    ∃ all after, halves.writer.Sends (asked (carry halves.writer entries).1) all after ∧
      last.sent = given all ++ last.ending ∧
      (last.ending = [.fin] ∨ last.ending = [] ∧ (outlasts halves.writer entries).isSome) := by
  intro s entries pings last
  have wired : Wired halves.writer s [] [] [] [] :=
    ⟨rfl, fun _ => rfl, rfl, .going rfl rfl (.none halves.writer) fresh rfl, fun _ => rfl⟩
  obtain ⟨done, rest, frames, wired⟩ := wired_acts wired held clear
  rw [List.nil_append] at wired
  obtain ⟨after, sends⟩ := wired.standing.sends
  have mute : s.Mute := nofun
  obtain ⟨some, all⟩ := pongs_entered mute actions
  refine ⟨⟨done, rest, frames, after, wired.order, wired.waiting, carry_prefix _ _,
    fun stopped => (wired.standing.carry_all wired.order stopped).symm, sends, wired.sent,
    fun _ among => sends.close_last among⟩, s.countP_asksClose_le actions, some, all,
    drained wired⟩

/-- A ping is answered and data is sent when the caller asks for the close, and
then gives the session up: the three commands are carried out, and the close is
the last. -/
theorem wire_order_close :
    let halves : Plan.Halves := ⟨.new (.new .client {} []) none, .new ⟨.client, 0⟩ none {}⟩
    let s := start halves 5000 .silent
    let actions : List Action := [.arrive (.bytes [0x89, 2, 0x68, 0x69]), .read, .write none,
      .submit (.binary [1]), .requestClose, .drop]
    let entries : List Entry := [⟨.reader, .send (.pong [0x68, 0x69])⟩,
      ⟨.caller, .send (.binary [1])⟩, ⟨.caller, .close (some ⟨.normal, ""⟩)⟩]
    let last := (s.acts actions).writeOn
    halves.writer.phase = .open ∧ s.Held actions ∧
      (∀ what, Action.write (some what) ∉ actions) ∧
      s.entered actions = entries ∧ (carry halves.writer entries).1 = entries ∧
      ∃ all after, halves.writer.Sends (asked entries) all after ∧
        last.sent = given all ++ last.ending := by
  intro halves s actions entries last
  have held : s.Held actions := by decide +kernel
  have clear (what : String) : Action.write (some what) ∉ actions := by simp [actions]
  have entered : s.entered actions = entries := by decide +kernel
  have carried : (carry halves.writer entries).1 = entries := by decide +kernel
  obtain ⟨-, -, -, -, all, after, sends, sent, -⟩ :=
    wire_order halves 5000 .silent actions rfl held clear
  change halves.writer.Sends (asked (carry halves.writer (s.entered actions)).1) all after at sends
  rw [entered, carried] at sends
  exact ⟨rfl, held, clear, entered, carried, all, after, sends, sent⟩

end DeflateTrial.Session
