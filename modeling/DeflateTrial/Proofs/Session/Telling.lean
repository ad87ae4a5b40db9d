/-
Telling — what a session's caller is told

The two loops push into one queue, and the caller pulls from it at any time.
`delivered` is what the caller has pulled and what is there to be pulled.  It
is the opening, then data, and at most one terminal event behind which nothing
comes; the data is that of a beginning of what the reading loop decoded, each
message once and in order (`Told`).  Every step keeps this (`telling_act`), so
it holds in any order of the steps (`told_delivered`).

A turn of the writing loop pushes nothing, or one terminal event for one of
three reasons (`Disrupts`); a turn of the reading loop pushes the data that it
decoded, or its last event.
-/
import DeflateTrial.Proofs.Queue.Delivery
import DeflateTrial.Proofs.Session.Turns

namespace DeflateTrial

namespace Queue

/-! ## What a push does to the events -/

/-- The events of a queue stay, whoever is there to push or to be woken. -/
structure Keeps (queue next : Queue) : Prop where
  events : next.events = queue.events
  terminated : next.terminated = queue.terminated

/-- A queue takes an event in, or drops it behind a terminal one. -/
inductive Takes (queue : Queue) (event : Event) (next : Queue) : Prop where
  | dropped (closed : queue.terminated = true) (keeps : queue.Keeps next)
  | queued (live : queue.terminated = false) (events : next.events = queue.events ++ [event])
      (terminated : next.terminated = event.isTerminal)

variable {queue next : Queue} {event : Event}

theorem takes_push (queue : Queue) (other : event ≠ .open) :
    queue.Takes event (queue.push event).1 := by
  unfold push pushTaking refuses
  cases closed : queue.terminated with
  | true => exact .dropped closed ⟨rfl, rfl⟩
  | false =>
      simp only [other, Bool.false_or, decide_false]
      exact .queued closed rfl rfl

theorem keeps_push (event : Event) (closed : queue.terminated = true) :
    queue.Keeps (queue.push event).1 := by
  unfold push pushTaking refuses
  rw [closed]
  exact ⟨rfl, rfl⟩

theorem keeps_dropSink (queue : Queue) : queue.Keeps queue.dropSink.1 := by
  unfold dropSink dropSinkTaking
  dsimp only
  split <;> exact ⟨rfl, rfl⟩

theorem Keeps.trans {after : Queue} (h : queue.Keeps next) (h' : next.Keeps after) :
    queue.Keeps after :=
  ⟨h'.events.trans h.events, h'.terminated.trans h.terminated⟩

theorem Takes.before {first : Queue} (keeps : first.Keeps queue) (h : queue.Takes event next) :
    first.Takes event next := by
  cases h with
  | dropped closed keeps' =>
      exact .dropped (keeps.terminated.symm.trans closed) (keeps.trans keeps')
  | queued live events terminated =>
      refine .queued (keeps.terminated.symm.trans live) ?_ terminated
      rw [events, keeps.events]

theorem Takes.behind {after : Queue} (h : queue.Takes event next) (keeps : next.Keeps after) :
    queue.Takes event after := by
  cases h with
  | dropped closed keeps' => exact .dropped closed (keeps'.trans keeps)
  | queued live events terminated =>
      exact .queued live (keeps.events.trans events) (keeps.terminated.trans terminated)

theorem brought_next (queue : Queue) (expected : Option Event.Kind) :
    Shared.broughtBy (queue.poll 0).1 ++ (queue.next expected).2.events = queue.events ∧
      (queue.next expected).2.terminated = queue.terminated := by
  unfold next
  rcases poll_cases queue 0 with ⟨event, events, first, polled⟩ | ⟨none, -, polled⟩ |
    ⟨none, -, polled⟩
  · rw [polled, first]
    exact ⟨rfl, rfl⟩
  · rw [polled]
    exact ⟨rfl, rfl⟩
  · rw [polled]
    exact ⟨rfl, rfl⟩

end Queue

namespace Session

open Queue (Keeps Takes)

variable {s next : Session} {obstacle : Option String} {decoded : List Message}
  {log taken : List Event}

/-! ## What the loops push -/

/-- The events that the writing loop has a reason to push: a message was
refused, the network had something against a write, or the peer did not answer
a close in time. -/
inductive Disrupts (s : Session) (obstacle : Option String) : Event → Prop where
  | refused {message : Message} {commands : List Command} {fault : Fault}
      (running : s.writing = .running) (first : s.commands = .send message :: commands)
      (refused : s.writer.send message = (.error fault, s.writer)) :
      Disrupts s obstacle (.error fault)
  | blocked {what : String} (running : s.writing = .running) (is : obstacle = some what) :
      Disrupts s obstacle (.error (.io what))
  | overdue (leaving : s.writing = .leaving .timedOut) : Disrupts s obstacle lostEvent

theorem isTerminal_closeEvent (status : Option CloseFrame) :
    (closeEvent status).isTerminal = true := by
  cases status <;> rfl

theorem takes_push_terminal (queue : Queue) {event : Event} (terminal : event.isTerminal = true) :
    queue.Takes event (queue.push event).1 := by
  refine queue.takes_push ?_
  rintro rfl
  cases terminal

theorem isTerminal_of_disrupts {event : Event} (h : s.Disrupts obstacle event) :
    event.isTerminal = true := by
  cases h <;> rfl

theorem keeps_cutReading (s : Session) : s.queue.Keeps s.cutReading.queue := by
  unfold cutReading
  split
  · exact s.queue.keeps_dropSink
  · exact ⟨rfl, rfl⟩

/-- A turn of the writing loop leaves the events as they are, or pushes one that
there is a reason for. -/
theorem queue_of_writes (h : s.Writes obstacle next) :
    s.queue.Keeps next.queue ∨
      ∃ event, s.Disrupts obstacle event ∧ s.queue.Takes event next.queue := by
  cases h with
  | sent | settled | stopped | deserted | overdue => exact .inl ⟨rfl, rfl⟩
  | blocked running first is gives blocked =>
      exact .inr ⟨_, .blocked running blocked, s.queue.takes_push nofun⟩
  | refused running first refused =>
      exact .inr ⟨_, .refused running first refused, s.queue.takes_push nofun⟩
  | @ends ending leaving =>
      have first := s.queue.keeps_dropSink
      cases ending with
      | finished => exact .inl (first.trans (Queue.keeps_dropSink _))
      | timedOut =>
          let shut : Session := { s with
            writer := s.writer.shutdown
            writing := .over .timedOut
            commands := []
            sent := s.sent ++ [.fin]
            queue := s.queue.dropSink.1 }
          have told :
              shut.cutReading.queue.Takes lostEvent (shut.cutReading.report lostEvent).queue :=
            Queue.takes_push _ nofun
          exact .inr ⟨_, .overdue leaving,
            (told.before (first.trans (keeps_cutReading shut))).behind (Queue.keeps_dropSink _)⟩

theorem keeps_command (s : Session) (command : Command) :
    s.queue.Keeps (s.command command).queue := by
  unfold Session.command
  split <;> exact ⟨rfl, rfl⟩

theorem keeps_requestClose (s : Session) : s.queue.Keeps s.requestClose.queue := by
  unfold requestClose
  split
  · exact ⟨rfl, rfl⟩
  · exact keeps_command { s with closeRequested := true } _

/-! ## What the caller pulls -/

/-- What the caller pulls at a step. -/
def pulls (s : Session) : Action → List Event
  | .next _ => Queue.Shared.broughtBy (s.queue.poll 0).1
  | _ => []

/-- What the caller pulls, step by step. -/
def pulled (s : Session) : List Action → List Event
  | [] => []
  | action :: actions => s.pulls action ++ (s.act action).pulled actions

/-- The events that are delivered to the caller: what it has pulled, and what is
there to be pulled. -/
def delivered (s : Session) (actions : List Action) : List Event :=
  s.pulled actions ++ (s.acts actions).queue.events

/-- A step that neither decodes nor tells nor pulls anything. -/
structure Aside (s : Session) (action : Action) : Prop where
  decodes : s.decodes action = []
  pulls : s.pulls action = []
  keeps : s.queue.Keeps (s.act action).queue
  reading : (s.act action).reading = s.reading

theorem act_cases (s : Session) (action : Action) :
    (action = .read ∧ s.Reads (s.act .read)) ∨
    (∃ obstacle, action = .write obstacle ∧ s.Writes obstacle (s.act (.write obstacle))) ∨
    (∃ expected, action = .next expected) ∨ s.Aside action := by
  cases action with
  | read =>
      rcases s.act_read with ⟨waits, same⟩ | reads
      · exact .inr (.inr (.inr ⟨decodes_of_waiting waits, rfl, by rw [same]; exact ⟨rfl, rfl⟩,
          by rw [same]⟩))
      · exact .inl ⟨rfl, reads⟩
  | write obstacle =>
      rcases s.act_write obstacle with same | writes
      · exact .inr (.inr (.inr ⟨rfl, rfl, by rw [same]; exact ⟨rfl, rfl⟩, by rw [same]⟩))
      · exact .inr (.inl ⟨obstacle, rfl, writes⟩)
  | next expected => exact .inr (.inr (.inl ⟨expected, rfl⟩))
  | submit message =>
      have is : s.act (.submit message) = s.command (.send message) := submit_eq s message
      exact .inr (.inr (.inr ⟨rfl, rfl, by rw [is]; exact keeps_command s _,
        by rw [is]; exact reading_command ..⟩))
  | requestClose =>
      exact .inr (.inr (.inr ⟨rfl, rfl, keeps_requestClose s, reading_requestClose s⟩))
  | drop => exact .inr (.inr (.inr ⟨rfl, rfl, keeps_requestClose s, reading_requestClose s⟩))
  | arrive incoming => exact .inr (.inr (.inr ⟨rfl, rfl, ⟨rfl, rfl⟩, rfl⟩))
  | elapse milliseconds => exact .inr (.inr (.inr ⟨rfl, rfl, ⟨rfl, rfl⟩, rfl⟩))

/-! ## What is told -/

/-- What a log of events tells of decoded messages, and whether it is closed: all
the data behind the opening, or a beginning of it and a terminal event. -/
inductive Told (decoded : List Message) : (log : List Event) → (closed : Bool) → Prop where
  | going : Told decoded (.open :: decoded.filterMap Message.event?) false
  | closed {told : List Message} {last : Event} (part : told <+: decoded)
      (terminal : last.isTerminal = true) :
      Told decoded (.open :: told.filterMap Message.event? ++ [last]) true

theorem Told.silent {closed : Bool} {more : List Message} (told : Told decoded log closed)
    (none : more.filterMap Message.event? = []) : Told (decoded ++ more) log closed := by
  cases told with
  | going =>
      have same : decoded.filterMap Message.event? =
          (decoded ++ more).filterMap Message.event? := by
        rw [List.filterMap_append, none, List.append_nil]
      rw [same]
      exact .going
  | closed part terminal => exact .closed (part.trans (List.prefix_append ..)) terminal

/-- What is told is the opening, the data of a beginning of the messages, and
perhaps a terminal event behind which there is nothing. -/
theorem Told.shape {closed : Bool} (told : Told decoded log closed) :
    ∃ part last, part <+: decoded ∧
      log = .open :: part.filterMap Message.event? ++ Option.toList last ∧
      ∀ event ∈ last, event.isTerminal = true := by
  cases told with
  | going => exact ⟨decoded, none, List.prefix_rfl, (List.append_nil _).symm, nofun⟩
  | @closed told last part terminal =>
      refine ⟨told, some last, part, rfl, ?_⟩
      rintro _ ⟨⟩
      exact terminal

theorem Told.clear (told : Told decoded log false) {event : Event} (h : event ∈ log) :
    event.isTerminal = false := by
  cases told with
  | going =>
      rcases List.mem_cons.mp h with rfl | h
      · rfl
      · obtain ⟨message, -, is⟩ := List.mem_filterMap.mp h
        cases message <;> cases is <;> rfl

/-- What a session has told: the log is what was pulled and what is queued, and
the last event that the reading loop has to tell is terminal. -/
structure Telling (s : Session) (decoded : List Message) (taken : List Event) : Prop where
  told : Told decoded (taken ++ s.queue.events) s.queue.terminated
  last : ∀ parting event, s.reading = .leaving parting event → event.isTerminal = true

theorem telling_start (halves : Plan.Halves) (patience : Nat) (source : Source) :
    (start halves patience source).Telling [] [] :=
  ⟨.going, nofun⟩

theorem told_data {message : Message} {event : Event} {queue after : Queue}
    (told : Told decoded (taken ++ queue.events) queue.terminated)
    (is : message.event? = some event) (takes : queue.Takes event after) :
    Told (decoded ++ [message]) (taken ++ after.events) after.terminated := by
  cases takes with
  | dropped closed keeps =>
      rw [keeps.events, keeps.terminated]
      rw [closed] at told ⊢
      generalize taken ++ queue.events = log at told
      cases told with
      | closed part terminal => exact .closed (part.trans (List.prefix_append ..)) terminal
  | queued live events terminated =>
      have open_ : event.isTerminal = false := by
        cases message <;> cases is <;> rfl
      rw [events, terminated, open_, ← List.append_assoc]
      rw [live] at told
      generalize taken ++ queue.events = log at told
      cases told with
      | going =>
          have more : Event.open :: decoded.filterMap Message.event? ++ [event] =
              .open :: (decoded ++ [message]).filterMap Message.event? := by
            rw [List.filterMap_append, List.filterMap_cons_some is]
            rfl
          rw [more]
          exact .going

theorem told_last {event : Event} {queue after : Queue}
    (told : Told decoded (taken ++ queue.events) queue.terminated)
    (terminal : event.isTerminal = true) (takes : queue.Takes event after) :
    Told decoded (taken ++ after.events) after.terminated := by
  cases takes with
  | dropped closed keeps =>
      rw [keeps.events, keeps.terminated]
      exact told
  | queued live events terminated =>
      rw [events, terminated, terminal, ← List.append_assoc]
      rw [live] at told
      generalize taken ++ queue.events = log at told
      cases told with
      | going => exact .closed List.prefix_rfl terminal

theorem told_keeps {queue after : Queue}
    (told : Told decoded (taken ++ queue.events) queue.terminated) (keeps : queue.Keeps after) :
    Told decoded (taken ++ after.events) after.terminated := by
  rw [keeps.events, keeps.terminated]
  exact told

/-! ## Steps -/

theorem telling_reads (telling : s.Telling decoded taken) (reads : s.Reads next) :
    next.Telling (decoded ++ s.decodes .read) taken := by
  cases reads with
  | told running came is =>
      rw [decodes_of_running running came]
      have other : ∀ {message : Message} {event : Event}, message.event? = some event →
          event ≠ .open := by
        intro message event is
        rintro rfl
        cases message <;> cases is
      refine ⟨told_data telling.told is (s.queue.takes_push (other is)), ?_⟩
      intro parting event leaving
      cases leaving
  | @answered reader reader' source data running came =>
      rw [decodes_of_running running came]
      refine ⟨(told_keeps telling.told ?_).silent rfl, ?_⟩
      · exact keeps_command { s with reading := .running reader', source } _
      · intro parting event leaving
        rw [reading_command] at leaving
        cases leaving
  | passed running came =>
      rw [decodes_of_running running came]
      refine ⟨telling.told.silent rfl, ?_⟩
      intro parting event leaving
      cases leaving
  | @leaves reader reader' source outcome parting last running came is =>
      rw [decodes_of_running running came]
      have silent : (messages outcome).filterMap Message.event? = [] := by
        rcases farewell_cases is with ⟨status, rfl, -⟩ | ⟨fault, rfl, -⟩ | ⟨rfl, -⟩ <;> rfl
      have terminal : last.isTerminal = true := by
        rcases farewell_cases is with ⟨status, -, -, rfl⟩ | ⟨fault, -, -, rfl⟩ | ⟨-, -, rfl⟩
        · exact isTerminal_closeEvent status
        · rfl
        · rfl
      refine ⟨telling.told.silent silent, ?_⟩
      rintro _ _ ⟨⟩
      exact terminal
  | @gives command parting last leaving =>
      rw [decodes, leaving, List.append_nil]
      refine ⟨told_keeps telling.told (keeps_command s command), ?_⟩
      rintro _ _ ⟨⟩
      exact telling.last _ _ leaving
  | @ends last leaving =>
      rw [decodes, leaving, List.append_nil]
      have terminal := telling.last _ _ leaving
      have takes := takes_push_terminal s.queue terminal
      refine ⟨told_last telling.told terminal (takes.behind (Queue.keeps_dropSink _)), ?_⟩
      intro parting event leaving
      cases leaving

/-- The reading loop stays where it is, or is cut off: its last event is still
terminal. -/
theorem last_of_idle (telling : s.Telling decoded taken)
    (reading : next.reading = s.reading ∨ next.reading = .over) :
    ∀ parting event, next.reading = .leaving parting event → event.isTerminal = true := by
  intro parting event leaving
  rcases reading with same | isOver
  · exact telling.last parting event (same.symm.trans leaving)
  · rw [isOver] at leaving
    cases leaving

theorem telling_writes (telling : s.Telling decoded taken) (writes : s.Writes obstacle next) :
    next.Telling decoded taken := by
  have last := last_of_idle telling ((reading_of_writes writes).2.imp_right And.right)
  rcases queue_of_writes writes with keeps | ⟨event, disrupts, takes⟩
  · exact ⟨told_keeps telling.told keeps, last⟩
  · exact ⟨told_last telling.told (isTerminal_of_disrupts disrupts) takes, last⟩

theorem telling_next (telling : s.Telling decoded taken) (expected : Option Event.Kind) :
    (s.act (.next expected)).Telling decoded (taken ++ s.pulls (.next expected)) := by
  obtain ⟨events, terminated⟩ := s.queue.brought_next expected
  refine ⟨?_, telling.last⟩
  change Told decoded (taken ++ Queue.Shared.broughtBy (s.queue.poll 0).1 ++
    (s.queue.next expected).2.events) (s.queue.next expected).2.terminated
  rw [List.append_assoc, events, terminated]
  exact telling.told

/-- Every step keeps what was told, and tells what it has to. -/
theorem telling_act (telling : s.Telling decoded taken) (action : Action) :
    (s.act action).Telling (decoded ++ s.decodes action) (taken ++ s.pulls action) := by
  rcases s.act_cases action with ⟨rfl, reads⟩ | ⟨obstacle, rfl, writes⟩ | ⟨expected, rfl⟩ | aside
  · have none : s.pulls .read = [] := rfl
    rw [none, List.append_nil]
    exact telling_reads telling reads
  · have none : s.pulls (.write obstacle) = [] ∧ s.decodes (.write obstacle) = [] := ⟨rfl, rfl⟩
    rw [none.1, none.2, List.append_nil, List.append_nil]
    exact telling_writes telling writes
  · have none : s.decodes (.next expected) = [] := rfl
    rw [none, List.append_nil]
    exact telling_next telling expected
  · rw [aside.decodes, aside.pulls, List.append_nil, List.append_nil]
    exact ⟨told_keeps telling.told aside.keeps, last_of_idle telling (.inl aside.reading)⟩

theorem telling_acts (telling : s.Telling decoded taken) (actions : List Action) :
    (s.acts actions).Telling (decoded ++ s.decoded actions) (taken ++ s.pulled actions) := by
  induction actions generalizing s decoded taken with
  | nil =>
      have nothing : s.decoded [] = [] ∧ s.pulled [] = [] := ⟨rfl, rfl⟩
      rw [nothing.1, nothing.2, List.append_nil, List.append_nil]
      exact telling
  | cons action actions ih =>
      rw [Session.decoded, Session.pulled, ← List.append_assoc, ← List.append_assoc]
      exact ih (telling_act telling action)

theorem told_delivered (halves : Plan.Halves) (patience : Nat) (source : Source)
    (actions : List Action) :
    Told ((start halves patience source).decoded actions)
      ((start halves patience source).delivered actions)
      ((start halves patience source).acts actions).queue.terminated :=
  (telling_acts (telling_start halves patience source) actions).told

end Session

end DeflateTrial
