/-
Closing — whether the peer's close is told as a close

A reading loop that has decoded a close gives two commands, one to answer it
and one to end the direction, and tells the close when it has given them.  The
writing loop may be quicker: it may have answered, refused a message that came
behind the close, and told that as an error (`close_overtaken`).

Nothing else comes between.  The close is told at the third turn of the reading
loop at the latest, unless a turn of the writing loop had a reason to tell
something before (`close_told`): it refused a message, the network had
something against a write, or the peer's time was up.
-/
import DeflateTrial.Proofs.Session.Telling

namespace DeflateTrial.Session

variable {s next : Session} {status : Option CloseFrame} {last : Event} {log : List Event}

/-! ## A closed log -/

/-- The terminal event in a log, if there is one. -/
def verdict (log : List Event) : Option Event :=
  log.find? Event.isTerminal

theorem delivered_cons (s : Session) (action : Action) (actions : List Action) :
    s.delivered (action :: actions) = s.pulls action ++ (s.act action).delivered actions := by
  unfold delivered
  rw [pulled, List.append_assoc]
  rfl

theorem delivered_append (s : Session) (actions more : List Action) :
    s.delivered (actions ++ more) = s.pulled actions ++ (s.acts actions).delivered more := by
  induction actions generalizing s with
  | nil => rfl
  | cons action actions ih =>
      rw [List.cons_append, delivered_cons, ih, pulled, List.append_assoc]
      rfl

theorem keeps_reads (closed : s.queue.terminated = true) (reads : s.Reads next) :
    s.queue.Keeps next.queue := by
  cases reads with
  | told running taken is => exact Queue.keeps_push _ closed
  | @answered reader reader' source data running taken =>
      exact keeps_command { s with reading := .running reader', source } _
  | passed running taken => exact ⟨rfl, rfl⟩
  | leaves running taken is => exact ⟨rfl, rfl⟩
  | gives leaving => exact keeps_command s _
  | ends leaving => exact (Queue.keeps_push _ closed).trans (Queue.keeps_dropSink _)

theorem act_of_terminated (closed : s.queue.terminated = true) (action : Action) :
    s.pulls action ++ (s.act action).queue.events = s.queue.events ∧
      (s.act action).queue.terminated = true := by
  have kept (none : s.pulls action = []) (keeps : s.queue.Keeps (s.act action).queue) :
      s.pulls action ++ (s.act action).queue.events = s.queue.events ∧
        (s.act action).queue.terminated = true := by
    rw [none, List.nil_append]
    exact ⟨keeps.events, keeps.terminated.trans closed⟩
  rcases s.act_cases action with ⟨rfl, reads⟩ | ⟨obstacle, rfl, writes⟩ | ⟨expected, rfl⟩ | aside
  · exact kept rfl (keeps_reads closed reads)
  · refine kept rfl ?_
    rcases queue_of_writes writes with same | ⟨event, -, takes⟩
    · exact same
    · cases takes with
      | dropped _ keeps => exact keeps
      | queued live =>
          rw [closed] at live
          cases live
  · obtain ⟨events, terminated⟩ := s.queue.brought_next expected
    exact ⟨events, terminated.trans closed⟩
  · exact kept aside.pulls aside.keeps

theorem delivered_of_terminated (closed : s.queue.terminated = true) (actions : List Action) :
    s.delivered actions = s.queue.events := by
  induction actions generalizing s with
  | nil => rfl
  | cons action actions ih =>
      obtain ⟨events, closed'⟩ := act_of_terminated closed action
      rw [delivered_cons, ih closed', events]

/-! ## The last event of a reading loop -/

/-- The reading loop is about to tell an event, when it has given some commands;
nothing terminal has been told. -/
structure Pending (s : Session) (last : Event) (commands : Nat) : Prop where
  reading : ∃ parting, s.reading = .leaving parting last ∧ parting.length = commands
  live : s.queue.terminated = false
  clear : ∀ event ∈ s.queue.events, event.isTerminal = false

theorem verdict_append_of_clear {events : List Event}
    (clear : ∀ event ∈ events, event.isTerminal = false) (more : List Event) :
    verdict (events ++ more) = verdict more := by
  unfold verdict
  rw [List.find?_append, List.find?_eq_none.mpr fun event h => by rw [clear event h]; exact nofun]
  rfl

theorem verdict_of_takes {event : Event} {queue : Queue}
    (clear : ∀ event ∈ s.queue.events, event.isTerminal = false)
    (live : s.queue.terminated = false) (takes : s.queue.Takes event queue)
    (terminal : event.isTerminal = true) (is : next.queue = queue) (actions : List Action) :
    verdict (next.delivered actions) = some event := by
  cases takes with
  | dropped shut =>
      rw [live] at shut
      cases shut
  | queued _ events terminated =>
      subst is
      rw [delivered_of_terminated (terminated.trans terminal), events,
        verdict_append_of_clear clear, verdict, List.find?_cons_of_pos terminal]

/-- What becomes of the last event of a reading loop: it waits, or is the
verdict, or something that the writing loop had a reason to tell before it is. -/
inductive Fate (s : Session) (last : Event) (commands : Nat) (actions : List Action) : Prop where
  | pending (left : Nat) (count : left + actions.count .read = commands)
      (pending : (s.acts actions).Pending last left)
      (none : verdict (s.delivered actions) = none)
  | told (is : verdict (s.delivered actions) = some last)
  | overtaken (before after : List Action) (obstacle : Option String) (event : Event) (left : Nat)
      (split : actions = before ++ .write obstacle :: after)
      (pending : (s.acts before).Pending last left)
      (disrupts : (s.acts before).Disrupts obstacle event)
      (is : verdict (s.delivered actions) = some event)

theorem Fate.cons {action : Action} {actions : List Action} {commands left : Nat}
    (clear : ∀ event ∈ s.pulls action, event.isTerminal = false)
    (count : left + [action].count .read = commands)
    (fate : (s.act action).Fate last left actions) : s.Fate last commands (action :: actions) := by
  have same : verdict (s.delivered (action :: actions)) =
      verdict ((s.act action).delivered actions) := by
    rw [delivered_cons, verdict_append_of_clear clear]
  cases fate with
  | pending left' count' pending none =>
      refine .pending left' ?_ pending (same.trans none)
      rw [← List.singleton_append, List.count_append]
      omega
  | told is => exact .told (same.trans is)
  | overtaken before after obstacle event left' split pending disrupts is =>
      exact .overtaken (action :: before) after obstacle event left' (congrArg _ split) pending
        disrupts (same.trans is)

theorem pending_of_keeps {commands : Nat} (pending : s.Pending last commands)
    (keeps : s.queue.Keeps next.queue) (reading : next.reading = s.reading) :
    next.Pending last commands where
  reading := by
    rw [reading]
    exact pending.reading
  live := keeps.terminated.trans pending.live
  clear := by
    rw [keeps.events]
    exact pending.clear

theorem pending_read {commands : Nat} (pending : s.Pending last commands)
    (terminal : last.isTerminal = true) :
    (∃ left, left + 1 = commands ∧ (s.act .read).Pending last left) ∨
      ∀ actions, verdict ((s.act .read).delivered actions) = some last := by
  obtain ⟨parting, leaving, count⟩ := pending.reading
  cases parting with
  | nil =>
      have is : s.act .read = { s.report last with
          reading := .over, queue := (s.report last).queue.dropSink.1 } := by
        simp only [act, readStep, leaving]
        rfl
      have takes := takes_push_terminal s.queue terminal
      refine .inr fun actions => ?_
      rw [is]
      exact verdict_of_takes pending.clear pending.live
        (takes.behind (Queue.keeps_dropSink _)) terminal rfl actions
  | cons command parting =>
      have is : s.act .read = { s.command command with reading := .leaving parting last } := by
        simp only [act, readStep, leaving]
        rfl
      refine .inl ⟨parting.length, count, ?_⟩
      rw [is]
      have keeps := keeps_command s command
      exact ⟨⟨parting, rfl, rfl⟩, keeps.terminated.trans pending.live, by
        intro event h
        exact pending.clear event (keeps.events ▸ h)⟩

theorem fate_of_pending {commands : Nat} (pending : s.Pending last commands)
    (terminal : last.isTerminal = true) (actions : List Action) : s.Fate last commands actions := by
  induction actions generalizing s commands with
  | nil =>
      refine .pending commands rfl pending (List.find?_eq_none.mpr fun event h => ?_)
      rw [pending.clear event h]
      exact nofun
  | cons action actions ih =>
      by_cases turn : action = .read
      · subst turn
        rcases pending_read pending terminal with ⟨left, count, pending'⟩ | told
        · exact .cons nofun count (ih pending')
        · exact .told (told actions)
      · have count (commands : Nat) : commands + [action].count .read = commands := by
          rw [List.count_singleton, if_neg (by simpa using turn)]
          rfl
        rcases s.act_cases action with ⟨rfl, -⟩ | ⟨obstacle, rfl, writes⟩ | ⟨expected, rfl⟩ | aside
        · exact absurd rfl turn
        · rcases queue_of_writes writes with keeps | ⟨event, disrupts, takes⟩
          · have reading : (s.act (.write obstacle)).reading = s.reading := by
              obtain ⟨parting, leaving, -⟩ := pending.reading
              rcases (reading_of_writes writes).2 with same | ⟨⟨reader, running⟩, -⟩
              · exact same
              · rw [leaving] at running
                cases running
            exact .cons nofun (count commands) (ih (pending_of_keeps pending keeps reading))
          · exact .overtaken [] actions obstacle event commands rfl pending disrupts
              (verdict_of_takes pending.clear pending.live takes (isTerminal_of_disrupts disrupts)
                rfl actions)
        · obtain ⟨events, terminated⟩ := s.queue.brought_next expected
          have clear (event : Event) (h : event ∈ s.pulls (.next expected) ++
              (s.act (.next expected)).queue.events) : event.isTerminal = false :=
            pending.clear event (events ▸ h)
          refine .cons (fun event h => clear event (List.mem_append_left _ h)) (count commands)
            (ih ⟨pending.reading, terminated.trans pending.live, ?_⟩)
          exact fun event h => clear event (List.mem_append_right _ h)
        · refine .cons ?_ (count commands) (ih (pending_of_keeps pending aside.keeps aside.reading))
          rw [aside.pulls]
          exact nofun

/-! ## The peer's close -/

theorem pending_of_close {reader : Message.Reader} (running : s.reading = .running reader)
    (decoded : (reader.next s.source).1 = .message (.close status))
    (live : s.queue.terminated = false)
    (clear : ∀ event ∈ s.queue.events, event.isTerminal = false) :
    (s.act .read).Pending (closeEvent status) 2 := by
  rcases taken : reader.next s.source with ⟨outcome, reader', source⟩
  obtain rfl : outcome = .message (.close status) := by rw [← decoded, taken]
  have is : s.act .read = { s with
      reading := .leaving [.close status, .shutdown] (closeEvent status), source } := by
    simp only [act, readStep, running, taken]
    rfl
  rw [is]
  exact ⟨⟨_, rfl, rfl⟩, live, clear⟩

/-- If the reading loop decodes a close while nothing terminal has been told,
the close is told at its third turn from then, whatever else happens, unless a
turn of the writing loop before that had a reason to tell something. -/
theorem close_told (halves : Plan.Halves) (patience : Nat) (source : Source)
    (before later : List Action) {reader : Message.Reader}
    (running : ((start halves patience source).acts before).reading = .running reader)
    (decoded : (reader.next ((start halves patience source).acts before).source).1 =
      .message (.close status))
    (live : ((start halves patience source).acts before).queue.terminated = false) :
    let s := start halves patience source
    let told := verdict (s.delivered (before ++ .read :: later))
    (told = none ∧ later.count .read ≤ 2) ∨ told = some (closeEvent status) ∨
      ∃ between after obstacle event, later = between ++ .write obstacle :: after ∧
        (s.acts (before ++ .read :: between)).queue.terminated = false ∧
        (∃ parting, (s.acts (before ++ .read :: between)).reading =
          .leaving parting (closeEvent status)) ∧
        (s.acts (before ++ .read :: between)).Disrupts obstacle event ∧ told = some event := by
  intro s told
  have log := told_delivered halves patience source before
  rw [live] at log
  have clear (event : Event) (h : event ∈ (s.acts before).queue.events) :
      event.isTerminal = false := log.clear (List.mem_append_right _ h)
  have is : told = verdict (((s.acts before).act .read).delivered later) := by
    change verdict (s.delivered (before ++ .read :: later)) = _
    rw [delivered_append, delivered_cons,
      verdict_append_of_clear fun event h => log.clear (List.mem_append_left _ h)]
    rfl
  have terminal := isTerminal_closeEvent status
  have from_here (between : List Action) :
      s.acts (before ++ .read :: between) = ((s.acts before).act .read).acts between :=
    List.foldl_append
  cases fate_of_pending (pending_of_close running decoded live clear) terminal later with
  | pending left count _ none => exact .inl ⟨is.trans none, by omega⟩
  | told is' => exact .inr (.inl (is.trans is'))
  | overtaken between after obstacle event left split pending disrupts is' =>
      refine .inr (.inr ⟨between, after, obstacle, event, split, ?_⟩)
      rw [from_here]
      obtain ⟨parting, leaving, -⟩ := pending.reading
      exact ⟨pending.live, ⟨parting, leaving⟩, disrupts, is.trans is'⟩

/-- A close that the reading loop tells although a message is sent meanwhile: the
writing loop takes no turn before. -/
theorem close_told_undisturbed :
    let halves : Plan.Halves := ⟨.new (.new .client {} []) none, .new ⟨.client, 0⟩ none {}⟩
    let s := start halves 5000 .silent
    let before : List Action := [.arrive (.bytes [0x88, 2, 3, 0xe8])]
    (s.acts before).reading = .running halves.reader ∧
      (halves.reader.next (s.acts before).source).1 = .message (.close (some ⟨.normal, ""⟩)) ∧
      (s.acts before).queue.terminated = false ∧
      verdict (s.delivered (before ++ .read :: [.read, .submit (.binary [1]), .read, .read])) =
        some (.close ⟨.normal, ""⟩) := by
  intro halves s before
  have decoded : (halves.reader.next (s.acts before).source).1 =
      .message (.close (some ⟨.normal, ""⟩)) := by decide +kernel
  refine ⟨rfl, decoded, rfl, ?_⟩
  rcases close_told halves 5000 .silent before [.read, .submit (.binary [1]), .read, .read]
      rfl decoded rfl with ⟨-, few⟩ | told | ⟨between, after, obstacle, event, split, -⟩
  · exact absurd few (by decide)
  · exact told
  · have among : Action.write obstacle ∈
        ([.read, .submit (.binary [1]), .read, .read] : List Action) :=
      split ▸ List.mem_append_right between List.mem_cons_self
    simp at among

/-- The writing loop overtakes the reading loop.  The peer's close has been
decoded and its answer is on the line when the caller sends a message; the
writing loop answers, refuses the message and tells that as an error; and the
close is dropped. -/
theorem close_overtaken :
    let halves : Plan.Halves := ⟨.new (.new .client {} []) none, .new ⟨.client, 0⟩ none {}⟩
    let s := start halves 5000 ⟨[.bytes [0x88, 2, 3, 0xe8]], false⟩
    s.reading = .running halves.reader ∧
      (halves.reader.next s.source).1 = .message (.close (some ⟨.normal, ""⟩)) ∧
      s.queue.terminated = false ∧
      verdict (s.delivered
        [.read, .read, .submit (.binary [1]), .write none, .write none, .read, .read]) =
        some (.error (.connectionClosed none)) := by
  refine ⟨rfl, ?_⟩
  decide +kernel

end DeflateTrial.Session
