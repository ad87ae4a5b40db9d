/-
Delivery — every admitted event comes out once, in its turn

Two histories run along with the deeds: what living sinks have pushed, and
what the consumer has taken out.  Which pushes are admitted is a rule about
the first history alone (`admitted`): all up to the first terminal event,
without the openings that come after another event.  The queue does not keep
that history, it keeps a counter and a flag; that these decide the same is the
invariant (`Faithful`), and every deed keeps it (`faithful_act`).

So what was taken out, followed by what is still queued, is what was admitted
(`exactly_once`).  A pull for another kind of event takes its event out like
any other; only the report that nothing can come any more takes none, and from
then on every pull gives it.
-/
import DeflateTrial.Proofs.Queue.Waking

namespace DeflateTrial.Queue

/-! ## Which pushes are admitted -/

/-- The events up to the first terminal one, and that one. -/
def upToTerminal : List Event → List Event
  | [] => []
  | event :: events => if event.isTerminal then [event] else event :: upToTerminal events

/-- What is admitted of the events that are pushed: nothing after a terminal
one, and an opening only if it is the very first. -/
def admitted (pushed : List Event) : List Event :=
  match upToTerminal pushed with
  | [] => []
  | first :: later => first :: later.filter (· ≠ .open)

/-- Whether an event comes too late after those that were pushed. -/
def Late (pushed : List Event) (event : Event) : Prop :=
  pushed.any Event.isTerminal = true ∨ (event = .open ∧ pushed ≠ [])

theorem upToTerminal_append (pushed more : List Event) :
    upToTerminal (pushed ++ more) =
      if pushed.any Event.isTerminal then upToTerminal pushed else pushed ++ upToTerminal more := by
  induction pushed with
  | nil => rfl
  | cons event pushed ih =>
      cases ht : event.isTerminal with
      | true => simp [upToTerminal, ht]
      | false =>
          simp only [List.cons_append, upToTerminal, ht, Bool.false_eq_true, if_false, ih,
            List.any_cons, Bool.false_or]
          split <;> rfl

theorem upToTerminal_of_not_any {pushed : List Event}
    (goes_on : pushed.any Event.isTerminal = false) : upToTerminal pushed = pushed := by
  have whole := upToTerminal_append pushed []
  rw [goes_on, List.append_nil] at whole
  simpa [upToTerminal] using whole

theorem upToTerminal_singleton (event : Event) : upToTerminal [event] = [event] := by
  rw [upToTerminal]
  cases event.isTerminal <;> rfl

theorem admitted_ne_nil {pushed : List Event} (some_pushed : pushed ≠ []) :
    admitted pushed ≠ [] := by
  cases pushed with
  | nil => exact absurd rfl some_pushed
  | cons event pushed =>
      rw [admitted, upToTerminal]
      cases event.isTerminal <;> exact List.cons_ne_nil _ _

theorem admitted_append_of_late {pushed : List Event} {event : Event} (late : Late pushed event) :
    admitted (pushed ++ [event]) = admitted pushed := by
  rw [admitted, admitted, upToTerminal_append]
  cases closed : pushed.any Event.isTerminal with
  | true => rfl
  | false =>
      obtain ⟨rfl, some_pushed⟩ := late.resolve_left (by rw [closed]; exact Bool.false_ne_true)
      cases pushed with
      | nil => exact absurd rfl some_pushed
      | cons first later =>
          rw [upToTerminal_of_not_any closed, upToTerminal_singleton]
          simp

theorem admitted_append_of_not_late {pushed : List Event} {event : Event}
    (timely : ¬ Late pushed event) : admitted (pushed ++ [event]) = admitted pushed ++ [event] := by
  obtain ⟨going, opening⟩ := not_or.mp timely
  have closed : pushed.any Event.isTerminal = false := Bool.eq_false_iff.mpr going
  rw [admitted, admitted, upToTerminal_append, closed, upToTerminal_of_not_any closed,
    upToTerminal_singleton]
  cases pushed with
  | nil => rfl
  | cons first later =>
      have other : event ≠ .open := fun h => opening ⟨h, List.cons_ne_nil _ _⟩
      simp [other]

namespace Shared

/-! ## The two histories -/

/-- What a deed pushes: a sink that is gone pushes nothing. -/
def pushedBy (s : Shared) : Deed → List Event
  | .push sink event => if s.isAlive sink then [event] else []
  | _ => []

/-- What a poll brings out of the queue. -/
def broughtBy : Polled (Option Event) → List Event
  | .ready (some event) => [event]
  | _ => []

/-- What a deed takes out of the queue. -/
def takenBy (s : Shared) : Deed → List Event
  | .pull _ waker | .stream waker => broughtBy (s.queue.poll waker).1
  | _ => []

/-- What deeds push, one after the other. -/
def pushed (s : Shared) : List Deed → List Event
  | [] => []
  | deed :: deeds => s.pushedBy deed ++ (s.act deed).pushed deeds

/-- What deeds take out, one after the other. -/
def taken (s : Shared) : List Deed → List Event
  | [] => []
  | deed :: deeds => s.takenBy deed ++ (s.act deed).taken deeds

/-! ## What the queue knows of its history -/

/-- The queue after a history of pushes and of events taken out. -/
structure Faithful (s : Shared) (pushed taken : List Event) : Prop where
  delivered : taken ++ s.queue.events = admitted pushed
  counted : s.queue.accepted = (admitted pushed).length
  terminated : s.queue.terminated = pushed.any Event.isTerminal

variable {s : Shared} {pushes takes : List Event}

theorem faithful_new : Faithful new [] [] :=
  ⟨rfl, rfl, rfl⟩

/-- The counter and the flag decide as the history does. -/
theorem refuses_iff (faithful : Faithful s pushes takes) (event : Event) :
    s.queue.refuses event = true ↔ Late pushes event := by
  have some_pushed : s.queue.accepted > 0 ↔ pushes ≠ [] := by
    rw [faithful.counted]
    constructor
    · rintro many rfl
      exact absurd many (Nat.lt_irrefl 0)
    · intro some_pushed
      exact List.length_pos_iff.mpr (admitted_ne_nil some_pushed)
  rw [refuses, faithful.terminated]
  simp only [Bool.or_eq_true, Bool.and_eq_true, decide_eq_true_eq, some_pushed, Late]

theorem faithful_of_late (faithful : Faithful s pushes takes) {event : Event}
    (late : Late pushes event) : Faithful s (pushes ++ [event]) takes where
  delivered := by
    rw [admitted_append_of_late late]
    exact faithful.delivered
  counted := by
    rw [admitted_append_of_late late]
    exact faithful.counted
  terminated := by
    rw [faithful.terminated, List.any_append]
    rcases late with closed | ⟨rfl, -⟩
    · rw [closed, Bool.true_or]
    · exact (Bool.or_false _).symm

theorem faithful_of_queued (faithful : Faithful s pushes takes) {event : Event}
    (timely : ¬ Late pushes event) {next : Shared}
    (events : next.queue.events = s.queue.events ++ [event])
    (count : next.queue.accepted = s.queue.accepted + 1)
    (flag : next.queue.terminated = event.isTerminal) :
    Faithful next (pushes ++ [event]) takes where
  delivered := by
    rw [admitted_append_of_not_late timely, ← faithful.delivered, events, List.append_assoc]
  counted := by
    rw [admitted_append_of_not_late timely, count, faithful.counted, List.length_append]
    rfl
  terminated := by
    have going : pushes.any Event.isTerminal = false :=
      Bool.eq_false_iff.mpr (not_or.mp timely).1
    rw [flag, List.any_append, going]
    simp

theorem faithful_push (faithful : Faithful s pushes takes) (event : Event) :
    Faithful (s.handled (s.queue.pushTaking event)) (pushes ++ [event]) takes := by
  have timely (admits : s.queue.refuses event = false) : ¬ Late pushes event := fun late =>
    absurd ((refuses_iff faithful event).mpr late) (by rw [admits]; exact Bool.false_ne_true)
  rcases s.queue.pushTaking_cases event with ⟨drops, done⟩ | ⟨admits, empty, done⟩ |
    ⟨admits, -, done⟩
  · rw [done]
    obtain ⟨delivered, counted, terminated⟩ :=
      faithful_of_late faithful ((refuses_iff faithful event).mp drops)
    exact ⟨delivered, counted, terminated⟩
  · rw [done]
    exact faithful_of_queued faithful (timely admits) (by rw [empty]; rfl) rfl rfl
  · rw [done]
    exact faithful_of_queued faithful (timely admits) rfl rfl rfl

/-- A poll takes the event that it brings from the front, and no other. -/
theorem faithful_poll (faithful : Faithful s pushes takes) (waker : Waker) :
    Faithful (s.polled waker (s.queue.poll waker)) pushes
      (takes ++ broughtBy (s.queue.poll waker).1) := by
  obtain ⟨delivered, counted, terminated⟩ := faithful
  rcases s.queue.poll_cases waker with ⟨event, events, waiting, done⟩ | ⟨-, -, done⟩ |
    ⟨-, -, done⟩
  · rw [done]
    refine ⟨?_, counted, terminated⟩
    rw [← delivered, waiting, List.append_assoc]
    rfl
  · rw [done]
    exact ⟨by rw [← delivered]; simp [broughtBy, polled], counted, terminated⟩
  · rw [done]
    exact ⟨by rw [← delivered]; simp [broughtBy, polled], counted, terminated⟩

theorem faithful_congr {next : Shared} (faithful : Faithful s pushes takes)
    (events : next.queue.events = s.queue.events)
    (count : next.queue.accepted = s.queue.accepted)
    (flag : next.queue.terminated = s.queue.terminated) : Faithful next pushes takes :=
  ⟨events ▸ faithful.delivered, count.trans faithful.counted, flag.trans faithful.terminated⟩

/-- Every deed adds to the histories what it pushes and takes, and the queue
follows. -/
theorem faithful_act (faithful : Faithful s pushes takes) (deed : Deed) :
    Faithful (s.act deed) (pushes ++ s.pushedBy deed) (takes ++ s.takenBy deed) := by
  have same : Faithful s (pushes ++ []) (takes ++ []) := by
    rw [List.append_nil, List.append_nil]
    exact faithful
  cases deed with
  | push sink event =>
      rw [act, pushedBy]
      split
      · change Faithful _ (pushes ++ [event]) (takes ++ [])
        rw [List.append_nil]
        exact faithful_push faithful event
      · exact same
  | clone sink =>
      rw [act]
      split
      · exact faithful_congr same rfl rfl rfl
      · exact same
  | drop sink =>
      rw [act]
      split
      · rcases s.queue.dropSinkTaking_cases with ⟨-, done⟩ | ⟨-, done⟩ <;> rw [done] <;>
          exact faithful_congr same rfl rfl rfl
      · exact same
  | wake waker =>
      rw [act]
      split
      · exact faithful_congr same rfl rfl rfl
      · exact same
  | pull expected waker =>
      change Faithful (s.polled waker (s.queue.next expected waker)) (pushes ++ []) _
      rw [polled_next, List.append_nil]
      exact faithful_poll faithful waker
  | stream waker =>
      change Faithful _ (pushes ++ []) _
      rw [List.append_nil]
      exact faithful_poll faithful waker
  | abandon => exact same

theorem faithful_acts (faithful : Faithful s pushes takes) (deeds : List Deed) :
    Faithful (s.acts deeds) (pushes ++ s.pushed deeds) (takes ++ s.taken deeds) := by
  induction deeds generalizing s pushes takes with
  | nil =>
      rw [pushed, taken, List.append_nil, List.append_nil]
      exact faithful
  | cons deed deeds ih =>
      rw [pushed, taken, ← List.append_assoc, ← List.append_assoc]
      exact ih (faithful_act faithful deed)

/-! ## What a pull comes to -/

/-- A queue from which nothing can come any more: it is empty, and no sink is alive. -/
structure Exhausted (s : Shared) : Prop where
  empty : s.queue.events = []
  none_alive : s.alive = 0
  uncounted : s.queue.sinks = 0

theorem not_isAlive_of_exhausted (exhausted : Exhausted s) (sink : Nat) :
    ¬ s.isAlive sink = true := fun alive =>
  absurd (alive_pos alive) (by rw [exhausted.none_alive]; exact Nat.lt_irrefl 0)

theorem poll_of_exhausted (exhausted : Exhausted s) (waker : Waker) :
    s.queue.poll waker = (.ready none, s.queue) := by
  rw [poll, exhausted.empty, if_pos exhausted.uncounted]

/-- Nobody is left to bring an exhausted queue anything. -/
theorem exhausted_act (exhausted : Exhausted s) (deed : Deed) : Exhausted (s.act deed) := by
  have dead := not_isAlive_of_exhausted exhausted
  cases deed with
  | push sink event => rwa [act, if_neg (dead sink)]
  | clone sink => rwa [act, if_neg (dead sink)]
  | drop sink => rwa [act, if_neg (dead sink)]
  | wake waker =>
      rw [act]
      split
      · exact ⟨exhausted.empty, exhausted.none_alive, exhausted.uncounted⟩
      · exact exhausted
  | pull expected waker =>
      rw [act, polled_next, poll_of_exhausted exhausted]
      exact ⟨exhausted.empty, exhausted.none_alive, exhausted.uncounted⟩
  | stream waker =>
      rw [act, poll_of_exhausted exhausted]
      exact ⟨exhausted.empty, exhausted.none_alive, exhausted.uncounted⟩
  | abandon => exact exhausted

theorem exhausted_acts (exhausted : Exhausted s) (deeds : List Deed) :
    Exhausted (s.acts deeds) := by
  induction deeds generalizing s with
  | nil => exact exhausted
  | cons deed deeds ih => exact ih (exhausted_act exhausted deed)

theorem judge_eq_ok_iff {expected : Option Event.Kind} {event : Event} :
    judge expected event = .ok event ↔ ∀ kind, expected = some kind → event.kind = kind := by
  cases expected with
  | none => exact ⟨fun _ => nofun, fun _ => rfl⟩
  | some kind =>
      by_cases pleases : event.kind = kind
      · exact ⟨fun _ _ h => pleases.trans (Option.some.inj h), fun _ => if_pos pleases⟩
      · refine ⟨fun h => ?_, fun h => absurd (h kind rfl) pleases⟩
        cases event <;> simp only [judge, if_neg pleases] at h <;> cases h

/-- However pushes, clones, drops, wakes, pulls, polls of the stream and pulls
that are given up follow each other: the events that were taken out, followed
by those in the queue, are the admitted pushes in their order.  And a pull, for
whatever kind, or a poll of the stream comes to one of three things.  It takes
the first event out, and its answer is about that event alone: the event itself
just if it is of the kind that was expected.  Or the queue is empty without a
sink, and then every pull reports that and takes nothing, whatever is done
later.  Or the queue is empty, and it has to wait. -/
theorem exactly_once (deeds : List Deed) :
    let s := new.acts deeds
    new.taken deeds ++ s.queue.events = admitted (new.pushed deeds) ∧
    ∀ expected waker,
      (∃ event events, s.queue.events = event :: events ∧
        s.takenBy (.pull expected waker) = [event] ∧
        s.queue.next expected waker =
          (.ready (judge expected event), { s.queue with events }) ∧
        (judge expected event = .ok event ↔ ∀ kind, expected = some kind → event.kind = kind) ∧
        s.queue.poll waker = (.ready (some event), { s.queue with events })) ∨
      (s.queue.events = [] ∧ s.alive = 0 ∧ ∀ later expected waker,
        let t := s.acts later
        t.queue.events = [] ∧ t.takenBy (.pull expected waker) = [] ∧
        t.queue.next expected waker =
          (.ready (.error (.connection (.connectionClosed none))), t.queue) ∧
        t.queue.poll waker = (.ready none, t.queue)) ∨
      (s.queue.events = [] ∧ 0 < s.alive ∧ s.takenBy (.pull expected waker) = [] ∧
        s.queue.next expected waker = (.waiting, { s.queue with waiter := some waker }) ∧
        s.queue.poll waker = (.waiting, { s.queue with waiter := some waker })) := by
  intro s
  have faithful : Faithful s (new.pushed deeds) (new.taken deeds) :=
    faithful_acts faithful_new deeds
  have counted : s.queue.sinks = s.alive := (wakeful_acts wakeful_new deeds).counted
  refine ⟨faithful.delivered, fun expected waker => ?_⟩
  rcases s.queue.poll_cases waker with ⟨event, events, waiting, done⟩ | ⟨empty, gone, done⟩ |
    ⟨empty, live, done⟩
  · refine .inl ⟨event, events, waiting, ?_, ?_, judge_eq_ok_iff, done⟩
    · rw [takenBy, done]
      rfl
    · rw [next, done]
      rfl
  · refine .inr (.inl ⟨empty, counted ▸ gone, fun later expected waker => ?_⟩)
    have exhausted : Exhausted (s.acts later) := exhausted_acts ⟨empty, counted ▸ gone, gone⟩ later
    have ended := poll_of_exhausted exhausted waker
    refine ⟨exhausted.empty, ?_, ?_, ended⟩
    · rw [takenBy, ended]
      rfl
    · rw [next, ended]
      rfl
  · refine .inr (.inr ⟨empty, counted ▸ live, ?_, ?_, done⟩)
    · rw [takenBy, done]
      rfl
    · rw [next, done]

/-- A second opening and what follows a close are dropped; a pull for a message
takes the opening out all the same. -/
example :
    let deeds : List Deed := [.push 0 .open, .push 0 .open, .pull (some .message) 1,
      .push 0 (.close ⟨.normal, ""⟩), .push 0 (.message [1] true)]
    new.taken deeds = [.open] ∧ (new.acts deeds).queue.events = [.close ⟨.normal, ""⟩] := by
  decide

end Shared

end DeflateTrial.Queue
