/-
Waking — a consumer that sleeps has nothing to wake up for

The waiter is stored by a poll and taken out by a push into an empty queue or
by the last sink that goes.  Whatever the order of these, three things hold
together (`Wakeful`):

    the count of sinks is the number of those that are alive
    a stored waiter means an empty queue with a sink that may still push
    a consumer that sleeps has its waker stored, or somebody owes it the wake

Each deed keeps them (`wakeful_act`), so they hold after any deeds
(`wakeful_acts`), and no wakeup is lost (`no_lost_wakeup`).
-/
import DeflateTrial.Queue.Sharing

namespace DeflateTrial.Queue

/-! ## All that an operation can do -/

section Operations
variable (queue : Queue)

theorem pushTaking_cases (event : Event) :
    (queue.refuses event = true ∧ queue.pushTaking event = (queue, none)) ∨
    (queue.refuses event = false ∧ queue.events = [] ∧ queue.pushTaking event =
      ({ queue with
          events := [event]
          waiter := none
          accepted := queue.accepted + 1
          terminated := event.isTerminal },
        queue.waiter)) ∨
    (queue.refuses event = false ∧ queue.events ≠ [] ∧ queue.pushTaking event =
      ({ queue with
          events := queue.events ++ [event]
          accepted := queue.accepted + 1
          terminated := event.isTerminal },
        none)) := by
  unfold pushTaking
  cases hr : queue.refuses event with
  | true => exact .inl ⟨rfl, rfl⟩
  | false =>
      cases he : queue.events with
      | nil => exact .inr (.inl ⟨rfl, rfl, rfl⟩)
      | cons first events => exact .inr (.inr ⟨rfl, List.cons_ne_nil _ _, rfl⟩)

theorem dropSinkTaking_cases :
    (queue.sinks - 1 = 0 ∧
      queue.dropSinkTaking = ({ queue with sinks := 0, waiter := none }, queue.waiter)) ∨
    (0 < queue.sinks - 1 ∧
      queue.dropSinkTaking = ({ queue with sinks := queue.sinks - 1 }, none)) := by
  by_cases last : queue.sinks - 1 = 0
  · exact .inl ⟨last, by simp only [dropSinkTaking, last, if_true]⟩
  · exact .inr ⟨Nat.pos_of_ne_zero last, by simp only [dropSinkTaking, if_neg last]⟩

theorem poll_cases (waker : Waker) :
    (∃ event events, queue.events = event :: events ∧
      queue.poll waker = (.ready (some event), { queue with events })) ∨
    (queue.events = [] ∧ queue.sinks = 0 ∧ queue.poll waker = (.ready none, queue)) ∨
    (queue.events = [] ∧ 0 < queue.sinks ∧
      queue.poll waker = (.waiting, { queue with waiter := some waker })) := by
  unfold poll
  cases he : queue.events with
  | cons event events => exact .inl ⟨event, events, rfl, rfl⟩
  | nil =>
      by_cases left : queue.sinks = 0
      · exact .inr (.inl ⟨rfl, left, if_pos left⟩)
      · exact .inr (.inr ⟨rfl, Nat.pos_of_ne_zero left, if_neg left⟩)

end Operations

namespace Shared

/-! ## The sinks that are alive -/

variable {s : Shared}

theorem getElem?_of_isAlive {sink : Nat} (h : s.isAlive sink = true) :
    s.sinks[sink]? = some true := by
  rw [isAlive, List.getD_eq_getElem?_getD] at h
  cases hs : s.sinks[sink]? with
  | none => rw [hs] at h; cases h
  | some flag => rw [hs] at h; exact congrArg some h

theorem alive_pos {sink : Nat} (h : s.isAlive sink = true) : 0 < s.alive :=
  List.count_pos_iff.mpr (List.mem_of_getElem? (getElem?_of_isAlive h))

theorem count_set_false {sink : Nat} (h : s.isAlive sink = true) :
    (s.sinks.set sink false).count true = s.alive - 1 := by
  obtain ⟨inside, value⟩ := List.getElem?_eq_some_iff.mp (getElem?_of_isAlive h)
  rw [List.count_set inside, value]
  rfl

/-! ## What all deeds keep -/

/-- Who sleeps is cared for: its waker is stored, or a sink has taken it out and
is about to wake it. -/
def Cared (s : Shared) : Prop :=
  ∀ waker, s.asleep = some waker →
    (s.called = false ∧ s.queue.waiter = some waker) ∨ (s.called = true ∧ waker ∈ s.owed)

structure Wakeful (s : Shared) : Prop where
  counted : s.queue.sinks = s.alive
  stored : ∀ waker, s.queue.waiter = some waker → s.queue.events = [] ∧ 0 < s.queue.sinks
  cared : s.Cared

theorem wakeful_new : Wakeful new where
  counted := rfl
  stored := nofun
  cared := nofun

theorem cared_handled_none {queue : Queue} (cared : s.Cared)
    (kept : queue.waiter = s.queue.waiter) : (s.handled (queue, none)).Cared := by
  intro waker sleeps
  rcases cared waker sleeps with ⟨uncalled, waits⟩ | ⟨called, owes⟩
  · exact .inl ⟨by rw [handled, uncalled]; rfl, kept.trans waits⟩
  · exact .inr ⟨by rw [handled, called]; rfl, List.mem_append_left _ owes⟩

theorem cared_handled_waiter {queue : Queue} (cared : s.Cared) :
    (s.handled (queue, s.queue.waiter)).Cared := by
  intro waker sleeps
  rcases cared waker sleeps with ⟨-, waits⟩ | ⟨called, owes⟩
  · rw [waits]
    exact .inr ⟨Bool.or_true _, List.mem_append_right _ (List.mem_singleton_self waker)⟩
  · exact .inr ⟨by rw [handled, called]; rfl, List.mem_append_left _ owes⟩

theorem wakeful_push (wakeful : Wakeful s) (event : Event) :
    Wakeful (s.handled (s.queue.pushTaking event)) := by
  obtain ⟨counted, stored, cared⟩ := wakeful
  rcases s.queue.pushTaking_cases event with ⟨-, done⟩ | ⟨-, -, done⟩ | ⟨-, behind, done⟩
  · rw [done]
    exact ⟨counted, stored, cared_handled_none cared rfl⟩
  · rw [done]
    exact ⟨counted, nofun, cared_handled_waiter cared⟩
  · rw [done]
    refine ⟨counted, fun waker waits => ?_, cared_handled_none cared rfl⟩
    -- nobody waits where there are events
    exact absurd (stored waker waits).1 behind

theorem wakeful_clone (wakeful : Wakeful s) :
    Wakeful { s with queue := s.queue.addSink, sinks := s.sinks ++ [true] } where
  counted := by
    rw [alive, List.count_append]
    exact congrArg (· + 1) wakeful.counted
  stored waker waits := ⟨(wakeful.stored waker waits).1, Nat.succ_pos _⟩
  cared := wakeful.cared

theorem wakeful_drop (wakeful : Wakeful s) {sink : Nat} (alive : s.isAlive sink = true) :
    Wakeful ({ s with sinks := s.sinks.set sink false : Shared }.handled
      s.queue.dropSinkTaking) := by
  obtain ⟨counted, stored, cared⟩ := wakeful
  have fewer : s.queue.sinks - 1 = (s.sinks.set sink false).count true := by
    rw [count_set_false alive, counted]
  have cared' : ({ s with sinks := s.sinks.set sink false : Shared }).Cared := cared
  rcases s.queue.dropSinkTaking_cases with ⟨last, done⟩ | ⟨others, done⟩
  · rw [done]
    exact ⟨last.symm.trans fewer, nofun, cared_handled_waiter cared'⟩
  · rw [done]
    exact ⟨fewer, fun waker waits => ⟨(stored waker waits).1, others⟩,
      cared_handled_none cared' rfl⟩

theorem wakeful_wake (wakeful : Wakeful s) (waker : Waker) :
    Wakeful { s with
      owed := s.owed.erase waker
      asleep := if s.asleep = some waker then none else s.asleep } where
  counted := wakeful.counted
  stored := wakeful.stored
  cared := by
    intro sleeper sleeps
    by_cases woken : s.asleep = some waker
    · rw [if_pos woken] at sleeps
      cases sleeps
    · rw [if_neg woken] at sleeps
      -- another waker's debt is still open
      have other : sleeper ≠ waker := fun same => woken (same ▸ sleeps)
      exact (wakeful.cared sleeper sleeps).imp id (And.imp_right (List.mem_erase_of_ne other).mpr)

theorem wakeful_poll (wakeful : Wakeful s) (waker : Waker) :
    Wakeful (s.polled waker (s.queue.poll waker)) := by
  obtain ⟨counted, stored, -⟩ := wakeful
  rcases s.queue.poll_cases waker with ⟨event, events, waiting, done⟩ | ⟨-, -, done⟩ |
    ⟨empty, live, done⟩
  · rw [done]
    refine ⟨counted, fun waiter waits => ?_, nofun⟩
    exact absurd (stored waiter waits).1 (by rw [waiting]; exact List.cons_ne_nil _ _)
  · rw [done]
    exact ⟨counted, stored, nofun⟩
  · rw [done]
    exact ⟨counted, fun _ _ => ⟨empty, live⟩, fun _ sleeps => .inl ⟨rfl, sleeps⟩⟩

theorem polled_next (expected : Option Event.Kind) (waker : Waker) :
    s.polled waker (s.queue.next expected waker) = s.polled waker (s.queue.poll waker) := by
  rw [next]
  rcases s.queue.poll waker with ⟨_ | _, _⟩ <;> rfl

/-- Every deed keeps the sinks counted, the waiter stored only where there is
nothing to pull, and the sleeper cared for. -/
theorem wakeful_act (wakeful : Wakeful s) (deed : Deed) : Wakeful (s.act deed) := by
  cases deed with
  | push sink event =>
      rw [act]
      split
      · exact wakeful_push wakeful event
      · exact wakeful
  | clone sink =>
      rw [act]
      split
      · exact wakeful_clone wakeful
      · exact wakeful
  | drop sink =>
      rw [act]
      split
      · next alive => exact wakeful_drop wakeful alive
      · exact wakeful
  | wake waker =>
      rw [act]
      split
      · exact wakeful_wake wakeful waker
      · exact wakeful
  | pull expected waker =>
      rw [act, polled_next]
      exact wakeful_poll wakeful waker
  | stream waker => exact wakeful_poll wakeful waker
  | abandon => exact wakeful

theorem wakeful_acts (wakeful : Wakeful s) (deeds : List Deed) : Wakeful (s.acts deeds) := by
  induction deeds generalizing s with
  | nil => exact wakeful
  | cons deed deeds ih => exact ih (wakeful_act wakeful deed)

/-- However pushes, clones, drops, wakes and polls follow each other: a waiter
is stored only while the queue is empty.  A consumer whose last poll had to
wait, and whose waker was not woken since, has nothing to pull, a sink that is
alive and its own waker stored.  This is so whenever no sink stands between
taking a waker out and waking it; and while one does, it is so unless the waker
was taken out since that poll, and then that very waker is about to be woken.
And the count of sinks is right: it goes down by one with each sink that goes. -/
theorem no_lost_wakeup (deeds : List Deed) :
    let s := new.acts deeds
    (s.queue.waiter.isSome = true → s.queue.events = []) ∧
    (s.owed = [] → ∀ waker, s.asleep = some waker →
      s.queue.events = [] ∧ 0 < s.alive ∧ s.queue.waiter = some waker) ∧
    (∀ waker, s.asleep = some waker → s.called = false →
      s.queue.events = [] ∧ 0 < s.alive ∧ s.queue.waiter = some waker) ∧
    (∀ waker, s.asleep = some waker → s.called = true → waker ∈ s.owed) ∧
    s.queue.sinks = s.alive ∧
    (∀ sink, s.isAlive sink = true → s.queue.dropSink.1.sinks + 1 = s.queue.sinks) := by
  intro s
  obtain ⟨counted, stored, cared⟩ : Wakeful s := wakeful_acts wakeful_new deeds
  have waiting (waker : Waker) (waits : s.queue.waiter = some waker) :
      s.queue.events = [] ∧ 0 < s.alive ∧ s.queue.waiter = some waker := by
    obtain ⟨empty, live⟩ := stored waker waits
    exact ⟨empty, counted ▸ live, waits⟩
  refine ⟨fun waits => ?_, fun settled waker sleeps => ?_, fun waker sleeps uncalled => ?_,
    fun waker sleeps called => ?_, counted, fun sink alive => ?_⟩
  · obtain ⟨waker, waits⟩ := Option.isSome_iff_exists.mp waits
    exact (stored waker waits).1
  · rcases cared waker sleeps with ⟨-, waits⟩ | ⟨-, owes⟩
    · exact waiting waker waits
    · rw [settled] at owes
      cases owes
  · rcases cared waker sleeps with ⟨-, waits⟩ | ⟨called, -⟩
    · exact waiting waker waits
    · rw [uncalled] at called
      cases called
  · rcases cared waker sleeps with ⟨uncalled, -⟩ | ⟨-, owes⟩
    · rw [called] at uncalled
      cases uncalled
    · exact owes
  · have some_left : 0 < s.queue.sinks := counted ▸ alive_pos alive
    have dropped : s.queue.dropSink.1.sinks = s.queue.sinks - 1 := by
      rcases s.queue.dropSinkTaking_cases with ⟨last, done⟩ | ⟨-, done⟩
      · rw [dropSink, done, last]
      · rw [dropSink, done]
    omega

/-- Two sinks and two pulls, the first of them given up: the push takes out the
waker of the second. -/
example : new.acts [.clone 0, .pull none 3, .abandon, .pull (some .message) 4, .push 1 .open] =
    ⟨⟨[.open], none, 1, false, 2⟩, [true, true], [4], some 4, true⟩ := by decide

end Shared

end DeflateTrial.Queue
