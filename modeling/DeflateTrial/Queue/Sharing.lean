/-
Sharing — a queue between its sinks and its consumer

Whoever holds a sink may push, clone it or let it go, and the consumer may
poll, all at any time: an interleaving is a list of deeds in the order in
which they get hold of the queue.  A sink that takes a waker out wakes it only
after it has let go of the queue, so until then the wake is owed and other
deeds may come between.

A deed that nobody can do, on a sink that is gone or a wake that is not owed,
changes nothing.
-/
import DeflateTrial.Queue

namespace DeflateTrial.Queue

/-- One thing that is done to a shared queue. -/
inductive Deed where
  | push (sink : Nat) (event : Event)
  | clone (sink : Nat)
  | drop (sink : Nat)
  /-- A sink wakes the waker that it has taken out. -/
  | wake (waker : Waker)
  /-- A pull for an event of a kind, or of any, is polled: for the first time or again. -/
  | pull (expected : Option Event.Kind) (waker : Waker)
  /-- The queue is polled as a stream. -/
  | stream (waker : Waker)
  /-- A pull that had to wait is given up. -/
  | abandon
deriving DecidableEq, Repr

/-- A queue with those who share it. -/
structure Shared where
  queue : Queue
  /-- Whether each sink is alive, by number. -/
  sinks : List Bool
  /-- The wakers that were taken out and are still to be woken. -/
  owed : List Waker
  /-- The waker of the consumer's last poll, if that poll had to wait and the
  waker was not woken since. -/
  asleep : Option Waker
  /-- Whether a sink has taken a waker out since the consumer's last poll. -/
  called : Bool
deriving DecidableEq, Repr

namespace Shared

/-- A new queue with its first sink, which nobody has polled. -/
def new : Shared :=
  ⟨.new, [true], [], none, false⟩

def isAlive (s : Shared) (sink : Nat) : Bool :=
  s.sinks.getD sink false

/-- How many sinks are alive. -/
def alive (s : Shared) : Nat :=
  s.sinks.count true

/-- What the queue has become under a sink's hands, and the wake that the sink
now owes, if it took a waker out. -/
def handled (s : Shared) (outcome : Queue × Option Waker) : Shared :=
  { s with
    queue := outcome.1
    owed := s.owed ++ outcome.2.toList
    called := s.called || outcome.2.isSome }

/-- What the queue has become by a poll; the consumer sleeps if it has to wait. -/
def polled {α : Type} (s : Shared) (waker : Waker) (outcome : Polled α × Queue) : Shared :=
  { s with
    queue := outcome.2
    asleep := match outcome.1 with
      | .waiting => some waker
      | .ready _ => none
    called := false }

/-- The state after a deed. -/
def act (s : Shared) : Deed → Shared
  | .push sink event => if s.isAlive sink then s.handled (s.queue.pushTaking event) else s
  | .clone sink =>
    if s.isAlive sink then { s with queue := s.queue.addSink, sinks := s.sinks ++ [true] } else s
  | .drop sink =>
    if s.isAlive sink then
      { s with sinks := s.sinks.set sink false : Shared }.handled s.queue.dropSinkTaking
    else s
  | .wake waker =>
    if waker ∈ s.owed then
      { s with
        owed := s.owed.erase waker
        asleep := if s.asleep = some waker then none else s.asleep }
    else s
  | .pull expected waker => s.polled waker (s.queue.next expected waker)
  | .stream waker => s.polled waker (s.queue.poll waker)
  | .abandon => s

/-- The state after deeds in some order. -/
def acts (s : Shared) (deeds : List Deed) : Shared :=
  deeds.foldl act s

end Shared

end DeflateTrial.Queue
