/-
Queue — from a connection that pushes to a run that pulls

Sinks push events and never wait.  The one consumer pulls them in order and
waits while there are none; it is woken by the first push into an empty queue,
or when the last sink is dropped.  Events after a terminal one are dropped,
and so is an opening that is not the first event.
-/
import DeflateTrial.Source
import DeflateTrial.Trouble

namespace DeflateTrial

/-- What a consumer that has to wait leaves behind to be woken by.  Wakers are
told apart by their numbers. -/
abbrev Waker := Nat

/-- The state that the sinks and the consumer share. -/
structure Queue where
  /-- The events that are not yet pulled, the oldest first. -/
  events : List Event
  /-- The waker of the last poll that had to wait, until a sink takes it. -/
  waiter : Option Waker
  accepted : Nat
  terminated : Bool
  sinks : Nat
deriving DecidableEq, Repr

namespace Queue

def new : Queue :=
  ⟨[], none, 0, false, 1⟩

/-- Whether an event is dropped instead of being queued. -/
def refuses (queue : Queue) (event : Event) : Bool :=
  queue.terminated || (event = .open && queue.accepted > 0)

/-- A sink pushes an event; with the new state, the waker that it takes out to
wake.  Only a push into an empty queue takes it. -/
def pushTaking (queue : Queue) (event : Event) : Queue × Option Waker :=
  if queue.refuses event then (queue, none)
  else
    let wasEmpty := queue.events.isEmpty
    ({ queue with
        events := queue.events ++ [event]
        waiter := if wasEmpty then none else queue.waiter
        accepted := queue.accepted + 1
        terminated := event.isTerminal },
      if wasEmpty then queue.waiter else none)

/-- A sink pushes an event; with the new state, whether the consumer is woken. -/
def push (queue : Queue) (event : Event) : Queue × Bool :=
  let (queue, taken) := queue.pushTaking event
  (queue, taken.isSome)

/-- A sink is cloned. -/
def addSink (queue : Queue) : Queue :=
  { queue with sinks := queue.sinks + 1 }

/-- A sink is dropped; with the new state, the waker that it takes out to wake.
Only the last sink takes it. -/
def dropSinkTaking (queue : Queue) : Queue × Option Waker :=
  let sinks := queue.sinks - 1
  if sinks = 0 then ({ queue with sinks, waiter := none }, queue.waiter)
  else ({ queue with sinks }, none)

/-- A sink is dropped; with the new state, whether the consumer is woken. -/
def dropSink (queue : Queue) : Queue × Bool :=
  let (queue, taken) := queue.dropSinkTaking
  (queue, taken.isSome)

/-- The consumer pulls once: an event, or the end when no sink is left, or it
has to wait and leaves its waker behind, in place of an earlier one. -/
def poll (queue : Queue) (waker : Waker := 0) : Polled (Option Event) × Queue :=
  match queue.events with
  | event :: events => (.ready (some event), { queue with events })
  | [] =>
    if queue.sinks = 0 then (.ready none, queue)
    else (.waiting, { queue with waiter := some waker })

/-- How many events wait to be pulled. -/
def size (queue : Queue) : Nat :=
  queue.events.length

/-- What an event means to a consumer that expects a kind, or any. -/
def judge (expected : Option Event.Kind) (event : Event) : Except Trouble Event :=
  match expected with
  | none => .ok event
  | some kind =>
    if event.kind = kind then .ok event
    else match event with
      | .error cause => .error (.connection cause)
      | other => .error (.unexpectedEvent kind other.kind)

/-- What a pull means to a consumer that expects a kind, or any. -/
def answer (expected : Option Event.Kind) : Option Event → Except Trouble Event
  | some event => judge expected event
  | none => .error (.connection (.connectionClosed none))

/-- The consumer pulls an event of an expected kind, or of any. -/
def next (queue : Queue) (expected : Option Event.Kind) (waker : Waker := 0) :
    Polled (Except Trouble Event) × Queue :=
  match queue.poll waker with
  | (.ready pulled, queue) => (.ready (answer expected pulled), queue)
  | (.waiting, queue) => (.waiting, queue)

end Queue

end DeflateTrial
