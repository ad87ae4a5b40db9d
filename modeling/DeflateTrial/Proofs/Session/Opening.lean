/-
Opening — what a caller sees of a session from the attempt on

An attempt waits, or fails, or begins a session with what the response's head
left over (`establish_ok`).  So what is delivered to the caller is nothing yet;
or one error, and then that is what opening the session answers; or what a
session delivers, whose data are a beginning of the data messages that the
reader makes of everything behind the head (`delivered_cases`).  What came in
the same read as the head is part of that: head, leftover and what is still to
be read are the stream.
-/
import DeflateTrial.Proofs.Handshake.HeadReading
import DeflateTrial.Proofs.Session.Telling
import DeflateTrial.Session.Life

namespace DeflateTrial

open Outgoing (arriveAll)

namespace Session

/-! ## What opening answers -/

theorem opened_of_open {queue : Queue} {events : List Event}
    (first : queue.events = .open :: events) : (opened queue).1 = .ready (.ok ()) := by
  have polled : queue.poll 0 = (.ready (some .open), { queue with events }) := by
    rw [Queue.poll, first]
  simp only [opened, Queue.next, polled]
  rfl

theorem opened_of_error {queue : Queue} {fault : Fault} {events : List Event}
    (first : queue.events = .error fault :: events) :
    (opened queue).1 = .ready (.error (notOpened fault)) := by
  have polled : queue.poll 0 = (.ready (some (.error fault)), { queue with events }) := by
    rw [Queue.poll, first]
  simp only [opened, Queue.next, polled]
  rfl

/-! ## The attempt -/

theorem Attempt.establish_ok {attempt : Attempt} {source : Source} {session : Session}
    (h : attempt.establish source = .ready (.ok session)) :
    ∃ plan head leftover rest halves,
      Handshake.readHead attempt.transport.limits [] source = (.ready (.ok head), leftover, rest) ∧
      Plan.conclude plan attempt.transport.limits attempt.key attempt.seed head leftover
        attempt.compressor = .ok halves ∧
      session = start halves attempt.transport.closeTimeout rest := by
  unfold Attempt.establish at h
  split at h
  · cases h
  · rename_i plan connected
    split at h
    · cases h
    · split at h
      · cases h
      · unfold Plan.establish at h
        split at h
        · cases h
        · cases h
        · rename_i head leftover rest taken
          cases concluded : plan.conclude attempt.transport.limits attempt.key attempt.seed head
              leftover attempt.compressor with
          | error fault =>
              rw [concluded] at h
              cases h
          | ok halves =>
              rw [concluded] at h
              cases h
              exact ⟨plan, head, leftover, rest, halves, taken, concluded, rfl⟩

theorem Plan.buffer_of_conclude {plan : Plan} {limits : Limits} {key : String} {seed : UInt32}
    {head leftover : Bytes} {compressor : Deflate.Compressor} {halves : Plan.Halves}
    (h : plan.conclude limits key seed head leftover compressor = .ok halves) :
    ∃ inflater, halves.reader = .new (.new .client limits leftover) inflater := by
  unfold Plan.conclude at h
  obtain ⟨response, -, h⟩ := exists_of_bind_ok h
  obtain ⟨-, -, h⟩ := exists_of_bind_ok h
  obtain ⟨agreement, -, h⟩ := exists_of_bind_ok h
  cases h
  exact ⟨_, rfl⟩

namespace Life

/-! ## What is delivered -/

/-- What the caller pulls at a step. -/
def pulls (life : Life) : Action → List Event
  | .next _ => Queue.Shared.broughtBy (life.queue.poll 0).1
  | _ => []

/-- What the caller pulls, step by step. -/
def pulled (attempt : Attempt) (life : Life) : List Action → List Event
  | [] => []
  | action :: actions => life.pulls action ++ (life.act attempt action).pulled attempt actions

/-- The events that are delivered to the caller: what it has pulled, and what is
there to be pulled. -/
def delivered (attempt : Attempt) (life : Life) (actions : List Action) : List Event :=
  life.pulled attempt actions ++ (life.acts attempt actions).queue.events

variable {attempt : Attempt} {source : Source} {session : Session} {queue : Queue}

theorem delivered_cons (life : Life) (action : Action) (actions : List Action) :
    life.delivered attempt (action :: actions) =
      life.pulls action ++ (life.act attempt action).delivered attempt actions := by
  unfold delivered
  rw [pulled, List.append_assoc]
  rfl

theorem delivered_begun (session : Session) (actions : List Action) :
    (begun session).delivered attempt actions = session.delivered actions := by
  induction actions generalizing session with
  | nil => rfl
  | cons action actions ih =>
      have rest := ih (session.act action)
      have same : (begun session).pulls action = session.pulls action := by cases action <;> rfl
      rw [delivered_cons, same]
      change session.pulls action ++ (begun (session.act action)).delivered attempt actions = _
      rw [rest, Session.delivered, Session.delivered, Session.pulled, List.append_assoc]
      rfl

theorem delivered_failed (queue : Queue) (actions : List Action) :
    (failed queue).delivered attempt actions = queue.events := by
  induction actions generalizing queue with
  | nil => rfl
  | cons action actions ih =>
      rw [delivered_cons]
      cases action with
      | next expected =>
          change Queue.Shared.broughtBy (queue.poll 0).1 ++
            (failed (queue.next expected).2).delivered attempt actions = _
          rw [ih]
          exact (queue.brought_next expected).1
      | read | write | submit | requestClose | drop | arrive | elapse => exact ih queue

/-- What a session tells that began behind a head: the opening, a beginning of
the data that its reader makes of the stream behind the head, and perhaps a
terminal event. -/
def Tells (attempt : Attempt) (stream : Source) (delivered : List Event) : Prop :=
  ∃ plan head leftover rest inflater halves told last,
    Handshake.readHead attempt.transport.limits [] stream = (.ready (.ok head), leftover, rest) ∧
    head ++ leftover ++ rest.bytes = stream.bytes ∧
    Plan.conclude plan attempt.transport.limits attempt.key attempt.seed head leftover
      attempt.compressor = .ok halves ∧
    halves.reader = .new (.new .client attempt.transport.limits leftover) inflater ∧
    told <+: (halves.reader.readAll rest).1.filterMap Message.event? ∧
    delivered = .open :: told ++ Option.toList last ∧ ∀ event ∈ last, event.isTerminal = true

theorem tells_of_established (established : attempt.establish source = .ready (.ok session))
    (actions : List Action) :
    Tells attempt (arriveAll source (arrived actions)) (session.delivered actions) := by
  obtain ⟨plan, head, leftover, rest, halves, taken, concluded, rfl⟩ :=
    Attempt.establish_ok established
  obtain ⟨inflater, reader⟩ := Plan.buffer_of_conclude concluded
  have later := Handshake.readHead_arriveAll taken (.inl ⟨head, rfl⟩) (arrived actions)
  have decoded := decoded_prefix (s := start halves attempt.transport.closeTimeout rest) rfl actions
  obtain ⟨told, last, part, is, terminal⟩ :=
    (told_delivered halves attempt.transport.closeTimeout rest actions).shape
  exact ⟨plan, head, leftover, _, inflater, halves, _, last, later,
    Handshake.bytes_of_readHead later, concluded, reader, (part.trans decoded).filterMap _, is,
    terminal⟩

theorem delivered_cases (attempt : Attempt) (source : Source) (actions : List Action) :
    (∃ source', (opening source).acts attempt actions = opening source' ∧
      (opening source).delivered attempt actions = []) ∨
    (∃ fault, (opening source).delivered attempt actions = [.error fault]) ∨
    Tells attempt (arriveAll source (arrived actions))
      ((opening source).delivered attempt actions) := by
  induction actions generalizing source with
  | nil => exact .inl ⟨source, rfl, rfl⟩
  | cons action actions ih =>
      rw [delivered_cons]
      cases action with
      | read =>
          have step : (opening source).acts attempt (.read :: actions) =
            ((opening source).act attempt .read).acts attempt actions := rfl
          change _ ∨ _ ∨ Tells attempt (arriveAll source (arrived actions)) _
          rw [step]
          cases established : attempt.establish source with
          | waiting =>
              have waits : (opening source).act attempt .read = opening source := by
                simp only [act, established]
              rw [waits]
              exact ih source
          | ready result =>
              cases result with
              | error fault =>
                  have fails : (opening source).act attempt .read = failed (failedQueue fault) := by
                    simp only [act, established]
                  rw [fails]
                  exact .inr (.inl ⟨fault, delivered_failed _ actions⟩)
              | ok session =>
                  have begins : (opening source).act attempt .read = begun session := by
                    simp only [act, established]
                  rw [begins, delivered_begun]
                  exact .inr (.inr (tells_of_established established actions))
      | arrive incoming => exact ih (incoming.arrive source)
      | next expected => exact ih source
      | write | submit | requestClose | drop | elapse => exact ih source

/-- What a caller sees of a session, in any order of the steps of the attempt, of
the two loops, of the caller and of the peer: nothing while it is opened; or
one error, and that is what opening it answers; or the opening, a beginning of
the data behind the head, each message once and in order, and perhaps a
terminal event behind which there is nothing. -/
theorem caller_sees (attempt : Attempt) (source : Source) (actions : List Action) :
    let life := (opening source).acts attempt actions
    let delivered := (opening source).delivered attempt actions
    let answer := (opened life.queue).1
    (∃ source', life = opening source' ∧ delivered = []) ∨
    (∃ fault, delivered = [.error fault] ∧
      ((opening source).pulled attempt actions = [] →
        answer = .ready (.error (notOpened fault)))) ∨
    (Tells attempt (arriveAll source (arrived actions)) delivered ∧
      ((opening source).pulled attempt actions = [] → answer = .ready (.ok ()))) := by
  intro life delivered answer
  -- as long as nothing was pulled, what is delivered is in the queue
  have queued (none : (opening source).pulled attempt actions = []) :
      life.queue.events = delivered := by
    change _ = (opening source).pulled attempt actions ++ life.queue.events
    rw [none, List.nil_append]
  rcases delivered_cases attempt source actions with waits | ⟨fault, one⟩ | tells
  · exact .inl waits
  · exact .inr (.inl ⟨fault, one, fun none => opened_of_error ((queued none).trans one)⟩)
  · refine .inr (.inr ⟨tells, fun none => ?_⟩)
    obtain ⟨_, _, _, _, _, _, told, last, -, -, -, -, -, is, -⟩ := tells
    exact opened_of_open ((queued none).trans is)

end Life

end Session

end DeflateTrial
