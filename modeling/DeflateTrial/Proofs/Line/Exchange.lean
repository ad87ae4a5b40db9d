/-
Exchanges — an order becomes a request, a reply and an event

On a line whose session is open, a message that the session is ordered to send
passes through four legs: it is ordered, it is under way to the server, the
server's reply is under way to the client, the reply's event is told.  At each
leg there is one thing in one place and nothing anywhere else (`OnLeg`).  A
turn of any kind leaves the line on its leg or brings it to the next
(`onLeg_turn`), so turns in any order never bring it back; and one round of
all that is due brings it to the last (`told_round`).
-/
import DeflateTrial.Proofs.Line.Lanes

namespace DeflateTrial

/-- What a data message is told as. -/
def Message.event? : Message → Option Event
  | text s => some (.message (Bytes.ofText s) false)
  | binary data => some (.message data true)
  | _ => none

theorem Queue.push_of_event? {queue : Queue} (live : queue.terminated = false)
    {message : Message} {event : Event} (is : message.event? = some event) :
    (queue.push event).1 = { queue with
      events := queue.events ++ [event]
      waiter := if queue.events.isEmpty then none else queue.waiter
      accepted := queue.accepted + 1
      terminated := false } := by
  cases message <;> cases is <;> simp [push, pushTaking, refuses, live, Event.isTerminal]

theorem Session.readStep_of_message {s : Session} {reader reader' : Message.Reader}
    {source : Source} {message : Message} {event : Event}
    (running : s.reading = .running reader)
    (taken : reader.next s.source = (.message message, reader', source))
    (is : message.event? = some event) :
    s.readStep = some ({ s with reading := .running reader', source }.report event) := by
  rw [readStep, running]
  simp only [taken]
  cases message <;> cases is <;> rfl

namespace Line

open Message

/-- A line whose session is open and talks with an endpoint of the server. -/
structure Steady (endpoint : Endpoint) (line : Line) (commands : List Session.Command)
    (events : List Event) (up down : Lane) : Prop where
  reading : line.session.reading = .running down.reader
  writing : line.session.writing = .running
  writer : line.session.writer = up.writer
  commands : line.session.commands = commands
  held : line.session.held = true
  deadline : line.session.deadline = none
  events : line.session.queue.events = events
  live : line.session.queue.terminated = false
  sinks : line.session.queue.sinks ≠ 0
  stage : line.server.stage = .talking endpoint up.reader down.writer
  rising : Between line.server.source line.session.sent up.bytes
  falling : Between line.session.source line.server.sent down.bytes

section
variable {endpoint : Endpoint} {line : Line} {commands : List Session.Command}
  {events : List Event} {up down : Lane} {size : Nat} {message : Message}

/-! ## Turns that move nothing on -/

theorem steady_up (steady : line.Steady endpoint commands events up down) (count : Nat) :
    (line.turn (.up count)).Steady endpoint commands events up down :=
  { steady with rising := steady.rising.carried count }

theorem steady_down (steady : line.Steady endpoint commands events up down) (count : Nat) :
    (line.turn (.down count)).Steady endpoint commands events up down :=
  { steady with falling := steady.falling.carried count }

theorem steady_elapse (steady : line.Steady endpoint commands events up down)
    (milliseconds : Nat) :
    (line.turn (.elapse milliseconds)).Steady endpoint commands events up down :=
  { steady with }

theorem turn_write_of_idle (steady : line.Steady endpoint [] events up down) :
    line.turn .write = line := by
  have waits : line.session.writeStep none = none := by
    simp [Session.writeStep, steady.writing, steady.commands, Session.isCommanded, steady.held,
      Session.isOverdue, steady.deadline]
  simp only [turn, Session.act, waits, Option.getD_none]

theorem turn_serve_of_waiting (steady : line.Steady endpoint commands events up down)
    (waits : ∃ reader source, up.reader.next line.server.source = (.waiting, reader, source)) :
    line.turn .serve = line := by
  obtain ⟨reader, source, waits⟩ := waits
  have stays : line.server.step = none := by
    simp only [Server.Connection.step, steady.stage, waits]
  simp only [turn, stays, Option.getD_none]

theorem turn_read_of_waiting (steady : line.Steady endpoint commands events up down)
    (waits : ∃ reader source, down.reader.next line.session.source = (.waiting, reader, source)) :
    line.turn .read = line := by
  obtain ⟨reader, source, waits⟩ := waits
  have stays : line.session.readStep = none := by
    simp only [Session.readStep, steady.reading, waits]
  simp only [turn, Session.act, stays, Option.getD_none]

/-! ## Turns that move a message on -/

theorem steady_write (steady : line.Steady endpoint (.send message :: commands) events up down)
    (clear : up.Bears size none) (fits : message.Fits size) :
    ∃ up', (line.turn .write).Steady endpoint commands events up' down ∧
      up'.Bears size (some message) := by
  obtain ⟨bytes, writer, sent, given, bears⟩ := Lane.bears_send clear fits
  refine ⟨_, ?_, bears⟩
  have moved : line.session.act (.write none) =
      { line.session with commands, writer, sent := line.session.sent ++ [.bytes bytes] } := by
    simp [Session.act, Session.writeStep, steady.writing, steady.commands, Session.perform,
      steady.writer, sent, Session.put, given]
  simp only [turn, moved]
  exact { steady with
    writer := rfl
    commands := rfl
    rising := steady.rising.append bytes }

theorem steady_serve (steady : line.Steady endpoint commands events up down)
    (bears : up.Bears size (some message)) (clear : down.Bears size none)
    (data : message.isControl = false) (fits : (endpoint.reply message).Fits size) :
    (Outgoing.allBytes line.session.sent ≠ [] ∧ line.turn .serve = line) ∨
      ∃ up' down', (line.turn .serve).Steady endpoint commands events up' down' ∧
        up'.Bears size none ∧ down'.Bears size (some (endpoint.reply message)) := by
  obtain ⟨missing, waits⟩ | ⟨reader, source, taken, clear', between⟩ :=
    Lane.next_of_bears bears steady.rising
  · exact .inl ⟨missing, turn_serve_of_waiting steady waits⟩
  · obtain ⟨bytes, writer, sent, given, bears'⟩ := Lane.bears_send clear fits
    refine .inr ⟨_, _, ?_, clear', bears'⟩
    have moved : line.server.step = some { line.server with
        source
        sent := line.server.sent ++ [.bytes bytes]
        stage := .talking endpoint reader writer } := by
      rw [Server.Connection.step_of_message steady.stage taken]
      cases message with
      | text s =>
          simp [Server.Connection.takeMessage, Server.Connection.say, sent,
            Server.Connection.put, given]
      | binary data =>
          simp [Server.Connection.takeMessage, Server.Connection.say, sent,
            Server.Connection.put, given]
      | ping _ => cases data
      | pong _ => cases data
      | close _ => cases data
    simp only [turn, moved, Option.getD_some]
    exact { steady with
      stage := rfl
      rising := between
      falling := steady.falling.append bytes }

theorem steady_read (steady : line.Steady endpoint commands events up down)
    (bears : down.Bears size (some message)) {event : Event}
    (is : message.event? = some event) :
    (Outgoing.allBytes line.server.sent ≠ [] ∧ line.turn .read = line) ∨
      ∃ down', (line.turn .read).Steady endpoint commands (events ++ [event]) up down' ∧
        down'.Bears size none := by
  obtain ⟨missing, waits⟩ | ⟨reader, source, taken, clear, between⟩ :=
    Lane.next_of_bears bears steady.falling
  · exact .inl ⟨missing, turn_read_of_waiting steady waits⟩
  · refine .inr ⟨_, ?_, clear⟩
    have told := Session.readStep_of_message steady.reading taken is
    have queued := Queue.push_of_event? steady.live is
    simp only [turn, Session.act, told, Option.getD_some]
    exact { steady with
      reading := rfl
      events := by rw [Session.report, queued, ← steady.events]
      live := by rw [Session.report, queued]
      sinks := by
        rw [Session.report, queued]
        exact steady.sinks
      falling := between }

end

/-! ## Legs -/

/-- A message that can be asked and answered on a line to an endpoint. -/
structure Asks (endpoint : Endpoint) (size : Nat) (request : Message) (event : Event) : Prop where
  data : request.isControl = false
  fits : request.Fits size
  reply : (endpoint.reply request).Fits size
  event : (endpoint.reply request).event? = some event

/-- The four legs of an exchange: the request is ordered, the request is under
way, the reply is under way, the reply is told. -/
inductive OnLeg (endpoint : Endpoint) (size : Nat) (request : Message) (event : Event) :
    (leg : Nat) → Line → Prop
  | ordered {line : Line} {up down : Lane}
      (steady : line.Steady endpoint [.send request] [] up down)
      (up_clear : up.Bears size none) (down_clear : down.Bears size none) :
      OnLeg endpoint size request event 0 line
  | rising {line : Line} {up down : Lane} (steady : line.Steady endpoint [] [] up down)
      (bears : up.Bears size (some request)) (down_clear : down.Bears size none) :
      OnLeg endpoint size request event 1 line
  | falling {line : Line} {up down : Lane} (steady : line.Steady endpoint [] [] up down)
      (up_clear : up.Bears size none) (bears : down.Bears size (some (endpoint.reply request))) :
      OnLeg endpoint size request event 2 line
  | told {line : Line} {up down : Lane} (steady : line.Steady endpoint [] [event] up down)
      (up_clear : up.Bears size none) (down_clear : down.Bears size none) :
      OnLeg endpoint size request event 3 line

section
variable {endpoint : Endpoint} {size : Nat} {request : Message} {event : Event} {leg : Nat}
  {line : Line}

theorem onLeg_write (asks : Asks endpoint size request event)
    (on : OnLeg endpoint size request event leg line) :
    OnLeg endpoint size request event (max 1 leg) (line.turn .write) := by
  cases on with
  | ordered steady up_clear down_clear =>
      obtain ⟨up', steady', bears⟩ := steady_write steady up_clear asks.fits
      exact .rising steady' bears down_clear
  | rising steady bears down_clear =>
      rw [turn_write_of_idle steady]
      exact .rising steady bears down_clear
  | falling steady up_clear bears =>
      rw [turn_write_of_idle steady]
      exact .falling steady up_clear bears
  | told steady up_clear down_clear =>
      rw [turn_write_of_idle steady]
      exact .told steady up_clear down_clear

theorem onLeg_serve (asks : Asks endpoint size request event)
    (on : OnLeg endpoint size request event leg line) :
    OnLeg endpoint size request event leg (line.turn .serve) ∧
        (Outgoing.allBytes line.session.sent ≠ [] ∨ leg ≠ 1) ∨
      leg = 1 ∧ OnLeg endpoint size request event 2 (line.turn .serve) := by
  cases on with
  | ordered steady up_clear down_clear =>
      rw [turn_serve_of_waiting steady (Lane.next_of_clear up_clear steady.rising)]
      exact .inl ⟨.ordered steady up_clear down_clear, .inr nofun⟩
  | rising steady bears down_clear =>
      obtain ⟨missing, same⟩ | ⟨up', down', steady', clear, bears'⟩ :=
        steady_serve steady bears down_clear asks.data asks.reply
      · rw [same]
        exact .inl ⟨.rising steady bears down_clear, .inl missing⟩
      · exact .inr ⟨rfl, .falling steady' clear bears'⟩
  | falling steady up_clear bears =>
      rw [turn_serve_of_waiting steady (Lane.next_of_clear up_clear steady.rising)]
      exact .inl ⟨.falling steady up_clear bears, .inr nofun⟩
  | told steady up_clear down_clear =>
      rw [turn_serve_of_waiting steady (Lane.next_of_clear up_clear steady.rising)]
      exact .inl ⟨.told steady up_clear down_clear, .inr nofun⟩

theorem onLeg_read (asks : Asks endpoint size request event)
    (on : OnLeg endpoint size request event leg line) :
    OnLeg endpoint size request event leg (line.turn .read) ∧
        (Outgoing.allBytes line.server.sent ≠ [] ∨ leg ≠ 2) ∨
      leg = 2 ∧ OnLeg endpoint size request event 3 (line.turn .read) := by
  cases on with
  | ordered steady up_clear down_clear =>
      rw [turn_read_of_waiting steady (Lane.next_of_clear down_clear steady.falling)]
      exact .inl ⟨.ordered steady up_clear down_clear, .inr nofun⟩
  | rising steady bears down_clear =>
      rw [turn_read_of_waiting steady (Lane.next_of_clear down_clear steady.falling)]
      exact .inl ⟨.rising steady bears down_clear, .inr nofun⟩
  | falling steady up_clear bears =>
      obtain ⟨missing, same⟩ | ⟨down', steady', clear⟩ := steady_read steady bears asks.event
      · rw [same]
        exact .inl ⟨.falling steady up_clear bears, .inl missing⟩
      · exact .inr ⟨rfl, .told steady' up_clear clear⟩
  | told steady up_clear down_clear =>
      rw [turn_read_of_waiting steady (Lane.next_of_clear down_clear steady.falling)]
      exact .inl ⟨.told steady up_clear down_clear, .inr nofun⟩

theorem onLeg_of_steady {line' : Line}
    (kept : ∀ commands events up down, line.Steady endpoint commands events up down →
      line'.Steady endpoint commands events up down)
    (on : OnLeg endpoint size request event leg line) :
    OnLeg endpoint size request event leg line' := by
  cases on with
  | ordered steady up_clear down_clear =>
      exact .ordered (kept _ _ _ _ steady) up_clear down_clear
  | rising steady bears down_clear => exact .rising (kept _ _ _ _ steady) bears down_clear
  | falling steady up_clear bears => exact .falling (kept _ _ _ _ steady) up_clear bears
  | told steady up_clear down_clear => exact .told (kept _ _ _ _ steady) up_clear down_clear

theorem onLeg_turn (asks : Asks endpoint size request event)
    (on : OnLeg endpoint size request event leg line) (turn : Turn) :
    ∃ leg', leg ≤ leg' ∧ OnLeg endpoint size request event leg' (line.turn turn) := by
  cases turn with
  | write => exact ⟨_, Nat.le_max_right .., onLeg_write asks on⟩
  | serve =>
      obtain ⟨same, -⟩ | ⟨rfl, next⟩ := onLeg_serve asks on
      · exact ⟨leg, Nat.le_refl _, same⟩
      · exact ⟨2, by decide, next⟩
  | read =>
      obtain ⟨same, -⟩ | ⟨rfl, next⟩ := onLeg_read asks on
      · exact ⟨leg, Nat.le_refl _, same⟩
      · exact ⟨3, by decide, next⟩
  | up count =>
      exact ⟨leg, Nat.le_refl _, onLeg_of_steady (fun _ _ _ _ h => steady_up h count) on⟩
  | down count =>
      exact ⟨leg, Nat.le_refl _, onLeg_of_steady (fun _ _ _ _ h => steady_down h count) on⟩
  | elapse milliseconds =>
      exact ⟨leg, Nat.le_refl _, onLeg_of_steady (fun _ _ _ _ h => steady_elapse h milliseconds) on⟩

theorem onLeg_turns (asks : Asks endpoint size request event)
    (on : OnLeg endpoint size request event leg line) (turns : List Turn) :
    ∃ leg', leg ≤ leg' ∧ OnLeg endpoint size request event leg' (line.turns turns) := by
  induction turns generalizing leg line with
  | nil => exact ⟨leg, Nat.le_refl _, on⟩
  | cons turn turns ih =>
      obtain ⟨middle, le, on'⟩ := onLeg_turn asks on turn
      obtain ⟨last, le', on''⟩ := ih on'
      exact ⟨last, Nat.le_trans le le', on''⟩

theorem leg_le (on : OnLeg endpoint size request event leg line) : leg ≤ 3 := by
  cases on <;> decide

/-- Whatever leg a line is on, a round brings it to the last. -/
theorem told_round (asks : Asks endpoint size request event)
    (on : OnLeg endpoint size request event leg line) :
    OnLeg endpoint size request event 3 line.round := by
  have written := onLeg_write asks on
  have arrived : OnLeg endpoint size request event (max 1 leg) (line.turn .write).allUp :=
    onLeg_of_steady (fun _ _ _ _ h => steady_up h _) written
  have none_up : Outgoing.allBytes (line.turn .write).allUp.session.sent = [] :=
    allBytes_carry ..
  obtain ⟨leg', answered, served⟩ : ∃ leg', 2 ≤ leg' ∧
      OnLeg endpoint size request event leg' ((line.turn .write).allUp.turn .serve) := by
    obtain ⟨same, missing | other⟩ | ⟨-, next⟩ := onLeg_serve asks arrived
    · exact absurd none_up missing
    · exact ⟨_, by omega, same⟩
    · exact ⟨2, Nat.le_refl 2, next⟩
  have returned : OnLeg endpoint size request event leg'
      ((line.turn .write).allUp.turn .serve).allDown :=
    onLeg_of_steady (fun _ _ _ _ h => steady_down h _) served
  have none_down :
      Outgoing.allBytes ((line.turn .write).allUp.turn .serve).allDown.server.sent = [] :=
    allBytes_carry ..
  obtain ⟨same, missing | other⟩ | ⟨-, next⟩ := onLeg_read asks returned
  · exact absurd none_down missing
  · have last : leg' = 3 := by
      have := leg_le served
      omega
    rw [← last]
    exact same
  · exact next

/-! ## What the caller sees -/

/-- A line on which nothing is due. -/
def Idle (endpoint : Endpoint) (size : Nat) (line : Line) : Prop :=
  ∃ up down, line.Steady endpoint [] [] up down ∧ up.Bears size none ∧ down.Bears size none

theorem idle_turn (idle : line.Idle endpoint size) (turn : Turn) :
    (line.turn turn).Idle endpoint size := by
  obtain ⟨up, down, steady, up_clear, down_clear⟩ := idle
  cases turn with
  | write =>
      rw [turn_write_of_idle steady]
      exact ⟨up, down, steady, up_clear, down_clear⟩
  | serve =>
      rw [turn_serve_of_waiting steady (Lane.next_of_clear up_clear steady.rising)]
      exact ⟨up, down, steady, up_clear, down_clear⟩
  | read =>
      rw [turn_read_of_waiting steady (Lane.next_of_clear down_clear steady.falling)]
      exact ⟨up, down, steady, up_clear, down_clear⟩
  | up count => exact ⟨up, down, steady_up steady count, up_clear, down_clear⟩
  | down count => exact ⟨up, down, steady_down steady count, up_clear, down_clear⟩
  | elapse milliseconds =>
      exact ⟨up, down, steady_elapse steady milliseconds, up_clear, down_clear⟩

theorem idle_turns (idle : line.Idle endpoint size) (turns : List Turn) :
    (line.turns turns).Idle endpoint size := by
  induction turns generalizing line with
  | nil => exact idle
  | cons turn turns ih => exact ih (idle_turn idle turn)

theorem send_of_idle (idle : line.Idle endpoint size) (payload : Bytes) (event : Event) :
    ∃ line', line.send payload = .ok line' ∧
      OnLeg endpoint size (.binary payload) event 0 line' := by
  obtain ⟨up, down, steady, up_clear, down_clear⟩ := idle
  have takes : line.session.takesCommands = true := by
    rw [Session.takesCommands, steady.writing]
  refine ⟨{ line with session := line.session.command (.send (.binary payload)) }, ?_,
    .ordered ?_ up_clear down_clear⟩
  · rw [send, Session.submit, if_pos takes]
  · rw [Session.command, if_pos takes]
    exact { steady with commands := by rw [steady.commands, List.nil_append] }

theorem pull_of_onLeg {kind : Event.Kind} (is : event.kind = kind)
    (on : OnLeg endpoint size request event leg line) :
    (leg < 3 ∧ line.pull kind = .waiting) ∨
      ∃ line', line.pull kind = .ready (.ok (event, line')) ∧ line'.Idle endpoint size := by
  have waits {commands : List Session.Command} {up down : Lane}
      (steady : line.Steady endpoint commands [] up down) : line.pull kind = .waiting := by
    simp [pull, Session.next, Queue.next, Queue.poll, steady.events, steady.sinks]
  cases on with
  | ordered steady _ _ => exact .inl ⟨by decide, waits steady⟩
  | rising steady _ _ => exact .inl ⟨by decide, waits steady⟩
  | falling steady _ _ => exact .inl ⟨by decide, waits steady⟩
  | @told _ up down steady up_clear down_clear =>
      refine .inr ⟨{ line with session := { line.session with
        queue := { line.session.queue with events := [] } } }, ?_, up, down,
        { steady with events := rfl }, up_clear, down_clear⟩
      simp [pull, Session.next, Queue.next, Queue.poll, steady.events, Queue.answer, Queue.judge,
        is]

/-- Whatever happens while the caller waits, the event of an exchange comes,
and leaves the line idle. -/
theorem await_of_onLeg (asks : Asks endpoint size request event) {kind : Event.Kind}
    (is : event.kind = kind) (on : OnLeg endpoint size request event leg line)
    (turns : List Turn) :
    ∃ line', line.await turns kind = .ok (event, line') ∧ line'.Idle endpoint size := by
  obtain ⟨leg', -, on'⟩ := onLeg_turns asks on turns
  obtain ⟨-, waits⟩ | ⟨line', pulled, idle⟩ := pull_of_onLeg is on'
  · obtain ⟨before, -⟩ | ⟨line', pulled, idle⟩ := pull_of_onLeg is (told_round asks on')
    · exact absurd before (Nat.lt_irrefl 3)
    · refine ⟨line', ?_, idle⟩
      simp only [await, waits, pulled]
  · refine ⟨line', ?_, idle⟩
    simp only [await, pulled]

end

end Line

end DeflateTrial
