/-
Turns — all that a turn of either loop can come to

`Reads` lists the six things that a turn of the reading loop can come to, and
`Writes` the eight of the writing loop, each with what was there before it and
the session after it.  Whatever is claimed of the two loops in any order of
their turns is claimed of these.

Two histories run along: what the reading loop decodes (`decoded`) and what
arrives from the peer (`arrived`).  In any order of the steps the one is a
beginning of what the reader makes of the other (`decoded_prefix`).
-/
import DeflateTrial.Proofs.Line.Exchange
import DeflateTrial.Proofs.Message.Later
import DeflateTrial.Proofs.Message.Sending

namespace DeflateTrial.Session

variable {s next : Session} {obstacle : Option String}

/-! ## The reading loop -/

/-- What the reading loop leaves with, if an attempt makes it leave: its last
commands and its last event. -/
def farewell? : Message.Reader.Outcome → Option (List Command × Event)
  | .message (.close status) => some ([.close status, .shutdown], closeEvent status)
  | .fault fault => some ([.close (some (faultStatus fault)), .shutdown], .error fault)
  | .ended => some ([.shutdown], lostEvent)
  | .message _ | .waiting => none

theorem farewell_cases {outcome : Message.Reader.Outcome} {parting : List Command} {last : Event}
    (is : farewell? outcome = some (parting, last)) :
    (∃ status, outcome = .message (.close status) ∧ parting = [.close status, .shutdown] ∧
      last = closeEvent status) ∨
    (∃ fault, outcome = .fault fault ∧ parting = [.close (some (faultStatus fault)), .shutdown] ∧
      last = .error fault) ∨
    (outcome = .ended ∧ parting = [.shutdown] ∧ last = lostEvent) := by
  cases outcome with
  | message message =>
      cases message with
      | close status =>
          cases is
          exact .inl ⟨status, rfl, rfl, rfl⟩
      | text _ | binary _ | ping _ | pong _ => cases is
  | fault fault =>
      cases is
      exact .inr (.inl ⟨fault, rfl, rfl, rfl⟩)
  | ended =>
      cases is
      exact .inr (.inr ⟨rfl, rfl, rfl⟩)
  | waiting => cases is

/-- What a turn of the reading loop can come to. -/
inductive Reads (s : Session) : Session → Prop where
  /-- Data is told. -/
  | told {reader reader' : Message.Reader} {source : Source} {message : Message} {event : Event}
      (running : s.reading = .running reader)
      (taken : reader.next s.source = (.message message, reader', source))
      (is : message.event? = some event) :
      Reads s ({ s with reading := .running reader', source }.report event)
  /-- A ping is answered. -/
  | answered {reader reader' : Message.Reader} {source : Source} {data : Bytes}
      (running : s.reading = .running reader)
      (taken : reader.next s.source = (.message (.ping data), reader', source)) :
      Reads s ({ s with reading := .running reader', source }.command (.send (.pong data)))
  /-- A pong is passed over. -/
  | passed {reader reader' : Message.Reader} {source : Source} {data : Bytes}
      (running : s.reading = .running reader)
      (taken : reader.next s.source = (.message (.pong data), reader', source)) :
      Reads s { s with reading := .running reader', source }
  /-- The loop has read its last. -/
  | leaves {reader reader' : Message.Reader} {source : Source} {outcome : Message.Reader.Outcome}
      {parting : List Command} {last : Event} (running : s.reading = .running reader)
      (taken : reader.next s.source = (outcome, reader', source))
      (is : farewell? outcome = some (parting, last)) :
      Reads s { s with reading := .leaving parting last, source }
  /-- One of the last commands is given. -/
  | gives {command : Command} {parting : List Command} {last : Event}
      (leaving : s.reading = .leaving (command :: parting) last) :
      Reads s { s.command command with reading := .leaving parting last }
  /-- The last event is told. -/
  | ends {last : Event} (leaving : s.reading = .leaving [] last) :
      Reads s { s.report last with
        reading := .over, queue := (s.report last).queue.dropSink.1 }

theorem reads_of_readStep (h : s.readStep = some next) : s.Reads next := by
  unfold readStep at h
  split at h
  · rename_i reader running
    split at h
    · rename_i message reader' source taken
      cases h
      cases message with
      | text text => exact .told running taken rfl
      | binary data => exact .told running taken rfl
      | ping data => exact .answered running taken
      | pong data => exact .passed running taken
      | close status => exact .leaves running taken rfl
    · rename_i fault reader' source taken
      cases h
      exact .leaves running taken rfl
    · rename_i reader' source taken
      cases h
      exact .leaves running taken rfl
    · cases h
  · rename_i command parting last leaving
    cases h
    exact .gives leaving
  · rename_i last leaving
    cases h
    exact .ends leaving
  · cases h

theorem waiting_of_readStep (waits : s.readStep = none) :
    s.reading = .over ∨ ∃ reader reader' source, s.reading = .running reader ∧
      reader.next s.source = (.waiting, reader', source) := by
  unfold readStep at waits
  split at waits
  · rename_i reader running
    rcases taken : reader.next s.source with ⟨outcome, reader', source⟩
    rw [taken] at waits
    cases outcome with
    | waiting => exact .inr ⟨reader, reader', source, running, taken⟩
    | message _ | fault _ | ended => cases waits
  · cases waits
  · cases waits
  · rename_i isOver
    exact .inl isOver

theorem act_read (s : Session) :
    (s.readStep = none ∧ s.act .read = s) ∨ s.Reads (s.act .read) := by
  have is : s.act .read = s.readStep.getD s := rfl
  rw [is]
  cases stepped : s.readStep with
  | none => exact .inl ⟨rfl, rfl⟩
  | some next => exact .inr (reads_of_readStep stepped)

/-! ## The writing loop -/

/-- The message that a command asks to be sent. -/
def Command.message? : Command → Option Message
  | .send message => some message
  | .close status => some (.close status)
  | .shutdown => none

/-- When the peer's time is up, after a command. -/
def deadlineAfter (s : Session) : Command → Option Nat
  | .close _ => some (s.deadline.getD (s.now + s.patience))
  | .send _ | .shutdown => s.deadline

/-- What a turn of the writing loop can come to. -/
inductive Writes (s : Session) (obstacle : Option String) : Session → Prop where
  /-- The message of a command goes out. -/
  | sent {command : Command} {commands : List Command} {message : Message} {frame : Frame}
      {mask : Option Mask} {writer : Message.Writer} (running : s.writing = .running)
      (first : s.commands = command :: commands) (is : command.message? = some message)
      (gives : s.writer.Gives message frame mask writer) (clear : obstacle = none) :
      Writes s obstacle { s with
        commands, writer, deadline := s.deadlineAfter command
        sent := s.sent ++ [.bytes (frame.encode mask)] }
  /-- The network has something against it. -/
  | blocked {command : Command} {commands : List Command} {message : Message} {frame : Frame}
      {mask : Option Mask} {writer : Message.Writer} {what : String}
      (running : s.writing = .running) (first : s.commands = command :: commands)
      (is : command.message? = some message)
      (gives : s.writer.Gives message frame mask writer) (blocked : obstacle = some what) :
      Writes s obstacle ({ s with
        commands, writer, deadline := s.deadlineAfter command : Session }.failWriting (.io what))
  /-- A close is not needed any more. -/
  | settled {command : Command} {commands : List Command} {status : Option CloseFrame}
      (running : s.writing = .running) (first : s.commands = command :: commands)
      (is : command.message? = some (.close status)) (past : s.writer.phase ≠ .open) :
      Writes s obstacle { s with commands, deadline := s.deadlineAfter command }
  /-- A message is refused. -/
  | refused {message : Message} {commands : List Command} {fault : Fault}
      (running : s.writing = .running) (first : s.commands = .send message :: commands)
      (refused : s.writer.send message = (.error fault, s.writer)) :
      Writes s obstacle ({ s with commands }.failWriting fault)
  /-- The loop is told to end. -/
  | stopped {commands : List Command} (running : s.writing = .running)
      (first : s.commands = .shutdown :: commands) :
      Writes s obstacle { s with commands, writing := .leaving .finished }
  /-- Nobody is left to command it. -/
  | deserted (running : s.writing = .running) (idle : s.commands = [])
      (nobody : s.isCommanded = false) :
      Writes s obstacle { s with writing := .leaving .finished }
  /-- The peer's time is up. -/
  | overdue (running : s.writing = .running) (idle : s.commands = [])
      (late : s.isOverdue = true) :
      Writes s obstacle { s with writing := .leaving .timedOut }
  /-- The direction is shut down. -/
  | ends {ending : Ending} (leaving : s.writing = .leaving ending) :
      Writes s obstacle (s.endWriting ending)

theorem perform_of_message? {command : Command} {message : Message}
    (is : command.message? = some message) :
    s.perform obstacle command =
      match s.writer.send message with
      | (.ok bytes, writer) =>
        { s with writer, deadline := s.deadlineAfter command : Session }.put obstacle bytes
      | (.error fault, writer) => { s with writer : Session }.failWriting fault := by
  cases command with
  | send message' =>
      cases is
      rfl
  | close status =>
      cases is
      rfl
  | shutdown => cases is

theorem writes_perform {command : Command} {commands : List Command} {message : Message}
    (running : s.writing = .running) (first : s.commands = command :: commands)
    (is : command.message? = some message) :
    s.Writes obstacle ({ s with commands }.perform obstacle command) := by
  have comes := s.writer.comes_ask (.send message)
  rw [perform_of_message? is]
  rcases asked : s.writer.send message with ⟨answer, writer⟩
  have asked? : s.writer.ask (.send message) = (answer, writer) := asked
  rw [asked?] at comes
  cases handed : s.writer.handed (.send message) with
  | some frame =>
      obtain ⟨mask, writer', gives, -⟩ := Message.Writer.gives_of_handed handed
      obtain ⟨rfl, rfl⟩ : answer = .ok (frame.encode mask) ∧ writer = writer' :=
        Prod.mk.inj (asked.symm.trans gives.sent)
      have bytes := Frame.encode_ne_nil frame mask
      simp only [put, List.isEmpty_iff, bytes, if_false]
      cases obstacle with
      | none => exact .sent running first is gives rfl
      | some what => exact .blocked running first is gives rfl
  | none =>
      rw [handed] at comes
      cases comes with
      | refused other late =>
          cases command with
          | send message' =>
              cases is
              exact .refused running first asked
          | close status =>
              cases is
              cases other
          | shutdown => cases is
      | settled past close =>
          cases message with
          | close status => exact .settled running first is past
          | text _ => cases close
          | binary _ => cases close
          | ping _ => cases close
          | pong _ => cases close

theorem writes_of_writeStep (h : s.writeStep obstacle = some next) : s.Writes obstacle next := by
  unfold writeStep at h
  split at h
  · rename_i running
    split at h
    · rename_i command commands first
      cases h
      cases command with
      | send message => exact writes_perform running first rfl
      | close status => exact writes_perform running first rfl
      | shutdown => exact .stopped running first
    · rename_i idle
      split at h
      · rename_i nobody
        cases h
        exact .deserted running idle (Bool.not_eq_true' _ ▸ nobody)
      · split at h
        · rename_i late
          cases h
          exact .overdue running idle late
        · cases h
  · rename_i ending leaving
    cases h
    exact .ends leaving
  · cases h

theorem act_write (s : Session) (obstacle : Option String) :
    s.act (.write obstacle) = s ∨ s.Writes obstacle (s.act (.write obstacle)) := by
  have is : s.act (.write obstacle) = (s.writeStep obstacle).getD s := rfl
  rw [is]
  cases stepped : s.writeStep obstacle with
  | none => exact .inl rfl
  | some next => exact .inr (writes_of_writeStep stepped)

/-! ## What the other steps leave alone -/

theorem source_requestClose (s : Session) : s.requestClose.source = s.source := by
  unfold requestClose
  split
  · rfl
  · exact source_command ..

theorem reading_requestClose (s : Session) : s.requestClose.reading = s.reading := by
  unfold requestClose
  split
  · rfl
  · exact reading_command ..

theorem submit_eq (s : Session) (message : Message) :
    (s.submit message).2 = s.command (.send message) := by
  unfold submit
  split
  · rfl
  · rename_i takes
    rw [command, if_neg takes]

theorem reading_of_writes (h : s.Writes obstacle next) :
    next.source = s.source ∧ (next.reading = s.reading ∨
      (∃ reader, s.reading = .running reader) ∧ next.reading = .over) := by
  cases h with
  | @ends ending leaving =>
      cases ending with
      | finished => exact ⟨rfl, .inl rfl⟩
      | timedOut =>
          unfold endWriting finish cutReading report
          dsimp only
          split
          · rename_i reader running
            exact ⟨rfl, .inr ⟨⟨reader, running⟩, rfl⟩⟩
          · exact ⟨rfl, .inl rfl⟩
  | _ => exact ⟨rfl, .inl rfl⟩

/-! ## What is decoded of what arrives -/

/-- The message that an attempt brings, if it brings one. -/
def messages : Message.Reader.Outcome → List Message
  | .message message => [message]
  | .fault _ | .ended | .waiting => []

/-- What the reading loop decodes at a step. -/
def decodes (s : Session) : Action → List Message
  | .read => match s.reading with
    | .running reader => messages (reader.next s.source).1
    | .leaving .. | .over => []
  | _ => []

/-- What the reading loop decodes, step by step. -/
def decoded (s : Session) : List Action → List Message
  | [] => []
  | action :: actions => s.decodes action ++ (s.act action).decoded actions

/-- What arrives from the peer. -/
def arrived (actions : List Action) : List Outgoing :=
  actions.filterMap fun
    | .arrive incoming => some incoming
    | _ => none

/-- What is there to be decoded once some more has arrived. -/
def ahead (s : Session) (later : List Outgoing) : List Message :=
  match s.reading with
  | .running reader => (reader.readAll (Outgoing.arriveAll s.source later)).1
  | .leaving .. | .over => []

theorem ahead_of_running {reader : Message.Reader} (running : s.reading = .running reader)
    (later : List Outgoing) :
    s.ahead later = (reader.readAll (Outgoing.arriveAll s.source later)).1 := by
  rw [ahead, running]

theorem decodes_of_running {reader reader' : Message.Reader} {source : Source}
    {outcome : Message.Reader.Outcome} (running : s.reading = .running reader)
    (taken : reader.next s.source = (outcome, reader', source)) :
    s.decodes .read = messages outcome := by
  simp only [decodes, running, taken]

theorem ahead_of_message {reader reader' : Message.Reader} {source : Source} {message : Message}
    (running : s.reading = .running reader)
    (taken : reader.next s.source = (.message message, reader', source)) (later : List Outgoing) :
    s.ahead later = message :: (reader'.readAll (Outgoing.arriveAll source later)).1 := by
  rw [ahead_of_running running, Message.Reader.readAll_arriveAll taken]

theorem ahead_prefix_of_idle (source : next.source = s.source)
    (reading : next.reading = s.reading ∨ next.reading = .over) (later : List Outgoing) :
    next.ahead later <+: s.ahead later := by
  rcases reading with same | isOver
  · have kept : next.ahead later = s.ahead later := by rw [ahead, ahead, same, source]
    exact kept ▸ List.prefix_rfl
  · have nothing : next.ahead later = [] := by rw [ahead, isOver]
    exact nothing ▸ List.nil_prefix

theorem decodes_of_waiting (waits : s.readStep = none) : s.decodes .read = [] := by
  rcases waiting_of_readStep waits with isOver | ⟨reader, reader', source, running, taken⟩
  · rw [decodes, isOver]
  · rw [decodes_of_running running taken, messages]

theorem decodes_reads_prefix (reads : s.Reads next) (later : List Outgoing) :
    s.decodes .read ++ next.ahead later <+: s.ahead later := by
  -- a message that leaves the loop running is the next one ahead
  have goes_on {reader reader' : Message.Reader} {source : Source} {message : Message}
      (running : s.reading = .running reader)
      (taken : reader.next s.source = (.message message, reader', source))
      (after : next.reading = .running reader') (rest : next.source = source) :
      s.decodes .read ++ next.ahead later <+: s.ahead later := by
    rw [decodes_of_running running taken, ahead_of_message running taken, ahead_of_running after,
      rest]
    exact List.prefix_rfl
  cases reads with
  | told running taken is => exact goes_on running taken rfl rfl
  | answered running taken =>
      exact goes_on running taken (reading_command ..) (source_command ..)
  | passed running taken => exact goes_on running taken rfl rfl
  | leaves running taken is =>
      rw [decodes_of_running running taken]
      rcases farewell_cases is with ⟨status, rfl, -⟩ | ⟨fault, rfl, -⟩ | ⟨rfl, -⟩
      · rw [ahead_of_message running taken]
        exact List.prefix_append [Message.close status] _
      · exact List.nil_prefix
      · exact List.nil_prefix
  | gives leaving =>
      rw [decodes, leaving]
      exact List.nil_prefix
  | ends leaving =>
      rw [decodes, leaving]
      exact List.nil_prefix

theorem decodes_prefix (s : Session) (action : Action) (later : List Outgoing) :
    s.decodes action ++ (s.act action).ahead later <+: s.ahead (arrived [action] ++ later) := by
  cases action with
  | read =>
      rcases s.act_read with ⟨waits, same⟩ | reads
      · rw [decodes_of_waiting waits, same]
        exact List.prefix_rfl
      · exact decodes_reads_prefix reads later
  | write obstacle =>
      rcases s.act_write obstacle with same | writes
      · rw [same]
        exact List.prefix_rfl
      · obtain ⟨source, reading⟩ := reading_of_writes writes
        exact ahead_prefix_of_idle source (reading.imp_right And.right) later
  | submit message =>
      change (s.submit message).2.ahead later <+: s.ahead later
      rw [submit_eq]
      exact ahead_prefix_of_idle (source_command ..) (.inl (reading_command ..)) later
  | requestClose =>
      exact ahead_prefix_of_idle (source_requestClose s) (.inl (reading_requestClose s)) later
  | drop =>
      exact ahead_prefix_of_idle (source_requestClose s) (.inl (reading_requestClose s)) later
  | next expected => exact List.prefix_rfl
  | arrive incoming => exact List.prefix_rfl
  | elapse milliseconds => exact List.prefix_rfl

theorem decoded_append_ahead_prefix (s : Session) (actions : List Action) (later : List Outgoing) :
    s.decoded actions ++ (s.acts actions).ahead later <+: s.ahead (arrived actions ++ later) := by
  induction actions generalizing s with
  | nil => exact List.prefix_rfl
  | cons action actions ih =>
      have step := s.decodes_prefix action (arrived actions ++ later)
      have rest := (List.prefix_append_right_inj (s.decodes action)).mpr (ih (s.act action))
      have split : arrived (action :: actions) = arrived [action] ++ arrived actions := by
        rw [arrived, ← List.singleton_append, List.filterMap_append]
        rfl
      rw [split, List.append_assoc, decoded, List.append_assoc]
      exact rest.trans step

/-- The reading loop decodes, in any order of the steps, a beginning of what its
reader makes of all that arrives. -/
theorem decoded_prefix {reader : Message.Reader} (running : s.reading = .running reader)
    (actions : List Action) :
    s.decoded actions <+:
      (reader.readAll (Outgoing.arriveAll s.source (arrived actions))).1 := by
  have whole := s.decoded_append_ahead_prefix actions []
  rw [List.append_nil, ahead_of_running running] at whole
  exact (List.prefix_append _ _).trans whole

end DeflateTrial.Session
