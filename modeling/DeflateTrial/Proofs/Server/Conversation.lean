/-
Conversations — everything that the reference server says

After the opening the server hears messages until the first close, or until
the stream comes to something else than a message (`Reader.heard`).  What it
says is then settled: the replies that are due for what it heard, each once and
in order, and a parting.  This is so however what the client sends is cut, and
whenever its pieces arrive (`converses`).

Two things carry it.  A turn of the server does not depend on what arrives
later (`step_arriveAll`), so all that arrives may as well have been there from
the start (`settle_happenAll`).  And no reply is refused: what was heard kept
to the limits, a digest has 32 bytes, and the writer is open until the parting
(`gives_of_due`).
-/
import DeflateTrial.Proofs.Message.Later
import DeflateTrial.Proofs.Message.Sending
import DeflateTrial.Server.Conversation

namespace DeflateTrial

open Message (Sent given given_append)
open Outgoing (arriveAll InTime)

namespace Message.Reader

/-! ## What is heard -/

/-- The messages before the first close, and what comes in place of the next. -/
def untilClose : List Message → Outcome → List Message × Outcome
  | [], last => ([], last)
  | .close status :: _, _ => ([], .message (.close status))
  | message :: messages, last =>
    let (before, last) := untilClose messages last
    (message :: before, last)

/-- What is read of a stream up to the first close, and what the stream comes
to then. -/
def heard (reader : Reader) (source : Source) : List Message × Outcome :=
  untilClose (reader.readAll source).1 (reader.readAll source).2

variable {reader reader' : Reader} {source source' : Source}

theorem heard_of_message {message : Message}
    (taken : reader.next source = (.message message, reader', source'))
    (other : ∀ status, message ≠ .close status) :
    reader.heard source = (message :: (reader'.heard source').1, (reader'.heard source').2) := by
  unfold heard
  rw [readAll_of_message taken]
  cases message with
  | close status => exact absurd rfl (other status)
  | text _ => rfl
  | binary _ => rfl
  | ping _ => rfl
  | pong _ => rfl

theorem heard_of_close {status : Option CloseFrame}
    (taken : reader.next source = (.message (.close status), reader', source')) :
    reader.heard source = ([], .message (.close status)) := by
  unfold heard
  rw [readAll_of_message taken]
  rfl

theorem heard_of_none {outcome : Outcome}
    (taken : reader.next source = (outcome, reader', source'))
    (none : ∀ message, outcome ≠ .message message) : reader.heard source = ([], outcome) := by
  unfold heard
  rw [readAll_of_none taken none]
  rfl

end Message.Reader

namespace Server

/-! ## What is due -/

/-- The replies that are due for a message before the close. -/
def due : Endpoint → Message → List Message
  | .echo, .text s => [.text s]
  | .echo, .binary data => [.binary data]
  | .digest, .text s => [.text (Digest.Md5.hex (Bytes.ofText s))]
  | .digest, .binary data => [.text (Digest.Md5.hex data)]
  | _, .ping data => [.pong data]
  | _, .pong _ | _, .close _ => []

/-- What is said last, by what the stream came to. -/
def parting : Message.Reader.Outcome → List Message
  | .message (.close status) => [.close status]
  | .fault fault => [.close (some ⟨.forFault fault, ""⟩)]
  | .message _ | .ended | .waiting => []

/-- The end of the direction, unless the stream may go on. -/
def ending : Message.Reader.Outcome → List Outgoing
  | .waiting => []
  | .message _ | .fault _ | .ended => [.fin]

theorem within_of_due {endpoint : Endpoint} {message reply : Message} {size : Nat}
    (within : message.Within size) (room : 32 ≤ size) (is : reply ∈ due endpoint message) :
    reply.Within size := by
  have digest (data : Bytes) : (Message.text (Digest.Md5.hex data)).Within size := by
    rw [Message.Within, Digest.Md5.length_ofText_hex]
    exact room
  cases message with
  | text s =>
      cases endpoint with
      | digest => exact List.mem_singleton.mp is ▸ digest _
      | echo => exact List.mem_singleton.mp is ▸ within
  | binary data =>
      cases endpoint with
      | digest => exact List.mem_singleton.mp is ▸ digest _
      | echo => exact List.mem_singleton.mp is ▸ within
  | ping data =>
      obtain rfl : reply = .pong data := by cases endpoint <;> exact List.mem_singleton.mp is
      exact within
  | pong data => cases endpoint <;> cases is
  | close status => cases endpoint <;> cases is

/-- What happens at a connection. -/
inductive Moment where
  /-- The server takes a turn, if it need not wait. -/
  | serve
  | arrive (incoming : Outgoing)
deriving DecidableEq, Repr

/-- What arrives in some moments. -/
def arrivals (moments : List Moment) : List Outgoing :=
  moments.filterMap fun
    | .serve => none
    | .arrive incoming => some incoming

namespace Connection

variable {c next : Connection}

/-! ## Settling, whenever things arrive -/

theorem settle_of_step (h : c.step = some next) : c.settle = next.settle := by
  rw [settle]
  split <;> simp_all

theorem settle_of_none (h : c.step = none) : c.settle = c := by
  rw [settle]
  split <;> simp_all

theorem source_finish (c : Connection) : c.finish.source = c.source := rfl

theorem source_takeHead (c : Connection) (head leftover : Bytes) :
    (c.takeHead head leftover).source = c.source := by
  simp only [takeHead]
  split
  · rfl
  · split
    · rw [source_finish, source_put]
    · exact source_put ..

theorem source_say (c : Connection) (endpoint : Endpoint) (reader : Message.Reader)
    (writer : Message.Writer) (message : Message) :
    (c.say endpoint reader writer message).source = c.source := by
  unfold say
  split
  · exact source_put ..
  · rfl

theorem source_takeMessage (c : Connection) (endpoint : Endpoint) (reader : Message.Reader)
    (writer : Message.Writer) (message : Message) :
    (c.takeMessage endpoint reader writer message).source = c.source := by
  cases message with
  | text s => exact source_say ..
  | binary data => exact source_say ..
  | ping data => exact source_say ..
  | pong data => rfl
  | close status => exact source_put ..

/-- A connection that more has arrived at. -/
def arriveAll (c : Connection) (later : List Outgoing) : Connection :=
  { c with source := Outgoing.arriveAll c.source later }

def happen (c : Connection) : Moment → Connection
  | .serve => c.step.getD c
  | .arrive incoming => c.arrive incoming

/-- A connection after some moments. -/
def happenAll (c : Connection) (moments : List Moment) : Connection :=
  moments.foldl happen c

section
variable (c) (source : Source) (later : List Outgoing)

theorem arriveAll_put (bytes : Bytes) :
    (c.put bytes).arriveAll later = (c.arriveAll later).put bytes := by
  unfold put
  split <;> rfl

theorem arriveAll_takeHead (head leftover : Bytes) :
    (c.takeHead head leftover).arriveAll later = (c.arriveAll later).takeHead head leftover := by
  simp only [takeHead, show (c.arriveAll later).server = c.server from rfl]
  generalize c.server.answer head = answer
  cases written : answer.text? with
  | none => rfl
  | some text =>
      have put := c.arriveAll_put later (Bytes.ofText text)
      cases answer with
      | refuse status reason => exact congrArg finish put
      | grant endpoint agreement response =>
          simp only [← put]
          rfl

theorem arriveAll_say (endpoint : Endpoint) (reader : Message.Reader) (writer : Message.Writer)
    (message : Message) :
    (c.say endpoint reader writer message).arriveAll later =
      (c.arriveAll later).say endpoint reader writer message := by
  unfold say
  split
  · rename_i bytes writer' sent
    have put := c.arriveAll_put later bytes
    simp only [← put]
    rfl
  · rfl

theorem arriveAll_takeMessage (endpoint : Endpoint) (reader : Message.Reader)
    (writer : Message.Writer) (message : Message) :
    (c.takeMessage endpoint reader writer message).arriveAll later =
      (c.arriveAll later).takeMessage endpoint reader writer message := by
  cases message with
  | text s => exact c.arriveAll_say later ..
  | binary data => exact c.arriveAll_say later ..
  | ping data => exact c.arriveAll_say later ..
  | pong data => rfl
  | close status => exact congrArg finish (c.arriveAll_put later _)

theorem arriveAll_takeFault (writer : Message.Writer) (fault : Fault) :
    (c.takeFault writer fault).arriveAll later = (c.arriveAll later).takeFault writer fault :=
  congrArg finish (c.arriveAll_put later _)

end

theorem step_arriveAll (h : c.step = some next) {later : List Outgoing}
    (inTime : InTime c.source later) :
    (c.arriveAll later).step = some (next.arriveAll later) := by
  match later with
  | [] => exact h
  | incoming :: later =>
      have live : c.source.ended = false := inTime.1
      have server : (c.arriveAll (incoming :: later)).server = c.server := rfl
      have stage : (c.arriveAll (incoming :: later)).stage = c.stage := rfl
      have source : (c.arriveAll (incoming :: later)).source =
        Outgoing.arriveAll c.source (incoming :: later) := rfl
      unfold step at h ⊢
      rw [server, stage, source]
      split at h
      · rename_i buffer opening
        split at h
        · rename_i head leftover rest taken
          cases h
          simp only [opening, Handshake.readHead_arriveAll taken (.inr live), arriveAll_takeHead]
          rfl
        · rename_i fault left rest taken
          cases h
          simp only [opening, Handshake.readHead_arriveAll taken (.inr live)]
          rfl
        · cases h
      · rename_i endpoint reader writer talking
        split at h
        · rename_i message reader' rest taken
          cases h
          simp only [talking, Message.Reader.next_arriveAll taken (.inl ⟨message, rfl⟩),
            arriveAll_takeMessage]
          rfl
        · rename_i fault reader' rest taken
          cases h
          simp only [talking, Message.Reader.next_arriveAll taken (.inr ⟨live, nofun⟩),
            arriveAll_takeFault]
          rfl
        · rename_i reader' rest taken
          cases h
          simp only [talking, Message.Reader.next_arriveAll taken (.inr ⟨live, nofun⟩)]
          rfl
        · cases h
      · cases h

theorem ended_of_step (h : c.step = some next) : next.source.ended = c.source.ended := by
  unfold step at h
  split at h
  · split at h
    · rename_i head leftover rest taken
      cases h
      rw [source_takeHead]
      exact Handshake.ended_of_readHead taken
    · rename_i fault left rest taken
      cases h
      exact Handshake.ended_of_readHead taken
    · cases h
  · split at h
    · rename_i message reader rest taken
      cases h
      rw [source_takeMessage]
      exact Message.Reader.ended_of_next taken
    · rename_i fault reader rest taken
      cases h
      rw [takeFault, source_finish, source_put]
      exact Message.Reader.ended_of_next taken
    · rename_i reader rest taken
      cases h
      exact Message.Reader.ended_of_next taken
    · cases h
  · cases h

/-- All that arrives may as well have been there from the start. -/
theorem settle_happenAll {moments : List Moment} (inTime : InTime c.source (arrivals moments)) :
    (c.happenAll moments).settle = (c.arriveAll (arrivals moments)).settle := by
  induction moments generalizing c with
  | nil => rfl
  | cons moment moments ih =>
      cases moment with
      | serve =>
          have inTime : InTime c.source (arrivals moments) := inTime
          change ((c.step.getD c).happenAll moments).settle =
            (c.arriveAll (arrivals moments)).settle
          cases stepped : c.step with
          | none => exact ih inTime
          | some next =>
              rw [settle_of_step (step_arriveAll stepped inTime)]
              exact ih (inTime.congr (ended_of_step stepped))
      | arrive incoming => exact ih inTime.2

/-! ## The turns of a conversation -/

/-- A conversation that may go on: the writer is open, has room for a digest,
and sends whatever the reader brings. -/
structure Apt (reader : Message.Reader) (writer : Message.Writer) : Prop where
  role : writer.frames.role = .server
  phase : writer.phase = .open
  room : 32 ≤ writer.limits.messageSize
  limits : reader.assembler.limits = writer.limits

variable {endpoint : Endpoint} {reader reader' : Message.Reader} {writer : Message.Writer}
  {message : Message} {rest : Source}

theorem apt_talk {server : Server} {agreement : Option Extension.Agreement} {leftover : Bytes}
    {compressor : Deflate.Compressor} (room : 32 ≤ server.transport.limits.messageSize)
    (began : talk server endpoint agreement leftover compressor = .talking endpoint reader writer) :
    Apt reader writer := by
  cases began
  exact ⟨rfl, rfl, room, rfl⟩

theorem gives_of_due (apt : Apt reader writer) {source : Source}
    (taken : reader.next source = (.message message, reader', rest)) :
    ∃ frames next, writer.Sends (due endpoint message) frames next ∧ Apt reader' next := by
  obtain ⟨within, same⟩ := Message.Reader.within_of_next taken
  have one {reply : Message} (is : due endpoint message = [reply]) (other : reply.opcode ≠ .close) :
      ∃ frames next, writer.Sends (due endpoint message) frames next ∧ Apt reader' next := by
    have small : reply.Within writer.limits.messageSize :=
      within_of_due (apt.limits ▸ within) apt.room (is ▸ List.mem_singleton_self reply)
    obtain ⟨frame, mask, next, gives, kept⟩ := Message.Writer.gives_of_within apt.phase small
    rw [is]
    refine ⟨[(frame, mask)], next, .one gives (.none next), kept.role.trans apt.role, ?_, ?_, ?_⟩
    · rw [kept.phase, if_neg other]
    · rw [kept.limits]
      exact apt.room
    · rw [same, kept.limits]
      exact apt.limits
  have no (is : due endpoint message = []) :
      ∃ frames next, writer.Sends (due endpoint message) frames next ∧ Apt reader' next := by
    rw [is]
    exact ⟨[], writer, .none writer, { apt with limits := same.trans apt.limits }⟩
  cases message with
  | text s => cases endpoint <;> exact one rfl nofun
  | binary data => cases endpoint <;> exact one rfl nofun
  | ping data => cases endpoint <;> exact one rfl nofun
  | pong data => cases endpoint <;> exact no rfl
  | close status => cases endpoint <;> exact no rfl

theorem put_of_ne_nil (c : Connection) {bytes : Bytes} (some : bytes ≠ []) :
    c.put bytes = { c with sent := c.sent ++ [.bytes bytes] } := by
  simp only [put, List.isEmpty_iff, some, if_false]

theorem put_encode (c : Connection) (frame : Frame) (mask : Option Mask) :
    c.put (frame.encode mask) = { c with sent := c.sent ++ [.bytes (frame.encode mask)] } :=
  c.put_of_ne_nil (Frame.encode_ne_nil frame mask)

theorem takeMessage_of_sends {frames : Sent} {next : Message.Writer}
    (sends : writer.Sends (due endpoint message) frames next)
    (other : ∀ status, message ≠ .close status) :
    c.takeMessage endpoint reader writer message =
      { c with stage := .talking endpoint reader next, sent := c.sent ++ given frames } := by
  have one {reply : Message} (sends : writer.Sends [reply] frames next) :
      c.say endpoint reader writer reply =
        { c with stage := .talking endpoint reader next, sent := c.sent ++ given frames } := by
    cases sends with
    | one gives rest =>
        cases rest
        simp only [say, gives.sent, put_encode]
        rfl
  cases message with
  | text s => cases endpoint <;> exact one sends
  | binary data => cases endpoint <;> exact one sends
  | ping data => cases endpoint <;> exact one sends
  | pong data =>
      obtain ⟨rfl, rfl⟩ : frames = [] ∧ next = writer := by
        cases endpoint <;> cases sends <;> exact ⟨rfl, rfl⟩
      rw [show given [] = [] from rfl, List.append_nil]
      rfl
  | close status => exact absurd rfl (other status)

theorem settle_finish (c : Connection) : c.finish.settle = c.finish :=
  settle_of_none rfl

theorem finish_put_close (apt : Apt reader writer) (status : Option CloseFrame) :
    ∃ frame after, writer.Sends [.close status] [(frame, none)] after ∧
      frame = Message.Writer.closeFrame status ∧
      (c.put (writer.close status).1).finish.sent =
        c.sent ++ given [(frame, none)] ++ [.fin] := by
  have within : (Message.close status).Within writer.limits.messageSize := trivial
  obtain ⟨frame, mask, after, gives, -⟩ := Message.Writer.gives_of_within apt.phase within
  obtain rfl : mask = none := by
    have masked := gives.masked
    rw [apt.role] at masked
    exact Option.not_isSome_iff_eq_none.mp (ne_true_of_eq_false masked)
  have handed := gives.handed
  unfold Message.Writer.handed at handed
  rw [if_neg (not_not_intro apt.phase)] at handed
  injection handed with is
  have bytes : (writer.close status).1 = frame.encode none :=
    Except.ok.inj (congrArg Prod.fst gives.sent)
  refine ⟨frame, after, .one gives (.none after), is.symm, ?_⟩
  rw [bytes, put_encode]
  rfl

/-- What a connection says that hears some messages and then comes to an outcome:
the replies, the parting and the end of its direction. -/
structure Says (c : Connection) (endpoint : Endpoint) (writer : Message.Writer)
    (heard : List Message × Message.Reader.Outcome) (frames : Sent) : Prop where
  sends : ∃ after, writer.Sends (heard.1.flatMap (due endpoint) ++ parting heard.2) frames after
  said : c.settle.sent = c.sent ++ given frames ++ ending heard.2
  closes : ∀ status, heard.2 = .message (.close status) →
    frames.getLast? = some (Message.Writer.closeFrame status, none)

theorem says_of_close {status : Option CloseFrame}
    (stage : c.stage = .talking endpoint reader writer) (apt : Apt reader writer)
    (taken : reader.next c.source = (.message (.close status), reader', rest)) :
    ∃ frames, c.Says endpoint writer (reader.heard c.source) frames := by
  obtain ⟨frame, after, sends, is, said⟩ :=
    finish_put_close (c := { c with source := rest }) apt status
  rw [Message.Reader.heard_of_close taken]
  refine ⟨[(frame, none)], ⟨after, sends⟩, ?_, ?_⟩
  · rw [settle_of_step (step_of_message stage taken)]
    exact (congrArg sent (settle_finish _)).trans said
  · rintro _ ⟨⟩
    rw [is]
    rfl

theorem says_of_fault {fault : Fault} (stage : c.stage = .talking endpoint reader writer)
    (apt : Apt reader writer) (taken : reader.next c.source = (.fault fault, reader', rest)) :
    ∃ frames, c.Says endpoint writer (reader.heard c.source) frames := by
  have stepped : c.step = some ({ c with source := rest }.takeFault writer fault) := by
    simp only [step, stage, taken]
  obtain ⟨frame, after, sends, -, said⟩ :=
    finish_put_close (c := { c with source := rest }) apt (some ⟨.forFault fault, ""⟩)
  rw [Message.Reader.heard_of_none taken (by intro message is; cases is)]
  refine ⟨[(frame, none)], ⟨after, sends⟩, ?_, ?_⟩
  · rw [settle_of_step stepped]
    exact (congrArg sent (settle_finish _)).trans said
  · intro status is
    cases is

theorem says_of_ended (stage : c.stage = .talking endpoint reader writer)
    (taken : reader.next c.source = (.ended, reader', rest)) :
    c.Says endpoint writer (reader.heard c.source) [] := by
  have stepped : c.step = some { c with source := rest }.finish := by
    simp only [step, stage, taken]
  rw [Message.Reader.heard_of_none taken (by intro message is; cases is)]
  refine ⟨⟨writer, .none writer⟩, ?_, ?_⟩
  · rw [settle_of_step stepped, settle_finish, show given [] = [] from rfl, List.append_nil]
    rfl
  · intro status is
    cases is

theorem says_of_waiting (stage : c.stage = .talking endpoint reader writer)
    (taken : reader.next c.source = (.waiting, reader', rest)) :
    c.Says endpoint writer (reader.heard c.source) [] := by
  have waits : c.step = none := by simp only [step, stage, taken]
  rw [Message.Reader.heard_of_none taken (by intro message is; cases is)]
  refine ⟨⟨writer, .none writer⟩, ?_, ?_⟩
  · rw [settle_of_none waits]
    simp only [show given [] = [] from rfl, ending, List.append_nil]
  · intro status is
    cases is

theorem says_of_message {next : Message.Writer} {frames later : Sent}
    (stage : c.stage = .talking endpoint reader writer)
    (taken : reader.next c.source = (.message message, reader', rest))
    (other : ∀ status, message ≠ .close status)
    (sends : writer.Sends (due endpoint message) frames next)
    (spoken : Says { c with
      source := rest
      stage := .talking endpoint reader' next
      sent := c.sent ++ given frames } endpoint next (reader'.heard rest) later) :
    c.Says endpoint writer (reader.heard c.source) (frames ++ later) := by
  have stepped := step_of_message stage taken
  rw [takeMessage_of_sends sends other] at stepped
  obtain ⟨after, sends'⟩ := spoken.sends
  rw [Message.Reader.heard_of_message taken other]
  refine ⟨⟨after, ?_⟩, ?_, ?_⟩
  · rw [List.flatMap_cons, List.append_assoc]
    exact sends.append sends'
  · rw [settle_of_step stepped, spoken.said, given_append]
    simp only [List.append_assoc]
  · intro status is
    rw [List.getLast?_append, spoken.closes status is]
    rfl

/-- Everything that the server says in a conversation that may go on, once
nothing more arrives. -/
theorem says_heard (stage : c.stage = .talking endpoint reader writer) (apt : Apt reader writer) :
    ∃ frames, c.Says endpoint writer (reader.heard c.source) frames := by
  -- on the bytes that are ahead: every message takes some of them
  induction hn : (reader.ahead c.source).length using Nat.strongRecOn
    generalizing c reader writer with
  | ind n ih =>
      subst hn
      rcases taken : reader.next c.source with ⟨outcome, reader', rest⟩
      cases outcome with
      | message message =>
          by_cases close : ∃ status, message = .close status
          · obtain ⟨status, rfl⟩ := close
            exact says_of_close stage apt taken
          · have other (status : Option CloseFrame) : message ≠ .close status :=
              fun is => close ⟨status, is⟩
            obtain ⟨frames, next, sends, apt'⟩ :
                ∃ frames next, writer.Sends (due endpoint message) frames next ∧ Apt reader' next :=
              gives_of_due apt taken
            obtain ⟨later, spoken⟩ := ih _ (Message.Reader.ahead_lt_of_next taken) (c := { c with
              source := rest
              stage := .talking endpoint reader' next
              sent := c.sent ++ given frames }) rfl apt' rfl
            exact ⟨frames ++ later, says_of_message stage taken other sends spoken⟩
      | fault fault => exact says_of_fault stage apt taken
      | ended => exact ⟨[], says_of_ended stage taken⟩
      | waiting => exact ⟨[], says_of_waiting stage taken⟩

/-- After the opening, what the server says is determined by what it hears:
the replies that are due, each once and in order, none of them refused; then
the parting, if there is one, and the end of its direction.  A close is
answered with the payload that it came with.  Neither the pieces in which the
client's bytes arrive matter nor when they do. -/
theorem converses (agreement : Option Extension.Agreement) (leftover : Bytes)
    (compressor : Deflate.Compressor)
    (began : talk c.server endpoint agreement leftover compressor =
      .talking endpoint reader writer)
    (stage : c.stage = .talking endpoint reader writer)
    (room : 32 ≤ c.server.transport.limits.messageSize)
    (moments : List Moment) (inTime : InTime c.source (arrivals moments)) :
    let (heard, last) := reader.heard (Outgoing.arriveAll c.source (arrivals moments))
    ∃ frames after,
      writer.Sends (heard.flatMap (due endpoint) ++ parting last) frames after ∧
      (c.happenAll moments).settle.sent = c.sent ++ given frames ++ ending last ∧
      ∀ status payload, last = .message (.close status) →
        CloseFrame.parse payload = .ok status →
        ∃ frame, frames.getLast? = some (frame, none) ∧ frame.opcode = .close ∧
          frame.payload = payload := by
  obtain ⟨frames, ⟨after, sends⟩, said, closes⟩ :=
    says_heard (c := c.arriveAll (arrivals moments)) stage (apt_talk room began)
  refine ⟨frames, after, sends, ?_, ?_⟩
  · rw [settle_happenAll inTime]
    exact said
  · intro status payload is parsed
    refine ⟨_, closes status is, Message.Writer.opcode_closeFrame status, ?_⟩
    rw [← CloseFrame.payload_of_parse parsed]
    cases status <;> rfl

/-- A ping that is cut inside its mask, a close and the end of the stream, with
turns of the server between them. -/
theorem converses_ping :
    let moments : List Moment :=
      [.arrive (.bytes [0x89, 0x81, 0, 0]), .serve, .arrive (.bytes [0, 0, 65]), .serve,
        .arrive (.bytes [0x88, 0x82, 0, 0, 0, 0, 3, 0xe8]), .arrive .fin]
    let c : Connection := ⟨{}, talk {} .echo none [], .silent, [], .fixedCode⟩
    32 ≤ c.server.transport.limits.messageSize ∧ InTime c.source (arrivals moments) ∧
      ∃ frames after,
        (Message.Writer.new ⟨.server, 0⟩ none {}).Sends
          [.pong [65], .close (some ⟨.normal, ""⟩)] frames after ∧
        (c.happenAll moments).settle.sent = given frames ++ [.fin] := by
  intro moments c
  have inTime : InTime c.source (arrivals moments) := ⟨rfl, rfl, rfl, rfl, trivial⟩
  have room : 32 ≤ c.server.transport.limits.messageSize := by decide
  have heard : (Message.Reader.new (.new .server {} []) none).heard
      (Outgoing.arriveAll c.source (arrivals moments)) =
        ([.ping [65]], .message (.close (some ⟨.normal, ""⟩))) := by decide +kernel
  have said := converses none [] .fixedCode rfl (show c.stage = _ from rfl) room moments inTime
  simp only [Option.map_none, show c.server.transport.limits = {} from rfl, heard] at said
  obtain ⟨frames, after, sends, is, -⟩ := said
  exact ⟨room, inTime, frames, after, sends, is⟩

end Connection

end Server

end DeflateTrial
