/-
Transport — what one end sends is what the other end receives

Between two messages a writer and the reader at the other end agree in all
that decides how a message travels: roles, limits, compression, and where the
two compressed streams stand (`Joined`).  Sending one message keeps them
joined and brings it over, whatever follows it on the wire (`delivered_send`);
so any messages come over in their order, however the network cuts what was
written (`readAll_sendAll`).

Roles and masks come in only through `Frame.Reader.Takes`, compression only
through `Deflate.InStep`.
-/
import DeflateTrial.Extension.Agreement
import DeflateTrial.Message.Reader
import DeflateTrial.Message.Writer
import DeflateTrial.Proofs.Deflate.Direction
import DeflateTrial.Proofs.Message.Dealing
import DeflateTrial.Proofs.Message.Intake

namespace DeflateTrial

namespace Frame.Writer

theorem exists_mask_of_write (writer : Writer) (frame : Frame) :
    ∃ mask : Option Mask, mask.isSome = writer.role.masks ∧
      (writer.write frame).1 = frame.encode mask ∧ (writer.write frame).2.role = writer.role := by
  by_cases masks : writer.role.masks = true
  · rw [write, if_pos masks]
    exact ⟨some writer.nextMask.1, masks.symm, rfl, writer.nextMask_role⟩
  · rw [write, if_neg masks]
    exact ⟨none, (Bool.eq_false_iff.mpr masks).symm, rfl, rfl⟩

end Frame.Writer

namespace Message

/-! ## What may be sent -/

namespace Writer

/-- What a data message keeps to: the message limit and, for the frame that it
goes out in, the frame limit.  The whole frame has a size that a length of
eight bytes can have, as everything in a memory does. -/
def AdmitsData (writer : Writer) (opcode : Opcode) (data : Bytes) : Prop :=
  data.length ≤ writer.limits.messageSize ∧
    ∀ frame deflater, writer.dataFrame opcode data = .ok (frame, deflater) →
      frame.payload.length ≤ writer.limits.frameSize ∧
        frame.wireSize writer.frames.role.masks ≤ Frame.maxSize

/-- What a message keeps to, for a writer as it stands. -/
def Admits (writer : Writer) : Message → Prop
  | .text s => writer.AdmitsData .text (Bytes.ofText s)
  | .binary data => writer.AdmitsData .binary data
  | .ping data => data.length ≤ 125
  | .pong data => data.length ≤ 125
  | .close none => True
  | .close (some status) =>
    status.code.isValid = true ∧ (Bytes.ofText status.reason).length ≤ 123

/-- Messages that each keep to it when their turn comes, a close only last. -/
def AdmitsAll (writer : Writer) : List Message → Prop
  | [] => True
  | message :: messages =>
    writer.Admits message ∧ (∀ status, message = .close status → messages = []) ∧
      (writer.send message).2.AdmitsAll messages

end Writer

/-! ## Two ends between two messages -/

/-- The compressor of one end and the decompressor of the other: neither is
there, or they are in step. -/
def Coupled (limits : Limits) :
    Option Deflate.Deflater → Option Deflate.Inflater → Prop
  | none, none => True
  | some deflater, some inflater =>
    Deflate.InStep deflater inflater ∧ inflater.maxSize = limits.messageSize
  | _, _ => False

/-- A writer and the reader at the other end, between two messages. -/
structure Joined (writer : Writer) (reader : Reader) : Prop where
  role : reader.frames.role = writer.frames.role.peer
  buffer : reader.frames.buffer = []
  frameLimits : reader.frames.limits = writer.limits
  limits : reader.assembler.limits = writer.limits
  wide : 125 ≤ writer.limits.frameSize
  compression : reader.frames.compression = writer.deflater.isSome
  idle : reader.assembler.unfinished = none
  coupled : Coupled writer.limits writer.deflater reader.assembler.inflater

/-- What came of sending a message: it was written, the reader gets it from
what was written, whatever follows, and the two are joined again. -/
def Delivered (reader : Reader) (message : Message) (sent : Except Fault Bytes × Writer) : Prop :=
  ∃ bytes reader', sent.1 = .ok bytes ∧ Joined sent.2 reader' ∧
    ∀ rest, (reader.fed (bytes ++ rest)).next (.ofPieces []) =
      (.message message, reader'.fed rest, .ofPieces [])

section Delivery
variable {writer : Writer} {reader : Reader} {message : Message} {frame : Frame}
  {assembler : Assembler}

theorem next_fed_encode {mask : Option Mask} (empty : reader.frames.buffer = [])
    (takes : reader.frames.Takes frame mask)
    (accepted : reader.assembler.accept frame = (.ok (some message), assembler)) (rest : Bytes) :
    (reader.fed (frame.encode mask ++ rest)).next (.ofPieces []) =
      (.message message, Reader.fed ⟨reader.frames, assembler⟩ rest, .ofPieces []) := by
  rw [Reader.next_fed_encode empty takes, accepted]

/-- What a frame keeps to that the other end takes, whatever its mask. -/
structure Travels (writer : Writer) (frame : Frame) : Prop where
  rsv1 : frame.rsv1 = true → writer.deflater.isSome = true ∧ frame.opcode.isControl = false
  size : frame.payload.length ≤ writer.limits.frameSize
  control : frame.checkControl = .ok ()
  wire : frame.wireSize writer.frames.role.masks ≤ Frame.maxSize

theorem delivered_write {deflater : Option Deflate.Deflater} {phase : Phase}
    (joined : Joined writer reader) (travels : Travels writer frame)
    (accepted : reader.assembler.accept frame = (.ok (some message), assembler))
    (limits : assembler.limits = reader.assembler.limits) (idle : assembler.unfinished = none)
    (same : deflater.isSome = writer.deflater.isSome)
    (coupled : Coupled writer.limits deflater assembler.inflater) :
    Delivered reader message (.ok (writer.frames.write frame).1,
      { writer with frames := (writer.frames.write frame).2, deflater, phase }) := by
  obtain ⟨mask, masked, written, role⟩ := writer.frames.exists_mask_of_write frame
  have takes : reader.frames.Takes frame mask := by
    refine ⟨?_, ?_, ?_, travels.control, ?_⟩
    · rw [masked, joined.role, Role.expectsMasked_peer]
    · rw [joined.compression]
      exact travels.rsv1
    · rw [joined.frameLimits]
      exact travels.size
    · rw [masked]
      exact travels.wire
  refine ⟨_, ⟨reader.frames, assembler⟩, rfl, ?_, fun rest => ?_⟩
  · exact {
      role := by rw [joined.role]; exact congrArg Role.peer role.symm
      buffer := joined.buffer
      frameLimits := joined.frameLimits
      limits := limits.trans joined.limits
      wide := joined.wide
      compression := joined.compression.trans same.symm
      idle
      coupled }
  · rw [written]
    exact next_fed_encode joined.buffer takes accepted rest

/-! ## The kinds of messages -/

theorem travels_control (wide : 125 ≤ writer.limits.frameSize) {opcode : Opcode} {payload : Bytes}
    (control : opcode.isControl = true) (short : payload.length ≤ 125) :
    Travels writer (Frame.plain true opcode payload) where
  rsv1 := fun h => absurd h (by simp [Frame.plain])
  size := Nat.le_trans short wide
  control := by
    have fits : ¬ payload.length > Frame.maxControlPayload := Nat.not_lt.mpr short
    simp [Frame.checkControl, Frame.plain, control, fits]
  wire := by
    have size := Frame.wireSize_le (Frame.plain true opcode payload) writer.frames.role.masks
    have most : Frame.maxSize = 1 <<< 64 - 1 := rfl
    rw [show (Frame.plain true opcode payload).payload = payload from rfl] at size
    omega

theorem accept_plain {opcode : Opcode} {data : Bytes} (data? : opcode = .text ∨ opcode = .binary)
    (idle : reader.assembler.unfinished = none)
    (decoded : Assembler.decode reader.assembler.limits opcode data = .ok message) :
    reader.assembler.accept (Frame.plain true opcode data) =
      (.ok (some message), reader.assembler) := by
  rw [Assembler.accept_whole idle data? rfl]
  simp only [Frame.plain, Assembler.finish, Assembler.inflate, Bool.not_false, if_true,
    Except.bind, decoded]
  rfl

theorem accept_compressed {opcode : Opcode} {compressed data : Bytes}
    {inflater next : Deflate.Inflater} (data? : opcode = .text ∨ opcode = .binary)
    (idle : reader.assembler.unfinished = none)
    (has : reader.assembler.inflater = some inflater)
    (inflated : inflater.inflate compressed = (.ok data, next))
    (decoded : Assembler.decode reader.assembler.limits opcode data = .ok message) :
    reader.assembler.accept { Frame.plain true opcode compressed with rsv1 := true } =
      (.ok (some message), { reader.assembler with inflater := some next }) := by
  rw [Assembler.accept_whole idle data? rfl]
  simp only [Frame.plain, Assembler.finish, Assembler.inflate, Bool.not_true, Bool.false_eq_true,
    if_false, has, inflated, Except.bind, decoded]
  rfl

theorem delivered_planned {opcode : Opcode} {data : Bytes} {deflater : Option Deflate.Deflater}
    (joined : Joined writer reader) (open_ : writer.phase = .open)
    (admitted : writer.AdmitsData opcode data)
    (planned : writer.dataFrame opcode data = .ok (frame, deflater))
    (bare : frame.opcode.isControl = false)
    (rsv1 : frame.rsv1 = true → writer.deflater.isSome = true)
    (accepted : reader.assembler.accept frame = (.ok (some message), assembler))
    (limits : assembler.limits = reader.assembler.limits) (idle : assembler.unfinished = none)
    (same : deflater.isSome = writer.deflater.isSome)
    (coupled : Coupled writer.limits deflater assembler.inflater) :
    Delivered reader message (writer.transmit (writer.dataFrame opcode data)) := by
  obtain ⟨size, wire⟩ := admitted.2 _ _ planned
  have control := Frame.checkControl_of_data bare
  have sent : writer.transmit (writer.dataFrame opcode data) = (.ok (writer.frames.write frame).1,
      { writer with frames := (writer.frames.write frame).2, deflater, phase := .open }) := by
    simp only [Writer.transmit, planned, open_, Phase.canSend, control]
    rfl
  rw [sent]
  exact delivered_write joined ⟨fun h => ⟨rsv1 h, bare⟩, size, control, wire⟩ accepted limits idle
    same coupled

theorem delivered_data {opcode : Opcode} {data : Bytes} (joined : Joined writer reader)
    (open_ : writer.phase = .open) (data? : opcode = .text ∨ opcode = .binary)
    (admitted : writer.AdmitsData opcode data)
    (decoded : Assembler.decode writer.limits opcode data = .ok message) :
    Delivered reader message (writer.transmit (writer.dataFrame opcode data)) := by
  have within : writer.limits.checkMessage data.length = .ok () :=
    if_neg (Nat.not_lt.mpr admitted.1)
  have bare : opcode.isControl = false := by rcases data? with rfl | rfl <;> rfl
  have coupled := joined.coupled
  rw [← joined.limits] at decoded
  cases hd : writer.deflater with
  | none =>
      have planned : writer.dataFrame opcode data =
          .ok (Frame.plain true opcode data, none) := by
        simp only [Writer.dataFrame, within, hd]
        rfl
      exact delivered_planned joined open_ admitted planned bare nofun
        (accept_plain data? joined.idle decoded) rfl joined.idle (by rw [hd]) (hd ▸ coupled)
  | some deflater =>
      cases hi : reader.assembler.inflater with
      | none =>
          rw [hd, hi] at coupled
          exact coupled.elim
      | some inflater =>
          rw [hd, hi] at coupled
          by_cases worth : deflater.shouldCompress data.length = true
          · -- compressed
            have planned : writer.dataFrame opcode data = .ok
                ({ Frame.plain true opcode (deflater.deflate data).1 with rsv1 := true },
                  some (deflater.deflate data).2) := by
              simp only [Writer.dataFrame, within, hd, worth]
              rfl
            obtain ⟨next, inflated, inStep, max⟩ := Deflate.inflate_deflate coupled.1
              (by rw [coupled.2]; exact admitted.1)
            exact delivered_planned joined open_ admitted planned bare (fun _ => by rw [hd]; rfl)
              (accept_compressed data? joined.idle hi inflated decoded) rfl joined.idle
              (by rw [hd]; rfl) ⟨inStep, max.trans coupled.2⟩
          · -- too short to be worth it
            have planned : writer.dataFrame opcode data =
                .ok (Frame.plain true opcode data, some deflater) := by
              simp only [Writer.dataFrame, within, hd, worth]
              rfl
            exact delivered_planned joined open_ admitted planned bare nofun
              (accept_plain data? joined.idle decoded) rfl joined.idle (by rw [hd])
              (by rw [hi]; exact coupled)

theorem delivered_control {opcode : Opcode} {data : Bytes} (joined : Joined writer reader)
    (open_ : writer.phase = .open) (control : opcode.isControl = true)
    (short : data.length ≤ 125)
    (accepted : reader.assembler.accept (Frame.plain true opcode data) =
      (.ok (some message), reader.assembler)) :
    Delivered reader message
      (writer.transmit (.ok (Frame.plain true opcode data, writer.deflater))) := by
  have travels : Travels writer (Frame.plain true opcode data) :=
    travels_control joined.wide control short
  have sent : writer.transmit (.ok (Frame.plain true opcode data, writer.deflater)) =
      (.ok (writer.frames.write (Frame.plain true opcode data)).1,
        { writer with
          frames := (writer.frames.write (Frame.plain true opcode data)).2
          phase := .open }) := by
    simp only [Writer.transmit, open_, Phase.canSend, travels.control]
    rfl
  rw [sent]
  exact delivered_write joined travels accepted rfl joined.idle rfl joined.coupled

theorem delivered_close {status : Option CloseFrame} (joined : Joined writer reader)
    (open_ : writer.phase = .open) (admitted : writer.Admits (.close status)) :
    Delivered reader (.close status) (writer.send (.close status)) := by
  have sent (payload : Bytes) (given : (match status with
        | some status => Frame.close (some status.code.value) status.reason
        | none => Frame.close none "") = Frame.plain true .close payload) :
      writer.send (.close status) = (.ok (writer.frames.write (Frame.plain true .close payload)).1,
        { writer with
          frames := (writer.frames.write (Frame.plain true .close payload)).2
          phase := .closing }) := by
    simp only [Writer.send, Writer.close, open_, ne_eq, not_true_eq_false, if_false]
    cases status <;> rw [← given]
  cases status with
  | none =>
      rw [sent [] rfl]
      exact delivered_write joined (travels_control joined.wide rfl (Nat.zero_le _)) rfl rfl
        joined.idle rfl joined.coupled
  | some status =>
      obtain ⟨valid, short⟩ := admitted
      have length : status.payload.length ≤ 125 := by
        rw [CloseFrame.payload, List.length_append, Bytes.ofNat_length]
        omega
      have accepted : reader.assembler.accept (Frame.plain true .close status.payload) =
          (.ok (some (.close (some status))), reader.assembler) := by
        simp only [Assembler.accept, Frame.plain, CloseFrame.parse_payload valid]
        rfl
      rw [sent status.payload rfl]
      exact delivered_write joined (travels_control joined.wide rfl length) accepted rfl
        joined.idle rfl joined.coupled

theorem delivered_send (joined : Joined writer reader) (open_ : writer.phase = .open)
    (admitted : writer.Admits message) : Delivered reader message (writer.send message) := by
  cases message with
  | text s =>
      have within : writer.limits.checkMessage (Bytes.ofText s).length = .ok () :=
        if_neg (Nat.not_lt.mpr admitted.1)
      refine delivered_data joined open_ (.inl rfl) admitted ?_
      simp only [Assembler.decode, within, Bytes.toText?_ofText]
      rfl
  | binary data =>
      have within : writer.limits.checkMessage data.length = .ok () :=
        if_neg (Nat.not_lt.mpr admitted.1)
      refine delivered_data joined open_ (.inr rfl) admitted ?_
      simp only [Assembler.decode, within]
      rfl
  | ping data => exact delivered_control joined open_ rfl admitted rfl
  | pong data => exact delivered_control joined open_ rfl admitted rfl
  | close status => exact delivered_close joined open_ admitted

/-! ## Any messages -/

theorem phase_send (writer : Writer) {message : Message}
    (goes_on : ∀ status, message ≠ .close status) :
    (writer.send message).2.phase = writer.phase := by
  have kept (planned : Except Fault (Frame × Option Deflate.Deflater)) :
      (writer.transmit planned).2.phase = writer.phase := by
    unfold Writer.transmit
    split
    · rfl
    · split
      · rfl
      · split <;> rfl
  cases message with
  | close status => exact absurd rfl (goes_on status)
  | text s => exact kept _
  | binary data => exact kept _
  | ping data => exact kept _
  | pong data => exact kept _

/-- All that a writer sends reaches the reader that it is joined with. -/
theorem readAll_fed_sendAll {messages : List Message} (joined : Joined writer reader)
    (open_ : messages ≠ [] → writer.phase = .open) (admitted : writer.AdmitsAll messages) :
    ∃ bytes, (writer.sendAll messages).1 = .ok bytes ∧
      (reader.fed bytes).readAll (.ofPieces []) = (messages, .ended) := by
  induction messages generalizing writer reader with
  | nil =>
      refine ⟨[], rfl, ?_⟩
      rw [show reader.fed [] = reader by simp [Reader.fed]]
      exact Reader.readAll_of_empty joined.buffer
  | cons message messages ih =>
      obtain ⟨admits, last, rest⟩ := admitted
      have now := open_ (List.cons_ne_nil _ _)
      obtain ⟨bytes, reader', written, joined', read⟩ := delivered_send joined now admits
      have still : messages ≠ [] → (writer.send message).2.phase = .open := by
        intro more
        rw [phase_send writer fun status h => more (last status h)]
        exact now
      obtain ⟨others, sent, taken⟩ := ih joined' still rest
      refine ⟨bytes ++ others, ?_, ?_⟩
      · rw [Writer.sendAll]
        rcases hs : writer.send message with ⟨result, next⟩
        rw [hs] at written sent
        simp only [show result = .ok bytes from written, sent]
        rfl
      · rw [Reader.readAll_of_message (read others), taken]

end Delivery

theorem joined_new {compressor : Deflate.Compressor} (sound : compressor.Sound) (role : Role)
    {limits : Limits} (wide : 125 ≤ limits.frameSize) (agreement : Option Extension.Agreement)
    {settings : Extension.Settings} (hl : settings.level ≤ 9) (counter : UInt32) :
    Joined
      (.new ⟨role, counter⟩ (agreement.map (·.deflater role settings compressor)) limits)
      (.new (.new role.peer limits []) (agreement.map (·.inflater role.peer limits))) where
  role := rfl
  buffer := rfl
  frameLimits := rfl
  limits := rfl
  wide := wide
  compression := by cases agreement <;> rfl
  idle := rfl
  coupled := by
    cases agreement with
    | none => trivial
    | some agreement =>
        refine ⟨?_, by cases role <;> rfl⟩
        cases role <;> exact Deflate.inStep_new sound hl (Nat.le_refl _) id _ _

/-- Whatever messages are sent by one end, the other receives just these, in
their order, and then the end of the stream: in either role, with or without
compression, whatever the masks, and however the network cuts the bytes. -/
theorem readAll_sendAll {compressor : Deflate.Compressor} (sound : compressor.Sound) (role : Role)
    {limits : Limits} (wide : 125 ≤ limits.frameSize) (agreement : Option Extension.Agreement)
    {settings : Extension.Settings} (hl : settings.level ≤ 9) (counter : UInt32)
    {messages : List Message}
    (admitted : (Writer.new ⟨role, counter⟩
      (agreement.map (·.deflater role settings compressor)) limits).AdmitsAll messages) :
    ∃ bytes, ((Writer.new ⟨role, counter⟩
        (agreement.map (·.deflater role settings compressor)) limits).sendAll messages).1 =
          .ok bytes ∧
      ∀ pieces : List Bytes, pieces.flatten = bytes →
        (Reader.new (.new role.peer limits [])
          (agreement.map (·.inflater role.peer limits))).readAll (.ofPieces pieces) =
            (messages, .ended) := by
  obtain ⟨bytes, sent, received⟩ := readAll_fed_sendAll
    (joined_new sound role wide agreement hl counter) (fun _ => rfl) admitted
  refine ⟨bytes, sent, fun pieces whole => ?_⟩
  rw [Reader.readAll_ofPieces, whole]
  exact received

/-- From the client, over compression: a message, an empty one, a ping and a
close. -/
theorem readAll_sendAll_client :
    ∃ bytes, ((Writer.new ⟨.client, 7⟩
        (some (Extension.Agreement.deflater ⟨false, true, 15, 8⟩ .client
          { threshold := 0, level := 0 })) {}).sendAll
        [.binary [1, 2, 3], .text "", .ping [7], .close (some ⟨.normal, "bye"⟩)]).1 = .ok bytes ∧
      ∀ pieces : List Bytes, pieces.flatten = bytes →
        (Reader.new (.new .server {} [])
          (some (Extension.Agreement.inflater ⟨false, true, 15, 8⟩ .server {}))).readAll
            (.ofPieces pieces) =
              ([.binary [1, 2, 3], .text "", .ping [7], .close (some ⟨.normal, "bye"⟩)],
                .ended) := by
  refine readAll_sendAll Deflate.Compressor.fixedCode_sound .client (by decide)
    (some ⟨false, true, 15, 8⟩) (by decide) 7
    ⟨⟨by decide, ?_⟩, nofun, ⟨by decide, ?_⟩, nofun, (by decide : 1 ≤ 125), nofun,
      ⟨by decide, by decide⟩, fun _ _ => rfl, trivial⟩
  · -- three bytes in a stored block
    intro frame deflater h
    have planned : (Writer.new ⟨.client, 7⟩
        (some (Extension.Agreement.deflater ⟨false, true, 15, 8⟩ .client
          { threshold := 0, level := 0 })) {}).dataFrame .binary [1, 2, 3] =
        .ok ({ Frame.plain true .binary [0, 3, 0, 252, 255, 1, 2, 3, 0] with rsv1 := true },
          some (Extension.Agreement.deflater ⟨false, true, 15, 8⟩ .client
            { threshold := 0, level := 0 })) := by cbv
    cases planned.symm.trans h
    decide
  · -- an empty message, which never comes to the compressor
    intro frame deflater h
    cases h
    decide

end Message

end DeflateTrial
