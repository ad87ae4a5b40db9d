/-
Fragments — a message in pieces is the message in one frame

A data message may go out in fragments, each with a part of its payload: the
first keeps the opcode and RSV1, the others are continuations, and the last is
final.  Between them control frames may stand.

    whole:   text "é"
    woven:   text [0xC3] · ping · continuation [] · continuation [0xA9]
    read:                  ping                      "é"

The reader comes from one whole frame to the next in just the steps in which
it comes through their fragments (`Awaiting`, `accept_awaited`): what makes a
message of data looks at the data once all of it is there (`finish_congr`).
So whatever comes of the messages in single frames comes of them in fragments,
each at the place of its last fragment, and each control message at its own
(`readAll_woven`).
-/
import DeflateTrial.Proofs.Message.Dealing
import DeflateTrial.Proofs.Message.Transport

namespace DeflateTrial

namespace Message

/-! ## Fragments and control frames -/

/-- The later fragments of a message. -/
def continuations : List Bytes → List Frame
  | [] => []
  | part :: parts => Frame.plain parts.isEmpty .continuation part :: continuations parts

/-- A data message in one frame, and the parts into which its payload is cut. -/
structure Cut where
  whole : Frame
  /-- The mask that the whole frame would have. -/
  mask : Option Mask
  parts : List Bytes

namespace Cut

/-- The fragments: the first has the opcode and RSV1 of the whole frame. -/
def frames (cut : Cut) : List Frame :=
  match cut.parts with
  | [] => []
  | part :: parts => { cut.whole with fin := parts.isEmpty, payload := part } :: continuations parts

/-- A data message cut into as many parts and as much data as a reader takes. -/
structure Sound (limits : Limits) (cut : Cut) : Prop where
  data : cut.whole.opcode = .text ∨ cut.whole.opcode = .binary
  fin : cut.whole.fin = true
  joined : cut.parts.flatten = cut.whole.payload
  nonempty : cut.parts ≠ []
  few : cut.parts.length ≤ limits.fragmentCount
  small : cut.whole.payload.length ≤ limits.messageSize
  /-- The size is one that a length of eight bytes can have. -/
  wire : cut.whole.wireSize cut.mask.isSome ≤ Frame.maxSize

end Cut

/-- A control frame that any reader with these limits takes. -/
structure SoundControl (limits : Limits) (frame : Frame) : Prop where
  rsv1 : frame.rsv1 = false
  rules : frame.checkControl = .ok ()
  size : frame.payload.length ≤ limits.frameSize
  message : (ofControl? frame).isSome = true

/-- The fragments of messages in their order, with control frames anywhere. -/
structure Weaves (role : Role) (limits : Limits) (cuts : List Cut) (woven : Sent) : Prop where
  fragments : (woven.map Prod.fst).filter (!·.opcode.isControl) = cuts.flatMap Cut.frames
  control : ∀ frame mask, (frame, mask) ∈ woven → frame.opcode.isControl = true →
    SoundControl limits frame
  masked : ∀ frame mask, (frame, mask) ∈ woven → mask.isSome = role.expectsMasked

/-- What is to come of frames, given the data messages among them: each data
message at its last fragment, each control message at its frame. -/
def delivered : List Frame → List Message → List Message
  | [], _ => []
  | frame :: frames, messages =>
    match ofControl? frame, frame.fin, messages with
    | some message, _, messages => message :: delivered frames messages
    | none, true, message :: messages => message :: delivered frames messages
    | none, _, messages => delivered frames messages

namespace Assembler

variable {assembler : Assembler}

/-! ## From fragment to fragment -/

/-- What the assembler is to do with the next data frames, and the messages that
are to come of them: between two messages, and within one whose later parts are
still to come.  The messages are those that come of the whole frames. -/
inductive Awaiting (assembler : Assembler) : List Frame → List Message → Prop where
  | between {cuts : List Cut} {messages : List Message} (idle : assembler.unfinished = none)
      (sound : ∀ cut ∈ cuts, cut.Sound assembler.limits)
      (single : assembler.takeAll (cuts.map Cut.whole) = (messages, .ended)) :
      Awaiting assembler (cuts.flatMap Cut.frames) messages
  | within {cuts : List Cut} {messages : List Message} {cut : Cut} {parts : List Bytes}
      {begun : Unfinished} (under_way : assembler.unfinished = some begun)
      (opcode : begun.opcode = cut.whole.opcode) (compressed : begun.compressed = cut.whole.rsv1)
      (joined : begun.data ++ parts.flatten = cut.whole.payload) (more : parts ≠ [])
      (few : begun.fragments + parts.length ≤ assembler.limits.fragmentCount)
      (sound : ∀ other ∈ cut :: cuts, other.Sound assembler.limits)
      (single : { assembler with unfinished := none }.takeAll ((cut :: cuts).map Cut.whole) =
        (messages, .ended)) :
      Awaiting assembler (continuations parts ++ cuts.flatMap Cut.frames) messages

/-- What a data frame comes to where it is awaited: a fragment that is not the
last brings nothing yet, the last one brings the next message. -/
def Advances (assembler : Assembler) (frame : Frame) (frames : List Frame)
    (messages : List Message) : Prop :=
  (frame.fin = false ∧ ∃ after, assembler.accept frame = (.ok none, after) ∧
    after.Awaiting frames messages) ∨
  (frame.fin = true ∧ ∃ message later after, messages = message :: later ∧
    message.isControl = false ∧ assembler.accept frame = (.ok (some message), after) ∧
    after.Awaiting frames later)

theorem advances_last {cut : Cut} {cuts : List Cut} {messages : List Message} {frame : Frame}
    {whole : Unfinished} {before : Assembler} (fin : frame.fin = true)
    (finished : before.accept frame = assembler.finish whole)
    (idle : assembler.unfinished = none)
    (sound : ∀ other ∈ cut :: cuts, other.Sound assembler.limits)
    (single : assembler.takeAll ((cut :: cuts).map Cut.whole) = (messages, .ended))
    (opcode : whole.opcode = cut.whole.opcode) (compressed : whole.compressed = cut.whole.rsv1)
    (data : whole.data = cut.whole.payload) :
    before.Advances frame (cuts.flatMap Cut.frames) messages := by
  have here := sound cut List.mem_cons_self
  have same : assembler.accept cut.whole = assembler.finish whole :=
    (accept_whole idle here.data here.fin).trans (finish_congr opcode compressed data).symm
  obtain ⟨limits, unfinished, -⟩ := assembler.finish_keeps whole
  rcases finish_cases assembler whole with ⟨fault, failed⟩ | ⟨message, made, kind⟩
  · -- then the whole frame would have been refused
    have refused : assembler.accept cut.whole = (.error fault, (assembler.finish whole).2) :=
      same.trans (Prod.ext failed rfl)
    rw [List.map_cons, takeAll_of_fault _ refused] at single
    cases single
  · have taken : assembler.finish whole = (.ok (some message), (assembler.finish whole).2) :=
      Prod.ext made rfl
    rw [List.map_cons, takeAll_of_message _ (same.trans taken)] at single
    injection single with messages_eq last
    refine .inr ⟨fin, message, _, _, messages_eq.symm, kind, finished.trans taken, ?_⟩
    refine .between (unfinished.trans idle) (fun other h => ?_) (Prod.ext rfl last)
    rw [limits]
    exact sound other (List.mem_cons_of_mem _ h)

theorem advances_first {cut : Cut} {cuts : List Cut} {messages : List Message} {part : Bytes}
    {parts : List Bytes} (idle : assembler.unfinished = none)
    (sound : ∀ other ∈ cut :: cuts, other.Sound assembler.limits)
    (single : assembler.takeAll ((cut :: cuts).map Cut.whole) = (messages, .ended))
    (cut_eq : cut.parts = part :: parts) :
    assembler.Advances { cut.whole with fin := parts.isEmpty, payload := part }
      (continuations parts ++ cuts.flatMap Cut.frames) messages := by
  have here := sound cut List.mem_cons_self
  have joined : part ++ parts.flatten = cut.whole.payload := by
    rw [← here.joined, cut_eq, List.flatten_cons]
  cases parts with
  | nil =>
      have all : part = cut.whole.payload := by rw [← joined, List.flatten_nil, List.append_nil]
      exact advances_last rfl (accept_whole idle here.data rfl) idle sound single rfl rfl all
  | cons next parts =>
      have fits : part.length ≤ assembler.limits.messageSize := by
        have := here.small
        rw [← joined, List.length_append] at this
        omega
      have few := here.few
      rw [cut_eq, List.length_cons, Nat.add_comm] at few
      have begun : assembler.accept { cut.whole with fin := false, payload := part } = _ :=
        accept_first idle here.data rfl fits
      refine .inl ⟨rfl, _, begun, ?_⟩
      refine .within rfl rfl rfl joined (List.cons_ne_nil _ _) few sound ?_
      rw [← idle]
      exact single

theorem advances_later {cut : Cut} {cuts : List Cut} {messages : List Message} {part : Bytes}
    {parts : List Bytes} {begun : Unfinished} (under_way : assembler.unfinished = some begun)
    (opcode : begun.opcode = cut.whole.opcode) (compressed : begun.compressed = cut.whole.rsv1)
    (joined : begun.data ++ (part :: parts).flatten = cut.whole.payload)
    (few : begun.fragments + (part :: parts).length ≤ assembler.limits.fragmentCount)
    (sound : ∀ other ∈ cut :: cuts, other.Sound assembler.limits)
    (single : { assembler with unfinished := none }.takeAll ((cut :: cuts).map Cut.whole) =
      (messages, .ended)) :
    assembler.Advances (Frame.plain parts.isEmpty .continuation part)
      (continuations parts ++ cuts.flatMap Cut.frames) messages := by
  rw [List.flatten_cons, ← List.append_assoc] at joined
  rw [List.length_cons] at few
  have small := (sound cut List.mem_cons_self).small
  rw [← joined, List.length_append, List.length_append] at small
  have extended : extend assembler.limits begun part = .ok { begun with
      data := begun.data ++ part, fragments := begun.fragments + 1 } :=
    extend_eq_ok_iff.mpr ⟨by omega, by omega, rfl⟩
  cases parts with
  | nil =>
      have all : begun.data ++ part = cut.whole.payload := by
        rw [← joined, List.flatten_nil, List.append_nil]
      have finished : assembler.accept (Frame.plain true .continuation part) = _ :=
        accept_last under_way rfl rfl rfl extended
      exact advances_last rfl finished rfl sound single opcode compressed all
  | cons next parts =>
      have longer : assembler.accept (Frame.plain false .continuation part) = _ :=
        accept_later under_way rfl rfl rfl extended
      have fewer : begun.fragments + 1 + (next :: parts).length ≤
          assembler.limits.fragmentCount := by omega
      refine .inl ⟨rfl, _, longer, ?_⟩
      exact .within rfl opcode compressed joined (List.cons_ne_nil _ _) fewer sound single

/-- A data frame that is awaited comes to what it is to come to, and what is
behind it is awaited next. -/
theorem accept_awaited {frame : Frame} {frames : List Frame} {messages : List Message}
    (awaiting : assembler.Awaiting (frame :: frames) messages) :
    assembler.Advances frame frames messages := by
  generalize frames_eq : frame :: frames = all at awaiting
  cases awaiting with
  | @between cuts _ idle sound single =>
      cases cuts with
      | nil => cases frames_eq
      | cons cut cuts =>
          have here := sound cut List.mem_cons_self
          cases cut_eq : cut.parts with
          | nil => exact absurd cut_eq here.nonempty
          | cons part parts =>
              rw [List.flatMap_cons, Cut.frames, cut_eq] at frames_eq
              cases frames_eq
              exact advances_first idle sound single cut_eq
  | @within cuts _ cut parts begun under_way opcode compressed joined more few sound single =>
      cases parts with
      | nil => exact absurd rfl more
      | cons part parts =>
          cases frames_eq
          exact advances_later under_way opcode compressed joined few sound single

theorem messages_of_awaiting_nil {messages : List Message}
    (awaiting : assembler.Awaiting [] messages) : messages = [] := by
  generalize frames_eq : ([] : List Frame) = all at awaiting
  cases awaiting with
  | @between cuts _ idle sound single =>
      cases cuts with
      | nil =>
          cases single
          rfl
      | cons cut cuts =>
          have here := sound cut List.mem_cons_self
          cases cut_eq : cut.parts with
          | nil => exact absurd cut_eq here.nonempty
          | cons part parts =>
              rw [List.flatMap_cons, Cut.frames, cut_eq] at frames_eq
              cases frames_eq
  | @within cuts _ cut parts begun under_way opcode compressed joined more few sound single =>
      cases parts with
      | nil => exact absurd rfl more
      | cons part parts => cases frames_eq

/-! ## Any frames -/

/-- Where the data frames are awaited, and the control frames have messages,
just what is to come of the frames comes of them. -/
theorem takeAll_woven {frames : List Frame} {messages : List Message}
    (awaiting : assembler.Awaiting (frames.filter (!·.opcode.isControl)) messages)
    (control : ∀ frame ∈ frames, frame.opcode.isControl = true →
      (ofControl? frame).isSome = true) :
    assembler.takeAll frames = (delivered frames messages, .ended) ∧
      (delivered frames messages).filter (!·.isControl) = messages := by
  -- on the frames: of those that are left, the data frames are awaited all the way
  induction frames generalizing assembler messages with
  | nil =>
      obtain rfl := messages_of_awaiting_nil awaiting
      exact ⟨rfl, rfl⟩
  | cons frame frames ih =>
      have later := fun other h => control other (List.mem_cons_of_mem frame h)
      cases kind : frame.opcode.isControl with
      | true =>
          obtain ⟨message, made⟩ := Option.isSome_iff_exists.mp
            (control frame List.mem_cons_self kind)
          rw [List.filter_cons_of_neg (by rw [kind]; exact Bool.false_ne_true)] at awaiting
          obtain ⟨taken, data⟩ := ih awaiting later
          have first : delivered (frame :: frames) messages =
              message :: delivered frames messages := by
            simp only [delivered, made]
          have control? := isControl_of_ofControl? made
          rw [first, takeAll_of_message _ (accept_control made), taken,
            List.filter_cons_of_neg (by rw [control?]; exact Bool.false_ne_true)]
          exact ⟨rfl, data⟩
      | false =>
          have made := ofControl?_eq_none kind
          rw [List.filter_cons_of_pos (by rw [kind]; rfl)] at awaiting
          rcases accept_awaited awaiting with ⟨fin, after, accepted, awaiting⟩ |
            ⟨fin, message, rest, after, rfl, data?, accepted, awaiting⟩
          · obtain ⟨taken, data⟩ := ih awaiting later
            have first : delivered (frame :: frames) messages = delivered frames messages := by
              simp only [delivered, made, fin]
            rw [first, takeAll_of_none _ accepted]
            exact ⟨taken, data⟩
          · obtain ⟨taken, data⟩ := ih awaiting later
            have first : delivered (frame :: frames) (message :: rest) =
                message :: delivered frames rest := by
              simp only [delivered, made, fin]
            rw [first, takeAll_of_message _ accepted, taken,
              List.filter_cons_of_pos (by rw [data?]; rfl), data]
            exact ⟨rfl, rfl⟩

end Assembler

/-! ## On the wire -/

theorem mem_continuations {parts : List Bytes} {frame : Frame} (h : frame ∈ continuations parts) :
    frame.opcode = .continuation ∧ frame.rsv1 = false ∧ frame.payload ∈ parts := by
  induction parts with
  | nil => cases h
  | cons part parts ih =>
      rcases List.mem_cons.mp h with rfl | h
      · exact ⟨rfl, rfl, List.mem_cons_self⟩
      · obtain ⟨opcode, rsv1, payload⟩ := ih h
        exact ⟨opcode, rsv1, List.mem_cons_of_mem _ payload⟩

theorem mem_frames {cut : Cut} {frame : Frame}
    (data : cut.whole.opcode = .text ∨ cut.whole.opcode = .binary)
    (h : frame ∈ cut.frames) : frame.opcode.isControl = false ∧
      (frame.rsv1 = true → cut.whole.rsv1 = true) ∧ frame.payload ∈ cut.parts := by
  have bare : cut.whole.opcode.isControl = false := by
    rcases data with h | h <;> rw [h] <;> rfl
  unfold Cut.frames at h
  cases cut_eq : cut.parts with
  | nil =>
      rw [cut_eq] at h
      cases h
  | cons part parts =>
      rw [cut_eq] at h
      rcases List.mem_cons.mp h with rfl | h
      · exact ⟨bare, id, List.mem_cons_self⟩
      · obtain ⟨opcode, rsv1, payload⟩ := mem_continuations h
        refine ⟨?_, fun set => absurd (rsv1.symm.trans set) Bool.false_ne_true,
          List.mem_cons_of_mem _ payload⟩
        rw [opcode]
        rfl

theorem takes_of_mem_frames {limits : Limits} {reader : Frame.Reader} {cut : Cut} {frame : Frame}
    {mask : Option Mask} (sound : cut.Sound limits) (takes : reader.Takes cut.whole cut.mask)
    (h : frame ∈ cut.frames) (masked : mask.isSome = reader.role.expectsMasked) :
    reader.Takes frame mask := by
  obtain ⟨bare, rsv1, part⟩ := mem_frames sound.data h
  have smaller : frame.payload.length ≤ cut.whole.payload.length := by
    rw [← sound.joined]
    exact (List.sublist_flatten_of_mem part).length_le
  refine ⟨masked, fun h => ⟨(takes.rsv1 (rsv1 h)).1, bare⟩, Nat.le_trans smaller takes.size,
    Frame.checkControl_of_data bare, ?_⟩
  rw [masked, ← takes.masked]
  exact Nat.le_trans (Frame.wireSize_mono smaller _) sound.wire

theorem takes_control {reader : Frame.Reader} {frame : Frame} {mask : Option Mask}
    (sound : SoundControl reader.limits frame) (control : frame.opcode.isControl = true)
    (masked : mask.isSome = reader.role.expectsMasked) : reader.Takes frame mask := by
  refine ⟨masked, fun set => absurd (sound.rsv1.symm.trans set) Bool.false_ne_true, sound.size,
    sound.rules, ?_⟩
  have short := (Frame.checkControl_eq_ok_iff.mp sound.rules control).2
  have size := frame.wireSize_le mask.isSome
  have most : Frame.maxSize = 1 <<< 64 - 1 := rfl
  have small : Frame.maxControlPayload = 125 := rfl
  omega

theorem takes_of_weaves {reader : Frame.Reader} {cuts : List Cut} {woven : Sent}
    (sound : ∀ cut ∈ cuts, cut.Sound reader.limits)
    (takes : ∀ cut ∈ cuts, reader.Takes cut.whole cut.mask)
    (weaves : Weaves reader.role reader.limits cuts woven) :
    ∀ frame mask, (frame, mask) ∈ woven → reader.Takes frame mask := by
  intro frame mask h
  have masked := weaves.masked frame mask h
  cases kind : frame.opcode.isControl with
  | true => exact takes_control (weaves.control frame mask h kind) kind masked
  | false =>
      have data : frame ∈ (woven.map Prod.fst).filter (!·.opcode.isControl) :=
        List.mem_filter.mpr ⟨List.mem_map_of_mem h, by rw [kind]; rfl⟩
      rw [weaves.fragments] at data
      obtain ⟨cut, mem, part⟩ := List.mem_flatMap.mp data
      exact takes_of_mem_frames (sound cut mem) (takes cut mem) part masked

/-- Between two messages, fragments with control frames among them bring what
the whole frames would bring, and the control messages. -/
theorem readAll_weaves {reader : Reader} {cuts : List Cut} {messages : List Message} {woven : Sent}
    (empty : reader.frames.buffer = []) (idle : reader.assembler.unfinished = none)
    (limits : reader.assembler.limits = reader.frames.limits)
    (sound : ∀ cut ∈ cuts, cut.Sound reader.frames.limits)
    (single : reader.readAll (.ofPieces [wire (cuts.map fun cut => (cut.whole, cut.mask))]) =
      (messages, .ended))
    (weaves : Weaves reader.frames.role reader.frames.limits cuts woven) {pieces : List Bytes}
    (whole : pieces.flatten = wire woven) :
    reader.readAll (.ofPieces pieces) = (delivered (woven.map Prod.fst) messages, .ended) ∧
      (delivered (woven.map Prod.fst) messages).filter (!·.isControl) = messages := by
  rw [Reader.readAll_ofPieces, List.flatten_singleton] at single
  have sizes : ∀ frame mask, (frame, mask) ∈ cuts.map (fun cut => (cut.whole, cut.mask)) →
      frame.wireSize mask.isSome ≤ Frame.maxSize := by
    intro frame mask h
    obtain ⟨cut, mem, same⟩ := List.mem_map.mp h
    cases same
    exact (sound cut mem).wire
  -- what is read of the whole frames is what the assembler makes of them
  have takes := Reader.takes_of_readAll_wire empty sizes single
  rw [Reader.readAll_fed_wire empty takes, List.map_map] at single
  have taken := takes_of_weaves sound
    (fun cut mem => takes cut.whole cut.mask (List.mem_map.mpr ⟨cut, mem, rfl⟩)) weaves
  rw [Reader.readAll_wire empty taken whole]
  rw [← limits] at sound
  refine Assembler.takeAll_woven ?_ fun frame h control => ?_
  · rw [weaves.fragments]
    exact .between idle sound single
  · obtain ⟨⟨_, mask⟩, mem, rfl⟩ := List.mem_map.mp h
    exact (weaves.control _ mask mem control).message

/-- Fragmentation is transparent.  Let messages be read from data messages in
single frames.  If these are cut into fragments, and control frames are put
between the fragments, then each data message is read unchanged at the place of
its last fragment, each control message at its own place, and nothing else;
in either role, with or without compression, whatever the masks and however the
network cuts the bytes. -/
theorem readAll_woven (role : Role) (limits : Limits) (inflater : Option Deflate.Inflater)
    {cuts : List Cut} {messages : List Message} {woven : Sent}
    (sound : ∀ cut ∈ cuts, cut.Sound limits)
    (single : (Reader.new (.new role limits []) inflater).readAll
      (.ofPieces [wire (cuts.map fun cut => (cut.whole, cut.mask))]) = (messages, .ended))
    (weaves : Weaves role limits cuts woven) {pieces : List Bytes}
    (whole : pieces.flatten = wire woven) :
    (Reader.new (.new role limits []) inflater).readAll (.ofPieces pieces) =
        (delivered (woven.map Prod.fst) messages, .ended) ∧
      (delivered (woven.map Prod.fst) messages).filter (!·.isControl) = messages :=
  readAll_weaves rfl rfl rfl sound single weaves whole

/-- A text that is cut inside its character, with an empty fragment, and a
compressed message, with a ping in the one and a close in the other. -/
theorem readAll_woven_cutCharacter :
    let compressed : Frame :=
      { Frame.binary [0, 3, 0, 252, 255, 1, 2, 3, 0] with rsv1 := true }
    let cuts : List Cut := [⟨Frame.text [0xC3, 0xA9], none, [[0xC3], [], [0xA9]]⟩,
      ⟨compressed, none, [[0, 3, 0, 252], [255, 1, 2, 3, 0]]⟩]
    let woven : Sent := [(⟨false, false, .text, [0xC3]⟩, none), (Frame.ping [7], none),
      (⟨false, false, .continuation, []⟩, none), (⟨true, false, .continuation, [0xA9]⟩, none),
      (⟨false, true, .binary, [0, 3, 0, 252]⟩, none), (Frame.close none "", none),
      (⟨true, false, .continuation, [255, 1, 2, 3, 0]⟩, none)]
    let reader := Reader.new (.new .client {} []) (some (.new 15 false (Limits.messageSize {})))
    (∀ cut ∈ cuts, cut.Sound {}) ∧
    reader.readAll (.ofPieces [wire (cuts.map fun cut => (cut.whole, cut.mask))]) =
      ([.text "é", .binary [1, 2, 3]], .ended) ∧
    Weaves .client {} cuts woven ∧
    ∀ pieces : List Bytes, pieces.flatten = wire woven → reader.readAll (.ofPieces pieces) =
      ([.ping [7], .text "é", .close none, .binary [1, 2, 3]], .ended) := by
  intro compressed cuts woven reader
  have sound : ∀ cut ∈ cuts, cut.Sound {} := by
    intro cut h
    simp only [cuts, List.mem_cons, List.not_mem_nil, or_false] at h
    rcases h with rfl | rfl
    · exact ⟨.inl rfl, rfl, rfl, nofun, by decide, by decide, by decide⟩
    · exact ⟨.inr rfl, rfl, rfl, nofun, by decide, by decide, by decide⟩
  have single : reader.readAll (.ofPieces [wire (cuts.map fun cut => (cut.whole, cut.mask))]) =
      ([.text "é", .binary [1, 2, 3]], .ended) := by
    have takes : ∀ frame mask, (frame, mask) ∈ cuts.map (fun cut => (cut.whole, cut.mask)) →
        reader.frames.Takes frame mask := by
      intro frame mask h
      simp only [cuts, List.map_cons, List.map_nil, List.mem_cons, List.not_mem_nil, or_false,
        Prod.mk.injEq] at h
      rcases h with ⟨rfl, rfl⟩ | ⟨rfl, rfl⟩
      · exact ⟨rfl, nofun, by decide, rfl, by decide⟩
      · exact ⟨rfl, fun _ => ⟨rfl, rfl⟩, by decide, rfl, by decide⟩
    have decoded : Assembler.decode {} .text [0xC3, 0xA9] = .ok (.text "é") := by
      have text : Bytes.toText? [0xC3, 0xA9] = some "é" := Bytes.toText?_ofText "é"
      simp only [Assembler.decode, text]
      rfl
    -- the compressed message is what a deflater that only stores makes of the data
    have stored : ((Deflate.Deflater.new 15 false 0 0).deflate [1, 2, 3]).1 =
        compressed.payload := by cbv
    obtain ⟨next, inflated, -⟩ := Deflate.inflate_deflate
      (Deflate.inStep_new Deflate.Compressor.fixedCode_sound (Nat.zero_le 9) (Nat.le_refl 15) id 0
        (Limits.messageSize {}))
      (show [1, 2, 3].length ≤ Limits.messageSize {} by decide)
    rw [stored] at inflated
    have first : reader.assembler.accept (Frame.text [0xC3, 0xA9]) =
        (.ok (some (.text "é")), reader.assembler) := accept_plain (.inl rfl) rfl decoded
    have second : reader.assembler.accept compressed =
        (.ok (some (.binary [1, 2, 3])), { reader.assembler with inflater := some next }) :=
      accept_compressed (.inr rfl) rfl rfl inflated rfl
    rw [Reader.readAll_wire rfl takes (List.flatten_singleton ..)]
    change reader.assembler.takeAll [Frame.text [0xC3, 0xA9], compressed] = _
    rw [Assembler.takeAll_of_message _ first, Assembler.takeAll_of_message _ second]
    rfl
  have weaves : Weaves .client {} cuts woven := by
    refine ⟨rfl, fun frame mask h control => ?_, fun frame mask h => ?_⟩
    · simp only [woven, List.mem_cons, List.not_mem_nil, or_false, Prod.mk.injEq] at h
      rcases h with ⟨rfl, -⟩ | ⟨rfl, -⟩ | ⟨rfl, -⟩ | ⟨rfl, -⟩ | ⟨rfl, -⟩ | ⟨rfl, -⟩ | ⟨rfl, -⟩
      -- the ping and the close; the others are no control frames
      all_goals first
        | exact ⟨rfl, rfl, by decide, rfl⟩
        | cases control
    · simp only [woven, List.mem_cons, List.not_mem_nil, or_false, Prod.mk.injEq] at h
      rcases h with ⟨-, rfl⟩ | ⟨-, rfl⟩ | ⟨-, rfl⟩ | ⟨-, rfl⟩ | ⟨-, rfl⟩ | ⟨-, rfl⟩ | ⟨-, rfl⟩
      all_goals rfl
  exact ⟨sound, single, weaves, fun pieces whole =>
    (readAll_woven .client {} _ sound single weaves whole).1⟩

end Message

end DeflateTrial
