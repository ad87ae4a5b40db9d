/-
The size limit — which messages are too large, and in how many frames

The limit on messages is one on the data of a message, put together and
inflated.  A message in one frame is held against it in just that way
(`accept_of_le`, `refuses_of_lt`).  In fragments, what has come so far is held
against it as well, and of a compressed message that is its compressed form:

    one frame      data ≤ limit
    fragments      data ≤ limit  and  what is sent ≤ limit

So a message that is within the limit, but compressed to more than that, is
delivered in one frame and refused in fragments (`Reader.refused_in_fragments`).
For all others the cut makes no difference: fragments come to what the whole
frame comes to (`takeAll_frames`), and whoever waits for a message gets it or
is told that it is too large (`Reader.readAll_posted`).
-/
import DeflateTrial.Proofs.Deflate.Soundness
import DeflateTrial.Proofs.Deflate.Streams
import DeflateTrial.Proofs.Message.Fragments

namespace DeflateTrial.Message

/-- Whether a message is the one that data of a kind stands for. -/
def IsOf (opcode : Opcode) (data : Bytes) : Message → Prop
  | .text s => opcode = .text ∧ data = Bytes.ofText s
  | .binary bytes => opcode = .binary ∧ data = bytes
  | .ping _ | .pong _ | .close _ => False

theorem IsOf.opcode {opcode : Opcode} {data : Bytes} {message : Message}
    (is : message.IsOf opcode data) : opcode = .text ∨ opcode = .binary := by
  cases message with
  | text s => exact .inl is.1
  | binary bytes => exact .inr is.1
  | ping | pong | close => exact is.elim

namespace Assembler

/-- An assembler between two messages whose decompressor, if there is one, has
the limit on messages. -/
structure Between (limits : Limits) (assembler : Assembler) : Prop where
  limits_eq : assembler.limits = limits
  idle : assembler.unfinished = none
  inflater : ∀ inflater, assembler.inflater = some inflater →
    inflater.Stands inflater.history ∧ inflater.maxSize = limits.messageSize

/-- The data that a whole frame carries: its payload, or what that spells to the
end of a block, where no copy begins further back than the decompressor's window. -/
inductive Carries (assembler : Assembler) (whole : Frame) : Bytes → Prop where
  | plain (rsv1 : whole.rsv1 = false) : Carries assembler whole whole.payload
  | compressed {inflater : Deflate.Inflater} {data : Bytes} {e : Deflate.End}
      (rsv1 : whole.rsv1 = true) (has : assembler.inflater = some inflater)
      (spells : inflater.Spells inflater.window whole.payload data e) (ends : e ≠ .inside) :
      Carries assembler whole data

/-- Frames come to nothing but a fault that names the limit and a size over it. -/
def Refuses (assembler : Assembler) (limit : Nat) (frames : List Frame) : Prop :=
  ∃ size, limit < size ∧ assembler.takeAll frames = ([], .fault (.messageTooLarge size limit))

section
variable {assembler : Assembler} {limits : Limits} {whole frame : Frame} {message : Message}
  {data : Bytes}

theorem refuses_of_accept {size : Nat} {after : Assembler} (frames : List Frame)
    (large : limits.messageSize < size)
    (h : assembler.accept frame = (.error (.messageTooLarge size limits.messageSize), after)) :
    assembler.Refuses limits.messageSize (frame :: frames) :=
  ⟨size, large, takeAll_of_fault frames h⟩

theorem Refuses.later {limit : Nat} {frames : List Frame} {after : Assembler}
    (refuses : after.Refuses limit frames) (h : assembler.accept frame = (.ok none, after)) :
    assembler.Refuses limit (frame :: frames) := by
  obtain ⟨size, large, refused⟩ := refuses
  exact ⟨size, large, (takeAll_of_none frames h).trans refused⟩

/-! ## In one frame -/

theorem decode_of_isOf (is : message.IsOf frame.opcode data)
    (small : data.length ≤ limits.messageSize) : decode limits frame.opcode data = .ok message := by
  refine decode_eq_ok_iff.mpr ⟨small, ?_⟩
  cases message with
  | text s =>
      obtain ⟨opcode, rfl⟩ := is
      exact .inl ⟨opcode, s, Bytes.toText?_ofText s, rfl⟩
  | binary bytes =>
      obtain ⟨opcode, rfl⟩ := is
      exact .inr ⟨opcode, rfl⟩
  | ping | pong | close => exact is.elim

theorem decode_of_large {opcode : Opcode} (large : limits.messageSize < data.length) :
    decode limits opcode data = .error (.messageTooLarge data.length limits.messageSize) := by
  unfold decode Limits.checkMessage
  rw [if_pos large]
  rfl

/-- In one frame a message is delivered if its data is within the limit, and
then the assembler is between two messages again. -/
theorem accept_of_le (between : assembler.Between limits) (fin : whole.fin = true)
    (is : message.IsOf whole.opcode data) (carries : assembler.Carries whole data)
    (small : data.length ≤ limits.messageSize) :
    ∃ after, assembler.accept whole = (.ok (some message), after) ∧ after.Between limits := by
  rw [accept_whole between.idle is.opcode fin, finish, inflate]
  cases carries with
  | plain rsv1 =>
      simp only [rsv1, Bool.not_false, if_true, Except.bind, between.limits_eq,
        decode_of_isOf is small]
      exact ⟨assembler, rfl, between⟩
  | @compressed inflater _ e rsv1 has spells ends =>
      obtain ⟨stands, same⟩ := between.inflater inflater has
      have fits : data.length ≤ inflater.maxSize := by
        rw [same]
        exact small
      obtain ⟨next, inflated, same', -, stands'⟩ :=
        Deflate.Inflater.inflate_of_spells stands (Nat.le_refl _) spells fits
      simp only [rsv1, Bool.not_true, Bool.false_eq_true, if_false, has, inflated, Except.bind,
        between.limits_eq, decode_of_isOf is small]
      refine ⟨_, rfl, rfl, between.idle, fun found h => ?_⟩
      cases h
      exact ⟨stands' ends, same'.trans same⟩

theorem refuses_of_lt (between : assembler.Between limits) (fin : whole.fin = true)
    (opcode : whole.opcode = .text ∨ whole.opcode = .binary)
    (carries : assembler.Carries whole data) (large : limits.messageSize < data.length) :
    assembler.Refuses limits.messageSize [whole] := by
  have made := assembler.finish_fst ⟨whole.opcode, whole.rsv1, whole.payload, 1⟩
  rw [← accept_whole between.idle opcode fin, between.limits_eq] at made
  cases carries with
  | plain rsv1 =>
      simp only [inflate, rsv1, Bool.not_false, if_true, Except.bind, decode_of_large large] at made
      exact refuses_of_accept [] large (Prod.ext made rfl)
  | @compressed inflater _ e rsv1 has spells ends =>
      obtain ⟨stands, same⟩ := between.inflater inflater has
      rw [← same] at large
      obtain ⟨size, more, failed⟩ :=
        Deflate.Inflater.inflate_of_large stands (Nat.le_refl _) spells large
      rw [same] at more failed
      simp only [inflate, rsv1, Bool.not_true, Bool.false_eq_true, if_false, has, failed] at made
      exact refuses_of_accept [] more (Prod.ext made rfl)

/-! ## In fragments -/

theorem takeAll_congr {assembler' : Assembler} {frame' : Frame} (frames : List Frame)
    (same : assembler.accept frame = assembler'.accept frame') :
    assembler.takeAll (frame :: frames) = assembler'.takeAll (frame' :: frames) := by
  rw [takeAll, takeAll, same]

/-- The later fragments of a message come to what the whole frame would, unless
what is sent is over the limit. -/
theorem takeAll_continuations {begun : Unfinished} {parts : List Bytes}
    (under_way : assembler.unfinished = some begun)
    (data : whole.opcode = .text ∨ whole.opcode = .binary) (fin : whole.fin = true)
    (opcode : begun.opcode = whole.opcode) (compressed : begun.compressed = whole.rsv1)
    (joined : begun.data ++ parts.flatten = whole.payload) (more : parts ≠ [])
    (few : begun.fragments + parts.length ≤ assembler.limits.fragmentCount) :
    (whole.payload.length ≤ assembler.limits.messageSize →
      assembler.takeAll (continuations parts) =
        { assembler with unfinished := none }.takeAll [whole]) ∧
    (assembler.limits.messageSize < whole.payload.length →
      assembler.Refuses assembler.limits.messageSize (continuations parts)) := by
  induction parts generalizing assembler begun with
  | nil => exact absurd rfl more
  | cons part parts ih =>
      rw [List.flatten_cons, ← List.append_assoc] at joined
      rw [List.length_cons] at few
      have one : begun.fragments + 1 ≤ assembler.limits.fragmentCount := by omega
      have sent : begun.data.length + part.length + parts.flatten.length =
          whole.payload.length := by
        rw [← joined, List.length_append, List.length_append]
      by_cases large : assembler.limits.messageSize < begun.data.length + part.length
      · have refused : assembler.accept (Frame.plain parts.isEmpty .continuation part) = _ :=
          accept_brokenOff under_way rfl rfl (extend_of_lt one large)
        exact ⟨fun small => absurd small (by omega), fun _ => refuses_of_accept _ large refused⟩
      · have extended : extend assembler.limits begun part = .ok { begun with
            data := begun.data ++ part, fragments := begun.fragments + 1 } :=
          extend_eq_ok_iff.mpr ⟨one, Nat.le_of_not_lt large, rfl⟩
        cases parts with
        | nil =>
            -- the last fragment makes what the whole frame makes
            rw [List.flatten_nil, List.append_nil] at joined
            rw [List.flatten_nil, List.length_nil, Nat.add_zero] at sent
            have finished : assembler.accept (Frame.plain true .continuation part) = _ :=
              accept_last under_way rfl rfl rfl extended
            have same : assembler.accept (Frame.plain true .continuation part) =
                { assembler with unfinished := none }.accept whole :=
              finished.trans ((finish_congr opcode compressed joined).trans
                (accept_whole rfl data fin).symm)
            exact ⟨fun _ => takeAll_congr [] same, fun large => absurd large (by omega)⟩
        | cons next parts =>
            let longer : Unfinished := { begun with
              data := begun.data ++ part, fragments := begun.fragments + 1 }
            have carried : assembler.accept (Frame.plain false .continuation part) =
                (.ok none, { assembler with unfinished := some longer }) :=
              accept_later under_way rfl rfl rfl extended
            have under_way : { assembler with unfinished := some longer }.unfinished =
                some longer := rfl
            have fewer : longer.fragments + (next :: parts).length ≤
                assembler.limits.fragmentCount := by
              change begun.fragments + 1 + (next :: parts).length ≤ _
              omega
            have rest := ih under_way opcode compressed joined (List.cons_ne_nil _ _) fewer
            exact ⟨fun small => (takeAll_of_none _ carried).trans (rest.1 small),
              fun large => (rest.2 large).later carried⟩

/-- In how many frames a message comes makes no difference, unless they are more
than one and what is sent is over the limit. -/
theorem takeAll_frames {cut : Cut} (idle : assembler.unfinished = none)
    (data : cut.whole.opcode = .text ∨ cut.whole.opcode = .binary) (fin : cut.whole.fin = true)
    (joined : cut.parts.flatten = cut.whole.payload) (nonempty : cut.parts ≠ [])
    (few : cut.parts.length ≤ assembler.limits.fragmentCount) :
    (cut.parts.length = 1 ∨ cut.whole.payload.length ≤ assembler.limits.messageSize →
      assembler.takeAll cut.frames = assembler.takeAll [cut.whole]) ∧
    (1 < cut.parts.length ∧ assembler.limits.messageSize < cut.whole.payload.length →
      assembler.Refuses assembler.limits.messageSize cut.frames) := by
  cases cut_eq : cut.parts with
  | nil => exact absurd cut_eq nonempty
  | cons part parts =>
      rw [cut_eq] at joined few
      rw [Cut.frames, cut_eq]
      cases parts with
      | nil =>
          have all : part = cut.whole.payload := by
            rw [← joined, List.flatten_singleton]
          have same : { cut.whole with fin := true, payload := part } = cut.whole := by
            rw [all, ← fin]
          refine ⟨fun _ => ?_, fun several => absurd several.1 (Nat.lt_irrefl 1)⟩
          change assembler.takeAll [{ cut.whole with fin := true, payload := part }] = _
          rw [same]
      | cons next parts =>
          have sent : part.length + (next :: parts).flatten.length =
              cut.whole.payload.length := by
            rw [← joined, ← List.length_append, ← List.flatten_cons]
          by_cases large : assembler.limits.messageSize < part.length
          · have refused : assembler.accept { cut.whole with fin := false, payload := part } = _ :=
              accept_first_of_lt idle data rfl large
            refine ⟨?_, fun _ => refuses_of_accept _ large refused⟩
            rintro (one | small)
            · cases one
            · omega
          · let begun : Unfinished := ⟨cut.whole.opcode, cut.whole.rsv1, part, 1⟩
            have started : assembler.accept { cut.whole with fin := false, payload := part } =
                (.ok none, { assembler with unfinished := some begun }) :=
              accept_first idle data rfl (Nat.le_of_not_lt large)
            have under_way : { assembler with unfinished := some begun }.unfinished =
                some begun := rfl
            have fewer : begun.fragments + (next :: parts).length ≤
                assembler.limits.fragmentCount := by
              rw [Nat.add_comm]
              exact few
            have rest := takeAll_continuations under_way data fin rfl rfl joined
              (List.cons_ne_nil next parts) fewer
            have between : { assembler with unfinished := none } = assembler := by rw [← idle]
            refine ⟨?_, fun several => (rest.2 several.2).later started⟩
            rintro (one | small)
            · cases one
            · have taken : assembler.takeAll _ = { assembler with unfinished := none }.takeAll _ :=
                (takeAll_of_none _ started).trans (rest.1 small)
              rw [between] at taken
              exact taken

end

end Assembler

/-! ## On the wire -/

/-- A whole frame sent in as many frames of as much data as a reader takes, with
masks as the reader's role has it. -/
structure Cut.Posted (role : Role) (limits : Limits) (cut : Cut) (sent : Sent) : Prop where
  fin : cut.whole.fin = true
  joined : cut.parts.flatten = cut.whole.payload
  nonempty : cut.parts ≠ []
  few : cut.parts.length ≤ limits.fragmentCount
  short : ∀ part ∈ cut.parts, part.length ≤ limits.frameSize
  frames : sent.map Prod.fst = cut.frames
  masked : ∀ frame mask, (frame, mask) ∈ sent → mask.isSome = role.expectsMasked
  /-- The sizes are ones that a length of eight bytes can have. -/
  wire : ∀ frame mask, (frame, mask) ∈ sent → frame.wireSize mask.isSome ≤ Frame.maxSize

theorem Cut.posted_bare {limits : Limits} {cut : Cut} (fin : cut.whole.fin = true)
    (joined : cut.parts.flatten = cut.whole.payload) (nonempty : cut.parts ≠ [])
    (few : cut.parts.length ≤ limits.fragmentCount)
    (short : ∀ part ∈ cut.parts, part.length ≤ limits.frameSize)
    (wire : ∀ frame ∈ cut.frames, frame.wireSize false ≤ Frame.maxSize) :
    cut.Posted .client limits (cut.frames.map fun frame => (frame, none)) := by
  refine ⟨fin, joined, nonempty, few, short, ?_, fun frame mask h => ?_, fun frame mask h => ?_⟩
  · rw [List.map_map]
    exact List.map_id _
  · obtain ⟨_, -, same⟩ := List.mem_map.mp h
    cases same
    rfl
  · obtain ⟨_, part, same⟩ := List.mem_map.mp h
    cases same
    exact wire _ part

namespace Reader

/-- A reader between two messages. -/
structure Between (limits : Limits) (reader : Reader) : Prop where
  empty : reader.frames.buffer = []
  limits_eq : reader.frames.limits = limits
  compression : reader.frames.compression = reader.assembler.inflater.isSome
  assembler : reader.assembler.Between limits

theorem between_new (role : Role) (limits : Limits) (bits : Nat) (noContext compression : Bool) :
    (Reader.new (.new role limits []) (if compression then
      some (.new bits noContext limits.messageSize) else none)).Between limits := by
  refine ⟨rfl, rfl, rfl, rfl, rfl, fun inflater h => ?_⟩
  cases compression with
  | false => cases h
  | true =>
      cases h
      exact ⟨Deflate.Inflater.stands_new bits noContext limits.messageSize, rfl⟩

variable {reader : Reader} {limits : Limits} {cut : Cut} {sent : Sent}

theorem takes_of_posted {data : Bytes} (between : reader.Between limits)
    (opcode : cut.whole.opcode = .text ∨ cut.whole.opcode = .binary)
    (carries : reader.assembler.Carries cut.whole data)
    (posted : cut.Posted reader.frames.role limits sent) :
    ∀ frame mask, (frame, mask) ∈ sent → reader.frames.Takes frame mask := by
  intro frame mask h
  have part : frame ∈ cut.frames := by
    rw [← posted.frames]
    exact List.mem_map_of_mem h
  obtain ⟨bare, rsv1, mem⟩ := mem_frames opcode part
  refine ⟨posted.masked frame mask h, fun set => ⟨?_, bare⟩, ?_,
    Frame.checkControl_of_data bare, posted.wire frame mask h⟩
  · rw [between.compression]
    cases carries with
    | plain plain => exact absurd (plain.symm.trans (rsv1 set)) Bool.false_ne_true
    | compressed _ has => rw [has]; rfl
  · rw [between.limits_eq]
    exact posted.short _ mem

section
variable {message : Message} {data : Bytes}

theorem readAll_posted_of_le (between : reader.Between limits)
    (is : message.IsOf cut.whole.opcode data) (carries : reader.assembler.Carries cut.whole data)
    (posted : cut.Posted reader.frames.role limits sent) {pieces : List Bytes}
    (whole : pieces.flatten = wire sent) (small : data.length ≤ limits.messageSize)
    (within : cut.parts.length = 1 ∨ cut.whole.payload.length ≤ limits.messageSize) :
    reader.readAll (.ofPieces pieces) = ([message], .ended) := by
  have takes := takes_of_posted between is.opcode carries posted
  have few := posted.few
  obtain ⟨after, accepted, -⟩ :=
    Assembler.accept_of_le between.assembler posted.fin is carries small
  rw [← between.assembler.limits_eq] at few within
  have same := (Assembler.takeAll_frames between.assembler.idle is.opcode posted.fin
    posted.joined posted.nonempty few).1 within
  rw [readAll_wire between.empty takes whole, posted.frames, same]
  exact Assembler.takeAll_of_message [] accepted

theorem readAll_posted_of_lt (between : reader.Between limits)
    (opcode : cut.whole.opcode = .text ∨ cut.whole.opcode = .binary)
    (carries : reader.assembler.Carries cut.whole data)
    (posted : cut.Posted reader.frames.role limits sent) {pieces : List Bytes}
    (whole : pieces.flatten = wire sent)
    (large : limits.messageSize < data.length ∨
      (1 < cut.parts.length ∧ limits.messageSize < cut.whole.payload.length)) :
    ∃ size, limits.messageSize < size ∧
      reader.readAll (.ofPieces pieces) =
        ([], .fault (.messageTooLarge size limits.messageSize)) := by
  have takes := takes_of_posted between opcode carries posted
  have few := posted.few
  rw [← between.assembler.limits_eq] at few
  have split := Assembler.takeAll_frames between.assembler.idle opcode posted.fin posted.joined
    posted.nonempty few
  rw [between.assembler.limits_eq] at split
  rw [readAll_wire between.empty takes whole, posted.frames]
  by_cases several : 1 < cut.parts.length ∧ limits.messageSize < cut.whole.payload.length
  · exact split.2 several
  · have within : cut.parts.length = 1 ∨ cut.whole.payload.length ≤ limits.messageSize := by
      have some := List.length_pos_iff.mpr posted.nonempty
      omega
    rw [split.1 within]
    exact Assembler.refuses_of_lt between.assembler posted.fin opcode carries
      (large.resolve_right several)

/-- A message is delivered if its data is within the limit and what is sent is
too where it is sent in fragments, and it is refused if not: so the cut into
fragments makes a difference just to a message that is within the limit but
compressed to more. -/
theorem readAll_posted (between : reader.Between limits)
    (is : message.IsOf cut.whole.opcode data) (carries : reader.assembler.Carries cut.whole data)
    (posted : cut.Posted reader.frames.role limits sent) {pieces : List Bytes}
    (whole : pieces.flatten = wire sent) :
    (data.length ≤ limits.messageSize →
      (cut.parts.length = 1 ∨ cut.whole.payload.length ≤ limits.messageSize) →
      reader.readAll (.ofPieces pieces) = ([message], .ended)) ∧
    (limits.messageSize < data.length ∨
      (1 < cut.parts.length ∧ limits.messageSize < cut.whole.payload.length) →
      ∃ size, limits.messageSize < size ∧ reader.readAll (.ofPieces pieces) =
        ([], .fault (.messageTooLarge size limits.messageSize))) :=
  ⟨readAll_posted_of_le between is carries posted whole,
    readAll_posted_of_lt between is.opcode carries posted whole⟩

end

/-- A text that is cut inside its character, under a limit of its two bytes. -/
theorem readAll_posted_cutCharacter :
    let cut : Cut := ⟨Frame.text [0xC3, 0xA9], none, [[0xC3], [0xA9]]⟩
    ∀ pieces : List Bytes, pieces.flatten = wire (cut.frames.map fun frame => (frame, none)) →
      (Reader.new (.new .client { messageSize := 2 } []) none).readAll (.ofPieces pieces) =
        ([.text "é"], .ended) := by
  intro cut pieces whole
  have is : (Message.text "é").IsOf .text [0xC3, 0xA9] := ⟨rfl, by decide⟩
  have posted : cut.Posted .client { messageSize := 2 }
      (cut.frames.map fun frame => (frame, none)) :=
    Cut.posted_bare rfl rfl (List.cons_ne_nil _ _) (by decide) (by decide) (by decide)
  exact (readAll_posted (between_new .client _ 15 false false) is (.plain rfl) posted whole).1
    (by decide) (.inr (by decide))

/-- The letter `a`, stored by a compressor, is delivered in one frame under a
limit of one byte, and refused in two. -/
theorem refused_in_fragments :
    let whole : Frame := { Frame.binary [0, 1, 0, 254, 255, 97, 0] with rsv1 := true }
    let cut : Cut := ⟨whole, none, [[0], [1, 0, 254, 255, 97, 0]]⟩
    let reader := Reader.new (.new .client { messageSize := 1 } []) (some (.new 15 false 1))
    reader.readAll (.ofPieces [wire [(whole, none)]]) = ([.binary [97]], .ended) ∧
    ∃ size, 1 < size ∧
      reader.readAll (.ofPieces [wire (cut.frames.map fun frame => (frame, none))]) =
        ([], .fault (.messageTooLarge size 1)) := by
  intro whole cut reader
  have between : reader.Between { messageSize := 1 } := between_new .client _ 15 false true
  have spells : (Deflate.Inflater.new 15 false 1).Spells (Deflate.Window.size 15)
      whole.payload [97] .boundary := by
    have closing : Deflate.Blocks (Deflate.Window.size 15) (#[] ++ [97].toArray)
        (Deflate.Bits.ofBytes (0 :: Deflate.Window.tail)) (#[] ++ [97].toArray) :=
      Deflate.blocks_closing (by decide : 5 < 8)
    have short : ([97] : Bytes).length ≤ 65535 := by decide
    exact (Deflate.blocks_storedHeader short closing).stream
  have carries : reader.assembler.Carries whole [97] := .compressed rfl rfl spells (by decide)
  have single : Cut.Posted .client { messageSize := 1 } ⟨whole, none, [whole.payload]⟩
      [(whole, none)] :=
    Cut.posted_bare rfl rfl (List.cons_ne_nil _ _) (by decide) (by decide) (by decide)
  have double : cut.Posted .client { messageSize := 1 }
      (cut.frames.map fun frame => (frame, none)) :=
    Cut.posted_bare rfl rfl (List.cons_ne_nil _ _) (by decide) (by decide) (by decide)
  constructor
  · have is : (Message.binary [97]).IsOf whole.opcode [97] := ⟨rfl, rfl⟩
    exact readAll_posted_of_le between is carries single List.flatten_singleton (by decide)
      (.inl rfl)
  · exact readAll_posted_of_lt between (.inr rfl) carries double List.flatten_singleton
      (.inr ⟨by decide, by decide⟩)

end Reader

end DeflateTrial.Message
