/-
Reassembly — what is so of a message under way, however often a reader is asked

A reader holds at most one message whose last fragment has not come.  It is
text or binary; it is compressed only if there is a decompressor; its data is
what its fragments carried, one behind the other, and within the limit; and it
has one fragment at least and, where more than one may come, no more than the
limit (`Unfinished.Sound`).  Some faults leave such a message where it is, some
break it off, and a reader may be asked again after any of them; so the
property is carried from frame to frame.

An attempt to read is a number of turns, one for each frame (`Progress.turn`),
and the frames that were taken without a fault are kept beside the reader.
Then a turn keeps `Progress.Sound`, every number of turns does, and a state
after any number of attempts is one after some number of turns.  What cannot go
wrong with a frame follows at each turn (`Assembler.Safe`): lengths are added
only of bytes that have come, and a message that is complete is one that can
be made of text or binary data.
-/
import DeflateTrial.Proofs.Message.Bounds
import DeflateTrial.Proofs.Reception

namespace DeflateTrial.Message

/-! ## The fragments of a message -/

/-- The data frames among frames. -/
def fragmentsOf (frames : List Frame) : List Frame :=
  frames.filter (!·.opcode.isControl)

theorem fragmentsOf_append (frames more : List Frame) :
    fragmentsOf (frames ++ more) = fragmentsOf frames ++ fragmentsOf more :=
  List.filter_append ..

theorem fragmentsOf_of_control {frame : Frame} (control : frame.opcode.isControl = true) :
    fragmentsOf [frame] = [] := by
  rw [fragmentsOf, List.filter_cons_of_neg (by rw [control]; exact Bool.false_ne_true)]
  rfl

theorem fragmentsOf_of_data {frame : Frame} (data : frame.opcode.isControl = false) :
    fragmentsOf [frame] = [frame] := by
  rw [fragmentsOf, List.filter_cons_of_pos (by rw [data]; rfl)]
  rfl

/-- What a first fragment and the frames behind it make of a message, as long
as none of its fragments is the last. -/
structure Parts (first : Frame) (behind : List Frame) (begun : Unfinished) : Prop where
  opcode : begun.opcode = first.opcode
  compressed : begun.compressed = first.rsv1
  data : begun.data = (fragmentsOf (first :: behind)).flatMap Frame.payload
  count : begun.fragments = (fragmentsOf (first :: behind)).length
  more : ∀ fragment ∈ fragmentsOf (first :: behind), fragment.fin = false
  later : ∀ fragment ∈ fragmentsOf behind,
    fragment.opcode = .continuation ∧ fragment.rsv1 = false

section
variable {first frame : Frame} {behind : List Frame} {begun : Unfinished}

theorem parts_first (data : first.opcode.isControl = false) (more : first.fin = false) :
    Parts first [] ⟨first.opcode, first.rsv1, first.payload, 1⟩ := by
  have only := fragmentsOf_of_data data
  refine ⟨rfl, rfl, ?_, ?_, fun fragment h => ?_, nofun⟩
  · rw [only, List.flatMap_singleton]
  · rw [only]
    rfl
  · rw [only, List.mem_singleton] at h
    rw [h]
    exact more

theorem Parts.control (parts : Parts first behind begun)
    (control : frame.opcode.isControl = true) : Parts first (behind ++ [frame]) begun := by
  have same : fragmentsOf (behind ++ [frame]) = fragmentsOf behind := by
    rw [fragmentsOf_append, fragmentsOf_of_control control, List.append_nil]
  have same' : fragmentsOf (first :: (behind ++ [frame])) = fragmentsOf (first :: behind) := by
    rw [← List.cons_append, fragmentsOf_append, fragmentsOf_of_control control, List.append_nil]
  refine ⟨parts.opcode, parts.compressed, ?_, ?_, ?_, ?_⟩
  · rw [same']
    exact parts.data
  · rw [same']
    exact parts.count
  · rw [same']
    exact parts.more
  · rw [same]
    exact parts.later

theorem Parts.later_fragment (parts : Parts first behind begun)
    (opcode : frame.opcode = .continuation) (rsv1 : frame.rsv1 = false)
    (more : frame.fin = false) :
    Parts first (behind ++ [frame]) { begun with
      data := begun.data ++ frame.payload, fragments := begun.fragments + 1 } := by
  have data : frame.opcode.isControl = false := by rw [opcode]; rfl
  have longer : fragmentsOf (first :: (behind ++ [frame])) =
      fragmentsOf (first :: behind) ++ [frame] := by
    rw [← List.cons_append, fragmentsOf_append, fragmentsOf_of_data data]
  refine ⟨parts.opcode, parts.compressed, ?_, ?_, fun fragment h => ?_, fun fragment h => ?_⟩
  · rw [longer, List.flatMap_append, List.flatMap_singleton, ← parts.data]
  · rw [longer, List.length_append, ← parts.count]
    rfl
  · rw [longer] at h
    rcases List.mem_append.mp h with h | h
    · exact parts.more fragment h
    · rw [List.mem_singleton.mp h]
      exact more
  · rw [fragmentsOf_append, fragmentsOf_of_data data] at h
    rcases List.mem_append.mp h with h | h
    · exact parts.later fragment h
    · rw [List.mem_singleton.mp h]
      exact ⟨opcode, rsv1⟩

end

/-! ## One frame -/

/-- What is so of a message under way, given the frames taken so far. -/
structure Unfinished.Sound (limits : Limits) (compression : Bool) (taken : List Frame)
    (begun : Unfinished) : Prop where
  opcode : begun.opcode = .text ∨ begun.opcode = .binary
  compressed : begun.compressed = true → compression = true
  gathered : ∃ before first behind, taken = before ++ first :: behind ∧ Parts first behind begun
  small : begun.data.length ≤ limits.messageSize
  some : 1 ≤ begun.fragments
  few : begun.fragments ≤ max 1 limits.fragmentCount

/-- The bytes that frames take at least: those of their payloads, and two each. -/
def bytesOf (frames : List Frame) : Nat :=
  (frames.flatMap Frame.payload).length + 2 * frames.length

theorem bytesOf_append (frames frames' : List Frame) :
    bytesOf (frames ++ frames') = bytesOf frames + bytesOf frames' := by
  simp only [bytesOf, List.flatMap_append, List.length_append]
  omega

theorem bytesOf_singleton (frame : Frame) : bytesOf [frame] = frame.payload.length + 2 := by
  rw [bytesOf, List.flatMap_singleton, List.length_singleton]

theorem bytesOf_fragmentsOf_le (frames : List Frame) :
    bytesOf (fragmentsOf frames) ≤ bytesOf frames := by
  induction frames with
  | nil => exact Nat.le_refl 0
  | cons frame frames ih =>
      rw [← List.singleton_append, fragmentsOf_append, bytesOf_append, bytesOf_append]
      cases kind : frame.opcode.isControl with
      | true =>
          rw [fragmentsOf_of_control kind]
          exact Nat.add_le_add (Nat.zero_le _) ih
      | false =>
          rw [fragmentsOf_of_data kind]
          exact Nat.add_le_add_left ih _

theorem Unfinished.Sound.le_taken {limits : Limits} {compression : Bool} {taken : List Frame}
    {begun : Unfinished} (here : begun.Sound limits compression taken) :
    begun.data.length + 2 * begun.fragments ≤ bytesOf taken := by
  obtain ⟨before, first, behind, rfl, parts⟩ := here.gathered
  have held := bytesOf_fragmentsOf_le (first :: behind)
  rw [bytesOf, ← parts.data, ← parts.count] at held
  rw [bytesOf_append]
  exact Nat.le_trans held (Nat.le_add_left ..)

namespace Assembler

/-- What is so of an assembler between two frames. -/
structure Sound (limits : Limits) (compression : Bool) (taken : List Frame)
    (assembler : Assembler) : Prop where
  limits_eq : assembler.limits = limits
  inflater_eq : assembler.inflater.isSome = compression
  unfinished : ∀ begun, assembler.unfinished = some begun → begun.Sound limits compression taken

/-- What cannot go wrong when a frame comes, of a stream of so many bytes. -/
structure Safe (limits : Limits) (received : Nat) (assembler : Assembler) (frame : Frame) :
    Prop where
  /-- The lengths that are added, and the fragments that are counted, are of
  different bytes that have come. -/
  sums : ∀ begun, assembler.unfinished = some begun →
    begun.data.length + frame.payload.length + begun.fragments + 1 ≤ received ∧
    begun.data.length + frame.payload.length ≤ limits.messageSize + limits.frameSize
  /-- A message that is complete is text or binary, and there is a decompressor
  if it needs one. -/
  complete : ∀ whole, assembler.Completes frame whole →
    (whole.opcode = .text ∨ whole.opcode = .binary) ∧
    (whole.compressed = true → assembler.inflater.isSome = true)
  /-- So it does not fail for want of either. -/
  faults : ∀ whole fault, assembler.Completes frame whole →
    ({ assembler with unfinished := none }.finish whole).1 = .error fault →
    fault ≠ .reservedBitsSet ∧ ∀ what, fault ≠ .protocolViolation what
  /-- A data message is data within the limit and, if it is text, the text that
  the data is the UTF-8 form of. -/
  message : ∀ message, message.isControl = false →
    (assembler.accept frame).1 = .ok (some message) →
    ∃ whole data, assembler.Completes frame whole ∧
      ({ assembler with unfinished := none }.inflate whole).1 = .ok data ∧
      data.length ≤ limits.messageSize ∧
      (message = .binary data ∨ ∃ s, message = .text s ∧ Bytes.toText? data = some s)

section
variable {limits : Limits} {compression : Bool} {taken : List Frame} {assembler : Assembler}
  {frame : Frame}

theorem sound_new (limits : Limits) (inflater : Option Deflate.Inflater) :
    (new limits inflater).Sound limits inflater.isSome [] :=
  ⟨rfl, rfl, nofun⟩

theorem Sound.of_idle (sound : assembler.Sound limits compression taken) (frames : List Frame)
    {after : Assembler} (keeps : after.limits = assembler.limits ∧
      after.inflater.isSome = assembler.inflater.isSome) (idle : after.unfinished = none) :
    after.Sound limits compression frames := by
  refine ⟨keeps.1.trans sound.limits_eq, keeps.2.trans sound.inflater_eq, fun begun is => ?_⟩
  rw [idle] at is
  cases is

/-- The frames taken, with one more if it was taken without a fault. -/
def takenWith (taken : List Frame) (frame : Frame) :
    Except Fault (Option Message) → List Frame
  | .ok _ => taken ++ [frame]
  | .error _ => taken

theorem bytesOf_takenWith_le (taken : List Frame) (frame : Frame)
    (answer : Except Fault (Option Message)) :
    bytesOf (takenWith taken frame answer) ≤ bytesOf taken + (frame.payload.length + 2) := by
  cases answer with
  | ok _ =>
      refine Nat.le_of_eq ?_
      rw [takenWith, bytesOf_append, bytesOf_singleton]
  | error _ => exact Nat.le_add_right ..

/-- A frame that has passed leaves a sound assembler sound, whatever comes of it. -/
theorem Sound.accept (sound : assembler.Sound limits compression taken)
    (rsv1 : frame.rsv1 = true → compression = true) :
    (assembler.accept frame).2.Sound limits compression
      (takenWith taken frame (assembler.accept frame).1) := by
  have keeps := assembler.accept_keeps frame
  have deals := assembler.deals_accept frame
  generalize (assembler.accept frame).1 = answer at deals ⊢
  generalize (assembler.accept frame).2 = after at deals keeps ⊢
  cases deals with
  | control kind =>
      refine ⟨sound.limits_eq, sound.inflater_eq, fun begun under_way => ?_⟩
      have here := sound.unfinished begun under_way
      obtain ⟨before, first, behind, taken_eq, parts⟩ := here.gathered
      refine { here with gathered := ⟨before, first, behind ++ [frame], ?_, ?_⟩ }
      · rw [takenWith, taken_eq, List.append_assoc, List.cons_append]
      · exact parts.control (opcode_of_ofControl? kind)
  | refused => exact sound
  | brokenOff => exact sound.of_idle _ keeps rfl
  | begun idle data more small =>
      refine ⟨keeps.1.trans sound.limits_eq, keeps.2.trans sound.inflater_eq, fun begun is => ?_⟩
      cases is
      have bare : frame.opcode.isControl = false := by
        rcases data with is | is <;> rw [is] <;> rfl
      refine ⟨data, rsv1, ⟨taken, frame, [], rfl, parts_first bare more⟩, ?_, Nat.le_refl 1,
        Nat.le_max_left ..⟩
      rw [← sound.limits_eq]
      exact small
  | @carriedOn begun longer under_way opcode rsv1 more extended =>
      have here := sound.unfinished begun under_way
      obtain ⟨few, small, rfl⟩ := extend_eq_ok_iff.mp extended
      rw [sound.limits_eq] at few small
      obtain ⟨before, first, behind, taken_eq, parts⟩ := here.gathered
      refine ⟨keeps.1.trans sound.limits_eq, keeps.2.trans sound.inflater_eq, fun begun' is => ?_⟩
      cases is
      refine ⟨here.opcode, here.compressed, ⟨before, first, behind ++ [frame], ?_,
        parts.later_fragment opcode rsv1 more⟩, ?_, Nat.le_add_left ..,
        Nat.le_trans few (Nat.le_max_right ..)⟩
      · rw [takenWith, taken_eq, List.append_assoc, List.cons_append]
      · rw [List.length_append]
        exact small
  | completed completes =>
      rename_i whole
      obtain ⟨-, idle, -⟩ := finish_keeps { assembler with unfinished := none } whole
      exact sound.of_idle _ keeps idle

/-- A sound assembler is given a frame that has passed, and whose bytes have
come after those of the frames before it: nothing can go wrong. -/
theorem Sound.safe (sound : assembler.Sound limits compression taken)
    (rsv1 : frame.rsv1 = true → compression = true)
    (size : frame.payload.length ≤ limits.frameSize) {received : Nat}
    (room : bytesOf taken + (frame.payload.length + 2) ≤ received) :
    assembler.Safe limits received frame := by
  have complete : ∀ whole, assembler.Completes frame whole →
      (whole.opcode = .text ∨ whole.opcode = .binary) ∧
      (whole.compressed = true → assembler.inflater.isSome = true) := by
    intro whole completes
    rw [sound.inflater_eq]
    cases completes with
    | single idle data fin => exact ⟨data, rsv1⟩
    | last under_way opcode plain fin extended =>
        have here := sound.unfinished _ under_way
        obtain ⟨-, -, rfl⟩ := extend_eq_ok_iff.mp extended
        exact ⟨here.opcode, here.compressed⟩
  refine ⟨fun begun under_way => ?_, complete, fun whole fault completes failed => ?_,
    fun message data made => ?_⟩
  · have here := sound.unfinished begun under_way
    have held := here.le_taken
    have small := here.small
    omega
  · obtain ⟨data, inflater⟩ := complete whole completes
    rcases fault_of_finish failed data inflater with ⟨_, rfl⟩ | ⟨_, _, rfl⟩ | rfl
    · exact ⟨nofun, nofun⟩
    · exact ⟨nofun, nofun⟩
    · exact ⟨nofun, nofun⟩
  · have deals := assembler.deals_accept frame
    rw [made] at deals
    generalize answer_eq : (Except.ok (some message) : Except Fault (Option Message)) = answer
      at deals
    generalize (assembler.accept frame).2 = after at deals
    cases deals with
    | control kind =>
        cases answer_eq
        rw [isControl_of_ofControl? kind] at data
        cases data
    | @completed whole completes =>
        obtain ⟨bytes, inflated, decoded⟩ := decode_of_finish answer_eq.symm
        obtain ⟨small, ⟨-, s, text, is⟩ | ⟨-, is⟩⟩ := decode_eq_ok_iff.mp decoded
        · rw [sound.limits_eq] at small
          exact ⟨whole, bytes, completes, inflated, small, .inr ⟨s, is, text⟩⟩
        · rw [sound.limits_eq] at small
          exact ⟨whole, bytes, completes, inflated, small, .inl is⟩
    | refused | brokenOff | begun | carriedOn => cases answer_eq

end

end Assembler

/-! ## Any number of frames -/

/-- A reader, what is still to come to it, and the frames that were taken so far. -/
structure Progress where
  reader : Reader
  source : Source
  taken : List Frame

namespace Progress

/-- One turn of an attempt to read a message: a frame is read, if one comes,
and given to the assembler. -/
def turn (progress : Progress) : Progress :=
  match progress.reader.frames.next progress.source with
  | (.frame frame, frames, source) =>
    let (answer, assembler) := progress.reader.assembler.accept frame
    ⟨⟨frames, assembler⟩, source, Assembler.takenWith progress.taken frame answer⟩
  | (_, frames, source) => { progress with reader := { progress.reader with frames }, source }

def turns : Nat → Progress → Progress
  | 0, progress => progress
  | n + 1, progress => turns n progress.turn

/-- What is so of a reader between two turns, of a stream of so many bytes. -/
structure Sound (limits : Limits) (compression : Bool) (received : Nat) (progress : Progress) :
    Prop where
  assembler : progress.reader.assembler.Sound limits compression progress.taken
  limits_eq : progress.reader.frames.limits = limits
  compression_eq : progress.reader.frames.compression = compression
  room : bytesOf progress.taken + (progress.reader.ahead progress.source).length ≤ received

theorem turn_of_frame {progress : Progress} {frame : Frame} {frames : Frame.Reader}
    {source : Source} (taken : progress.reader.frames.next progress.source =
      (.frame frame, frames, source)) :
    progress.turn = ⟨⟨frames, (progress.reader.assembler.accept frame).2⟩, source,
      Assembler.takenWith progress.taken frame (progress.reader.assembler.accept frame).1⟩ := by
  rw [turn, taken]

theorem turn_of_none {progress : Progress} {outcome : Frame.Reader.Outcome}
    {frames : Frame.Reader} {source : Source}
    (read : progress.reader.frames.next progress.source = (outcome, frames, source))
    (none : ∀ frame, outcome ≠ .frame frame) :
    progress.turn =
      { progress with reader := { progress.reader with frames }, source } := by
  rw [turn, read]
  cases outcome with
  | frame frame => exact absurd rfl (none frame)
  | fault fault => rfl
  | ended => rfl
  | waiting => rfl

section
variable {limits : Limits} {compression : Bool} {received : Nat} {progress : Progress}

/-- A frame that comes has RSV1 only with compression, is no larger than the
limit, and its bytes are others than those of the frames before it. -/
theorem Sound.of_frame (sound : progress.Sound limits compression received) {frame : Frame}
    {frames : Frame.Reader} {source : Source}
    (taken : progress.reader.frames.next progress.source = (.frame frame, frames, source)) :
    (frame.rsv1 = true → compression = true) ∧ frame.payload.length ≤ limits.frameSize ∧
      bytesOf progress.taken + (frame.payload.length + 2) + (frames.ahead source).length ≤
        received := by
  have reads := progress.reader.frames.reads_next progress.source
  rw [taken] at reads
  obtain ⟨passed, ahead⟩ := reads.frame frame rfl
  have ahead : (frames.ahead source).length + frame.payload.length + 2 ≤
      (progress.reader.ahead progress.source).length := ahead
  have room := sound.room
  refine ⟨fun set => ?_, ?_, ?_⟩
  · rw [← sound.compression_eq]
    exact (passed.rsv1 set).1
  · rw [← sound.limits_eq]
    exact passed.size
  · omega

theorem Sound.safe (sound : progress.Sound limits compression received) {frame : Frame}
    {frames : Frame.Reader} {source : Source}
    (taken : progress.reader.frames.next progress.source = (.frame frame, frames, source)) :
    progress.reader.assembler.Safe limits received frame := by
  obtain ⟨rsv1, size, room⟩ := sound.of_frame taken
  exact sound.assembler.safe rsv1 size (Nat.le_trans (Nat.le_add_right ..) room)

theorem Sound.turn (sound : progress.Sound limits compression received) :
    progress.turn.Sound limits compression received := by
  have reads := progress.reader.frames.reads_next progress.source
  rcases read : progress.reader.frames.next progress.source with ⟨outcome, frames, source⟩
  rw [read] at reads
  have limits_eq : frames.limits = limits := reads.limits.trans sound.limits_eq
  have compression_eq : frames.compression = compression :=
    reads.compression.trans sound.compression_eq
  by_cases found : ∃ frame, outcome = .frame frame
  · obtain ⟨frame, rfl⟩ := found
    obtain ⟨rsv1, -, room⟩ := sound.of_frame read
    rw [turn_of_frame read]
    refine ⟨sound.assembler.accept rsv1, limits_eq, compression_eq, ?_⟩
    have more := Assembler.bytesOf_takenWith_le progress.taken frame
      (progress.reader.assembler.accept frame).1
    simp only [Reader.ahead]
    omega
  · have none : ∀ frame, outcome ≠ .frame frame := fun frame is => found ⟨frame, is⟩
    have ahead : (frames.ahead source).length ≤ (progress.reader.ahead progress.source).length :=
      reads.ahead
    rw [turn_of_none read none]
    exact ⟨sound.assembler, limits_eq, compression_eq,
      Nat.le_trans (Nat.add_le_add_left ahead _) sound.room⟩

theorem Sound.turns (sound : progress.Sound limits compression received) (n : Nat) :
    (progress.turns n).Sound limits compression received := by
  induction n generalizing progress with
  | zero => exact sound
  | succ n ih => exact ih sound.turn

end

theorem turns_add (progress : Progress) (m n : Nat) :
    progress.turns (m + n) = (progress.turns m).turns n := by
  induction m generalizing progress with
  | zero => rw [Nat.zero_add]; rfl
  | succ m ih => rw [Nat.succ_add]; exact ih progress.turn

/-! ## Any number of attempts -/

/-- The last of the turns of an attempt: after it the reader is where the
attempt leaves it, and a message that the attempt brings has come in it. -/
theorem turns_of_next (progress : Progress) : ∃ n,
    ((progress.turns (n + 1)).reader, (progress.turns (n + 1)).source) =
      (progress.reader.next progress.source).2 ∧
    ∀ message, (progress.reader.next progress.source).1 = .message message →
      ∃ frame frames source, (progress.turns n).reader.frames.next (progress.turns n).source =
          (.frame frame, frames, source) ∧
        ((progress.turns n).reader.assembler.accept frame).1 = .ok (some message) := by
  -- on the bytes ahead: a frame that completes no message leads to the next one
  induction hn : (progress.reader.ahead progress.source).length using Nat.strongRecOn
    generalizing progress with
  | ind n ih =>
      subst hn
      rcases read : progress.reader.frames.next progress.source with ⟨outcome, frames, source⟩
      cases outcome with
      | frame frame =>
          have turned := turn_of_frame read
          rw [Reader.next_of_frame read]
          rcases accepted : progress.reader.assembler.accept frame with ⟨_ | _ | message, assembler⟩
          · rw [accepted] at turned
            refine ⟨0, ?_, nofun⟩
            rw [turns, turns, turned]
          · rw [accepted] at turned
            obtain ⟨k, state, brings⟩ := ih _ (Frame.Reader.ahead_lt_of_next read) progress.turn
              (by rw [turned]; rfl)
            rw [turned] at state brings
            exact ⟨k + 1, by rw [turns, turned]; exact state, by rw [turns, turned]; exact brings⟩
          · rw [accepted] at turned
            refine ⟨0, by rw [turns, turns, turned], fun found is => ?_⟩
            cases is
            exact ⟨frame, frames, source, read, by rw [turns, accepted]⟩
      | fault fault =>
          rw [Reader.next_of_fault read]
          exact ⟨0, by rw [turns, turns, turn_of_none read nofun], nofun⟩
      | ended =>
          rw [Reader.next_of_ended read]
          exact ⟨0, by rw [turns, turns, turn_of_none read nofun], nofun⟩
      | waiting =>
          rw [Reader.next_of_waiting read]
          exact ⟨0, by rw [turns, turns, turn_of_none read nofun], nofun⟩

end Progress

namespace Reader

/-- A reader and its stream after a number of attempts to read a message,
whatever came of them. -/
def attempts : Nat → Reader → Source → Reader × Source
  | 0, reader, source => (reader, source)
  | n + 1, reader, source =>
    attempts n (reader.next source).2.1 (reader.next source).2.2

theorem turns_of_attempts (count : Nat) (progress : Progress) : ∃ n,
    progress.reader.attempts count progress.source =
      ((progress.turns n).reader, (progress.turns n).source) := by
  induction count generalizing progress with
  | zero => exact ⟨0, rfl⟩
  | succ count ih =>
      obtain ⟨m, state, -⟩ := progress.turns_of_next
      obtain ⟨n, after⟩ := ih (progress.turns (m + 1))
      refine ⟨m + 1 + n, ?_⟩
      rw [Progress.turns_add, attempts, ← after, ← state]

/-- Reassembly keeps its state sound.  Let a reader be asked for messages over
any stream, in either role, with any limits, with or without a decompressor,
and also after faults.  Then

* after any number of attempts its state is one after some number of turns, and
  what is so of a message under way is so after every number of turns: text or
  binary, compressed only with a decompressor, its data the payloads of its
  fragments so far, and size and count within the limits;
* whenever a frame comes, it is safe: nothing that is added exceeds the bytes of
  the stream, a complete message is one that can be made of its data, and what is
  made of it is within the limit and, if it is text, of UTF-8;
* a message that an attempt brings is within the limit, and comes of such a
  frame. -/
theorem sound_attempts (role : Role) (limits : Limits) (leftover : Bytes)
    (inflater : Option Deflate.Inflater) (source : Source) :
    let reader := Reader.new (.new role limits leftover) inflater
    let after := fun n => Progress.turns n ⟨reader, source, []⟩
    (∀ count, ∃ n, reader.attempts count source = ((after n).reader, (after n).source)) ∧
    (∀ n, (after n).reader.assembler.Sound limits inflater.isSome (after n).taken) ∧
    (∀ n frame frames rest,
      (after n).reader.frames.next (after n).source = (.frame frame, frames, rest) →
      (after n).reader.assembler.Safe limits (leftover ++ source.bytes).length frame) ∧
    (∀ count message,
      ((reader.attempts count source).1.next (reader.attempts count source).2).1 =
        .message message →
      message.Within limits.messageSize ∧ ∃ n frame frames rest,
        (after n).reader.frames.next (after n).source = (.frame frame, frames, rest) ∧
        ((after n).reader.assembler.accept frame).1 = .ok (some message)) := by
  intro reader after
  have sound : ∀ n, (after n).Sound limits inflater.isSome (leftover ++ source.bytes).length := by
    have first : Progress.Sound limits inflater.isSome (leftover ++ source.bytes).length
        ⟨reader, source, []⟩ :=
      ⟨Assembler.sound_new limits inflater, rfl, rfl, Nat.le_of_eq (Nat.zero_add _)⟩
    intro n
    exact first.turns n
  refine ⟨fun count => turns_of_attempts count ⟨reader, source, []⟩,
    fun n => (sound n).assembler, fun n frame frames rest => (sound n).safe,
    fun count message brings => ?_⟩
  obtain ⟨n, state⟩ := turns_of_attempts count ⟨reader, source, []⟩
  obtain ⟨k, -, last⟩ := Progress.turns_of_next (Progress.turns n ⟨reader, source, []⟩)
  have state : reader.attempts count source = ((after n).reader, (after n).source) := state
  rw [state] at brings
  constructor
  · obtain ⟨within, -⟩ := within_of_next (Prod.ext brings rfl)
    rw [(sound n).assembler.limits_eq] at within
    exact within
  · obtain ⟨frame, frames, rest, taken, accepted⟩ := last message brings
    rw [← Progress.turns_add] at taken accepted
    exact ⟨n + k, frame, frames, rest, taken, accepted⟩

end Reader

end DeflateTrial.Message
