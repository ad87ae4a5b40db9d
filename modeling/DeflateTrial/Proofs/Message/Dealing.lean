/-
Dealing — all that an assembler can make of a frame

A frame is a control message, or it is refused, or it begins a message, carries
one on, breaks one off, or completes one.  `Deals` lists these six with what
must be so for each of them, and `deals_accept` says that there are no others;
whatever is claimed of every frame is claimed of the six.  Where it is known
which of them a frame is, `accept_whole`, `accept_first`, `accept_later` and
`accept_last` say what comes of it.

A message that is complete becomes one of two things: the message that its data
stands for, if the data is no longer than the limit and, for a text, UTF-8
(`decode_eq_ok_iff`); or a fault of the decompressor, of the size or of the
encoding (`fault_of_finish`).
-/
import DeflateTrial.Message.Assembler

namespace DeflateTrial

theorem Deflate.Inflater.fault_of_inflate {inflater : Inflater} {data : Bytes} {fault : Fault}
    (h : (inflater.inflate data).1 = .error fault) :
    (∃ what, fault = .extension what) ∨ ∃ size, fault = .messageTooLarge size inflater.maxSize := by
  have malformed : ∀ error, ∃ what, failure error = .extension what := fun error => ⟨_, rfl⟩
  unfold inflate at h
  split at h
  · cases h
    exact .inl (malformed none)
  · unfold settle at h
    split at h
    · cases h
      exact .inl (malformed _)
    · simp only at h
      split at h
      · cases h
        exact .inr ⟨_, rfl⟩
      · cases h

namespace Message

/-- The message of a control frame: a close frame carries nothing, or a code
that may be sent and a reason in UTF-8. -/
def ofControl? (frame : Frame) : Option Message :=
  match frame.opcode with
  | .ping => some (.ping frame.payload)
  | .pong => some (.pong frame.payload)
  | .close => (CloseFrame.parse frame.payload).toOption.map .close
  | .continuation | .text | .binary => none

theorem isControl_of_ofControl? {frame : Frame} {message : Message}
    (h : ofControl? frame = some message) : message.isControl = true := by
  unfold ofControl? at h
  cases ho : frame.opcode with
  | ping | pong =>
      rw [ho] at h
      cases h
      rfl
  | close =>
      rw [ho] at h
      obtain ⟨status, -, rfl⟩ := Option.map_eq_some_iff.mp h
      rfl
  | continuation | text | binary =>
      rw [ho] at h
      cases h

theorem ofControl?_eq_none {frame : Frame} (bare : frame.opcode.isControl = false) :
    ofControl? frame = none := by
  unfold ofControl?
  cases ho : frame.opcode with
  | continuation | text | binary => rfl
  | close | ping | pong =>
      rw [ho] at bare
      cases bare

theorem opcode_of_ofControl? {frame : Frame} {message : Message}
    (h : ofControl? frame = some message) : frame.opcode.isControl = true := by
  cases kind : frame.opcode.isControl with
  | true => rfl
  | false =>
      rw [ofControl?_eq_none kind] at h
      cases h

namespace Assembler

variable {assembler after : Assembler} {frame : Frame} {message : Message}

/-! ## Making a message of its data -/

theorem inflate_keeps (assembler : Assembler) (whole : Unfinished) :
    (assembler.inflate whole).2.limits = assembler.limits ∧
      (assembler.inflate whole).2.unfinished = assembler.unfinished ∧
      (assembler.inflate whole).2.inflater.isSome = assembler.inflater.isSome := by
  unfold inflate
  split
  · exact ⟨rfl, rfl, rfl⟩
  · split
    · exact ⟨rfl, rfl, rfl⟩
    · rename_i has
      rw [has]
      exact ⟨rfl, rfl, rfl⟩

theorem finish_keeps (assembler : Assembler) (whole : Unfinished) :
    (assembler.finish whole).2.limits = assembler.limits ∧
      (assembler.finish whole).2.unfinished = assembler.unfinished ∧
      (assembler.finish whole).2.inflater.isSome = assembler.inflater.isSome :=
  assembler.inflate_keeps whole

theorem decode_eq_ok_iff {limits : Limits} {opcode : Opcode} {data : Bytes} :
    decode limits opcode data = .ok message ↔ data.length ≤ limits.messageSize ∧
      (opcode = .text ∧ (∃ s, Bytes.toText? data = some s ∧ message = .text s) ∨
        opcode = .binary ∧ message = .binary data) := by
  unfold decode Limits.checkMessage
  by_cases large : data.length > limits.messageSize
  · rw [if_pos large]
    refine ⟨fun h => ?_, fun h => absurd h.1 (Nat.not_le_of_lt large)⟩
    cases h
  · rw [if_neg large]
    have small : data.length ≤ limits.messageSize := Nat.le_of_not_lt large
    cases opcode with
    | text =>
        cases text : Bytes.toText? data with
        | none =>
            refine ⟨fun h => ?_, fun h => ?_⟩
            · simp only at h
              cases h
            · obtain ⟨-, ⟨-, s, is, -⟩ | ⟨other, -⟩⟩ := h
              · cases is
              · cases other
        | some s =>
            refine ⟨fun h => ?_, fun h => ?_⟩
            · simp only at h
              cases h
              exact ⟨small, .inl ⟨rfl, s, rfl, rfl⟩⟩
            · obtain ⟨-, ⟨-, s', is, rfl⟩ | ⟨other, -⟩⟩ := h
              · cases is
                rfl
              · cases other
    | binary =>
        refine ⟨fun h => ?_, fun h => ?_⟩
        · cases h
          exact ⟨small, .inr ⟨rfl, rfl⟩⟩
        · obtain ⟨-, ⟨other, -⟩ | ⟨-, rfl⟩⟩ := h
          · cases other
          · rfl
    | continuation | close | ping | pong =>
        refine ⟨fun h => ?_, fun h => ?_⟩
        · cases h
        · obtain ⟨-, ⟨other, -⟩ | ⟨other, -⟩⟩ := h <;> cases other

theorem isControl_of_decode {limits : Limits} {opcode : Opcode} {data : Bytes}
    (h : decode limits opcode data = .ok message) : message.isControl = false := by
  obtain ⟨-, ⟨-, s, -, rfl⟩ | ⟨-, rfl⟩⟩ := decode_eq_ok_iff.mp h <;> rfl

theorem finish_fst (assembler : Assembler) (whole : Unfinished) :
    (assembler.finish whole).1 =
      ((assembler.inflate whole).1.bind (decode assembler.limits whole.opcode)).map some := by
  rw [← (assembler.inflate_keeps whole).1]
  rfl

theorem decode_of_finish {whole : Unfinished}
    (h : (assembler.finish whole).1 = .ok (some message)) :
    ∃ data, (assembler.inflate whole).1 = .ok data ∧
      decode assembler.limits whole.opcode data = .ok message := by
  rw [finish_fst] at h
  cases inflated : (assembler.inflate whole).1 with
  | error fault =>
      rw [inflated] at h
      cases h
  | ok data =>
      rw [inflated] at h
      cases decoded : decode assembler.limits whole.opcode data with
      | error fault =>
          simp only [Except.bind, decoded] at h
          cases h
      | ok found =>
          simp only [Except.bind, decoded] at h
          cases h
          exact ⟨data, rfl, decoded⟩

theorem finish_cases (assembler : Assembler) (whole : Unfinished) :
    (∃ fault, (assembler.finish whole).1 = .error fault) ∨
    ∃ message, (assembler.finish whole).1 = .ok (some message) ∧ message.isControl = false := by
  unfold finish
  rcases assembler.inflate whole with ⟨data, after⟩
  cases data with
  | error fault => exact .inl ⟨fault, rfl⟩
  | ok data =>
      cases hd : decode after.limits whole.opcode data with
      | error fault => exact .inl ⟨fault, by simp only [Except.bind, hd]; rfl⟩
      | ok message =>
          exact .inr ⟨message, by simp only [Except.bind, hd]; rfl, isControl_of_decode hd⟩

/-- In how many fragments the data came does not matter. -/
theorem finish_congr {whole whole' : Unfinished} (opcode : whole.opcode = whole'.opcode)
    (compressed : whole.compressed = whole'.compressed) (data : whole.data = whole'.data) :
    assembler.finish whole = assembler.finish whole' := by
  simp only [finish, inflate, opcode, compressed, data]

theorem fault_of_finish {whole : Unfinished} {fault : Fault}
    (h : (assembler.finish whole).1 = .error fault)
    (data : whole.opcode = .text ∨ whole.opcode = .binary)
    (inflater : whole.compressed = true → assembler.inflater.isSome = true) :
    (∃ what, fault = .extension what) ∨ (∃ size max, fault = .messageTooLarge size max) ∨
      fault = .invalidUtf8 := by
  rw [finish_fst] at h
  cases inflated : (assembler.inflate whole).1 with
  | error cause =>
      rw [inflated] at h
      cases h
      unfold inflate at inflated
      split at inflated
      · cases inflated
      · rename_i compressed
        have compressed : whole.compressed = true := by simpa using compressed
        obtain ⟨has, is⟩ := Option.isSome_iff_exists.mp (inflater compressed)
        rw [is] at inflated
        rcases has.fault_of_inflate inflated with what | ⟨size, is⟩
        · exact .inl what
        · exact .inr (.inl ⟨size, _, is⟩)
  | ok bytes =>
      rw [inflated] at h
      simp only [Except.bind, decode, Limits.checkMessage] at h
      split at h
      · cases h
        exact .inr (.inl ⟨_, _, rfl⟩)
      · rcases data with is | is
        · rw [is] at h
          cases text : Bytes.toText? bytes with
          | none =>
              simp only [text] at h
              cases h
              exact .inr (.inr rfl)
          | some s =>
              simp only [text] at h
              cases h
        · rw [is] at h
          cases h

/-! ## Frame by frame -/

theorem accept_data (data : frame.opcode = .text ∨ frame.opcode = .binary) :
    assembler.accept frame = assembler.start frame := by
  rcases data with h | h <;> simp only [accept, h]

theorem accept_whole {whole : Frame} (idle : assembler.unfinished = none)
    (data : whole.opcode = .text ∨ whole.opcode = .binary) (fin : whole.fin = true) :
    assembler.accept whole =
      assembler.finish ⟨whole.opcode, whole.rsv1, whole.payload, 1⟩ := by
  rw [accept_data data, start, idle]
  simp only [Option.isSome_none, Bool.false_eq_true, if_false, fin, if_true]

theorem accept_control (h : ofControl? frame = some message) :
    assembler.accept frame = (.ok (some message), assembler) := by
  unfold ofControl? at h
  unfold accept
  cases ho : frame.opcode with
  | ping | pong =>
      rw [ho] at h
      cases h
      rfl
  | close =>
      simp only [ho] at h ⊢
      cases hp : CloseFrame.parse frame.payload with
      | error fault =>
          rw [hp] at h
          cases h
      | ok status =>
          rw [hp] at h
          cases h
          rfl
  | continuation | text | binary =>
      rw [ho] at h
      cases h

theorem extend_eq_ok_iff {limits : Limits} {begun whole : Unfinished} {payload : Bytes} :
    extend limits begun payload = .ok whole ↔ begun.fragments + 1 ≤ limits.fragmentCount ∧
      begun.data.length + payload.length ≤ limits.messageSize ∧
      whole = { begun with data := begun.data ++ payload, fragments := begun.fragments + 1 } := by
  simp only [extend, Limits.checkFragments, Limits.checkMessage]
  by_cases many : begun.fragments + 1 > limits.fragmentCount
  · rw [if_pos many]
    refine ⟨fun h => ?_, fun h => absurd h.1 (Nat.not_le_of_lt many)⟩
    cases h
  · rw [if_neg many]
    by_cases large : begun.data.length + payload.length > limits.messageSize
    · rw [if_pos large]
      refine ⟨fun h => ?_, fun h => absurd h.2.1 (Nat.not_le_of_lt large)⟩
      cases h
    · rw [if_neg large]
      refine ⟨fun h => ?_, fun h => ?_⟩
      · cases h
        exact ⟨Nat.le_of_not_lt many, Nat.le_of_not_lt large, rfl⟩
      · rw [h.2.2]
        rfl

theorem extend_of_lt {limits : Limits} {begun : Unfinished} {payload : Bytes}
    (few : begun.fragments + 1 ≤ limits.fragmentCount)
    (large : limits.messageSize < begun.data.length + payload.length) :
    extend limits begun payload =
      .error (.messageTooLarge (begun.data.length + payload.length) limits.messageSize) := by
  simp only [extend, Limits.checkFragments, Limits.checkMessage]
  rw [if_neg (Nat.not_lt.mpr few), if_pos large]
  rfl

section
variable {begun longer : Unfinished} {fault : Fault}

theorem accept_first (idle : assembler.unfinished = none)
    (data : frame.opcode = .text ∨ frame.opcode = .binary) (more : frame.fin = false)
    (small : frame.payload.length ≤ assembler.limits.messageSize) :
    assembler.accept frame = (.ok none, { assembler with
      unfinished := some ⟨frame.opcode, frame.rsv1, frame.payload, 1⟩ }) := by
  have room : assembler.limits.checkMessage frame.payload.length = .ok () :=
    if_neg (Nat.not_lt.mpr small)
  rw [accept_data data, start, idle]
  simp only [Option.isSome_none, Bool.false_eq_true, if_false, more, room]

theorem accept_first_of_lt (idle : assembler.unfinished = none)
    (data : frame.opcode = .text ∨ frame.opcode = .binary) (more : frame.fin = false)
    (large : assembler.limits.messageSize < frame.payload.length) :
    assembler.accept frame =
      (.error (.messageTooLarge frame.payload.length assembler.limits.messageSize), assembler) := by
  have full : assembler.limits.checkMessage frame.payload.length =
      .error (.messageTooLarge frame.payload.length assembler.limits.messageSize) := if_pos large
  rw [accept_data data, start, idle]
  simp only [Option.isSome_none, Bool.false_eq_true, if_false, more, full]

theorem accept_later (under_way : assembler.unfinished = some begun)
    (opcode : frame.opcode = .continuation) (rsv1 : frame.rsv1 = false) (more : frame.fin = false)
    (extended : extend assembler.limits begun frame.payload = .ok longer) :
    assembler.accept frame = (.ok none, { assembler with unfinished := some longer }) := by
  simp only [accept, opcode, continueWith, rsv1, Bool.false_eq_true, if_false, under_way, extended,
    more]

theorem accept_last (under_way : assembler.unfinished = some begun)
    (opcode : frame.opcode = .continuation) (rsv1 : frame.rsv1 = false) (fin : frame.fin = true)
    (extended : extend assembler.limits begun frame.payload = .ok longer) :
    assembler.accept frame = { assembler with unfinished := none }.finish longer := by
  simp only [accept, opcode, continueWith, rsv1, Bool.false_eq_true, if_false, under_way, extended,
    fin, if_true]

theorem accept_brokenOff (under_way : assembler.unfinished = some begun)
    (opcode : frame.opcode = .continuation) (rsv1 : frame.rsv1 = false)
    (failed : extend assembler.limits begun frame.payload = .error fault) :
    assembler.accept frame = (.error fault, { assembler with unfinished := none }) := by
  simp only [accept, opcode, continueWith, rsv1, Bool.false_eq_true, if_false, under_way, failed]

end

/-! ## All that can come of a frame -/

/-- The message that a frame completes: its own, or the one under way. -/
inductive Completes (assembler : Assembler) (frame : Frame) : Unfinished → Prop where
  | single (idle : assembler.unfinished = none)
      (data : frame.opcode = .text ∨ frame.opcode = .binary) (fin : frame.fin = true) :
      Completes assembler frame ⟨frame.opcode, frame.rsv1, frame.payload, 1⟩
  | last {begun whole : Unfinished} (under_way : assembler.unfinished = some begun)
      (opcode : frame.opcode = .continuation) (rsv1 : frame.rsv1 = false) (fin : frame.fin = true)
      (extended : extend assembler.limits begun frame.payload = .ok whole) :
      Completes assembler frame whole

/-- All that an assembler can make of a frame: by the answer, and the assembler
after it. -/
inductive Deals (assembler : Assembler) (frame : Frame) :
    Except Fault (Option Message) → Assembler → Prop where
  | control {message : Message} (kind : ofControl? frame = some message) :
      Deals assembler frame (.ok (some message)) assembler
  | refused {fault : Fault} : Deals assembler frame (.error fault) assembler
  | brokenOff {fault : Fault} :
      Deals assembler frame (.error fault) { assembler with unfinished := none }
  | begun (idle : assembler.unfinished = none)
      (data : frame.opcode = .text ∨ frame.opcode = .binary) (more : frame.fin = false)
      (small : frame.payload.length ≤ assembler.limits.messageSize) :
      Deals assembler frame (.ok none) { assembler with
        unfinished := some ⟨frame.opcode, frame.rsv1, frame.payload, 1⟩ }
  | carriedOn {begun longer : Unfinished} (under_way : assembler.unfinished = some begun)
      (opcode : frame.opcode = .continuation) (rsv1 : frame.rsv1 = false)
      (more : frame.fin = false)
      (extended : extend assembler.limits begun frame.payload = .ok longer) :
      Deals assembler frame (.ok none) { assembler with unfinished := some longer }
  | completed {whole : Unfinished} (completes : assembler.Completes frame whole) :
      Deals assembler frame ({ assembler with unfinished := none }.finish whole).1
        ({ assembler with unfinished := none }.finish whole).2

theorem deals_start (data : frame.opcode = .text ∨ frame.opcode = .binary) :
    assembler.Deals frame (assembler.start frame).1 (assembler.start frame).2 := by
  unfold start
  cases under_way : assembler.unfinished with
  | some begun => exact .refused
  | none =>
      have idle : { assembler with unfinished := none } = assembler := by
        rw [← under_way]
      simp only [Option.isSome_none, Bool.false_eq_true, if_false]
      cases fin : frame.fin with
      | true =>
          have made := Deals.completed (.single under_way data fin)
          rw [idle] at made
          exact made
      | false =>
          simp only [Bool.false_eq_true, if_false, Limits.checkMessage]
          by_cases large : frame.payload.length > assembler.limits.messageSize
          · rw [if_pos large]
            exact .refused
          · rw [if_neg large]
            exact .begun under_way data fin (Nat.le_of_not_lt large)

theorem deals_continueWith (opcode : frame.opcode = .continuation) :
    assembler.Deals frame (assembler.continueWith frame).1 (assembler.continueWith frame).2 := by
  unfold continueWith
  cases rsv1 : frame.rsv1 with
  | true => exact .refused
  | false =>
      simp only [Bool.false_eq_true, if_false]
      cases under_way : assembler.unfinished with
      | none => exact .refused
      | some begun =>
          simp only
          cases extended : extend assembler.limits begun frame.payload with
          | error fault => exact .brokenOff
          | ok longer =>
              cases fin : frame.fin with
              | true => exact .completed (.last under_way opcode rsv1 fin extended)
              | false => exact .carriedOn under_way opcode rsv1 fin extended

/-- Every frame comes to one of the six. -/
theorem deals_accept (assembler : Assembler) (frame : Frame) :
    assembler.Deals frame (assembler.accept frame).1 (assembler.accept frame).2 := by
  cases opcode : frame.opcode with
  | ping =>
      have kind : ofControl? frame = some (.ping frame.payload) := by rw [ofControl?, opcode]
      rw [accept_control kind]
      exact .control kind
  | pong =>
      have kind : ofControl? frame = some (.pong frame.payload) := by rw [ofControl?, opcode]
      rw [accept_control kind]
      exact .control kind
  | close =>
      cases parsed : CloseFrame.parse frame.payload with
      | error fault =>
          rw [accept, opcode]
          simp only [parsed]
          exact .refused
      | ok status =>
          have kind : ofControl? frame = some (.close status) := by
            rw [ofControl?, opcode]
            simp only [parsed]
            rfl
          rw [accept_control kind]
          exact .control kind
  | text =>
      rw [accept, opcode]
      exact deals_start (.inl opcode)
  | binary =>
      rw [accept, opcode]
      exact deals_start (.inr opcode)
  | continuation =>
      rw [accept, opcode]
      exact deals_continueWith opcode

theorem accept_keeps (assembler : Assembler) (frame : Frame) :
    (assembler.accept frame).2.limits = assembler.limits ∧
      (assembler.accept frame).2.inflater.isSome = assembler.inflater.isSome := by
  have deals := assembler.deals_accept frame
  generalize (assembler.accept frame).1 = answer at deals
  generalize (assembler.accept frame).2 = after at deals
  cases deals with
  | completed completes =>
      rename_i whole
      obtain ⟨limits, -, inflater⟩ := finish_keeps { assembler with unfinished := none } whole
      exact ⟨limits, inflater⟩
  | _ => exact ⟨rfl, rfl⟩

end Assembler

end Message

end DeflateTrial
