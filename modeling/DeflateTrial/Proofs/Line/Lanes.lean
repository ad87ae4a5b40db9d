/-
Lanes — one message from one end of a line to the other

A lane is one direction of a line: a writer, the reader at the other end, and
the bytes between them.  Either it is clear and the two are joined, or it
bears one message and they are joined once that has been read
(`Lane.Bears`).  `Lane.bears_send` puts a message on a clear lane, and
`Lane.next_of_bears` says what a look at a lane comes to: the message when its
last byte is there, and nothing before.

What may be sent on a lane is bounded by what a reader takes in one frame, and
so by how much compressing may add to a text (`Deflate.Compressor.Swells`).
-/
import DeflateTrial.Line
import DeflateTrial.Proofs.Deflate.Expansion
import DeflateTrial.Proofs.Message.Arrival

namespace DeflateTrial

/-! ## Looks at nothing -/

namespace Frame.Reader

theorem scan_of_empty {reader : Reader} (empty : reader.buffer = []) : reader.scan = .more := by
  rw [scan, empty]
  rfl

theorem next_of_nothing {reader : Reader} (empty : reader.buffer = []) {pieces : List Bytes}
    (nothing : pieces.flatten = []) :
    ∃ reader' source, reader.next (.arrived pieces false) = (.waiting, reader', source) := by
  induction pieces with
  | nil =>
      rw [next, scan_of_empty empty]
      exact ⟨_, _, rfl⟩
  | cons piece pieces ih =>
      obtain ⟨rfl, nothing⟩ := List.append_eq_nil_iff.mp nothing
      rw [next_of_scan_more (scan_of_empty empty), fed_nil]
      exact ih nothing

end Frame.Reader

namespace Message

theorem Reader.next_of_nothing {reader : Reader} (empty : reader.frames.buffer = [])
    {pieces : List Bytes} (nothing : pieces.flatten = []) :
    ∃ reader' source, reader.next (.arrived pieces false) = (.waiting, reader', source) := by
  obtain ⟨frames, source, waits⟩ := Frame.Reader.next_of_nothing empty nothing
  exact ⟨_, _, next_of_waiting waits⟩

theorem Reader.Brings.ne_nil {reader reader' : Reader} {bytes : Bytes} {message : Message}
    (brings : reader.Brings bytes message reader') (empty : reader.frames.buffer = []) :
    bytes ≠ [] := by
  rintro rfl
  have read := brings.reads []
  rw [List.append_nil, fed_nil] at read
  have found := readAll_of_message read
  rw [readAll_of_empty empty] at found
  cases found

/-! ## What may be sent -/

/-- A data message of at most so many bytes. -/
def Fits (size : Nat) : Message → Prop
  | text s => (Bytes.ofText s).length ≤ size
  | binary data => data.length ≤ size
  | _ => False

namespace Writer

/-- An open writer with the default limits, under which data messages of at
most so many bytes may be sent, compressed or not. -/
structure Ready (size : Nat) (writer : Writer) : Prop where
  open_ : writer.phase = .open
  limits : writer.limits = {}
  plain : size ≤ writer.limits.frameSize
  compressed : ∀ deflater, writer.deflater = some deflater → ∃ worst,
    deflater.compressor.Swells size worst ∧ size + worst ≤ writer.limits.frameSize

section
variable {writer : Writer} {reader : Reader} {size : Nat}

theorem payload_dataFrame {opcode : Opcode} {data : Bytes} {frame : Frame}
    {deflater : Option Deflate.Deflater}
    (h : writer.dataFrame opcode data = .ok (frame, deflater)) :
    (frame.payload = data ∧ deflater = writer.deflater) ∨
      ∃ before, writer.deflater = some before ∧ frame.payload = (before.deflate data).1 ∧
        deflater = some (before.deflate data).2 := by
  unfold dataFrame at h
  cases within : writer.limits.checkMessage data.length with
  | error fault =>
      rw [within] at h
      cases h
  | ok _ =>
      rw [within] at h
      cases hd : writer.deflater with
      | none =>
          rw [hd] at h
          cases h
          exact .inl ⟨rfl, rfl⟩
      | some before =>
          rw [hd] at h
          by_cases worth : before.shouldCompress data.length = true
          · simp only [worth, if_true] at h
            cases h
            exact .inr ⟨before, rfl, rfl, rfl⟩
          · simp only [worth] at h
            cases h
            exact .inl ⟨rfl, rfl⟩

theorem admitsData_of_ready (ready : writer.Ready size) (joined : Joined writer reader)
    {opcode : Opcode} {data : Bytes} (small : data.length ≤ size) :
    writer.AdmitsData opcode data := by
  have frameSize : writer.limits.frameSize = 16777216 := by rw [ready.limits]
  have messageSize : writer.limits.messageSize = 67108864 := by rw [ready.limits]
  have plain := ready.plain
  refine ⟨by omega, fun frame deflater planned => ?_⟩
  have short : frame.payload.length ≤ writer.limits.frameSize := by
    obtain ⟨payload, -⟩ | ⟨before, has, payload, -⟩ := payload_dataFrame planned
    · rw [payload]
      exact Nat.le_trans small plain
    · obtain ⟨worst, swells, room⟩ := ready.compressed before has
      have coupled := joined.coupled
      rw [has] at coupled
      cases hi : reader.assembler.inflater with
      | none =>
          rw [hi] at coupled
          exact coupled.elim
      | some inflater =>
          rw [hi] at coupled
          obtain ⟨_, past, follows, -⟩ := coupled.1.texts
          have grown := Deflate.Deflater.length_deflate_le follows swells small
          rw [payload]
          omega
  have wire := frame.wireSize_le writer.frames.role.masks
  have most : Frame.maxSize = 1 <<< 64 - 1 := rfl
  exact ⟨short, by omega⟩

theorem admits_of_ready (ready : writer.Ready size) (joined : Joined writer reader)
    {message : Message} (fits : message.Fits size) : writer.Admits message := by
  cases message with
  | text s => exact admitsData_of_ready ready joined fits
  | binary data => exact admitsData_of_ready ready joined fits
  | ping _ => exact fits.elim
  | pong _ => exact fits.elim
  | close _ => exact fits.elim

theorem ready_transmit (ready : writer.Ready size) (opcode : Opcode) (data : Bytes) :
    (writer.transmit (writer.dataFrame opcode data)).2.Ready size := by
  have kept (frames : Frame.Writer) (deflater : Option Deflate.Deflater)
      (same : ∀ after, deflater = some after →
        ∃ before, writer.deflater = some before ∧ after.compressor = before.compressor) :
      Ready size { writer with frames, deflater } := by
    refine ⟨ready.open_, ready.limits, ready.plain, fun after has => ?_⟩
    obtain ⟨before, had, is⟩ := same after has
    rw [is]
    exact ready.compressed before had
  unfold transmit
  split
  · exact ready
  · split
    · exact ready
    · rename_i frame deflater planned
      have same : ∀ after, deflater = some after →
          ∃ before, writer.deflater = some before ∧ after.compressor = before.compressor := by
        rintro after rfl
        obtain ⟨-, is⟩ | ⟨before, had, -, is⟩ := payload_dataFrame planned
        · exact ⟨after, is.symm, rfl⟩
        · cases is
          exact ⟨before, had, before.compressor_deflate data⟩
      split
      · exact kept writer.frames deflater same
      · exact kept _ deflater same

theorem ready_send (ready : writer.Ready size) {message : Message} (fits : message.Fits size) :
    (writer.send message).2.Ready size := by
  cases message with
  | text s => exact ready_transmit ready ..
  | binary data => exact ready_transmit ready ..
  | ping _ => exact fits.elim
  | pong _ => exact fits.elim
  | close _ => exact fits.elim

end

end Writer

end Message

/-! ## What is between two ends -/

namespace Line

/-- Bytes that are between two ends: what has arrived of them stands before
what is under way. -/
def Between (source : Source) (way : List Outgoing) (bytes : Bytes) : Prop :=
  .fin ∉ way ∧ ∃ pieces, source = .arrived pieces false ∧
    pieces.flatten ++ Outgoing.allBytes way = bytes

theorem between_silent (bytes : Bytes) : Between .silent [.bytes bytes] bytes :=
  ⟨by simp, [], rfl, by simp [Outgoing.allBytes]⟩

section
variable {source : Source} {way : List Outgoing} {bytes : Bytes}

theorem Between.append (h : Between source way bytes) (more : Bytes) :
    Between source (way ++ [.bytes more]) (bytes ++ more) := by
  obtain ⟨noEnd, pieces, rfl, whole⟩ := h
  refine ⟨by simp [noEnd], pieces, rfl, ?_⟩
  rw [← whole]
  simp [Outgoing.allBytes]

theorem Between.carried (h : Between source way bytes) (count : Nat) :
    Between (carry count way source).2 (carry count way source).1 bytes := by
  obtain ⟨noEnd, pieces, rfl, whole⟩ := h
  have noFin : way.contains .fin = false := by simpa using noEnd
  rw [← whole]
  unfold carry
  split
  · rename_i none
    rw [noFin, none]
    exact ⟨List.not_mem_nil, pieces, rfl, rfl⟩
  · split
    · exact ⟨noEnd, pieces, rfl, rfl⟩
    · refine ⟨by simp [noEnd], pieces ++ [_], Source.push_arrived .., ?_⟩
      have rest : way.filter (· = .fin) = [] := by
        rw [List.filter_eq_nil_iff]
        intro outgoing member
        rw [decide_eq_true_eq]
        rintro rfl
        exact noEnd member
      rw [rest, List.flatten_append, List.flatten_singleton, List.append_assoc]
      simp [Outgoing.allBytes]

theorem allBytes_carry (way : List Outgoing) (source : Source) :
    Outgoing.allBytes (carry (Outgoing.allBytes way).length way source).1 = [] := by
  unfold carry
  split
  · split <;> rfl
  · rename_i some
    rw [if_neg (by simpa using some), List.drop_length]
    simp only [Outgoing.allBytes, List.flatMap_cons, List.nil_append, List.flatMap_eq_nil_iff]
    intro outgoing member
    simp only [List.mem_filter, decide_eq_true_eq] at member
    rw [member.2]

end

end Line

/-! ## Lanes -/

/-- One direction of a line. -/
structure Lane where
  writer : Message.Writer
  reader : Message.Reader
  /-- What is between the two. -/
  bytes : Bytes

namespace Lane

open Message Line

/-- What a lane bears: nothing, and its ends are joined, or one message, and
they are joined when that has been read.  More messages may be sent. -/
def Bears (size : Nat) (lane : Lane) : Option Message → Prop
  | none => lane.bytes = [] ∧ Joined lane.writer lane.reader ∧ lane.writer.Ready size
  | some message => ∃ reader', lane.reader.Brings lane.bytes message reader' ∧
      Joined lane.writer reader' ∧ lane.writer.Ready size

section
variable {size : Nat} {lane : Lane} {message : Message}

theorem bears_send (clear : lane.Bears size none) (fits : message.Fits size) :
    ∃ bytes writer, lane.writer.send message = (.ok bytes, writer) ∧ bytes ≠ [] ∧
      Bears size ⟨writer, lane.reader, lane.bytes ++ bytes⟩ (some message) := by
  obtain ⟨empty, joined, ready⟩ := clear
  obtain ⟨bytes, reader', written, joined', reads⟩ :=
    delivered_send joined ready.open_ (Writer.admits_of_ready ready joined fits)
  have brings : lane.reader.Brings bytes message reader' := ⟨reads, joined'.buffer⟩
  refine ⟨bytes, _, Prod.ext written rfl, brings.ne_nil joined.buffer, reader', ?_, joined',
    Writer.ready_send ready fits⟩
  rw [empty]
  exact brings

variable {source : Source} {way : List Outgoing}

theorem next_of_clear (clear : lane.Bears size none) (between : Between source way lane.bytes) :
    ∃ reader' source', lane.reader.next source = (.waiting, reader', source') := by
  obtain ⟨empty, joined, -⟩ := clear
  obtain ⟨-, pieces, rfl, whole⟩ := between
  rw [empty] at whole
  exact Reader.next_of_nothing joined.buffer (List.append_eq_nil_iff.mp whole).1

/-- A look at a lane that bears a message finds it once all of it has arrived,
and nothing before. -/
theorem next_of_bears (bears : lane.Bears size (some message))
    (between : Between source way lane.bytes) :
    (Outgoing.allBytes way ≠ [] ∧
        ∃ reader' source', lane.reader.next source = (.waiting, reader', source')) ∨
      ∃ reader' source', lane.reader.next source = (.message message, reader', source') ∧
        Bears size ⟨lane.writer, reader', []⟩ none ∧ Between source' way [] := by
  obtain ⟨reader', brings, joined, ready⟩ := bears
  obtain ⟨noEnd, pieces, rfl, whole⟩ := between
  by_cases arrived : Outgoing.allBytes way = []
  · rw [arrived, List.append_nil] at whole
    obtain ⟨rest, none, taken⟩ := Reader.next_of_whole brings whole
    refine .inr ⟨reader', _, taken, ⟨rfl, joined, ready⟩, noEnd, rest, rfl, ?_⟩
    rw [none, arrived, List.append_nil]
  · exact .inl ⟨arrived, Reader.next_of_part brings whole arrived⟩

end

end Lane

end DeflateTrial
