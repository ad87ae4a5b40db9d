/-
Intake — a stream of whole frames is what the assembler makes of them

A reader takes one frame after the other out of its buffer and gives each to
its assembler.  So if the stream is the wire form of frames that the reader
takes, then what it reads is a function of the frames alone (`takeAll`): their
masks, their bytes and the cuts of the network do not come into it
(`readAll_wire`).  Conversely, a stream of frames that is read to its end is
one of frames that the reader takes (`takes_of_readAll_wire`).
-/
import DeflateTrial.Proofs.Frame.Encoding
import DeflateTrial.Proofs.Reception

namespace DeflateTrial.Message

/-- Frames with the masks that they are sent with. -/
abbrev Sent := List (Frame × Option Mask)

/-- The bytes of frames, one behind the other. -/
def wire (sent : Sent) : Bytes :=
  sent.flatMap fun (frame, mask) => frame.encode mask

namespace Assembler

/-- The messages that come of frames, up to the first that is faulty, and what
comes then. -/
def takeAll (assembler : Assembler) : List Frame → List Message × Reader.Outcome
  | [] => ([], .ended)
  | frame :: frames =>
    match assembler.accept frame with
    | (.ok (some message), assembler) =>
      let (messages, last) := assembler.takeAll frames
      (message :: messages, last)
    | (.ok none, assembler) => assembler.takeAll frames
    | (.error fault, _) => ([], .fault fault)

section
variable {assembler after : Assembler} {frame : Frame} (frames : List Frame)

theorem takeAll_of_message {message : Message}
    (h : assembler.accept frame = (.ok (some message), after)) :
    assembler.takeAll (frame :: frames) =
      (message :: (after.takeAll frames).1, (after.takeAll frames).2) := by
  rw [takeAll, h]

theorem takeAll_of_none (h : assembler.accept frame = (.ok none, after)) :
    assembler.takeAll (frame :: frames) = after.takeAll frames := by
  rw [takeAll, h]

theorem takeAll_of_fault {fault : Fault} (h : assembler.accept frame = (.error fault, after)) :
    assembler.takeAll (frame :: frames) = ([], .fault fault) := by
  rw [takeAll, h]

end

end Assembler

namespace Reader

theorem readAll_congr {reader reader' : Reader} {source source' : Source}
    (same : reader.next source = reader'.next source') :
    reader.readAll source = reader'.readAll source' := by
  rcases hn : reader'.next source' with ⟨outcome, reader'', source''⟩
  have hn' := same.trans hn
  cases outcome with
  | message message => rw [readAll_of_message hn, readAll_of_message hn']
  | fault fault => rw [readAll_of_none hn (by simp), readAll_of_none hn' (by simp)]
  | ended => rw [readAll_of_none hn (by simp), readAll_of_none hn' (by simp)]
  | waiting => rw [readAll_of_none hn (by simp), readAll_of_none hn' (by simp)]

variable {reader : Reader} {frame : Frame} {mask : Option Mask} {sent : Sent}

theorem readAll_of_empty (empty : reader.frames.buffer = []) :
    reader.readAll (.ofPieces []) = ([], .ended) := by
  have scanned : reader.frames.scan = .more := by
    rw [Frame.Reader.scan, empty]
    rfl
  have read := Frame.Reader.next_of_scan_more_nil scanned
  rw [empty] at read
  exact readAll_of_none (next_of_ended read) (by simp)

theorem next_fed_encode (empty : reader.frames.buffer = [])
    (takes : reader.frames.Takes frame mask) (rest : Bytes) :
    (reader.fed (frame.encode mask ++ rest)).next (.ofPieces []) =
      match reader.assembler.accept frame with
      | (.ok (some message), assembler) =>
        (.message message, Reader.fed ⟨reader.frames, assembler⟩ rest, .ofPieces [])
      | (.ok none, assembler) => (Reader.fed ⟨reader.frames, assembler⟩ rest).next (.ofPieces [])
      | (.error fault, assembler) =>
        (.fault fault, Reader.fed ⟨reader.frames, assembler⟩ rest, .ofPieces []) := by
  have front : (reader.fed (frame.encode mask ++ rest)).frames.buffer =
      frame.encode mask ++ rest := by
    rw [fed, Frame.Reader.fed, empty, List.nil_append]
  have scanned : (reader.fed (frame.encode mask ++ rest)).frames.scan = .frame frame rest :=
    Frame.Reader.scan_encode
      ⟨takes.masked, takes.rsv1, takes.size, takes.control, takes.wire⟩ front
  have left : { (reader.fed (frame.encode mask ++ rest)).frames with buffer := rest } =
      reader.frames.fed rest := by
    simp only [fed, Frame.Reader.fed, empty, List.nil_append]
  have read : (reader.fed (frame.encode mask ++ rest)).frames.next (.ofPieces []) = _ :=
    Frame.Reader.next_of_scan_frame scanned
  rw [left] at read
  exact next_of_frame read

theorem readAll_fed_encode (empty : reader.frames.buffer = [])
    (takes : reader.frames.Takes frame mask) (rest : Bytes) :
    (reader.fed (frame.encode mask ++ rest)).readAll (.ofPieces []) =
      match reader.assembler.accept frame with
      | (.ok (some message), assembler) =>
        let (messages, last) :=
          (Reader.fed ⟨reader.frames, assembler⟩ rest).readAll (.ofPieces [])
        (message :: messages, last)
      | (.ok none, assembler) => (Reader.fed ⟨reader.frames, assembler⟩ rest).readAll (.ofPieces [])
      | (.error fault, _) => ([], .fault fault) := by
  have next := next_fed_encode empty takes rest
  generalize reader.assembler.accept frame = accepted at next ⊢
  match accepted with
  | (.ok (some message), assembler) => exact readAll_of_message next
  | (.ok none, assembler) => exact readAll_congr next
  | (.error fault, assembler) => exact readAll_of_none next (by simp)

theorem readAll_fed_wire (empty : reader.frames.buffer = [])
    (takes : ∀ frame mask, (frame, mask) ∈ sent → reader.frames.Takes frame mask) :
    (reader.fed (wire sent)).readAll (.ofPieces []) =
      reader.assembler.takeAll (sent.map Prod.fst) := by
  induction sent generalizing reader with
  | nil =>
      have nothing : (reader.fed (wire [])).frames.buffer = [] := by
        rw [fed, Frame.Reader.fed, empty]
        rfl
      exact readAll_of_empty nothing
  | cons first sent ih =>
      obtain ⟨frame, mask⟩ := first
      have here := takes frame mask List.mem_cons_self
      have others (assembler : Assembler) :
          (Reader.fed ⟨reader.frames, assembler⟩ (wire sent)).readAll (.ofPieces []) =
            assembler.takeAll (sent.map Prod.fst) :=
        ih empty fun frame mask h => takes frame mask (List.mem_cons_of_mem _ h)
      rw [show wire ((frame, mask) :: sent) = frame.encode mask ++ wire sent from rfl,
        readAll_fed_encode empty here]
      simp only [others]
      rfl

/-- Frames that the reader takes bring what its assembler makes of them,
however the network cuts their bytes. -/
theorem readAll_wire (empty : reader.frames.buffer = [])
    (takes : ∀ frame mask, (frame, mask) ∈ sent → reader.frames.Takes frame mask)
    {pieces : List Bytes} (whole : pieces.flatten = wire sent) :
    reader.readAll (.ofPieces pieces) = reader.assembler.takeAll (sent.map Prod.fst) := by
  rw [readAll_ofPieces, whole]
  exact readAll_fed_wire empty takes

theorem takes_of_readAll_fed_encode (empty : reader.frames.buffer = [])
    (wire : frame.wireSize mask.isSome ≤ Frame.maxSize) (rest : Bytes)
    (fine : ∀ fault, ((reader.fed (frame.encode mask ++ rest)).readAll (.ofPieces [])).2 ≠
      .fault fault) :
    reader.frames.Takes frame mask := by
  have front : (reader.fed (frame.encode mask ++ rest)).frames.buffer =
      frame.encode mask ++ rest := by
    rw [fed, Frame.Reader.fed, empty, List.nil_append]
  have scanned := Frame.Reader.scan_of_encode wire front
  have judged? : (reader.fed (frame.encode mask ++ rest)).frames.judge (frame.headOf mask) =
      reader.frames.judge (frame.headOf mask) := rfl
  rw [judged?] at scanned
  cases judged : reader.frames.judge (frame.headOf mask) with
  | error fault =>
      rw [judged] at scanned
      have read : Frame.Reader.next _ (.ofPieces []) = _ := Frame.Reader.next_of_scan_fault scanned
      exact absurd (congrArg Prod.snd (readAll_of_none (next_of_fault read) (by simp))) (fine fault)
  | ok _ =>
      rw [judged] at scanned
      cases control : frame.checkControl with
      | error fault =>
          rw [control] at scanned
          have read : Frame.Reader.next _ (.ofPieces []) = _ :=
            Frame.Reader.next_of_scan_spent scanned
          exact absurd (congrArg Prod.snd (readAll_of_none (next_of_fault read) (by simp)))
            (fine fault)
      | ok _ =>
          obtain ⟨masked, rsv1, size⟩ := Frame.Reader.judge_headOf_iff.mp judged
          exact ⟨masked, rsv1, size, control, wire⟩

theorem takes_of_readAll_wire {messages : List Message} (empty : reader.frames.buffer = [])
    (sizes : ∀ frame mask, (frame, mask) ∈ sent → frame.wireSize mask.isSome ≤ Frame.maxSize)
    (read : (reader.fed (wire sent)).readAll (.ofPieces []) = (messages, .ended)) :
    ∀ frame mask, (frame, mask) ∈ sent → reader.frames.Takes frame mask := by
  induction sent generalizing reader messages with
  | nil => exact nofun
  | cons first sent ih =>
      obtain ⟨frame, mask⟩ := first
      rw [show wire ((frame, mask) :: sent) = frame.encode mask ++ wire sent from rfl] at read
      have here : reader.frames.Takes frame mask := by
        refine takes_of_readAll_fed_encode empty (sizes frame mask List.mem_cons_self)
          (wire sent) ?_
        rw [read]
        simp
      have later (assembler : Assembler) {messages : List Message}
          (read : (Reader.fed ⟨reader.frames, assembler⟩ (wire sent)).readAll (.ofPieces []) =
            (messages, .ended)) :
          ∀ frame mask, (frame, mask) ∈ sent → reader.frames.Takes frame mask :=
        @ih ⟨reader.frames, assembler⟩ messages empty
          (fun frame mask h => sizes frame mask (List.mem_cons_of_mem _ h)) read
      rw [readAll_fed_encode empty here] at read
      intro frame' mask' h
      rcases List.mem_cons.mp h with same | h
      · cases same
        exact here
      · generalize reader.assembler.accept frame = accepted at read
        match accepted with
        | (.ok (some message), assembler) =>
            injection read with _ last
            exact later assembler (Prod.ext rfl last) frame' mask' h
        | (.ok none, assembler) => exact later assembler read frame' mask' h
        | (.error fault, assembler) => cases read

end Reader

end DeflateTrial.Message
