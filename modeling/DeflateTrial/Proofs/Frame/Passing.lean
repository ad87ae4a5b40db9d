/-
Passing — what a frame has passed when it is read

A reader judges a head before it waits for the payload, and a control frame
before it hands it on.  So a frame that comes has RSV1 only where compression
was agreed on and never as a control frame, it is no larger than the limit on
frames, and it keeps to the rules for control frames (`Reader.Passed`).

An attempt to read takes away what it brings: the payload of a frame and two
bytes at least of its head are not ahead any more (`Reader.reads_next`), and
no attempt puts anything there.
-/
import DeflateTrial.Proofs.Frame.Verdict

namespace DeflateTrial.Frame

theorem head_of_parse {bytes : Bytes} {frame : Frame} {size : Nat}
    (h : parse bytes = .ok (frame, size)) :
    ∃ head, Head.parse bytes = .ok head ∧ frame.rsv1 = head.rsv1 ∧ frame.opcode = head.opcode ∧
      frame.payload.length = head.payloadSize ∧ size = head.headSize + head.payloadSize := by
  obtain ⟨head, headed, -⟩ := exists_of_bind_ok h
  obtain ⟨rfl, rfl, -, whole⟩ := frame_of_parse headed h
  exact ⟨head, headed, rfl, rfl, Head.payload_frameIn whole, rfl⟩

namespace Reader

/-- What a reader has made sure of when it brings a frame. -/
structure Passed (reader : Reader) (frame : Frame) : Prop where
  rsv1 : frame.rsv1 = true → reader.compression = true ∧ frame.opcode.isControl = false
  size : frame.payload.length ≤ reader.limits.frameSize
  control : frame.checkControl = .ok ()

theorem passed_of_scan {reader : Reader} {frame : Frame} {rest : Bytes}
    (h : reader.scan = .frame frame rest) :
    reader.Passed frame ∧ rest.length + frame.payload.length + 2 ≤ reader.buffer.length := by
  have scanned := scanned_scan reader
  rw [h] at scanned
  cases scanned with
  | @frame head _ admits =>
      obtain ⟨-, -, whole, control⟩ := admits_iff.mp admits
      obtain ⟨rfl, -, -, inside⟩ := frame_of_parse admits.headed whole
      have least := headSize_of_parse admits.headed
      refine ⟨⟨admits.rsv1, admits.size, control⟩, ?_⟩
      rw [List.length_drop, Head.payload_frameIn inside]
      unfold Head.frameSize at inside ⊢
      omega

theorem rest_le_of_scan_spent {reader : Reader} {fault : Fault} {rest : Bytes}
    (h : reader.scan = .spent fault rest) : rest.length ≤ reader.buffer.length := by
  have scanned := scanned_scan reader
  rw [h] at scanned
  cases scanned with
  | spent => exact (List.drop_sublist ..).length_le

/-- What an attempt to read a frame leaves as it was, and what it takes away
from the bytes ahead. -/
structure Reads (reader : Reader) (source : Source) (outcome : Outcome) (reader' : Reader)
    (source' : Source) : Prop where
  limits : reader'.limits = reader.limits
  compression : reader'.compression = reader.compression
  ahead : (reader'.ahead source').length ≤ (reader.ahead source).length
  frame : ∀ frame, outcome = .frame frame → reader.Passed frame ∧
    (reader'.ahead source').length + frame.payload.length + 2 ≤ (reader.ahead source).length

theorem reads_next (reader : Reader) (source : Source) :
    reader.Reads source (reader.next source).1 (reader.next source).2.1
      (reader.next source).2.2 := by
  fun_induction next reader source with
  | case1 reader source frame rest scanned =>
      obtain ⟨passed, inside⟩ := passed_of_scan scanned
      refine ⟨rfl, rfl, ?_, fun found is => ?_⟩
      · simp only [ahead, List.length_append]
        omega
      · cases is
        refine ⟨passed, ?_⟩
        simp only [ahead, List.length_append]
        omega
  | case2 reader source fault scanned =>
      exact ⟨rfl, rfl, Nat.le_refl _, fun frame found => by cases found⟩
  | case3 reader source fault rest scanned =>
      have less := rest_le_of_scan_spent scanned
      refine ⟨rfl, rfl, ?_, fun frame found => by cases found⟩
      simp only [ahead, List.length_append]
      omega
  | case4 reader source scanned bytes source' read ih =>
      have same : (ahead { reader with buffer := reader.buffer ++ bytes } source').length =
          (reader.ahead source).length := by
        rw [ahead, ahead, Source.bytes_of_read read, List.append_assoc]
      refine ⟨ih.limits, ih.compression, ?_, fun frame found => ?_⟩
      · rw [← same]
        exact ih.ahead
      · rw [← same]
        obtain ⟨passed, less⟩ := ih.frame frame found
        exact ⟨⟨passed.rsv1, passed.size, passed.control⟩, less⟩
  | case5 reader source scanned what source' read =>
      refine ⟨rfl, rfl, ?_, fun frame found => by cases found⟩
      rw [ahead, ahead, Source.bytes_of_read read]
      exact Nat.le_refl _
  | case6 reader source scanned source' read =>
      refine ⟨rfl, rfl, ?_, fun frame found => ?_⟩
      · rw [ahead, ahead, Source.bytes_of_read read]
        exact Nat.le_refl _
      · split at found <;> cases found
  | case7 reader source scanned source' read =>
      refine ⟨rfl, rfl, ?_, fun frame found => by cases found⟩
      rw [ahead, ahead, Source.bytes_of_read read]
      exact Nat.le_refl _

theorem checkControl_of_next {reader reader' : Reader} {source source' : Source} {frame : Frame}
    (h : reader.next source = (.frame frame, reader', source')) : frame.checkControl = .ok () := by
  have reads := reader.reads_next source
  rw [h] at reads
  exact (reads.frame frame rfl).1.control

end Reader

end DeflateTrial.Frame
