/-
Promptness — which violations are reported before the payload has come

Everything that a reader asks of a frame can be told from its head: direction
of masking, reserved bits, the limit on frames, and of a control frame that it
is final and its payload not over 125 bytes.  The reader judges the first three
as soon as the head is whole.  The rules for control frames it applies to the
frame, and so not before the last byte of the payload is there.

`Reader.shown_by_head` says so of every reader whose buffer holds a whole head.
What becomes of a control frame whose payload never comes is shown behind it
(`Reader.waits_for_refused`).
-/
import DeflateTrial.Proofs.Frame.Attempts

namespace DeflateTrial.Frame.Reader

variable {reader : Reader} {source : Source} {head : Head} {fault : Fault}

theorem Shows.rebuffer (buffer : Bytes) (shows : reader.Shows head fault) :
    Shows { reader with buffer } head fault := by
  cases shows with
  | unmasked server bare => exact .unmasked server bare
  | masked client keyed => exact .masked client keyed
  | reserved set => exact .reserved set
  | large beyond => exact .large beyond
  | fragmented control open_ => exact .fragmented control open_
  | controlLarge control beyond => exact .controlLarge control beyond

theorem checkControl_frameIn {bytes : Bytes} (whole : head.frameSize ≤ bytes.length) :
    (head.frameIn bytes).checkControl =
      if !head.opcode.isControl then .ok ()
      else if !head.fin then .error .fragmentedControlFrame
      else if head.payloadSize > maxControlPayload then
        .error (.controlFrameTooLarge head.payloadSize)
      else .ok () := by
  unfold checkControl
  rw [Head.payload_frameIn whole]
  rfl

theorem shows_of_checkControl {bytes : Bytes} (whole : head.frameSize ≤ bytes.length)
    (broken : (head.frameIn bytes).checkControl = .error fault) : reader.Shows head fault := by
  rw [checkControl_frameIn whole] at broken
  by_cases control : head.opcode.isControl = true
  · by_cases final : head.fin = true
    · by_cases beyond : head.payloadSize > maxControlPayload
      · simp only [control, final, if_pos beyond] at broken
        cases broken
        exact .controlLarge control beyond
      · simp only [control, final, if_neg beyond] at broken
        cases broken
    · have open_ : head.fin = false := Bool.eq_false_iff.mpr final
      simp only [control, open_] at broken
      cases broken
      exact .fragmented control open_
  · simp only [Bool.eq_false_iff.mpr control] at broken
    cases broken

/-- A head that shows such a rule to be broken stands in front of a frame that breaks one. -/
theorem broken_of_shows {bytes : Bytes} (whole : head.frameSize ≤ bytes.length)
    (shows : reader.Shows head fault) (kind : fault.ofControl = true) :
    ∃ fault', (head.frameIn bytes).checkControl = .error fault' := by
  cases checked : (head.frameIn bytes).checkControl with
  | error fault' => exact ⟨fault', rfl⟩
  | ok _ =>
      have keeps := checkControl_eq_ok_iff.mp checked
      rw [Head.payload_frameIn whole] at keeps
      cases shows with
      | fragmented control open_ => cases open_.symm.trans (keeps control).1
      | controlLarge control beyond => exact absurd (keeps control).2 (Nat.not_le_of_lt beyond)
      | unmasked | masked | reserved | large => cases kind

theorem fits_of_shows (only : ∀ fault, reader.Shows head fault → fault.ofControl = true) :
    reader.Fits head := by
  obtain ⟨-, fits⟩ | ⟨fault, -, shows, other⟩ := judge_cases reader head
  · exact fits
  · cases other.symm.trans (only fault shows)

/-- Such a frame is taken out of the buffer, for one of the rules that its head shows to be
broken. -/
theorem scan_of_shows (headed : Head.parse reader.buffer = .ok head)
    (only : ∀ fault, reader.Shows head fault → fault.ofControl = true)
    (shows : reader.Shows head fault) (small : head.frameSize ≤ maxSize)
    (whole : head.frameSize ≤ reader.buffer.length) :
    ∃ fault', reader.Shows head fault' ∧
      reader.scan = .spent fault' (reader.buffer.drop head.frameSize) := by
  have judged := judge_eq_ok_iff.mpr (fits_of_shows only)
  obtain ⟨fault', broken⟩ := broken_of_shows whole shows (only fault shows)
  refine ⟨fault', shows_of_checkControl whole broken, ?_⟩
  simp only [scan, headed, judged, scanFrame, parse_of_whole headed small whole, broken]

/-- What a reader does about a head that is whole in its buffer and shows a violation.

Masking in the wrong direction, reserved bits and a payload over the limit on frames are reported
at once: nothing is read, and nothing taken out.  If only rules for control frames are broken, one
of them is reported without a read if the payload is in the buffer, and else, where no read fails,
just if the payload is brought to its last byte. -/
theorem shown_by_head (headed : Head.parse reader.buffer = .ok head) :
    ((∃ fault, reader.Shows head fault ∧ fault.ofControl = false) →
      ∃ fault, reader.Shows head fault ∧ reader.next source = (.fault fault, reader, source)) ∧
    ((∃ fault, reader.Shows head fault) →
      (∀ fault, reader.Shows head fault → fault.ofControl = true) → head.frameSize ≤ maxSize →
      (head.frameSize ≤ reader.buffer.length →
        ∃ fault, reader.Shows head fault ∧ reader.next source =
          (.fault fault, { reader with buffer := reader.buffer.drop head.frameSize }, source)) ∧
      ((reader.next source).2.2.failures = source.failures →
        ((∃ fault, reader.Shows head fault ∧ (reader.next source).1 = .fault fault) ↔
          head.frameSize ≤ (reader.ahead source).length))) := by
  constructor
  · rintro ⟨fault, shows, other⟩
    obtain ⟨-, fits⟩ | ⟨fault', judged, shows', -⟩ := judge_cases reader head
    · cases other.symm.trans (fits.ofControl_of_shows shows)
    · refine ⟨fault', shows', next_of_scan_fault ?_⟩
      simp only [scan, headed, judged]
  · rintro ⟨fault, shows⟩ only small
    have headed' : Head.parse (reader.overall source).buffer = .ok head := by
      change Head.parse (reader.buffer ++ source.bytes) = _
      rw [Head.parse_append _ (settled_of_ok headed), headed]
    obtain ⟨comes, -⟩ := comes_next reader source
    refine ⟨fun whole => ?_, fun even => ⟨?_, fun whole => ?_⟩⟩
    · obtain ⟨fault', shows', found⟩ := scan_of_shows headed only shows small whole
      exact ⟨fault', shows', next_of_scan_spent found⟩
    · rintro ⟨fault', shows', is⟩
      rw [is] at comes
      obtain ⟨frame, size, parsed, -, -⟩ := taken_of_control comes (only fault' shows')
      exact (frame_of_parse headed' parsed).2.2.2
    · -- with all the bytes ahead in the buffer the frame is taken out of it
      obtain ⟨fault', shows', found⟩ := scan_of_shows headed'
        (fun fault shows => only fault (shows.rebuffer reader.buffer)) (shows.rebuffer _)
        small whole
      have verdict := outcome_of_scan comes even
      rw [found] at verdict
      exact ⟨fault', shows'.rebuffer reader.buffer, verdict⟩

/-- A text under a key, at a client; and a ping that is a fragment, with its one byte behind it. -/
theorem shown_by_head_masked :
    (∃ fault, (Reader.new .client {} [0x81, 0x81, 1, 2, 3, 4]).next .silent =
      (.fault fault, .new .client {} [0x81, 0x81, 1, 2, 3, 4], .silent)) ∧
    (∃ fault, (Reader.new .client {} [0x09, 0x01, 65]).next .silent =
      (.fault fault, .new .client {} [], .silent)) := by
  let text : Head := ⟨true, false, false, false, .text, some ⟨1, 2, 3, 4⟩, 1, 6⟩
  let ping : Head := ⟨false, false, false, false, .ping, none, 1, 2⟩
  have masked : (Reader.new .client {} [0x81, 0x81, 1, 2, 3, 4]).Shows text .maskedServerFrame :=
    .masked rfl rfl
  have fragment : (Reader.new .client {} [0x09, 0x01, 65]).Shows ping .fragmentedControlFrame :=
    .fragmented rfl rfl
  have only : (Reader.new .client {} [0x09, 0x01, 65]).Fits ping :=
    judge_eq_ok_iff.mp rfl
  obtain ⟨fault, -, refused⟩ := (shown_by_head rfl).1 ⟨_, masked, rfl⟩
  obtain ⟨fault', -, broken⟩ := ((shown_by_head rfl).2 ⟨_, fragment⟩
    (fun _ => only.ofControl_of_shows) (by decide)).1 (by decide)
  exact ⟨⟨fault, refused⟩, fault', broken⟩

/-- A ping that announces 126 bytes, and one that is a fragment, of which the payload does not
come: their heads show what is wrong, and the reader waits for more, and at the end of the stream
finds that something is missing. -/
theorem waits_for_refused :
    let long : Reader := .new .client {} [0x89, 0x7e, 0, 126]
    let fragment : Reader := .new .client {} [0x09, 0x01]
    (∃ head, Head.parse long.buffer = .ok head ∧ long.Shows head (.controlFrameTooLarge 126)) ∧
    (∃ head, Head.parse fragment.buffer = .ok head ∧
      fragment.Shows head .fragmentedControlFrame) ∧
    long.next .silent = (.waiting, long, .silent) ∧
    (long.next (.ofPieces [])).1 =
      .fault (.io "stream ended inside a frame (4 bytes buffered)") ∧
    fragment.next .silent = (.waiting, fragment, .silent) ∧
    (fragment.next (.ofPieces [])).1 =
      .fault (.io "stream ended inside a frame (2 bytes buffered)") := by
  refine ⟨⟨⟨true, false, false, false, .ping, none, 126, 4⟩, rfl, ?_⟩,
    ⟨⟨false, false, false, false, .ping, none, 1, 2⟩, rfl, ?_⟩, ?_, ?_, ?_, ?_⟩
  · exact .controlLarge rfl (by decide)
  · exact .fragmented rfl rfl
  all_goals decide +kernel

end DeflateTrial.Frame.Reader
