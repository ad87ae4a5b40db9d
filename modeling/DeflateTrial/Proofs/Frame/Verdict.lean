/-
Verdicts — what the front of a buffer decides

A whole head says what frame is coming and when it is whole (`parse_of_head`).
The head is judged at once, the control frame only when it is whole.
`Reader.Fits` says what the first judgement asks of a head, and `Reader.Admits`
what both ask of a frame.  `Reader.Scanned` has all that a look at the buffer
can come to, with the reason for it, and `Reader.scanned_scan` says that there
is nothing else; so what is claimed of reading is claimed of these seven cases.

A violation that a head shows by itself (`Reader.Shows`) is of one of two
kinds.  Direction of masking, reserved bits and the limit on frames are in the
judgement of the head; the two rules for control frames are not, so a head that
fits may still show that one of them is broken.
-/
import DeflateTrial.Proofs.Frame.Growth
import DeflateTrial.Proofs.Frame.Masking

namespace DeflateTrial

/-- Whether a fault is one of the two that only control frames have. -/
def Fault.ofControl : Fault → Bool
  | .fragmentedControlFrame | .controlFrameTooLarge _ => true
  | _ => false

namespace Frame

theorem ofControl_of_checkControl {frame : Frame} {fault : Fault}
    (h : frame.checkControl = .error fault) : fault.ofControl = true := by
  unfold checkControl at h
  split at h
  · cases h
  · split at h
    · cases h
      rfl
    · split at h <;> cases h
      rfl

theorem ofControl_of_ofValue {value : UInt8} {fault : Fault}
    (h : Opcode.ofValue value = .error fault) : fault.ofControl = false := by
  unfold Opcode.ofValue at h
  split at h
  case h_7 =>
    split at h <;> cases h <;> rfl
  all_goals cases h

theorem error_of_bind {α β : Type} {first : Except Fault α} {next : α → Except Fault β}
    {fault : Fault} (h : (first >>= next) = .error fault) :
    first = .error fault ∨ ∃ a, first = .ok a ∧ next a = .error fault := by
  cases first with
  | error _ =>
      cases h
      exact .inl rfl
  | ok a => exact .inr ⟨a, rfl, h⟩

namespace Head

theorem error_of_takeExactly {count : Nat} {bytes : Bytes} {fault : Fault}
    (h : takeExactly count bytes = .error fault) : ∃ needed, fault = .incompleteFrame needed := by
  rcases Nat.lt_or_ge bytes.length count with missing | whole
  · rw [takeExactly_of_lt missing] at h
    cases h
    exact ⟨_, rfl⟩
  · rw [takeExactly_of_le whole] at h
    cases h

theorem error_of_parse {bytes : Bytes} {fault : Fault} (h : parse bytes = .error fault) :
    (∃ needed, fault = .incompleteFrame needed) ∨
      ∃ value, Opcode.ofValue value = .error fault := by
  match bytes with
  | [] =>
      cases h
      exact .inl ⟨_, rfl⟩
  | [_] =>
      cases h
      exact .inl ⟨_, rfl⟩
  | first :: second :: rest =>
      obtain h | ⟨opcode, -, h⟩ := error_of_bind h
      · exact .inr ⟨_, h⟩
      obtain h | ⟨⟨size, width, rest⟩, -, h⟩ := error_of_bind h
      · unfold readLength at h
        split at h
        · cases h
        · obtain h | ⟨_, _, h⟩ := error_of_bind h
          · exact .inl (error_of_takeExactly h)
          · cases h
      obtain h | ⟨mask, -, h⟩ := error_of_bind h
      · unfold readMask at h
        split at h
        · obtain h | ⟨_, _, h⟩ := error_of_bind h
          · exact .inl (error_of_takeExactly h)
          · cases h
        · cases h
      cases h

theorem ofControl_of_parse {bytes : Bytes} {fault : Fault} (h : parse bytes = .error fault) :
    fault.ofControl = false := by
  obtain ⟨needed, rfl⟩ | ⟨value, unknown⟩ := error_of_parse h
  · rfl
  · exact ofControl_of_ofValue unknown

end Head

/-! ## The frame behind a head -/

namespace Head

/-- The bytes that the frame takes, head and payload. -/
def frameSize (head : Head) : Nat :=
  head.headSize + head.payloadSize

/-- The frame that the head announces, from the bytes that it stands in front of. -/
def frameIn (head : Head) (bytes : Bytes) : Frame :=
  ⟨head.fin, head.rsv1, head.opcode,
    hidden head.mask ((bytes.drop head.headSize).take head.payloadSize)⟩

theorem payload_frameIn {head : Head} {bytes : Bytes} (whole : head.frameSize ≤ bytes.length) :
    (head.frameIn bytes).payload.length = head.payloadSize := by
  have : head.payloadSize ≤ (bytes.drop head.headSize).length := by
    rw [List.length_drop]
    unfold frameSize at whole
    omega
  rw [frameIn, length_hidden, List.length_take_of_le this]

end Head

section
variable {bytes : Bytes} {head : Head} (headed : Head.parse bytes = .ok head)
include headed

theorem parse_of_large (large : maxSize < head.frameSize) :
    parse bytes = .error (.frameTooLarge head.payloadSize (maxSize - head.headSize)) := by
  unfold parse
  rw [headed]
  exact if_pos large

theorem parse_of_head (small : head.frameSize ≤ maxSize) :
    parse bytes =
      if bytes.length < head.frameSize then
        .error (.incompleteFrame (head.frameSize - bytes.length))
      else .ok (head.frameIn bytes, head.frameSize) := by
  have inside := Head.headSize_le_of_parse headed
  have behind : (bytes.drop head.headSize).length = bytes.length - head.headSize := List.length_drop
  have fits : ¬ head.headSize + head.payloadSize > maxSize := Nat.not_lt_of_le small
  unfold parse
  rw [headed]
  simp only [bind, Except.bind, if_neg fits, pure, Except.pure]
  by_cases missing : bytes.length < head.frameSize
  · have few : (bytes.drop head.headSize).length < head.payloadSize := by
      unfold Head.frameSize at missing
      omega
    have same : head.payloadSize - (bytes.length - head.headSize) =
        head.frameSize - bytes.length := by
      unfold Head.frameSize
      omega
    rw [if_pos missing, Head.takeExactly_of_lt few, behind, same]
  · have enough : head.payloadSize ≤ (bytes.drop head.headSize).length := by
      unfold Head.frameSize at missing
      omega
    rw [if_neg missing, Head.takeExactly_of_le enough]
    rfl

theorem frame_of_parse {frame : Frame} {size : Nat} (whole : parse bytes = .ok (frame, size)) :
    frame = head.frameIn bytes ∧ size = head.frameSize ∧ head.frameSize ≤ maxSize ∧
      head.frameSize ≤ bytes.length := by
  by_cases large : maxSize < head.frameSize
  · cases whole.symm.trans (parse_of_large headed large)
  · have small : head.frameSize ≤ maxSize := Nat.le_of_not_lt large
    rw [parse_of_head headed small] at whole
    split at whole
    · cases whole
    · cases whole
      exact ⟨rfl, rfl, small, by omega⟩

theorem parse_of_whole (small : head.frameSize ≤ maxSize)
    (whole : head.frameSize ≤ bytes.length) :
    parse bytes = .ok (head.frameIn bytes, head.frameSize) := by
  rw [parse_of_head headed small, if_neg (Nat.not_lt_of_le whole)]

end

/-! ## Judgements -/

namespace Reader

/-- What is asked of a head before its payload is waited for. -/
structure Fits (reader : Reader) (head : Head) : Prop where
  masked : head.mask.isSome = reader.role.expectsMasked
  rsv2 : head.rsv2 = false
  rsv3 : head.rsv3 = false
  rsv1 : head.rsv1 = true → reader.compression = true ∧ head.opcode.isControl = false
  size : head.payloadSize ≤ reader.limits.frameSize

/-- The violations that a head shows by itself. -/
inductive Shows (reader : Reader) (head : Head) : Fault → Prop where
  | unmasked (server : reader.role.expectsMasked = true) (bare : head.mask.isSome = false) :
      Shows reader head .unmaskedClientFrame
  | masked (client : reader.role.expectsMasked = false) (keyed : head.mask.isSome = true) :
      Shows reader head .maskedServerFrame
  | reserved (set : head.rsv2 = true ∨ head.rsv3 = true ∨ head.rsv1 = true ∧
      (reader.compression = false ∨ head.opcode.isControl = true)) :
      Shows reader head .reservedBitsSet
  | large (beyond : reader.limits.frameSize < head.payloadSize) :
      Shows reader head (.frameTooLarge head.payloadSize reader.limits.frameSize)
  | fragmented (control : head.opcode.isControl = true) (open_ : head.fin = false) :
      Shows reader head .fragmentedControlFrame
  | controlLarge (control : head.opcode.isControl = true)
      (beyond : maxControlPayload < head.payloadSize) :
      Shows reader head (.controlFrameTooLarge head.payloadSize)

variable {reader : Reader} {head : Head} {fault : Fault}

theorem Fits.ofControl_of_shows (fits : reader.Fits head) (shows : reader.Shows head fault) :
    fault.ofControl = true := by
  cases shows with
  | unmasked server bare => cases bare.symm.trans (fits.masked.trans server)
  | masked client keyed => cases keyed.symm.trans (fits.masked.trans client)
  | reserved set =>
      obtain set | set | ⟨set, no⟩ := set
      · cases set.symm.trans fits.rsv2
      · cases set.symm.trans fits.rsv3
      · obtain ⟨compression, data⟩ := fits.rsv1 set
        obtain off | control := no
        · cases off.symm.trans compression
        · cases control.symm.trans data
  | large beyond => exact absurd fits.size (Nat.not_le_of_lt beyond)
  | fragmented | controlLarge => rfl

theorem judge_cases (reader : Reader) (head : Head) :
    (reader.judge head = .ok () ∧ reader.Fits head) ∨
      ∃ fault, reader.judge head = .error fault ∧ reader.Shows head fault ∧
        fault.ofControl = false := by
  unfold judge
  by_cases unmasked : (reader.role.expectsMasked && head.mask.isNone) = true
  · rw [if_pos unmasked]
    rw [Bool.and_eq_true, Option.isNone_iff_eq_none] at unmasked
    exact .inr ⟨_, rfl, .unmasked unmasked.1 (by rw [unmasked.2]; rfl), rfl⟩
  rw [if_neg unmasked]
  by_cases masked : (!reader.role.expectsMasked && head.mask.isSome) = true
  · rw [if_pos masked]
    rw [Bool.and_eq_true, Bool.not_eq_true'] at masked
    exact .inr ⟨_, rfl, .masked masked.1 masked.2, rfl⟩
  rw [if_neg masked]
  by_cases reserved : (head.rsv2 || head.rsv3) = true
  · rw [if_pos reserved]
    rw [Bool.or_eq_true] at reserved
    exact .inr ⟨_, rfl, .reserved (reserved.imp id .inl), rfl⟩
  rw [if_neg reserved]
  by_cases rsv1 : (head.rsv1 && (!reader.compression || head.opcode.isControl)) = true
  · rw [if_pos rsv1]
    rw [Bool.and_eq_true, Bool.or_eq_true, Bool.not_eq_true'] at rsv1
    exact .inr ⟨_, rfl, .reserved (.inr (.inr rsv1)), rfl⟩
  rw [if_neg rsv1, Limits.checkFrame]
  by_cases beyond : head.payloadSize > reader.limits.frameSize
  · rw [if_pos beyond]
    exact .inr ⟨_, rfl, .large beyond, rfl⟩
  rw [if_neg beyond]
  refine .inl ⟨rfl, ?_, ?_, ?_, fun set => ?_, Nat.le_of_not_lt beyond⟩
  · -- one of the two is false where the other is true
    cases keyed : head.mask <;> cases expects : reader.role.expectsMasked <;>
      simp [keyed, expects] at unmasked masked ⊢
  · exact (Bool.or_eq_false_iff.mp (Bool.eq_false_iff.mpr reserved)).1
  · exact (Bool.or_eq_false_iff.mp (Bool.eq_false_iff.mpr reserved)).2
  · rw [set, Bool.true_and, Bool.not_eq_true, Bool.or_eq_false_iff, Bool.not_eq_false'] at rsv1
    exact rsv1

theorem judge_eq_ok_iff : reader.judge head = .ok () ↔ reader.Fits head := by
  constructor
  · intro judged
    obtain ⟨-, fits⟩ | ⟨fault, refused, -⟩ := judge_cases reader head
    · exact fits
    · cases judged.symm.trans refused
  · intro fits
    obtain ⟨judged, -⟩ | ⟨fault, -, shows, other⟩ := judge_cases reader head
    · exact judged
    · cases other.symm.trans (fits.ofControl_of_shows shows)

/-- The bytes begin with a frame, and the reader may let it through. -/
structure Admits (reader : Reader) (bytes : Bytes) (head : Head) (frame : Frame) : Prop where
  headed : Head.parse bytes = .ok head
  whole : Frame.parse bytes = .ok (frame, head.frameSize)
  masked : head.mask.isSome = reader.role.expectsMasked
  rsv2 : head.rsv2 = false
  rsv3 : head.rsv3 = false
  rsv1 : frame.rsv1 = true → reader.compression = true ∧ frame.opcode.isControl = false
  size : frame.payload.length ≤ reader.limits.frameSize
  control : frame.opcode.isControl = true →
    frame.fin = true ∧ frame.payload.length ≤ maxControlPayload

/-- A frame is admitted just if its head fits and it keeps to the rules for control frames. -/
theorem admits_iff {bytes : Bytes} {frame : Frame} :
    reader.Admits bytes head frame ↔ Head.parse bytes = .ok head ∧ reader.Fits head ∧
      Frame.parse bytes = .ok (frame, head.frameSize) ∧ frame.checkControl = .ok () := by
  constructor
  · intro admits
    obtain ⟨rfl, -, -, whole⟩ := frame_of_parse admits.headed admits.whole
    exact ⟨admits.headed, ⟨admits.masked, admits.rsv2, admits.rsv3, admits.rsv1,
      Head.payload_frameIn whole ▸ admits.size⟩, admits.whole,
      checkControl_eq_ok_iff.mpr admits.control⟩
  · rintro ⟨headed, fits, parsed, control⟩
    obtain ⟨rfl, -, -, whole⟩ := frame_of_parse headed parsed
    exact ⟨headed, parsed, fits.masked, fits.rsv2, fits.rsv3, fits.rsv1,
      (Head.payload_frameIn whole).symm ▸ fits.size, checkControl_eq_ok_iff.mp control⟩

/-- All that a look at the buffer can come to, and why. -/
inductive Scanned (reader : Reader) : Scan → Prop where
  | frame {head : Head} {frame : Frame} (admits : reader.Admits reader.buffer head frame) :
      Scanned reader (.frame frame (reader.buffer.drop head.frameSize))
  /-- A control frame that breaks the rules for its kind is taken out. -/
  | spent {head : Head} {frame : Frame} {fault : Fault}
      (headed : Head.parse reader.buffer = .ok head) (fits : reader.Fits head)
      (whole : Frame.parse reader.buffer = .ok (frame, head.frameSize))
      (broken : frame.checkControl = .error fault) :
      Scanned reader (.spent fault (reader.buffer.drop head.frameSize))
  | unknown {fault : Fault} (unread : Head.parse reader.buffer = .error fault)
      (final : ∀ needed, fault ≠ .incompleteFrame needed) : Scanned reader (.fault fault)
  | refused {head : Head} {fault : Fault} (headed : Head.parse reader.buffer = .ok head)
      (shows : reader.Shows head fault) (other : fault.ofControl = false) :
      Scanned reader (.fault fault)
  /-- Head and payload together are more than a word can count. -/
  | large {head : Head} (headed : Head.parse reader.buffer = .ok head) (fits : reader.Fits head)
      (beyond : maxSize < head.frameSize) :
      Scanned reader (.fault (.frameTooLarge head.payloadSize (maxSize - head.headSize)))
  | headMissing {needed : Nat}
      (unread : Head.parse reader.buffer = .error (.incompleteFrame needed)) :
      Scanned reader .more
  | payloadMissing {head : Head} (headed : Head.parse reader.buffer = .ok head)
      (fits : reader.Fits head) (small : head.frameSize ≤ maxSize)
      (missing : reader.buffer.length < head.frameSize) : Scanned reader .more

theorem scanned_of_fits (headed : Head.parse reader.buffer = .ok head) (fits : reader.Fits head) :
    reader.Scanned (scanFrame reader.buffer) := by
  unfold scanFrame
  by_cases large : maxSize < head.frameSize
  · rw [parse_of_large headed large]
    exact .large headed fits large
  have small : head.frameSize ≤ maxSize := Nat.le_of_not_lt large
  by_cases missing : reader.buffer.length < head.frameSize
  · rw [parse_of_head headed small, if_pos missing]
    exact .payloadMissing headed fits small missing
  have whole := parse_of_whole headed small (Nat.le_of_not_lt missing)
  rw [whole]
  cases control : (head.frameIn reader.buffer).checkControl with
  | ok _ =>
      simp only [control]
      exact .frame (admits_iff.mpr ⟨headed, fits, whole, control⟩)
  | error fault =>
      simp only [control]
      exact .spent headed fits whole control

theorem scanned_scan (reader : Reader) : reader.Scanned reader.scan := by
  unfold scan
  cases headed : Head.parse reader.buffer with
  | ok head =>
      obtain ⟨judged, fits⟩ | ⟨fault, judged, shows, other⟩ := judge_cases reader head
      · simp only [judged]
        exact scanned_of_fits headed fits
      · simp only [judged]
        exact .refused headed shows other
  | error fault =>
      cases fault with
      | incompleteFrame needed => exact .headMissing headed
      | _ => exact .unknown headed fun _ => by simp

theorem scan_of_admits {frame : Frame} (admits : reader.Admits reader.buffer head frame) :
    reader.scan = .frame frame (reader.buffer.drop head.frameSize) := by
  obtain ⟨headed, fits, whole, control⟩ := admits_iff.mp admits
  have judged := judge_eq_ok_iff.mpr fits
  simp only [scan, headed, judged, scanFrame, whole, control]

end Reader

end Frame

end DeflateTrial
