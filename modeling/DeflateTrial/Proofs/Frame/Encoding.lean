/-
Encoding — a frame is read back from its wire form

The first byte keeps the opcode and the flags apart, the second the mask bit
and the short length, and each of the three forms of the length is read as the
length it was written for.  Whatever stands behind the frame is left alone
(`parse_encode`), so a reader that is not in the way of it takes the frame and
keeps the rest (`Reader.scan_encode`).
-/
import DeflateTrial.Proofs.Frame.Verdict

namespace DeflateTrial.Frame

/-- The bytes of the key, if there is one. -/
def keyBytes (mask : Option Mask) : Bytes :=
  mask.elim [] Mask.bytes

theorem length_keyBytes (mask : Option Mask) :
    (keyBytes mask).length = if mask.isSome then 4 else 0 := by
  cases mask <;> rfl

theorem encode_eq (frame : Frame) (mask : Option Mask) :
    frame.encode mask =
      (frame.opcode.value ||| flag frame.fin 0x80 ||| flag frame.rsv1 0x40) ::
      (flag mask.isSome 0x80 ||| shortLength frame.payload.length) ::
      (lengthField frame.payload.length ++ (keyBytes mask ++ hidden mask frame.payload)) := by
  cases mask <;> rfl

/-! ## The two bytes in front -/

theorem first_byte (opcode : Opcode) (fin rsv1 : Bool) :
    let first := opcode.value ||| flag fin 0x80 ||| flag rsv1 0x40
    first &&& 0x0f = opcode.value ∧ (first &&& 0x80 != 0) = fin ∧ (first &&& 0x40 != 0) = rsv1 ∧
      (first &&& 0x20 != 0) = false ∧ (first &&& 0x10 != 0) = false := by
  cases opcode <;> cases fin <;> cases rsv1 <;> decide

theorem second_byte {short : UInt8} (h : short.toNat < 128) (masked : Bool) :
    let second := flag masked 0x80 ||| short
    second &&& 0x7f = short ∧ (second &&& 0x80 != 0) = masked := by
  have all : ∀ n < 128, ∀ masked,
      (flag masked 0x80 ||| UInt8.ofNat n) &&& 0x7f = UInt8.ofNat n ∧
      ((flag masked 0x80 ||| UInt8.ofNat n) &&& 0x80 != 0) = masked := by decide +kernel
  have here := all short.toNat h masked
  rw [UInt8.ofNat_toNat] at here
  exact here

theorem shortLength_lt (size : Nat) : (shortLength size).toNat < 128 := by
  unfold shortLength
  split
  · rw [UInt8.toNat_ofNat']
    omega
  · split <;> decide

theorem length_lengthField (size : Nat) :
    (lengthField size).length = if size < 126 then 0 else if size < 65536 then 2 else 8 := by
  unfold lengthField
  split
  · rfl
  · split <;> exact Bytes.ofNat_length ..

/-! ## The head -/

/-- The head that a frame is written with. -/
def headOf (frame : Frame) (mask : Option Mask) : Head where
  fin := frame.fin
  rsv1 := frame.rsv1
  rsv2 := false
  rsv3 := false
  opcode := frame.opcode
  mask := mask
  payloadSize := frame.payload.length
  headSize := 2 + (lengthField frame.payload.length).length + if mask.isSome then 4 else 0

namespace Head

theorem readLength_lengthField {size : Nat} (h : size < 1 <<< 64) (rest : Bytes) :
    readLength (shortLength size).toNat (lengthField size ++ rest) =
      .ok (size, (lengthField size).length, rest) := by
  have field {width : Nat} (fits : size < 1 <<< (8 * width)) :
      takeExactly width (Bytes.ofNat width size ++ rest) = .ok (Bytes.ofNat width size, rest) := by
    rw [takeExactly_of_le (by simp), List.take_left' (Bytes.ofNat_length ..),
      List.drop_left' (Bytes.ofNat_length ..)]
  unfold readLength shortLength lengthField
  by_cases tiny : size < 126
  · have value : (UInt8.ofNat size).toNat = size := by
      rw [UInt8.toNat_ofNat', Nat.mod_eq_of_lt (by omega)]
    simp only [if_pos tiny, value]
    rfl
  · by_cases short : size < 65536
    · have fits : size < 1 <<< (8 * 2) := short
      simp only [if_neg tiny, if_pos short, show (126 : UInt8).toNat = 126 from rfl,
        Nat.lt_irrefl, if_false, if_true, field fits, bind, Except.bind, pure, Except.pure,
        Bytes.toNat_ofNat fits, Bytes.ofNat_length]
    · have fits : size < 1 <<< (8 * 8) := h
      simp only [if_neg tiny, if_neg short, show ¬ (127 : UInt8).toNat < 126 by decide, if_false,
        show ¬ (127 : UInt8).toNat = 126 by decide, field fits, bind, Except.bind, pure,
        Except.pure, Bytes.toNat_ofNat fits, Bytes.ofNat_length]

theorem readMask_keyBytes (mask : Option Mask) (rest : Bytes) :
    readMask mask.isSome (keyBytes mask ++ rest) = .ok mask := by
  cases mask <;> rfl

theorem parse_encode (frame : Frame) (mask : Option Mask) (rest : Bytes)
    (small : frame.payload.length < 1 <<< 64) :
    parse (frame.encode mask ++ rest) = .ok (headOf frame mask) := by
  obtain ⟨opcode, fin, rsv1, rsv2, rsv3⟩ := first_byte frame.opcode frame.fin frame.rsv1
  obtain ⟨short, masked⟩ := second_byte (shortLength_lt frame.payload.length) mask.isSome
  rw [encode_eq]
  simp only [List.cons_append, parse, opcode, fin, rsv1, rsv2, rsv3, short, masked,
    List.append_assoc, Opcode.ofValue_value, readLength_lengthField small, readMask_keyBytes, bind,
    Except.bind, pure, Except.pure, headOf]

end Head

/-! ## The whole frame -/

theorem wireSize_eq (frame : Frame) (masked : Bool) :
    frame.wireSize masked = 2 + (lengthField frame.payload.length).length +
      (if masked then 4 else 0) + frame.payload.length := by
  rw [length_lengthField]
  rfl

theorem wireSize_le (frame : Frame) (masked : Bool) :
    frame.wireSize masked ≤ frame.payload.length + 14 := by
  rw [wireSize_eq, length_lengthField]
  split <;> (try split) <;> cases masked <;> simp <;> omega

theorem wireSize_mono {frame frame' : Frame} (h : frame.payload.length ≤ frame'.payload.length)
    (masked : Bool) : frame.wireSize masked ≤ frame'.wireSize masked := by
  have field : (lengthField frame.payload.length).length ≤
      (lengthField frame'.payload.length).length := by
    rw [length_lengthField, length_lengthField]
    repeat' split
    all_goals omega
  rw [wireSize_eq, wireSize_eq]
  omega

theorem length_encode (frame : Frame) (mask : Option Mask) :
    (frame.encode mask).length = frame.wireSize mask.isSome := by
  simp only [wireSize_eq, encode_eq, List.length_cons, List.length_append, length_keyBytes,
    length_hidden]
  omega

theorem length_payload_lt {frame : Frame} {masked : Bool}
    (wire : frame.wireSize masked ≤ maxSize) : frame.payload.length < 1 <<< 64 := by
  rw [wireSize_eq] at wire
  have : maxSize = 1 <<< 64 - 1 := rfl
  omega

theorem parse_encode (frame : Frame) (mask : Option Mask) (rest : Bytes)
    (small : frame.wireSize mask.isSome ≤ maxSize) :
    parse (frame.encode mask ++ rest) = .ok (frame, frame.wireSize mask.isSome) := by
  have inside := length_payload_lt small
  rw [wireSize_eq] at small ⊢
  have behind : (frame.encode mask ++ rest).drop (2 + (lengthField frame.payload.length).length +
      if mask.isSome then 4 else 0) = hidden mask frame.payload ++ rest := by
    have front : frame.encode mask ++ rest =
        (frame.opcode.value ||| flag frame.fin 0x80 ||| flag frame.rsv1 0x40) ::
        (flag mask.isSome 0x80 ||| shortLength frame.payload.length) ::
        (lengthField frame.payload.length ++ keyBytes mask) ++
        (hidden mask frame.payload ++ rest) := by
      simp only [encode_eq, List.cons_append, List.append_assoc]
    rw [front]
    apply List.drop_left'
    simp only [List.length_cons, List.length_append, length_keyBytes]
    omega
  have taken : Head.takeExactly frame.payload.length (hidden mask frame.payload ++ rest) =
      .ok (hidden mask frame.payload, rest) := by
    have size := length_hidden mask frame.payload
    rw [Head.takeExactly_of_le (by rw [List.length_append]; omega), List.take_left' size,
      List.drop_left' size]
  rw [parse, Head.parse_encode frame mask rest inside, headOf]
  simp only [bind, Except.bind, behind, taken, if_neg (Nat.not_lt.mpr small), pure, Except.pure]
  change Except.ok (⟨frame.fin, frame.rsv1, frame.opcode,
    hidden mask (hidden mask frame.payload)⟩, _) = Except.ok (frame, _)
  rw [hidden_hidden]

/-! ## Taking the frame from a buffer -/

namespace Reader

/-- What a reader asks of a frame, apart from its bytes. -/
structure Takes (reader : Reader) (frame : Frame) (mask : Option Mask) : Prop where
  masked : mask.isSome = reader.role.expectsMasked
  rsv1 : frame.rsv1 = true → reader.compression = true ∧ frame.opcode.isControl = false
  size : frame.payload.length ≤ reader.limits.frameSize
  control : frame.checkControl = .ok ()
  /-- The size is one that a length of eight bytes can have. -/
  wire : frame.wireSize mask.isSome ≤ maxSize

section
variable {reader : Reader} {frame : Frame} {mask : Option Mask}

theorem judge_headOf_iff : reader.judge (headOf frame mask) = .ok () ↔
    mask.isSome = reader.role.expectsMasked ∧
    (frame.rsv1 = true → reader.compression = true ∧ frame.opcode.isControl = false) ∧
    frame.payload.length ≤ reader.limits.frameSize := by
  rw [judge_eq_ok_iff]
  constructor
  · intro fits
    exact ⟨fits.masked, fits.rsv1, fits.size⟩
  · rintro ⟨masked, rsv1, size⟩
    exact ⟨masked, rfl, rfl, rsv1, size⟩

/-- What a reader makes of a frame at the front of its buffer: the head is
judged, and then the rules for control frames. -/
theorem scan_of_encode {rest : Bytes} (wire : frame.wireSize mask.isSome ≤ maxSize)
    (h : reader.buffer = frame.encode mask ++ rest) :
    reader.scan = match reader.judge (headOf frame mask) with
      | .error fault => .fault fault
      | .ok () => match frame.checkControl with
        | .ok () => .frame frame rest
        | .error fault => .spent fault rest := by
  rw [scan, h, Head.parse_encode frame mask rest (length_payload_lt wire)]
  simp only
  cases reader.judge (headOf frame mask) with
  | error fault => rfl
  | ok _ =>
      have left : (frame.encode mask ++ rest).drop (frame.wireSize mask.isSome) = rest :=
        List.drop_left' (length_encode frame mask)
      rw [scanFrame, parse_encode frame mask rest wire]
      cases control : frame.checkControl <;> simp only [control, left]

theorem scan_encode_iff {rest : Bytes} (wire : frame.wireSize mask.isSome ≤ maxSize)
    (h : reader.buffer = frame.encode mask ++ rest) :
    reader.scan = .frame frame rest ↔ reader.Takes frame mask := by
  rw [scan_of_encode wire h]
  constructor
  · intro taken
    cases judged : reader.judge (headOf frame mask) with
    | error fault =>
        rw [judged] at taken
        cases taken
    | ok _ =>
        rw [judged] at taken
        obtain ⟨masked, rsv1, size⟩ := judge_headOf_iff.mp judged
        cases control : frame.checkControl with
        | error fault =>
            rw [control] at taken
            cases taken
        | ok _ => exact ⟨masked, rsv1, size, control, wire⟩
  · intro takes
    rw [judge_headOf_iff.mpr ⟨takes.masked, takes.rsv1, takes.size⟩, takes.control]

/-- A frame that the reader takes is found at the front of its buffer. -/
theorem scan_encode {rest : Bytes} (takes : reader.Takes frame mask)
    (h : reader.buffer = frame.encode mask ++ rest) : reader.scan = .frame frame rest :=
  (scan_encode_iff takes.wire h).mpr takes

end

end Reader

end DeflateTrial.Frame
