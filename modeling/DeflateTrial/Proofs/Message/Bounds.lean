/-
Bounds — what a reader brings is no more than its limits allow

A message has passed two checks when it comes: a control frame is judged
before the assembler sees it, and data is measured once it is whole, inflated
if it was compressed.  So a data message is at most as long as the limit on
messages, a ping or pong at most 125 bytes (`within_of_next`), however the
message was cut and compressed.

What a close carried is known from what it was read as: only one payload is
read as a given code and reason (`payload_of_parse`).
-/
import DeflateTrial.Message.Reader
import DeflateTrial.Proofs.Frame.Codec
import DeflateTrial.Proofs.Frame.Passing
import DeflateTrial.Proofs.Message.Dealing

namespace DeflateTrial

theorem Bytes.ofText_of_toText? {bytes : Bytes} {text : String} (h : toText? bytes = some text) :
    ofText text = bytes := by
  unfold toText? String.fromUTF8? at h
  split at h
  · cases h
    rfl
  · cases h

/-- Only one payload is read as what a close frame carries. -/
theorem CloseFrame.payload_of_parse {payload : Bytes} {status : Option CloseFrame}
    (h : parse payload = .ok status) : (status.map CloseFrame.payload).getD [] = payload := by
  match payload with
  | [] =>
      cases h
      rfl
  | [_] => cases h
  | high :: low :: reason =>
      simp only [parse] at h
      split at h
      · cases h
      · cases text : Bytes.toText? reason with
        | none =>
            rw [text] at h
            cases h
        | some reason' =>
            rw [text] at h
            cases h
            have two : Bytes.toNat [high, low] < 2 ^ 16 := by
              have := high.toNat_lt
              have := low.toNat_lt
              simp only [Bytes.toNat, List.foldl_cons, List.foldl_nil]
              omega
            change Bytes.ofNat 2 (UInt16.ofNat (Bytes.toNat [high, low])).toNat ++
              Bytes.ofText reason' = _
            rw [UInt16.toNat_ofNat_of_lt' two, Bytes.ofText_of_toText? text]
            exact congrArg (· ++ reason) (Bytes.ofNat_toNat [high, low])

namespace Message

/-- A message no larger than the limit on messages, if it carries data, and
than a control frame, if it is a ping or a pong. -/
def Within (size : Nat) : Message → Prop
  | text s => (Bytes.ofText s).length ≤ size
  | binary data => data.length ≤ size
  | ping data | pong data => data.length ≤ Frame.maxControlPayload
  | close _ => True

namespace Assembler

variable {assembler after : Assembler} {message : Message}

theorem within_of_decode {limits : Limits} {opcode : Opcode} {data : Bytes}
    (h : decode limits opcode data = .ok message) : message.Within limits.messageSize := by
  obtain ⟨small, ⟨-, s, text, rfl⟩ | ⟨-, rfl⟩⟩ := decode_eq_ok_iff.mp h
  · rw [Within, Bytes.ofText_of_toText? text]
    exact small
  · exact small

theorem within_of_accept {frame : Frame} (sound : frame.checkControl = .ok ())
    (h : assembler.accept frame = (.ok (some message), after)) :
    message.Within assembler.limits.messageSize := by
  have rules := Frame.checkControl_eq_ok_iff.mp sound
  have deals := assembler.deals_accept frame
  rw [h] at deals
  generalize answer_eq :
    (Except.ok (some message) : Except Fault (Option Message)) = answer at deals
  cases deals with
  | control kind =>
      cases answer_eq
      unfold ofControl? at kind
      cases opcode : frame.opcode with
      | ping | pong =>
          rw [opcode] at kind rules
          cases kind
          exact (rules rfl).2
      | close =>
          rw [opcode] at kind
          obtain ⟨status, -, rfl⟩ := Option.map_eq_some_iff.mp kind
          trivial
      | continuation | text | binary =>
          rw [opcode] at kind
          cases kind
  | completed completes =>
      obtain ⟨data, -, decoded⟩ := decode_of_finish answer_eq.symm
      exact within_of_decode decoded
  | refused | brokenOff | begun | carriedOn => cases answer_eq

end Assembler

namespace Reader

/-- A message comes within the limits, and the limits stay. -/
theorem within_of_next {reader reader' : Reader} {source source' : Source} {message : Message}
    (h : reader.next source = (.message message, reader', source')) :
    message.Within reader.assembler.limits.messageSize ∧
      reader'.assembler.limits = reader.assembler.limits := by
  fun_induction next reader source with
  | case1 reader source frame frames source'' taken found assembler accepted =>
      cases h
      have same := (reader.assembler.accept_keeps frame).1
      rw [accepted] at same
      exact ⟨Assembler.within_of_accept (Frame.Reader.checkControl_of_next taken) accepted, same⟩
  | case2 reader source frame frames source'' taken assembler accepted ih =>
      have same := (reader.assembler.accept_keeps frame).1
      rw [accepted] at same
      have same : assembler.limits = reader.assembler.limits := same
      have later := ih h
      rw [same] at later
      exact later
  | _ => cases h

end Reader

end Message

end DeflateTrial
