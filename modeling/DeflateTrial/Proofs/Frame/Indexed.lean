/-
Indexed reading — no index is outside and no sum too large

A machine reads a head by position: it looks at single bytes, cuts out fields
between two positions, and adds and subtracts sizes in words of 64 bits.  Each
of these can go wrong in a way that is no fault of the protocol but the end of
the program.  Here heads and frames are read in that manner, with `none` for
such an end, and the outcome is that of the reading by parts, whatever the
bytes are (`Indexed.parseHead_eq`, `Indexed.parse_eq`): so it never is `none`.

What keeps a position inside is the length that was asked for just before it
(`Indexed.field_eq`).  The one sum that may be too large, that of head and
payload, is checked by the reading itself.
-/
import DeflateTrial.Proofs.Frame.Codec

namespace DeflateTrial.Frame

/-- What a machine does: it gives a value, or a fault, or (`none`) it is stopped. -/
abbrev Machine (α : Type) : Type := ExceptT Fault Option α

namespace Machine

/-- The machine is not stopped, and this is what it gives. -/
def given {α : Type} (outcome : Except Fault α) : Machine α :=
  ExceptT.mk (some outcome)

/-- A difference of sizes, which must not fall below zero. -/
def minus (a b : Nat) : Machine Nat :=
  if b ≤ a then given (.ok (a - b)) else ExceptT.mk none

/-- A sum of sizes, which must fit into a word. -/
def plus (a b : Nat) : Machine Nat :=
  if a + b ≤ maxSize then given (.ok (a + b)) else ExceptT.mk none

/-- The byte at a position, which must be inside. -/
def byteAt (bytes : Bytes) (i : Nat) : Machine UInt8 :=
  ExceptT.mk (bytes[i]?.map .ok)

/-- The bytes between two positions, which must be inside and in order. -/
def slice (bytes : Bytes) (start stop : Nat) : Machine Bytes :=
  if start ≤ stop ∧ stop ≤ bytes.length then given (.ok ((bytes.take stop).drop start))
  else ExceptT.mk none

/-- A key is copied from four bytes, neither more nor fewer. -/
def keyOf (bytes : Bytes) : Machine Mask :=
  ExceptT.mk ((Mask.ofBytes? bytes).map .ok)

variable {α β γ : Type}

theorem minus_of_le {a b : Nat} (h : b ≤ a) : minus a b = given (.ok (a - b)) :=
  if_pos h

theorem plus_of_le {a b : Nat} (h : a + b ≤ maxSize) : plus a b = given (.ok (a + b)) :=
  if_pos h

/-- Two computations are one behind the other what their counterparts are, where the first
gives a view of what its counterpart gives. -/
theorem bind_given (view : α → γ) {first : Machine γ} {next : γ → Machine β}
    {outcome : Except Fault α} {outcome' : α → Except Fault β}
    (gives : first = given (outcome.map view))
    (then_gives : ∀ a, outcome = .ok a → next (view a) = given (outcome' a)) :
    (first >>= next) = given (outcome >>= outcome') := by
  rw [gives]
  cases outcome with
  | error fault => rfl
  | ok a => exact then_gives a rfl

theorem bind_given_of_eq {first : Machine α} {next : α → Machine β}
    {outcome : Except Fault α} {outcome' : α → Except Fault β} (gives : first = given outcome)
    (then_gives : ∀ a, outcome = .ok a → next a = given (outcome' a)) :
    (first >>= next) = given (outcome >>= outcome') :=
  bind_given id (by rw [gives]; cases outcome <;> rfl) then_gives

end Machine

open Machine

namespace Indexed

/-- So many bytes must have come. -/
def requires (bytes : Bytes) (size : Nat) : Machine Unit :=
  if bytes.length < size then do
    throw (.incompleteFrame (← minus size bytes.length))
  else pure ()

/-- The bytes between two positions, once they have come. -/
def field (bytes : Bytes) (start stop : Nat) : Machine Bytes := do
  requires bytes stop
  slice bytes start stop

/-- The payload length, and the position behind the length field. -/
def lengthAt (bytes : Bytes) (short : Nat) : Machine (Nat × Nat) :=
  if short < 126 then pure (short, 2)
  else do
    let stop := if short = 126 then 4 else 10
    return (Bytes.toNat (← field bytes 2 stop), stop)

/-- The masking key, if there is to be one, and the position behind it. -/
def maskAt (bytes : Bytes) (masked : Bool) (headSize : Nat) : Machine (Option Mask × Nat) :=
  if masked then do
    let stop ← plus headSize 4
    let key ← keyOf (← field bytes headSize stop)
    return (some key, stop)
  else pure (none, headSize)

/-- Reads a head whose first two bytes have been looked at. -/
def headWith (bytes : Bytes) (first second : UInt8) : Machine Head := do
  let opcode ← given (Opcode.ofValue (first &&& 0x0f))
  let (payloadSize, headSize) ← lengthAt bytes (second &&& 0x7f).toNat
  let (mask, headSize) ← maskAt bytes (second &&& 0x80 != 0) headSize
  return {
    fin := first &&& 0x80 != 0
    rsv1 := first &&& 0x40 != 0
    rsv2 := first &&& 0x20 != 0
    rsv3 := first &&& 0x10 != 0
    opcode, mask, payloadSize, headSize }

/-- Reads a head from the front of the bytes. -/
def parseHead (bytes : Bytes) : Machine Head := do
  requires bytes 2
  headWith bytes (← byteAt bytes 0) (← byteAt bytes 1)

/-- Reads one whole frame from the front of the bytes; with it the position behind it. -/
def parse (bytes : Bytes) : Machine (Frame × Nat) := do
  let head ← parseHead bytes
  if head.headSize + head.payloadSize > maxSize then
    throw (.frameTooLarge head.payloadSize (← minus maxSize head.headSize))
  let total ← plus head.headSize head.payloadSize
  let payload ← field bytes head.headSize total
  return (⟨head.fin, head.rsv1, head.opcode, hidden head.mask payload⟩, total)

/-! ## The same reading -/

variable {bytes : Bytes}

theorem requires_of_lt {size : Nat} (h : bytes.length < size) :
    requires bytes size = given (.error (.incompleteFrame (size - bytes.length))) := by
  rw [requires, if_pos h, minus_of_le (Nat.le_of_lt h)]
  rfl

theorem requires_of_le {size : Nat} (h : size ≤ bytes.length) :
    requires bytes size = given (.ok ()) :=
  if_neg (Nat.not_lt_of_le h)

theorem field_eq {start : Nat} (count : Nat) (inside : start ≤ bytes.length) :
    field bytes start (start + count) =
      given ((Head.takeExactly count (bytes.drop start)).map Prod.fst) := by
  have behind : (bytes.drop start).length = bytes.length - start := List.length_drop
  unfold field
  rcases Nat.lt_or_ge bytes.length (start + count) with short | whole
  · rw [requires_of_lt short, Head.takeExactly_of_lt (by omega), behind]
    have missing : start + count - bytes.length = count - (bytes.length - start) := by omega
    rw [missing]
    rfl
  · rw [requires_of_le whole, Head.takeExactly_of_le (by omega)]
    change slice bytes start (start + count) = _
    rw [slice, if_pos ⟨Nat.le_add_right .., whole⟩, List.drop_take, Nat.add_sub_cancel_left]
    rfl

theorem lengthAt_eq (short : Nat) (inside : 2 ≤ bytes.length) :
    lengthAt bytes short = given ((Head.readLength short (bytes.drop 2)).map
      fun (size, width, _) => (size, 2 + width)) := by
  unfold lengthAt Head.readLength
  by_cases tiny : short < 126
  · rw [if_pos tiny, if_pos tiny]
    rfl
  · rw [if_neg tiny, if_neg tiny]
    have stop : (if short = 126 then 4 else 10) = 2 + if short = 126 then 2 else 8 := by
      split <;> rfl
    simp only [stop, field_eq _ inside]
    cases Head.takeExactly (if short = 126 then 2 else 8) (bytes.drop 2) <;> rfl

theorem maskAt_eq (masked : Bool) {headSize : Nat} (inside : headSize ≤ bytes.length)
    (small : headSize + 4 ≤ maxSize) :
    maskAt bytes masked headSize = given ((Head.readMask masked (bytes.drop headSize)).map
      fun mask => (mask, headSize + if masked then 4 else 0)) := by
  cases masked with
  | false => rfl
  | true =>
      unfold maskAt
      rw [if_pos rfl, plus_of_le small]
      change (field bytes headSize (headSize + 4) >>= fun raw =>
        keyOf raw >>= fun key => pure (some key, headSize + 4)) = _
      rw [field_eq 4 inside]
      unfold Head.readMask
      cases taken : Head.takeExactly 4 (bytes.drop headSize) with
      | error fault => rfl
      | ok found =>
          obtain ⟨key, rest⟩ := found
          obtain ⟨four, -⟩ := Head.eq_append_of_takeExactly taken
          match key, four with
          | [a, b, c, d], _ => rfl

theorem width_le_of_readLength {short size width : Nat} {rest rest' : Bytes}
    (h : Head.readLength short rest = .ok (size, width, rest')) :
    width ≤ 8 ∧ rest' = rest.drop width := by
  unfold Head.readLength at h
  by_cases tiny : short < 126
  · rw [if_pos tiny] at h
    cases h
    exact ⟨by omega, rfl⟩
  · rw [if_neg tiny] at h
    obtain ⟨⟨field, after⟩, taken, h⟩ := exists_of_bind_ok h
    cases h
    obtain ⟨length, split⟩ := Head.eq_append_of_takeExactly taken
    refine ⟨by split <;> omega, ?_⟩
    rw [split, List.drop_left' length]

theorem parseHead_eq (bytes : Bytes) : parseHead bytes = given (Head.parse bytes) := by
  match bytes with
  | [] => rfl
  | [_] => rfl
  | first :: second :: rest =>
      have inside : 2 ≤ (first :: second :: rest).length := by simp
      unfold parseHead
      rw [requires_of_le inside]
      change headWith (first :: second :: rest) first second = _
      refine bind_given_of_eq rfl fun opcode _ => ?_
      refine bind_given _ (lengthAt_eq _ inside) fun ⟨size, width, rest'⟩ measured => ?_
      obtain ⟨narrow, behind⟩ := width_le_of_readLength measured
      have within := Head.length_of_readLength measured
      have whole : (first :: second :: rest).drop (2 + width) = rest' := by
        rw [behind, Nat.add_comm]
        rfl
      refine bind_given (fun mask => (mask, 2 + width + if second &&& 0x80 != 0 then 4 else 0))
        ?_ fun mask _ => rfl
      rw [← whole]
      exact maskAt_eq _ (by simp only [List.length_cons]; omega) (by simp [maxSize]; omega)

theorem headSize_le_fourteen {head : Head} (h : Head.parse bytes = .ok head) :
    head.headSize ≤ 14 := by
  match bytes with
  | [] => cases h
  | [_] => cases h
  | first :: second :: rest =>
      obtain ⟨opcode, -, h⟩ := exists_of_bind_ok h
      obtain ⟨⟨size, width, rest'⟩, measured, h⟩ := exists_of_bind_ok h
      obtain ⟨mask, -, h⟩ := exists_of_bind_ok h
      cases h
      obtain ⟨narrow, -⟩ := width_le_of_readLength measured
      simp only
      split <;> omega

theorem parse_eq (bytes : Bytes) : parse bytes = given (Frame.parse bytes) := by
  unfold parse Frame.parse
  refine bind_given_of_eq (parseHead_eq bytes) fun head found => ?_
  have inside := Head.headSize_le_of_parse found
  by_cases large : head.headSize + head.payloadSize > maxSize
  · simp only [if_pos large]
    rw [minus_of_le (Nat.le_trans (headSize_le_fourteen found) (by decide))]
    rfl
  · simp only [if_neg large]
    rw [plus_of_le (Nat.le_of_not_lt large)]
    refine bind_given Prod.fst (field_eq _ inside) fun ⟨payload, _⟩ _ => ?_
    rfl

end Indexed

end DeflateTrial.Frame
