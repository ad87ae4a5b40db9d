/-
Readings — taking a unit off the front of a stream of bits

A reading is done, or finds the stream malformed, or runs out of bits.  In
the last case nothing is lost: the unit is read again from its first bit when
more bits have come, and the order in which a unit's parts are checked is the
order in which its bits stand, so a fault shows as early as its bits do.
-/
import DeflateTrial.Deflate.Bits
import DeflateTrial.Deflate.StreamError

namespace DeflateTrial.Deflate

inductive Reading (α : Type) where
  /-- The unit, and the bits after it. -/
  | done (value : α) (rest : List Bool)
  /-- The bits ended inside the unit. -/
  | short
  /-- The bits are not such a unit. -/
  | bad (error : StreamError)

namespace Reading

/-- Continues with what a first part gave. -/
def andThen {α β : Type} (reading : Reading α) (next : α → List Bool → Reading β) : Reading β :=
  match reading with
  | done value rest => next value rest
  | short => short
  | bad error => bad error

/-- Every outcome that is done leaves at most `bound` bits. -/
def Leaves {α : Type} (reading : Reading α) (bound : Nat) : Prop :=
  ∀ value rest, reading = done value rest → rest.length ≤ bound

theorem leaves_done {α : Type} {value : α} {rest : List Bool} {bound : Nat}
    (h : rest.length ≤ bound) : (done value rest).Leaves bound := by
  intro v r e
  cases e
  exact h

theorem leaves_short {α : Type} {bound : Nat} : (short : Reading α).Leaves bound := by
  intro v r e
  cases e

theorem leaves_bad {α : Type} {error : StreamError} {bound : Nat} :
    (bad error : Reading α).Leaves bound := by
  intro v r e
  cases e

theorem leaves_andThen {α β : Type} {reading : Reading α} {next : α → List Bool → Reading β}
    {middle bound : Nat} (h : reading.Leaves middle)
    (h' : ∀ value rest, rest.length ≤ middle → (next value rest).Leaves bound) :
    (reading.andThen next).Leaves bound := by
  cases reading with
  | done value rest => exact h' value rest (h value rest rfl)
  | short => exact leaves_short
  | bad error => exact leaves_bad

theorem Leaves.mono {α : Type} {reading : Reading α} {low high : Nat} (h : reading.Leaves low)
    (le : low ≤ high) : reading.Leaves high :=
  fun value rest e => Nat.le_trans (h value rest e) le

end Reading

/-- Reads a number of `width` bits, least significant first. -/
def readNat (width : Nat) (bits : List Bool) : Reading Nat :=
  let front := bits.take width
  if front.length < width then .short else .done (Bits.toNat front) (bits.drop width)

theorem readNat_leaves (width : Nat) (bits : List Bool) :
    (readNat width bits).Leaves (bits.length - width) := by
  unfold readNat
  dsimp only
  split
  · exact Reading.leaves_short
  · exact Reading.leaves_done (by simp)

end DeflateTrial.Deflate
