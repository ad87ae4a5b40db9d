/-
Codes — symbols as words of bits, none of which begins another

A code is given by the length of each symbol's word.  Words of equal length
follow each other in the order of their symbols, and longer words follow
shorter ones, so the lengths determine the words.  A code is decoded by
walking a tree; places that no word reaches are void.
-/
import DeflateTrial.Deflate.Reading

namespace DeflateTrial.Deflate

/-- What lies below a place in a code. -/
inductive Tree where
  /-- No word leads on from here. -/
  | void
  /-- The word of a symbol ends here. -/
  | leaf (symbol : Nat)
  /-- Words go on with a zero or with a one. -/
  | fork (zero one : Tree)
deriving DecidableEq, Repr

namespace Tree

/-- Follows bits to a symbol. -/
def read : Tree → List Bool → (invalid : StreamError) → Reading Nat
  | void, _, invalid => .bad invalid
  | leaf symbol, bits, _ => .done symbol bits
  | fork _ _, [], _ => .short
  | fork zero one, bit :: bits, invalid => (if bit then one else zero).read bits invalid

/-- Puts a symbol at the end of a word. -/
def insert (symbol : Nat) : Tree → List Bool → Tree
  | _, [] => leaf symbol
  | fork zero one, bit :: word =>
    if bit then fork zero (one.insert symbol word) else fork (zero.insert symbol word) one
  | _, bit :: word =>
    if bit then fork void (void.insert symbol word) else fork (void.insert symbol word) void

theorem read_leaves (tree : Tree) (bits : List Bool) (invalid : StreamError) :
    (tree.read bits invalid).Leaves bits.length := by
  induction tree generalizing bits with
  | void => rw [read]; exact Reading.leaves_bad
  | leaf symbol => rw [read]; exact Reading.leaves_done (Nat.le_refl _)
  | fork zero one ihz iho =>
    cases bits with
    | nil => rw [read]; exact Reading.leaves_short
    | cons bit bits =>
      rw [read]
      cases bit
      · exact (ihz bits).mono (Nat.le_succ _)
      · exact (iho bits).mono (Nat.le_succ _)

end Tree

/-- A code whose words all have at least one bit. -/
structure Code where
  /-- The words that begin with a zero. -/
  zero : Tree
  /-- The words that begin with a one. -/
  one : Tree
deriving DecidableEq, Repr

namespace Code

/-- The longest word of any code. -/
def maxLength : Nat := 15

/-- The symbols that have words, each with the length of its word, shorter
words first and equal lengths in the order of the symbols. -/
def used (lengths : List Nat) : List (Nat × Nat) :=
  (List.range' 1 maxLength).flatMap fun length =>
    lengths.zipIdx.filterMap fun (l, symbol) => if l = length then some (symbol, length) else none

/-- Gives out words in order: each is one more than the last, drawn out with
zeros to its own length. -/
def assign (code length : Nat) : List (Nat × Nat) → List (Nat × List Bool)
  | [] => []
  | (symbol, l) :: rest =>
    let code := code <<< (l - length)
    (symbol, Bits.word l code) :: assign (code + 1) l rest

def words (lengths : List Nat) : List (Nat × List Bool) :=
  assign 0 0 (used lengths)

def ofWords (words : List (Nat × List Bool)) : Code :=
  match words.foldl (fun tree (symbol, word) => tree.insert symbol word) Tree.void with
  | .fork zero one => ⟨zero, one⟩
  | _ => ⟨.void, .void⟩

/-- How much of the space of words of the greatest length the words take. -/
def space (lengths : List Nat) : Nat :=
  lengths.foldl (fun taken l => if l = 0 then taken else taken + (1 <<< (maxLength - l))) 0

def overfull (lengths : List Nat) : Bool :=
  space lengths > 1 <<< maxLength

/-- Whether the words leave nothing void. -/
def complete (lengths : List Nat) : Bool :=
  space lengths = 1 <<< maxLength

def unused (lengths : List Nat) : Bool :=
  lengths.all (· = 0)

/-- Whether the only words are of one bit. -/
def single (lengths : List Nat) : Bool :=
  lengths.all (· ≤ 1)

/-- The code for literals or distances.  It may leave words void only if it
has a single word of one bit, or none at all. -/
def ofLengths? (lengths : List Nat) : Option Code :=
  if overfull lengths then none
  else if complete lengths || single lengths then some (ofWords (words lengths))
  else none

/-- The code for code lengths, which leaves no word void.  Where no code
length has a word, every bit is read as the length zero. -/
def ofCodeLengths? (lengths : List Nat) : Option Code :=
  if unused lengths then some ⟨.leaf 0, .leaf 0⟩
  else if complete lengths then some (ofWords (words lengths))
  else none

def read (code : Code) (bits : List Bool) (invalid : StreamError) : Reading Nat :=
  match bits with
  | [] => .short
  | bit :: bits => (if bit then code.one else code.zero).read bits invalid

theorem read_leaves (code : Code) (bits : List Bool) (invalid : StreamError) :
    (code.read bits invalid).Leaves (bits.length - 1) := by
  cases bits with
  | nil => exact Reading.leaves_short
  | cons bit bits => cases bit <;> exact Tree.read_leaves _ _ _

end Code

end DeflateTrial.Deflate
