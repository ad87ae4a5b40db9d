/-
Blocks — the parts of a compressed stream

A block begins with a final bit and its type.  A stored block gives its
length twice, the second time complemented, on a byte boundary.  The other
two types hold symbols, in the fixed code or in one that the block itself
describes.
-/
import DeflateTrial.Deflate.Code
import DeflateTrial.Deflate.Symbols

namespace DeflateTrial.Deflate

inductive Block where
  /-- So many bytes as they are. -/
  | stored (size : Nat)
  /-- Symbols in a code for literals and lengths and a code for distances. -/
  | coded (literals distances : Code)
deriving DecidableEq, Repr

namespace Block

def fixedLiterals : Code :=
  Code.ofWords (Code.words fixedLiteralLengths)

def fixedDistances : Code :=
  Code.ofWords (Code.words fixedDistanceLengths)

/-- Drops the rest of a byte that has been begun. -/
def align (bits : List Bool) : List Bool :=
  bits.drop (bits.length % 8)

def readStored (bits : List Bool) : Reading Block :=
  (readNat 16 (align bits)).andThen fun size bits =>
  (readNat 16 bits).andThen fun complement bits =>
  if size + complement = 65535 then .done (.stored size) bits else .bad .storedLengths

/-- Reads `count` numbers of three bits after those already read. -/
def readTriples (read : List Nat) : (count : Nat) → List Bool → Reading (List Nat)
  | 0, bits => .done read bits
  | count + 1, bits =>
    (readNat 3 bits).andThen fun n bits => readTriples (read ++ [n]) count bits

/-- The code lengths of the nineteen code-length symbols, from those given in
the order of the description. -/
def byCodeLength (given : List Nat) : List Nat :=
  (List.range 19).map fun symbol =>
    ((codeLengthOrder.zip given).find? (·.1 == symbol)).elim 0 (·.2)

/-- What a code-length symbol repeats, and how often: the last length, or zero. -/
def readRepeat (lengths : List Nat) (symbol : Nat) (bits : List Bool) :
    Reading (List Nat) :=
  if symbol = 16 then
    (readNat 2 bits).andThen fun n bits =>
    match lengths.getLast? with
    | none => .bad .lengthRepeat
    | some last => .done (List.replicate (3 + n) last) bits
  else if symbol = 17 then
    (readNat 3 bits).andThen fun n bits => .done (List.replicate (3 + n) 0) bits
  else
    (readNat 7 bits).andThen fun n bits => .done (List.replicate (11 + n) 0) bits

/-- The lengths that one code-length symbol adds. -/
def readLengths (code : Code) (total : Nat) (lengths : List Nat) (bits : List Bool) :
    Reading (List Nat) :=
  (code.read bits .codeLengthsSet).andThen fun symbol bits =>
  if symbol < 16 then .done (lengths ++ [symbol]) bits
  else (readRepeat lengths symbol bits).andThen fun more bits =>
    if lengths.length + more.length > total then .bad .lengthRepeat
    else .done (lengths ++ more) bits

/-- Reads code lengths until there are `total` of them; `fuel` bounds the
number of symbols, each of which adds at least one. -/
def readAllLengths (code : Code) (total : Nat) : (fuel : Nat) → List Nat → List Bool →
    Reading (List Nat)
  | 0, lengths, bits => .done lengths bits
  | fuel + 1, lengths, bits =>
    if lengths.length ≥ total then .done lengths bits
    else (readLengths code total lengths bits).andThen (readAllLengths code total fuel)

/-- The two codes that code lengths describe. -/
def codesOf (literals distances : List Nat) : Except StreamError (Code × Code) :=
  if literals.getD endOfBlock 0 = 0 then .error .missingEndOfBlock
  else match Code.ofLengths? literals with
    | none => .error .literalsSet
    | some literals => match Code.ofLengths? distances with
      | none => .error .distancesSet
      | some distances => .ok (literals, distances)

/-- Reads the description of a block's own codes. -/
def readCodes (bits : List Bool) : Reading Block :=
  (readNat 14 bits).andThen fun counts bits =>
  let literals := counts % 32 + 257
  let distances := counts / 32 % 32 + 1
  let given := counts / 1024 + 4
  if literals > 286 ∨ distances > 30 then .bad .tooManySymbols
  else (readTriples [] given bits).andThen fun triples bits =>
    match Code.ofCodeLengths? (byCodeLength triples) with
    | none => .bad .codeLengthsSet
    | some code =>
      let total := literals + distances
      (readAllLengths code total total [] bits).andThen fun lengths bits =>
      match codesOf (lengths.take literals) (lengths.drop literals) with
      | .error error => .bad error
      | .ok (literals, distances) => .done (.coded literals distances) bits

/-- Reads a block's header: whether it is the last block, and what it holds. -/
def readHeader (bits : List Bool) : Reading (Bool × Block) :=
  (readNat 3 bits).andThen fun n bits =>
  let final := n % 2 == 1
  match n / 2 with
  | 0 => (readStored bits).andThen fun block bits => .done (final, block) bits
  | 1 => .done (final, .coded fixedLiterals fixedDistances) bits
  | 2 => (readCodes bits).andThen fun block bits => .done (final, block) bits
  | _ => .bad .blockType

/-! ## A header takes at least one bit -/

theorem align_length_le (bits : List Bool) : (align bits).length ≤ bits.length := by
  simp [align]

theorem readStored_leaves (bits : List Bool) : (readStored bits).Leaves bits.length := by
  refine Reading.leaves_andThen (readNat_leaves _ _) fun size rest h => ?_
  refine Reading.leaves_andThen (readNat_leaves _ _) fun complement rest' h' => ?_
  have := align_length_le bits
  split
  · exact Reading.leaves_done (by omega)
  · exact Reading.leaves_bad

theorem readTriples_leaves (read : List Nat) (count : Nat) (bits : List Bool) :
    (readTriples read count bits).Leaves bits.length := by
  induction count generalizing read bits with
  | zero => exact Reading.leaves_done (Nat.le_refl _)
  | succ count ih =>
    exact Reading.leaves_andThen (readNat_leaves _ _) fun n rest h =>
      (ih _ _).mono (by omega)

theorem readRepeat_leaves (lengths : List Nat) (symbol : Nat) (bits : List Bool) :
    (readRepeat lengths symbol bits).Leaves bits.length := by
  unfold readRepeat
  split
  · refine Reading.leaves_andThen (readNat_leaves _ _) fun n rest h => ?_
    split
    · exact Reading.leaves_bad
    · exact Reading.leaves_done (by omega)
  · split
    · exact Reading.leaves_andThen (readNat_leaves _ _) fun n rest h =>
        Reading.leaves_done (by omega)
    · exact Reading.leaves_andThen (readNat_leaves _ _) fun n rest h =>
        Reading.leaves_done (by omega)

theorem readLengths_leaves (code : Code) (total : Nat) (lengths : List Nat) (bits : List Bool) :
    (readLengths code total lengths bits).Leaves bits.length := by
  refine Reading.leaves_andThen (Code.read_leaves _ _ _) fun symbol rest h => ?_
  split
  · exact Reading.leaves_done (by omega)
  · refine Reading.leaves_andThen (readRepeat_leaves _ _ _) fun more rest' h' => ?_
    split
    · exact Reading.leaves_bad
    · exact Reading.leaves_done (by omega)

theorem readAllLengths_leaves (code : Code) (total fuel : Nat) (lengths : List Nat)
    (bits : List Bool) : (readAllLengths code total fuel lengths bits).Leaves bits.length := by
  induction fuel generalizing lengths bits with
  | zero => exact Reading.leaves_done (Nat.le_refl _)
  | succ fuel ih =>
    unfold readAllLengths
    split
    · exact Reading.leaves_done (Nat.le_refl _)
    · exact Reading.leaves_andThen (readLengths_leaves _ _ _ _) fun _ rest h =>
        (ih _ _).mono h

theorem readCodes_leaves (bits : List Bool) : (readCodes bits).Leaves bits.length := by
  refine Reading.leaves_andThen (readNat_leaves _ _) fun counts rest h => ?_
  dsimp only
  split
  · exact Reading.leaves_bad
  · refine Reading.leaves_andThen (readTriples_leaves _ _ _) fun triples rest' h' => ?_
    split
    · exact Reading.leaves_bad
    · refine Reading.leaves_andThen (readAllLengths_leaves _ _ _ _ _) fun lengths rest'' h'' => ?_
      split
      · exact Reading.leaves_bad
      · exact Reading.leaves_done (by omega)

theorem readHeader_leaves (bits : List Bool) : (readHeader bits).Leaves (bits.length - 3) := by
  refine Reading.leaves_andThen (readNat_leaves _ _) fun n rest h => ?_
  dsimp only
  split
  · exact Reading.leaves_andThen (readStored_leaves _) fun _ _ h' =>
      Reading.leaves_done (by omega)
  · exact Reading.leaves_done h
  · exact Reading.leaves_andThen (readCodes_leaves _) fun _ _ h' =>
      Reading.leaves_done (by omega)
  · exact Reading.leaves_bad

theorem lt_of_readHeader {bits rest : List Bool} {header : Bool × Block}
    (h : readHeader bits = .done header rest) : rest.length < bits.length := by
  have le := readHeader_leaves bits header rest h
  cases bits with
  | nil => simp [readHeader, readNat, Reading.andThen] at h
  | cons b bits => simp only [List.length_cons] at le ⊢; omega

end Block

end DeflateTrial.Deflate
