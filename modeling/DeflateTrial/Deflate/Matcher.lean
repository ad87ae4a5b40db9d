/-
Matcher — finding repetitions in a text

Places are remembered by a hash of the three bytes that stand there.  The
memory only proposes: how far a proposed place agrees with the present one is
counted byte by byte, so every copy that is written repeats what it says.
-/
import DeflateTrial.Deflate.Token

namespace DeflateTrial.Deflate.Matcher

/-- The shortest run worth a copy. -/
def minCount : Nat := 3

/-- The longest run that one copy can repeat. -/
def maxCount : Nat := 258

def bucketCount : Nat := 8192

/-- The places seen so far by hash, the latest first, and no more than `depth`
for each. -/
structure Memory where
  depth : Nat
  buckets : Array (List Nat)

def Memory.empty (depth : Nat) : Memory :=
  ⟨depth, Array.replicate bucketCount []⟩

/-- The hash of the three bytes at a place, if there are three. -/
def hash? (text : Array UInt8) (place : Nat) : Option Nat :=
  match text[place]?, text[place + 1]?, text[place + 2]? with
  | some a, some b, some c => some ((a.toNat * 1089 + b.toNat * 33 + c.toNat) % bucketCount)
  | _, _, _ => none

def Memory.note (memory : Memory) (text : Array UInt8) (place : Nat) : Memory :=
  match hash? text place with
  | none => memory
  | some hash =>
    let ⟨depth, buckets⟩ := memory
    ⟨depth, buckets.modify hash fun places => (place :: places).take depth⟩

/-- Remembers `count` places from one on. -/
def Memory.noteRun (memory : Memory) (text : Array UInt8) (place : Nat) : (count : Nat) → Memory
  | 0 => memory
  | count + 1 => noteRun (memory.note text place) text (place + 1) count

/-- The places that may begin like this one, the latest first. -/
def Memory.proposals (memory : Memory) (text : Array UInt8) (place : Nat) : List Nat :=
  match hash? text place with
  | none => []
  | some hash => memory.buckets.getD hash []

/-- How many bytes from two places on agree, up to `most`. -/
def agreement (text : Array UInt8) (older newer : Nat) : (most : Nat) → Nat
  | 0 => 0
  | most + 1 =>
    match text[older]?, text[newer]? with
    | some a, some b => if a = b then agreement text (older + 1) (newer + 1) most + 1 else 0
    | _, _ => 0

/-- The longest agreement with a proposed place inside the window, as the
count and the distance; of equal ones the latest. -/
def best (window : Nat) (text : Array UInt8) (place : Nat) (proposals : List Nat) : Nat × Nat :=
  proposals.foldl (fun found older =>
    if older < place ∧ place - older ≤ window then
      let count := agreement text older place maxCount
      if count > found.1 then (count, place - older) else found
    else found) (0, 0)

/-- The tokens for a text from a place on, after those already found, which
are in reverse. -/
def tokensFrom (window : Nat) (text : Array UInt8) (memory : Memory) (place : Nat)
    (found : List Token) : List Token :=
  if h : place < text.size then
    let (count, distance) := best window text place (memory.proposals text place)
    if count < minCount then
      tokensFrom window text (memory.note text place) (place + 1) (.literal text[place] :: found)
    else
      tokensFrom window text (memory.noteRun text place count) (place + count)
        (.copy count distance :: found)
  else found.reverse
termination_by text.size - place
decreasing_by
  · omega
  · have : minCount = 3 := rfl
    omega

/-- The tokens for `data` after a history, in which copies may begin.  The
deeper the search, the longer the runs it finds. -/
def tokens (window depth : Nat) (history : Array UInt8) (data : Bytes) : List Token :=
  let text := history ++ data.toArray
  let memory := (Memory.empty depth).noteRun text 0 history.size
  tokensFrom window text memory history.size []

end DeflateTrial.Deflate.Matcher
