/-
Inflater — decompressing the messages of one direction

The messages of a direction are one compressed stream.  A message need not
end where a block does: what can be decoded is its text, and the next message
goes on at the bit where it stopped.  `run` takes the stream as far as its
bits reach; `Inflater.inflate` gives it one message with the tail put back.

The output is collected in a buffer that doubles when it is full, and the
size limit is looked at each time: so a message over the limit is refused
when the buffer is full, before all of it has been decoded.

Each time the buffer has been doubled, decoding is called anew.  A call has its
own output at hand, and of all that was put out before it just what is left in
the window:

    … ───────────────┬──────────┬─────────────┐
       out of reach  │  window  │  this call  │ next byte
    … ───────────────┴──────────┴─────────────┘
-/
import DeflateTrial.Deflate.Block
import DeflateTrial.Deflate.Window
import DeflateTrial.Fault

namespace DeflateTrial.Deflate

/-- What one group of symbols in a block stands for. -/
inductive Item where
  | literal (byte : UInt8)
  | copy (count distance : Nat)
  | endOfBlock
deriving DecidableEq, Repr

def readDistance (code : Code) (bits : List Bool) : Reading Nat :=
  (code.read bits .distanceCode).andThen fun symbol bits =>
  match distanceRanges[symbol]? with
  | none => .bad .distanceCode
  | some range => (readNat range.extra bits).andThen fun n bits => .done (range.least + n) bits

/-- Reads a literal, a copy with its distance, or the end of the block. -/
def readItem (literals distances : Code) (bits : List Bool) : Reading Item :=
  (literals.read bits .literalCode).andThen fun symbol bits =>
  if symbol < endOfBlock then .done (.literal (UInt8.ofNat symbol)) bits
  else if symbol = endOfBlock then .done .endOfBlock bits
  else match lengthRanges[symbol - 257]? with
    | none => .bad .literalCode
    | some range =>
      (readNat range.extra bits).andThen fun n bits =>
      (readDistance distances bits).andThen fun distance bits =>
      .done (.copy (range.least + n) distance) bits

/-- Where a stream stands between two items. -/
inductive Stage where
  | header
  | stored (left : Nat)
  | coded (literals distances : Code)
  | ended
deriving DecidableEq, Repr

/-- What has been read and not yet been put out. -/
inductive Pending where
  | nothing
  | literal (byte : UInt8)
  | copy (count distance : Nat)
deriving DecidableEq, Repr

/-- The state of a stream. -/
structure Position where
  final : Bool
  stage : Stage
  pending : Pending
deriving DecidableEq, Repr

namespace Position

def start : Position :=
  ⟨false, .header, .nothing⟩

def afterBlock (p : Position) : Position :=
  ⟨p.final, if p.final then .ended else .header, .nothing⟩

/-- Inside a block whose header has been read. -/
def inBlock (final : Bool) : Block → Position
  | .stored size => ⟨final, .stored size, .nothing⟩
  | .coded literals distances => ⟨final, .coded literals distances, .nothing⟩

def afterItem (p : Position) : Item → Position
  | .literal byte => { p with pending := .literal byte }
  | .copy count distance => { p with pending := .copy count distance }
  | .endOfBlock => p.afterBlock

/-- How many bytes are still to be put out. -/
def owed (p : Position) : Nat :=
  match p.pending with
  | .nothing => 0
  | .literal _ => 1
  | .copy count _ => count + 1

/-- One inside a stored block, where the next step may take no bits. -/
def rank (p : Position) : Nat :=
  match p.stage with
  | .stored _ => 1
  | _ => 0

end Position

inductive Halt where
  | exhausted
  | ended
  /-- The buffer is full and holds more than the limit. -/
  | full
  | failed (error : StreamError)
deriving DecidableEq, Repr

structure Run where
  halt : Halt
  position : Position
  /-- The bits that were not used. -/
  rest : List Bool
  output : Array UInt8

/-- The buffer for the output of one message. -/
structure Buffer where
  capacity : Nat
  /-- How much was in it when the present call began. -/
  began : Nat
deriving DecidableEq, Repr

/-- The buffer once it has room for one more byte, unless it is full and
already over the limit.  With a buffer that was doubled a call begins. -/
def makeRoom? (limit : Nat) (buffer : Buffer) (size : Nat) : Option Buffer :=
  if size < buffer.capacity then some buffer
  else if size > limit then none
  else some ⟨2 * buffer.capacity, size⟩

/-- How far back a copy may begin: among what the call has put out, and in the
window before that, as far as there is any. -/
def reach (window past began size : Nat) : Nat :=
  min (size - began + window) (past + size)

/-- The byte at a distance back from the end of the output, which continues
the history. -/
def byteBack? (window : Nat) (history : Array UInt8) (began : Nat) (output : Array UInt8)
    (distance : Nat) : Option UInt8 :=
  if distance > reach window history.size began output.size then none
  else if distance ≤ output.size then output[output.size - distance]?
  else history[history.size - (distance - output.size)]?

theorem readItem_leaves (literals distances : Code) (bits : List Bool) :
    (readItem literals distances bits).Leaves (bits.length - 1) := by
  refine Reading.leaves_andThen (Code.read_leaves _ _ _) fun symbol rest h => ?_
  split
  · exact Reading.leaves_done h
  · split
    · exact Reading.leaves_done h
    · split
      · exact Reading.leaves_bad
      · refine Reading.leaves_andThen (readNat_leaves _ _) fun n rest' h' => ?_
        have tail : (readDistance distances rest').Leaves rest'.length := by
          refine Reading.leaves_andThen (Code.read_leaves _ _ _) fun s r hr => ?_
          split
          · exact Reading.leaves_bad
          · exact Reading.leaves_andThen (readNat_leaves _ _) fun _ _ _ =>
              Reading.leaves_done (by omega)
        exact Reading.leaves_andThen tail fun _ _ _ => Reading.leaves_done (by omega)

theorem lt_of_readItem {literals distances : Code} {bits rest : List Bool} {item : Item}
    (h : readItem literals distances bits = .done item rest) : rest.length < bits.length := by
  have le := readItem_leaves literals distances bits item rest h
  cases bits with
  | nil => simp [readItem, Code.read, Reading.andThen] at h
  | cons b bits => simp only [List.length_cons] at le ⊢; omega

theorem lt_of_readNat {width n : Nat} {bits rest : List Bool}
    (h : readNat (width + 1) bits = .done n rest) : rest.length < bits.length := by
  have le := readNat_leaves (width + 1) bits n rest h
  cases bits with
  | nil => simp [readNat] at h
  | cons b bits => simp only [List.length_cons] at le ⊢; omega

/-- Takes a stream as far as its bits reach: puts out what is owed, then reads
the next item, byte or header. -/
def run (limit window : Nat) (history : Array UInt8) (buffer : Buffer) (position : Position)
    (bits : List Bool) (output : Array UInt8) : Run :=
  match _hp : position.pending with
  | .literal byte =>
    match makeRoom? limit buffer output.size with
    | none => ⟨.full, position, bits, output⟩
    | some buffer =>
      run limit window history buffer { position with pending := .nothing } bits (output.push byte)
  | .copy 0 _ => run limit window history buffer { position with pending := .nothing } bits output
  | .copy (count + 1) distance =>
    match makeRoom? limit buffer output.size with
    | none => ⟨.full, position, bits, output⟩
    | some buffer =>
      match byteBack? window history buffer.began output distance with
      | none => ⟨.failed .distanceTooFar, position, bits, output⟩
      | some byte =>
        run limit window history buffer { position with pending := .copy count distance } bits
          (output.push byte)
  | .nothing =>
    match _hs : position.stage with
    | .ended => ⟨.ended, position, bits, output⟩
    | .header =>
      match _h : Block.readHeader bits with
      | .short => ⟨.exhausted, position, bits, output⟩
      | .bad error => ⟨.failed error, position, bits, output⟩
      | .done (final, block) rest =>
        run limit window history buffer (Position.inBlock final block) rest output
    | .stored 0 => run limit window history buffer position.afterBlock bits output
    | .stored (left + 1) =>
      match makeRoom? limit buffer output.size with
      | none => ⟨.full, position, bits, output⟩
      | some buffer =>
        match _h : readNat 8 bits with
        | .short => ⟨.exhausted, position, bits, output⟩
        | .bad error => ⟨.failed error, position, bits, output⟩
        | .done n rest =>
          run limit window history buffer { position with stage := .stored left } rest
            (output.push (UInt8.ofNat n))
    | .coded literals distances =>
      match _h : readItem literals distances bits with
      | .short => ⟨.exhausted, position, bits, output⟩
      | .bad error => ⟨.failed error, position, bits, output⟩
      | .done item rest => run limit window history buffer (position.afterItem item) rest output
termination_by (bits.length, position.owed, position.rank)
decreasing_by
  · exact Prod.Lex.right _ (Prod.Lex.left _ _ (by simp [Position.owed, _hp]))
  · exact Prod.Lex.right _ (Prod.Lex.left _ _ (by simp [Position.owed, _hp]))
  · exact Prod.Lex.right _ (Prod.Lex.left _ _ (by simp [Position.owed, _hp]))
  · exact Prod.Lex.left _ _ (Block.lt_of_readHeader _h)
  · have ho : position.owed = 0 := by simp [Position.owed, _hp]
    have ha : position.afterBlock.owed = 0 := rfl
    rw [ho, ha]
    refine Prod.Lex.right _ (Prod.Lex.right _ ?_)
    cases hf : position.final <;> simp [Position.rank, _hs, hf, Position.afterBlock]
  · exact Prod.Lex.left _ _ (lt_of_readNat _h)
  · exact Prod.Lex.left _ _ (lt_of_readItem _h)

/-- The decompressor of one direction of a connection. -/
structure Inflater where
  /-- Whether every message stands on its own. -/
  noContext : Bool
  maxSize : Nat
  /-- How far back before a call its distances may reach. -/
  window : Nat
  /-- The last bytes of the messages so far. -/
  history : Array UInt8
  position : Position
  /-- The bits read that belong to no finished item. -/
  carry : List Bool
  /-- Whether the stream was found malformed. -/
  broken : Bool

namespace Inflater

/-- An inflater at the beginning of its stream, for a window of `2 ^ bits` bytes. -/
def new (bits : Nat) (noContext : Bool) (maxSize : Nat) : Inflater :=
  ⟨noContext, maxSize, Window.size bits, #[], .start, [], false⟩

/-- The inflater at the beginning of a new stream, whose window is the widest. -/
def reset (inflater : Inflater) : Inflater :=
  new Window.maxBits inflater.noContext inflater.maxSize

/-- The bits that a stopped run leaves for the next message: all of them if
there were too few for an item, and otherwise those of the byte that it had
begun to read. -/
def carried (run : Run) : List Bool :=
  match run.halt with
  | .exhausted => run.rest
  | _ => run.rest.take (run.rest.length % 8)

/-- The inflater after a run. -/
def after (inflater : Inflater) (run : Run) : Inflater :=
  { inflater with
    history := Window.recent inflater.window (inflater.history ++ run.output)
    position := run.position
    carry := carried run }

/-- The fault for a malformed stream, which names its error only once. -/
def failure (error : Option StreamError) : Fault :=
  let text := "Decompression failed: deflate decompression error"
  .extension (match error with
    | some error => s!"{text}: {error.message}"
    | none => text)

def runOver (inflater : Inflater) (data : Bytes) : Run :=
  run inflater.maxSize inflater.window inflater.history ⟨max (2 * data.length) 64, 0⟩
    inflater.position (inflater.carry ++ Bits.ofBytes (data ++ Window.tail)) #[]

/-- What a run over one message comes to. -/
def settle (inflater : Inflater) (run : Run) : Except Fault Bytes × Inflater :=
  match run.halt with
  | .failed error => (.error (failure (some error)), { inflater with broken := true })
  | halt =>
    let next := inflater.after run
    if run.output.size > inflater.maxSize then
      (.error (.messageTooLarge run.output.size inflater.maxSize), next)
    else
      (.ok run.output.toList,
        if halt = .ended ∨ inflater.noContext then inflater.reset else next)

/-- Decompresses one whole message. -/
def inflate (inflater : Inflater) (data : Bytes) : Except Fault Bytes × Inflater :=
  if inflater.broken then (.error (failure none), inflater)
  else inflater.settle (inflater.runOver data)

end Inflater

end DeflateTrial.Deflate
