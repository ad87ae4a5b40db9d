/-
Running sessions — steps in some order, and steps until nothing moves

Any interleaving of the loops, the caller, the peer and the time is a list of
actions.  A session that is left alone settles: the reading loop takes what
has arrived and the writing loop carries out what it is told.
-/
import DeflateTrial.Session.Basic

namespace DeflateTrial.Session

inductive Action where
  | read
  /-- A turn of the writing loop; the network may have something against a write. -/
  | write (obstacle : Option String)
  | submit (message : Message)
  | requestClose
  | drop
  | next (expected : Option Event.Kind)
  | arrive (incoming : Outgoing)
  | elapse (milliseconds : Nat)
deriving DecidableEq, Repr

/-- The session after a step; a loop that has to wait stays where it is. -/
def act (s : Session) : Action → Session
  | .read => s.readStep.getD s
  | .write obstacle => (s.writeStep obstacle).getD s
  | .submit message => (s.submit message).2
  | .requestClose => s.requestClose
  | .drop => s.drop
  | .next expected => (s.next expected).2
  | .arrive incoming => s.arrive incoming
  | .elapse milliseconds => s.elapse milliseconds

/-- The session after steps in some order. -/
def acts (s : Session) (actions : List Action) : Session :=
  actions.foldl act s

/-! ## Settling -/

/-- A bound on the turns that the reading loop can take. -/
def readingWork (s : Session) : Nat :=
  match s.reading with
  | .running reader => (reader.ahead s.source).length + 4
  | .leaving parting _ => parting.length + 1
  | .over => 0

theorem reading_command (s : Session) (c : Command) : (s.command c).reading = s.reading := by
  unfold command
  split <;> rfl

theorem source_command (s : Session) (c : Command) : (s.command c).source = s.source := by
  unfold command
  split <;> rfl

theorem readingWork_takeMessage (s : Session) (message : Message) (reader : Message.Reader)
    (running : s.reading = .running reader) :
    (s.takeMessage message).readingWork ≤ (reader.ahead s.source).length + 4 := by
  cases message <;>
    simp [takeMessage, readingWork, report, leave, reading_command, source_command, running]

theorem readingWork_lt_of_readStep {s next : Session} (h : s.readStep = some next) :
    next.readingWork < s.readingWork := by
  unfold readStep at h
  split at h
  · rename_i reader running
    have before : s.readingWork = (reader.ahead s.source).length + 4 := by
      simp [readingWork, running]
    split at h
    · rename_i message reader' source' taken
      cases h
      have less := Message.Reader.ahead_lt_of_next taken
      have := readingWork_takeMessage { s with reading := .running reader', source := source' }
        message reader' rfl
      simp only at this
      omega
    · cases h
      simp [readingWork, leave, running]
    · cases h
      simp [readingWork, leave, running]
    · cases h
  · rename_i command parting last leaving
    cases h
    simp [readingWork, leaving]
  · rename_i last leaving
    cases h
    simp [readingWork, leaving]
  · cases h

/-- The reading loop goes on as long as it can. -/
def readOn (s : Session) : Session :=
  match _h : s.readStep with
  | some next => next.readOn
  | none => s
termination_by s.readingWork
decreasing_by exact readingWork_lt_of_readStep _h

/-- A bound on the turns that the writing loop can take. -/
def writingWork (s : Session) : Nat :=
  match s.writing with
  | .running => s.commands.length + 2
  | .leaving _ => 1
  | .over _ => 0

theorem writingWork_put (s : Session) (obstacle : Option String) (bytes : Bytes) :
    (s.put obstacle bytes).writingWork ≤ max 1 s.writingWork := by
  unfold put
  split
  · omega
  · split
    · exact Nat.le_max_left ..
    · exact Nat.le_max_right ..

theorem writing_finish (s : Session) (ending : Ending) :
    (s.finish ending).writing = s.writing := by
  cases ending
  · rfl
  · simp only [finish, report, cutReading]
    split <;> rfl

theorem writingWork_lt_of_writeStep {s next : Session} {obstacle : Option String}
    (h : s.writeStep obstacle = some next) : next.writingWork < s.writingWork := by
  unfold writeStep at h
  split at h
  · rename_i running
    split at h
    · rename_i command commands waiting
      cases h
      have before : s.writingWork = commands.length + 3 := by
        simp [writingWork, running, waiting]
      rw [before]
      unfold perform
      split
      · split
        · refine Nat.lt_of_le_of_lt (writingWork_put ..) ?_
          simp only [writingWork, running]
          omega
        · simp [writingWork, failWriting]
      · refine Nat.lt_of_le_of_lt (writingWork_put ..) ?_
        simp only [writingWork, running]
        omega
      · simp [writingWork]
    · rename_i waiting
      have before : s.writingWork = 2 := by simp [writingWork, running, waiting]
      split at h
      · cases h
        simp [writingWork, running]
      · split at h
        · cases h
          simp [writingWork, running]
        · cases h
  · rename_i ending leaving
    cases h
    simp [writingWork, endWriting, writing_finish, leaving]
  · cases h

/-- The writing loop goes on as long as it can. -/
def writeOn (s : Session) : Session :=
  match _h : s.writeStep none with
  | some next => next.writeOn
  | none => s
termination_by s.writingWork
decreasing_by exact writingWork_lt_of_writeStep _h

/-- Both loops have gone on as long as they can. -/
def settle (s : Session) : Session :=
  s.readOn.writeOn

end DeflateTrial.Session
