/-
Later — what was read stays read, whatever arrives afterwards

A network brings a stream bit by bit, and an end reads when it gets to it.  A
read that found something finds the same when more has arrived behind it
(`Outgoing.read_arriveAll`).  So an attempt that brought a head, a frame or a
message brings it also from a stream of which more is there, and what it left
unread is then left with the rest behind it (`readHead_arriveAll`,
`Reader.next_arriveAll`).  The same holds of a fault and of an end, as long as
the far side has not ended its direction: after that nothing arrives
(`Outgoing.InTime`).

Hence a reader that takes its messages while the stream still arrives takes
those that it would take from all of it at once (`readAll_arriveAll`).
-/
import DeflateTrial.Outgoing
import DeflateTrial.Proofs.Reception

namespace DeflateTrial

namespace Outgoing

theorem read_arriveAll {source rest : Source} {r : Read} (h : source.read = (r, rest))
    (found : r ≠ .endOfStream ∧ r ≠ .waiting) (later : List Outgoing) :
    (arriveAll source later).read = (r, arriveAll rest later) := by
  induction later generalizing source rest with
  | nil => exact h
  | cons incoming later ih =>
      refine ih ?_
      obtain ⟨pending, ended⟩ := source
      match pending with
      | [] =>
          cases ended <;> cases h
          · exact absurd rfl found.2
          · exact absurd rfl found.1
      | .bytes these :: pending => cases h; cases incoming <;> rfl
      | .failure what :: pending => cases h; cases incoming <;> rfl

/-- Things arrive one after the other, and nothing behind the end of the stream. -/
def InTime : Source → List Outgoing → Prop
  | _, [] => True
  | source, incoming :: later => source.ended = false ∧ InTime (incoming.arrive source) later

theorem InTime.congr {source rest : Source} {later : List Outgoing} (inTime : InTime source later)
    (same : rest.ended = source.ended) : InTime rest later := by
  induction later generalizing source rest with
  | nil => trivial
  | cons incoming later ih =>
      refine ⟨same.trans inTime.1, ih inTime.2 ?_⟩
      cases incoming
      · exact same
      · rfl

end Outgoing

theorem Handshake.readHeadOn_arriveAll {limits : Limits} {searched : Nat}
    {buffer left : Bytes} {source rest : Source} {result : Except Fault Bytes}
    (h : readHeadOn limits searched buffer source = (.ready result, left, rest))
    (stays : (∃ head, result = .ok head) ∨ source.ended = false) (later : List Outgoing) :
    readHeadOn limits searched buffer (Outgoing.arriveAll source later) =
      (.ready result, left, Outgoing.arriveAll rest later) := by
  fun_induction readHeadOn limits searched buffer source with
  | case1 searched buffer source head rest found =>
      cases h
      rw [readHeadOn, found]
  | case2 searched buffer source fault found =>
      cases h
      rw [readHeadOn, found]
  | case3 searched buffer source none bytes source' read ih =>
      have again := Outgoing.read_arriveAll read (by simp) later
      have rest := ih h (stays.imp_right (Source.ended_of_read read).trans)
      rw [readHeadOn, none]
      simp only
      split <;> rename_i found <;> rw [again] at found <;> cases found
      exact rest
  | case4 searched buffer source none what source' read =>
      have again := Outgoing.read_arriveAll read (by simp) later
      cases h
      rw [readHeadOn, none]
      simp only
      split <;> rename_i found <;> rw [again] at found <;> cases found
      rfl
  | case5 searched buffer source none source' read =>
      cases h
      rcases stays with ⟨head, is⟩ | live
      · cases is
      · rw [Source.ended_of_endOfStream read] at live
        cases live
  | case6 => cases h

theorem Handshake.readHead_arriveAll {limits : Limits} {buffer left : Bytes}
    {source rest : Source} {result : Except Fault Bytes}
    (h : readHead limits buffer source = (.ready result, left, rest))
    (stays : (∃ head, result = .ok head) ∨ source.ended = false) (later : List Outgoing) :
    readHead limits buffer (Outgoing.arriveAll source later) =
      (.ready result, left, Outgoing.arriveAll rest later) :=
  readHeadOn_arriveAll h stays later

theorem Handshake.ended_of_readHead {limits : Limits} {buffer left : Bytes}
    {source rest : Source} {result : Polled (Except Fault Bytes)}
    (h : readHead limits buffer source = (result, left, rest)) : rest.ended = source.ended := by
  unfold readHead at h
  generalize 0 = searched at h
  fun_induction readHeadOn limits searched buffer source with
  | case1 => cases h; rfl
  | case2 => cases h; rfl
  | case3 searched buffer source none bytes source' read ih =>
      exact (ih h).trans (Source.ended_of_read read)
  | case4 searched buffer source none what source' read =>
      cases h
      exact Source.ended_of_read read
  | case5 searched buffer source none source' read =>
      cases h
      exact Source.ended_of_read read
  | case6 searched buffer source none source' read =>
      cases h
      exact Source.ended_of_read read

open Outgoing (arriveAll read_arriveAll)
open Source (ended_of_read ended_of_endOfStream)

namespace Frame.Reader

/-- An outcome that stays, whatever arrives later: a frame, or anything else
that is found before the far side has ended its direction. -/
def Stays (source : Source) (outcome : Outcome) : Prop :=
  (∃ frame, outcome = .frame frame) ∨ source.ended = false ∧ outcome ≠ .waiting

theorem next_of_scan {reader : Reader} (h : reader.scan ≠ .more) :
    ∃ outcome reader', ∀ source, reader.next source = (outcome, reader', source) := by
  cases scanned : reader.scan with
  | frame frame rest => exact ⟨_, _, fun _ => next_of_scan_frame scanned⟩
  | fault fault => exact ⟨_, _, fun _ => next_of_scan_fault scanned⟩
  | spent fault rest => exact ⟨_, _, fun _ => next_of_scan_spent scanned⟩
  | more => exact absurd scanned h

theorem next_of_read {reader : Reader} (h : reader.scan = .more) {source : Source} :
    reader.next source =
      match source.read with
      | (.bytes bytes, source) => (reader.fed bytes).next source
      | (.failure what, source) => (.fault (.io what), reader, source)
      | (.endOfStream, source) =>
        (if reader.buffer.isEmpty then .ended else .fault reader.cutShort, reader, source)
      | (.waiting, source) => (.waiting, reader, source) := by
  rw [next, h]
  simp only
  split
  all_goals
    rename_i read
    simp only [read, Reader.fed]

/-- What an attempt brings, it brings whatever arrives later. -/
theorem next_arriveAll {reader reader' : Reader} {source source' : Source} {outcome : Outcome}
    (h : reader.next source = (outcome, reader', source')) (stays : Stays source outcome)
    (later : List Outgoing) :
    reader.next (arriveAll source later) = (outcome, reader', arriveAll source' later) := by
  -- by the reads that are still to come
  induction hn : source.pending.length using Nat.strongRecOn generalizing reader source with
  | ind n ih =>
      subst hn
      by_cases scanned : reader.scan = .more
      · rw [next_of_read scanned] at h ⊢
        rcases read : source.read with ⟨r, rest⟩
        rw [read] at h
        have same : rest.ended = source.ended := ended_of_read read
        cases r with
        | bytes bytes =>
            rw [read_arriveAll read (by simp) later]
            refine ih _ (Source.pending_read_lt read (by simp)) h ?_ rfl
            exact stays.imp id fun live => ⟨same.trans live.1, live.2⟩
        | failure what =>
            rw [read_arriveAll read (by simp) later]
            cases h
            rfl
        | endOfStream =>
            -- a frame was not found, and the far side has ended its direction
            rcases stays with ⟨frame, rfl⟩ | ⟨live, -⟩
            · simp only at h
              split at h <;> cases h
            · rw [ended_of_endOfStream read] at live
              cases live
        | waiting =>
            cases h
            rcases stays with ⟨frame, is⟩ | ⟨-, is⟩
            · cases is
            · exact absurd rfl is
      · obtain ⟨found, after, always⟩ := next_of_scan scanned
        rw [always] at h ⊢
        cases h
        rfl

theorem ended_of_next {reader reader' : Reader} {source source' : Source} {outcome : Outcome}
    (h : reader.next source = (outcome, reader', source')) : source'.ended = source.ended := by
  induction hn : source.pending.length using Nat.strongRecOn generalizing reader source with
  | ind n ih =>
      subst hn
      by_cases scanned : reader.scan = .more
      · rw [next_of_read scanned] at h
        rcases read : source.read with ⟨r, rest⟩
        rw [read] at h
        have same : rest.ended = source.ended := ended_of_read read
        cases r with
        | bytes bytes =>
            exact (ih _ (Source.pending_read_lt read (by simp)) h rfl).trans same
        | failure what => cases h; exact same
        | endOfStream => cases h; exact same
        | waiting => cases h; exact same
      · obtain ⟨found, after, always⟩ := next_of_scan scanned
        rw [always] at h
        cases h
        rfl

end Frame.Reader

namespace Message.Reader

/-- An outcome that stays, whatever arrives later. -/
def Stays (source : Source) (outcome : Outcome) : Prop :=
  (∃ message, outcome = .message message) ∨ source.ended = false ∧ outcome ≠ .waiting

theorem ended_of_next {reader reader' : Reader} {source source' : Source} {outcome : Outcome}
    (h : reader.next source = (outcome, reader', source')) : source'.ended = source.ended := by
  fun_induction next reader source with
  | case2 reader source frame frames rest taken assembler accepted ih =>
      exact (ih h).trans (Frame.Reader.ended_of_next taken)
  | case1 reader source frame frames rest taken =>
      cases h
      exact Frame.Reader.ended_of_next taken
  | case3 reader source frame frames rest taken =>
      cases h
      exact Frame.Reader.ended_of_next taken
  | case4 reader source fault frames rest taken =>
      cases h
      exact Frame.Reader.ended_of_next taken
  | case5 reader source frames rest taken =>
      cases h
      exact Frame.Reader.ended_of_next taken
  | case6 reader source frames rest taken =>
      cases h
      exact Frame.Reader.ended_of_next taken

theorem next_arriveAll {reader reader' : Reader} {source source' : Source} {outcome : Outcome}
    (h : reader.next source = (outcome, reader', source')) (stays : Stays source outcome)
    (later : List Outgoing) :
    reader.next (arriveAll source later) = (outcome, reader', arriveAll source' later) := by
  -- on the bytes ahead: a frame that completes no message leads to the next one
  induction hn : (reader.ahead source).length using Nat.strongRecOn generalizing reader source with
  | ind n ih =>
      subst hn
      rcases taken : reader.frames.next source with ⟨found, frames, rest⟩
      have same : rest.ended = source.ended := Frame.Reader.ended_of_next taken
      -- no message comes of anything but a frame
      have live (other : ∀ message, outcome ≠ .message message) : source.ended = false :=
        (stays.resolve_left fun ⟨message, is⟩ => other message is).1
      cases found with
      | frame frame =>
          have again := Frame.Reader.next_arriveAll taken (.inl ⟨frame, rfl⟩) later
          rw [next_of_frame taken] at h
          rw [next_of_frame again]
          rcases accepted : reader.assembler.accept frame with ⟨_ | _ | message, assembler⟩
          · rw [accepted] at h
            cases h
            rfl
          · rw [accepted] at h
            refine ih _ (Frame.Reader.ahead_lt_of_next taken) h ?_ rfl
            exact stays.imp id fun live => ⟨same.trans live.1, live.2⟩
          · rw [accepted] at h
            cases h
            rfl
      | fault fault =>
          rw [next_of_fault taken] at h
          cases h
          exact next_of_fault (Frame.Reader.next_arriveAll taken
            (.inr ⟨live nofun, nofun⟩) later)
      | ended =>
          rw [next_of_ended taken] at h
          cases h
          exact next_of_ended (Frame.Reader.next_arriveAll taken (.inr ⟨live nofun, nofun⟩) later)
      | waiting =>
          rw [next_of_waiting taken] at h
          cases h
          rcases stays with ⟨message, is⟩ | ⟨-, is⟩
          · cases is
          · exact absurd rfl is

/-- A message that was taken is the first of all that the stream brings. -/
theorem readAll_arriveAll {reader reader' : Reader} {source source' : Source} {message : Message}
    (h : reader.next source = (.message message, reader', source')) (later : List Outgoing) :
    reader.readAll (arriveAll source later) =
      (message :: (reader'.readAll (arriveAll source' later)).1,
        (reader'.readAll (arriveAll source' later)).2) :=
  readAll_of_message (next_arriveAll h (.inl ⟨message, rfl⟩) later)

end Message.Reader

end DeflateTrial
