/-
Arrival — a message is there when its last byte is

While a stream goes on, a reader that finds no message in what has arrived
waits, and looks again at the same bytes when more have come.  So it matters
that a look at some pieces either decides for good, whatever comes later, or
finds nothing at all (`next_arrived`).  Of bytes that bring a message
(`Brings`) that makes two facts: all of them bring it, however they are cut
(`next_of_whole`), and a part of them brings nothing (`next_of_part`).
-/
import DeflateTrial.Proofs.Message.Transport

namespace DeflateTrial

namespace Source

/-- What has arrived, in pieces; more may come unless the stream has ended. -/
def arrived (pieces : List Bytes) (ended : Bool) : Source :=
  ⟨pieces.map .bytes, ended⟩

theorem ofPieces_eq (pieces : List Bytes) : ofPieces pieces = arrived pieces true := rfl

theorem arrived_inj {pieces pieces' : List Bytes} {ended : Bool}
    (h : arrived pieces ended = arrived pieces' ended) : pieces = pieces' := by
  injection h with same
  exact (List.map_inj_right fun _ _ => Delivery.bytes.inj).mp same

theorem push_arrived (pieces : List Bytes) (ended : Bool) (bytes : Bytes) :
    (arrived pieces ended).push bytes = arrived (pieces ++ [bytes]) ended := by
  simp [arrived, push]

end Source

open Source (arrived)

namespace Frame.Reader

/-- A look at some pieces is decided by them, whatever comes later. -/
def Decided (reader : Reader) (pieces : List Bytes) (outcome : Outcome) (reader' : Reader)
    (rest : List Bytes) : Prop :=
  ∀ later ended, reader.next (arrived (pieces ++ later) ended) =
    (outcome, reader', arrived (rest ++ later) ended)

theorem decided_of_scan {reader : Reader} (h : reader.scan ≠ .more) (pieces : List Bytes) :
    ∃ outcome reader', reader.Decided pieces outcome reader' pieces := by
  cases scanned : reader.scan with
  | frame frame rest => exact ⟨_, _, fun _ _ => next_of_scan_frame scanned⟩
  | fault fault => exact ⟨_, _, fun _ _ => next_of_scan_fault scanned⟩
  | spent fault rest => exact ⟨_, _, fun _ _ => next_of_scan_spent scanned⟩
  | more => exact absurd scanned h

theorem next_of_scan_more {reader : Reader} (h : reader.scan = .more) (piece : Bytes)
    (pieces : List Bytes) (ended : Bool) :
    reader.next (arrived (piece :: pieces) ended) =
      (reader.fed piece).next (arrived pieces ended) := by
  rw [next, h]
  rfl

theorem next_arrived (reader : Reader) (pieces : List Bytes) :
    (∃ outcome reader' rest, reader.Decided pieces outcome reader' rest) ∨
      (∃ reader', reader.next (arrived pieces false) = (.waiting, reader', arrived [] false)) ∧
        ∀ frame reader' source,
          reader.next (arrived pieces true) ≠ (.frame frame, reader', source) := by
  induction pieces generalizing reader with
  | nil =>
      by_cases scanned : reader.scan = .more
      · refine .inr ⟨⟨reader, ?_⟩, fun frame reader' source found => ?_⟩
        · rw [next, scanned]
          rfl
        · rw [← Source.ofPieces_eq, next_of_scan_more_nil scanned] at found
          split at found <;> cases found
      · obtain ⟨outcome, reader', decided⟩ := decided_of_scan scanned []
        exact .inl ⟨outcome, reader', [], decided⟩
  | cons piece pieces ih =>
      by_cases scanned : reader.scan = .more
      · obtain ⟨outcome, reader', rest, decided⟩ | ⟨⟨reader', waits⟩, bare⟩ := ih (reader.fed piece)
        · refine .inl ⟨outcome, reader', rest, fun later ended => ?_⟩
          rw [List.cons_append, next_of_scan_more scanned]
          exact decided later ended
        · refine .inr ⟨⟨reader', ?_⟩, fun frame reader'' source found => ?_⟩
          · rw [next_of_scan_more scanned, waits]
          · rw [next_of_scan_more scanned] at found
            exact bare frame reader'' source found
      · obtain ⟨outcome, reader', decided⟩ := decided_of_scan scanned (piece :: pieces)
        exact .inl ⟨outcome, reader', piece :: pieces, decided⟩

end Frame.Reader

namespace Message.Reader

/-- A look at some pieces is decided by them, whatever comes later. -/
def Decided (reader : Reader) (pieces : List Bytes) (outcome : Outcome) (reader' : Reader)
    (rest : List Bytes) : Prop :=
  ∀ later ended, reader.next (arrived (pieces ++ later) ended) =
    (outcome, reader', arrived (rest ++ later) ended)

theorem next_arrived (reader : Reader) (pieces : List Bytes) :
    (∃ outcome reader' rest, reader.Decided pieces outcome reader' rest) ∨
      (∃ reader', reader.next (arrived pieces false) = (.waiting, reader', arrived [] false)) ∧
        ∀ message reader' source,
          reader.next (arrived pieces true) ≠ (.message message, reader', source) := by
  -- on the bytes ahead: a frame that completes no message leads to the next one
  induction hn : (reader.ahead (.ofPieces pieces)).length using Nat.strongRecOn
    generalizing reader pieces with
  | ind n ih =>
      subst hn
      obtain ⟨outcome, frames, rest, decided⟩ | ⟨⟨frames, waits⟩, bare⟩ :=
        reader.frames.next_arrived pieces
      · cases outcome with
        | frame frame =>
            have taken (later : List Bytes) (ended : Bool) := next_of_frame (decided later ended)
            rcases accepted : reader.assembler.accept frame with ⟨result, assembler⟩
            rw [accepted] at taken
            match result with
            | .ok (some message) => exact .inl ⟨_, ⟨frames, assembler⟩, rest, taken⟩
            | .error fault => exact .inl ⟨_, ⟨frames, assembler⟩, rest, taken⟩
            | .ok none =>
                have now (ended : Bool) : reader.next (arrived pieces ended) =
                    next ⟨frames, assembler⟩ (arrived rest ended) := by
                  have at_once := taken [] ended
                  rw [List.append_nil, List.append_nil] at at_once
                  exact at_once
                have less : (ahead ⟨frames, assembler⟩ (.ofPieces rest)).length <
                    (reader.ahead (.ofPieces pieces)).length := by
                  have found := decided [] true
                  rw [List.append_nil, List.append_nil] at found
                  exact Frame.Reader.ahead_lt_of_next found
                obtain ⟨outcome, reader', unread, later⟩ | ⟨⟨reader', waits⟩, bare⟩ :=
                  ih _ less ⟨frames, assembler⟩ rest rfl
                · exact .inl ⟨outcome, reader', unread, fun more ended =>
                    (taken more ended).trans (later more ended)⟩
                · refine .inr ⟨⟨reader', (now false).trans waits⟩,
                    fun message reader'' source => ?_⟩
                  rw [now]
                  exact bare message reader'' source
        | fault fault =>
            exact .inl ⟨_, _, rest, fun later ended => next_of_fault (decided later ended)⟩
        | ended => exact .inl ⟨_, _, rest, fun later ended => next_of_ended (decided later ended)⟩
        | waiting =>
            exact .inl ⟨_, _, rest, fun later ended => next_of_waiting (decided later ended)⟩
      · refine .inr ⟨⟨_, next_of_waiting waits⟩, fun message reader' source found => ?_⟩
        rcases seen : reader.frames.next (arrived pieces true) with ⟨outcome, frames', source'⟩
        cases outcome with
        | frame frame => exact bare frame frames' source' seen
        | fault fault => exact nomatch (next_of_fault seen).symm.trans found
        | ended => exact nomatch (next_of_ended seen).symm.trans found
        | waiting => exact nomatch (next_of_waiting seen).symm.trans found

/-! ## Bytes that bring a message -/

/-- Bytes from which a reader gets one message, with nothing left over. -/
structure Brings (reader : Reader) (bytes : Bytes) (message : Message) (reader' : Reader) :
    Prop where
  reads : ∀ rest, (reader.fed (bytes ++ rest)).next (.ofPieces []) =
    (.message message, reader'.fed rest, .ofPieces [])
  buffer : reader'.frames.buffer = []

section
variable {reader reader' : Reader} {bytes : Bytes} {message : Message} {pieces : List Bytes}

theorem fed_nil (reader : Reader) : reader.fed [] = reader := by
  rw [fed, Frame.Reader.fed_nil]

theorem eq_of_fed (empty : reader'.frames.buffer = []) (h : reader.fed bytes = reader') :
    bytes = [] ∧ reader = reader' := by
  rw [← h] at empty
  have none : bytes = [] := (List.append_eq_nil_iff.mp empty).2
  rw [none, fed_nil] at h
  exact ⟨none, h⟩

theorem eq_of_decided (brings : reader.Brings bytes message reader')
    (whole : pieces.flatten = bytes)
    {outcome : Outcome} {reader'' : Reader} {rest : List Bytes}
    (read : reader.next (.ofPieces pieces) = (outcome, reader'', .ofPieces rest)) :
    outcome = .message message ∧ reader'' = reader' ∧ rest.flatten = [] := by
  obtain ⟨outcome', reader₁, rest', read', found⟩ := reader.next_ofPieces pieces
  rw [read] at read'
  injection read' with sameOutcome sameRest
  injection sameRest with sameReader sameSource
  cases Source.arrived_inj sameSource
  have all := brings.reads []
  rw [List.append_nil, ← whole, found, fed_nil] at all
  injection all with isMessage left
  injection left with left
  obtain ⟨none, same⟩ := eq_of_fed brings.buffer left
  exact ⟨sameOutcome.trans isMessage, sameReader.trans same, none⟩

/-- All the bytes bring the message, however they are cut. -/
theorem next_of_whole (brings : reader.Brings bytes message reader')
    (whole : pieces.flatten = bytes) :
    ∃ rest, rest.flatten = [] ∧
      reader.next (arrived pieces false) = (.message message, reader', arrived rest false) := by
  obtain ⟨outcome, reader'', rest, decided⟩ | ⟨-, bare⟩ := reader.next_arrived pieces
  · have ended := decided [] true
    have goesOn := decided [] false
    rw [List.append_nil, List.append_nil] at ended goesOn
    obtain ⟨rfl, rfl, none⟩ := eq_of_decided brings whole ended
    exact ⟨rest, none, goesOn⟩
  · obtain ⟨outcome, reader'', rest, read, -⟩ := reader.next_ofPieces pieces
    obtain ⟨rfl, -, -⟩ := eq_of_decided brings whole read
    exact absurd read (bare message reader'' _)

theorem next_of_part (brings : reader.Brings bytes message reader') {more : Bytes}
    (part : pieces.flatten ++ more = bytes) (missing : more ≠ []) :
    ∃ reader'' source, reader.next (arrived pieces false) = (.waiting, reader'', source) := by
  obtain ⟨outcome, reader'', rest, decided⟩ | ⟨⟨reader'', waits⟩, -⟩ := reader.next_arrived pieces
  · -- what the pieces decide would leave the missing bytes over
    have whole : (pieces ++ [more]).flatten = bytes := by
      rw [List.flatten_append, List.flatten_singleton, part]
    obtain ⟨-, -, none⟩ := eq_of_decided brings whole (decided [more] true)
    rw [List.flatten_append, List.flatten_singleton, List.append_eq_nil_iff] at none
    exact absurd none.2 missing
  · exact ⟨reader'', _, waits⟩

end

end Message.Reader

end DeflateTrial
