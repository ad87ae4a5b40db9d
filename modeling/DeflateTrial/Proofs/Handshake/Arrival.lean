/-
Arrival of a head — it is there when its last byte is

A head that is not too large, and is all that comes, is read from any pieces
as soon as the last of it has arrived (`readHead_of_whole`).  From a part of
it nothing is read, and no fault is found (`readHead_of_part`).
-/
import DeflateTrial.Proofs.Handshake.HeadSearch
import DeflateTrial.Proofs.Message.Arrival

namespace DeflateTrial.Handshake

open Source (arrived)

variable {limits : Limits} {head : Bytes}

theorem headIn_of_part (ends : headSize? head = some head.length)
    (small : head.length ≤ limits.handshakeSize) {buffer more : Bytes}
    (part : buffer ++ more = head) (missing : more ≠ []) : headIn limits 0 buffer = none := by
  have short : buffer.length < head.length := by
    have := List.length_pos_iff.mpr missing
    rw [← part, List.length_append]
    omega
  have none : headSize? buffer = none := by
    cases found : headSize? buffer with
    | none => rfl
    | some size =>
        have again := headSize?_append more found
        rw [part, ends] at again
        have := (le_of_headSize? found).2
        cases again
        omega
  rw [headIn_of_noSize none, if_neg (by omega)]

theorem readHead_of_part (ends : headSize? head = some head.length)
    (small : head.length ≤ limits.handshakeSize) {pieces : List Bytes} {more : Bytes}
    (part : pieces.flatten ++ more = head) (missing : more ≠ []) :
    ∃ buffer source, readHead limits [] (arrived pieces false) = (.waiting, buffer, source) := by
  -- with any part of it in the buffer, and any part of that searched
  suffices on : ∀ (pieces : List Bytes) (searched : Nat) (buffer : Bytes),
      headSize? (buffer.take (searched + 3)) = none → buffer ++ pieces.flatten ++ more = head →
        ∃ buffer' source, readHeadOn limits searched buffer (arrived pieces false) =
          (.waiting, buffer', source) from
    on pieces 0 [] (headSize?_take_three []) part
  intro pieces
  induction pieces with
  | nil =>
      intro searched buffer free part
      rw [List.flatten_nil, List.append_nil] at part
      rw [readHeadOn, headIn_eq free, headIn_of_part ends small part missing]
      exact ⟨_, _, rfl⟩
  | cons piece pieces ih =>
      intro searched buffer free part
      have undecided : headIn limits 0 buffer = none :=
        headIn_of_part ends small (by rw [← List.append_assoc]; exact part) (by simp [missing])
      rw [readHeadOn, headIn_eq free, undecided]
      refine ih _ (buffer ++ piece) (headSize?_take_append piece (headSize?_of_headIn undecided)) ?_
      rw [← part, List.flatten_cons, List.append_assoc buffer]

theorem readHead_of_whole (ends : headSize? head = some head.length)
    (small : head.length ≤ limits.handshakeSize) {pieces : List Bytes}
    (whole : pieces.flatten = head) :
    ∃ rest, rest.flatten = [] ∧
      readHead limits [] (arrived pieces false) = (.ready (.ok head), [], arrived rest false) := by
  suffices on : ∀ (pieces : List Bytes) (searched : Nat) (buffer : Bytes),
      headSize? (buffer.take (searched + 3)) = none → buffer ++ pieces.flatten = head →
        ∃ rest, rest.flatten = [] ∧ readHeadOn limits searched buffer (arrived pieces false) =
          (.ready (.ok head), [], arrived rest false) from
    on pieces 0 [] (headSize?_take_three []) whole
  intro pieces
  induction pieces with
  | nil =>
      intro searched buffer free whole
      rw [List.flatten_nil, List.append_nil] at whole
      rw [readHeadOn, headIn_eq free, whole, headIn_of_whole ends small]
      exact ⟨[], rfl, rfl⟩
  | cons piece pieces ih =>
      intro searched buffer free whole
      by_cases none : (piece :: pieces).flatten = []
      · rw [none, List.append_nil] at whole
        rw [readHeadOn, headIn_eq free, whole, headIn_of_whole ends small]
        exact ⟨_, none, rfl⟩
      · have undecided : headIn limits 0 buffer = .none := headIn_of_part ends small whole none
        rw [readHeadOn, headIn_eq free, undecided]
        refine ih _ (buffer ++ piece)
          (headSize?_take_append piece (headSize?_of_headIn undecided)) ?_
        rw [← whole, List.flatten_cons, List.append_assoc]

end DeflateTrial.Handshake
