/-
Lines — how a text is made of its lines

A line feed ends a line, whatever stands around it (`lines_append`).  Where each
stands behind a carriage return, and the last one ends the text, nothing of the
text is lost: it is its lines again, each with its end (`eq_flatMap_lines`).
A line feed without a carriage return ends a line just the same, and then the
lines do not tell.
-/
import DeflateTrial.Text.Split

namespace DeflateTrial.Text

variable {cs line rest : List Char}

theorem lines_append (cs rest : List Char) :
    lines (cs ++ '\n' :: rest) = (cs.splitOn '\n').map dropReturn ++ lines rest := by
  have cut : (cs ++ '\n' :: rest).splitOn '\n' = cs.splitOn '\n' ++ rest.splitOn '\n' :=
    List.splitOnP_append_cons cs rest (beq_self_eq_true '\n')
  have filled : rest.splitOn '\n' ≠ [] := List.splitOn_ne_nil _ _
  obtain ⟨before, last, split⟩ := (List.eq_nil_or_concat (rest.splitOn '\n')).resolve_left filled
  rw [List.concat_eq_append] at split
  simp only [lines, cut, split, ← List.append_assoc, List.dropLast_concat, List.getLast?_concat,
    List.map_append]
  cases last with
  | nil => rfl
  | cons c last => exact List.append_assoc _ _ _

theorem dropReturn_append (line : List Char) : dropReturn (line ++ ['\r']) = line := by
  rw [dropReturn, List.getLast?_concat, if_pos rfl, List.dropLast_concat]

theorem lines_of_line (whole : '\n' ∉ line) (rest : List Char) :
    lines (line ++ '\n' :: rest) = dropReturn line :: lines rest := by
  rw [lines_append, List.splitOn_eq_singleton whole]
  rfl

/-- Each line feed stands behind a carriage return. -/
def Paired (cs : List Char) : Prop :=
  ∀ front back, cs = front ++ '\n' :: back → front.getLast? = some '\r'

theorem paired_nil : Paired [] := by
  intro front back split
  simp at split

theorem paired_append_iff (whole : '\n' ∉ line) :
    Paired (line ++ '\n' :: rest) ↔ line.getLast? = some '\r' ∧ Paired rest := by
  constructor
  · intro paired
    refine ⟨paired line rest rfl, fun front back split => ?_⟩
    have before := paired (line ++ '\n' :: front) back (by simp [split])
    rcases List.eq_nil_or_concat front with rfl | ⟨front, c, rfl⟩
    · simp at before
    · simpa [List.getLast?_cons] using before
  · rintro ⟨ends, paired⟩ front back split
    rcases List.append_eq_append_iff.mp split with ⟨more, rfl, rest_⟩ | ⟨more, rfl, rest_⟩
    · -- the line feed is the one behind the line, or a later one
      cases more with
      | nil => rwa [List.append_nil]
      | cons c more =>
          obtain ⟨rfl, rfl⟩ := List.cons.inj rest_
          have before := paired more back rfl
          rcases List.eq_nil_or_concat more with rfl | ⟨more, c, rfl⟩
          · cases before
          · simpa [List.getLast?_cons] using before
    · cases more with
      | nil => rwa [List.append_nil] at ends
      | cons c more =>
          obtain ⟨rfl, -⟩ := List.cons.inj rest_
          simp at whole

/-- A text whose line feeds all stand behind a carriage return, the last of them at its
end, is its lines with these ends. -/
theorem eq_flatMap_lines (paired : Paired cs) (ended : ∀ c, cs.getLast? = some c → c = '\n') :
    cs = (lines cs).flatMap (· ++ ['\r', '\n']) := by
  -- line by line, from the first one
  induction n : cs.length using Nat.strongRecOn generalizing cs with
  | ind size ih =>
      by_cases feed : '\n' ∈ cs
      · obtain ⟨line, rest, rfl, whole⟩ := List.eq_append_cons_of_mem feed
        obtain ⟨return_, paired'⟩ := (paired_append_iff whole).mp paired
        obtain ⟨line, rfl⟩ := List.getLast?_eq_some_iff.mp return_
        have shorter : rest.length < size := by
          rw [← n, List.length_append, List.length_cons]
          omega
        have ended' : ∀ c, rest.getLast? = some c → c = '\n' := fun c last =>
          ended c (by simp [List.getLast?_cons, last])
        have again := ih _ shorter paired' ended' rfl
        rw [lines_of_line whole, dropReturn_append, List.flatMap_cons, ← again,
          List.append_assoc, List.append_assoc]
        rfl
      · cases last : cs.getLast? with
        | none => rw [List.getLast?_eq_none_iff.mp last]; rfl
        | some c => exact absurd (ended c last ▸ List.mem_of_getLast? last) feed

end DeflateTrial.Text
