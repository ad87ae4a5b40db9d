/-
Consent — which heads are taken for a granted connection

    HTTP/1.1 101 reason          first line: it has to begin so
    name: value                  fields, up to the first empty line
    ...

A head is taken for a granted connection just if it is a text whose first line
begins with the version and `101`, and whose fields are those of an upgrade; of
each of them the last one stands, and there may be several (`Response.Grants`).
The line and the field `Connection` are not read word by word.  So the second
word of the line begins with `101`, and some part of the field has `upgrade` in
it (`Response.parse_granted`), but neither of the two has to be that word: a
status of `1010` is taken for a grant, and so is a connection of which the only
part is `no-upgrades` (`Response.accepts_loosely`).
-/
import DeflateTrial.Proofs.Handshake.Acceptance

namespace DeflateTrial

namespace Text

variable {cs part front : List Char}

/-! ## Words -/

theorem exists_words_append (solid : front ≠ []) (free : ∀ c ∈ front, isBlank c = false)
    (behind : List Char) :
    ∃ word more, words (front ++ behind) = word :: more ∧ front <+: word := by
  have whole : behind.takeWhile (!isBlank ·) ++ behind.dropWhile (!isBlank ·) = behind :=
    List.takeWhile_append_dropWhile
  have free' : ∀ c ∈ front ++ behind.takeWhile (!isBlank ·), isBlank c = false := by
    intro c member
    rcases List.mem_append.mp member with h | h
    · exact free c h
    · simpa using List.all_eq_true.mp List.all_takeWhile c h
  have solid' : front ++ behind.takeWhile (!isBlank ·) ≠ [] := by simp [solid]
  cases rest : behind.dropWhile (!isBlank ·) with
  | nil =>
      rw [rest, List.append_nil] at whole
      rw [whole] at free' solid'
      refine ⟨front ++ behind, [], ?_, List.prefix_append ..⟩
      rw [words, List.splitOnP_eq_singleton free']
      simp [solid]
  | cons c others =>
      have blank : isBlank c = true := by
        have first := List.head?_dropWhile_not (!isBlank ·) behind
        simpa [rest] using first
      rw [← whole, rest, ← List.append_assoc, words_cons solid' free' blank]
      exact ⟨_, _, rfl, List.prefix_append ..⟩

/-! ## Parts of a list -/

theorem toLower_of_blank {c : Char} (blank : isBlank c = true) : c.toLower = c := by
  refine dif_neg ?_
  rintro ⟨low, high⟩
  have low : 65 ≤ c.toNat := low
  have high : c.toNat ≤ 90 := high
  simp only [isBlank, Bool.or_eq_true, Bool.and_eq_true, decide_eq_true_eq, beq_iff_eq] at blank
  omega

theorem solid_of_lower {word : List Char} (solid : ∀ c ∈ word, isBlank c = false ∧ c ≠ ',')
    (small : lower part = word) : ∀ c ∈ part, isBlank c = false ∧ c ≠ ',' := by
  intro c member
  have lowered : c.toLower ∈ word := small ▸ List.mem_map_of_mem member
  constructor
  · cases blank : isBlank c with
    | false => rfl
    | true =>
        rw [toLower_of_blank blank] at lowered
        exact blank ▸ (solid c lowered).1
  · rintro rfl
    exact (solid _ lowered).2 rfl

theorem eq_nil_of_prefix_cons {c : Char} (free : c ∉ part) (h : part <+: c :: cs) : part = [] := by
  cases part with
  | nil => rfl
  | cons d part =>
      obtain ⟨rfl, -⟩ := List.cons_prefix_cons.mp h
      exact absurd List.mem_cons_self free

theorem infix_or_of_comma {before after : List Char} (free : ',' ∉ part)
    (h : part <:+: before ++ ',' :: after) : part <:+: before ∨ part <:+: after := by
  rcases List.infix_append_iff.mp h with h | h | ⟨left, right, rfl, behind, front⟩
  · exact .inl h
  · rcases List.infix_cons_iff.mp h with h | h
    · rw [eq_nil_of_prefix_cons free h]
      exact .inl (List.nil_infix)
    · exact .inr h
  · have none :=
      eq_nil_of_prefix_cons (fun member => free (List.mem_append_right left member)) front
    rw [none, List.append_nil]
    exact .inl behind.isInfix

theorem infix_dropWhile_blank (solid : part ≠ []) (free : ∀ c ∈ part, isBlank c = false)
    (h : part <:+: cs) : part <:+: cs.dropWhile isBlank := by
  induction cs with
  | nil => exact h
  | cons c cs ih =>
      cases blank : isBlank c with
      | false => rwa [List.dropWhile_cons_of_neg (by simp [blank])]
      | true =>
          rw [List.dropWhile_cons_of_pos blank]
          rcases List.infix_cons_iff.mp h with h | h
          · have absent : c ∉ part := fun member => by simp [free c member] at blank
            exact absurd (eq_nil_of_prefix_cons absent h) solid
          · exact ih h

theorem infix_trim (solid : part ≠ []) (free : ∀ c ∈ part, isBlank c = false)
    (h : part <:+: cs) : part <:+: trim cs := by
  have left : part <:+: trimLeft cs := infix_dropWhile_blank solid free h
  have back : part.reverse <:+: (trimLeft cs).reverse.dropWhile isBlank :=
    infix_dropWhile_blank (by simpa using solid) (by simpa using free)
      (List.reverse_infix.mpr left)
  rw [trim, trimRight, ← List.reverse_infix, List.reverse_reverse]
  exact back

theorem exists_infix_parts (solid : part ≠ []) (free : ∀ c ∈ part, isBlank c = false ∧ c ≠ ',')
    (h : part <:+: cs) : ∃ piece ∈ parts cs, part <:+: piece := by
  have comma : ',' ∉ part := fun member => (free _ member).2 rfl
  -- part by part, from the first one
  induction n : cs.length using Nat.strongRecOn generalizing cs with
  | ind size ih =>
      by_cases several : ',' ∈ cs
      · obtain ⟨first, rest, rfl, alone⟩ := List.eq_append_cons_of_mem several
        rw [parts_append, parts_of_not_mem alone]
        rcases infix_or_of_comma comma h with h | h
        · exact ⟨_, List.mem_cons_self, infix_trim solid (fun c member => (free c member).1) h⟩
        · have shorter : rest.length < size := by
            rw [← n, List.length_append, List.length_cons]
            omega
          obtain ⟨piece, member, inside⟩ := ih _ shorter h rfl
          exact ⟨piece, List.mem_append_right _ member, inside⟩
      · rw [parts_of_not_mem several]
        exact ⟨_, List.mem_cons_self, infix_trim solid (fun c member => (free c member).1) h⟩

theorem exists_lower_parts {word : List Char} (some_ : word ≠ [])
    (solid : ∀ c ∈ word, isBlank c = false ∧ c ≠ ',') (h : word <:+: lower cs) :
    ∃ piece ∈ parts cs, word <:+: lower piece := by
  obtain ⟨part, inside, small⟩ := List.infix_map_iff.mp h
  have filled : part ≠ [] := by
    rintro rfl
    exact some_ small
  obtain ⟨piece, member, within⟩ :=
    exists_infix_parts filled (solid_of_lower solid small.symm) inside
  exact ⟨piece, member, small ▸ within.map Char.toLower⟩

end Text

namespace Handshake

namespace Fields

theorem collected_of_lenient (lines : List (List Char)) :
    ∃ fields, ofLines false lines = .ok fields ∧ Collected (inLines lines) fields := by
  rw [ofLines_eq_collect]
  rcases collect_cases false (inLines lines) with ⟨fields, read, collected, -⟩ | ⟨_, -, strict, -⟩
  · exact ⟨fields, read, collected⟩
  · cases strict

theorem checkUpgrade_of_connection {fields : Fields} {upgrade connection : String}
    (asked : fields.get? "upgrade" = some upgrade)
    (same : Text.lower upgrade.toList = "websocket".toList)
    (other : fields.get? "connection" = some connection)
    (absent : ¬ "upgrade".toList <:+: Text.lower connection.toList) :
    fields.checkUpgrade = .error (.notUpgrade "Connection" connection) := by
  have small : Text.lower "websocket".toList = "websocket".toList := by decide
  have equal : Text.sameIgnoringCase upgrade.toList "websocket".toList = true := by
    rw [Text.sameIgnoringCase, small, beq_iff_eq, same]
  have none : Text.contains "upgrade".toList (Text.lower connection.toList) = false := by
    rw [← Bool.not_eq_true, Text.contains_iff]
    exact absent
  rw [← require_eq_ok_iff "Upgrade"] at asked
  rw [← require_eq_ok_iff "Connection"] at other
  simp only [checkUpgrade, asked, equal, other, none, bind, Except.bind]
  rfl

end Fields

namespace Response

open Fields (inLines valuesOf)

variable {first : List Char} {rest : List (List Char)} {written : Fields} {response : Response}

/-- What a first line and the fields behind it say, if they are taken for a granted
connection. -/
structure Grants (first : List Char) (written : Fields) (response : Response) : Prop where
  line : granted.toList <+: first
  upgrade : ∃ value, (written.valuesOf "upgrade").getLast? = some value ∧
    Text.lower value.toList = "websocket".toList
  connection : ∃ value, (written.valuesOf "connection").getLast? = some value ∧
    "upgrade".toList <:+: Text.lower value.toList
  accept : (written.valuesOf "sec-websocket-accept").getLast? = some response.accept
  extensions : response.extensions =
    (written.valuesOf Fields.extensionsName).flatMap Fields.listOf

theorem Grants.status (grants : Grants first written response) :
    ∃ status more, Text.words first = "HTTP/1.1".toList :: status :: more ∧
      "101".toList <+: status := by
  obtain ⟨behind, rfl⟩ := grants.line
  have split : granted.toList ++ behind =
      "HTTP/1.1".toList ++ ' ' :: ("101".toList ++ behind) := rfl
  have version : "HTTP/1.1".toList ≠ [] ∧ ∀ c ∈ "HTTP/1.1".toList, Text.isBlank c = false :=
    ⟨by decide, by simp [Text.isBlank]⟩
  have code : "101".toList ≠ [] ∧ ∀ c ∈ "101".toList, Text.isBlank c = false :=
    ⟨by decide, by simp [Text.isBlank]⟩
  obtain ⟨status, more, second, begins⟩ := Text.exists_words_append code.1 code.2 behind
  rw [split, Text.words_cons version.1 version.2 (by decide), second]
  exact ⟨status, more, rfl, begins⟩

theorem Grants.upgrading (grants : Grants first written response) :
    ∃ value part, (written.valuesOf "connection").getLast? = some value ∧
      part ∈ Text.parts value.toList ∧ "upgrade".toList <:+: Text.lower part := by
  obtain ⟨value, last, asked⟩ := grants.connection
  have solid : ∀ c ∈ "upgrade".toList, Text.isBlank c = false ∧ c ≠ ',' := by
    simp [Text.isBlank]
  obtain ⟨part, member, inside⟩ := Text.exists_lower_parts (by decide) solid asked
  exact ⟨value, part, last, member, inside⟩

theorem ofLines_of_other_line (other : ¬ granted.toList <+: first) :
    ofLines (first :: rest) = .error (.status (String.ofList first)) := by
  rw [ofLines, if_pos (Text.isNone_dropStart?_iff.mpr other)]
  rfl

/-- Where the upgrade is named but the last field `Connection` does not have it, the head is
refused for that field. -/
theorem ofLines_of_other_connection {upgrade connection : String}
    (line : granted.toList <+: first)
    (asked : ((inLines rest).valuesOf "upgrade").getLast? = some upgrade)
    (same : Text.lower upgrade.toList = "websocket".toList)
    (other : ((inLines rest).valuesOf "connection").getLast? = some connection)
    (absent : ¬ "upgrade".toList <:+: Text.lower connection.toList) :
    ofLines (first :: rest) = .error (.notUpgrade "Connection" connection) := by
  obtain ⟨fields, read, collected⟩ := Fields.collected_of_lenient rest
  rw [← collected.last _ (by decide)] at asked other
  have refused := Fields.checkUpgrade_of_connection asked same other absent
  simp only [ofLines, Text.isNone_dropStart?_eq_false line, read, refused, bind, Except.bind,
    Bool.false_eq_true, if_false]

theorem exists_of_ofLines (h : ofLines (first :: rest) = .ok response) :
    ∃ fields, granted.toList <+: first ∧ Fields.ofLines false rest = .ok fields ∧
      fields.checkUpgrade = .ok () ∧
      fields.get? "sec-websocket-accept" = some response.accept ∧
      response.extensions = fields.extensions := by
  by_cases line : granted.toList <+: first
  · simp only [ofLines, Text.isNone_dropStart?_eq_false line, Bool.false_eq_true, if_false] at h
    obtain ⟨fields, read, h⟩ := exists_of_bind_ok h
    obtain ⟨⟨⟩, upgrade, h⟩ := exists_of_bind_ok h
    obtain ⟨accept, accepted, h⟩ := exists_of_bind_ok h
    cases h
    rw [Fields.require_eq_ok_iff] at accepted
    exact ⟨fields, line, read, upgrade, accepted, rfl⟩
  · rw [ofLines_of_other_line line] at h
    cases h

/-- The lines of a head make a response just if they grant the connection. -/
theorem ofLines_eq_ok_iff :
    ofLines (first :: rest) = .ok response ↔ Grants first (inLines rest) response := by
  obtain ⟨fields, read, collected⟩ := Fields.collected_of_lenient rest
  have stands (name : String) (ne : name ≠ Fields.extensionsName) :
      fields.get? name = ((inLines rest).valuesOf name).getLast? := collected.last name ne
  constructor
  · intro h
    obtain ⟨again, line, read', upgraded, accepted, listed⟩ := exists_of_ofLines h
    obtain rfl : again = fields := by
      rw [read, Except.ok.injEq] at read'
      exact read'.symm
    obtain ⟨upgrade, connection, has, upgrade', has', connection'⟩ :=
      Fields.checkUpgrade_eq_ok_iff.mp upgraded
    rw [stands _ (by decide)] at has has' accepted
    exact {
      line := line
      upgrade := ⟨upgrade, has, upgrade'⟩
      connection := ⟨connection, has', connection'⟩
      accept := accepted
      extensions := listed.trans collected.listed }
  · rintro ⟨line, ⟨upgrade, has, upgrade'⟩, ⟨connection, has', connection'⟩, accepted, listed⟩
    rw [← stands _ (by decide)] at has has' accepted
    have upgraded : fields.checkUpgrade = .ok () := Fields.checkUpgrade_eq_ok_iff.mpr
      ⟨upgrade, connection, has, upgrade', has', connection'⟩
    rw [ofLines_of_fields line read upgraded accepted, collected.listed, ← listed]

theorem parse_ofText {text : String} (split : Text.lines text.toList = first :: rest) :
    parse (Bytes.ofText text) = ofLines (first :: rest) := by
  rw [parse, Bytes.toText?_ofText, ← split]

theorem exists_of_parse {head : Bytes} (h : parse head = .ok response) :
    ∃ text first rest, head = Bytes.ofText text ∧ Text.lines text.toList = first :: rest ∧
      Grants first (inLines rest) response := by
  unfold parse at h
  split at h
  · cases h
  · rename_i text read
    cases split : Text.lines text.toList with
    | nil =>
        rw [split] at h
        cases h
    | cons first rest =>
        rw [split] at h
        exact ⟨text, first, rest, (Bytes.ofText_of_toText? read).symm, split,
          ofLines_eq_ok_iff.mp h⟩

theorem lines_of_first {first : String} {rest : List String}
    (whole : ∀ line ∈ first :: rest, '\n' ∉ line.toList) :
    Text.lines (textOf (first :: rest)).toList = first.toList :: rest.map String.toList :=
  lines_textOf whole

/-- A head is taken for a granted connection just if it is a text that grants it.  Then the
second word of its first line begins with `101`, and some part of its last field `Connection`
has `upgrade` in it.  A first line that begins otherwise is refused for the status, and a
last field `Connection` without `upgrade` for that field. -/
theorem parse_granted (head : Bytes) (response : Response) :
    (parse head = .ok response ↔ ∃ text first rest, head = Bytes.ofText text ∧
      Text.lines text.toList = first :: rest ∧ Grants first (inLines rest) response) ∧
    ∀ text first rest, head = Bytes.ofText text → Text.lines text.toList = first :: rest →
      (parse head = .ok response →
        (∃ status more, Text.words first = "HTTP/1.1".toList :: status :: more ∧
          "101".toList <+: status) ∧
        ∃ value part, ((inLines rest).valuesOf "connection").getLast? = some value ∧
          part ∈ Text.parts value.toList ∧ "upgrade".toList <:+: Text.lower part) ∧
      (¬ granted.toList <+: first → parse head = .error (.status (String.ofList first))) ∧
      ∀ upgrade connection, granted.toList <+: first →
        ((inLines rest).valuesOf "upgrade").getLast? = some upgrade →
        Text.lower upgrade.toList = "websocket".toList →
        ((inLines rest).valuesOf "connection").getLast? = some connection →
        ¬ "upgrade".toList <:+: Text.lower connection.toList →
        parse head = .error (.notUpgrade "Connection" connection) := by
  refine ⟨⟨exists_of_parse, ?_⟩, ?_⟩
  · rintro ⟨text, first, rest, rfl, split, grants⟩
    rw [parse_ofText split]
    exact ofLines_eq_ok_iff.mpr grants
  · rintro text first rest rfl split
    rw [parse_ofText split]
    refine ⟨fun taken => ?_, ofLines_of_other_line, fun upgrade connection => ?_⟩
    · have grants := ofLines_eq_ok_iff.mp taken
      exact ⟨grants.status, grants.upgrading⟩
    · exact ofLines_of_other_connection

/-- A head in which the fields `Connection` and `Sec-WebSocket-Accept` stand twice, another
one with a status of its own, and one that closes the connection. -/
theorem parse_granted_last :
    let fields := ["Upgrade: WebSocket", "Connection: close", "Sec-WebSocket-Accept: a", "no field",
      "Connection: keep-alive, UPGRADE", "Sec-WebSocket-Extensions: x; b=1, ,y",
      "Sec-WebSocket-Accept: b", "Sec-WebSocket-Extensions: z", ""]
    let closing := ["Upgrade: websocket", "Connection: close", ""]
    parse (Bytes.ofText (textOf ("HTTP/1.1 101 Switching Protocols" :: fields))) =
        .ok ⟨"b", ["x; b=1", "y", "z"]⟩ ∧
      parse (Bytes.ofText (textOf ("HTTP/1.1 404 Not Found" :: fields))) =
        .error (.status "HTTP/1.1 404 Not Found") ∧
      parse (Bytes.ofText (textOf ("HTTP/1.1 101 x" :: closing))) =
        .error (.notUpgrade "Connection" "close") := by
  intro fields closing
  have grants : Grants "HTTP/1.1 101 Switching Protocols".toList
      (inLines (fields.map String.toList)) ⟨"b", ["x; b=1", "y", "z"]⟩ :=
    { line := ⟨" Switching Protocols".toList, by decide⟩
      upgrade := ⟨"WebSocket", by decide, by decide⟩
      connection := ⟨"keep-alive, UPGRADE", by decide, Text.contains_iff.mp (by decide)⟩
      accept := by decide
      extensions := by decide }
  have taken := (parse_granted _ _).1.mpr
    ⟨_, _, _, rfl, lines_of_first (by decide), grants⟩
  obtain ⟨-, status, -⟩ := (parse_granted _ ⟨"", []⟩).2 _ _ _ rfl
    (lines_of_first (by decide : ∀ line ∈ "HTTP/1.1 404 Not Found" :: fields, '\n' ∉ line.toList))
  obtain ⟨-, -, connection⟩ := (parse_granted _ ⟨"", []⟩).2 _ _ _ rfl
    (lines_of_first (by decide : ∀ line ∈ "HTTP/1.1 101 x" :: closing, '\n' ∉ line.toList))
  refine ⟨taken, status ?_, connection "websocket" "close" ⟨" x".toList, by decide⟩ (by decide)
    (by decide) (by decide) ?_⟩
  · rw [← Text.isNone_dropStart?_iff]
    decide
  · rw [← Text.contains_iff]
    decide

/-- A status that is not `101`, and a field `Connection` of which no part is `upgrade`. -/
theorem accepts_loosely :
    let fields := ["Upgrade: websocket", "Connection: Upgrade", "Sec-WebSocket-Accept: a", ""]
    let against := ["Upgrade: websocket", "Connection: no-upgrades", "Sec-WebSocket-Accept: a", ""]
    parse (Bytes.ofText (textOf ("HTTP/1.1 1010 x" :: fields))) = .ok ⟨"a", []⟩ ∧
      Text.words "HTTP/1.1 1010 x".toList = ["HTTP/1.1".toList, "1010".toList, "x".toList] ∧
      parse (Bytes.ofText (textOf ("HTTP/1.1 101 x" :: against))) = .ok ⟨"a", []⟩ ∧
      (inLines (against.map String.toList)).valuesOf "connection" = ["no-upgrades"] ∧
      (Text.parts "no-upgrades".toList).map Text.lower = ["no-upgrades".toList] := by
  intro fields against
  have grants : Grants "HTTP/1.1 1010 x".toList (inLines (fields.map String.toList)) ⟨"a", []⟩ :=
    { line := ⟨"0 x".toList, by decide⟩
      upgrade := ⟨"websocket", by decide, by decide⟩
      connection := ⟨"Upgrade", by decide, Text.contains_iff.mp (by decide)⟩
      accept := by decide
      extensions := by decide }
  have grants' : Grants "HTTP/1.1 101 x".toList (inLines (against.map String.toList)) ⟨"a", []⟩ :=
    { line := ⟨" x".toList, by decide⟩
      upgrade := ⟨"websocket", by decide, by decide⟩
      connection := ⟨"no-upgrades", by decide, Text.contains_iff.mp (by decide)⟩
      accept := by decide
      extensions := by decide }
  refine ⟨?_, by decide, ?_, by decide, by decide⟩
  · rw [parse_ofText (lines_of_first (by decide))]
    exact ofLines_eq_ok_iff.mpr grants
  · rw [parse_ofText (lines_of_first (by decide))]
    exact ofLines_eq_ok_iff.mpr grants'

end Response

end Handshake

end DeflateTrial
