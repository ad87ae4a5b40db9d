/-
The end of a head — as its bytes have it, and as its lines do

    bytes   up to the first CR LF CR LF
    lines   up to the first empty one

The bytes of a head are searched for a blank line, and later its text is cut
into lines, of which those behind the first empty one are not read.  A line
also ends at a line feed that no carriage return stands before, and so an empty
line may stand in a head before its end.  Up to there each field that may stand
only once does (`Request.once_in_head`), but what stands behind escapes: a head
is accepted that names two hosts (`Request.two_hosts`).  Where every line feed
has its carriage return, the first empty line is the last, and the head's end.
-/
import DeflateTrial.Proofs.Handshake.Acceptance
import DeflateTrial.Proofs.Handshake.HeadReading
import DeflateTrial.Proofs.Handshake.RoundTrip

namespace DeflateTrial

namespace Bytes

theorem utf8EncodeChar_of_mem {byte : UInt8} {c : Char} (ascii : byte.toNat < 128)
    (h : byte ∈ String.utf8EncodeChar c) : String.utf8EncodeChar c = [byte] := by
  have same : c.val.toNat = byte.toNat := mem_utf8EncodeChar ascii h
  simp only [String.utf8EncodeChar, same]
  rw [if_pos (by omega), UInt8.ofNat_toNat]

theorem exists_of_flatMap_concat {chars : List Char} {bytes : Bytes} {byte : UInt8}
    (ascii : byte.toNat < 128) (h : chars.flatMap String.utf8EncodeChar = bytes ++ [byte]) :
    ∃ before, chars = before ++ [Char.ofNat byte.toNat] ∧
      before.flatMap String.utf8EncodeChar = bytes := by
  rcases List.eq_nil_or_concat chars with rfl | ⟨before, c, rfl⟩
  · simp at h
  · rw [List.concat_eq_append, List.flatMap_append, List.flatMap_singleton] at h
    have member : byte ∈ String.utf8EncodeChar c := by
      have last := congrArg List.getLast? h
      rw [List.getLast?_append, List.getLast?_concat] at last
      cases form : (String.utf8EncodeChar c).getLast? with
      | none => exact absurd (List.getLast?_eq_none_iff.mp form) String.utf8EncodeChar_ne_nil
      | some b =>
          rw [form, Option.some_or, Option.some.injEq] at last
          exact last ▸ List.mem_of_getLast? form
    have same : c.toNat = byte.toNat := mem_utf8EncodeChar ascii member
    rw [utf8EncodeChar_of_mem ascii member] at h
    exact ⟨before, by rw [← same, Char.ofNat_toNat, List.concat_eq_append],
      List.append_cancel_right h⟩

theorem exists_of_ofText_blankLine {text : String} {bytes : Bytes}
    (h : ofText text = bytes ++ Handshake.blankLine) :
    ∃ before, text.toList = before ++ ['\r', '\n', '\r', '\n'] := by
  have split : text.toList.flatMap String.utf8EncodeChar =
      bytes ++ [13] ++ [10] ++ [13] ++ [10] := by
    rw [← ofText_eq_flatMap, h, Handshake.blankLine]
    simp
  -- the four of them from the last one on
  obtain ⟨fourth, last, h₄⟩ := exists_of_flatMap_concat (by decide) split
  obtain ⟨third, rfl, h₃⟩ := exists_of_flatMap_concat (by decide) h₄
  obtain ⟨second, rfl, h₂⟩ := exists_of_flatMap_concat (by decide) h₃
  obtain ⟨first, rfl, -⟩ := exists_of_flatMap_concat (by decide) h₂
  exact ⟨first, by simpa using last⟩

end Bytes

namespace Handshake

namespace Fields

/-- The fields in some lines, also behind an empty one. -/
def anywhere (lines : List (List Char)) : Fields :=
  lines.filterMap ofLine?

theorem inLines_eq_anywhere {before behind : List (List Char)} (filled : [] ∉ before) :
    inLines (before ++ [] :: behind) = anywhere before := by
  have all : ∀ line ∈ before, (!line.isEmpty) = true := by
    intro line member
    cases line with
    | nil => exact absurd member filled
    | cons => rfl
  rw [inLines, List.takeWhile_append_of_pos all, anywhere]
  simp

end Fields

theorem readHead_of_ends {limits : Limits} {head : Bytes} (ends : headSize? head = some head.length)
    (small : head.length ≤ limits.handshakeSize) :
    readHead limits [] (.ofPieces [head]) = (.ready (.ok head), [], .ofPieces []) := by
  have none : headIn limits 0 [] = none := headIn_of_noSize rfl
  rw [readHead, readHeadOn, none]
  change readHeadOn limits 0 head (.ofPieces []) = _
  rw [readHeadOn, headIn_of_whole ends small]

theorem paired_textOf {lines : List String} (whole : ∀ line ∈ lines, '\n' ∉ line.toList) :
    Text.Paired (textOf lines).toList := by
  induction lines with
  | nil => exact Text.paired_nil
  | cons line lines ih =>
      have free : '\n' ∉ line.toList ++ ['\r'] := by simp [whole line List.mem_cons_self]
      rw [toList_textOf_cons, Text.paired_append_iff free]
      exact ⟨List.getLast?_concat,
        ih fun other member => whole other (List.mem_cons_of_mem _ member)⟩

namespace Request

open Fields (anywhere inLines)

variable {text : String} {first : List Char} {before behind : List (List Char)}

/-- Where every line feed has its carriage return, an empty line behind another one is a
blank line of the bytes, so that a head ends there. -/
theorem nil_of_paired (ends : EndsAtBlankLine (Bytes.ofText text))
    (paired : Text.Paired text.toList)
    (split : Text.lines text.toList = first :: (before ++ [] :: behind)) : behind = [] := by
  obtain ⟨⟨front, whole⟩, last⟩ := ends
  obtain ⟨chars, split'⟩ := Bytes.exists_of_ofText_blankLine whole
  have ended : ∀ c, text.toList.getLast? = some c → c = '\n' := by
    intro c h
    rw [split'] at h
    simpa using h.symm
  obtain ⟨others, line, again⟩ :=
    (List.eq_nil_or_concat (first :: before)).resolve_left (List.cons_ne_nil _ _)
  have joined := Text.eq_flatMap_lines paired ended
  rw [split, ← List.cons_append, again, List.concat_eq_append] at joined
  -- the line before the empty one ends in the first half of a blank line
  have bytes : Bytes.ofText text =
      ((others.flatMap (· ++ ['\r', '\n']) ++ line).flatMap String.utf8EncodeChar) ++ blankLine ++
        (behind.flatMap (· ++ ['\r', '\n'])).flatMap String.utf8EncodeChar := by
    have blank : ['\r', '\n', '\r', '\n'].flatMap String.utf8EncodeChar = blankLine := by decide
    rw [Bytes.ofText_eq_flatMap, joined, ← blank, ← List.flatMap_append, ← List.flatMap_append]
    congr 1
    simp
  have none := last _ _ bytes
  cases behind with
  | nil => rfl
  | cons next behind => simp at none

theorem nil_mem_lines (ends : EndsAtBlankLine (Bytes.ofText text)) :
    [] ∈ Text.lines text.toList := by
  obtain ⟨⟨front, whole⟩, -⟩ := ends
  obtain ⟨chars, split⟩ := Bytes.exists_of_ofText_blankLine whole
  have cut : text.toList = (chars ++ ['\r']) ++ '\n' :: ['\r', '\n'] := by rw [split]; simp
  have last : Text.lines ['\r', '\n'] = [[]] := by decide
  rw [cut, Text.lines_append, last]
  exact List.mem_append_right _ List.mem_cons_self

/-- In a head that is read and accepted, each field that may stand only once stands once before
the first empty line; and anywhere, if each line feed stands behind a carriage return. -/
theorem once_in_head {limits : Limits} {buffer head left : Bytes} {source rest : Source}
    {request : Request} (read : readHead limits buffer source = (.ready (.ok head), left, rest))
    (accepted : parse head = .ok request) :
    ∃ text first before behind, head = Bytes.ofText text ∧
      Text.lines text.toList = first :: (before ++ [] :: behind) ∧ [] ∉ before ∧
      (∀ name ∈ Fields.singletons, ∃ value, (anywhere before).valuesOf name = [value]) ∧
      (Text.Paired text.toList → behind = [] ∧ ∀ name ∈ Fields.singletons,
        ∃ value, (anywhere (before ++ [] :: behind)).valuesOf name = [value]) := by
  have ends := endsAtBlankLine_of_headSize? (headSize?_of_readHead read)
  obtain ⟨text, first, lines, rfl, split, asks⟩ := exists_of_parse accepted
  have filled : first ≠ [] := by
    rintro rfl
    cases asks.line
  have empty : [] ∈ lines := by
    have member := nil_mem_lines ends
    rw [split] at member
    exact (List.mem_cons.mp member).resolve_left (Ne.symm filled)
  obtain ⟨before, behind, rfl, solid⟩ := List.eq_append_cons_of_mem empty
  rw [Fields.inLines_eq_anywhere solid] at asks
  refine ⟨text, first, before, behind, rfl, split, solid, fun name => asks.exists_only, ?_⟩
  intro paired
  have none := nil_of_paired ends paired split
  subst none
  have same : anywhere (before ++ [[]]) = anywhere before := by
    rw [anywhere, List.filterMap_append, anywhere]
    exact List.append_nil _
  exact ⟨rfl, fun name single => same ▸ asks.exists_only single⟩

/-- A head as it is put out, with a line that is no field and one for extensions. -/
theorem once_in_head_written :
    let lines := ["GET /md5 HTTP/1.1", "Host: a", "Upgrade: websocket", "no field",
      "Connection: Upgrade", "Sec-WebSocket-Key: k", "Sec-WebSocket-Version: 13",
      "Sec-WebSocket-Extensions: x"]
    let text := textOf (lines ++ [""])
    let head := Bytes.ofText text
    readHead {} [] (.ofPieces [head]) = (.ready (.ok head), [], .ofPieces []) ∧
      parse head = .ok ⟨"/md5", "a", "k", 13, ["x"]⟩ ∧ Text.Paired text.toList ∧
      ∃ first before, Text.lines text.toList = first :: (before ++ [[]]) ∧
        ∀ name ∈ Fields.singletons,
          ∃ value, (anywhere (before ++ [[]])).valuesOf name = [value] := by
  intro lines text head
  have whole : ∀ line ∈ lines ++ [""], '\n' ∉ line.toList := by decide
  have split : Text.lines text.toList = (lines ++ [""]).map String.toList := lines_textOf whole
  have asks : Asks "GET /md5 HTTP/1.1".toList (inLines ((lines.tail ++ [""]).map String.toList))
      ⟨"/md5", "a", "k", 13, ["x"]⟩ :=
    { line := by decide
      host := by decide
      upgrade := ⟨"websocket", by decide, by decide⟩
      connection := ⟨"Upgrade", by decide, Text.contains_iff.mp (by decide)⟩
      key := by decide
      version := ⟨"13", by decide, Text.Decimal.readBelow?_eq_some_iff.mp (by decide)⟩
      extensions := by decide }
  have read : readHead {} [] (.ofPieces [head]) = _ :=
    readHead_of_ends (by decide +kernel) (by decide +kernel)
  have accepted := (parse_ofText split).mpr asks
  have paired : Text.Paired text.toList := paired_textOf whole
  obtain ⟨text', first, before, behind, same, split', -, -, anywhere_⟩ := once_in_head read accepted
  have same : text' = text := by
    have read := congrArg Bytes.toText? same
    rw [Bytes.toText?_ofText, Bytes.toText?_ofText] at read
    exact (Option.some.inj read).symm
  subst same
  obtain ⟨rfl, once⟩ := anywhere_ paired
  exact ⟨read, accepted, paired, first, before, split', once⟩

/-- Two hosts, the other one behind an empty line that ends in a line feed only. -/
theorem two_hosts :
    let first := "GET / HTTP/1.1"
    let before := ["Host: a", "Upgrade: websocket", "Connection: Upgrade", "Sec-WebSocket-Key: k",
      "Sec-WebSocket-Version: 13"]
    let behind := ["", "Host: b", ""]
    let text := "\n".intercalate (first :: before ++ ["", "Host: b"]) ++ "\r\n\r\n"
    let head := Bytes.ofText text
    readHead {} [] (.ofPieces [head]) = (.ready (.ok head), [], .ofPieces []) ∧
      parse head = .ok ⟨"/", "a", "k", 13, []⟩ ∧
      Text.lines text.toList = (first :: before ++ behind).map String.toList ∧
      (anywhere ((before ++ behind).map String.toList)).valuesOf "host" = ["a", "b"] := by
  intro first before behind text head
  have ends : headSize? head = some head.length := by decide +kernel
  have split : Text.lines text.toList = (first :: before ++ behind).map String.toList := by
    decide +kernel
  have asks : Asks first.toList (inLines ((before ++ behind).map String.toList))
      ⟨"/", "a", "k", 13, []⟩ :=
    { line := by decide
      host := by decide
      upgrade := ⟨"websocket", by decide, by decide⟩
      connection := ⟨"Upgrade", by decide, Text.contains_iff.mp (by decide)⟩
      key := by decide
      version := ⟨"13", by decide, Text.Decimal.readBelow?_eq_some_iff.mp (by decide)⟩
      extensions := by decide }
  exact ⟨readHead_of_ends ends (by decide +kernel), (parse_ofText split).mpr asks, split, by decide⟩

end Request

end Handshake

end DeflateTrial
