/-
Injection — what the values of a request can put into its head

    GET path HTTP/1.1
    Host: host
    Upgrade: websocket
    Connection: Upgrade
    Sec-WebSocket-Key: key
    Sec-WebSocket-Version: 13
    Sec-WebSocket-Extensions: extensions

Four texts go into these lines, and a line end in one of them would be a line
end of the head.  For the host and the extensions it is refused, and in the
path it is white space and refused as such; all ways in which writing ends are
in `ClientRequest.write_cases`.  The key is written as it is.  So a request that
is written splits into its lines just if the key has no line end, and otherwise
the key brings lines of its own (`ClientRequest.write_split`): a key of two lines
puts a field into the head that is not the request's (`ClientRequest.injects`).
-/
import DeflateTrial.Proofs.Handshake.Exchange

namespace DeflateTrial

namespace Bytes

theorem unbroken_iff {text : String} :
    Text.Unbroken text ↔ 13 ∉ ofText text ∧ 10 ∉ ofText text := by
  have byte {c : Char} {b : UInt8} (form : String.utf8EncodeChar c = [b])
      (member : c ∈ text.toList) : b ∈ ofText text := by
    rw [ofText_eq_flatMap, List.mem_flatMap]
    exact ⟨c, member, by rw [form]; exact List.mem_cons_self⟩
  constructor
  · rintro ⟨return_, feed⟩
    exact ⟨fun member => return_ (mem_ofText (by decide) member),
      fun member => feed (mem_ofText (by decide) member)⟩
  · rintro ⟨return_, feed⟩
    exact ⟨fun member => return_ (byte rfl member), fun member => feed (byte rfl member)⟩

theorem ofText_injective {a b : String} (same : ofText a = ofText b) : a = b := by
  have read := toText?_ofText a
  rw [same, toText?_ofText, Option.some.injEq] at read
  exact read.symm

end Bytes

namespace Handshake

open Text (Unbroken)

/-! ## Splitting at line ends -/

/-- The bytes are the lines, each with a carriage return and a line feed behind it, and
have no other carriage return or line feed. -/
structure SplitsInto (bytes : Bytes) (lines : List String) : Prop where
  whole : bytes = lines.flatMap (Bytes.ofText · ++ [13, 10])
  clean : ∀ line ∈ lines, 13 ∉ Bytes.ofText line ∧ 10 ∉ Bytes.ofText line

theorem splitsInto_textOf {lines : List String} (whole : ∀ line ∈ lines, Unbroken line) :
    SplitsInto (Bytes.ofText (textOf lines)) lines :=
  ⟨ofText_textOf lines, fun line member => Bytes.unbroken_iff.mp (whole line member)⟩

/-- Bytes split into lines in one way at most. -/
theorem SplitsInto.unique {bytes : Bytes} {lines others : List String}
    (h : SplitsInto bytes lines) (h' : SplitsInto bytes others) : lines = others := by
  have cut {lines : List String} (h : SplitsInto bytes lines) :
      Text.lines (textOf lines).toList = lines.map String.toList :=
    lines_textOf fun line member => (Bytes.unbroken_iff.mpr (h.clean line member)).2
  have text : textOf lines = textOf others := by
    apply Bytes.ofText_injective
    rw [ofText_textOf, ofText_textOf, ← h.whole, ← h'.whole]
  have same := cut h
  rw [text, cut h'] at same
  exact ((List.map_inj_right fun _ _ => String.toList_inj.mp).mp same).symm

theorem splitsInto_iff {lines : List String} (whole : ∀ line ∈ lines, Unbroken line)
    (others : List String) :
    SplitsInto (Bytes.ofText (textOf lines)) others ↔ others = lines := by
  constructor
  · intro splits
    exact splits.unique (splitsInto_textOf whole)
  · rintro rfl
    exact splitsInto_textOf whole

/-! ## A value of several lines -/

/-- Texts with line ends between them. -/
def joined (first : String) : (more : List String) → String
  | [] => first
  | next :: more => first ++ lineEnd ++ joined next more

theorem textOf_append (lines others : List String) :
    textOf (lines ++ others) = textOf lines ++ textOf others := by
  apply String.toList_inj.mp
  rw [String.toList_append, toList_textOf, toList_textOf, toList_textOf, List.flatMap_append]

theorem textOf_joined (front first : String) (more behind : List String) :
    textOf ((front ++ joined first more) :: behind) =
      textOf ((front ++ first) :: (more ++ behind)) := by
  induction more generalizing front first with
  | nil => rfl
  | cons next more ih =>
      have onwards := ih "" next
      rw [String.empty_append, String.empty_append] at onwards
      have line : front ++ joined first (next :: more) =
          front ++ first ++ lineEnd ++ joined next more := by
        rw [joined, ← String.append_assoc, ← String.append_assoc]
      have begun : textOf ((front ++ first ++ lineEnd ++ joined next more) :: behind) =
          front ++ first ++ lineEnd ++ textOf (joined next more :: behind) := by
        simp only [textOf, String.append_assoc]
      rw [line, begun, onwards]
      rfl

namespace ClientRequest

variable {request : ClientRequest}

/-! ## How writing ends -/

theorem check_host (broken : ¬ Unbroken request.host) :
    request.check = .error (.invalidHeaderValue "Host" "contains CR or LF characters") := by
  rw [check, checkValue_broken broken]
  rfl

theorem check_path (host : Unbroken request.host)
    (blank : ∃ c ∈ request.path.toList, Text.isBlank c = true) :
    request.check = .error
      (.invalidUrl s!"path contains whitespace: {Text.Quoted.quote request.path}") := by
  rw [check, checkValue_ok host, List.any_eq_true.mpr blank]
  rfl

theorem putHead_extensions {value : String} (offered : request.extensions = some value)
    (broken : ¬ Unbroken value) :
    putHead request.lines = (textOf (request.texts.take 6),
      .error (.invalidHeaderValue "Sec-WebSocket-Extensions" "contains CR or LF characters")) := by
  have lines : request.lines ++ [.ok ""] = (request.texts.take 6).map .ok ++
      .error (.invalidHeaderValue "Sec-WebSocket-Extensions" "contains CR or LF characters") ::
        [.ok ""] := by
    rw [ClientRequest.lines, texts, shown, offered]
    simp only [checkedLine_broken broken]
    rfl
  rw [putHead, lines, putLines_error]

/-- All ways in which writing a request ends: with nothing written, for the host or for the
path; behind the sixth line, for the extensions; or with the whole request written, and then
the key has not been looked at. -/
theorem write_cases (request : ClientRequest) :
    (¬ Unbroken request.host ∧ request.write =
      ("", .error (.invalidHeaderValue "Host" "contains CR or LF characters"))) ∨
    ((∃ c ∈ request.path.toList, Text.isBlank c = true) ∧ request.write =
      ("", .error (.invalidUrl s!"path contains whitespace: {Text.Quoted.quote request.path}"))) ∨
    ((∃ value, request.extensions = some value ∧ ¬ Unbroken value) ∧ request.write =
      (textOf (request.texts.take 6), .error
        (.invalidHeaderValue "Sec-WebSocket-Extensions" "contains CR or LF characters"))) ∨
    (request.Writable ∧ request.write = (textOf (request.texts ++ [""]), .ok ())) := by
  by_cases host : Unbroken request.host
  · by_cases blank : ∃ c ∈ request.path.toList, Text.isBlank c = true
    · refine .inr (.inl ⟨blank, ?_⟩)
      rw [write, check_path host blank]
    · have path : ∀ c ∈ request.path.toList, Text.isBlank c = false := fun c member =>
        Bool.eq_false_iff.mpr fun is => blank ⟨c, member, is⟩
      by_cases broken : ∃ value, request.extensions = some value ∧ ¬ Unbroken value
      · obtain ⟨value, offered, broken'⟩ := broken
        refine .inr (.inr (.inl ⟨⟨value, offered, broken'⟩, ?_⟩))
        rw [write, check_ok host path, putHead_extensions offered broken']
      · have writable : request.Writable := {
          host := host
          path := path
          extensions := fun value offered =>
            Decidable.of_not_not fun broken' => broken ⟨value, offered, broken'⟩ }
        exact .inr (.inr (.inr ⟨writable, write_ok writable⟩))
  · refine .inl ⟨host, ?_⟩
    rw [write, check_host host]

theorem write_eq_ok_iff : request.write.2 = .ok () ↔ request.Writable := by
  constructor
  · intro written
    rcases request.write_cases with ⟨-, ends⟩ | ⟨-, ends⟩ | ⟨-, ends⟩ | ⟨writable, -⟩
    · rw [ends] at written
      cases written
    · rw [ends] at written
      cases written
    · rw [ends] at written
      cases written
    · exact writable
  · intro writable
    rw [write_ok writable]

/-! ## What is written -/

/-- The line of the key. -/
def keyLine (key : String) : String :=
  Fields.shownLine ("Sec-WebSocket-Key", key)

/-- The lines of a request before the one with its key. -/
def front (request : ClientRequest) : List String :=
  request.texts.take 4

/-- The lines of a request behind the one with its key, with the empty line. -/
def back (request : ClientRequest) : List String :=
  request.texts.drop 5 ++ [""]

theorem texts_eq (request : ClientRequest) :
    request.texts ++ [""] = request.front ++ keyLine request.key :: request.back := rfl

theorem unbroken_shownLine {name value : String} (plain : Unbroken (name ++ ": ")) :
    Unbroken (Fields.shownLine (name, value)) ↔ Unbroken value :=
  Text.unbroken_append.trans (and_iff_right plain)

theorem unbroken_front (writable : request.Writable) : ∀ line ∈ request.front, Unbroken line := by
  have path : Unbroken request.path := Text.unbroken_of_not_blank writable.path
  have front : request.front = [request.firstLine, Fields.shownLine ("Host", request.host),
    Fields.shownLine ("Upgrade", "websocket"), Fields.shownLine ("Connection", "Upgrade")] := rfl
  rw [front]
  intro line member
  simp only [List.mem_cons, List.not_mem_nil, or_false] at member
  rcases member with rfl | rfl | rfl | rfl
  · exact Text.unbroken_append.mpr
      ⟨Text.unbroken_append.mpr ⟨by decide, path⟩, by decide⟩
  · exact (unbroken_shownLine (by decide)).mpr writable.host
  · decide
  · decide

theorem unbroken_back (writable : request.Writable) : ∀ line ∈ request.back, Unbroken line := by
  have back : request.back = Fields.shownLine ("Sec-WebSocket-Version", "13") ::
      ((request.extensions.map fun value =>
        Fields.shownLine ("Sec-WebSocket-Extensions", value)).toList ++ [""]) := by
    rw [ClientRequest.back, texts, shown]
    cases request.extensions <;> rfl
  rw [back]
  intro line member
  simp only [List.mem_cons, List.mem_append, Option.mem_toList, Option.map_eq_some_iff,
    List.not_mem_nil, or_false] at member
  rcases member with rfl | ⟨value, offered, rfl⟩ | rfl
  · decide
  · exact (unbroken_shownLine (by decide)).mpr (writable.extensions value offered)
  · decide

theorem unbroken_keyLine {key : String} : Unbroken (keyLine key) ↔ Unbroken key :=
  unbroken_shownLine (by decide)

/-- The lines of a request with its key replaced by the first of some texts, and the others in
lines of their own behind that. -/
def linesWith (request : ClientRequest) (first : String) (more : List String) : List String :=
  request.front ++ keyLine first :: (more ++ request.back)

theorem unbroken_linesWith (writable : request.Writable) {first : String} {more : List String}
    (pieces : ∀ piece ∈ first :: more, Unbroken piece) :
    ∀ line ∈ request.linesWith first more, Unbroken line := by
  intro line member
  simp only [linesWith, List.mem_append, List.mem_cons] at member
  rcases member with member | rfl | member | member
  · exact unbroken_front writable line member
  · exact unbroken_keyLine.mpr (pieces first List.mem_cons_self)
  · exact pieces line (List.mem_cons_of_mem _ member)
  · exact unbroken_back writable line member

theorem textOf_linesWith {first : String} {more : List String}
    (key : request.key = joined first more) :
    textOf (request.texts ++ [""]) = textOf (request.linesWith first more) := by
  rw [texts_eq, linesWith, textOf_append, textOf_append, key, keyLine, keyLine,
    Fields.shownLine, Fields.shownLine, textOf_joined]

/-- Writing a request succeeds just if there is no line end in the host or the extensions and
no white space in the path.  What it has then written are the lines of the request; and it
splits into them, and into nothing else, just if there is no line end in the key either.  Where
the key is several texts with line ends between them, all but the first are lines of their own. -/
theorem write_split (request : ClientRequest) :
    (request.write.2 = .ok () ↔ request.Writable) ∧
    (request.write.2 = .ok () →
      request.write.1 = textOf (request.texts ++ [""]) ∧
      (SplitsInto (Bytes.ofText request.write.1) (request.texts ++ [""]) ↔
        Unbroken request.key) ∧
      ∀ first more, request.key = joined first more →
        (∀ piece ∈ first :: more, Unbroken piece) → ∀ lines,
          SplitsInto (Bytes.ofText request.write.1) lines ↔
            lines = request.linesWith first more) := by
  refine ⟨write_eq_ok_iff, fun written => ?_⟩
  have writable := write_eq_ok_iff.mp written
  have text : request.write.1 = textOf (request.texts ++ [""]) := by rw [write_ok writable]
  rw [text]
  refine ⟨rfl, ⟨fun splits => ?_, fun key => ?_⟩, fun first more key pieces lines => ?_⟩
  · have line : keyLine request.key ∈ request.texts ++ [""] := by
      rw [texts_eq]
      exact List.mem_append_right _ List.mem_cons_self
    exact unbroken_keyLine.mp (Bytes.unbroken_iff.mpr (splits.clean _ line))
  · have clean : ∀ line ∈ request.linesWith request.key [], Unbroken line :=
      unbroken_linesWith writable (by simpa using key)
    exact splitsInto_textOf clean
  · rw [textOf_linesWith key]
    exact splitsInto_iff (unbroken_linesWith writable pieces) lines

/-- A request that offers an extension, and one with a line end in what it offers. -/
theorem write_split_offer :
    let request : ClientRequest := ⟨"h:1", "/md5", "k", some "permessage-deflate; x"⟩
    let broken : ClientRequest := ⟨"h:1", "/md5", "k", some "permessage-deflate\r\nX-Evil: 1"⟩
    request.write.2 = .ok () ∧
      (∀ lines, SplitsInto (Bytes.ofText request.write.1) lines ↔
        lines = ["GET /md5 HTTP/1.1", "Host: h:1", "Upgrade: websocket", "Connection: Upgrade",
          "Sec-WebSocket-Key: k", "Sec-WebSocket-Version: 13",
          "Sec-WebSocket-Extensions: permessage-deflate; x", ""]) ∧
      broken.write.2 ≠ .ok () := by
  intro request broken
  have path (request : ClientRequest) (h : request.path = "/md5") :
      ∀ c ∈ request.path.toList, Text.isBlank c = false := by
    rw [h]
    simp [Text.isBlank]
  obtain ⟨written, splits⟩ := write_split request
  have writable : request.Writable := ⟨by decide, path request rfl, by decide⟩
  obtain ⟨-, -, lines⟩ := splits (written.mpr writable)
  refine ⟨written.mpr writable, lines "k" [] rfl (by decide), fun ok => ?_⟩
  have offered := ((write_split broken).1.mp ok).extensions _ rfl
  exact absurd offered (by decide)

/-- A key of two lines brings a field of its own. -/
theorem injects :
    let request : ClientRequest := ⟨"h", "/", "k\r\nX-Evil: 1", none⟩
    request.write.2 = .ok () ∧
      SplitsInto (Bytes.ofText request.write.1)
        ["GET / HTTP/1.1", "Host: h", "Upgrade: websocket", "Connection: Upgrade",
          "Sec-WebSocket-Key: k", "X-Evil: 1", "Sec-WebSocket-Version: 13", ""] ∧
      ¬ Unbroken request.key ∧
      ¬ SplitsInto (Bytes.ofText request.write.1) (request.texts ++ [""]) := by
  intro request
  have writable : request.Writable := ⟨by decide, by simp [request, Text.isBlank], by decide⟩
  have written : request.write = (textOf (request.linesWith "k" ["X-Evil: 1"]), .ok ()) := by
    have key : request.key = joined "k" ["X-Evil: 1"] := by decide
    rw [write_ok writable, textOf_linesWith key]
  have splits : SplitsInto (Bytes.ofText request.write.1)
      (request.linesWith "k" ["X-Evil: 1"]) := by
    rw [written]
    exact splitsInto_textOf (unbroken_linesWith writable (by decide))
  refine ⟨by rw [written], splits, by decide, fun other => ?_⟩
  exact absurd (other.unique splits) (by decide)

end ClientRequest

end Handshake

end DeflateTrial
