/-
The exchange of heads — a request and its response are read as they were written

    client --request--> server --response--> client

Each head is a first line and fields, and each field is read back
(`Fields.ofLines_shown`), so what a client asks is what the server reads
(`ClientRequest.parse_texts`).  The response may name extensions in several
lines, which add up (`Fields.ofLines_extensions`); what it grants is what
the client reads (`Response.parse_textsOf`).
-/
import DeflateTrial.Proofs.Digest.Base64
import DeflateTrial.Proofs.Handshake.Lists

namespace DeflateTrial

namespace Handshake

open Text (Unbroken)

/-! ## The request -/

theorem Request.ofLines_of_fields {first : List Char} {rest : List (List Char)} {fields : Fields}
    {path host key text : String} {version : Nat} (asked : pathOf first = .ok path)
    (read : Fields.ofLines true rest = .ok fields) (upgrade : fields.checkUpgrade = .ok ())
    (named : fields.get? "host" = some host) (keyed : fields.get? "sec-websocket-key" = some key)
    (numbered : fields.get? "sec-websocket-version" = some text)
    (number : versionOf text = .ok version) :
    ofLines (first :: rest) = .ok ⟨path, host, key, version, fields.extensions⟩ := by
  have require {name value : String} (h : fields.get? name = some value) (shown : String) :
      fields.require name shown = .ok value := by
    rw [Fields.require, h]
  simp only [ofLines, asked, read, upgrade, require named, require keyed, require numbered, number,
    bind, Except.bind, pure, Except.pure]

namespace ClientRequest

/-- A request that is written as a whole, whatever its key is. -/
structure Writable (request : ClientRequest) : Prop where
  host : Unbroken request.host
  path : ∀ c ∈ request.path.toList, Text.isBlank c = false
  extensions : ∀ value, request.extensions = some value → Unbroken value

/-- A request that can be sent. -/
structure Sendable (request : ClientRequest) : Prop where
  host : Unbroken request.host
  path : request.path.toList ≠ [] ∧ ∀ c ∈ request.path.toList, Text.isBlank c = false
  key : Unbroken request.key
  extensions : ∀ value, request.extensions = some value → Unbroken value

theorem Sendable.writable {request : ClientRequest} (sendable : request.Sendable) :
    request.Writable :=
  ⟨sendable.host, sendable.path.2, sendable.extensions⟩

/-- The first line of a request. -/
def firstLine (request : ClientRequest) : String :=
  "GET " ++ request.path ++ " HTTP/1.1"

/-- The fields of a request, with their names as they are written. -/
def shown (request : ClientRequest) : Fields :=
  [("Host", request.host), ("Upgrade", "websocket"), ("Connection", "Upgrade"),
    ("Sec-WebSocket-Key", request.key), ("Sec-WebSocket-Version", "13")]
    ++ (request.extensions.map fun value => ("Sec-WebSocket-Extensions", value)).toList

/-- The names of a request's fields, in their order. -/
def names : List String :=
  ["Host", "Upgrade", "Connection", "Sec-WebSocket-Key", "Sec-WebSocket-Version",
    "Sec-WebSocket-Extensions"]

theorem apart_names : Fields.Apart names :=
  ⟨by decide, by decide⟩

/-- The lines of a request. -/
def texts (request : ClientRequest) : List String :=
  request.firstLine :: request.shown.map Fields.shownLine

section
variable {request : ClientRequest}

theorem lines_eq (writable : request.Writable) : request.lines = request.texts.map .ok := by
  have checked (value : String) (h : request.extensions = some value) :
      checkedLine "Sec-WebSocket-Extensions" value = _ :=
    checkedLine_ok (writable.extensions value h)
  rw [lines, texts, shown]
  cases h : request.extensions with
  | none => rfl
  | some value =>
      simp only [checked value h]
      rfl

theorem check_ok (host : Unbroken request.host)
    (path : ∀ c ∈ request.path.toList, Text.isBlank c = false) : request.check = .ok () := by
  have clear : request.path.toList.any Text.isBlank = false := by
    rw [List.any_eq_false]
    exact fun c member => by simp [path c member]
  rw [check, checkValue_ok host, clear]
  rfl

theorem write_ok (writable : request.Writable) :
    request.write = (textOf (request.texts ++ [""]), .ok ()) := by
  rw [write, check_ok writable.host writable.path, lines_eq writable, putHead_ok]

theorem unbroken_path (sendable : request.Sendable) : Unbroken request.path :=
  Text.unbroken_of_not_blank sendable.path.2

theorem names_shown (request : ClientRequest) :
    (request.shown.map Prod.fst).Sublist names := by
  rw [shown]
  cases request.extensions with
  | none => exact List.sublist_append_left _ ["Sec-WebSocket-Extensions"]
  | some value => exact List.Sublist.refl _

theorem solid_texts (sendable : request.Sendable) : ∀ line ∈ request.texts, Solid line := by
  have first : Solid request.firstLine := {
    filled := fun empty => by
      have toList := congrArg String.toList empty
      simp [firstLine] at toList
    whole := Text.unbroken_append.mpr
      ⟨Text.unbroken_append.mpr ⟨by decide, unbroken_path sendable⟩, by decide⟩ }
  have values : ∀ field ∈ request.shown, Unbroken field.2 := by
    intro field member
    simp only [shown, List.mem_append, List.mem_cons, List.not_mem_nil, or_false,
      Option.mem_toList, Option.map_eq_some_iff] at member
    rcases member with (rfl | rfl | rfl | rfl | rfl) | ⟨value, h, rfl⟩
    · exact sendable.host
    · exact (by decide : Unbroken "websocket")
    · exact (by decide : Unbroken "Upgrade")
    · exact sendable.key
    · exact (by decide : Unbroken "13")
    · exact sendable.extensions value h
  intro line here
  rcases List.mem_cons.mp here with rfl | written
  · exact first
  · obtain ⟨field, member, rfl⟩ := List.mem_map.mp written
    have known := request.names_shown.subset (List.mem_map_of_mem member)
    exact Fields.solid_shownLine apart_names known (values field member)

theorem pathOf_firstLine (sendable : request.Sendable) :
    Request.pathOf request.firstLine.toList = .ok request.path := by
  have split : request.firstLine.toList =
      "GET".toList ++ ' ' :: (request.path.toList ++ ' ' :: "HTTP/1.1".toList) := by
    simp only [firstLine, String.toList_append, List.append_assoc]
    rfl
  have each : ∀ word ∈ ["GET".toList, request.path.toList, "HTTP/1.1".toList],
      word ≠ [] ∧ ∀ c ∈ word, Text.isBlank c = false := by
    intro word member
    simp only [List.mem_cons, List.not_mem_nil, or_false] at member
    rcases member with rfl | rfl | rfl
    · exact ⟨by decide, by simp [Text.isBlank]⟩
    · exact sendable.path
    · exact ⟨by decide, by simp [Text.isBlank]⟩
  rw [Request.pathOf, split, Text.words_three each]
  simp only [List.map_cons, List.map_nil, String.ofList_toList]
  rfl

/-- The fields of a request as they are read, the last one first. -/
def readFields (host key : String) (extensions : Option String) : Fields :=
  (extensions.map fun value => ("sec-websocket-extensions", value)).toList ++
    [("sec-websocket-version", "13"), ("sec-websocket-key", key), ("connection", "Upgrade"),
      ("upgrade", "websocket"), ("host", host)]

theorem readAs_shown (request : ClientRequest) : (request.shown.map Fields.readAs).reverse =
    readFields (Text.trimmed request.host) (Text.trimmed request.key)
      (request.extensions.map Text.trimmed) := by
  have host : Fields.nameOf "Host" = "host" := by decide
  have key : Fields.nameOf "Sec-WebSocket-Key" = "sec-websocket-key" := by decide
  have extensions : Fields.nameOf "Sec-WebSocket-Extensions" = "sec-websocket-extensions" := by
    decide
  have upgrade : Fields.readAs ("Upgrade", "websocket") = ("upgrade", "websocket") := by decide
  have connection : Fields.readAs ("Connection", "Upgrade") = ("connection", "Upgrade") := by
    decide
  have version : Fields.readAs ("Sec-WebSocket-Version", "13") =
      ("sec-websocket-version", "13") := by decide
  have named (name value : String) :
      Fields.readAs (name, value) = (Fields.nameOf name, Text.trimmed value) := rfl
  rw [shown, List.map_append, List.reverse_append, readFields]
  simp only [List.map_cons, List.map_nil, upgrade, connection, version, named, host, key]
  cases request.extensions with
  | none => rfl
  | some value =>
      simp only [Option.map_some, Option.toList_some, List.map_cons, List.map_nil, named,
        extensions]
      rfl

theorem ofLines_readFields {first : List Char} {rest : List (List Char)} {path host key : String}
    {extensions : Option String} (asked : Request.pathOf first = .ok path)
    (read : Fields.ofLines true rest = .ok (readFields host key extensions)) :
    Request.ofLines (first :: rest) =
      .ok ⟨path, host, key, 13, (extensions.map Fields.listOf).getD []⟩ := by
  have listed : (readFields host key extensions).extensions =
      (extensions.map Fields.listOf).getD [] := by
    cases extensions <;> rfl
  have upgrade : (readFields host key extensions).checkUpgrade = .ok () := by
    cases extensions <;> rfl
  have named : (readFields host key extensions).get? "host" = some host := by
    cases extensions <;> rfl
  have keyed : (readFields host key extensions).get? "sec-websocket-key" = some key := by
    cases extensions <;> rfl
  have numbered : (readFields host key extensions).get? "sec-websocket-version" = some "13" := by
    cases extensions <;> rfl
  rw [← listed]
  exact Request.ofLines_of_fields asked read upgrade named keyed numbered rfl

theorem parse_texts (sendable : request.Sendable) :
    Request.parse (Bytes.ofText (textOf (request.texts ++ [""]))) = .ok {
      path := request.path
      host := Text.trimmed request.host
      key := Text.trimmed request.key
      version := 13
      extensions := ((request.extensions.map Text.trimmed).map Fields.listOf).getD [] } := by
  have read := Fields.ofLines_shown true apart_names request.names_shown
  rw [readAs_shown] at read
  rw [Request.parse, Bytes.toText?_ofText]
  change Request.ofLines (Text.lines _) = _
  rw [lines_head (solid_texts sendable), texts, List.map_cons, List.map_map, List.cons_append]
  exact ofLines_readFields (pathOf_firstLine sendable) read

end

end ClientRequest

/-! ## The response -/

namespace Response

/-- The fields that every response has, with their names as they are written. -/
def basic (accept : String) : Fields :=
  [("Upgrade", "websocket"), ("Connection", "Upgrade"), ("Sec-WebSocket-Accept", accept)]

/-- The names of a response's fields, in their order. -/
def names : List String :=
  ["Upgrade", "Connection", "Sec-WebSocket-Accept", "Sec-WebSocket-Extensions"]

theorem apart_names : Fields.Apart names :=
  ⟨by decide, by decide⟩

def firstLine : String := "HTTP/1.1 101 Switching Protocols"

/-- The lines of a response, one for each entry. -/
def textsOf (accept : String) (entries : List String) : List String :=
  firstLine :: ((basic accept).map Fields.shownLine ++ entries.map Fields.entryLine)

section
variable {accept : String} {entries : List String}

theorem write_textsOf (unbroken : ∀ entry ∈ entries, Unbroken entry) :
    (⟨accept, entries⟩ : Response).write = (textOf (textsOf accept entries ++ [""]), .ok ()) := by
  have checked : entries.map (checkedLine "Sec-WebSocket-Extensions") =
      (entries.map Fields.entryLine).map .ok := by
    rw [List.map_map]
    exact List.map_congr_left fun entry member => checkedLine_ok (unbroken entry member)
  have lines : (⟨accept, entries⟩ : Response).lines = (textsOf accept entries).map .ok := by
    rw [Response.lines, checked, textsOf, List.map_cons, List.map_append]
    rfl
  rw [write, lines, putHead_ok]

theorem solid_textsOf (whole : Unbroken accept) (unbroken : ∀ entry ∈ entries, Unbroken entry) :
    ∀ line ∈ textsOf accept entries, Solid line := by
  have solid {field : String × String} (known : field.1 ∈ names) (value : Unbroken field.2) :
      Solid (Fields.shownLine field) :=
    Fields.solid_shownLine apart_names known value
  intro line here
  rcases List.mem_cons.mp here with rfl | written
  · exact ⟨by decide, by decide⟩
  · rcases List.mem_append.mp written with written | written
    · obtain ⟨field, member, rfl⟩ := List.mem_map.mp written
      simp only [basic, List.mem_cons, List.not_mem_nil, or_false] at member
      rcases member with rfl | rfl | rfl
      · exact solid (by simp [names]) (by decide : Unbroken "websocket")
      · exact solid (by simp [names]) (by decide : Unbroken "Upgrade")
      · exact solid (by simp [names]) whole
    · obtain ⟨entry, member, rfl⟩ := List.mem_map.mp written
      exact solid (by simp [names]) (unbroken entry member)

theorem readAs_basic (accept : String) : ((basic accept).map Fields.readAs).reverse =
    [("sec-websocket-accept", Text.trimmed accept), ("connection", "Upgrade"),
      ("upgrade", "websocket")] := by
  have accepted : Fields.nameOf "Sec-WebSocket-Accept" = "sec-websocket-accept" := by decide
  have upgrade : Fields.readAs ("Upgrade", "websocket") = ("upgrade", "websocket") := by decide
  have connection : Fields.readAs ("Connection", "Upgrade") = ("connection", "Upgrade") := by
    decide
  simp only [basic, List.map_cons, List.map_nil, upgrade, connection]
  rw [Fields.readAs, accepted]
  rfl

theorem ofLines_of_fields {first : List Char} {rest : List (List Char)} {fields : Fields}
    (line : granted.toList <+: first) (read : Fields.ofLines false rest = .ok fields)
    (upgrade : fields.checkUpgrade = .ok ())
    (accepted : fields.get? "sec-websocket-accept" = some accept) :
    ofLines (first :: rest) = .ok ⟨accept, fields.extensions⟩ := by
  have begins := Text.isNone_dropStart?_eq_false line
  have require : fields.require "sec-websocket-accept" "Sec-WebSocket-Accept" = .ok accept := by
    rw [Fields.require, accepted]
  simp only [ofLines, begins, read, upgrade, require, bind, Except.bind, pure, Except.pure,
    Bool.false_eq_true, if_false]

theorem parse_textsOf (whole : Unbroken accept) (unbroken : ∀ entry ∈ entries, Unbroken entry) :
    parse (Bytes.ofText (textOf (textsOf accept entries ++ [""]))) =
      .ok ⟨Text.trimmed accept, entries.flatMap Fields.listOf⟩ := by
  have known : ((basic accept).map Prod.fst).Sublist names :=
    List.sublist_append_left _ ["Sec-WebSocket-Extensions"]
  obtain ⟨fields, read, listed, kept⟩ :=
    Fields.ofLines_extensions false apart_names known entries
  rw [readAs_basic] at listed kept
  have line : granted.toList <+: firstLine.toList := ⟨" Switching Protocols".toList, by decide⟩
  have upgrade : fields.checkUpgrade = .ok () := by
    simp only [Fields.checkUpgrade, Fields.require, kept "upgrade" (by decide),
      kept "connection" (by decide)]
    rfl
  have parsed : ofLines (firstLine.toList :: _) = _ :=
    ofLines_of_fields line read upgrade (kept "sec-websocket-accept" (by decide))
  rw [parse, Bytes.toText?_ofText]
  change ofLines (Text.lines _) = _
  rw [lines_head (solid_textsOf whole unbroken), textsOf, List.map_cons, List.cons_append, parsed,
    listed]
  rfl

end

/-! ### At most one entry -/

/-- The fields of a response with at most one entry, with their names as they are written. -/
def shown (accept : String) (entry : Option String) : Fields :=
  [("Upgrade", "websocket"), ("Connection", "Upgrade"), ("Sec-WebSocket-Accept", accept)]
    ++ (entry.map fun value => ("Sec-WebSocket-Extensions", value)).toList

/-- The lines of a response with at most one entry. -/
def texts (accept : String) (entry : Option String) : List String :=
  firstLine :: (shown accept entry).map Fields.shownLine

theorem names_shown (accept : String) (entry : Option String) :
    ((shown accept entry).map Prod.fst).Sublist names := by
  rw [shown]
  cases entry with
  | none => exact List.sublist_append_left _ ["Sec-WebSocket-Extensions"]
  | some value => exact List.Sublist.refl _

theorem texts_eq_textsOf (accept : String) (entry : Option String) :
    texts accept entry = textsOf accept entry.toList := by
  cases entry <;> rfl

section
variable {accept : String} {entry : Option String}

theorem write_ok (unbroken : ∀ value, entry = some value → Unbroken value) :
    (⟨accept, entry.toList⟩ : Response).write = (textOf (texts accept entry ++ [""]), .ok ()) := by
  rw [texts_eq_textsOf]
  exact write_textsOf fun value member => unbroken value (Option.mem_toList.mp member)

theorem solid_texts (whole : Unbroken accept)
    (unbroken : ∀ value, entry = some value → Unbroken value) :
    ∀ line ∈ texts accept entry, Solid line := by
  rw [texts_eq_textsOf]
  exact solid_textsOf whole fun value member => unbroken value (Option.mem_toList.mp member)

theorem parse_texts (whole : Unbroken accept)
    (unbroken : ∀ value, entry = some value → Unbroken value) :
    parse (Bytes.ofText (textOf (texts accept entry ++ [""]))) =
      .ok ⟨Text.trimmed accept, ((entry.map Text.trimmed).map Fields.listOf).getD []⟩ := by
  rw [texts_eq_textsOf,
    parse_textsOf whole fun value member => unbroken value (Option.mem_toList.mp member)]
  cases entry with
  | none => rfl
  | some value =>
      simp only [Option.toList_some, List.flatMap_singleton, Option.map_some, Option.getD_some,
        Fields.listOf_trimmed]

end

end Response

/-! ## Keys -/

theorem not_blank_encode (bytes : Bytes) :
    ∀ c ∈ (Digest.Base64.encode bytes).toList, Text.isBlank c = false := by
  rw [Digest.Base64.encode, String.toList_ofList]
  exact fun c member => Digest.Base64.not_blank_of_mem_encodeChars member

theorem trimmed_encode (bytes : Bytes) : Unbroken (Digest.Base64.encode bytes) ∧
    Text.trimmed (Digest.Base64.encode bytes) = Digest.Base64.encode bytes :=
  ⟨Text.unbroken_of_not_blank (not_blank_encode bytes),
    Text.trimmed_eq (Text.trimmed_of_forall (not_blank_encode bytes))⟩

theorem trimmed_acceptFor (key : String) :
    Unbroken (acceptFor key) ∧ Text.trimmed (acceptFor key) = acceptFor key :=
  trimmed_encode _

end Handshake

end DeflateTrial
