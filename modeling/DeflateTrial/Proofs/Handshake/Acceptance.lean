/-
Acceptance — which heads are opening requests

    GET path HTTP/1.1            first line: three words
    name: value                  fields, up to the first empty line
    ...

A head is accepted just if it is a text whose first line asks for a path, and
whose fields are those of an upgrade: each of five names stands exactly once,
two of them with what the protocol wants to read there, and one with a number
of one byte (`Request.Asks`).  The request is then made of what stands there, and
of the parts of all lines for extensions in their order.  These conditions look
at each name apart, so the order of fields with different names does not matter
(`Request.parse_exact`).
-/
import DeflateTrial.Proofs.Handshake.Exchange
import DeflateTrial.Proofs.Handshake.FieldLines
import DeflateTrial.Proofs.Message.Bounds
import DeflateTrial.Proofs.Text.Numerals

namespace DeflateTrial

theorem Text.contains_iff {part cs : List Char} : contains part cs = true ↔ part <:+: cs := by
  induction cs with
  | nil => simp [contains, cutAt]
  | cons c cs ih =>
      rw [List.infix_cons_iff, ← ih]
      unfold contains
      rw [cutAt]
      cases start : dropStart? part (c :: cs) with
      | some after =>
          have here : part <+: c :: cs := ⟨after, (dropStart?_eq_some.mp start).symm⟩
          simp [here]
      | none =>
          have absent : ¬ part <+: c :: cs := by
            rintro ⟨after, split⟩
            rw [dropStart?_eq_some.mpr split.symm] at start
            cases start
          simp [absent]

namespace Handshake

/-! ## The fields of an upgrade -/

namespace Fields

variable {fields : Fields}

theorem require_eq_ok_iff {name value : String} (shown : String) :
    fields.require name shown = .ok value ↔ fields.get? name = some value := by
  rw [require]
  cases fields.get? name <;> simp

theorem checkUpgrade_eq_ok_iff : fields.checkUpgrade = .ok () ↔
    ∃ upgrade connection, fields.get? "upgrade" = some upgrade ∧
      Text.lower upgrade.toList = "websocket".toList ∧
      fields.get? "connection" = some connection ∧
      "upgrade".toList <:+: Text.lower connection.toList := by
  have small : Text.lower "websocket".toList = "websocket".toList := by decide
  have same {value : String} : Text.sameIgnoringCase value.toList "websocket".toList = true ↔
      Text.lower value.toList = "websocket".toList := by
    rw [Text.sameIgnoringCase, small, beq_iff_eq]
  simp only [← same, ← Text.contains_iff]
  constructor
  · intro h
    unfold checkUpgrade at h
    obtain ⟨upgrade, named, h⟩ := exists_of_bind_ok h
    rw [require_eq_ok_iff] at named
    split at h
    · cases h
    · rename_i asked
      obtain ⟨connection, named', h⟩ := exists_of_bind_ok h
      rw [require_eq_ok_iff] at named'
      split at h
      · cases h
      · rename_i asked'
        rw [Bool.not_eq_true', Bool.not_eq_false] at asked asked'
        exact ⟨upgrade, connection, named, asked, named', asked'⟩
  · rintro ⟨upgrade, connection, named, asked, named', asked'⟩
    rw [← require_eq_ok_iff "Upgrade"] at named
    rw [← require_eq_ok_iff "Connection"] at named'
    simp only [checkUpgrade, named, asked, named', asked', bind, Except.bind]
    rfl

end Fields

namespace Request

open Fields (inLines valuesOf)

variable {first : List Char} {rest : List (List Char)} {request : Request}

theorem pathOf_eq_ok_iff {path : String} : pathOf first = .ok path ↔
    Text.words first = ["GET".toList, path.toList, "HTTP/1.1".toList] := by
  have spelled {cs : List Char} {text : String} : String.ofList cs = text ↔ cs = text.toList := by
    constructor
    · rintro rfl
      exact String.toList_ofList.symm
    · rintro rfl
      exact String.ofList_toList
  rw [pathOf]
  generalize Text.words first = words
  rcases words with _ | ⟨method, _ | ⟨asked, _ | ⟨version, _ | _⟩⟩⟩
  · simp
  · simp
  · simp
  · simp only [List.map_cons, List.map_nil, List.cons.injEq, and_true, ← spelled]
    by_cases get : String.ofList method = "GET"
    · by_cases http : String.ofList version = "HTTP/1.1"
      · simp [get, http]
      · simp [get, http]
    · simp [get]
  · simp

theorem versionOf_eq_ok_iff {text : String} {version : Nat} : versionOf text = .ok version ↔
    version < 256 ∧ Text.Decimal.Numeral text.toList version := by
  rw [versionOf, ← Text.Decimal.readBelow?_eq_some_iff]
  cases Text.Decimal.readBelow? 256 text.toList <;> simp

/-- What a first line and the fields behind it say, if they ask for a connection. -/
structure Asks (first : List Char) (written : Fields) (request : Request) : Prop where
  line : Text.words first = ["GET".toList, request.path.toList, "HTTP/1.1".toList]
  host : written.valuesOf "host" = [request.host]
  upgrade : ∃ value, written.valuesOf "upgrade" = [value] ∧
    Text.lower value.toList = "websocket".toList
  connection : ∃ value, written.valuesOf "connection" = [value] ∧
    "upgrade".toList <:+: Text.lower value.toList
  key : written.valuesOf "sec-websocket-key" = [request.key]
  version : ∃ value, written.valuesOf "sec-websocket-version" = [value] ∧
    request.version < 256 ∧ Text.Decimal.Numeral value.toList request.version
  extensions : request.extensions =
    (written.valuesOf Fields.extensionsName).flatMap Fields.listOf

theorem Asks.exists_only {written : Fields} {name : String} (asks : Asks first written request)
    (single : name ∈ Fields.singletons) : ∃ value, written.valuesOf name = [value] := by
  simp only [Fields.singletons, List.mem_cons, List.not_mem_nil, or_false] at single
  rcases single with rfl | rfl | rfl | rfl | rfl
  · exact ⟨_, asks.host⟩
  · exact asks.upgrade.imp fun _ => And.left
  · exact asks.connection.imp fun _ => And.left
  · exact ⟨_, asks.key⟩
  · exact asks.version.imp fun _ => And.left

theorem Asks.once {written : Fields} (asks : Asks first written request) :
    Fields.Once written := by
  intro name single
  obtain ⟨value, only⟩ := asks.exists_only single
  rw [only]
  exact Nat.le_refl 1

theorem exists_of_ofLines (h : ofLines (first :: rest) = .ok request) :
    ∃ fields text, pathOf first = .ok request.path ∧ Fields.ofLines true rest = .ok fields ∧
      fields.checkUpgrade = .ok () ∧ fields.get? "host" = some request.host ∧
      fields.get? "sec-websocket-key" = some request.key ∧
      fields.get? "sec-websocket-version" = some text ∧ versionOf text = .ok request.version ∧
      request.extensions = fields.extensions := by
  unfold ofLines at h
  obtain ⟨path, asked, h⟩ := exists_of_bind_ok h
  obtain ⟨fields, read, h⟩ := exists_of_bind_ok h
  obtain ⟨⟨⟩, upgrade, h⟩ := exists_of_bind_ok h
  obtain ⟨host, named, h⟩ := exists_of_bind_ok h
  obtain ⟨key, keyed, h⟩ := exists_of_bind_ok h
  obtain ⟨text, numbered, h⟩ := exists_of_bind_ok h
  obtain ⟨version, number, h⟩ := exists_of_bind_ok h
  cases h
  rw [Fields.require_eq_ok_iff] at named keyed numbered
  exact ⟨fields, text, asked, read, upgrade, named, keyed, numbered, number, rfl⟩

/-- The lines of a head make a request just if they ask for it. -/
theorem ofLines_eq_ok_iff :
    ofLines (first :: rest) = .ok request ↔ Asks first (inLines rest) request := by
  constructor
  · intro h
    obtain ⟨fields, text, asked, read, upgraded, named, keyed, numbered, number, listed⟩ :=
      exists_of_ofLines h
    obtain ⟨upgrade, connection, has, upgrade', has', connection'⟩ :=
      Fields.checkUpgrade_eq_ok_iff.mp upgraded
    obtain ⟨collected, once⟩ := Fields.collected_of_ofLines read
    have only {name value : String} (single : name ∈ Fields.singletons)
        (found : fields.get? name = some value) : (inLines rest).valuesOf name = [value] :=
      collected.only once single found
    exact {
      line := pathOf_eq_ok_iff.mp asked
      host := only (by decide) named
      upgrade := ⟨upgrade, only (by decide) has, upgrade'⟩
      connection := ⟨connection, only (by decide) has', connection'⟩
      key := only (by decide) keyed
      version := ⟨text, only (by decide) numbered, versionOf_eq_ok_iff.mp number⟩
      extensions := listed.trans collected.listed }
  · intro asks
    obtain ⟨fields, read, collected⟩ := Fields.ofLines_of_once asks.once
    obtain ⟨line, host, ⟨upgrade, has, upgrade'⟩, ⟨connection, has', connection'⟩, key,
      ⟨text, version, number⟩, extensions⟩ := asks
    have found {name value : String} (ne : name ≠ Fields.extensionsName)
        (only : (inLines rest).valuesOf name = [value]) : fields.get? name = some value := by
      rw [collected.last name ne, only]
      rfl
    have upgraded : fields.checkUpgrade = .ok () := Fields.checkUpgrade_eq_ok_iff.mpr
      ⟨upgrade, connection, found (by decide) has, upgrade', found (by decide) has', connection'⟩
    rw [ofLines_of_fields (pathOf_eq_ok_iff.mpr line) read upgraded (found (by decide) host)
      (found (by decide) key) (found (by decide) version) (versionOf_eq_ok_iff.mpr number),
      collected.listed, ← extensions]

theorem parse_ofText {text : String} (split : Text.lines text.toList = first :: rest) :
    parse (Bytes.ofText text) = .ok request ↔ Asks first (inLines rest) request := by
  rw [parse, Bytes.toText?_ofText, ← ofLines_eq_ok_iff, ← split]

theorem exists_of_parse {head : Bytes} (h : parse head = .ok request) :
    ∃ text first rest, head = Bytes.ofText text ∧ Text.lines text.toList = first :: rest ∧
      Asks first (inLines rest) request := by
  unfold parse at h
  split at h
  · cases h
  · rename_i text read
    cases split : Text.lines text.toList with
    | nil =>
        rw [split] at h
        cases h
    | cons first rest =>
        rw [split] at h
        exact ⟨text, first, rest, (Bytes.ofText_of_toText? read).symm, split,
          ofLines_eq_ok_iff.mp h⟩

theorem Asks.congr {written other : Fields} (asks : Asks first written request)
    (same : ∀ name, written.valuesOf name = other.valuesOf name) : Asks first other request := by
  obtain ⟨line, host, upgrade, connection, key, version, extensions⟩ := asks
  simp only [same] at host upgrade connection key version extensions
  exact ⟨line, host, upgrade, connection, key, version, extensions⟩

/-- Two heads that differ in how fields of different names stand to one another, and in
the lines that are no fields. -/
def Rearranged (head other : Bytes) : Prop :=
  ∃ text text' first rest rest', head = Bytes.ofText text ∧ other = Bytes.ofText text' ∧
    Text.lines text.toList = first :: rest ∧ Text.lines text'.toList = first :: rest' ∧
    ∀ name, (inLines rest).valuesOf name = (inLines rest').valuesOf name

/-- A head is read as a request just if it is a text that asks for it.  Hence fields of
different names may stand in any order. -/
theorem parse_exact (head : Bytes) (request : Request) :
    (parse head = .ok request ↔ ∃ text first rest, head = Bytes.ofText text ∧
      Text.lines text.toList = first :: rest ∧ Asks first (inLines rest) request) ∧
    ∀ other, Rearranged head other → (parse head = .ok request ↔ parse other = .ok request) := by
  refine ⟨⟨exists_of_parse, ?_⟩, ?_⟩
  · rintro ⟨text, first, rest, rfl, split, asks⟩
    exact (parse_ofText split).mpr asks
  · rintro other ⟨text, text', first, rest, rest', rfl, rfl, split, split', same⟩
    rw [parse_ofText split, parse_ofText split']
    exact ⟨fun asks => asks.congr same, fun asks => asks.congr fun name => (same name).symm⟩

/-- Names in any letter case, parts of a list in two lines around a line that is no field,
a version with a sign and a zero; and the same head with two of its fields exchanged. -/
theorem parse_exact_exchanged :
    let before := ["GET /md5 HTTP/1.1", "Host: a", "UPGRADE:\tWebSocket", "Connection: x, Upgrade"]
    let key := "Sec-WebSocket-Key: k"
    let list := "Sec-WebSocket-Extensions: x; b=1, ,y"
    let after := ["no field", "sec-websocket-extensions :z", "Sec-WebSocket-Version: +013", ""]
    let head := Bytes.ofText (textOf (before ++ key :: list :: after))
    let other := Bytes.ofText (textOf (before ++ list :: key :: after))
    let request : Request := ⟨"/md5", "a", "k", 13, ["x; b=1", "y", "z"]⟩
    parse head = .ok request ∧ Rearranged head other ∧ parse other = .ok request := by
  intro before key list after head other request
  have split : Text.lines (textOf (before ++ key :: list :: after)).toList = _ :=
    lines_textOf (by decide)
  have split' : Text.lines (textOf (before ++ list :: key :: after)).toList = _ :=
    lines_textOf (by decide)
  have asks : Asks "GET /md5 HTTP/1.1".toList
      (inLines ((before ++ key :: list :: after).map String.toList).tail) request :=
    { line := by decide
      host := by decide
      upgrade := ⟨"WebSocket", by decide, by decide⟩
      connection := ⟨"x, Upgrade", by decide, Text.contains_iff.mp (by decide)⟩
      key := by decide
      version := ⟨"+013", by decide, Text.Decimal.readBelow?_eq_some_iff.mp (by decide)⟩
      extensions := by decide }
  have rearranged : Rearranged head other := by
    refine ⟨_, _, _, _, _, rfl, rfl, split, split', fun name => ?_⟩
    have read : inLines ((before ++ key :: list :: after).map String.toList).tail =
        [("host", "a"), ("upgrade", "WebSocket"), ("connection", "x, Upgrade")] ++
          ("sec-websocket-key", "k") :: ("sec-websocket-extensions", "x; b=1, ,y") ::
            [("sec-websocket-extensions", "z"), ("sec-websocket-version", "+013")] := by
      decide
    have read' : inLines ((before ++ list :: key :: after).map String.toList).tail =
        [("host", "a"), ("upgrade", "WebSocket"), ("connection", "x, Upgrade")] ++
          ("sec-websocket-extensions", "x; b=1, ,y") :: ("sec-websocket-key", "k") ::
            [("sec-websocket-extensions", "z"), ("sec-websocket-version", "+013")] := by
      decide
    exact (congrArg (Fields.valuesOf · name) read).trans
      ((Fields.valuesOf_swap (by decide) _ _ name).trans
        (congrArg (Fields.valuesOf · name) read').symm)
  have parsed : parse head = .ok request :=
    (parse_exact head request).1.mpr ⟨_, _, _, rfl, split, asks⟩
  exact ⟨parsed, rearranged, ((parse_exact head request).2 other rearranged).mp parsed⟩

end Request

end Handshake

end DeflateTrial
