/-
Repeated lines — several lines for extensions mean the same as one

    Sec-WebSocket-Extensions: a; x=1          Host: h
    Host: h                               =   sec-websocket-extensions: a; x=1, b, c
    sec-websocket-extensions: b, c

The lines for extensions do not matter to any other field (`Fields.collect_others`), and
their parts add up, as the parts of a list in one line do (`Fields.listOf_together`).  So
a head is read as the head in which one line holds all their values, and it is refused for
what that head is refused for (`Joins.parse_eq`).

A header value can be read as a whole, and then every part of it has to be an entry.  The
server reads the parts one by one and passes over those that are none.  Of a value that
can be read as a whole it finds the same entries (`repeated_lines_as_one`).
-/
import DeflateTrial.Proofs.Extension.Headers
import DeflateTrial.Proofs.Handshake.Consent
import DeflateTrial.Server.Answer

namespace DeflateTrial.Handshake

/-! ## Readings side by side -/

/-- Two readings that are refused for the same problem, or have both found something. -/
inductive Alongside {α β : Type} (R : α → β → Prop) : Except Problem α → Except Problem β → Prop
  | refused (problem : Problem) : Alongside R (.error problem) (.error problem)
  | read {a : α} {b : β} (related : R a b) : Alongside R (.ok a) (.ok b)

namespace Alongside

variable {α β γ δ : Type} {R : α → β → Prop} {S : γ → δ → Prop} {x : Except Problem α}
  {y : Except Problem β}

theorem bind (alongside : Alongside R x y) {next : α → Except Problem γ}
    {next' : β → Except Problem δ} (onward : ∀ a b, R a b → Alongside S (next a) (next' b)) :
    Alongside S (x >>= next) (y >>= next') := by
  cases alongside with
  | refused problem => exact .refused problem
  | read related => exact onward _ _ related

/-- What goes on from the same reading has only to go on side by side. -/
theorem bind_self {α β γ : Type} {S : β → γ → Prop} (x : Except Problem α)
    {next : α → Except Problem β} {next' : α → Except Problem γ}
    (onward : ∀ a, Alongside S (next a) (next' a)) : Alongside S (x >>= next) (x >>= next') := by
  cases x with
  | error problem => exact .refused problem
  | ok a => exact onward a

theorem bind_eq (alongside : Alongside R x y) {next : α → Except Problem γ}
    {next' : β → Except Problem γ} (same : ∀ a b, R a b → next a = next' b) :
    x >>= next = y >>= next' := by
  cases alongside with
  | refused problem => rfl
  | read related => exact same _ _ related

end Alongside

namespace Fields

variable {strict : Bool} {gap name value : String} {values : List String}
  {several single written fields fields' : Fields}

/-! ## Fields apart from extensions -/

/-- The fields that are not for extensions. -/
def others (written : Fields) : Fields :=
  written.filter (·.1 ≠ extensionsName)

/-- The same is found of every name but that of extensions. -/
def Agree (fields fields' : Fields) : Prop :=
  ∀ name, name ≠ extensionsName → fields.get? name = fields'.get? name

theorem Agree.set (agree : fields.Agree fields') (name value : String) :
    (fields.set name value).Agree (fields'.set name value) := by
  intro other ne
  by_cases same : other = name
  · rw [same, get?_set_self, get?_set_self]
  · rw [get?_set_of_ne _ _ same, get?_set_of_ne _ _ same, agree other ne]

theorem Agree.add (agree : fields.Agree fields') (ne : name ≠ extensionsName) :
    Alongside Agree (fields.add strict name value) (fields'.add strict name value) := by
  rw [add_of_ne ne, add_of_ne ne, agree name ne]
  split
  · exact .refused _
  · exact .read (agree.set name value)

theorem Agree.foldlM_add (agree : fields.Agree fields') (written : Fields) : Alongside Agree
    (written.foldlM (fun fields field => fields.add strict field.1 field.2) fields)
    (written.others.foldlM (fun fields field => fields.add strict field.1 field.2) fields') := by
  induction written generalizing fields fields' with
  | nil => exact .read agree
  | cons field written ih =>
      by_cases list : field.1 = extensionsName
      · obtain ⟨after, added, -, kept⟩ := add_extensions strict fields field.2
        have passed : others (field :: written) = others written :=
          List.filter_cons_of_neg (by simpa using list)
        rw [passed, List.foldlM_cons, list, added]
        exact ih fun name ne => (kept name ne).trans (agree name ne)
      · have stays : others (field :: written) = field :: others written :=
          List.filter_cons_of_pos (by simpa using list)
        rw [stays, List.foldlM_cons, List.foldlM_cons]
        exact (agree.add list).bind fun _ _ agree' => ih agree'

theorem collect_others (strict : Bool) (written : Fields) :
    Alongside Agree (collect strict written) (collect strict written.others) :=
  Agree.foldlM_add (fun _ _ => rfl) written

theorem collect_of_others (same : single.others = several.others) :
    Alongside Agree (collect strict several) (collect strict single) := by
  have first := collect_others strict several
  have second := collect_others strict single
  rw [same] at second
  revert first second
  generalize collect strict several = x
  generalize collect strict several.others = y
  generalize collect strict single = z
  intro first second
  cases first with
  | refused problem =>
      cases second
      exact .refused problem
  | read agree =>
      cases second with
      | read agree' => exact .read fun name ne => (agree name ne).trans (agree' name ne).symm

theorem Agree.require (agree : fields.Agree fields') (ne : name ≠ extensionsName)
    (shown : String) : fields.require name shown = fields'.require name shown := by
  rw [Fields.require, Fields.require, agree name ne]

theorem Agree.checkUpgrade (agree : fields.Agree fields') :
    fields.checkUpgrade = fields'.checkUpgrade := by
  rw [Fields.checkUpgrade, Fields.checkUpgrade, agree.require (by decide),
    agree.require (by decide)]

theorem collected_of_collect (found : collect strict written = .ok fields) :
    Collected written fields := by
  rcases collect_cases strict written with ⟨fields', found', collected, -⟩ | ⟨_, refused, -, -⟩
  · cases found.symm.trans found'
    exact collected
  · cases found.symm.trans refused

/-! ## One line for several -/

/-- Values in one text, set apart by commas with white space behind them or none. -/
def together (gap : String) (values : List String) : String :=
  String.intercalate ("," ++ gap) values

theorem listOf_together (blank : ∀ c ∈ gap.toList, Text.isBlank c = true) (values : List String) :
    listOf (together gap values) = values.flatMap listOf := by
  cases values with
  | nil => rfl
  | cons value values =>
      rw [listOf_eq_parts, together, Text.parts_intercalate blank (List.cons_ne_nil _ _),
        List.filter_flatMap, List.map_flatMap]
      rfl

/-- One field for extensions has the values of several, and the other fields are the same. -/
structure Joined (gap : String) (several single : Fields) : Prop where
  others : single.others = several.others
  line : single.valuesOf extensionsName =
    [Text.trimmed (together gap (several.valuesOf extensionsName))]

/-- Nothing that is asked of the fields of a head tells them apart. -/
structure Alike (fields fields' : Fields) : Prop where
  agree : fields.Agree fields'
  listed : fields.extensions = fields'.extensions

theorem Joined.ofLines {lines lines' : List (List Char)}
    (blank : ∀ c ∈ gap.toList, Text.isBlank c = true)
    (joined : Joined gap (inLines lines) (inLines lines')) :
    Alongside Alike (ofLines strict lines) (ofLines strict lines') := by
  rw [ofLines_eq_collect, ofLines_eq_collect]
  have listed {fields fields' : Fields} (found : collect strict (inLines lines) = .ok fields)
      (found' : collect strict (inLines lines') = .ok fields') :
      fields.extensions = fields'.extensions := by
    rw [(collected_of_collect found).listed, (collected_of_collect found').listed, joined.line,
      ← listOf_together blank]
    simp [listOf_trimmed]
  have alongside : Alongside Agree (collect strict (inLines lines))
      (collect strict (inLines lines')) := collect_of_others joined.others
  revert listed alongside
  generalize collect strict (inLines lines) = x
  generalize collect strict (inLines lines') = y
  intro listed alongside
  cases alongside with
  | refused problem => exact .refused problem
  | read agree => exact .read ⟨agree, listed rfl rfl⟩

end Fields

open Fields (inLines valuesOf together)

variable {gap : String} {first : List Char} {rest rest' : List (List Char)}

theorem Request.ofLines_of_joined (blank : ∀ c ∈ gap.toList, Text.isBlank c = true)
    (joined : Fields.Joined gap (inLines rest) (inLines rest')) :
    Request.ofLines (first :: rest) = Request.ofLines (first :: rest') := by
  rw [Request.ofLines, Request.ofLines]
  refine bind_congr fun path => (joined.ofLines blank).bind_eq fun fields fields' alike => ?_
  rw [alike.agree.checkUpgrade, alike.agree.require (by decide), alike.agree.require (by decide),
    alike.agree.require (by decide), alike.listed]

theorem Response.ofLines_of_joined (blank : ∀ c ∈ gap.toList, Text.isBlank c = true)
    (joined : Fields.Joined gap (inLines rest) (inLines rest')) :
    Response.ofLines (first :: rest) = Response.ofLines (first :: rest') := by
  rw [Response.ofLines, Response.ofLines]
  split
  · rfl
  · refine (joined.ofLines blank).bind_eq fun fields fields' alike => ?_
    rw [alike.agree.checkUpgrade, alike.agree.require (by decide), alike.listed]

/-! ## Heads -/

/-- One line for extensions holds in the second head what all of them hold in the first;
the first line and the other fields are the same, and these in the same order. -/
def Joins (gap : String) (several single : Bytes) : Prop :=
  ∃ text text' first rest rest', several = Bytes.ofText text ∧ single = Bytes.ofText text' ∧
    Text.lines text.toList = first :: rest ∧ Text.lines text'.toList = first :: rest' ∧
    Fields.Joined gap (inLines rest) (inLines rest')

/-- The two heads are read alike, and refused alike. -/
theorem Joins.parse_eq {several single : Bytes} (blank : ∀ c ∈ gap.toList, Text.isBlank c = true)
    (joins : Joins gap several single) :
    Request.parse several = Request.parse single ∧
      Response.parse several = Response.parse single := by
  obtain ⟨text, text', first, rest, rest', rfl, rfl, split, split', joined⟩ := joins
  rw [Request.parse, Request.parse, Response.parse_ofText split, Response.parse_ofText split',
    Bytes.toText?_ofText, Bytes.toText?_ofText]
  simp only [split, split']
  exact ⟨Request.ofLines_of_joined blank joined, Response.ofLines_of_joined blank joined⟩

/-- The entries for extensions that are read from a head, be it a request or a response. -/
inductive EntriesOf (head : Bytes) : List String → Prop
  | request {request : Request} (read : Request.parse head = .ok request) :
      EntriesOf head request.extensions
  | response {response : Response} (read : Response.parse head = .ok response) :
      EntriesOf head response.extensions

theorem EntriesOf.eq_flatMap {text : String} {entries : List String}
    (found : EntriesOf (Bytes.ofText text) entries)
    (split : Text.lines text.toList = first :: rest) :
    entries = ((inLines rest).valuesOf Fields.extensionsName).flatMap Fields.listOf := by
  cases found with
  | request read => exact ((Request.parse_ofText split).mp read).extensions
  | response read =>
      rw [Response.parse_ofText split] at read
      exact (Response.ofLines_eq_ok_iff.mp read).extensions

/-- A head in which the lines for extensions are joined in one is read as the head with all
of them, and refused as it is.  The entries that are read from a head are those of a line
with the values together.  If this line can be read as a whole, then every entry can be
read, they make the same list of offers, and the server answers as it would that list. -/
theorem repeated_lines_as_one (blank : ∀ c ∈ gap.toList, Text.isBlank c = true) :
    (∀ several single, Joins gap several single →
      Request.parse several = Request.parse single ∧
        Response.parse several = Response.parse single) ∧
    ∀ text first rest entries, Text.lines text.toList = first :: rest →
      EntriesOf (Bytes.ofText text) entries →
      let joined := together gap ((inLines rest).valuesOf Fields.extensionsName)
      entries = Fields.listOf joined ∧
        ∀ offers, Extension.Offer.parseHeader joined = .ok offers →
          entries.map Extension.Offer.parse = offers.map .ok ∧
            ∀ server : Server, server.agree entries =
              Extension.Agreement.negotiate server.settings offers := by
  refine ⟨fun several single => Joins.parse_eq blank, ?_⟩
  intro text first rest entries split found joined
  have listed : entries = Fields.listOf joined := by
    rw [found.eq_flatMap split, ← Fields.listOf_together blank]
  refine ⟨listed, fun offers whole => ?_⟩
  have each := Extension.Offer.map_parse_listOf whole
  rw [listed]
  refine ⟨each, fun server => ?_⟩
  rw [Server.agree, Extension.Offer.filterMap_parse each]

/-- Two lines whose names are written differently, with a field between them, and the head
in which one line stands for both behind all other fields. -/
theorem repeated_lines_as_one_offered :
    let fields := ["Host: a", "Upgrade: websocket", "Connection: Upgrade", "Sec-WebSocket-Key: k",
      "Sec-WebSocket-Version: 13"]
    let several := "SEC-WEBSOCKET-EXTENSIONS :x; b=\"1\",y" :: fields ++
      ["sec-websocket-extensions:\tpermessage-deflate; server_max_window_bits=10", ""]
    let single := fields ++ ["Sec-WebSocket-Extensions: x; b=\"1\",y, " ++
      "permessage-deflate; server_max_window_bits=10", ""]
    let head := Bytes.ofText (textOf ("GET /md5 HTTP/1.1" :: several))
    let other := Bytes.ofText (textOf ("GET /md5 HTTP/1.1" :: single))
    let request : Request := ⟨"/md5", "a", "k", 13,
      ["x; b=\"1\"", "y", "permessage-deflate; server_max_window_bits=10"]⟩
    Joins " " head other ∧ Request.parse head = .ok request ∧ Request.parse other = .ok request ∧
      request.extensions.map Extension.Offer.parse = [.ok ⟨"x", [.valued "b" "1"]⟩, .ok ⟨"y", []⟩,
        .ok ⟨"permessage-deflate", [.valued "server_max_window_bits" "10"]⟩] ∧
      Server.agree {} request.extensions = some ⟨false, false, 10, 15⟩ := by
  intro fields several single head other request
  have split : Text.lines (textOf ("GET /md5 HTTP/1.1" :: several)).toList =
      "GET /md5 HTTP/1.1".toList :: several.map String.toList := lines_textOf (by decide)
  have split' : Text.lines (textOf ("GET /md5 HTTP/1.1" :: single)).toList =
      "GET /md5 HTTP/1.1".toList :: single.map String.toList := lines_textOf (by decide)
  let named := [("host", "a"), ("upgrade", "websocket"), ("connection", "Upgrade"),
    ("sec-websocket-key", "k"), ("sec-websocket-version", "13")]
  have found : inLines (several.map String.toList) =
      ("sec-websocket-extensions", "x; b=\"1\",y") :: named ++
        [("sec-websocket-extensions", "permessage-deflate; server_max_window_bits=10")] := by
    decide
  have found' : inLines (single.map String.toList) = named ++ [("sec-websocket-extensions",
      "x; b=\"1\",y, permessage-deflate; server_max_window_bits=10")] := by
    decide
  have joins : Joins " " head other := by
    refine ⟨_, _, _, _, _, rfl, rfl, split, split', ?_, ?_⟩
    · rw [found, found']
      decide
    · rw [found, found']
      decide
  have read : Request.parse head = .ok request := by
    rw [Request.parse_ofText split, found]
    exact {
      line := by decide
      host := by decide
      upgrade := ⟨"websocket", by decide, by decide⟩
      connection := ⟨"Upgrade", by decide, Text.contains_iff.mp (by decide)⟩
      key := by decide
      version := ⟨"13", by decide, Text.Decimal.readBelow?_eq_some_iff.mp (by decide)⟩
      extensions := by decide }
  obtain ⟨alike, together⟩ := repeated_lines_as_one Text.isBlank_of_mem_space
  obtain ⟨-, whole⟩ := together _ _ _ _ split (.request read)
  have joined : Extension.Offer.parseHeader (Fields.together " "
      ((inLines (several.map String.toList)).valuesOf Fields.extensionsName)) =
        .ok [⟨"x", [.valued "b" "1"]⟩, ⟨"y", []⟩,
          ⟨"permessage-deflate", [.valued "server_max_window_bits" "10"]⟩] := by
    rw [found]
    decide +kernel
  obtain ⟨each, answered⟩ := whole _ joined
  refine ⟨joins, read, (alike _ _ joins).1.symm.trans read, each, (answered {}).trans ?_⟩
  decide +kernel

end DeflateTrial.Handshake
