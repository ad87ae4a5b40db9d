/-
Round trip — what goes out in a head comes in as it was meant

A request and its response go through line ends, colons, commas and white
space, and none of these can stand where it would change what the head says:
a value without line ends stays in its line, only the first colon of a line
counts, the white space around a value or a part is not part of it, and the
extensions come as one list however many lines they have.

The content is `reads_as_written`: the server reads what the client asks, and
whatever extensions it answers with, the client reads these and takes the
answer for one to its own key.
-/
import DeflateTrial.Proofs.Handshake.Exchange

namespace DeflateTrial.Handshake

/-- A blank line stands at the end of the bytes, and nowhere else in them. -/
def EndsAtBlankLine (bytes : Bytes) : Prop :=
  (∃ before, bytes = before ++ blankLine) ∧
    ∀ before after, bytes = before ++ blankLine ++ after → after = []

theorem endsAtBlankLine_of_headSize? {bytes : Bytes} (h : headSize? bytes = some bytes.length) :
    EndsAtBlankLine bytes := by
  constructor
  · obtain ⟨before, taken⟩ := exists_take_of_headSize? h
    exact ⟨before, by rw [← taken, List.take_length]⟩
  · intro before after split
    obtain ⟨size, found⟩ := exists_headSize?_append_blankLine before
    have within := (le_of_headSize? found).2
    have again := headSize?_append after found
    rw [← split, h, Option.some.injEq] at again
    rw [← again, split, List.length_append] at within
    exact List.eq_nil_of_length_eq_zero (by omega)

/-- A request that can be sent, with a key that has no white space around it,
is written, ends at its only blank line, and is read as it was meant: the same
path and key, the host without the white space around it, the version, and the
parts of the offer.  Whatever entries without line ends are answered, the
response is written too, and is read as the accept value of the key and the
parts of all entries in their order. -/
theorem reads_as_written {request : ClientRequest} (sendable : request.Sendable)
    (bare : Text.Trimmed request.key.toList) :
    ∃ head received, request.write = (head, .ok ()) ∧ EndsAtBlankLine (Bytes.ofText head) ∧
      Request.parse (Bytes.ofText head) = .ok received ∧
      received = ⟨request.path, Text.trimmed request.host, request.key, 13,
        (request.extensions.map Fields.listOf).getD []⟩ ∧
      ∀ entries : List String, (∀ entry ∈ entries, Text.Unbroken entry) →
        ∃ answer response,
          ({ Response.ofRequest received with extensions := entries }).write = (answer, .ok ()) ∧
          EndsAtBlankLine (Bytes.ofText answer) ∧
          Response.parse (Bytes.ofText answer) = .ok response ∧
          response = ⟨acceptFor request.key, entries.flatMap Fields.listOf⟩ ∧
          response.verify request.key = .ok () := by
  have offer : ((request.extensions.map Text.trimmed).map Fields.listOf).getD [] =
      (request.extensions.map Fields.listOf).getD [] := by
    cases request.extensions with
    | none => rfl
    | some value => simp only [Option.map_some, Option.getD_some, Fields.listOf_trimmed]
  have asked := ClientRequest.parse_texts sendable
  rw [Text.trimmed_eq bare, offer] at asked
  have ends := headSize?_ofText (List.cons_ne_nil _ _) (ClientRequest.solid_texts sendable)
  refine ⟨_, _, ClientRequest.write_ok sendable.writable, endsAtBlankLine_of_headSize? ends, asked,
    rfl, ?_⟩
  intro entries unbroken
  obtain ⟨whole, same⟩ := trimmed_acceptFor request.key
  have granted := Response.parse_textsOf whole unbroken
  rw [same] at granted
  have ends := headSize?_ofText (List.cons_ne_nil _ _) (Response.solid_textsOf whole unbroken)
  exact ⟨_, _, Response.write_textsOf unbroken, endsAtBlankLine_of_headSize? ends, granted, rfl,
    if_pos rfl⟩

/-- Colons in the host and the key, white space and empty parts in the offer,
and an answer in three lines, one of them empty and one with two parts. -/
theorem reads_as_written_lists :
    let request : ClientRequest := ⟨" [::1]:80\t", "/md5?a:b", "k:e,y", some " a; b=1 ,, c\u2003"⟩
    let entries := ["x , y", "", "z"]
    request.Sendable ∧ Text.Trimmed request.key.toList ∧
      (∀ entry ∈ entries, Text.Unbroken entry) ∧
    ∃ head received, request.write = (head, .ok ()) ∧ EndsAtBlankLine (Bytes.ofText head) ∧
      Request.parse (Bytes.ofText head) = .ok received ∧
      received = ⟨"/md5?a:b", "[::1]:80", "k:e,y", 13, ["a; b=1", "c"]⟩ ∧
      ∃ answer, ({ Response.ofRequest received with extensions := entries }).write =
          (answer, .ok ()) ∧
        Response.parse (Bytes.ofText answer) = .ok ⟨acceptFor "k:e,y", ["x", "y", "z"]⟩ := by
  intro request entries
  have solid : ∀ cs : List Char, (cs.all fun c => !Text.isBlank c) = true →
      ∀ c ∈ cs, Text.isBlank c = false := by
    intro cs all c h
    simpa using List.all_eq_true.mp all c h
  have path : request.path.toList ≠ [] := by decide
  have sendable : request.Sendable :=
    ⟨by decide, ⟨path, solid _ (by decide)⟩, by decide, by decide⟩
  have bare : Text.Trimmed request.key.toList := Text.trimmed_of_forall (solid _ (by decide))
  have unbroken : ∀ entry ∈ entries, Text.Unbroken entry := by decide
  obtain ⟨head, received, written, ends, parsed, same, answers⟩ := reads_as_written sendable bare
  obtain ⟨answer, response, answered, -, read, same', -⟩ := answers entries unbroken
  refine ⟨sendable, bare, unbroken, head, received, written, ends, parsed, same.trans ?_, answer,
    answered, ?_⟩
  · decide
  · have listed : entries.flatMap Fields.listOf = ["x", "y", "z"] := by decide
    rw [read, same', listed]

end DeflateTrial.Handshake
