/-
Addresses — a server is found where it says that it can be found

The address that a server gives out names its socket; with the name of an
endpoint behind it, it is read as the socket's host and port and the
endpoint's path (`parse_urlOf`).
-/
import DeflateTrial.Listening
import DeflateTrial.Proofs.Target.Parts
import DeflateTrial.Scenario

namespace DeflateTrial

namespace ListeningAddress

/-- A host that can be named in an address: as it is, or in brackets. -/
inductive Host : (written bare : List Char) → Prop
  | plain {c : Char} {host : List Char} (bare : c ≠ '[') : Host (c :: host) (c :: host)
  | bracketed {host : List Char} (filled : host ≠ []) (free : ']' ∉ host) :
      Host ('[' :: (host ++ [']'])) host

theorem Host.bare_ne_nil {written bare : List Char} (host : Host written bare) : bare ≠ [] := by
  cases host with
  | plain _ => exact List.cons_ne_nil _ _
  | bracketed filled _ => exact filled

/-- A socket that can be reached by its name, as those that a system binds
are: numbers with dots, or a literal in brackets, and a port of two bytes. -/
structure Reachable (address : ListeningAddress) (bare : String) : Prop where
  host : Host address.host.toList bare.toList
  clear : ∀ c ∈ address.host.toList, Text.isBlank c = false ∧ c ≠ '/'
  short : address.host.length ≤ 90
  port : address.port < 65536

end ListeningAddress

namespace Target

open ListeningAddress (Host)

theorem names_host {written bare : List Char} (host : Host written bare) {port : Nat}
    (below : port < 65536) : Names (written ++ ':' :: Text.Decimal.digits port) bare port := by
  have numeral := Text.Decimal.numeral_digits port
  cases host with
  | plain other => exact .port (fun head => other (Option.some.inj head)) below numeral
  | bracketed filled closed =>
      rw [List.cons_append, List.append_assoc]
      exact .bracketedPort closed below numeral

/-- The name of an endpoint at the address of a server leads to that server's socket. -/
theorem parse_urlOf {address : ListeningAddress} {bare : String}
    (reachable : address.Reachable bare) {path : String} :
    parse (ListeningAddress.urlOf address.name ++ path) =
      .ok ⟨bare, address.port, address.name, "/" ++ path⟩ := by
  have name : address.name.toList =
      address.host.toList ++ ':' :: (Text.Decimal.write address.port).toList := by
    simp only [ListeningAddress.name, String.toList_append, List.append_assoc]
    rfl
  rw [Text.Decimal.write, String.toList_ofList] at name
  have free : '/' ∉ address.name.toList := by
    rw [name, List.mem_append, List.mem_cons]
    rintro (h | h | h)
    · exact (reachable.clear _ h).2 rfl
    · exact absurd h (by decide)
    · exact not_mem_of_numeral (Text.Decimal.numeral_digits _) (by decide) (by decide) h
  obtain ⟨text, cut, named⟩ := splitAuthority_portOf_iff.mpr
    (.inl (name ▸ names_host reachable.host reachable.port))
  have shown : ("/" ++ path).toList = '/' :: path.toList := by
    rw [String.toList_append]
    rfl
  refine parse_eq_ok_iff.mpr (ofChars_eq_ok_iff.mpr ⟨"ws".toList, '/' :: path.toList, text,
    by decide, ?_, free, shown ▸ .written _, cut, reachable.host.bare_ne_nil, named⟩)
  simp only [ListeningAddress.urlOf, String.toList_append, List.append_assoc]
  rfl

end Target

end DeflateTrial
