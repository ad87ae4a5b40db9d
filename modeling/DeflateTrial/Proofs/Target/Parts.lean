/-
The parts of an address — what a target is read from

    ws://authority/path          the path may be left out

    authority        host    port
    h                h       80       no colon in h
    h:p              h       p        at the last colon
    [h]              h       80       at the first closing bracket
    [h]:p            h       p

The first slash behind the scheme begins the path, so a host has none.  An address of
these forms is read as the parts that it has (`Names`), and one more form is read: behind a
closing bracket anything may stand that does not begin with a colon, and the port is
then the usual one whatever this may be (`Trailing`).  No other text is an address
(`parse_eq_ok_iff_names`).
-/
import DeflateTrial.Proofs.Text.Cuts
import DeflateTrial.Proofs.Text.Numerals
import DeflateTrial.Target

namespace DeflateTrial

namespace Text

variable {sep : Char} {cs before after : List Char}

theorem eq_of_cutAt {sep before after : List Char} (cut : cutAt sep cs = some (before, after)) :
    cs = before ++ sep ++ after := by
  induction cs generalizing before with
  | nil =>
      unfold cutAt at cut
      split at cut
      · rename_i empty
        cases cut
        rw [List.isEmpty_iff.mp empty]
        rfl
      · cases cut
  | cons c cs ih =>
      unfold cutAt at cut
      split at cut
      · rename_i after' here
        cases cut
        exact dropStart?_eq_some.mp here
      · obtain ⟨⟨before', after'⟩, later, same⟩ := Option.map_eq_some_iff.mp cut
        cases same
        rw [ih later]
        rfl

theorem cutAt_append {more : List Char} (free : sep ∉ before) :
    cutAt (sep :: more) (before ++ (sep :: more) ++ after) = some (before, after) := by
  induction before with
  | nil =>
      have here : dropStart? (sep :: more) (sep :: more ++ after) = some after :=
        dropStart?_eq_some.mpr rfl
      rw [List.nil_append, List.cons_append, cutAt, ← List.cons_append, here]
  | cons c before ih =>
      rw [List.mem_cons, not_or] at free
      rw [List.cons_append, List.cons_append, cutAt, dropStart?, if_neg free.1]
      simp only
      rw [ih free.2]
      rfl

theorem dropStart?_of_head? (other : cs.head? ≠ some sep) : dropStart? [sep] cs = none := by
  cases cs with
  | nil => rfl
  | cons c cs => rw [dropStart?, if_neg fun same => other (congrArg some same.symm)]

theorem cutLast_eq_some_iff :
    cutLast sep cs = some (before, after) ↔ sep ∉ after ∧ cs = before ++ sep :: after := by
  rw [cutLast, Option.map_eq_some_iff]
  constructor
  · rintro ⟨⟨behind, front⟩, cut, same⟩
    cases same
    refine ⟨by simpa using not_mem_of_cutFirst cut, ?_⟩
    rw [← List.reverse_inj, eq_of_cutFirst cut]
    simp
  · rintro ⟨free, rfl⟩
    refine ⟨(after.reverse, before.reverse), ?_, by simp⟩
    have turned : (before ++ sep :: after).reverse =
        after.reverse ++ sep :: before.reverse := by simp
    rw [turned, cutFirst_append (by rwa [List.mem_reverse])]

theorem cutLast_eq_none_iff : cutLast sep cs = none ↔ sep ∉ cs := by
  constructor
  · intro uncut member
    obtain ⟨before, after, split, free⟩ :=
      List.eq_append_cons_of_mem (List.mem_reverse.mpr member)
    rw [cutLast, split, cutFirst_append free] at uncut
    cases uncut
  · intro free
    rw [cutLast, cutFirst_of_not_mem (by rwa [List.mem_reverse])]
    rfl

end Text

namespace Target

variable {url rest authority host text path : List Char} {port : Nat} {target : Target}

/-! ## The scheme -/

theorem afterScheme_eq_ok_iff : afterScheme url = .ok rest ↔
    ∃ scheme, Text.lower scheme = "ws".toList ∧ url = scheme ++ "://".toList ++ rest := by
  have small : Text.lower "ws".toList = "ws".toList := by decide
  have same {scheme : List Char} : Text.sameIgnoringCase scheme "ws".toList = true ↔
      Text.lower scheme = "ws".toList := by
    rw [Text.sameIgnoringCase, small, beq_iff_eq]
  constructor
  · intro h
    unfold afterScheme at h
    split at h
    · cases h
    · rename_i scheme rest' cut
      split at h
      · rename_i spoken
        cases h
        exact ⟨scheme, same.mp spoken, Text.eq_of_cutAt cut⟩
      · split at h <;> cases h
  · rintro ⟨scheme, spoken, rfl⟩
    have free : ':' ∉ scheme := by
      intro member
      have lowered : Char.toLower ':' ∈ "ws".toList := spoken ▸ List.mem_map_of_mem member
      exact absurd lowered (by decide)
    have cut : Text.cutAt "://".toList (scheme ++ "://".toList ++ rest) = some (scheme, rest) :=
      Text.cutAt_append free
    rw [afterScheme, cut]
    simp only [same.mpr spoken, if_true]

/-! ## The path -/

/-- A path that is left out is a slash. -/
inductive PathAs : (written path : List Char) → Prop
  | written (rest : List Char) : PathAs ('/' :: rest) ('/' :: rest)
  | omitted : PathAs [] ['/']

theorem splitPath_eq_iff : splitPath rest = (authority, path) ↔
    ∃ written, rest = authority ++ written ∧ '/' ∉ authority ∧ PathAs written path := by
  constructor
  · intro h
    rw [splitPath, Prod.mk.injEq] at h
    obtain ⟨rfl, read⟩ := h
    refine ⟨rest.dropWhile (· ≠ '/'), List.takeWhile_append_dropWhile.symm, ?_, ?_⟩
    · intro member
      have each := List.all_eq_true.mp (List.all_takeWhile (p := (· ≠ '/')) (l := rest)) _ member
      exact absurd each (by decide)
    · have first := List.head?_dropWhile_not (· ≠ '/') rest
      cases behind : rest.dropWhile (· ≠ '/') with
      | nil =>
          rw [behind] at read
          subst read
          exact .omitted
      | cons c more =>
          rw [behind] at read first
          subst read
          obtain rfl : c = '/' := by simpa using first
          exact .written more
  · rintro ⟨written, rfl, free, named⟩
    have clear : ∀ c ∈ authority, decide (c ≠ '/') = true := by
      intro c member
      rw [decide_eq_true_eq]
      rintro rfl
      exact free member
    rw [splitPath, List.takeWhile_append_of_pos clear, List.dropWhile_append_of_pos clear]
    cases named <;> simp

/-! ## The host and the port -/

/-- An authority is a host, or a host and a port that is a numeral; a host in brackets may
have colons in it. -/
inductive Names : (authority host : List Char) → (port : Nat) → Prop
  | host {host : List Char} (unbracketed : host.head? ≠ some '[') (undivided : ':' ∉ host) :
      Names host host usualPort
  | port {host text : List Char} {port : Nat} (unbracketed : host.head? ≠ some '[')
      (below : port < 65536) (numeral : Text.Decimal.Numeral text port) :
      Names (host ++ ':' :: text) host port
  | bracketed {host : List Char} (closed : ']' ∉ host) :
      Names ('[' :: (host ++ [']'])) host usualPort
  | bracketedPort {host text : List Char} {port : Nat} (closed : ']' ∉ host)
      (below : port < 65536) (numeral : Text.Decimal.Numeral text port) :
      Names ('[' :: (host ++ ']' :: ':' :: text)) host port

/-- Something that is no port stands behind the closing bracket. -/
def Trailing (authority host : List Char) : Prop :=
  ∃ tail, tail ≠ [] ∧ tail.head? ≠ some ':' ∧ ']' ∉ host ∧ authority = '[' :: (host ++ ']' :: tail)

theorem not_mem_of_numeral {c : Char} (numeral : Text.Decimal.Numeral text port) (sign : c ≠ '+')
    (digit : ∀ d < 10, c ≠ Text.Decimal.digit d) : c ∉ text := by
  obtain ⟨front, zeros, signed, rfl⟩ := numeral
  have digits : c ∉ Text.Decimal.digits port := Text.Decimal.not_mem_digits digit port
  have zero : c ∉ List.replicate zeros '0' :=
    fun member => digit 0 (by decide) (List.eq_of_mem_replicate member)
  rcases signed with rfl | rfl <;> simp [digits, zero, sign]

theorem portOf_none : portOf none = .ok port ↔ port = usualPort := by
  simp [portOf, eq_comm]

theorem portOf_some :
    portOf (some text) = .ok port ↔ port < 65536 ∧ Text.Decimal.Numeral text port := by
  rw [← Text.Decimal.readBelow?_eq_some_iff, portOf]
  cases Text.Decimal.readBelow? 65536 text <;> simp

theorem splitAuthority_of_unbracketed (unbracketed : authority.head? ≠ some '[') :
    splitAuthority authority = match Text.cutLast ':' authority with
      | some (host, port) => .ok (host, some port)
      | none => .ok (authority, none) := by
  unfold splitAuthority
  split
  · exact absurd rfl unbracketed
  · rfl

theorem splitAuthority_of_closed (closed : ']' ∉ host) (tail : List Char) :
    splitAuthority ('[' :: (host ++ ']' :: tail)) = .ok (host, Text.dropStart? [':'] tail) := by
  rw [splitAuthority, Text.cutFirst_append closed]

theorem names_of_closed {tail : List Char} (closed : ']' ∉ host)
    (read : portOf (Text.dropStart? [':'] tail) = .ok port) :
    Names ('[' :: (host ++ ']' :: tail)) host port ∨
      Trailing ('[' :: (host ++ ']' :: tail)) host ∧ port = usualPort := by
  by_cases colon : tail.head? = some ':'
  · obtain ⟨text, rfl⟩ := List.head?_eq_some_iff.mp colon
    obtain ⟨below, numeral⟩ := portOf_some.mp read
    exact .inl (.bracketedPort closed below numeral)
  · rw [Text.dropStart?_of_head? colon, portOf_none] at read
    by_cases nothing : tail = []
    · subst nothing read
      exact .inl (.bracketed closed)
    · exact .inr ⟨⟨tail, nothing, colon, closed, rfl⟩, read⟩

theorem names_of_unbracketed {text : Option (List Char)} (unbracketed : authority.head? ≠ some '[')
    (cut : splitAuthority authority = .ok (host, text)) (read : portOf text = .ok port) :
    Names authority host port := by
  rw [splitAuthority_of_unbracketed unbracketed] at cut
  split at cut
  · rename_i host' text' found
    cases cut
    obtain ⟨-, rfl⟩ := Text.cutLast_eq_some_iff.mp found
    obtain ⟨below, numeral⟩ := portOf_some.mp read
    refine .port (fun head => unbracketed ?_) below numeral
    rw [List.head?_append, head, Option.some_or]
  · rename_i uncut
    cases cut
    cases portOf_none.mp read
    exact .host unbracketed (Text.cutLast_eq_none_iff.mp uncut)

/-- What is read of an authority is what it names, or what stands in brackets before
something that is passed over. -/
theorem splitAuthority_portOf_iff :
    (∃ text, splitAuthority authority = .ok (host, text) ∧ portOf text = .ok port) ↔
      Names authority host port ∨ Trailing authority host ∧ port = usualPort := by
  constructor
  · rintro ⟨text, cut, read⟩
    by_cases bracketed : authority.head? = some '['
    · obtain ⟨inner, rfl⟩ := List.head?_eq_some_iff.mp bracketed
      by_cases closed : ']' ∈ inner
      · obtain ⟨host', tail, rfl, free⟩ := List.eq_append_cons_of_mem closed
        rw [splitAuthority_of_closed free] at cut
        cases cut
        exact names_of_closed free read
      · rw [splitAuthority, Text.cutFirst_of_not_mem closed] at cut
        cases cut
    · exact .inl (names_of_unbracketed bracketed cut read)
  · rintro (names | ⟨⟨tail, -, other, closed, rfl⟩, rfl⟩)
    · cases names with
      | host unbracketed undivided =>
          exact ⟨none, by rw [splitAuthority_of_unbracketed unbracketed,
            Text.cutLast_eq_none_iff.mpr undivided], portOf_none.mpr rfl⟩
      | @port _ text _ unbracketed below numeral =>
          have last : ':' ∉ text := not_mem_of_numeral numeral (by decide) (by decide)
          have front : (host ++ ':' :: text).head? ≠ some '[' := by
            cases host with
            | nil => simp
            | cons c host => exact unbracketed
          exact ⟨some text, by rw [splitAuthority_of_unbracketed front,
            Text.cutLast_eq_some_iff.mpr ⟨last, rfl⟩], portOf_some.mpr ⟨below, numeral⟩⟩
      | bracketed closed => exact ⟨none, splitAuthority_of_closed closed [], portOf_none.mpr rfl⟩
      | @bracketedPort _ text _ closed below numeral =>
          exact ⟨some text, splitAuthority_of_closed closed _, portOf_some.mpr ⟨below, numeral⟩⟩
    · have cut := splitAuthority_of_closed closed tail
      rw [Text.dropStart?_of_head? other] at cut
      exact ⟨none, cut, portOf_none.mpr rfl⟩

theorem not_names_of_trailing (trailing : Trailing authority host) :
    ¬ Names authority host port := by
  obtain ⟨tail, some_, other, -, split⟩ := trailing
  intro names
  cases names with
  | host unbracketed => exact unbracketed (by rw [split]; rfl)
  | port unbracketed =>
      cases host with
      | nil => cases split
      | cons c host => exact unbracketed (congrArg some (List.cons.inj split).1)
  | bracketed => exact some_ (by simpa using split.symm)
  | bracketedPort =>
      obtain rfl : _ = tail := by simpa using split
      exact other rfl

theorem Names.slash_mem_iff (names : Names authority host port) : '/' ∈ authority ↔ '/' ∈ host := by
  cases names with
  | host => exact Iff.rfl
  | port _ _ numeral =>
      have free := not_mem_of_numeral (c := '/') numeral (by decide) (by decide)
      simp [free]
  | bracketed => simp
  | bracketedPort _ _ numeral =>
      have free := not_mem_of_numeral (c := '/') numeral (by decide) (by decide)
      simp [free]

/-! ## All parts -/

theorem ofChars_eq_ok_iff : ofChars url = .ok target ↔ ∃ scheme path text,
    Text.lower scheme = "ws".toList ∧
    url = scheme ++ "://".toList ++ (target.authority.toList ++ path) ∧
    '/' ∉ target.authority.toList ∧ PathAs path target.path.toList ∧
    splitAuthority target.authority.toList = .ok (target.host.toList, text) ∧
    target.host.toList ≠ [] ∧ portOf text = .ok target.port := by
  constructor
  · intro h
    unfold ofChars at h
    obtain ⟨rest, spoken, h⟩ := exists_of_bind_ok h
    rcases parts : splitPath rest with ⟨authority, path⟩
    rw [parts] at h
    obtain ⟨⟨host, text⟩, cut, h⟩ := exists_of_bind_ok h
    simp only at h
    split at h
    · cases h
    · rename_i filled
      obtain ⟨port, named, h⟩ := exists_of_bind_ok h
      cases h
      obtain ⟨scheme, same, rfl⟩ := afterScheme_eq_ok_iff.mp spoken
      obtain ⟨written, rfl, free, shown⟩ := splitPath_eq_iff.mp parts
      simp only [String.toList_ofList]
      exact ⟨scheme, written, text, same, rfl, free, shown, cut, by simpa using filled, named⟩
  · rintro ⟨scheme, path, text, same, rfl, free, shown, cut, filled, named⟩
    have spoken := afterScheme_eq_ok_iff.mpr
      ⟨scheme, same, (rfl : scheme ++ "://".toList ++ (target.authority.toList ++ path) = _)⟩
    have parts := splitPath_eq_iff.mpr ⟨path, rfl, free, shown⟩
    have some_ : target.host.toList.isEmpty = false := List.isEmpty_eq_false_iff.mpr filled
    rw [ofChars, spoken]
    simp only [bind, Except.bind, parts, cut, some_, named, Bool.false_eq_true, if_false, pure,
      Except.pure, String.ofList_toList]

theorem parse_eq_ok_iff {url : String} :
    parse url = .ok target ↔ ofChars url.toList = .ok target := by
  rw [parse]
  cases ofChars url.toList <;> simp

/-- An address is the scheme in any letter case, an authority that names a host and perhaps a
port, and perhaps a path; then these are what is read.  What stands behind a closing
bracket and does not begin with a colon is passed over, whatever it is.  Nothing else is
read as an address. -/
theorem parse_eq_ok_iff_names (url : String) (target : Target) :
    parse url = .ok target ↔ ∃ scheme path,
      Text.lower scheme = "ws".toList ∧
      url.toList = scheme ++ "://".toList ++ (target.authority.toList ++ path) ∧
      PathAs path target.path.toList ∧ target.host ≠ "" ∧
      ('/' ∉ target.host.toList ∧ Names target.authority.toList target.host.toList target.port ∨
        '/' ∉ target.authority.toList ∧
          Trailing target.authority.toList target.host.toList ∧ target.port = usualPort) := by
  have filled : target.host.toList ≠ [] ↔ target.host ≠ "" := by simp
  rw [parse_eq_ok_iff, ofChars_eq_ok_iff]
  constructor
  · rintro ⟨scheme, path, text, same, split, free, shown, cut, some_, named⟩
    refine ⟨scheme, path, same, split, shown, filled.mp some_, ?_⟩
    rcases splitAuthority_portOf_iff.mp ⟨text, cut, named⟩ with names | trailing
    · exact .inl ⟨fun slash => free (names.slash_mem_iff.mpr slash), names⟩
    · exact .inr ⟨free, trailing⟩
  · rintro ⟨scheme, path, same, split, shown, some_, read⟩
    obtain ⟨free, read⟩ : '/' ∉ target.authority.toList ∧
        (Names target.authority.toList target.host.toList target.port ∨
          Trailing target.authority.toList target.host.toList ∧ target.port = usualPort) := by
      rcases read with ⟨free, names⟩ | ⟨free, trailing⟩
      · exact ⟨fun slash => free (names.slash_mem_iff.mp slash), .inl names⟩
      · exact ⟨free, .inr trailing⟩
    obtain ⟨text, cut, named⟩ := splitAuthority_portOf_iff.mpr read
    exact ⟨scheme, path, text, same, split, free, shown, cut, filled.mpr some_, named⟩

/-- A port that is written behind a closing bracket without a colon is not used. -/
theorem reads_trailing :
    parse "ws://[::1]9100/" = .ok ⟨"::1", 80, "[::1]9100", "/"⟩ ∧
      ∀ port, ¬ Names "[::1]9100".toList "::1".toList port :=
  ⟨by decide +kernel, fun _ =>
    not_names_of_trailing ⟨"9100".toList, by decide, by decide, by decide, by decide⟩⟩

end Target

end DeflateTrial
