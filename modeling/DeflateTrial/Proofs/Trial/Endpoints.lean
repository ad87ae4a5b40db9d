/-
Endpoints — the addresses of the scenarios stay on the server that was named

    address of the trial     ws://h:1       ws://h:1/     ws://h:1/a       ws://h:1/a/
    address of a scenario    ws://h:1/md5   the same      ws://h:1/a/md5   the same

A slash and a name behind an address do not move the place where its path begins: either
the path is written, and both stand in it, or it is left out, and the slash begins it
(`Target.exists_front_of_parse`).  So host, port and authority are read as before, and the
path is completed by the name (`Trial.parse_url_of_against`).
-/
import DeflateTrial.Proofs.Target.Parts
import DeflateTrial.Trial.Basic
import Mathlib.Data.List.Basic

namespace DeflateTrial

namespace Trial

variable {address front path : String}

theorem completed_of_slash (slash : address.toList.getLast? = some '/') :
    completed address = address :=
  if_pos slash

theorem completed_of_no_slash (none : address.toList.getLast? ≠ some '/') :
    completed address = address ++ "/" :=
  if_neg none

theorem completed_completed (address : String) :
    completed (completed address) = completed address := by
  by_cases slash : address.toList.getLast? = some '/'
  · rw [completed_of_slash slash, completed_of_slash slash]
  · rw [completed_of_no_slash slash]
    exact completed_of_slash (by simp)

theorem completed_append (some_ : path ≠ "") :
    completed (front ++ path) = front ++ completed path := by
  have filled : path.toList ≠ [] := by simpa using some_
  have last : (front ++ path).toList.getLast? = path.toList.getLast? := by
    rw [String.toList_append, List.getLast?_append_of_ne_nil _ filled]
  by_cases slash : path.toList.getLast? = some '/'
  · rw [completed_of_slash slash, completed_of_slash (last.trans slash)]
  · rw [completed_of_no_slash slash, completed_of_no_slash (last.symm ▸ slash), String.append_assoc]

theorem head?_completed (first : path.toList.head? = some '/') :
    (completed path).toList.head? = some '/' := by
  unfold completed
  split
  · exact first
  · rw [String.toList_append, List.head?_append, first, Option.some_or]

end Trial

namespace Target

open Trial (completed)

variable {address : String} {target : Target}

theorem PathAs.head? {written path : List Char} (shown : PathAs written path) :
    path.head? = some '/' := by
  cases shown <;> rfl

theorem authority_ne_nil {authority host : List Char} {port : Option (List Char)}
    (cut : splitAuthority authority = .ok (host, port)) (filled : host ≠ []) : authority ≠ [] := by
  rintro rfl
  have empty : splitAuthority [] = .ok ([], none) := rfl
  cases empty.symm.trans cut
  exact filled rfl

/-- What stands before the path of an address names the server, whatever the path is. -/
theorem exists_front_of_parse (read : parse address = .ok target) :
    target.path.toList.head? = some '/' ∧
    ∃ front, completed address = front ++ completed target.path ∧
      ∀ path : String, path.toList.head? = some '/' →
        parse (front ++ path) = .ok { target with path } := by
  obtain ⟨scheme, path, text, same, split, free, shown, cut, filled, named⟩ :=
    ofChars_eq_ok_iff.mp (parse_eq_ok_iff.mp read)
  refine ⟨shown.head?, String.ofList (scheme ++ "://".toList ++ target.authority.toList), ?_, ?_⟩
  · have whole : address = String.ofList (scheme ++ "://".toList ++ target.authority.toList) ++
        String.ofList path := by
      rw [← String.toList_inj, split]
      simp only [String.toList_append, String.toList_ofList, List.append_assoc]
    generalize written : target.path.toList = chars at shown
    cases shown with
    | written rest =>
        have same_ : String.ofList ('/' :: rest) = target.path := by
          rw [← written, String.ofList_toList]
        have some_ : target.path ≠ "" := by
          rw [← same_, ne_eq, String.ofList_eq_empty_iff]
          exact List.cons_ne_nil _ _
        rw [whole, same_, Trial.completed_append some_]
    | omitted =>
        have slash : target.path = "/" := by
          rw [← String.toList_inj, written]
          rfl
        have last : address.toList.getLast? ≠ some '/' := by
          have solid := authority_ne_nil cut filled
          rw [split, List.append_nil, List.getLast?_append_of_ne_nil _ solid]
          exact fun last => free (List.mem_of_getLast? last)
        rw [Trial.completed_of_no_slash last, slash, Trial.completed_of_slash (by decide), whole]
        simp
  · intro path' first
    obtain ⟨rest, begins⟩ := List.head?_eq_some_iff.mp first
    have shown' : PathAs path'.toList path'.toList := by
      rw [begins]
      exact .written rest
    refine parse_eq_ok_iff.mpr (ofChars_eq_ok_iff.mpr
      ⟨scheme, path'.toList, text, same, ?_, free, shown', cut, filled, named⟩)
    simp only [String.toList_append, String.toList_ofList, List.append_assoc]

end Target

namespace Trial

variable {address : String} {trial : Trial}

theorem against_eq_ok_iff : against address = .ok trial ↔
    (∃ target, Target.parse address = .ok target) ∧
      trial = ⟨completed address, usualConfigurations, Scenario.all, usualExponent⟩ := by
  unfold against
  cases Target.parse address <;> simp [eq_comm]

/-- The address of each scenario is read as the host, the port and the authority of the
address that was given, and as its path with the name of the scenario behind the slash
that ends it.  The trial is the same if that slash was given as well. -/
theorem parse_url_of_against (accepted : against address = .ok trial) :
    (∃ target, Target.parse address = .ok target ∧ ∀ scenario,
      Target.parse (trial.url scenario) =
        .ok { target with path := completed target.path ++ scenario.path }) ∧
    (address.toList.getLast? ≠ some '/' → against (address ++ "/") = .ok trial) := by
  obtain ⟨⟨target, read⟩, rfl⟩ := against_eq_ok_iff.mp accepted
  obtain ⟨first, front, whole, onward⟩ := Target.exists_front_of_parse read
  have begins := head?_completed first
  constructor
  · refine ⟨target, read, fun scenario => ?_⟩
    rw [url, whole, String.append_assoc]
    apply onward
    rw [String.toList_append, List.head?_append, begins, Option.some_or]
  · intro open_
    rw [← completed_of_no_slash open_, against_eq_ok_iff, completed_completed]
    exact ⟨⟨_, whole ▸ onward _ begins⟩, rfl⟩

/-- A host in brackets, a port with a sign, and a path that does not end in a slash. -/
theorem parse_url_of_against_path :
    let address := "WS://[::1]:+80/a?b"
    let trial : Trial := ⟨address ++ "/", usualConfigurations, Scenario.all, usualExponent⟩
    against address = .ok trial ∧
      Target.parse address = .ok ⟨"::1", 80, "[::1]:+80", "/a?b"⟩ ∧
      Target.parse (trial.url .hashCheck) = .ok ⟨"::1", 80, "[::1]:+80", "/a?b/md5"⟩ ∧
      against (address ++ "/") = .ok trial := by
  intro address trial
  have read : Target.parse address = .ok ⟨"::1", 80, "[::1]:+80", "/a?b"⟩ := by decide +kernel
  have accepted : against address = .ok trial := against_eq_ok_iff.mpr ⟨⟨_, read⟩, by decide⟩
  obtain ⟨⟨target, read', each⟩, again⟩ := parse_url_of_against accepted
  cases read.symm.trans read'
  exact ⟨accepted, read, each .hashCheck, again (by decide)⟩

end Trial

end DeflateTrial
