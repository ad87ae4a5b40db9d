/-
Sequence — a trial is its pairs, one after the other, up to the first failure

What a run has to be is said apart from how it is run (`Course`): a trial that
is not sound asks for no session and only reports that; any other goes through
its pairs configuration by configuration, and stops at the first session that
does not open, or at the first payload that is not answered.  What is sent in a
session are its payloads, one of each exponent from nought on (`Script.postedIn`).
A payload is answered if it can be made up and sent and the event that is due
for it is a message with just the right bytes (`Script.Answered`).

The run is computed from the inside out, on any script: one payload
(`perform_roundTrip`), the payloads of a session up to the first that is not
answered, a pair (`perform_runPair_ok` and its two neighbours), and the pairs
by induction (`perform_completedAll`, `perform_pairs_error`).
-/
import DeflateTrial.Proofs.Trial.Steps
import DeflateTrial.Trial.Script
import Mathlib.Algebra.Group.Nat.Defs

namespace DeflateTrial.Trial

/-! ## What a run has to be -/

/-- A trial that is not sound: it does not fill a window that it asks for, or
its payloads cannot be counted. -/
def Unsound (trial : Trial) : Prop :=
  (∃ configuration ∈ trial.configurations, configuration.enabled = true ∧
    (trial.maxExponent < configuration.serverWindowBits.getD 15 ∨
      trial.maxExponent < configuration.clientWindowBits.getD 15)) ∨
  64 ≤ trial.maxExponent

/-- What is reported of a scenario up to its last payload so far. -/
def begun (configuration : Configuration) (scenario : Scenario) (exponent : Nat) : List Report :=
  .started scenario configuration :: (List.range (exponent + 1)).map (.payload scenario)

/-- What is reported of a scenario that is finished. -/
def finished (trial : Trial) (pair : Configuration × Scenario) : List Report :=
  begun pair.1 pair.2 trial.maxExponent ++ [.finished pair.2 pair.1]

/-- The session that a pair asks for. -/
def asking (trial : Trial) (pair : Configuration × Scenario) : String × Configuration :=
  (trial.url pair.2, pair.1)

namespace Script

/-- The payload of an exponent, from what the random source gives. -/
def payloadOf (byteAt : Nat → UInt8) (exponent : Nat) : Bytes :=
  (List.range (2 ^ exponent)).map byteAt

/-- The message that a session is given for an exponent: the payload, if it can be made up. -/
def postedAt (script : Script) (session exponent : Nat) : List (Nat × Bytes) :=
  match script.random session exponent with
  | .ok byteAt => [(session, payloadOf byteAt exponent)]
  | .error _ => []

/-- The messages that a session is given for the exponents below some number, in order. -/
def postedIn (script : Script) (session total : Nat) : List (Nat × Bytes) :=
  (List.range total).flatMap (script.postedAt session)

/-- The messages of some sessions that go through all exponents, from the first session on. -/
def postedThrough (script : Script) (trial : Trial) (sessions : List Nat) : List (Nat × Bytes) :=
  sessions.flatMap fun session => script.postedIn session (trial.maxExponent + 1)

/-- The payload of an exponent is sent, and the event in its place after the
opening is a message with just the bytes that are due. -/
def Answered (script : Script) (scenario : Scenario) (session exponent : Nat) : Prop :=
  ∃ byteAt isBinary, script.random session exponent = .ok byteAt ∧
    script.sending session exponent = .ok () ∧
    (script.events session)[exponent]? =
      some (.message (scenario.due (payloadOf byteAt exponent)) isBinary)

/-- What the event in a payload's place means for the payload. -/
def verdict (scenario : Scenario) (payload : Bytes) : Option Event → Except Trouble Unit
  | some (.message data _) => scenario.check payload data
  | some (.error cause) => .error (.connection cause)
  | some other => .error (.unexpectedEvent .message other.kind)
  | none => .error (.connection (.connectionClosed none))

/-- What a payload comes to: the first thing that goes wrong with it, if any does. -/
def fate (script : Script) (scenario : Scenario) (session exponent : Nat) :
    Except Trouble Unit :=
  (script.random session exponent).bind fun byteAt =>
    (script.sending session exponent).bind fun _ =>
      verdict scenario (payloadOf byteAt exponent) (script.events session)[exponent]?

/-- The session of a number opens, and all its payloads are answered. -/
def Completed (script : Script) (trial : Trial) (session : Nat) (scenario : Scenario) : Prop :=
  script.opening session = .ok () ∧
    ∀ exponent ≤ trial.maxExponent, script.Answered scenario session exponent

/-- The pairs of a list are completed in the sessions from some number on. -/
def CompletedAll (script : Script) (trial : Trial) (session : Nat)
    (pairs : List (Configuration × Scenario)) : Prop :=
  ∀ i pair, pairs[i]? = some pair → script.Completed trial (session + i) pair.2

end Script

open Script in
/-- The courses that a trial may take on a script: how it ends, the sessions
it asks for, the messages that it gives to be sent, and its reports. -/
inductive Course (script : Script) (trial : Trial) :
    Except Failure Unit → List (String × Configuration) → List (Nat × Bytes) → List Report → Prop
  /-- It is not sound, and nothing is tried. -/
  | unsound {failure : Failure} {what : String} (unsound : trial.Unsound)
      (config : failure.trouble = .config what) (early : failure.exponent = none) :
      Course script trial (.error failure) [] [] [.failed failure]
  /-- A session does not open. -/
  | refused {before after : List (Configuration × Scenario)} {configuration : Configuration}
      {scenario : Scenario} {trouble : Trouble} (sound : ¬ trial.Unsound)
      (split : trial.pairs = before ++ (configuration, scenario) :: after)
      (done : script.CompletedAll trial 0 before)
      (closed : script.opening before.length = .error trouble) :
      Course script trial (.error ⟨scenario, configuration, none, trouble⟩)
        ((before ++ [(configuration, scenario)]).map trial.asking)
        (script.postedThrough trial (List.range before.length))
        (before.flatMap trial.finished ++ [.failed ⟨scenario, configuration, none, trouble⟩])
  /-- A payload is not answered. -/
  | stopped {before after : List (Configuration × Scenario)} {configuration : Configuration}
      {scenario : Scenario} {exponent : Nat} {trouble : Trouble} (sound : ¬ trial.Unsound)
      (split : trial.pairs = before ++ (configuration, scenario) :: after)
      (done : script.CompletedAll trial 0 before)
      (opens : script.opening before.length = .ok ())
      (within : exponent ≤ trial.maxExponent)
      (answered : ∀ smaller < exponent, script.Answered scenario before.length smaller)
      (unanswered : ¬ script.Answered scenario before.length exponent)
      (why : script.fate scenario before.length exponent = .error trouble) :
      Course script trial (.error ⟨scenario, configuration, some exponent, trouble⟩)
        ((before ++ [(configuration, scenario)]).map trial.asking)
        (script.postedThrough trial (List.range before.length) ++
          script.postedIn before.length (exponent + 1))
        (before.flatMap trial.finished ++ begun configuration scenario exponent ++
          [.failed ⟨scenario, configuration, some exponent, trouble⟩])
  /-- Every pair is completed. -/
  | passed (sound : ¬ trial.Unsound) (done : script.CompletedAll trial 0 trial.pairs) :
      Course script trial (.ok ()) (trial.pairs.map trial.asking)
        (script.postedThrough trial (List.range trial.pairs.length))
        (trial.pairs.flatMap trial.finished ++ [.passed])

/-- The report of how a run ended. -/
def closing : Except Failure Unit → Report
  | .ok () => .passed
  | .error failure => .failed failure

/-! ## One payload -/

namespace Script

variable {script : Script} {trial : Trial} {configuration : Configuration} {scenario : Scenario}
  {session exponent : Nat}

theorem verdict_eq_ok_iff {payload : Bytes} {event : Option Event} :
    verdict scenario payload event = .ok () ↔
      ∃ isBinary, event = some (.message (scenario.due payload) isBinary) := by
  rcases event with _ | event
  · exact ⟨nofun, fun ⟨_, h⟩ => nomatch h⟩
  · cases event with
    | message data isBinary =>
        rw [verdict, Scenario.check]
        by_cases right : data = scenario.due payload
        · rw [if_pos right, right]
          exact ⟨fun _ => ⟨isBinary, rfl⟩, fun _ => rfl⟩
        · rw [if_neg right]
          exact ⟨nofun, fun ⟨_, h⟩ => absurd (by cases h; rfl) right⟩
    | «open» => exact ⟨nofun, fun ⟨_, h⟩ => nomatch h⟩
    | close status => exact ⟨nofun, fun ⟨_, h⟩ => nomatch h⟩
    | error cause => exact ⟨nofun, fun ⟨_, h⟩ => nomatch h⟩

theorem fate_eq_ok_iff : script.fate scenario session exponent = .ok () ↔
    script.Answered scenario session exponent := by
  rw [fate, Answered]
  cases script.random session exponent with
  | error trouble => exact ⟨nofun, fun ⟨_, _, h, _⟩ => nomatch h⟩
  | ok byteAt =>
      cases script.sending session exponent with
      | error trouble => exact ⟨nofun, fun ⟨_, _, _, h, _⟩ => nomatch h⟩
      | ok _ =>
          refine verdict_eq_ok_iff.trans ⟨?_, ?_⟩
          · rintro ⟨isBinary, due⟩
            exact ⟨byteAt, isBinary, rfl, rfl, due⟩
          · rintro ⟨_, isBinary, same, -, due⟩
            cases same
            exact ⟨isBinary, due⟩

/-- A session after some payloads and their replies. -/
def connAt (script : Script) (session exponent : Nat) : Conn :=
  ⟨session, exponent,
    { queueOf (script.events session) with events := (script.events session).drop exponent }⟩

/-- The same session when the next payload has been sent, before its reply. -/
def sentAt (script : Script) (session exponent : Nat) : Conn :=
  { script.connAt session exponent with sent := exponent + 1 }

theorem await_sentAt :
    await (script.sentAt session exponent) .message =
      match (script.events session)[exponent]? with
      | some event => (Queue.judge (some .message) event).map fun event =>
          (event, script.connAt session (exponent + 1))
      | none => .error (.connection (.connectionClosed none)) := by
  rw [← List.head?_drop, await, sentAt, connAt, connAt, Queue.next, Queue.poll]
  cases rest : (script.events session).drop exponent with
  | nil => rfl
  | cons event events =>
      have behind : (script.events session).drop (exponent + 1) = events := by
        rw [← List.drop_drop, rest]
        rfl
      simp only [Queue.answer, List.head?_cons, behind]
      cases Queue.judge (some .message) event <;> rfl

theorem perform_reply (payload : Bytes) (ledger : Ledger) :
    perform (do
        let (event, conn) ← script.venue.await (script.sentAt session exponent) .message
        match scenario.check payload (event.data?.getD []) with
        | .ok () => return conn
        | .error trouble => throw trouble) ledger =
      ((verdict scenario payload (script.events session)[exponent]?).map fun _ =>
        script.connAt session (exponent + 1), ledger) := by
  have pulled : perform (script.venue.await (script.sentAt session exponent) .message) ledger =
      (await (script.sentAt session exponent) .message, ledger) := rfl
  rw [await_sentAt] at pulled
  generalize (script.events session)[exponent]? = place at pulled ⊢
  cases place with
  | none => exact perform_bind_error pulled _
  | some event =>
      cases event with
      | message data isBinary =>
          refine (perform_bind_ok pulled _).trans ?_
          rw [verdict]
          change perform (match scenario.check payload data with
            | .ok () => _
            | .error trouble => _) _ = _
          cases scenario.check payload data <;> rfl
      | «open» => exact perform_bind_error pulled _
      | close status => exact perform_bind_error pulled _
      | error cause => exact perform_bind_error pulled _

theorem perform_roundTrip (script : Script) (scenario : Scenario) (ledger : Ledger)
    (asked : ledger.asked.length = session + 1)
    (drawn : ledger.drawn = exponent) :
    perform (roundTrip script.venue scenario (script.connAt session exponent) exponent) ledger =
      ((script.fate scenario session exponent).map fun _ => script.connAt session (exponent + 1),
        { ledger with
          drawn := exponent + 1, given := ledger.given ++ script.postedAt session exponent }) := by
  have made : perform (script.venue.payload (1 <<< exponent)) ledger =
      ((script.random session exponent).map fun byteAt => payloadOf byteAt exponent,
        { ledger with drawn := exponent + 1 }) := by
    rw [Nat.one_shiftLeft, ← drawn, show session = ledger.asked.length - 1 by omega]
    rfl
  have sent (payload : Bytes) : perform (script.venue.send (script.connAt session exponent)
        payload) { ledger with drawn := exponent + 1 } =
      ((script.sending session exponent).map fun _ => script.sentAt session exponent,
        { ledger with drawn := exponent + 1, given := ledger.given ++ [(session, payload)] }) := rfl
  rw [roundTrip, fate, postedAt]
  cases random : script.random session exponent with
  | error trouble =>
      rw [random] at made
      rw [List.append_nil]
      exact perform_bind_error made _
  | ok byteAt =>
      rw [random] at made
      refine (perform_bind_ok made _).trans ?_
      cases sending : script.sending session exponent with
      | error trouble =>
          rw [sending] at sent
          exact perform_bind_error (sent _) _
      | ok _ =>
          rw [sending] at sent
          refine (perform_bind_ok (sent _) _).trans ?_
          exact perform_reply (payloadOf byteAt exponent) _

/-! ## The payloads of a session -/

/-- One payload of a scenario, reported first. -/
def playPayload (script : Script) (configuration : Configuration) (scenario : Scenario)
    (conn : Conn) (exponent : Nat) : ExceptT Failure Step Conn := do
  script.venue.tell (.payload scenario exponent)
  during scenario configuration (some exponent) (roundTrip script.venue scenario conn exponent)

theorem perform_playPayload (script : Script) (configuration : Configuration)
    (scenario : Scenario) (exponent : Nat) {asked : List (String × Configuration)}
    (count : asked.length = session + 1) (given : List (Nat × Bytes)) (reports : List Report) :
    perform (script.playPayload configuration scenario (script.connAt session exponent) exponent)
        ⟨asked, exponent, given, reports⟩ =
      (((script.fate scenario session exponent).map fun _ =>
          script.connAt session (exponent + 1)).mapError
            (Failure.mk scenario configuration (some exponent)),
        ⟨asked, exponent + 1, given ++ script.postedAt session exponent,
          reports ++ [.payload scenario exponent]⟩) := by
  have told : perform (liftM (script.venue.tell (.payload scenario exponent)) :
        ExceptT Failure Step Unit) ⟨asked, exponent, given, reports⟩ =
      (.ok (), ⟨asked, exponent, given, reports ++ [.payload scenario exponent]⟩) := rfl
  have tried := perform_roundTrip script scenario
    ⟨asked, exponent, given, reports ++ [.payload scenario exponent]⟩ count rfl
  refine (perform_bind_ok told _).trans ?_
  rw [perform_during, tried]

theorem postedIn_succ (script : Script) (session exponent : Nat) :
    script.postedIn session (exponent + 1) =
      script.postedIn session exponent ++ script.postedAt session exponent := by
  rw [postedIn, List.range_succ, List.flatMap_append, List.flatMap_singleton, postedIn]

theorem perform_payloads (configuration : Configuration) {asked : List (String × Configuration)}
    (count : asked.length = session + 1) (given : List (Nat × Bytes)) (reports : List Report)
    (fine : ∀ smaller < exponent, script.fate scenario session smaller = .ok ()) :
    perform ((List.range exponent).foldlM (script.playPayload configuration scenario)
        (script.connAt session 0)) ⟨asked, 0, given, reports⟩ =
      (.ok (script.connAt session exponent),
        ⟨asked, exponent, given ++ script.postedIn session exponent,
          reports ++ (List.range exponent).map (.payload scenario)⟩) := by
  induction exponent with
  | zero => simp [postedIn]
  | succ exponent ih =>
      have before := ih fun smaller less => fine smaller (Nat.lt_succ_of_lt less)
      rw [List.range_succ, List.foldlM_append, perform_bind_ok before, List.foldlM_cons]
      have last := perform_playPayload script configuration scenario exponent count
        (given ++ script.postedIn session exponent)
        (reports ++ (List.range exponent).map (.payload scenario))
      rw [fine exponent (Nat.lt_succ_self exponent)] at last
      refine (perform_bind_ok last _).trans ?_
      rw [List.foldlM_nil, perform_pure, List.map_append, List.append_assoc, List.append_assoc,
        postedIn_succ]
      rfl

theorem perform_payloads_error (configuration : Configuration)
    {asked : List (String × Configuration)} (count : asked.length = session + 1)
    (given : List (Nat × Bytes)) (reports : List Report) {trouble : Trouble}
    (fine : ∀ smaller < exponent, script.fate scenario session smaller = .ok ())
    (wrong : script.fate scenario session exponent = .error trouble) {total : Nat}
    (within : exponent < total) :
    perform ((List.range total).foldlM (script.playPayload configuration scenario)
        (script.connAt session 0)) ⟨asked, 0, given, reports⟩ =
      (.error ⟨scenario, configuration, some exponent, trouble⟩,
        ⟨asked, exponent + 1, given ++ script.postedIn session (exponent + 1),
          reports ++ (List.range (exponent + 1)).map (.payload scenario)⟩) := by
  obtain ⟨more, rfl⟩ : ∃ more, total = exponent + (more + 1) :=
    ⟨total - exponent - 1, by omega⟩
  rw [List.range_add, List.foldlM_append,
    perform_bind_ok (perform_payloads configuration count given reports fine),
    List.range_succ_eq_map, List.map_cons, List.foldlM_cons]
  have last := perform_playPayload script configuration scenario exponent count
    (given ++ script.postedIn session exponent)
    (reports ++ (List.range exponent).map (.payload scenario))
  rw [wrong] at last
  refine (perform_bind_error last _).trans ?_
  rw [List.range_succ, List.map_append, List.append_assoc, List.append_assoc, postedIn_succ]
  rfl

/-! ## A scenario in its session -/

theorem perform_tell (report : Report) (ledger : Ledger) :
    perform (liftM (script.venue.tell report) : ExceptT Failure Step Unit) ledger =
      (.ok (), { ledger with reports := ledger.reports ++ [report] }) := rfl

theorem perform_runScenario_ok (configuration : Configuration)
    {asked : List (String × Configuration)} (count : asked.length = session + 1)
    (given : List (Nat × Bytes)) (reports : List Report)
    (fine : ∀ exponent ≤ trial.maxExponent, script.fate scenario session exponent = .ok ()) :
    ∃ conn drawn, perform (runScenario script.venue trial configuration scenario
        (script.connAt session 0)) ⟨asked, 0, given, reports⟩ =
      (.ok conn, ⟨asked, drawn, given ++ script.postedIn session (trial.maxExponent + 1),
        reports ++ trial.finished (configuration, scenario)⟩) := by
  have played := perform_payloads configuration count given
    (reports ++ [.started scenario configuration])
    fun exponent less => fine exponent (Nat.le_of_lt_succ less)
  refine ⟨script.connAt session (trial.maxExponent + 1), trial.maxExponent + 1, ?_⟩
  refine (perform_bind_ok (perform_tell _ _) _).trans ?_
  refine (perform_bind_ok played _).trans ?_
  refine (perform_bind_ok (perform_tell _ _) _).trans ?_
  rw [perform_pure, finished, begun]
  simp only [List.append_assoc, List.cons_append, List.nil_append]

theorem perform_runScenario_error (configuration : Configuration)
    {asked : List (String × Configuration)} (count : asked.length = session + 1)
    (given : List (Nat × Bytes)) (reports : List Report) {trouble : Trouble}
    (within : exponent ≤ trial.maxExponent)
    (fine : ∀ smaller < exponent, script.fate scenario session smaller = .ok ())
    (wrong : script.fate scenario session exponent = .error trouble) :
    ∃ drawn, perform (runScenario script.venue trial configuration scenario
        (script.connAt session 0)) ⟨asked, 0, given, reports⟩ =
      (.error ⟨scenario, configuration, some exponent, trouble⟩,
        ⟨asked, drawn, given ++ script.postedIn session (exponent + 1),
          reports ++ begun configuration scenario exponent⟩) := by
  have played := perform_payloads_error configuration count given
    (reports ++ [.started scenario configuration]) fine wrong (Nat.lt_succ_of_le within)
  refine ⟨exponent + 1, ?_⟩
  refine (perform_bind_ok (perform_tell _ _) _).trans ?_
  refine (perform_bind_error played _).trans ?_
  rw [begun, List.append_assoc]
  rfl

/-! ## One pair -/

section Pair
variable {pair : Configuration × Scenario} {ledger : Ledger} {trouble : Trouble}

theorem perform_reach (script : Script) (trial : Trial) (pair : Configuration × Scenario)
    (ledger : Ledger) :
    perform (during pair.2 pair.1 none (script.venue.reach (trial.url pair.2) pair.1)) ledger =
      (((script.opening ledger.asked.length).map fun _ =>
          script.connAt ledger.asked.length 0).mapError (Failure.mk pair.2 pair.1 none),
        ⟨ledger.asked ++ [trial.asking pair], 0, ledger.given, ledger.reports⟩) := by
  rw [perform_during]
  rfl

theorem perform_runPair_refused (trial : Trial) (pair : Configuration × Scenario)
    (closed : script.opening ledger.asked.length = .error trouble) :
    ∃ drawn, perform (runPair script.venue trial pair.1 pair.2) ledger =
      (.error ⟨pair.2, pair.1, none, trouble⟩,
        ⟨ledger.asked ++ [trial.asking pair], drawn, ledger.given, ledger.reports⟩) := by
  have asked := perform_reach script trial pair ledger
  rw [closed] at asked
  exact ⟨_, perform_bind_error asked _⟩

theorem perform_runPair_stopped (pair : Configuration × Scenario)
    (opens : script.opening ledger.asked.length = .ok ())
    (within : exponent ≤ trial.maxExponent)
    (fine : ∀ smaller < exponent, script.fate pair.2 ledger.asked.length smaller = .ok ())
    (wrong : script.fate pair.2 ledger.asked.length exponent = .error trouble) :
    ∃ drawn, perform (runPair script.venue trial pair.1 pair.2) ledger =
      (.error ⟨pair.2, pair.1, some exponent, trouble⟩,
        ⟨ledger.asked ++ [trial.asking pair], drawn,
          ledger.given ++ script.postedIn ledger.asked.length (exponent + 1),
          ledger.reports ++ begun pair.1 pair.2 exponent⟩) := by
  have asked := perform_reach script trial pair ledger
  rw [opens] at asked
  have count : (ledger.asked ++ [trial.asking pair]).length = ledger.asked.length + 1 := by simp
  obtain ⟨drawn, played⟩ :=
    perform_runScenario_error pair.1 count ledger.given ledger.reports within fine wrong
  exact ⟨drawn, (perform_bind_ok asked _).trans (perform_bind_error played _)⟩

theorem perform_runPair_ok (completed : script.Completed trial ledger.asked.length pair.2) :
    ∃ drawn, perform (runPair script.venue trial pair.1 pair.2) ledger =
      (.ok (), ⟨ledger.asked ++ [trial.asking pair], drawn,
        ledger.given ++ script.postedIn ledger.asked.length (trial.maxExponent + 1),
        ledger.reports ++ trial.finished pair⟩) := by
  obtain ⟨opens, answered⟩ := completed
  have asked := perform_reach script trial pair ledger
  rw [opens] at asked
  have count : (ledger.asked ++ [trial.asking pair]).length = ledger.asked.length + 1 := by simp
  have fine : ∀ exponent ≤ trial.maxExponent,
      script.fate pair.2 ledger.asked.length exponent = .ok () :=
    fun exponent within => fate_eq_ok_iff.mpr (answered exponent within)
  obtain ⟨conn, drawn, played⟩ :=
    perform_runScenario_ok pair.1 count ledger.given ledger.reports fine
  exact ⟨drawn, (perform_bind_ok asked _).trans (perform_bind_ok played _)⟩

theorem answered_or_first_unanswered (script : Script) (scenario : Scenario) (session : Nat)
    (total : Nat) : (∀ exponent < total, script.Answered scenario session exponent) ∨
    ∃ exponent < total, ∃ trouble,
      (∀ smaller < exponent, script.Answered scenario session smaller) ∧
      script.fate scenario session exponent = .error trouble := by
  induction total with
  | zero => exact .inl nofun
  | succ total ih =>
      obtain answered | ⟨exponent, less, trouble, before, wrong⟩ := ih
      · cases end_ : script.fate scenario session total with
        | error trouble => exact .inr ⟨total, Nat.lt_succ_self total, trouble, answered, end_⟩
        | ok _ =>
            refine .inl fun exponent less => ?_
            obtain less | rfl := Nat.lt_succ_iff_lt_or_eq.mp less
            · exact answered exponent less
            · exact fate_eq_ok_iff.mp end_
      · exact .inr ⟨exponent, Nat.lt_succ_of_lt less, trouble, before, wrong⟩

end Pair

/-! ## All pairs -/

variable {pair : Configuration × Scenario} {pairs before after : List (Configuration × Scenario)}
  {ledger : Ledger} {trouble : Trouble}

theorem completedAll_cons : script.CompletedAll trial session (pair :: pairs) ↔
    script.Completed trial session pair.2 ∧ script.CompletedAll trial (session + 1) pairs := by
  constructor
  · intro all
    refine ⟨all 0 pair rfl, fun i other at_ => ?_⟩
    rw [Nat.add_assoc, Nat.add_comm 1]
    exact all (i + 1) other at_
  · rintro ⟨first, rest⟩ i other at_
    cases i with
    | zero =>
        cases at_
        exact first
    | succ i =>
        have behind := rest i other at_
        rwa [Nat.add_assoc, Nat.add_comm 1] at behind

theorem not_completedAll (split : trial.pairs = before ++ pair :: after)
    (incomplete : ¬ script.Completed trial before.length pair.2) :
    ¬ script.CompletedAll trial 0 trial.pairs := by
  intro all
  refine incomplete (Nat.zero_add before.length ▸ all before.length pair ?_)
  rw [split, List.getElem?_append_right (Nat.le_refl _), Nat.sub_self]
  rfl

theorem completedAll_or_split (script : Script) (trial : Trial) (session : Nat)
    (pairs : List (Configuration × Scenario)) : script.CompletedAll trial session pairs ∨
    ∃ before pair after, pairs = before ++ pair :: after ∧
      script.CompletedAll trial session before ∧
      ¬ script.Completed trial (session + before.length) pair.2 := by
  induction pairs generalizing session with
  | nil => exact .inl nofun
  | cons pair pairs ih =>
      by_cases first : script.Completed trial session pair.2
      · obtain all | ⟨before, last, after, split, done, stuck⟩ := ih (session + 1)
        · exact .inl (completedAll_cons.mpr ⟨first, all⟩)
        · refine .inr ⟨pair :: before, last, after, by rw [split, List.cons_append],
            completedAll_cons.mpr ⟨first, done⟩, ?_⟩
          rwa [List.length_cons, ← Nat.add_assoc, Nat.add_right_comm]
      · exact .inr ⟨[], pair, pairs, rfl, nofun, first⟩

theorem perform_completedAll (ledger : Ledger)
    (done : script.CompletedAll trial ledger.asked.length pairs) :
    ∃ drawn, perform (pairs.forM fun pair => runPair script.venue trial pair.1 pair.2) ledger =
      (.ok (), ⟨ledger.asked ++ pairs.map trial.asking, drawn,
        ledger.given ++
          script.postedThrough trial (List.range' ledger.asked.length pairs.length),
        ledger.reports ++ pairs.flatMap trial.finished⟩) := by
  -- a session's number is how many were asked for before it, so the ledger is taken along
  induction pairs generalizing ledger with
  | nil => exact ⟨ledger.drawn, by simp [postedThrough]⟩
  | cons pair pairs ih =>
      obtain ⟨first, rest⟩ := completedAll_cons.mp done
      obtain ⟨drawn, played⟩ := perform_runPair_ok first
      obtain ⟨later, behind⟩ := ih ⟨ledger.asked ++ [trial.asking pair], drawn,
        ledger.given ++ script.postedIn ledger.asked.length (trial.maxExponent + 1),
        ledger.reports ++ trial.finished pair⟩ (by simpa using rest)
      refine ⟨later, ?_⟩
      rw [List.forM_eq_forM, List.forM_cons]
      refine (perform_bind_ok played _).trans (behind.trans ?_)
      simp [List.append_assoc, postedThrough, List.range'_succ]

theorem perform_pairs_error {failure : Failure} (sent : List (Nat × Bytes)) (mark : List Report)
    (after : List (Configuration × Scenario)) (done : script.CompletedAll trial 0 before)
    (ends : ∀ ledger : Ledger, ledger.asked.length = before.length →
      ∃ drawn, perform (runPair script.venue trial pair.1 pair.2) ledger =
        (.error failure, ⟨ledger.asked ++ [trial.asking pair], drawn, ledger.given ++ sent,
          ledger.reports ++ mark⟩)) :
    ∃ drawn, perform ((before ++ pair :: after).forM fun pair =>
        runPair script.venue trial pair.1 pair.2) {} =
      (.error failure, ⟨(before ++ [pair]).map trial.asking, drawn,
        script.postedThrough trial (List.range before.length) ++ sent,
        before.flatMap trial.finished ++ mark⟩) := by
  obtain ⟨drawn, played⟩ := perform_completedAll {} done
  obtain ⟨last, stuck⟩ := ends ⟨[] ++ before.map trial.asking, drawn,
    [] ++ script.postedThrough trial (List.range' 0 before.length),
    [] ++ before.flatMap trial.finished⟩ (by simp)
  refine ⟨last, ?_⟩
  rw [List.forM_eq_forM, List.forM_append, List.forM_cons]
  refine (perform_bind_ok played _).trans ((perform_bind_error stuck _).trans ?_)
  simp [List.range_eq_range']

end Script

/-! ## The check before the first session -/

theorem windowObstacle_isSome_iff {trial : Trial} {configuration : Configuration} :
    (trial.windowObstacle? configuration).isSome ↔ configuration.enabled = true ∧
      (trial.maxExponent < configuration.serverWindowBits.getD 15 ∨
        trial.maxExponent < configuration.clientWindowBits.getD 15) := by
  rw [windowObstacle?, Configuration.maxWindowBits]
  by_cases enabled : configuration.enabled
  · simp only [enabled, if_true, Configuration.usualWindowBits, true_and]
    split <;> simp <;> omega
  · simp [enabled]

theorem obstacle_isSome_iff {trial : Trial} : trial.obstacle?.isSome ↔ trial.Unsound := by
  rw [obstacle?, Unsound]
  simp only [← windowObstacle_isSome_iff, ← List.findSome?_isSome_iff]
  cases trial.configurations.findSome? trial.windowObstacle? with
  | some failure => simp
  | none =>
      simp only [exponentBound, ge_iff_le]
      split <;> simp_all

theorem config_of_obstacle {trial : Trial} {failure : Failure}
    (refused : trial.obstacle? = some failure) :
    ∃ what, failure.trouble = .config what ∧ failure.exponent = none := by
  rw [obstacle?] at refused
  split at refused
  · next found =>
      cases refused
      obtain ⟨configuration, -, small⟩ := List.exists_of_findSome?_eq_some found
      rw [windowObstacle?] at small
      split at small
      · cases small
      · split at small
        · cases small
          exact ⟨_, rfl, rfl⟩
        · cases small
  · split at refused
    · cases refused
      exact ⟨_, rfl, rfl⟩
    · cases refused

/-! ## The run -/

section Run
variable {script : Script} {trial : Trial} {pair : Configuration × Scenario}
  {before after : List (Configuration × Scenario)}

theorem runAll_sound {Conn : Type} {σ : Type} (venue : Venue (StateM σ) Conn)
    (sound : ¬ trial.Unsound) :
    trial.runAll venue = trial.pairs.forM fun pair => runPair venue trial pair.1 pair.2 := by
  have clear : trial.obstacle? = none :=
    Option.not_isSome_iff_eq_none.mp (mt obstacle_isSome_iff.mp sound)
  rw [runAll, clear]
  exact forM_pairs trial _

theorem run_of_ok {ledger : Script.Ledger} (ran : perform (runAll script.venue trial) {} =
    (.ok (), ledger)) :
    script.run trial = (.ok (), { ledger with reports := ledger.reports ++ [.passed] }) := by
  rw [Script.run, run_eq, ran]
  rfl

theorem run_of_error {ledger : Script.Ledger} {failure : Failure}
    (ran : perform (runAll script.venue trial) {} = (.error failure, ledger)) :
    script.run trial =
      (.error failure, { ledger with reports := ledger.reports ++ [.failed failure] }) := by
  rw [Script.run, run_eq, ran]
  rfl

theorem run_of_pair_error {failure : Failure} (sent : List (Nat × Bytes)) (mark : List Report)
    (sound : ¬ trial.Unsound) (split : trial.pairs = before ++ pair :: after)
    (done : script.CompletedAll trial 0 before)
    (ends : ∀ ledger : Script.Ledger, ledger.asked.length = before.length →
      ∃ drawn, perform (runPair script.venue trial pair.1 pair.2) ledger =
        (.error failure, ⟨ledger.asked ++ [trial.asking pair], drawn, ledger.given ++ sent,
          ledger.reports ++ mark⟩)) :
    ∃ drawn, script.run trial = (.error failure, ⟨(before ++ [pair]).map trial.asking, drawn,
      script.postedThrough trial (List.range before.length) ++ sent,
      before.flatMap trial.finished ++ mark ++ [.failed failure]⟩) := by
  obtain ⟨drawn, ran⟩ := Script.perform_pairs_error sent mark after done ends
  rw [← split, ← runAll_sound _ sound] at ran
  exact ⟨drawn, run_of_error ran⟩

/-- Every run takes one of the courses. -/
theorem course_run (script : Script) (trial : Trial) :
    trial.Course script (script.run trial).1 (script.run trial).2.asked
      (script.run trial).2.given (script.run trial).2.reports := by
  cases obstacle : trial.obstacle? with
  | some failure =>
      obtain ⟨what, config, early⟩ := config_of_obstacle obstacle
      have ran : perform (runAll script.venue trial) {} = (.error failure, {}) := by
        rw [runAll, obstacle]
        rfl
      rw [run_of_error ran]
      exact .unsound (obstacle_isSome_iff.mp (by rw [obstacle]; rfl)) config early
  | none =>
      have sound : ¬ trial.Unsound := mt obstacle_isSome_iff.mpr (by rw [obstacle]; nofun)
      -- the first pair that is not completed decides, and in it the first thing that goes wrong
      obtain done | ⟨before, ⟨configuration, scenario⟩, after, split, done, stuck⟩ :=
        script.completedAll_or_split trial 0 trial.pairs
      · obtain ⟨drawn, ran⟩ := Script.perform_completedAll {} done
        rw [← runAll_sound _ sound] at ran
        have passed : trial.Course script _ _ _ _ := .passed sound done
        rw [run_of_ok ran]
        simpa [List.range_eq_range'] using passed
      rw [Nat.zero_add] at stuck
      cases opening : script.opening before.length with
      | error trouble =>
          obtain ⟨drawn, ran⟩ := run_of_pair_error [] [] sound split done fun ledger asked => by
            rw [← asked] at opening
            simpa using Script.perform_runPair_refused trial (configuration, scenario) opening
          rw [ran, List.append_nil, List.append_nil]
          exact .refused sound split done opening
      | ok _ =>
          obtain answered | ⟨exponent, less, trouble, answered, wrong⟩ :=
            script.answered_or_first_unanswered scenario before.length (trial.maxExponent + 1)
          · exact absurd ⟨opening, fun exponent within =>
              answered exponent (Nat.lt_succ_of_le within)⟩ stuck
          have within := Nat.le_of_lt_succ less
          obtain ⟨drawn, ran⟩ := run_of_pair_error (script.postedIn before.length (exponent + 1)) _
            sound split done fun ledger asked => by
              rw [← asked] at opening answered wrong ⊢
              exact Script.perform_runPair_stopped (configuration, scenario) opening within
                (fun smaller less => Script.fate_eq_ok_iff.mpr (answered smaller less)) wrong
          rw [ran]
          refine .stopped sound split done opening within answered ?_ wrong
          rw [← Script.fate_eq_ok_iff, wrong]
          nofun

theorem ne_closing_of_mem_finished {pairs : List (Configuration × Scenario)} {report : Report}
    (mem : report ∈ pairs.flatMap trial.finished) (result : Except Failure Unit) :
    report ≠ closing result := by
  simp only [List.mem_flatMap, finished, begun] at mem
  rcases result with _ | _ <;> rintro rfl <;> simp [closing] at mem

theorem ne_closing_of_mem_begun {configuration : Configuration} {scenario : Scenario}
    {exponent : Nat} {report : Report} (mem : report ∈ begun configuration scenario exponent)
    (result : Except Failure Unit) : report ≠ closing result := by
  rw [begun] at mem
  rcases result with _ | _ <;> rintro rfl <;> simp [closing] at mem

theorem Course.closes {result : Except Failure Unit} {asked : List (String × Configuration)}
    {given : List (Nat × Bytes)} {reports : List Report}
    (course : trial.Course script result asked given reports) :
    ∃ earlier, reports = earlier ++ [closing result] ∧
      ∀ report ∈ earlier, ∀ other, report ≠ closing other := by
  cases course with
  | unsound _ _ _ => exact ⟨[], rfl, nofun⟩
  | refused _ _ _ _ => exact ⟨_, rfl, fun _ mem => ne_closing_of_mem_finished mem⟩
  | stopped _ _ _ _ _ _ _ _ =>
      refine ⟨_, rfl, fun report mem => ?_⟩
      obtain mem | mem := List.mem_append.mp mem
      · exact ne_closing_of_mem_finished mem
      · exact ne_closing_of_mem_begun mem
  | passed _ _ => exact ⟨_, rfl, fun _ mem => ne_closing_of_mem_finished mem⟩

theorem Course.ok_iff {result : Except Failure Unit} {asked : List (String × Configuration)}
    {given : List (Nat × Bytes)} {reports : List Report}
    (course : trial.Course script result asked given reports) :
    result = .ok () ↔ ¬ trial.Unsound ∧ script.CompletedAll trial 0 trial.pairs := by
  cases course with
  | unsound unsound _ _ => exact ⟨nofun, fun ⟨sound, _⟩ => absurd unsound sound⟩
  | refused _ split _ closed =>
      refine ⟨nofun, fun ⟨_, all⟩ => absurd all (Script.not_completedAll split ?_)⟩
      rintro ⟨opens, _⟩
      rw [closed] at opens
      cases opens
  | stopped _ split _ _ within _ unanswered _ =>
      refine ⟨nofun, fun ⟨_, all⟩ => absurd all (Script.not_completedAll split ?_)⟩
      exact fun completed => unanswered (completed.2 _ within)
  | passed sound done => exact ⟨fun _ => ⟨sound, done⟩, fun _ => rfl⟩

theorem Course.passed_mem_iff {result : Except Failure Unit}
    {asked : List (String × Configuration)} {given : List (Nat × Bytes)} {reports : List Report}
    (course : trial.Course script result asked given reports) :
    .passed ∈ reports ↔ result = .ok () := by
  obtain ⟨earlier, rfl, before⟩ := course.closes
  rw [List.mem_append, List.mem_singleton]
  constructor
  · rintro (mem | last)
    · exact absurd rfl (before _ mem (.ok ()))
    · cases result with
      | ok _ => rfl
      | error failure => cases last
  · rintro rfl
    exact .inr rfl

/-- A run is what the pairs make of it one after the other.  Its last report,
and no other, tells its result, and it passes just if nothing was wrong. -/
theorem run_sequential (script : Script) (trial : Trial) :
    let (result, ledger) := script.run trial
    trial.Course script result ledger.asked ledger.given ledger.reports ∧
      (∃ earlier, ledger.reports = earlier ++ [closing result] ∧
        ∀ report ∈ earlier, ∀ other, report ≠ closing other) ∧
      (.passed ∈ ledger.reports ↔
        ¬ trial.Unsound ∧ script.CompletedAll trial 0 trial.pairs) := by
  have course := course_run script trial
  exact ⟨course, course.closes, course.passed_mem_iff.trans course.ok_iff⟩

/-- One session, in which two payloads are sent and given back. -/
theorem run_sequential_echoed :
    let script : Script := {
      opening := fun _ => .ok ()
      random := fun _ exponent => .ok fun i => UInt8.ofNat (97 + exponent + i)
      sending := fun _ _ => .ok ()
      events := fun _ => [.message [97] true, .message [98, 99] true] }
    let trial : Trial := ⟨"ws://a/", [.disabled], [.echo], 1⟩
    let reports := [.started .echo .disabled, .payload .echo 0, .payload .echo 1,
      .finished .echo .disabled, .passed]
    script.run trial =
      (.ok (), ⟨[("ws://a/echo", .disabled)], 2, [(0, [97]), (0, [98, 99])], reports⟩) ∧
    trial.Course script (.ok ()) [("ws://a/echo", .disabled)] [(0, [97]), (0, [98, 99])]
      reports := by
  intro script trial reports
  have ran : script.run trial =
      (.ok (), ⟨[("ws://a/echo", .disabled)], 2, [(0, [97]), (0, [98, 99])], reports⟩) := rfl
  exact ⟨ran, (run_sequential script trial).1⟩

end Run

end DeflateTrial.Trial
