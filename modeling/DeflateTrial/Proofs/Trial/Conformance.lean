/-
Conformance — no trial blames the reference server

A trial of the reference server, over lines that take their time but lose and
change nothing, passes: whatever the server's settings, the configurations and
the scenarios are, whatever is left to chance, and whatever turns are taken
while the trial waits (`passed_run`).  That is so for any sound compressor
under which the largest payload fits into one frame.

Each step of the trial has been seen to by then: the line comes to be and is
idle (`Line.knock_ok`), a payload on an idle line is answered with what is due
for it, and the line is idle again (`succeeds_roundTrip`).
-/
import DeflateTrial.Proofs.Line.Opening
import DeflateTrial.Proofs.Trial.Addresses
import DeflateTrial.Proofs.Trial.Sequence

namespace DeflateTrial

open Extension (Agreement WindowsAllowed)
open Session (Plan)

/-! ## What is due -/

namespace Scenario

/-- The endpoint that a scenario tries. -/
def endpoint : Scenario → Endpoint
  | hashCheck => .digest
  | echo => .echo

theorem ofPath?_path (scenario : Scenario) :
    Endpoint.ofPath? ("/" ++ scenario.path) = some scenario.endpoint := by
  cases scenario <;> decide

/-- The event that an answer to a payload is told as. -/
def answer : Scenario → Bytes → Event
  | hashCheck, payload => .message (Bytes.ofText (Digest.Md5.hex payload)) false
  | echo, payload => .message payload true

theorem check_answer (scenario : Scenario) (payload : Bytes) :
    scenario.check payload ((scenario.answer payload).data?.getD []) = .ok () := by
  cases scenario <;> exact if_pos rfl

theorem kind_answer (scenario : Scenario) (payload : Bytes) :
    (scenario.answer payload).kind = .message := by
  cases scenario <;> rfl

theorem asks_answer (scenario : Scenario) {size : Nat} {payload : Bytes}
    (small : payload.length ≤ size) (room : 128 ≤ size) :
    Line.Asks scenario.endpoint size (.binary payload) (scenario.answer payload) := by
  cases scenario with
  | hashCheck =>
      have short : (Bytes.ofText (Digest.Md5.hex payload)).length ≤ size := by
        rw [Digest.Md5.length_ofText_hex]
        omega
      exact ⟨rfl, small, short, rfl⟩
  | echo => exact ⟨rfl, small, small, rfl⟩

end Scenario

/-! ## Opening -/

section
variable {network : Network} {address : ListeningAddress} {bare : String}
  {configuration : Configuration}

theorem length_name_le (reachable : address.Reachable bare) : address.name.length ≤ 100 := by
  have port : address.port < 10 ^ (4 + 1) := Nat.lt_trans reachable.port (by decide)
  have digits := Text.Decimal.length_write_le port
  have host := reachable.short
  have text : address.name = address.host ++ ":" ++ Text.Decimal.write address.port := rfl
  rw [text, String.length_append, String.length_append, show ":".length = 1 from rfl]
  omega

theorem unbroken_name (reachable : address.Reachable bare) : Text.Unbroken address.name := by
  have text : address.name = address.host ++ ":" ++ Text.Decimal.write address.port := rfl
  have host : Text.Unbroken address.host :=
    Text.unbroken_of_not_blank fun c member => (reachable.clear c member).1
  rw [text, Text.unbroken_append, Text.unbroken_append]
  exact ⟨⟨host, by decide⟩, Text.Decimal.unbroken_write address.port⟩

theorem connect_ok (reachable : address.Reachable bare)
    (listens : network.obstacle bare address.port = none)
    (windows : WindowsAllowed configuration) (scenario : Scenario) :
    ∃ plan, Plan.connect network (ListeningAddress.urlOf address.name ++ scenario.path)
        configuration = .ok plan ∧
      plan.Addresses scenario.endpoint ∧ plan.settings.isSome = configuration.enabled := by
  obtain ⟨settings, made, fair, offered⟩ :=
    Extension.Settings.ofConfiguration_ok windows
  refine ⟨⟨⟨bare, address.port, address.name, "/" ++ scenario.path⟩, settings⟩, ?_,
    ⟨unbroken_name reachable, length_name_le reachable, scenario.ofPath?_path, fair⟩, offered⟩
  simp only [Plan.connect, Plan.make, Target.parse_urlOf reachable, made, Session.extensionFault_ok,
    Network.connect, listens, bind, Except.bind, pure, Except.pure]

end

/-! ## The steps of a trial -/

namespace Trial

open Line (Chances)

section
variable {server : Server} {compressor : Deflate.Compressor} {network : Network}
  {chances : Chances} {size : Nat}

theorem length_bytes (chances : Chances) (draw size : Nat) :
    (chances.bytes draw size).length = size := by
  rw [Chances.bytes, List.length_map, List.length_range]

theorem succeeds_roundTrip {scenario : Scenario} {line : Line} {exponent : Nat}
    (idle : line.Idle scenario.endpoint size) (small : 1 <<< exponent ≤ size)
    (room : 128 ≤ size) :
    Succeeds (roundTrip (Line.venue server compressor network chances) scenario line exponent)
      (Line.Idle scenario.endpoint size) := by
  have made : Succeeds ((Line.venue server compressor network chances).payload (1 <<< exponent))
      fun payload => payload.length = 1 <<< exponent :=
    succeeds_bind (succeeds_lift _) fun n _ => succeeds_pure (length_bytes ..)
  refine succeeds_bind made fun payload length => ?_
  have asks := scenario.asks_answer (Nat.le_trans (Nat.le_of_eq length) small) room
  have sent : Succeeds ((Line.venue server compressor network chances).send line payload)
      (Line.OnLeg scenario.endpoint size (.binary payload) (scenario.answer payload) 0) := by
    refine succeeds_bind (succeeds_lift _) fun n _ => ?_
    obtain ⟨line', ordered, on⟩ := Line.send_of_idle (Line.idle_turns idle (chances.turns n))
      payload (scenario.answer payload)
    exact succeeds_ok ordered on
  refine succeeds_bind sent fun line on => ?_
  have answered : Succeeds ((Line.venue server compressor network chances).await line .message)
      fun reply => reply.1 = scenario.answer payload ∧ reply.2.Idle scenario.endpoint size := by
    refine succeeds_bind (succeeds_lift _) fun n _ => ?_
    obtain ⟨line', pulled, idle'⟩ := Line.await_of_onLeg asks (scenario.kind_answer payload) on
      (chances.turns n)
    exact succeeds_ok pulled ⟨rfl, idle'⟩
  refine succeeds_bind answered fun ⟨event, line'⟩ ⟨is, idle'⟩ => ?_
  dsimp only at is idle' ⊢
  rw [is, scenario.check_answer payload]
  exact succeeds_pure idle'

theorem succeeds_runScenario {trial : Trial} {scenario : Scenario} {line : Line}
    (idle : line.Idle scenario.endpoint size) (small : 1 <<< trial.maxExponent ≤ size)
    (room : 128 ≤ size) (configuration : Configuration) :
    Succeeds (runScenario (Line.venue server compressor network chances) trial configuration
      scenario line) (Line.Idle scenario.endpoint size) := by
  refine succeeds_bind (succeeds_lift _) fun _ _ => ?_
  refine succeeds_bind (succeeds_foldlM (fun line idle exponent member => ?_) idle)
    fun line idle => succeeds_bind (succeeds_lift _) fun _ _ => succeeds_pure idle
  have within : exponent ≤ trial.maxExponent := Nat.le_of_lt_succ (List.mem_range.mp member)
  have smaller : 1 <<< exponent ≤ size := by
    rw [Nat.one_shiftLeft] at small ⊢
    exact Nat.le_trans (Nat.pow_le_pow_right (by decide) within) small
  exact succeeds_bind (succeeds_lift _) fun _ _ =>
    succeeds_during (succeeds_roundTrip idle smaller room) _ _ _

end

section
variable {server : Server} {compressor : Deflate.Compressor} {network : Network} {trial : Trial}
  {address : ListeningAddress} {bare : String} {worst : Nat}

theorem eight_le_of_admitted (admitted : trial.obstacle? = none) {configuration : Configuration}
    (member : configuration ∈ trial.configurations) (enabled : configuration.enabled = true)
    (windows : WindowsAllowed configuration) :
    8 ≤ trial.maxExponent := by
  have sound : ¬ trial.Unsound := mt obstacle_isSome_iff.mpr (by rw [admitted]; nofun)
  have filled : configuration.serverWindowBits.getD 15 ≤ trial.maxExponent :=
    Nat.not_lt.mp fun small => sound (.inl ⟨configuration, member, enabled, .inl small⟩)
  refine Nat.le_trans ?_ filled
  cases asked : configuration.serverWindowBits with
  | none => decide
  | some bits => exact (windows.server bits asked).1

theorem roomy_of_admitted (admitted : trial.obstacle? = none) {configuration : Configuration}
    (member : configuration ∈ trial.configurations) (windows : WindowsAllowed configuration)
    (swells : compressor.Swells (1 <<< trial.maxExponent) worst)
    (room : 1 <<< trial.maxExponent + worst ≤ Limits.frameSize {}) {terms : Option Agreement}
    (offered : terms.isSome = true → configuration.enabled = true) :
    Line.Roomy compressor (max (1 <<< trial.maxExponent) 128) terms where
  plain := Nat.max_le.mpr ⟨Nat.le_trans (Nat.le_add_right ..) room, by decide⟩
  compressed := fun agreed => by
    have eight := eight_le_of_admitted admitted member (offered agreed) windows
    have large : 128 ≤ 1 <<< trial.maxExponent := by
      rw [Nat.one_shiftLeft]
      exact Nat.le_trans (by decide) (Nat.pow_le_pow_right (by decide : 0 < 2) eight)
    rw [Nat.max_eq_left large]
    exact ⟨worst, swells, room⟩

theorem succeeds_reach {plan : Plan} {scenario : Scenario} {configuration : Configuration}
    {url : String} {size : Nat} {chances : Line.Chances}
    (planned : Plan.connect network url configuration = .ok plan)
    (addresses : plan.Addresses scenario.endpoint) (built : server.settings.Built)
    (plain : server.transport = {}) (sound : compressor.Sound)
    (roomy : Line.Roomy compressor size (plan.terms server)) :
    Succeeds ((Line.venue server compressor network chances).reach url configuration)
      (Line.Idle scenario.endpoint size) := by
  intro ledger
  obtain ⟨line, reached, idle⟩ := Line.knock_ok sound addresses built plain roomy
    (length_bytes chances ledger.draws 16) (chances.seed ledger.draws)
    (chances.turns ledger.draws)
  refine ⟨line, { ledger with draws := ledger.draws + 1 }, ?_, idle⟩
  change StateT.run (Line.reach server compressor network chances url configuration) ledger = _
  simp only [Line.reach, planned]
  rw [← reached]
  rfl

theorem succeeds_runPair {chances : Line.Chances} (built : server.settings.Built)
    (plain : server.transport = {}) (reachable : address.Reachable bare)
    (listens : network.obstacle bare address.port = none)
    (there : trial.address = ListeningAddress.urlOf address.name)
    {configuration : Configuration} (windows : WindowsAllowed configuration)
    (sound : compressor.Sound)
    (roomy : ∀ terms : Option Agreement, (terms.isSome = true → configuration.enabled = true) →
      Line.Roomy compressor (max (1 <<< trial.maxExponent) 128) terms) (scenario : Scenario) :
    Succeeds (runPair (Line.venue server compressor network chances) trial configuration scenario)
      fun _ => True := by
  obtain ⟨plan, planned, addresses, offered⟩ := connect_ok reachable listens windows scenario
  rw [← there] at planned
  have room : Line.Roomy compressor (max (1 <<< trial.maxExponent) 128) (plan.terms server) :=
    roomy _ fun agreed => by
      rw [← offered, ← Option.isSome_map]
      exact agreed
  refine succeeds_bind (succeeds_during
    (succeeds_reach planned addresses built plain sound room) _ _ _) fun line idle => ?_
  have finished : Succeeds (runScenario (Line.venue server compressor network chances) trial
      configuration scenario line) (Line.Idle scenario.endpoint _) :=
    succeeds_runScenario idle (Nat.le_max_left ..) (Nat.le_max_right ..) configuration
  exact succeeds_bind finished fun _ _ => succeeds_lift _

theorem passed_of_succeeds {chances : Line.Chances}
    (all : Succeeds (runAll (Line.venue server compressor network chances) trial)
      fun _ => True) :
    (Line.run server compressor network chances trial).1 = .ok () ∧
      (Line.run server compressor network chances trial).2.getLast? = some .passed := by
  obtain ⟨⟨⟩, ledger, ran, -⟩ := all {}
  have whole : Line.run server compressor network chances trial =
      (.ok (), ledger.reports ++ [.passed]) := by
    rw [Line.run, run_eq, ran]
    rfl
  rw [whole]
  exact ⟨rfl, List.getLast?_concat⟩

/-- No trial blames the reference server.  Whatever its settings, as they can
be built, the configurations, whose windows are absent or allowed, the
scenarios, the socket, the compressor, if it is sound, the payloads, if the
largest fits into a frame however badly it compresses, and all that is left to
chance: a trial that is admitted ends well, and last of all reports that it
passed. -/
theorem passed_run (built : server.settings.Built) (plain : server.transport = {})
    (reachable : address.Reachable bare) (listens : network.obstacle bare address.port = none)
    (there : trial.address = ListeningAddress.urlOf address.name)
    (windows : ∀ configuration ∈ trial.configurations, WindowsAllowed configuration)
    (admitted : trial.obstacle? = none) (sound : compressor.Sound)
    (swells : compressor.Swells (1 <<< trial.maxExponent) worst)
    (room : 1 <<< trial.maxExponent + worst ≤ Limits.frameSize {}) (chances : Line.Chances) :
    (Line.run server compressor network chances trial).1 = .ok () ∧
      (Line.run server compressor network chances trial).2.getLast? = some .passed := by
  refine passed_of_succeeds ?_
  rw [runAll, admitted]
  refine succeeds_forM fun configuration member => succeeds_forM fun scenario _ => ?_
  exact succeeds_runPair built plain reachable listens there (windows configuration member) sound
    (fun _ => roomy_of_admitted admitted member (windows configuration member) swells room)
    scenario

/-- A server that stores its replies, tried under small windows while its
bytes come in threes. -/
theorem passed_run_stored :
    (Line.run { settings := { threshold := 0, level := 0 } } .fixedCode .reachable
        ⟨fun draw position => .ofNat (draw + position), .ofNat,
          fun _ => [.write, .up 3, .serve, .down 3]⟩
        ⟨"ws://127.0.0.1:9100/", [.disabled, smallWindows.withThreshold 4096],
          [.hashCheck, .echo], 9⟩).1 = .ok () ∧
      (Line.run { settings := { threshold := 0, level := 0 } } .fixedCode .reachable
        ⟨fun draw position => .ofNat (draw + position), .ofNat,
          fun _ => [.write, .up 3, .serve, .down 3]⟩
        ⟨"ws://127.0.0.1:9100/", [.disabled, smallWindows.withThreshold 4096],
          [.hashCheck, .echo], 9⟩).2.getLast? = some .passed := by
  have stores : Extension.Settings.withLevel { threshold := 0 } 0 =
      .ok { threshold := 0, level := 0 } := rfl
  have socket : ListeningAddress.Reachable ⟨"127.0.0.1", 9100⟩ "127.0.0.1" :=
    ⟨.plain (by decide), by simp [Text.isBlank], by decide, by decide⟩
  have there : "ws://127.0.0.1:9100/" = ListeningAddress.urlOf (ListeningAddress.name
      ⟨"127.0.0.1", 9100⟩) := by
    have port : Text.Decimal.write 9100 = "9100" := by
      simp [Text.Decimal.write, Text.Decimal.digits, Text.Decimal.digit]
    rw [ListeningAddress.name, port]
    rfl
  refine passed_run (.level (.threshold 0 .usual) stores) rfl socket rfl there ?_ (by decide)
    Deflate.Compressor.fixedCode_sound (Deflate.Compressor.fixedCode_swells _) (by decide) _
  intro configuration member
  simp only [List.mem_cons, List.not_mem_nil, or_false] at member
  rcases member with rfl | rfl
  · exact ⟨fun bits asked => (by cases asked), fun bits asked => (by cases asked)⟩
  · exact ⟨fun bits asked => by cases asked; decide, fun bits asked => by cases asked; decide⟩

end

end Trial

end DeflateTrial
