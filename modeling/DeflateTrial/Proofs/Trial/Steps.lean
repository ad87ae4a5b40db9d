/-
Steps — a trial as a function of what it finds

At a venue that keeps a state, a step of a trial takes the state before it to
an outcome and the state after it (`perform`).  Each way of putting steps
together has its equation here, so what is proved of a run never opens a
monad: a sequence goes on only from success, a scenario's trouble becomes its
failure, and all pairs of configuration and scenario are one list.
-/
import DeflateTrial.Trial.Run

namespace DeflateTrial.Trial

variable {ε σ α β : Type}

/-- What a step comes to from a state, and the state after it. -/
def perform (step : ExceptT ε (StateM σ) α) (s : σ) : Except ε α × σ :=
  StateT.run (ExceptT.run step) s

@[simp] theorem perform_pure (a : α) (s : σ) :
    perform (pure a : ExceptT ε (StateM σ) α) s = (.ok a, s) := rfl

theorem perform_lift (step : StateM σ α) (s : σ) :
    perform (liftM step : ExceptT ε (StateM σ) α) s = (.ok (step.run s).1, (step.run s).2) := rfl

theorem perform_bind (step : ExceptT ε (StateM σ) α) (next : α → ExceptT ε (StateM σ) β) (s : σ) :
    perform (step >>= next) s = match perform step s with
      | (.ok a, s') => perform (next a) s'
      | (.error e, s') => (.error e, s') := by
  change StateT.run (StateT.bind (ExceptT.run step) (ExceptT.bindCont next)) s = _
  simp only [StateT.run, StateT.bind, perform, bind]
  rcases (ExceptT.run step s) with ⟨_ | _, s'⟩ <;> rfl

theorem perform_bind_ok {step : ExceptT ε (StateM σ) α} {s s' : σ} {a : α}
    (h : perform step s = (.ok a, s')) (next : α → ExceptT ε (StateM σ) β) :
    perform (step >>= next) s = perform (next a) s' := by
  rw [perform_bind, h]

theorem perform_bind_error {step : ExceptT ε (StateM σ) α} {s s' : σ} {e : ε}
    (h : perform step s = (.error e, s')) (next : α → ExceptT ε (StateM σ) β) :
    perform (step >>= next) s = (.error e, s') := by
  rw [perform_bind, h]

theorem perform_during (scenario : Scenario) (configuration : Configuration)
    (exponent : Option Nat) (step : ExceptT Trouble (StateM σ) α) (s : σ) :
    perform (during scenario configuration exponent step) s =
      ((perform step s).1.mapError (Failure.mk scenario configuration exponent),
        (perform step s).2) := by
  change StateT.run (StateT.map _ (ExceptT.run step)) s = _
  simp only [StateT.run, StateT.map, perform, bind, pure]
  rcases (ExceptT.run step s) with ⟨_ | _, s'⟩ <;> rfl

/-! ## Steps that succeed -/

/-- A step that succeeds from every state, with something that is so. -/
def Succeeds (step : ExceptT ε (StateM σ) α) (so : α → Prop) : Prop :=
  ∀ s, ∃ a s', perform step s = (.ok a, s') ∧ so a

section
variable {so : α → Prop} {so' : β → Prop}

theorem succeeds_pure {a : α} (h : so a) : Succeeds (pure a : ExceptT ε (StateM σ) α) so :=
  fun s => ⟨a, s, rfl, h⟩

theorem succeeds_ok {result : Except ε α} {a : α} (is : result = .ok a) (h : so a) :
    Succeeds (ExceptT.mk (pure result) : ExceptT ε (StateM σ) α) so :=
  fun s => ⟨a, s, by rw [is]; rfl, h⟩

theorem succeeds_lift (step : StateM σ α) :
    Succeeds (liftM step : ExceptT ε (StateM σ) α) fun _ => True :=
  fun s => ⟨_, _, perform_lift step s, trivial⟩

theorem succeeds_bind {step : ExceptT ε (StateM σ) α} {next : α → ExceptT ε (StateM σ) β}
    (h : Succeeds step so) (h' : ∀ a, so a → Succeeds (next a) so') :
    Succeeds (step >>= next) so' := by
  intro s
  obtain ⟨a, s', first, ha⟩ := h s
  obtain ⟨b, s'', second, hb⟩ := h' a ha s'
  exact ⟨b, s'', by rw [perform_bind_ok first, second], hb⟩

theorem succeeds_during {step : ExceptT Trouble (StateM σ) α} (h : Succeeds step so)
    (scenario : Scenario) (configuration : Configuration) (exponent : Option Nat) :
    Succeeds (during scenario configuration exponent step) so := by
  intro s
  obtain ⟨a, s', ran, ha⟩ := h s
  exact ⟨a, s', by rw [perform_during, ran]; rfl, ha⟩

theorem succeeds_foldlM {γ : Type} {f : α → γ → ExceptT ε (StateM σ) α} {xs : List γ}
    (h : ∀ a, so a → ∀ x ∈ xs, Succeeds (f a x) so) {a : α} (ha : so a) :
    Succeeds (xs.foldlM f a) so := by
  induction xs generalizing a with
  | nil => exact succeeds_pure ha
  | cons x xs ih =>
      rw [List.foldlM_cons]
      exact succeeds_bind (h a ha x List.mem_cons_self) fun b hb =>
        ih (fun c hc y member => h c hc y (List.mem_cons_of_mem _ member)) hb

theorem succeeds_forM {γ : Type} {f : γ → ExceptT ε (StateM σ) Unit} {xs : List γ}
    (h : ∀ x ∈ xs, Succeeds (f x) fun _ => True) : Succeeds (xs.forM f) fun _ => True := by
  rw [List.forM_eq_forM]
  induction xs with
  | nil => exact succeeds_pure trivial
  | cons x xs ih =>
      rw [List.forM_cons]
      exact succeeds_bind (h x List.mem_cons_self) fun _ _ =>
        ih fun y member => h y (List.mem_cons_of_mem _ member)

end

/-! ## The pairs -/

/-- The pairs in the order in which they are tried: configuration by configuration. -/
def pairs (trial : Trial) : List (Configuration × Scenario) :=
  trial.configurations.flatMap fun configuration =>
    trial.scenarios.map fun scenario => (configuration, scenario)

theorem forM_pairs {m : Type → Type} [Monad m] [LawfulMonad m]
    (trial : Trial) (f : Configuration → Scenario → m Unit) :
    (trial.configurations.forM fun configuration =>
      trial.scenarios.forM fun scenario => f configuration scenario) =
    trial.pairs.forM fun pair => f pair.1 pair.2 := by
  unfold pairs
  simp only [List.forM_eq_forM]
  induction trial.configurations with
  | nil => rfl
  | cons configuration configurations ih =>
      simp only [List.forM_cons, List.flatMap_cons, List.forM_append, List.forM_map, ih]

/-- A run ends with one report of what came of all the pairs. -/
theorem run_eq {Conn : Type} (venue : Venue (StateM σ) Conn) (trial : Trial) (s : σ) :
    StateT.run (trial.run venue) s = match perform (trial.runAll venue) s with
      | (.ok (), s') => (.ok (), ((venue.tell .passed).run s').2)
      | (.error failure, s') => (.error failure, ((venue.tell (.failed failure)).run s').2) := by
  rw [Trial.run, StateT.run_bind, perform]
  generalize StateT.run (ExceptT.run (runAll venue trial)) s = outcome
  obtain ⟨_ | _, s'⟩ := outcome <;> rfl

end DeflateTrial.Trial
