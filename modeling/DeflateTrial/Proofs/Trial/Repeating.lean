/-
Repeating — the text of a failure tells what to repeat

    echo scenario failed with [permessage-deflate; threshold=0] at 2^3 (8 bytes): ...

The text of a configuration is an entry of the extension, with a parameter for each
wish (`Configuration.entry`).  Nothing in it would be cut or dropped where an entry is
read, so the text gives the entry back, and the entry the wishes, each under its name
(`Configuration.entry_injective`).

A failure has this text in brackets, behind the scenario's name and before the exponent.
There is no other bracket up to there, so its text tells all three of them
(`Failure.told_of_message`).  Only of a configuration that offers nothing the wishes
are not told; they are not sent either.
-/
import DeflateTrial.Failure
import DeflateTrial.Proofs.Extension.Negotiation
import DeflateTrial.Proofs.Text.Numerals

namespace DeflateTrial

open Extension (Offer Param Settings Tame)

namespace Configuration

/-- The parameter for a number that is asked for. -/
def numberParam (name : String) (asked : Option Nat) : List Param :=
  (asked.map (Settings.windowParam name)).toList

/-- The parameter for a flag that is set. -/
def flagParam (name : String) (set : Bool) : List Param :=
  if set then [.flag name] else []

/-- The entry that an enabled configuration's text is. -/
def entry (c : Configuration) : Offer where
  name := Extension.deflateName
  params :=
    numberParam "threshold" c.threshold
      ++ numberParam Extension.serverWindowName c.serverWindowBits
      ++ numberParam Extension.clientWindowName c.clientWindowBits
      ++ flagParam Extension.serverNoContextName c.serverNoContext
      ++ flagParam Extension.clientNoContextName c.clientNoContext

variable {a b c : Configuration}

/-! ## The text is an entry -/

theorem map_write_numberParam (name : String) (asked : Option Nat) :
    (numberParam name asked).map Param.write = numberPart name asked := by
  cases asked <;> rfl

theorem map_write_flagParam (name : String) (set : Bool) :
    (flagParam name set).map Param.write = flagPart name set := by
  cases set <;> rfl

theorem write_entry (enabled : c.enabled = true) : c.entry.write = c.describe := by
  rw [describe, if_pos enabled, Offer.write]
  simp only [entry, List.map_append, map_write_numberParam, map_write_flagParam]
  rfl

/-- The names under which a configuration asks for a number. -/
def numberNames : List String :=
  ["threshold", Extension.serverWindowName, Extension.clientWindowName]

/-- The names of a configuration's flags. -/
def flagNames : List String :=
  [Extension.serverNoContextName, Extension.clientNoContextName]

/-- A parameter as the entries of configurations have them. -/
inductive Wish : Param → Prop
  | number {name : String} (known : name ∈ numberNames) (n : Nat) :
      Wish (Settings.windowParam name n)
  | flag {name : String} (known : name ∈ flagNames) : Wish (.flag name)

theorem wish_of_mem {param : Param} (member : param ∈ c.entry.params) : Wish param := by
  have number {name : String} {asked : Option Nat} (known : name ∈ numberNames)
      (member : param ∈ numberParam name asked) : Wish param := by
    obtain ⟨n, -, rfl⟩ := Option.map_eq_some_iff.mp (Option.mem_toList.mp member)
    exact .number known n
  have flag {name : String} {set : Bool} (known : name ∈ flagNames)
      (member : param ∈ flagParam name set) : Wish param := by
    rw [flagParam] at member
    split at member
    · rw [List.mem_singleton.mp member]
      exact .flag known
    · cases member
  simp only [entry, List.mem_append] at member
  rcases member with (((member | member) | member) | member) | member
  · exact number (by decide) member
  · exact number (by decide) member
  · exact number (by decide) member
  · exact flag (by decide) member
  · exact flag (by decide) member

theorem Wish.tame {param : Param} (wish : Wish param) : Tame param := by
  cases wish with
  | @number name known n =>
      have tokens : ∀ name ∈ numberNames, name.toList.all Extension.isToken = true := by decide
      exact Extension.tame_windowParam (tokens name known) n
  | @flag name known =>
      have tokens : ∀ name ∈ flagNames, name.toList.all Extension.isToken = true ∧
        name.toList ≠ [] := by decide
      exact Extension.tame_flag (tokens name known).1 (tokens name known).2

theorem Wish.bracket_not_mem {param : Param} (wish : Wish param) : ']' ∉ param.write.toList := by
  rw [Param.toList_write]
  cases wish with
  | @number name known n =>
      have free : ∀ name ∈ numberNames, ']' ∉ name.toList := by decide
      have digits : ']' ∉ (Text.Decimal.write n).toList := by
        rw [Text.Decimal.write, String.toList_ofList]
        exact Text.Decimal.not_mem_digits (by decide) n
      intro member
      rcases List.mem_append.mp member with member | member
      · exact free name known member
      · rcases List.mem_cons.mp member with equals | member
        · exact absurd equals (by decide)
        · exact digits member
  | @flag name known => exact (by decide : ∀ name ∈ flagNames, ']' ∉ name.toList) name known

theorem parse_describe (enabled : c.enabled = true) : Offer.parse c.describe = .ok c.entry := by
  rw [← write_entry enabled]
  exact (Extension.read_write rfl fun param member => (wish_of_mem member).tame).2

/-! ## The entry tells the wishes -/

theorem find?_numberParam (name other : String) (asked : Option Nat) :
    (numberParam name asked).find? (·.name = other) =
      if name = other then asked.map (Settings.windowParam name) else none := by
  cases asked with
  | none => simp [numberParam]
  | some n =>
      by_cases same : name = other <;>
        simp [numberParam, Settings.windowParam, Param.valued, same]

theorem find?_flagParam (name other : String) (set : Bool) :
    (flagParam name set).find? (·.name = other) =
      if name = other ∧ set = true then some (.flag name) else none := by
  by_cases same : name = other <;> cases set <;> simp [flagParam, Param.flag, same]

theorem windowParam_injective (name : String) : Function.Injective (Settings.windowParam name) := by
  intro n m same
  have values := Option.some.inj (congrArg Param.value same)
  exact Text.Decimal.digits_injective (String.ofList_injective values)

/-- Configurations that are enabled or not alike have the same wishes if they have the
same entry: each stands there under its own name. -/
theorem entry_injective (alike : a.enabled = b.enabled) (same : a.entry = b.entry) : a = b := by
  have found (name : String) : a.entry.param? name = b.entry.param? name := by rw [same]
  simp only [Offer.param?, entry, List.find?_append, find?_numberParam, find?_flagParam,
    Extension.serverWindowName, Extension.clientWindowName, Extension.serverNoContextName,
    Extension.clientNoContextName] at found
  have number {name : String} {asked asked' : Option Nat}
      (told : asked.map (Settings.windowParam name) = asked'.map (Settings.windowParam name)) :
      asked = asked' :=
    Option.map_injective (windowParam_injective name) told
  have flag {param : Param} {set set' : Bool}
      (told : (if set = true then some param else none) =
        if set' = true then some param else none) : set = set' := by
    cases set <;> cases set' <;> simp_all
  have threshold := found "threshold"
  have serverWindow := found "server_max_window_bits"
  have clientWindow := found "client_max_window_bits"
  have serverNoContext := found "server_no_context_takeover"
  have clientNoContext := found "client_no_context_takeover"
  simp only [↓reduceIte, String.reduceEq, Option.or_none, false_and, Option.none_or, Option.or_self,
    true_and] at threshold serverWindow clientWindow serverNoContext clientNoContext
  cases a
  cases b
  rw [Configuration.mk.injEq]
  exact ⟨alike, number threshold, number serverWindow, number clientWindow, flag serverNoContext,
    flag clientNoContext⟩

theorem describe_of_disabled (disabled : c.enabled = false) : c.describe = "disabled" := by
  rw [describe, disabled]
  rfl

theorem eq_of_describe_eq (enabled : a.enabled = true) (same : a.describe = b.describe) :
    a = b := by
  have read := parse_describe enabled
  cases other : b.enabled with
  | true =>
      rw [same, parse_describe other, Except.ok.injEq] at read
      exact entry_injective (enabled.trans other.symm) read.symm
  | false =>
      -- the text would be read as an entry of another name
      have named : Offer.parse "disabled" = .ok ⟨"disabled", []⟩ := by decide
      rw [same, describe_of_disabled other, named, Except.ok.injEq] at read
      have names : "disabled" = Extension.deflateName := congrArg Offer.name read
      exact absurd names (by decide)

theorem bracket_not_mem_describe (c : Configuration) : ']' ∉ c.describe.toList := by
  cases enabled : c.enabled with
  | false =>
      rw [describe_of_disabled enabled]
      decide
  | true =>
      have name : ']' ∉ Extension.deflateName.toList := by decide
      rw [← write_entry enabled]
      exact Offer.not_mem_write (by decide) name fun param known =>
        (wish_of_mem known).bracket_not_mem

end Configuration

namespace Failure

variable {f g : Failure}

/-! ## The text of a failure -/

theorem toList_message (f : Failure) : f.message.toList =
    (f.scenario.path.toList ++ " scenario failed with ".toList) ++ '[' ::
      (f.configuration.describe.toList ++ ']' ::
        ((progress f.exponent).toList ++ (": " ++ f.trouble.message).toList)) := by
  simp only [message, String.toList_append, List.append_assoc]
  rfl

theorem toList_progress (exponent : Nat) : (progress (some exponent)).toList =
    " at 2^".toList ++ (Text.Decimal.digits exponent ++ ' ' ::
      ("(" ++ Text.Decimal.write (1 <<< exponent) ++ " bytes)").toList) := by
  have text : progress (some exponent) = " at 2^" ++ Text.Decimal.write exponent ++ " (" ++
      Text.Decimal.write (1 <<< exponent) ++ " bytes)" := rfl
  have digits : (Text.Decimal.write exponent).toList = Text.Decimal.digits exponent :=
    String.toList_ofList
  simp only [text, String.toList_append, digits, List.append_assoc]
  rfl

/-- How far the scenario had come is told by what stands before the trouble. -/
theorem exponent_of_progress {exponent exponent' : Option Nat} {trouble trouble' : String}
    (same : (progress exponent).toList ++ (": " ++ trouble).toList =
      (progress exponent').toList ++ (": " ++ trouble').toList) : exponent = exponent' := by
  have without : (progress none).toList = [] := rfl
  have colon (text : String) : (": " ++ text).toList = ':' :: ' ' :: text.toList := by
    rw [String.toList_append]
    rfl
  have free : ∀ n, ' ' ∉ Text.Decimal.digits n := Text.Decimal.not_mem_digits (by decide)
  cases exponent with
  | none =>
      cases exponent' with
      | none => rfl
      | some n =>
          rw [without, toList_progress, colon] at same
          exact absurd (List.cons.inj same).1 (by decide)
  | some n =>
      cases exponent' with
      | none =>
          rw [without, toList_progress, colon trouble'] at same
          exact absurd (List.cons.inj same).1 (by decide)
      | some m =>
          simp only [toList_progress, List.append_assoc, List.append_cancel_left_eq,
            List.cons_append] at same
          have cut := congrArg (Text.cutFirst ' ') same
          rw [Text.cutFirst_append (free n), Text.cutFirst_append (free m), Option.some.injEq,
            Prod.mk.injEq] at cut
          rw [Text.Decimal.digits_injective cut.1]

theorem path_injective : Function.Injective Scenario.path := by
  intro a b same
  cases a <;> cases b
  · rfl
  · exact absurd same (by decide)
  · exact absurd same (by decide)
  · rfl

theorem told_of_message (same : f.message = g.message) :
    f.scenario = g.scenario ∧ f.configuration.describe = g.configuration.describe ∧
      f.exponent = g.exponent := by
  have texts := congrArg String.toList same
  rw [toList_message, toList_message] at texts
  have free (scenario : Scenario) :
      '[' ∉ scenario.path.toList ++ " scenario failed with ".toList := by
    cases scenario <;> decide
  have cut := congrArg (Text.cutFirst '[') texts
  rw [Text.cutFirst_append (free _), Text.cutFirst_append (free _), Option.some.injEq,
    Prod.mk.injEq, List.append_cancel_right_eq] at cut
  obtain ⟨paths, behind⟩ := cut
  have cut := congrArg (Text.cutFirst ']') behind
  rw [Text.cutFirst_append (Configuration.bracket_not_mem_describe _),
    Text.cutFirst_append (Configuration.bracket_not_mem_describe _), Option.some.injEq,
    Prod.mk.injEq] at cut
  obtain ⟨configurations, behind⟩ := cut
  exact ⟨path_injective (String.toList_injective paths),
    String.toList_injective configurations, exponent_of_progress behind⟩

end Failure

/-- The text of an enabled configuration tells the configuration, and that it is enabled.
So the text of a failure tells the scenario, how far it had come, and the configuration,
but for the wishes of one that offers nothing. -/
theorem texts_tell :
    (∀ a b : Configuration, a.enabled = true → b.enabled = true → a.describe = b.describe →
      a = b) ∧
    (∀ a b : Configuration, a.enabled = true → b.enabled = false → a.describe ≠ b.describe) ∧
    ∀ f g : Failure, f.message = g.message →
      f.scenario = g.scenario ∧ f.exponent = g.exponent ∧
        (f.configuration = g.configuration ∨
          f.configuration.enabled = false ∧ g.configuration.enabled = false) := by
  refine ⟨fun a b enabled _ same => Configuration.eq_of_describe_eq enabled same, ?_, ?_⟩
  · intro a b enabled disabled same
    rw [Configuration.eq_of_describe_eq enabled same, disabled] at enabled
    cases enabled
  · intro f g same
    obtain ⟨scenario, configuration, exponent⟩ := Failure.told_of_message same
    refine ⟨scenario, exponent, ?_⟩
    cases first : f.configuration.enabled with
    | true => exact .inl (Configuration.eq_of_describe_eq first configuration)
    | false =>
        cases second : g.configuration.enabled with
        | true => exact .inl (Configuration.eq_of_describe_eq second configuration.symm).symm
        | false => exact .inr ⟨rfl, rfl⟩

/-- The same wishes made in another order, a configuration that is like the disabled one but
for being enabled, and two failures whose configurations offer nothing. -/
theorem texts_tell_wishes :
    let a := (Configuration.plain.withThreshold 18).withServerWindow 1
    let b := (Configuration.plain.withServerWindow 1).withThreshold 18
    let f : Failure := ⟨.echo, .disabled, some 3, .config "x"⟩
    let g : Failure := ⟨.echo, { threshold := some 5 }, some 3, .config "x"⟩
    a.enabled = true ∧ b.enabled = true ∧ a.describe = b.describe ∧ a = b ∧
      Configuration.plain.describe ≠ Configuration.disabled.describe ∧
      f.message = g.message ∧ f.scenario = g.scenario ∧ f.exponent = g.exponent ∧
      f.configuration ≠ g.configuration ∧ g.configuration.enabled = false := by
  intro a b f g
  obtain ⟨enabled, disabled, failures⟩ := texts_tell
  obtain ⟨scenario, exponent, offers⟩ := failures f g rfl
  have differ : f.configuration ≠ g.configuration := by decide
  exact ⟨rfl, rfl, rfl, enabled a b rfl rfl rfl, disabled _ _ rfl rfl, rfl, scenario, exponent,
    differ, (offers.resolve_left differ).2⟩

end DeflateTrial
