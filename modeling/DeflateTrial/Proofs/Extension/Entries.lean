/-
Entries — what the texts of offers and answers look like

An offer and the answer to it have at most four parameters, each of them a
name of the extension's own, alone or with a window exponent (`Usual`).  So
their texts can stand in a head: they have no line ends, no white space around
them and at most 150 characters (`fits_offer`, `fits_response`).
-/
import DeflateTrial.Proofs.Extension.Negotiation
import DeflateTrial.Proofs.Handshake.Exchange
import Mathlib.Algebra.Group.Nat.Defs

namespace DeflateTrial

namespace Text.Decimal

theorem length_digits_le {n k : Nat} (h : n < 10 ^ (k + 1)) : (digits n).length ≤ k + 1 := by
  induction k generalizing n with
  | zero =>
      have least : n < 10 := h
      rw [digits, if_pos least]
      exact Nat.le_refl 1
  | succ k ih =>
      rw [digits]
      split
      · exact Nat.succ_le_succ (Nat.zero_le _)
      · have less : n / 10 < 10 ^ (k + 1) := by
          rw [Nat.div_lt_iff_lt_mul (by decide), ← Nat.pow_succ]
          exact h
        rw [List.length_append]
        exact Nat.succ_le_succ (ih less)

theorem length_write_le {n k : Nat} (h : n < 10 ^ (k + 1)) : (write n).length ≤ k + 1 := by
  rw [write, String.length_ofList]
  exact length_digits_le h

theorem unbroken_write (n : Nat) : Unbroken (write n) := by
  refine unbroken_of_not_blank fun c member => ?_
  rw [write, String.toList_ofList] at member
  obtain ⟨d, lt, rfl⟩ := mem_digits member
  exact (by decide : ∀ d < 10, isBlank (digit d) = false) d lt

end Text.Decimal

namespace Extension

/-- A parameter as offers and answers have them. -/
inductive Usual : Param → Prop
  | flag {name : String} (known : name ∈ paramNames) : Usual (.flag name)
  | window {name : String} {bits : Nat} (known : name ∈ paramNames) (allowed : Allowed bits) :
      Usual (Settings.windowParam name bits)

theorem usual_flags (serverNoContext clientNoContext : Bool) :
    ∀ param ∈ Settings.flags serverNoContext clientNoContext, Usual param := by
  intro param h
  rw [Settings.flags, List.mem_append] at h
  rcases h with h | h
  · split at h
    · rw [List.mem_singleton.mp h]
      exact .flag (by decide)
    · cases h
  · split at h
    · rw [List.mem_singleton.mp h]
      exact .flag (by decide)
    · cases h

theorem usual_offer {s : Settings} (sound : s.Sound) : ∀ param ∈ s.offer.params, Usual param := by
  intro param h
  rw [Settings.params_offer, List.mem_append, List.mem_append, List.mem_singleton] at h
  rcases h with (h | h) | rfl
  · exact usual_flags _ _ param h
  · obtain ⟨bits, asked, rfl⟩ := Option.map_eq_some_iff.mp (Option.mem_toList.mp h)
    exact .window (by decide) (sound.serverWindow bits asked)
  · cases asked : s.clientWindowBits with
    | none => exact .flag (by decide)
    | some bits => exact .window (by decide) (sound.clientWindow bits asked)

theorem usual_response {client server : Settings} (hc : client.Sound) (hs : server.Sound) :
    ∀ param ∈ (client.agreed server).response.params, Usual param := by
  intro param h
  simp only [Agreement.response, List.mem_append, List.mem_cons, List.not_mem_nil, or_false] at h
  rcases h with h | rfl | rfl
  · exact usual_flags _ _ param h
  · exact .window (by decide) (Settings.allowed_least hc.serverWindow hs.serverWindow)
  · exact .window (by decide) (Settings.allowed_least hc.clientWindow hs.clientWindow)

/-! ## Texts that fit into a head -/

/-- A text that can stand as a value in a head, and is read as it stands there. -/
structure Fits (text : String) : Prop where
  whole : Text.Unbroken text
  trimmed : Text.trimmed text = text
  short : text.length ≤ 150

theorem unbroken_name {name : String} (known : name ∈ paramNames) :
    Text.Unbroken name ∧ name.length ≤ 26 :=
  (by decide : ∀ name ∈ paramNames, Text.Unbroken name ∧ name.length ≤ 26) name known

theorem Settings.unbroken_windowParam {name : String} (whole : Text.Unbroken name) (bits : Nat) :
    Text.Unbroken (windowParam name bits).write :=
  Text.unbroken_append.mpr
    ⟨Text.unbroken_append.mpr ⟨whole, by decide⟩, Text.Decimal.unbroken_write bits⟩

theorem unbroken_write {param : Param} (usual : Usual param) :
    Text.Unbroken param.write ∧ param.write.length ≤ 29 := by
  cases usual with
  | flag known =>
      obtain ⟨whole, short⟩ := unbroken_name known
      exact ⟨whole, Nat.le_trans short (by decide)⟩
  | @window name bits known allowed =>
      obtain ⟨whole, short⟩ := unbroken_name known
      have small : bits < 10 ^ (1 + 1) := Nat.lt_of_le_of_lt allowed.2 (by decide)
      have digits := Text.Decimal.length_write_le small
      refine ⟨Settings.unbroken_windowParam whole bits, ?_⟩
      have text : (Settings.windowParam name bits).write =
          name ++ "=" ++ Text.Decimal.write bits := rfl
      rw [text, String.length_append, String.length_append, show "=".length = 1 from rfl]
      omega

namespace Offer

theorem length_joined_le {name : List Char} {params : List (List Char)} {most : Nat}
    (each : ∀ param ∈ params, param.length ≤ most) :
    (joined name params).length ≤ name.length + params.length * (most + 2) := by
  induction params generalizing name with
  | nil => exact Nat.le_add_right ..
  | cons param params ih =>
      have here := each param List.mem_cons_self
      have rest : (joined param params).length ≤ param.length + params.length * (most + 2) :=
        ih fun other member => each other (List.mem_cons_of_mem _ member)
      simp only [joined, List.length_append, List.length_cons, Nat.add_mul]
      omega

theorem unbroken_write {entry : Offer} (name : Text.Unbroken entry.name)
    (params : ∀ param ∈ entry.params, Text.Unbroken param.write) :
    Text.Unbroken entry.write :=
  ⟨not_mem_write (by decide) name.1 fun param given => (params param given).1,
    not_mem_write (by decide) name.2 fun param given => (params param given).2⟩

end Offer

theorem fits_write {entry : Offer} (name : entry.name = deflateName)
    (usual : ∀ param ∈ entry.params, Usual param) (tame : ∀ param ∈ entry.params, Tame param)
    (names : (entry.params.map (·.name)).Sublist paramNames) : Fits entry.write := by
  have tokens : entry.name.toList.all isToken = true := by
    rw [name]
    decide
  have plain : entry.Plain := {
    name := trimmed_of_isToken tokens
    named := by rw [name]; decide
    undivided := not_mem_of_isToken tokens (by decide)
    params := fun param member => ⟨(tame param member).1, (tame param member).2.1⟩ }
  have whole : Text.Unbroken entry.write :=
    Offer.unbroken_write (by rw [name]; decide) fun param hp => (unbroken_write (usual param hp)).1
  refine ⟨whole, Text.trimmed_eq (Offer.trimmed_write plain), ?_⟩
  have count : entry.params.length ≤ 4 := by
    have := names.length_le
    rw [List.length_map] at this
    exact this
  have lengths : ∀ text ∈ entry.params.map (·.write.toList), text.length ≤ 29 := by
    intro text ht
    obtain ⟨param, hp, rfl⟩ := List.mem_map.mp ht
    exact (unbroken_write (usual param hp)).2
  have total : (Offer.joined entry.name.toList _).length ≤ _ := Offer.length_joined_le lengths
  have first : entry.name.toList.length = 18 := by
    rw [name]
    rfl
  rw [← Offer.toList_write, List.length_map, first] at total
  have : entry.write.length = entry.write.toList.length := rfl
  omega

theorem fits_offer {s : Settings} (sound : s.Sound) : Fits s.offer.write :=
  fits_write rfl (usual_offer sound) (tame_offer s) (names_offer s)

theorem fits_response {client server : Settings} (hc : client.Sound) (hs : server.Sound) :
    Fits (client.agreed server).response.write :=
  fits_write rfl (usual_response hc hs) (tame_response _) (names_response _)

/-! ## Whatever was agreed -/

theorem Settings.unbroken_flags (serverNoContext clientNoContext : Bool) :
    ∀ param ∈ flags serverNoContext clientNoContext, Text.Unbroken param.write := by
  cases serverNoContext <;> cases clientNoContext <;> decide

theorem Agreement.unbroken_response (a : Agreement) : Text.Unbroken a.response.write := by
  refine Offer.unbroken_write (by decide : Text.Unbroken deflateName) fun param given => ?_
  simp only [response, List.mem_append, List.mem_cons, List.not_mem_nil, or_false] at given
  rcases given with flag | rfl | rfl
  · exact Settings.unbroken_flags _ _ param flag
  · exact Settings.unbroken_windowParam (by decide) _
  · exact Settings.unbroken_windowParam (by decide) _

end Extension

end DeflateTrial
