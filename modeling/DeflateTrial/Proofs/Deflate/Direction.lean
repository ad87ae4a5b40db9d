/-
Direction — the messages of one direction come through compression unchanged

Two streams run beside each other: the compressor's, which begins anew where
every message stands on its own, and the decompressor's, which may go on.
`Deflater.Follows` says which texts the compressor's stream has taken in, and
`InStep` that the decompressor has these texts behind it, after any others.
Being in step is what one message preserves (`inflate_deflate`), whatever it
is: compressed, empty and past the compressor, the last of a stream or not.
-/
import DeflateTrial.Deflate.Deflater
import DeflateTrial.Proofs.Deflate.Decoding
import DeflateTrial.Proofs.Deflate.Soundness

namespace DeflateTrial.Deflate

namespace Deflater

/-- A deflater whose compressor is sound, between two messages, after the
texts that its present stream has taken in. -/
structure Follows (deflater : Deflater) (past : List Bytes) : Prop where
  sound : deflater.compressor.Sound
  level : deflater.level ≤ 9
  window : ∃ bits, deflater.window = Window.size bits
  texts : ∀ text ∈ past, text ≠ []
  kept : deflater.kept = deflater.compressor.keptAfter deflater.window deflater.level past
  alone : deflater.noContext = true → past = []

theorem follows_new {compressor : Compressor} (sound : compressor.Sound) {level : Nat}
    (hl : level ≤ 9) (bits : Nat) (noContext : Bool) (threshold : Nat) :
    (new bits noContext level threshold compressor).Follows [] :=
  ⟨sound, hl, ⟨bits, rfl⟩, List.forall_mem_nil _, rfl, fun _ => rfl⟩

@[simp] theorem deflate_window (deflater : Deflater) (data : Bytes) :
    (deflater.deflate data).2.window = deflater.window := by
  unfold deflate
  split <;> rfl

@[simp] theorem deflate_noContext (deflater : Deflater) (data : Bytes) :
    (deflater.deflate data).2.noContext = deflater.noContext := by
  unfold deflate
  split <;> rfl

/-- A message with its tail put back is blocks that add it to the texts so
far; and of all these the deflater's stream has then taken in the last. -/
theorem blocks_deflate {deflater : Deflater} {past : List Bytes}
    (follows : deflater.Follows past) (data : Bytes) :
    Blocks deflater.window past.flatten.toArray
        (Bits.ofBytes ((deflater.deflate data).1 ++ Window.tail)) (past.flatten ++ data).toArray ∧
      ∃ (before : Bytes) (past' : List Bytes),
        past.flatten ++ data = before ++ past'.flatten ∧
          (deflater.deflate data).2.Follows past' := by
  cases data with
  | nil =>
      rw [List.append_nil]
      exact ⟨blocks_closing (by decide : 5 < 8), [], past, rfl, follows⟩
  | cons byte data =>
      obtain ⟨bits, hw⟩ := follows.window
      obtain ⟨⟨stream, written⟩, blocks⟩ := follows.sound bits deflater.level past (byte :: data)
        follows.level follows.texts (List.cons_ne_nil _ _)
      rw [← hw, ← follows.kept] at written blocks
      have sent : (deflater.deflate (byte :: data)).1 = stream := by
        simp only [deflate, List.isEmpty_cons, Bool.false_eq_true, if_false, ← written]
        simp
      rw [sent, written]
      refine ⟨blocks, ?_⟩
      have next : (deflater.deflate (byte :: data)).2 = { deflater with
          kept := if deflater.noContext then #[] else
            (deflater.compressor.next deflater.window deflater.level deflater.kept
              (byte :: data)).2 } := rfl
      rw [next]
      by_cases alone : deflater.noContext = true
      · -- a new stream begins
        rw [if_pos alone]
        refine ⟨past.flatten ++ byte :: data, [], by simp, follows.sound, follows.level,
          ⟨bits, hw⟩, List.forall_mem_nil _, rfl, fun _ => rfl⟩
      · rw [if_neg alone]
        refine ⟨[], past ++ [byte :: data], by simp, follows.sound, follows.level,
          ⟨bits, hw⟩, ?_, ?_, fun h => absurd h alone⟩
        · intro text member
          rcases List.mem_append.mp member with h | h
          · exact follows.texts text h
          · rw [List.mem_singleton.mp h]
            exact List.cons_ne_nil _ _
        · rw [Compressor.keptAfter, List.foldl_append, ← Compressor.keptAfter, ← follows.kept]
          rfl

def deflateAll (deflater : Deflater) : List Bytes → List Bytes
  | [] => []
  | data :: messages =>
    let (sent, next) := deflater.deflate data
    sent :: next.deflateAll messages

end Deflater

namespace Inflater

def inflateAll (inflater : Inflater) : List Bytes → List (Except Fault Bytes)
  | [] => []
  | data :: messages =>
    let (received, next) := inflater.inflate data
    received :: next.inflateAll messages

end Inflater

/-- The two ends of a direction between two messages: the decompressor has
behind it what the compressor's present stream has taken in, and resets only
where that does. -/
structure InStep (deflater : Deflater) (inflater : Inflater) : Prop where
  texts : ∃ (before : Bytes) (past : List Bytes),
    deflater.Follows past ∧ inflater.Stands (before ++ past.flatten).toArray
  wide : deflater.window ≤ inflater.window
  alone : inflater.noContext = true → deflater.noContext = true

theorem inStep_new {compressor : Compressor} (sound : compressor.Sound) {bits bits' level : Nat}
    (hl : level ≤ 9) (wider : bits ≤ bits') {noContext noContext' : Bool}
    (alone : noContext' = true → noContext = true) (threshold maxSize : Nat) :
    InStep (.new bits noContext level threshold compressor) (.new bits' noContext' maxSize) :=
  ⟨⟨[], [], Deflater.follows_new sound hl bits noContext threshold,
    Inflater.stands_new bits' noContext' maxSize⟩, Window.size_mono wider, alone⟩

theorem inflate_deflate {deflater : Deflater} {inflater : Inflater} {data : Bytes}
    (h : InStep deflater inflater) (small : data.length ≤ inflater.maxSize) :
    ∃ next, inflater.inflate (deflater.deflate data).1 = (.ok data, next) ∧
      InStep (deflater.deflate data).2 next ∧ next.maxSize = inflater.maxSize := by
  obtain ⟨⟨before, past, follows, stands⟩, wide, alone⟩ := h
  obtain ⟨blocks, after, past', split, follows'⟩ := deflater.blocks_deflate follows data
  have whole := blocks.prepend before.toArray
  rw [List.append_toArray before, List.append_toArray before, ← List.append_assoc,
    ← List.append_toArray _ data] at whole
  obtain ⟨next, stands', hw, hc, hm, received⟩ :=
    Inflater.inflate_of_blocks stands wide small whole
  refine ⟨_, received, ?_⟩
  by_cases reset : inflater.noContext = true
  · -- both begin anew
    rw [if_pos reset]
    obtain ⟨bits, hb⟩ := follows.window
    have none := follows'.alone (by rw [Deflater.deflate_noContext]; exact alone reset)
    refine ⟨⟨⟨[], past', follows', ?_⟩, ?_, ?_⟩, rfl⟩
    · rw [none]
      exact Inflater.stands_new ..
    · rw [Deflater.deflate_window, hb]
      exact Window.size_le_maxBits bits
    · rw [Deflater.deflate_noContext]
      exact alone
  · rw [if_neg reset]
    refine ⟨⟨⟨before ++ after, past', follows', ?_⟩, ?_, ?_⟩, hm⟩
    · rw [List.append_assoc, ← split, ← List.append_assoc, ← List.append_toArray _ data]
      exact stands'
    · rw [Deflater.deflate_window, hw]
      exact wide
    · rw [Deflater.deflate_noContext, hc]
      exact alone

theorem inflateAll_of_inStep {messages : List Bytes} {deflater : Deflater} {inflater : Inflater}
    (h : InStep deflater inflater)
    (small : ∀ data ∈ messages, data.length ≤ inflater.maxSize) :
    inflater.inflateAll (deflater.deflateAll messages) = messages.map .ok := by
  induction messages generalizing deflater inflater with
  | nil => rfl
  | cons data messages ih =>
      obtain ⟨next, received, inStep, hm⟩ := inflate_deflate h (small data List.mem_cons_self)
      have rest := ih inStep (by
        rw [hm]
        exact fun data member => small data (List.mem_cons_of_mem _ member))
      rw [Deflater.deflateAll, Inflater.inflateAll, received, List.map_cons, ← rest]

/-- Whatever messages of one direction are compressed, decompressing them in
order gives them back: with any sound compressor, under a window that is no
wider than the decompressor's, and as long as the decompressor resets only if
the compressor does. -/
theorem inflateAll_deflateAll {compressor : Compressor} (sound : compressor.Sound)
    {bits bits' level threshold maxSize : Nat} {noContext noContext' : Bool} {messages : List Bytes}
    (wider : bits ≤ bits') (hl : level ≤ 9) (alone : noContext' = true → noContext = true)
    (small : ∀ data ∈ messages, data.length ≤ maxSize) :
    (Inflater.new bits' noContext' maxSize).inflateAll
        ((Deflater.new bits noContext level threshold compressor).deflateAll messages) =
      messages.map .ok :=
  inflateAll_of_inStep (inStep_new sound hl wider alone threshold maxSize) small

/-- The narrowest window that can be agreed on, an empty message between two
others, and a decompressor that does not reset although the compressor does. -/
theorem inflateAll_deflateAll_resetting :
    (Inflater.new 8 false 5).inflateAll
        ((Deflater.new 8 true 6 0).deflateAll [[104, 105, 104, 105], [], [104, 105]]) =
      [.ok [104, 105, 104, 105], .ok [], .ok [104, 105]] :=
  inflateAll_deflateAll Compressor.fixedCode_sound (Nat.le_refl 8) (by decide)
    (fun h => absurd h (by decide)) (by decide)

end DeflateTrial.Deflate
