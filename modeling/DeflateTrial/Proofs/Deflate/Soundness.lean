/-
Soundness — a compressor's streams are blocks of its texts

`Compressor.Sound` is all that the rest of the development asks of a
compressor: every stream of its own is whole blocks that end in an empty
stored one, and they add the text to the texts before it.  How the blocks are
chosen and what the compressor keeps are left to it.

The compressor with the fixed code is sound (`fixedCode_sound`).  What it
keeps are the last bytes of the texts so far, so its copies may be put after
the whole of them (`Blocks.prepend`).
-/
import DeflateTrial.Deflate.Compressor
import DeflateTrial.Proofs.Deflate.FixedCode
import DeflateTrial.Proofs.Deflate.Matching

namespace DeflateTrial.Deflate

namespace Compressor

/-- What a compressor has kept after the texts of a stream. -/
def keptAfter (compressor : Compressor) (window level : Nat) (past : List Bytes) : Array UInt8 :=
  past.foldl (fun kept data => (compressor.next window level kept data).2) #[]

/-- The stream of every text is whole blocks, the last of them an empty
stored one, that add it to the texts before. -/
def Sound (compressor : Compressor) : Prop :=
  ∀ (bits level : Nat) (past : List Bytes) (data : Bytes), level ≤ 9 →
    (∀ text ∈ past, text ≠ []) → data ≠ [] →
    let stream := (compressor.next (Window.size bits) level
      (compressor.keptAfter (Window.size bits) level past) data).1
    Window.tail <:+ stream ∧
      Blocks (Window.size bits) past.flatten.toArray (Bits.ofBytes stream)
        (past.flatten ++ data).toArray

end Compressor

section Headers
variable {window : Nat} {text text' : Array UInt8}

/-! ## Stored blocks -/

theorem readNat_length {n : Nat} (h : n ≤ 65535) (bytes : Bytes) :
    readNat 16 (Bits.ofBytes ((Bytes.ofNat 2 n).reverse ++ bytes)) =
      .done n (Bits.ofBytes bytes) := by
  have written : (Bytes.ofNat 2 n).reverse = [UInt8.ofNat n, UInt8.ofNat (n >>> 8)] := by
    simp [Bytes.ofNat]
  have value : (UInt8.ofNat n).toNat + 256 * (UInt8.ofNat (n >>> 8)).toNat = n := by
    rw [UInt8.toNat_ofNat', UInt8.toNat_ofNat', Nat.shiftRight_eq_div_pow]
    omega
  rw [written, List.cons_append, List.cons_append, List.nil_append, readNat_ofBytes_pair, value]

theorem align_ofBytes {spare : Nat} (h : spare < 8) (bytes : Bytes) :
    Block.align (List.replicate spare false ++ Bits.ofBytes bytes) = Bits.ofBytes bytes := by
  rw [Block.align, List.length_append, List.length_replicate, Bits.length_ofBytes,
    Nat.add_mul_mod_self_left, Nat.mod_eq_of_lt h]
  exact List.drop_left' List.length_replicate

theorem readStored_lengths {spare size : Nat} (h : spare < 8) (small : size ≤ 65535)
    (bytes : Bytes) :
    Block.readStored (List.replicate spare false ++ Bits.ofBytes
      ((Bytes.ofNat 2 size).reverse ++ ((Bytes.ofNat 2 (65535 - size)).reverse ++ bytes))) =
      .done (.stored size) (Bits.ofBytes bytes) := by
  rw [Block.readStored, align_ofBytes h, readNat_length small]
  simp only [Reading.andThen, readNat_length (Nat.sub_le 65535 size)]
  rw [if_pos (Nat.add_sub_cancel' small)]

/-- The header of a stored block, of which the first three bits may stand
anywhere in a byte. -/
theorem readHeader_stored {spare size : Nat} (h : spare < 8) (small : size ≤ 65535)
    (bytes : Bytes) :
    Block.readHeader ([false, false, false] ++ (List.replicate spare false ++ Bits.ofBytes
      ((Bytes.ofNat 2 size).reverse ++ ((Bytes.ofNat 2 (65535 - size)).reverse ++ bytes)))) =
      .done (false, .stored size) (Bits.ofBytes bytes) := by
  have read := readNat_append [false, false, false] (List.replicate spare false ++ Bits.ofBytes
    ((Bytes.ofNat 2 size).reverse ++ ((Bytes.ofNat 2 (65535 - size)).reverse ++ bytes)))
  rw [Block.readHeader, show 3 = [false, false, false].length from rfl, read]
  simp only [Reading.andThen, Bits.toNat, Bool.toNat_false, Nat.mul_zero, Nat.add_zero,
    Nat.zero_div, readStored_lengths h small]
  rfl

theorem blocks_closing {spare : Nat} (h : spare < 8) :
    Blocks window text ([false, false, false] ++
      (List.replicate spare false ++ Bits.ofBytes Window.tail)) text := by
  have read : Block.readHeader ([false, false, false] ++
      (List.replicate spare false ++ Bits.ofBytes Window.tail)) =
        .done (false, .stored ([] : Bytes).length) (Bits.ofBytes [] ++ []) :=
    readHeader_stored h (Nat.zero_le _) []
  refine .stored read ?_
  rw [show text ++ ([] : Bytes).toArray = text from Array.append_empty]
  exact .none

theorem blocks_storedHeader {part rest : Bytes} (small : part.length ≤ 65535)
    (h : Blocks window (text ++ part.toArray) (Bits.ofBytes rest) text') :
    Blocks window text
      (Bits.ofBytes (Compressor.storedHeader part.length ++ (part ++ rest))) text' := by
  have read := readHeader_stored (by decide : 5 < 8) small (part ++ rest)
  rw [Bits.ofBytes_append part] at read
  rw [Compressor.storedHeader, List.cons_append, List.append_assoc]
  exact .stored read h

theorem blocks_storedBlocks (window : Nat) (written : Array UInt8) (data : Bytes) :
    ∃ more, (Compressor.storedBlocks written data).toList = written.toList ++ more ∧
      ∀ {text text' : Array UInt8} {rest : Bytes},
        Blocks window (text ++ data.toArray) (Bits.ofBytes rest) text' →
          Blocks window text (Bits.ofBytes (more ++ rest)) text' := by
  induction written, data using Compressor.storedBlocks.induct with
  | case1 written data h =>
      refine ⟨[], ?_, fun {text text' rest} blocks => ?_⟩
      · rw [Compressor.storedBlocks, dif_pos h, List.append_nil]
      · rw [List.isEmpty_iff.mp h, show text ++ ([] : Bytes).toArray = text from
          Array.append_empty] at blocks
        exact blocks
  | case2 written data h part ih =>
      obtain ⟨more, hm, blocks⟩ := ih
      refine ⟨Compressor.storedHeader part.length ++ (part ++ more), ?_, fun after => ?_⟩
      · rw [Compressor.storedBlocks, dif_neg h, hm]
        simp only [Array.toList_append, List.append_assoc, part]
      · rw [List.append_assoc, List.append_assoc]
        refine blocks_storedHeader (List.length_take_le ..) (blocks ?_)
        have whole : part.toArray ++ (data.drop Compressor.maxStored).toArray = data.toArray := by
          rw [List.append_toArray part, List.take_append_drop]
        rw [Array.append_assoc, whole]
        exact after

/-! ## The fixed code -/

theorem items_of_spells {tokens : List Token} (h : Spells window text tokens text')
    (narrow : window ≤ 32768) (rest : List Bool) :
    Items window Block.fixedLiterals Block.fixedDistances text
      (tokens.flatMap Token.bits ++ (literalWords.getD endOfBlock [] ++ rest)) text' rest := by
  induction h with
  | nil =>
      rw [List.flatMap_nil, List.nil_append]
      exact .stop (readItem_endOfBlock rest)
  | @cons text token tokens text' fits _ ih =>
      rw [List.flatMap_cons, List.append_assoc]
      cases token with
      | literal byte =>
          have writable : (Token.literal byte).Writable := trivial
          exact .literal (readItem_bits writable _) ih
      | copy count distance =>
          obtain ⟨low, high, pos, near, inside⟩ := fits
          have writable : (Token.copy count distance).Writable :=
            ⟨low, high, pos, Nat.le_trans near narrow⟩
          exact .copy (readItem_bits writable _) pos near inside ih

theorem blocks_fixedBlock {tokens : List Token} (h : Spells window text tokens text')
    (narrow : window ≤ 32768) :
    Blocks window text
      (Bits.ofBytes (Bits.toBytes (Compressor.fixedBlock tokens) ++ Window.tail)) text' := by
  obtain ⟨spare, lt, -, written⟩ := Bits.ofBytes_toBytes (Compressor.fixedBlock tokens)
  rw [Bits.ofBytes_append, written, Compressor.fixedBlock]
  simp only [List.append_assoc]
  have read (rest : List Bool) : Block.readHeader ([false, true, false] ++ rest) =
      .done (false, .coded Block.fixedLiterals Block.fixedDistances) rest := by
    have three := readNat_append [false, true, false] rest
    rw [Block.readHeader, show 3 = [false, true, false].length from rfl, three]
    rfl
  exact .coded (read _) (items_of_spells h narrow _) (blocks_closing lt)

theorem blocks_fixedStream (bits level : Nat) (history : Array UInt8) (data : Bytes) :
    Blocks (Window.size bits) history
      (Bits.ofBytes (Compressor.fixedStream (Window.size bits) level history data))
      (history ++ data.toArray) := by
  rw [Compressor.fixedStream]
  by_cases stored : level = 0
  · obtain ⟨more, written, blocks⟩ := blocks_storedBlocks (Window.size bits) #[] data
    rw [if_pos stored, written, List.nil_append, List.append_assoc]
    exact blocks (blocks_closing (by decide : 5 < 8))
  · rw [if_neg stored]
    exact blocks_fixedBlock (Matcher.spells_tokens _ level history data)
      (Window.size_le_maxBits bits)

end Headers

namespace Compressor

/-- What the compressor with the fixed code keeps are the last bytes of the
texts. -/
theorem keptAfter_fixedCode (window level : Nat) (past : List Bytes) :
    fixedCode.keptAfter window level past = Window.recent window past.flatten.toArray := by
  have keeps (kept : Array UInt8) (data : Bytes) :
      (fixedCode.next window level kept data).2 = Window.recent window (kept ++ data.toArray) := rfl
  -- after any texts before them
  suffices h : ∀ before : Array UInt8,
      past.foldl (fun kept data => (fixedCode.next window level kept data).2)
        (Window.recent window before) = Window.recent window (before ++ past.flatten.toArray) by
    have fresh := h #[]
    rw [Window.recent_of_size_le (Nat.zero_le _), Array.empty_append] at fresh
    exact fresh
  induction past with
  | nil =>
      intro before
      rw [List.foldl_nil, List.flatten_nil, show before ++ ([] : Bytes).toArray = before from
        Array.append_empty]
  | cons data past ih =>
      intro before
      rw [List.foldl_cons, keeps, Window.recent_recent_append, ih, List.flatten_cons,
        Array.append_assoc, List.append_toArray data]

/-- The compressor with the fixed code is sound. -/
theorem fixedCode_sound : fixedCode.Sound := by
  intro bits level past data _ _ _
  have blocks := blocks_fixedStream bits level
    (Window.recent (Window.size bits) past.flatten.toArray) data
  have whole := blocks.prepend
    (past.flatten.toArray.extract 0 (past.flatten.toArray.size - Window.size bits))
  rw [← Array.append_assoc, Window.front_append_recent, List.append_toArray] at whole
  rw [keptAfter_fixedCode]
  exact ⟨List.suffix_append .., whole⟩

end Compressor

end DeflateTrial.Deflate
