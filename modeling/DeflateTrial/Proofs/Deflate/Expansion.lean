/-
Expansion — how much longer compressing can make a text

A text that does not compress becomes longer, and how much longer decides how
large a text may be sent in one frame (`Compressor.Swells`).  In the fixed
code a literal takes at most nine bits, and a copy no more than nine for each
of its bytes (`length_bits_le`); a stored block adds five bytes to at most
65535.  So with the fixed code a text grows by an eighth and a few bytes
(`fixedCode_swells`).
-/
import DeflateTrial.Deflate.Deflater
import DeflateTrial.Proofs.Deflate.Direction

namespace DeflateTrial.Deflate

namespace Compressor

/-- A text of at most so many bytes, behind any others of its stream, becomes
longer by at most `worst` bytes; the tail of the stream is not counted, as it
is not sent. -/
def Swells (compressor : Compressor) (size worst : Nat) : Prop :=
  ∀ (bits level : Nat) (past : List Bytes) (data : Bytes), level ≤ 9 →
    (∀ text ∈ past, text ≠ []) → data ≠ [] → data.length ≤ size →
      (compressor.next (Window.size bits) level
        (compressor.keptAfter (Window.size bits) level past) data).1.length ≤
          data.length + worst + Window.tail.length

end Compressor

namespace Deflater

theorem compressor_deflate (deflater : Deflater) (data : Bytes) :
    (deflater.deflate data).2.compressor = deflater.compressor := by
  unfold deflate
  split <;> rfl

theorem length_deflate_le {deflater : Deflater} {past : List Bytes} {size worst : Nat}
    (follows : deflater.Follows past) (swells : deflater.compressor.Swells size worst)
    {data : Bytes} (small : data.length ≤ size) :
    (deflater.deflate data).1.length ≤ max 1 (size + worst) := by
  cases data with
  | nil => exact Nat.le_max_left ..
  | cons byte data =>
      obtain ⟨bits, hw⟩ := follows.window
      have grown := swells bits deflater.level past (byte :: data) follows.level follows.texts
        (List.cons_ne_nil _ _) small
      rw [← hw, ← follows.kept] at grown
      rcases compressed : deflater.compressor.next deflater.window deflater.level deflater.kept
        (byte :: data) with ⟨stream, kept⟩
      have sent : (deflater.deflate (byte :: data)).1 =
          stream.take (stream.length - Window.tail.length) := by
        simp only [deflate, List.isEmpty_cons, Bool.false_eq_true, if_false, compressed]
      simp only [compressed] at grown
      rw [sent, List.length_take]
      omega

end Deflater

/-! ## Bits -/

namespace Bits

theorem length_pack (filled : Bytes) (bits : List Bool) :
    (pack filled bits).length = filled.length + (bits.length + 7) / 8 := by
  induction filled, bits using pack.induct with
  | case1 filled =>
      rw [pack, List.length_reverse]
      rfl
  | case2 filled b rest ih =>
      rw [pack, ih, List.length_cons, List.length_drop, List.length_cons]
      omega

theorem length_toBytes (bits : List Bool) : (toBytes bits).length = (bits.length + 7) / 8 := by
  rw [toBytes, length_pack, List.length_nil, Nat.zero_add]

end Bits

/-! ## Words -/

theorem length_of_mem_assign {code length : Nat} {symbols : List (Nat × Nat)}
    {entry : Nat × List Bool} (h : entry ∈ Code.assign code length symbols) :
    ∃ symbol, (symbol, entry.2.length) ∈ symbols := by
  induction symbols generalizing code length with
  | nil => cases h
  | cons first rest ih =>
      obtain ⟨symbol, l⟩ := first
      rw [Code.assign, List.mem_cons] at h
      rcases h with rfl | h
      · refine ⟨symbol, ?_⟩
        rw [Bits.word, List.length_reverse, Bits.ofNat_length]
        exact List.mem_cons_self
      · obtain ⟨other, member⟩ := ih h
        exact ⟨other, List.mem_cons_of_mem _ member⟩

theorem length_mem_of_mem_words {lengths : List Nat} {entry : Nat × List Bool}
    (h : entry ∈ Code.words lengths) : entry.2.length ∈ lengths := by
  obtain ⟨symbol, used⟩ := length_of_mem_assign h
  rw [Code.used, List.mem_flatMap] at used
  obtain ⟨length, -, used⟩ := used
  rw [List.mem_filterMap] at used
  obtain ⟨⟨l, place⟩, member, found⟩ := used
  dsimp only at found
  split at found
  · rename_i same
    cases found
    rw [← same]
    exact List.fst_mem_of_mem_zipIdx member
  · cases found

theorem length_wordTable_le {lengths : List Nat} {most : Nat} (h : ∀ l ∈ lengths, l ≤ most)
    (symbol : Nat) : ((wordTable lengths).getD symbol []).length ≤ most := by
  rw [wordTable]
  -- whatever words are in the table already
  suffices on : ∀ (words : List (Nat × List Bool)) (table : Array (List Bool)),
      (∀ entry ∈ words, entry.2.length ≤ most) → (∀ i, (table.getD i []).length ≤ most) →
        ((words.foldl (fun table entry => table.setIfInBounds entry.1 entry.2) table).getD
          symbol []).length ≤ most by
    refine on _ _ (fun entry member => h _ (length_mem_of_mem_words member)) fun i => ?_
    rw [Array.getD_eq_getD_getElem?, Array.getElem?_replicate]
    split <;> exact Nat.zero_le _
  intro words
  induction words with
  | nil => exact fun table _ kept => kept symbol
  | cons entry words ih =>
      intro table short kept
      rw [List.foldl_cons]
      refine ih _ (fun other member => short other (List.mem_cons_of_mem _ member)) fun i => ?_
      rw [Array.getD_eq_getD_getElem?, Array.getElem?_setIfInBounds]
      split
      · split
        · exact short entry List.mem_cons_self
        · exact Nat.zero_le _
      · rw [← Array.getD_eq_getD_getElem?]
        exact kept i

theorem length_literalWords_le (symbol : Nat) : (literalWords.getD symbol []).length ≤ 9 := by
  refine length_wordTable_le (fun l member => ?_) symbol
  simp only [fixedLiteralLengths, List.mem_append, List.mem_replicate] at member
  omega

theorem length_distanceWords_le (symbol : Nat) : (distanceWords.getD symbol []).length ≤ 5 := by
  refine length_wordTable_le (fun l member => ?_) symbol
  simp only [fixedDistanceLengths, List.mem_replicate] at member
  omega

/-! ## Tokens -/

namespace Token

/-- How many bytes a token stands for. -/
def count : Token → Nat
  | literal _ => 1
  | copy count _ => count

theorem size_expand (output : Array UInt8) (token : Token) :
    (token.expand output).size = output.size + token.count := by
  cases token with
  | literal byte => exact Array.size_push ..
  | copy count distance => exact size_repeatBytes ..

theorem length_bits_le {token : Token} (h : token.Writable) :
    token.bits.length ≤ 9 * token.count := by
  cases token with
  | literal byte =>
      rw [bits, count]
      exact length_literalWords_le byte.toNat
  | copy count distance =>
      obtain ⟨low, high, pos, near⟩ := h
      obtain ⟨i, range, found, least, -, written⟩ :=
        exists_range_of_le (by decide : Covers 259 lengthRanges.toList) low (by omega)
      obtain ⟨j, range', found', -, -, written'⟩ :=
        exists_range_of_le (by decide : Covers 32769 distanceRanges.toList) pos (by omega)
      have word := length_literalWords_le (257 + i)
      have word' := length_distanceWords_le (0 + j)
      have extra := (by decide : ∀ range ∈ lengthRanges, range.extra + 27 ≤ 9 * range.least)
        range (Array.mem_of_getElem? found)
      have extra' := (by decide : ∀ range ∈ distanceRanges, range.extra ≤ 13)
        range' (Array.mem_of_getElem? found')
      rw [bits, written, written', Token.count]
      simp only [List.length_append, Bits.ofNat_length]
      omega

end Token

theorem length_bits_of_spells {window : Nat} {text text' : Array UInt8} {tokens : List Token}
    (h : Spells window text tokens text') (narrow : window ≤ 32768) :
    (tokens.flatMap Token.bits).length ≤ 9 * (text'.size - text.size) ∧
      text.size ≤ text'.size := by
  induction h with
  | nil => exact ⟨Nat.zero_le _, Nat.le_refl _⟩
  | @cons text token tokens text' fits _ ih =>
      have writable : token.Writable := by
        cases token with
        | literal byte => trivial
        | copy count distance =>
            obtain ⟨low, high, pos, near, -⟩ := fits
            exact ⟨low, high, pos, Nat.le_trans near narrow⟩
      have here := Token.length_bits_le writable
      rw [Token.size_expand] at ih
      rw [List.flatMap_cons, List.length_append]
      omega

namespace Compressor

/-! ## Streams -/

theorem length_storedHeader (size : Nat) : (storedHeader size).length = 5 := by
  simp [storedHeader]

theorem size_storedBlocks_le (written : Array UInt8) (data : Bytes) :
    (storedBlocks written data).size ≤
      written.size + data.length + 5 * ((data.length + 65534) / 65535) := by
  induction written, data using storedBlocks.induct with
  | case1 written data h =>
      rw [storedBlocks, dif_pos h]
      omega
  | case2 written data h part ih =>
      have filled : 0 < data.length := List.length_pos_iff.mpr (by simpa using h)
      have size : part.length = min 65535 data.length := List.length_take ..
      rw [storedBlocks, dif_neg h]
      simp only [part, Array.size_append, List.size_toArray, length_storedHeader,
        List.length_drop, maxStored] at ih size ⊢
      omega

/-- With the fixed code a text grows by an eighth and a few bytes. -/
theorem fixedCode_swells (size : Nat) : fixedCode.Swells size (size / 8 + 6) := by
  intro bits level past data _ _ _ small
  change (fixedStream (Window.size bits) level _ data).length ≤ _
  generalize fixedCode.keptAfter (Window.size bits) level past = history
  rw [fixedStream, List.length_append]
  by_cases stored : level = 0
  · have blocks := size_storedBlocks_le #[] data
    rw [if_pos stored, List.length_append, Array.length_toList, List.length_singleton]
    rw [Array.size_empty] at blocks
    omega
  · have spells := Matcher.spells_tokens (Window.size bits) level history data
    obtain ⟨short, -⟩ := length_bits_of_spells spells (Window.size_le_maxBits bits)
    have stop := length_literalWords_le endOfBlock
    rw [if_neg stored, Bits.length_toBytes, fixedBlock]
    simp only [List.length_append, List.length_cons, List.length_nil]
    simp only [Array.size_append, List.size_toArray] at short
    omega

end Compressor

end DeflateTrial.Deflate
