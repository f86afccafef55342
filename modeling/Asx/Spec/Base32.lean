import Asx.ForStd.Bits
import Asx.Native.Bdxl

/-!
# The label of a participant

`base32_nopad` against RFC 4648: the bits of the input in consecutive groups of five, the last
one continued with zero bits, and one character of the alphabet for each. The encoder works on
chunks of five bytes, and a chunk's buffer holds its bits from position 39 down.

## Main results
- `base32Nopad_eq_encodeBase32`: the encoder is the one of the standard
- `base32Nopad_standard`: its length, that it is injective, and what this says of DNS names
-/

namespace Asx

/-! ## The standard -/

/-- The character of a value: `A` to `Z`, then `2` to `7`. -/
def base32Symbol (n : Nat) : Char := Char.ofNat (if n < 26 then n + 65 else n + 24)

/-- RFC 4648 base32 without padding. -/
def encodeBase32 (input : Bytes) : Str :=
  (bitGroups 5 (bits input)).map fun group => base32Symbol (bitsNat group)

theorem base32Alphabet_getD {n : Nat} (h : n < 32) :
    base32Alphabet.getD n 'A' = base32Symbol n := by
  -- the table, entry by entry
  have hall : ∀ n < 32, base32Alphabet.getD n 'A' = base32Symbol n := by decide +kernel
  exact hall n h

/-! ## The buffer of a chunk -/

/-- The buffer of the bytes from position `i` of a chunk on holds their bits below bit
    `40 - 8 * i`, and nothing else. -/
theorem testBit_base32Buffer {bs : Bytes} {i : Nat} (hlength : i + bs.length ≤ 5) {k : Nat}
    (hk : k < 40) :
    (base32Buffer i bs).testBit (39 - k) =
      if 8 * i ≤ k then (bits bs).getD (k - 8 * i) false else false := by
  induction bs generalizing i with
  | nil => simp [base32Buffer]
  | cons b bs ih =>
    rw [List.length_cons] at hlength
    rw [base32Buffer, Nat.testBit_or, ih (by omega), Nat.testBit_shiftLeft, bits_cons]
    by_cases hbefore : 8 * i ≤ k
    · rw [if_pos hbefore]
      by_cases hown : k < 8 * i + 8
      · -- a bit of this byte
        have hin : k - 8 * i < (testBits 8 b.toNat).length := by
          rw [length_testBits]
          omega
        rw [if_neg (by omega), Bool.or_false, List.getD_append _ _ _ _ hin,
          List.getD_eq_getElem _ _ hin]
        have hge : 39 - k ≥ 32 - 8 * i := by omega
        simp only [hge, decide_true, Bool.true_and, testBits, List.getElem_map,
          List.getElem_range]
        congr 1
        omega
      · -- a bit of a later byte
        have hlt : ¬ 39 - k ≥ 32 - 8 * i := by omega
        rw [if_pos (by omega), List.getD_append_right _ _ _ _ (by rw [length_testBits]; omega)]
        have hpos : k - 8 * (i + 1) = k - 8 * i - 8 := by omega
        simp only [hlt, decide_false, Bool.false_and, Bool.false_or, length_testBits, hpos]
    · -- the byte has no bit that high
      have hhigh : b.toNat.testBit (39 - k - (32 - 8 * i)) = false := by
        refine Nat.testBit_lt_two_pow (b.toNat_lt.trans_le ?_)
        exact Nat.pow_le_pow_right (by omega) (by omega : 8 ≤ _)
      rw [if_neg hbefore, if_neg (by omega), hhigh, Bool.and_false, Bool.false_or]

/-- Five bits of the buffer are a group of the chunk's bits. -/
theorem base32Buffer_group {chunk : Bytes} (hlength : chunk.length ≤ 5) {i : Nat} (hi : i < 8) :
    (base32Buffer 0 chunk >>> (35 - 5 * i)) &&& 0x1f = bitsNat (bitGroup 5 (bits chunk) i) := by
  -- the mask keeps the five lowest bits of what is shifted down
  have hlow : (base32Buffer 0 chunk >>> (35 - 5 * i)) &&& 0x1f =
      (base32Buffer 0 chunk >>> (35 - 5 * i)) % 2 ^ 5 :=
    Nat.and_two_pow_sub_one_eq_mod _ 5
  have hgroup : testBits 5 ((base32Buffer 0 chunk >>> (35 - 5 * i)) % 2 ^ 5) =
      bitGroup 5 (bits chunk) i := by
    refine List.map_congr_left fun j hj => ?_
    have hj' := List.mem_range.mp hj
    have hbound : 0 + chunk.length ≤ 5 := by omega
    have hk : 5 * i + j < 40 := by omega
    have hbit := testBit_base32Buffer hbound hk
    rw [if_pos (Nat.zero_le _), Nat.mul_zero, Nat.sub_zero] at hbit
    rw [Nat.testBit_mod_two_pow, Nat.testBit_shiftRight, ← hbit]
    have hpos : 35 - 5 * i + (5 - 1 - j) = 39 - (5 * i + j) := by omega
    have hlt : 5 - 1 - j < 5 := by omega
    simp only [hpos, hlt, decide_true, Bool.true_and]
  rw [hlow, ← hgroup, bitsNat_testBits (Nat.mod_lt _ (by decide))]

/-! ## The encoder -/

/-- A chunk is encoded as the standard says. -/
theorem base32Chunk_eq_encodeBase32 {chunk : Bytes} (hlength : chunk.length ≤ 5) :
    base32Chunk chunk = encodeBase32 chunk := by
  rw [base32Chunk, encodeBase32, bitGroups, List.map_map, length_bits,
    Nat.mul_comm chunk.length 8]
  refine List.map_congr_left fun i hi => ?_
  have hi' := List.mem_range.mp hi
  rw [base32Buffer_group hlength (by omega), base32Alphabet_getD]
  · rfl
  · simpa using bitsNat_lt (bitGroup 5 (bits chunk) i)

/-- Five bytes take eight characters, so what follows is encoded on its own. -/
theorem encodeBase32_append {chunk : Bytes} (hlength : chunk.length = 5) (rest : Bytes) :
    encodeBase32 (chunk ++ rest) = encodeBase32 chunk ++ encodeBase32 rest := by
  rw [encodeBase32, bits_append, bitGroups_append (by decide) (k := 8) (by rw [length_bits, hlength]),
    List.map_append]
  rfl

/-- `base32_nopad` is RFC 4648 base32 without padding. -/
theorem base32Nopad_eq_encodeBase32 (input : Bytes) : base32Nopad input = encodeBase32 input := by
  fun_induction base32Nopad input with
  | case1 a b c d e rest ih =>
    have hsplit : a :: b :: c :: d :: e :: rest = [a, b, c, d, e] ++ rest := rfl
    rw [hsplit, encodeBase32_append rfl, ih, base32Chunk_eq_encodeBase32 le_rfl]
  | case2 => rfl
  | case3 chunk hfull hnil =>
    -- the last chunk: the first case would have taken five bytes or more
    refine base32Chunk_eq_encodeBase32 ?_
    by_contra hlong
    obtain ⟨a, b, c, d, e, rest, rfl⟩ : ∃ a b c d e rest, chunk = a :: b :: c :: d :: e :: rest := by
      rcases chunk with _ | ⟨a, _ | ⟨b, _ | ⟨c, _ | ⟨d, _ | ⟨e, rest⟩⟩⟩⟩⟩ <;> simp at hlong ⊢
    exact hfull a b c d e rest rfl

/-! ## What a label says -/

theorem length_encodeBase32 (input : Bytes) :
    (encodeBase32 input).length = (8 * input.length + 4) / 5 := by
  simp [encodeBase32]

/-- No two values below 32 have the same character, and no character is a dot. -/
theorem base32Symbol_table :
    (∀ m < 32, ∀ n < 32, base32Symbol m = base32Symbol n → m = n) ∧
      ∀ n < 32, base32Symbol n ≠ '.' := by
  decide +kernel

/-- Different inputs have different encodings. -/
theorem encodeBase32_injective : Function.Injective encodeBase32 := by
  intro s t h
  -- the number of characters determines the number of bytes
  have hlength : s.length = t.length := by
    have := congrArg List.length h
    rw [length_encodeBase32, length_encodeBase32] at this
    omega
  have hbits : (bits s).length = (bits t).length := by rw [length_bits, length_bits, hlength]
  have hsize : 0 < 5 := by decide
  refine bits_injective (bitGroups_injective hsize hbits ?_)
  rw [bitGroups, bitGroups, ← hbits]
  rw [encodeBase32, encodeBase32, bitGroups, bitGroups, ← hbits, List.map_map, List.map_map] at h
  refine List.map_congr_left fun i hi => ?_
  have hvalue := base32Symbol_table.1 _ (by simpa using bitsNat_lt (bitGroup 5 (bits s) i)) _
    (by simpa using bitsNat_lt (bitGroup 5 (bits t) i)) (List.map_inj_left.mp h i hi)
  exact bitsNat_injective (by simp) hvalue

theorem dot_notMem_encodeBase32 (input : Bytes) : '.' ∉ encodeBase32 input := by
  intro hdot
  rw [encodeBase32, bitGroups, List.map_map] at hdot
  obtain ⟨i, -, hsymbol⟩ := List.mem_map.mp hdot
  exact base32Symbol_table.2 _ (by simpa using bitsNat_lt (bitGroup 5 (bits input) i)) hsymbol

/-- Texts that agree up to their first dot. -/
theorem eq_of_append_dot {s t u v : Str} (hs : '.' ∉ s) (ht : '.' ∉ t)
    (h : s ++ '.' :: u = t ++ '.' :: v) : s = t := by
  -- what stands before the first dot
  have hfirst : ∀ {s u : Str}, '.' ∉ s → (s ++ '.' :: u).takeWhile (· ≠ '.') = s := by
    intro s u hs
    rw [List.takeWhile_append_of_pos]
    · simp
    · intro c hc
      simpa using ne_of_mem_of_not_mem hc hs
  rw [← hfirst (u := u) hs, h, hfirst ht]

/-- The name of a participant starts with the label of its digest. -/
theorem bdxlDnsName_eq (text : BdxlText) (scheme participantId smlZone : Str) :
    bdxlDnsName text scheme participantId smlZone =
      encodeBase32 (text.sha256 (Str.utf8 (text.toLowercase participantId))) ++
        '.' :: (scheme ++ '.' :: Str.trimEndChar '.' smlZone) := by
  simp [bdxlDnsName, base32Nopad_eq_encodeBase32]

/-- `base32_nopad` is RFC 4648 base32 without padding. The DNS name of a participant is the label
    of its digest under the scheme and the zone, and participants whose digests differ have
    different names. -/
theorem base32Nopad_standard :
    (∀ input, base32Nopad input = encodeBase32 input ∧
      (base32Nopad input).length = (8 * input.length + 4) / 5) ∧
    Function.Injective base32Nopad ∧
    ∀ (text : BdxlText) (scheme participantId smlZone : Str),
      bdxlDnsName text scheme participantId smlZone =
        encodeBase32 (text.sha256 (Str.utf8 (text.toLowercase participantId))) ++
          '.' :: (scheme ++ '.' :: Str.trimEndChar '.' smlZone) ∧
      ∀ scheme' participantId' smlZone',
        text.sha256 (Str.utf8 (text.toLowercase participantId)) ≠
            text.sha256 (Str.utf8 (text.toLowercase participantId')) →
          bdxlDnsName text scheme participantId smlZone ≠
            bdxlDnsName text scheme' participantId' smlZone' := by
  have hencoder : base32Nopad = encodeBase32 := funext base32Nopad_eq_encodeBase32
  rw [hencoder]
  refine ⟨fun input => ⟨rfl, length_encodeBase32 input⟩, encodeBase32_injective, ?_⟩
  intro text scheme participantId smlZone
  refine ⟨bdxlDnsName_eq text scheme participantId smlZone, ?_⟩
  intro scheme' participantId' smlZone' hne heq
  rw [bdxlDnsName_eq, bdxlDnsName_eq] at heq
  exact hne (encodeBase32_injective
    (eq_of_append_dot (dot_notMem_encodeBase32 _) (dot_notMem_encodeBase32 _) heq))

end Asx
