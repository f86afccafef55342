import Asx.ForStd.Bits
import Asx.ForStd.Der
import Asx.ForStd.Hex
import Asx.Native.Decrypt
import Asx.Native.Mime

/-!
# The key derivation of a key agreement

`concat_kdf` against the single-step function of NIST SP 800-56A: the first bits of
`K(1) ‖ K(2) ‖ …`, where `K(i)` digests the counter, the shared secret and the five parameters.
The loop's invariant is that after `k` rounds the counter is `k + 1` and the output is
`K(1) ‖ … ‖ K(k)`. The parameters are hexadecimal bit strings whose first octet counts padding
bits.

## Main results
- `concatKdfBlocks_eq`: the loop ends with the least number of blocks that suffices
- `decodeConcatKdfParamBits_eq_ok_iff`: what a parameter decodes to
- `concatKdf_standard`: both sides of a key agreement
-/

namespace Asx

/-! ## The standard -/

/-- `K(i)`. -/
def kdfBlock (hash : Bytes → Bytes) (z : Bytes) (p : ConcatKdfParams) (i : Nat) : Bytes :=
  hash (beBytes32 i ++ z ++ p.algorithmId ++ p.partyUInfo ++ p.partyVInfo ++ p.suppPubInfo ++
    p.suppPrivInfo)

/-- `K(1) ‖ … ‖ K(n)`. -/
def kdfStream (hash : Bytes → Bytes) (z : Bytes) (p : ConcatKdfParams) (n : Nat) : Bytes :=
  (List.range n).flatMap fun i => kdfBlock hash z p (i + 1)

section

variable {hash : Bytes → Bytes} {z : Bytes} {p : ConcatKdfParams} {size : Nat}

theorem kdfStream_succ (n : Nat) :
    kdfStream hash z p (n + 1) = kdfStream hash z p n ++ kdfBlock hash z p (n + 1) := by
  simp [kdfStream, List.range_succ, List.flatMap_append]

/-- With more blocks the stream goes on. -/
theorem kdfStream_append {n m : Nat} (h : n ≤ m) :
    ∃ rest, kdfStream hash z p m = kdfStream hash z p n ++ rest := by
  obtain ⟨k, rfl⟩ := Nat.exists_eq_add_of_le h
  exact ⟨_, by rw [kdfStream, kdfStream, List.range_add, List.flatMap_append]⟩

theorem length_kdfStream (hsize : ∀ m, (hash m).length = size) (n : Nat) :
    (kdfStream hash z p n).length = n * size := by
  induction n with
  | zero => simp [kdfStream]
  | succ n ih => rw [kdfStream_succ, List.length_append, ih, kdfBlock, hsize, Nat.succ_mul]

/-! ## The loop -/

/-- A round of the loop adds the next block. -/
theorem concatKdfBlocks_round (wanted rounds k : Nat) :
    concatKdfBlocks hash z p.otherInfo wanted (rounds + 1) (k + 1) (kdfStream hash z p k) =
      if (kdfStream hash z p k).length < wanted then
        concatKdfBlocks hash z p.otherInfo wanted rounds (k + 2) (kdfStream hash z p (k + 1))
      else kdfStream hash z p k := by
  rw [concatKdfBlocks, kdfStream_succ, kdfBlock, ConcatKdfParams.otherInfo]
  simp only [List.append_assoc]

/-- From any point on the way the loop ends with the `r` blocks that suffice, in as many rounds as
    are missing or more. -/
theorem concatKdfBlocks_from {wanted r : Nat} (hsize : ∀ m, (hash m).length = size)
    (henough : wanted ≤ r * size) (hleast : ∀ k < r, k * size < wanted) {rounds k : Nat}
    (hk : k ≤ r) (hrounds : r - k ≤ rounds) :
    concatKdfBlocks hash z p.otherInfo wanted rounds (k + 1) (kdfStream hash z p k) =
      kdfStream hash z p r := by
  -- on the rounds left; the counter is `k + 1` and the output `K(1) ‖ … ‖ K(k)`
  induction rounds generalizing k with
  | zero =>
    obtain rfl : k = r := by omega
    rfl
  | succ rounds ih =>
    rw [concatKdfBlocks_round, length_kdfStream hsize]
    by_cases hlt : k < r
    · -- too short yet: another round
      rw [if_pos (hleast k hlt), ih (by omega) (by omega)]
    · -- long enough: the loop stops, whatever rounds are left
      obtain rfl : k = r := by omega
      rw [if_neg (by omega)]

/-- The number of blocks that the loop computes. -/
theorem exists_least_blocks (wanted : Nat) (hpos : 0 < size) :
    ∃ r ≤ wanted, wanted ≤ r * size ∧ ∀ k < r, k * size < wanted := by
  have hex : ∃ r, wanted ≤ r * size := ⟨wanted, Nat.le_mul_of_pos_right wanted hpos⟩
  refine ⟨Nat.find hex, ?_, Nat.find_spec hex, fun k hk => not_le.mp (Nat.find_min hex hk)⟩
  exact Nat.find_min' hex (Nat.le_mul_of_pos_right wanted hpos)

/-- The loop ends with the least number of blocks that suffices. -/
theorem concatKdfBlocks_eq (wanted : Nat) (hpos : 0 < size) (hsize : ∀ m, (hash m).length = size) :
    ∃ r ≤ wanted, wanted ≤ (kdfStream hash z p r).length ∧
      (∀ k < r, (kdfStream hash z p k).length < wanted) ∧
      ∀ rounds, r ≤ rounds →
        concatKdfBlocks hash z p.otherInfo wanted rounds 1 [] = kdfStream hash z p r := by
  obtain ⟨r, hr, henough, hleast⟩ := exists_least_blocks wanted hpos
  refine ⟨r, hr, ?_, ?_, ?_⟩
  · rwa [length_kdfStream hsize]
  · intro k hk
    rw [length_kdfStream hsize]
    exact hleast k hk
  · intro rounds hrounds
    exact concatKdfBlocks_from hsize henough hleast (k := 0) (Nat.zero_le r) (by omega)

end

theorem WsSecDigestMethod.outputLen_pos (digest : WsSecDigestMethod) : 0 < digest.outputLen := by
  cases digest <;> decide

/-- The derived key is the start of any stream that is long enough. -/
theorem concatKdf_eq_take {digests : Digests} {digest : WsSecDigestMethod} {z : Bytes}
    {keydatalenBits n : Nat} {params : ConcatKdfParams}
    (hsize : ∀ m, (digests digest m).length = digest.outputLen)
    (hn : (keydatalenBits + 7) / 8 ≤ (kdfStream (digests digest) z params n).length) :
    concatKdf digests digest z keydatalenBits params =
      (kdfStream (digests digest) z params n).take ((keydatalenBits + 7) / 8) := by
  obtain ⟨r, hr, henough, -, hloop⟩ := concatKdfBlocks_eq (z := z) (p := params)
    ((keydatalenBits + 7) / 8) digest.outputLen_pos hsize
  rw [concatKdf, hloop _ hr]
  -- one of the two streams continues the other, and both are long enough
  rcases Nat.le_total n r with hnr | hrn
  · obtain ⟨rest, hrest⟩ : ∃ rest, kdfStream (digests digest) z params r =
        kdfStream (digests digest) z params n ++ rest := kdfStream_append hnr
    rw [hrest, List.take_append_of_le_length hn]
  · obtain ⟨rest, hrest⟩ : ∃ rest, kdfStream (digests digest) z params n =
        kdfStream (digests digest) z params r ++ rest := kdfStream_append hrn
    rw [hrest, List.take_append_of_le_length henough]

/-! ## The parameters -/

/-- A value without its white space. -/
def compactParam (raw : Bytes) : Bytes := raw.filter fun b => !isAsciiWhitespaceByte b

theorem hexNibble_eq_ok_iff {b : UInt8} {x : Nat} : hexNibble b = .ok x ↔ hexValue b = some x := by
  unfold hexNibble hexValue
  dsimp only
  split
  · simp
  split
  · simp
  split
  · simp
  · simp

/-- Pairs of digits are read as their octets. -/
theorem hexOctets_eq_ok_iff {text octets : Bytes} (heven : text.length % 2 = 0) :
    hexOctets text = .ok octets ↔ IsHex text octets := by
  induction text using List.twoStepInduction generalizing octets with
  | nil =>
    constructor
    · intro h
      obtain rfl := Except.ok.inj h
      exact .nil
    · rintro ⟨⟩
      rfl
  -- an odd number of digits is refused before
  | singleton a => simp at heven
  | cons_cons a b text ih _ =>
    have heven' : text.length % 2 = 0 := by
      rw [List.length_cons, List.length_cons] at heven
      omega
    simp only [hexOctets, Except.bind_eq_ok, Except.pure_eq_ok, hexNibble_eq_ok_iff, ih heven']
    constructor
    · rintro ⟨x, hx, y, hy, octets', hrest, rfl⟩
      exact .cons hx hy hrest
    · intro h
      cases h with
      | cons ha hb rest => exact ⟨_, ha, _, hb, _, rest, rfl⟩

/-- A value decodes to the octets after a first octet of zero, or is empty. -/
theorem decodeConcatKdfParamBits_eq_ok_iff {raw octets : Bytes} :
    decodeConcatKdfParamBits raw = .ok octets ↔
      (compactParam raw = [] ∧ octets = []) ∨ IsHex (compactParam raw) (0 :: octets) := by
  have hcompact : (raw.filter fun b =>
      !(b == 0x20 || b == 0x09 || b == 0x0A || b == 0x0C || b == 0x0D)) = compactParam raw := rfl
  simp only [decodeConcatKdfParamBits, hcompact]
  generalize compactParam raw = text
  -- an empty value is accepted before anything is read
  by_cases hnil : text = []
  · subst hnil
    have hnone : ¬ IsHex [] (0 :: octets) := fun h => by cases h
    simp [hnone, eq_comm]
  rw [if_neg hnil]
  simp only [hnil, false_and, false_or, Except.bind_eq_ok, Except.rejectIf_eq_ok]
  constructor
  · rintro ⟨-, heven, read, hread, h⟩
    rw [hexOctets_eq_ok_iff (by simpa using heven)] at hread
    cases read with
    | nil =>
      cases hread
      exact absurd rfl hnil
    | cons padding rest =>
      simp only [Except.bind_eq_ok, Except.rejectIf_eq_ok, Except.pure_eq_ok] at h
      -- the first octet counts padding bits, and any are refused
      obtain ⟨-, hpadding, rfl⟩ := h
      obtain rfl : padding = 0 := by simpa using hpadding
      exact hread
  · intro h
    have heven : text.length % 2 = 0 := by
      rw [h.length]
      omega
    refine ⟨(), by simpa using heven, _, (hexOctets_eq_ok_iff heven).mpr h, ?_⟩
    simp [Except.rejectIf]

/-- The values that are accepted. -/
theorem exists_decodeConcatKdfParamBits_iff {raw : Bytes} :
    (∃ octets, decodeConcatKdfParamBits raw = .ok octets) ↔
      compactParam raw = [] ∨ ((compactParam raw).length % 2 = 0 ∧
        (∀ b ∈ compactParam raw, (hexValue b).isSome) ∧
        [0x30, 0x30] <+: compactParam raw) := by
  simp only [decodeConcatKdfParamBits_eq_ok_iff]
  constructor
  · rintro ⟨octets, ⟨hnil, -⟩ | h⟩
    · exact .inl hnil
    · obtain ⟨heven, hdigits⟩ := exists_isHex_iff.mp ⟨_, h⟩
      obtain ⟨rest, htext, -⟩ := isHex_zero_cons_iff.mp h
      exact .inr ⟨heven, hdigits, rest, htext.symm⟩
  · rintro (hnil | ⟨heven, hdigits, rest, htext⟩)
    · exact ⟨[], .inl ⟨hnil, rfl⟩⟩
    · obtain ⟨all, hall⟩ := exists_isHex_iff.mpr ⟨heven, hdigits⟩
      rw [← htext] at hall ⊢
      cases hall with
      | cons ha hb hrest =>
        exact ⟨_, .inr (isHex_zero_cons_iff.mpr ⟨rest, rfl, hrest⟩)⟩

/-- A text of hexadecimal digits has no white space. -/
theorem compactParam_of_isHex {text octets : Bytes} (h : IsHex text octets) :
    compactParam text = text := by
  refine List.filter_eq_self.mpr fun b hb => ?_
  have hdigit := h.digits b hb
  by_contra hspace
  simp only [Bool.not_eq_true', Bool.not_eq_false, isAsciiWhitespaceByte, Bool.or_eq_true,
    beq_iff_eq] at hspace
  rcases hspace with (((rfl | rfl) | rfl) | rfl) | rfl <;> exact absurd hdigit (by decide)

/-- A zero octet before the hexadecimal digits of `p`, in either case, decodes to `p`. -/
theorem decodeConcatKdfParamBits_of_isHex {text p : Bytes} (h : IsHex text p) :
    decodeConcatKdfParamBits (0x30 :: 0x30 :: text) = .ok p := by
  have hzero : IsHex (0x30 :: 0x30 :: text) (0 :: p) := isHex_zero_cons_iff.mpr ⟨text, rfl, h⟩
  refine decodeConcatKdfParamBits_eq_ok_iff.mpr (.inr ?_)
  rwa [compactParam_of_isHex hzero]

/-! ## Both sides -/

/-- The derived key is the first bits of `K(1) ‖ K(2) ‖ …`, and its loop ends with the least number
    of blocks that suffices before the counter overflows. A parameter is accepted when it is empty
    or an even number of hexadecimal digits that start with `00`, and stands for the octets after
    these. -/
theorem concatKdf_standard :
    (∀ (digests : Digests) (digest : WsSecDigestMethod) (z : Bytes) (keydatalenBits : Nat)
      (params : ConcatKdfParams), 8 ∣ keydatalenBits → keydatalenBits < 2 ^ 32 →
      (∀ m, (digests digest m).length = digest.outputLen) →
      (bits (concatKdf digests digest z keydatalenBits params)).length = keydatalenBits ∧
      (∀ n, keydatalenBits ≤ (bits (kdfStream (digests digest) z params n)).length →
        bits (concatKdf digests digest z keydatalenBits params) =
          (bits (kdfStream (digests digest) z params n)).take keydatalenBits) ∧
      ∃ r, r + 1 < 2 ^ 32 ∧
        (∀ k < r, (bits (kdfStream (digests digest) z params k)).length < keydatalenBits) ∧
        keydatalenBits ≤ (bits (kdfStream (digests digest) z params r)).length ∧
        ∀ rounds, r ≤ rounds →
          concatKdfBlocks (digests digest) z params.otherInfo ((keydatalenBits + 7) / 8) rounds 1
            [] = kdfStream (digests digest) z params r) ∧
    (∀ raw, (∃ octets, decodeConcatKdfParamBits raw = .ok octets) ↔
      compactParam raw = [] ∨ ((compactParam raw).length % 2 = 0 ∧
        (∀ b ∈ compactParam raw, (hexValue b).isSome) ∧ [0x30, 0x30] <+: compactParam raw)) ∧
    (∀ raw octets, decodeConcatKdfParamBits raw = .ok octets ↔
      (compactParam raw = [] ∧ octets = []) ∨ IsHex (compactParam raw) (0 :: octets)) ∧
    ∀ p, decodeConcatKdfParamBits (0x30 :: 0x30 :: Str.utf8 (hexLower p)) = .ok p := by
  refine ⟨?_, fun _ => exists_decodeConcatKdfParamBits_iff,
    fun _ _ => decodeConcatKdfParamBits_eq_ok_iff,
    fun p => decodeConcatKdfParamBits_of_isHex (isHex_hexLower p)⟩
  rintro digests digest z _ params ⟨wanted, rfl⟩ hwidth hsize
  -- a whole number of octets is asked for, so rounding up changes nothing
  have hwanted : (8 * wanted + 7) / 8 = wanted := by omega
  obtain ⟨r, hr, henough, hleast, hloop⟩ := concatKdfBlocks_eq (z := z) (p := params)
    wanted digest.outputLen_pos hsize
  have htake : ∀ n, wanted ≤ (kdfStream (digests digest) z params n).length →
      concatKdf digests digest z (8 * wanted) params =
        (kdfStream (digests digest) z params n).take wanted := by
    intro n hn
    rw [concatKdf_eq_take hsize (by rwa [hwanted]), hwanted]
  -- eight bits an octet: what is said of bits is said of octets
  simp only [length_bits, hwanted]
  refine ⟨?_, ?_, r, by omega, ?_, by omega, hloop⟩
  · rw [htake r henough, List.length_take_of_le henough]
  · intro n hn
    rw [htake n (by omega), bits_take]
  · intro k hk
    have := hleast k hk
    omega

/-- SHA-256 of the counters 1 and 2 before the secret `Z`. -/
def zDigests : Digests := fun digest m =>
  if digest = .sha256 ∧ m = [0, 0, 0, 1, 0x5A] then
    [0x35, 0x7E, 0x3D, 0x76, 0x37, 0x8C, 0xCA, 0xEE, 0xE9, 0xE6, 0x79, 0xA3,
     0x05, 0xAD, 0x72, 0xEE, 0xBA, 0xA4, 0x68, 0x57, 0x3A, 0xB6, 0xB0, 0xE4,
     0x64, 0x42, 0x81, 0x8B, 0x39, 0x77, 0xE1, 0x00]
  else if digest = .sha256 ∧ m = [0, 0, 0, 2, 0x5A] then
    [0x7A, 0x8F, 0xCD, 0xCF, 0xC4, 0x9F, 0x5E, 0xA9, 0x17, 0x01, 0x59, 0x2D,
     0x1C, 0x8F, 0x88, 0xE8, 0x40, 0xDA, 0x46, 0xA3, 0x9E, 0xFD, 0x58, 0xF8,
     0xCC, 0xC5, 0xEF, 0x70, 0x8E, 0x80, 0xCF, 0x58]
  else List.replicate digest.outputLen 0

theorem length_zDigests (digest : WsSecDigestMethod) (m : Bytes) :
    (zDigests digest m).length = digest.outputLen := by
  unfold zDigests
  split
  · rename_i h
    rw [h.1]
    rfl
  split
  · rename_i h
    rw [h.1]
    rfl
  · exact List.length_replicate

/-- A key of 384 bits takes one block and the first half of the next. -/
theorem concatKdf_standard_two_blocks :
    bits (concatKdf zDigests .sha256 [0x5A] 384 ⟨[], [], [], [], []⟩) =
      bits [0x35, 0x7E, 0x3D, 0x76, 0x37, 0x8C, 0xCA, 0xEE, 0xE9, 0xE6, 0x79, 0xA3,
            0x05, 0xAD, 0x72, 0xEE, 0xBA, 0xA4, 0x68, 0x57, 0x3A, 0xB6, 0xB0, 0xE4,
            0x64, 0x42, 0x81, 0x8B, 0x39, 0x77, 0xE1, 0x00, 0x7A, 0x8F, 0xCD, 0xCF,
            0xC4, 0x9F, 0x5E, 0xA9, 0x17, 0x01, 0x59, 0x2D, 0x1C, 0x8F, 0x88, 0xE8] := by
  have hstandard := concatKdf_standard.1 zDigests .sha256 [0x5A] 384 ⟨[], [], [], [], []⟩
    (by decide) (by decide) (length_zDigests .sha256)
  rw [hstandard.2.1 2 (by decide +kernel)]
  decide +kernel

end Asx
