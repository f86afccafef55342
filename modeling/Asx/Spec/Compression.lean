import Mathlib.Data.List.TakeWhile
import Asx.Native.Compression
import Asx.Spec.As2Delivery
import Asx.Spec.PkiPath

/-!
# Compressed payloads

The DER reader of `crypto/compression.rs` takes an element exactly when there is one with the tag,
`der_tlv` writes one, and so a payload that was compressed is given back.

## Main results
- `derTake_eq_ok_iff`: what the reader takes
- `run_decompressCmsZlibAt`: no range is out of bounds
- `decompressCmsZlib_compressedContentInfo`: what is read from a written structure
-/

namespace Asx

/-! ## Writing an element -/

theorem octetsNat_beBytes64 {n : Nat} (h : n < 2 ^ 64) : octetsNat (beBytes64 n) = n := by
  have hrange : beBytes64 n = (List.range 8).reverse.map fun i => .ofNat (n / 256 ^ i) := rfl
  rw [hrange, octetsNat_range]
  exact Nat.mod_eq_of_lt h

/-- Eight octets without their leading zeros. -/
theorem drop_beBytes64 {n : Nat} (h : n < 2 ^ 64) (hn : n ≠ 0) :
    (beBytes64 n).drop (((beBytes64 n).findIdx? (· ≠ 0)).getD ((beBytes64 n).length - 1)) =
      natOctets n := by
  have hvalue := octetsNat_beBytes64 h
  set bytes := beBytes64 n with hbytes
  have hdrop : bytes.dropWhile (· == 0) = natOctets n := by
    have hhead : (bytes.dropWhile (· == 0)).head? ≠ some 0 := by
      intro hzero
      have := List.head?_dropWhile_not (· == 0) bytes
      rw [hzero] at this
      simp at this
    rw [← natOctets_octetsNat hhead, octetsNat_dropWhile, hvalue]
  have hexists : ∃ b ∈ bytes, decide (b ≠ 0) = true := by
    by_contra hall
    have hnil : bytes.dropWhile (· == 0) = [] := by
      rw [List.dropWhile_eq_nil_iff]
      intro b hb
      by_contra hne
      exact hall ⟨b, hb, by simpa using hne⟩
    exact natOctets_ne_nil hn (hdrop ▸ hnil)
  have hnot : (fun b : UInt8 => !(b == 0)) = fun b => decide (b ≠ 0) := by
    funext b
    by_cases hb : b = 0 <;> simp [hb]
  rw [List.findIdx?_eq_some_of_exists hexists, Option.getD_some, ← hdrop,
    List.dropWhile_eq_drop_findIdx_not, hnot]

/-- `der_tlv` writes the DER form. -/
theorem compression_derTlv (tag : UInt8) {contents : Bytes} (h : contents.length < 2 ^ 64) :
    Compression.derTlv tag contents = derTlv tag contents := by
  rw [Compression.derTlv, derTlv, derLength]
  by_cases hshort : contents.length < 0x80
  · rw [if_pos hshort, if_pos hshort]
  · rw [if_neg hshort, if_neg hshort]
    have hform : ∀ k : Fin 9, (0x80 ||| .ofNat k.val : UInt8) = .ofNat (0x80 + k.val) := by decide
    have hle : (natOctets contents.length).length ≤ 8 := length_natOctets_le h
    dsimp only
    rw [drop_beBytes64 h (by omega), hform ⟨(natOctets contents.length).length, by omega⟩]

/-! ## Reading an element -/

theorem toNat_lt_0x80 (x : UInt8) : x < 0x80 ↔ x.toNat < 0x80 := UInt8.lt_iff_toNat_lt

/-- An element is taken with what follows it. -/
theorem derTake_isTlv {tag : UInt8} {value e : Bytes} (h : IsTlv 8 tag value e) (rest : Bytes) :
    derTake (e ++ rest) tag = .ok (value, rest) := by
  cases h with
  | short hlen =>
    have htoNat : (UInt8.ofNat value.length).toNat = value.length := by
      rw [UInt8.toNat_ofNat']
      omega
    have hlt : UInt8.ofNat value.length < 0x80 := (toNat_lt_0x80 _).mpr (by omega)
    have hfit : ¬ (value ++ rest).length < value.length := by
      rw [List.length_append]
      omega
    simp only [List.cons_append, derTake, ne_eq, not_true_eq_false, if_false, if_pos hlt, htoNat,
      pure_bind, rejectIf_bind, if_neg hfit, List.take_left, List.drop_left]
    rfl
  | @long octets hne hcount hlength =>
    have htoNat := toNat_longForm hcount
    have hlt : ¬ UInt8.ofNat (0x80 + octets.length) < 0x80 := by
      rw [toNat_lt_0x80, htoNat]
      omega
    have hmod : (UInt8.ofNat (0x80 + octets.length)).toNat % 0x80 = octets.length := by
      rw [htoNat]
      omega
    have hpos := List.length_pos_iff.mpr hne
    have hrange : ¬ (octets.length > 8 ∨ (octets ++ (value ++ rest)).length < octets.length) := by
      rw [List.length_append]
      omega
    have hfit : ¬ (value ++ rest).length < octetsNat octets := by
      rw [hlength, List.length_append]
      omega
    have hfold : octets.foldl (fun len b => len * 256 + b.toNat) 0 = octetsNat octets := by
      simpa using foldl_octets octets 0
    simp only [List.cons_append, List.append_assoc, derTake, ne_eq, not_true_eq_false, if_false,
      if_neg hlt, hmod, rejectIf_bind, if_neg (show ¬ octets.length = 0 by omega), if_neg hrange,
      List.take_left, List.drop_left, pure_bind, hfold, if_neg hfit]
    rw [hlength, List.take_left, List.drop_left]
    rfl

/-- What the reader takes: one element with the tag. -/
theorem derTake_eq_ok_iff {input value rest : Bytes} {tag : UInt8} :
    derTake input tag = .ok (value, rest) ↔ ∃ e, IsTlv 8 tag value e ∧ input = e ++ rest := by
  constructor
  · intro h
    cases input with
    | nil => cases h
    | cons actual input =>
      by_cases htag : actual = tag
      · subst htag
        cases input with
        | nil => simp [derTake] at h
        | cons firstLen input =>
          simp only [derTake, ne_eq, not_true_eq_false, if_false] at h
          have hfirst : firstLen = .ofNat firstLen.toNat := UInt8.ofNat_toNat.symm
          by_cases hlt : firstLen < 0x80
          · simp only [if_pos hlt, pure_bind, Except.bind_eq_ok, Except.rejectIf_eq_ok,
              Except.pure_eq_ok, Prod.mk.injEq] at h
            obtain ⟨-, hfit, rfl, rfl⟩ := h
            have hlength : (input.take firstLen.toNat).length = firstLen.toNat := by
              rw [List.length_take]
              omega
            have htlv := @IsTlv.short 8 actual (input.take firstLen.toNat)
              (by rw [hlength]; exact (toNat_lt_0x80 _).mp hlt)
            rw [hlength, ← hfirst] at htlv
            exact ⟨_, htlv, by simp⟩
          · simp only [if_neg hlt, pure_bind, Except.bind_eq_ok,
              Except.rejectIf_eq_ok, Except.pure_eq_ok, Prod.mk.injEq] at h
            obtain ⟨-, hzero, -, hrange, -, hfit, rfl, rfl⟩ := h
            set count := firstLen.toNat % 0x80 with hcount
            have hlen : (input.take count).length = count := by
              rw [List.length_take]
              omega
            have hge : ¬ firstLen.toNat < 0x80 := fun h => hlt ((toNat_lt_0x80 _).mpr h)
            have hfold : (input.take count).foldl (fun len b => len * 256 + b.toNat) 0 =
                octetsNat (input.take count) := by
              simpa using foldl_octets (input.take count) 0
            have hform : firstLen = .ofNat (0x80 + (input.take count).length) := by
              have hbyte := firstLen.toNat_lt
              rw [hlen, show 0x80 + count = firstLen.toNat by omega]
              exact hfirst
            rw [hfold] at hfit ⊢
            have hlength : ((input.drop count).take (octetsNat (input.take count))).length =
                octetsNat (input.take count) := by
              rw [List.length_take]
              omega
            have htlv := @IsTlv.long 8 actual _ (input.take count)
              (fun hnil => hzero (by rw [← hlen, hnil]; rfl)) (by omega) hlength.symm
            rw [← hform] at htlv
            exact ⟨_, htlv, by simp⟩
      · simp [derTake, htag] at h
  · rintro ⟨e, he, rfl⟩
    exact derTake_isTlv he rest

/-! ## Bounds -/

namespace Guarded

variable {α β : Type}

theorem run_ofExcept (r : Result α) : (MonadExcept.ofExcept r : Guarded α).run = some r := by
  cases r <;> rfl

theorem run_rejectIf (p : Prop) [Decidable p] (e : AsxError) :
    (Guarded.rejectIf p e).run = some (Except.rejectIf p e) := run_ofExcept _

/-- Computations that stay within their bounds, one after the other. -/
theorem run_bind {x : Guarded α} {r : Result α} (hx : x.run = some r) {f : α → Guarded β}
    {g : α → Result β} (hf : ∀ a, (f a).run = some (g a)) : (x >>= f).run = some (r >>= g) := by
  cases r with
  | error e =>
    rw [ExceptT.run_bind, hx]
    rfl
  | ok a =>
    rw [ExceptT.run_bind, hx]
    exact hf a

end Guarded

/-- A length in at most eight octets loses nothing. -/
theorem foldl_usize {octets : Bytes} {k len : Nat} (hlen : len < 256 ^ k)
    (h : k + octets.length ≤ 8) :
    octets.foldl (fun len b => (len <<< 8) % 2 ^ 64 ||| b.toNat) len =
      octets.foldl (fun len b => len * 256 + b.toNat) len := by
  induction octets generalizing k len with
  | nil => rfl
  | cons b octets ih =>
    rw [List.length_cons] at h
    have hnext : len * 256 + b.toNat < 256 ^ (k + 1) := by
      have := b.toNat_lt
      rw [pow_succ]
      omega
    have hbound : 256 ^ (k + 1) ≤ 2 ^ 64 := by
      calc 256 ^ (k + 1) ≤ 256 ^ 8 := Nat.pow_le_pow_right (by decide) (by omega)
        _ = 2 ^ 64 := by norm_num
    have hstep : (len <<< 8) % 2 ^ 64 ||| b.toNat = len * 256 + b.toNat := by
      have hshift : len <<< 8 = len * 256 := Nat.shiftLeft_eq len 8
      rw [Nat.mod_eq_of_lt (by omega), ← Nat.shiftLeft_add_eq_or_of_lt b.toNat_lt, hshift]
    rw [List.foldl_cons, List.foldl_cons, hstep]
    exact ih hnext (by omega)

theorem slice?_take {s : Bytes} {n : Nat} (h : n ≤ s.length) : slice? s 0 n = some (s.take n) := by
  rw [slice?_eq_some (Nat.zero_le _) h, List.drop_zero, Nat.sub_zero]

/-- The end of `der_take`. -/
theorem run_takeValue (rest : Bytes) (len : Nat) (e : AsxError) :
    (do
      Guarded.rejectIf (rest.length < len) e
      let value ← Guarded.get (slice? rest 0 len)
      let after ← Guarded.get (slice? rest len rest.length)
      pure (value, after) : Guarded (Bytes × Bytes)).run =
    some (do
      Except.rejectIf (rest.length < len) e
      pure (rest.take len, rest.drop len)) := by
  rw [Guarded.run_rejectIf_bind, rejectIf_bind]
  by_cases hshort : rest.length < len
  · rw [if_pos hshort, if_pos hshort]
  · rw [if_neg hshort, if_neg hshort, slice?_take (by omega), Guarded.run_get_bind,
      slice?_to_end (by omega), Guarded.run_get_bind]
    rfl

/-- The reader stays within its input. -/
theorem run_derTakeAt (input : Bytes) (tag : UInt8) :
    (derTakeAt input tag).run = some (derTake input tag) := by
  cases input with
  | nil => rfl
  | cons actual rest =>
    simp only [derTakeAt, derTake, Guarded.run_rejectIf_bind]
    by_cases htag : actual ≠ tag
    · rw [if_pos htag, if_pos htag]
    · rw [if_neg htag, if_neg htag]
      cases rest with
      | nil => rfl
      | cons firstLen rest =>
        by_cases hlt : firstLen < 0x80
        · simp only [if_pos hlt, pure_bind]
          exact run_takeValue rest _ _
        · simp only [if_neg hlt, pure_bind, (lengthBits_iff firstLen).2]
          refine Guarded.run_bind (Guarded.run_rejectIf _ _) fun _ => ?_
          rw [Guarded.run_rejectIf_bind, rejectIf_bind]
          set count := firstLen.toNat % 0x80
          by_cases hrange : count > 8 ∨ rest.length < count
          · rw [if_pos hrange, if_pos hrange]
          · have hfold := @foldl_usize (rest.take count) 0 0 (by decide) (by
              rw [List.length_take]
              omega)
            rw [if_neg hrange, if_neg hrange, slice?_take (by omega), Guarded.run_get_bind,
              slice?_to_end (by omega), Guarded.run_get_bind, hfold]
            exact run_takeValue _ _ _

theorem run_derExpectAt (input : Bytes) (tag : UInt8) :
    (derExpectAt input tag).run = some (derExpect input tag) :=
  Guarded.run_bind (run_derTakeAt input tag) fun _ =>
    Guarded.run_bind (Guarded.run_rejectIf _ _) fun _ => rfl

/-- The reader of `CompressedData` stays within its input. -/
theorem run_decompressCmsZlibAt (lib : CmsLibrary) (der : Bytes) :
    (decompressCmsZlibAt lib der).run = some (decompressCmsZlib lib der) :=
  Guarded.run_bind (run_derExpectAt _ _) fun _ =>
    Guarded.run_bind (run_derTakeAt _ _) fun _ =>
    Guarded.run_bind (Guarded.run_rejectIf _ _) fun _ =>
    Guarded.run_bind (run_derTakeAt _ _) fun _ =>
    Guarded.run_bind (run_derExpectAt _ _) fun _ =>
    Guarded.run_bind (run_derTakeAt _ _) fun _ =>
    Guarded.run_bind (run_derTakeAt _ _) fun _ =>
    Guarded.run_bind (run_derTakeAt _ _) fun _ =>
    Guarded.run_bind (Guarded.run_rejectIf _ _) fun _ =>
    Guarded.run_bind (run_derTakeAt _ _) fun _ =>
    Guarded.run_bind (run_derTakeAt _ _) fun _ =>
    Guarded.run_bind (run_derTakeAt _ _) fun _ =>
    Guarded.run_bind (run_derTakeAt _ _) fun _ =>
    Guarded.run_bind (Guarded.run_ofExcept _) fun _ =>
    Guarded.run_bind (Guarded.run_rejectIf _ _) fun _ => rfl

/-! ## Round trip -/

theorem length_compression_derTlv (tag : UInt8) {contents : Bytes} (h : contents.length < 2 ^ 64) :
    (Compression.derTlv tag contents).length ≤ contents.length + 10 := by
  rw [compression_derTlv tag h, derTlv, derLength]
  have := length_natOctets_le (k := 8) h
  split
  · simp
  · simp
    omega

/-- What `der_tlv` writes is taken, with what follows it. -/
theorem derTake_derTlv (tag : UInt8) {contents : Bytes} (h : contents.length < 2 ^ 64)
    (rest : Bytes) :
    derTake (Compression.derTlv tag contents ++ rest) tag = .ok (contents, rest) := by
  rw [compression_derTlv tag h]
  exact derTake_isTlv (derTlv_isTlv tag h) rest

/-- An element of bounded length: its own length, and how it is read. -/
structure Reads (tag : UInt8) (contents e : Bytes) (n : Nat) : Prop where
  length_le : e.length ≤ n
  take : ∀ rest, derTake (e ++ rest) tag = .ok (contents, rest)
  take_end : derTake e tag = .ok (contents, [])
  expect : derExpect e tag = .ok contents

/-- An element that was written is read back from in front of any rest. -/
theorem reads_derTlv (tag : UInt8) {contents : Bytes} {n : Nat} (h : contents.length ≤ n)
    (hn : n < 2 ^ 64) : Reads tag contents (Compression.derTlv tag contents) (n + 10) := by
  have hlt : contents.length < 2 ^ 64 := by omega
  have hend : derTake (Compression.derTlv tag contents) tag = .ok (contents, []) := by
    simpa using derTake_derTlv tag hlt []
  refine ⟨?_, derTake_derTlv tag hlt, hend, ?_⟩
  · have := length_compression_derTlv tag hlt
    omega
  · rw [derExpect, hend]
    rfl

/-- What is read from a written structure: the deflated payload goes to the decompressor. -/
theorem decompressCmsZlib_compressedContentInfo (lib : CmsLibrary) {deflated payload : Bytes}
    (hlength : deflated.length < 2 ^ 63)
    (hinflate : lib.inflate (maxDecompressedBytes + 1) deflated =
      some (payload.take (maxDecompressedBytes + 1)))
    (hlimit : payload.length ≤ maxDecompressedBytes) :
    decompressCmsZlib lib (compressedContentInfo deflated) = .ok payload := by
  have hversion : ([0x02, 0x01, 0x00] : Bytes) = Compression.derTlv 0x02 [0x00] := by decide
  simp only [compressedContentInfo, hversion, List.append_assoc]
  -- from the inside out; no element comes near the largest length
  have hdata := @reads_derTlv 0x06 oidData 9 (by decide) (by decide)
  have hct := @reads_derTlv 0x06 oidCtCompressedData 11 (by decide) (by decide)
  have hzlib := @reads_derTlv 0x06 oidAlgZlibCompress 11 (by decide) (by decide)
  have hzero := @reads_derTlv 0x02 [0x00] 1 (by decide) (by decide)
  have halgorithm := reads_derTlv 0x30 hzlib.length_le (by decide)
  have hcontent := reads_derTlv 0x04 hlength.le (by decide)
  have hexplicit := reads_derTlv 0xa0 hcontent.length_le (by decide)
  have hencap := reads_derTlv 0x30 (List.length_append.trans_le
    (Nat.add_le_add hdata.length_le hexplicit.length_le)) (by decide)
  have hcompressed := reads_derTlv 0x30 (List.length_append.trans_le
    (Nat.add_le_add hzero.length_le (List.length_append.trans_le
      (Nat.add_le_add halgorithm.length_le hencap.length_le)))) (by decide)
  have houter := reads_derTlv 0xa0 hcompressed.length_le (by decide)
  have hinfo := reads_derTlv 0x30 (List.length_append.trans_le
    (Nat.add_le_add hct.length_le houter.length_le)) (by decide)
  have htake : payload.take (maxDecompressedBytes + 1) = payload := List.take_of_length_le (by omega)
  simp only [decompressCmsZlib, hinfo.expect, ok_bind, hct.take, rejectIf_bind, ne_eq,
    not_true_eq_false, if_false, houter.take_end, hcompressed.expect, hzero.take,
    halgorithm.take, hzlib.take_end, hencap.take_end, hdata.take, hexplicit.take_end,
    hcontent.take_end, hinflate, htake, Except.okOr]
  rw [if_neg (by omega)]
  rfl

/-- What is assumed of zlib: a payload within the limit is deflated into a vector, and inflating
    that gives the payload, as far as it is asked for. -/
structure ZlibInverse (zlib : ZlibWriter) (lib : CmsLibrary) : Prop where
  deflates : ∀ level payload, payload.length ≤ maxDecompressedBytes →
    ∃ deflated, zlib.deflate level payload = .ok deflated ∧ deflated.length < 2 ^ 63
  inflates : ∀ level payload deflated limit, zlib.deflate level payload = .ok deflated →
    lib.inflate limit deflated = some (payload.take limit)

/-- What was compressed is decompressed, up to the limit of the reader; the reader takes one
    element off its slice and never looks past it. -/
theorem compressedData_roundTrip (zlib : ZlibWriter) (lib : CmsLibrary) (h : ZlibInverse zlib lib) :
    (∀ payload level, payload.length ≤ maxDecompressedBytes →
      ∃ der, compressCmsZlib zlib payload level = .ok der ∧ decompressCmsZlib lib der = .ok payload) ∧
    (∀ tag contents rest, contents.length < 2 ^ 64 →
      derTake (Compression.derTlv tag contents ++ rest) tag = .ok (contents, rest)) ∧
    (∀ input tag, (derTakeAt input tag).run = some (derTake input tag)) ∧
    ∀ der, (decompressCmsZlibAt lib der).run = some (decompressCmsZlib lib der) := by
  refine ⟨fun payload level hlimit => ?_, fun tag contents rest hlength =>
    derTake_derTlv tag hlength rest, run_derTakeAt, run_decompressCmsZlibAt lib⟩
  obtain ⟨deflated, hdeflate, hlength⟩ := h.deflates (compressionLevel level) payload hlimit
  refine ⟨compressedContentInfo deflated, ?_, ?_⟩
  · rw [compressCmsZlib, hdeflate]
    rfl
  · exact decompressCmsZlib_compressedContentInfo lib hlength
      (h.inflates _ payload deflated _ hdeflate) hlimit

/-- A zlib that writes the payload `abc` as `flate2` does, and keeps every other payload. -/
def keepingZlib : ZlibWriter where
  deflate _ payload :=
    .ok (if payload = [0x61, 0x62, 0x63] then
      [0x78, 0x9C, 0x4B, 0x4C, 0x4A, 0x06, 0x00, 0x02, 0x4D, 0x01, 0x27] else 0 :: payload)

/-- The reader of `keepingZlib`. -/
def keepingLibrary : CmsLibrary :=
  { deliveredLibrary with
    inflate := fun limit deflated =>
      match deflated with
      | 0 :: payload => some (payload.take limit)
      | [0x78, 0x9C, 0x4B, 0x4C, 0x4A, 0x06, 0x00, 0x02, 0x4D, 0x01, 0x27] =>
        some ([0x61, 0x62, 0x63].take limit)
      | _ => none }

/-- What `keepingZlib` writes is read back. -/
theorem keepingZlib_inverse : ZlibInverse keepingZlib keepingLibrary where
  deflates := by
    intro level payload hlimit
    refine ⟨_, rfl, ?_⟩
    have hmax : maxDecompressedBytes < 2 ^ 62 := by decide
    split
    · decide
    · rw [List.length_cons]
      omega
  inflates := by
    intro level payload deflated limit hdeflate
    obtain rfl := Except.ok.inj hdeflate
    by_cases habc : payload = [0x61, 0x62, 0x63]
    · rw [if_pos habc, habc]
      rfl
    · rw [if_neg habc]
      rfl

/-- The payload `abc` is compressed and comes back. -/
theorem compressedData_roundTrip_abc :
    ∃ der, compressCmsZlib keepingZlib [0x61, 0x62, 0x63] 6 = .ok der ∧
      decompressCmsZlib keepingLibrary der = .ok [0x61, 0x62, 0x63] :=
  (compressedData_roundTrip keepingZlib keepingLibrary keepingZlib_inverse).1 [0x61, 0x62, 0x63] 6
    (by decide)

end Asx
