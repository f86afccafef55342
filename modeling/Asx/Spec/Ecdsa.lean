import Asx.ForStd.Except
import Asx.Native.Ecdsa
import Asx.Spec.Compression

/-!
# The two forms of an ECDSA signature

A signature in DER and its wire form are each the other's image, for every width that fits an `i32`
and leaves room for an octet. Of OpenSSL it is assumed that `to_der` writes the minimal DER, that
`from_der` reads what `to_der` writes, and what is documented of a `BigNum`.

## Main results
- `derToWire_eq_ok_iff`: what is accepted, and its wire form
- `wireToDer_eq`: the DER of a wire form
-/

namespace Asx

/-! ## Signature values -/

/-- The DER of an `ECDSA-Sig-Value`. -/
def ecdsaSigValue (r s : Nat) : Bytes :=
  derTlv 0x30 (derTlv 0x02 (derNat r) ++ derTlv 0x02 (derNat s))

/-- A minimal DER SEQUENCE of two INTEGERs that are not negative and take at most `l` octets, with
    nothing behind it. -/
def IsSigValue (der : Bytes) (l : Nat) : Prop :=
  ∃ r s, IsDerNat r ∧ IsDerNat s ∧ numBytes (octetsNat r) ≤ l ∧ numBytes (octetsNat s) ≤ l ∧
    der = derTlv 0x30 (derTlv 0x02 r ++ derTlv 0x02 s)

/-- A signature value of DER is what is written for two numbers that fit. -/
theorem isSigValue_iff {der : Bytes} {l : Nat} :
    IsSigValue der l ↔ ∃ r s : Nat, numBytes r ≤ l ∧ numBytes s ≤ l ∧ der = ecdsaSigValue r s := by
  constructor
  · rintro ⟨r, s, hr, hs, hrl, hsl, rfl⟩
    refine ⟨octetsNat r, octetsNat s, hrl, hsl, ?_⟩
    rw [ecdsaSigValue, derNat_octetsNat hr, derNat_octetsNat hs]
  · rintro ⟨r, s, hrl, hsl, rfl⟩
    refine ⟨derNat r, derNat s, derNat_isDerNat r, derNat_isDerNat s, ?_, ?_, rfl⟩
    · rwa [octetsNat_derNat]
    · rwa [octetsNat_derNat]

/-- What is assumed of OpenSSL, for numbers whose octets an `int` counts. An empty vector is left
    open: the count 0 of its octets is also the code of an error. -/
structure EcdsaLibrary.Documented (lib : EcdsaLibrary) : Prop where
  toDer_eq : ∀ r s : Nat, numBytes r ≤ i32Max → numBytes s ≤ i32Max →
    lib.toDer ⟨r, s⟩ = some (ecdsaSigValue r s)
  fromDer_eq : ∀ r s : Nat, numBytes r ≤ i32Max → numBytes s ≤ i32Max →
    lib.fromDer (ecdsaSigValue r s) = some ⟨r, s⟩
  fromSlice_eq : ∀ b : Bytes, b.length ≤ i32Max → lib.fromSlice b = some (octetsNat b : Int)
  toVecPadded_eq : ∀ (n : Int) (width : Nat) (v : Bytes), lib.toVecPadded n width = some v →
    v = paddedOctets n.natAbs width
  toVecPadded_isSome : ∀ (n : Int) (width : Nat), 0 < width → width ≤ i32Max →
    numBytes n ≤ width → (lib.toVecPadded n width).isSome

variable {lib : EcdsaLibrary}

theorem numBytes_octetsNat (b : Bytes) : numBytes (octetsNat b) ≤ b.length :=
  length_natOctets_le (octetsNat_lt b)

/-- The wire form of two numbers. -/
def wireOf (r s l : Nat) : Bytes := paddedOctets r l ++ paddedOctets s l

/-- The two halves of the wire form have the length of the key. -/
theorem length_wireOf {r s l : Nat} (hr : numBytes r ≤ l) (hs : numBytes s ≤ l) :
    (wireOf r s l).length = 2 * l := by
  rw [wireOf, List.length_append, @length_paddedOctets r l hr, @length_paddedOctets s l hs]
  omega

/-- A wire form is that of the two numbers it writes. -/
theorem wireOf_halves {w : Bytes} {l : Nat} (h : w.length = 2 * l) :
    wireOf (octetsNat (w.take l)) (octetsNat (w.drop l)) l = w := by
  have htake : (w.take l).length = l := by
    rw [List.length_take]
    omega
  have hdrop : (w.drop l).length = l := by
    rw [List.length_drop]
    omega
  have hr := paddedOctets_octetsNat (w.take l)
  have hs := paddedOctets_octetsNat (w.drop l)
  rw [htake] at hr
  rw [hdrop] at hs
  rw [wireOf, hr, hs, List.take_append_drop]

/-- The DER of a wire form. -/
theorem wireToDer_eq (h : lib.Documented) {w : Bytes} {l : Nat} (hl : l ≤ i32Max)
    (hw : w.length = 2 * l) :
    wireToDer lib w l = .ok (ecdsaSigValue (octetsNat (w.take l)) (octetsNat (w.drop l))) := by
  have htake : (w.take l).length ≤ i32Max := by
    rw [List.length_take]
    omega
  have hdrop : (w.drop l).length ≤ i32Max := by
    rw [List.length_drop]
    omega
  have hder := h.toDer_eq _ _ ((numBytes_octetsNat _).trans htake)
    ((numBytes_octetsNat _).trans hdrop)
  rw [wireToDer, rejectIf_bind, if_neg (not_not.mpr hw)]
  simp only [h.fromSlice_eq _ htake, h.fromSlice_eq _ hdrop, Except.okOr, ok_bind, hder]

/-- What is accepted, and its wire form. -/
theorem derToWire_eq_ok (h : lib.Documented) {der w : Bytes} {l : Nat}
    (hw : derToWire lib der l = .ok w) :
    l ≤ i32Max ∧ ∃ r s : Nat, numBytes r ≤ l ∧ numBytes s ≤ l ∧ der = ecdsaSigValue r s ∧
      w = wireOf r s l := by
  simp only [derToWire, Except.bind_eq_ok, Except.okOr_eq_ok, Except.rejectIf_eq_ok,
    Except.pure_eq_ok] at hw
  obtain ⟨⟨r, s⟩, hfrom, encoded, hto, -, hsame, -, hsign, -, hsize, width, hwidth, v, hv, v', hv',
    rfl⟩ := hw
  rw [not_not] at hsame
  simp only [not_or, not_lt] at hsign hsize
  obtain ⟨hr, hs⟩ := hsign
  lift r to Nat using hr
  lift s to Nat using hs
  have hl : l ≤ i32Max := by
    by_contra hgt
    rw [i32TryFrom, if_neg hgt] at hwidth
    cases hwidth
  rw [i32TryFrom, if_pos hl] at hwidth
  obtain rfl := Option.some.inj hwidth
  refine ⟨hl, r, s, hsize.1, hsize.2, ?_, ?_⟩
  · rw [h.toDer_eq r s (hsize.1.trans hl) (hsize.2.trans hl)] at hto
    rw [← hsame, ← Option.some.inj hto]
  · rw [h.toVecPadded_eq _ _ _ hv, h.toVecPadded_eq _ _ _ hv']
    rfl

/-- Every pair of numbers that fits is converted. -/
theorem derToWire_ecdsaSigValue (h : lib.Documented) {r s l : Nat} (hpos : 0 < l) (hl : l ≤ i32Max)
    (hr : numBytes r ≤ l) (hs : numBytes s ≤ l) :
    derToWire lib (ecdsaSigValue r s) l = .ok (wireOf r s l) := by
  obtain ⟨v, hv⟩ := Option.isSome_iff_exists.mp (h.toVecPadded_isSome r l hpos hl hr)
  obtain ⟨v', hv'⟩ := Option.isSome_iff_exists.mp (h.toVecPadded_isSome s l hpos hl hs)
  simp only [derToWire, Except.bind_eq_ok, Except.okOr_eq_ok, Except.rejectIf_eq_ok,
    Except.pure_eq_ok]
  refine ⟨⟨r, s⟩, h.fromDer_eq r s (hr.trans hl) (hs.trans hl), _,
    h.toDer_eq r s (hr.trans hl) (hs.trans hl), (), not_not.mpr rfl, (), by simp, (),
    not_or.mpr ⟨not_lt.mpr hr, not_lt.mpr hs⟩, l, if_pos hl, v, hv, v', hv', ?_⟩
  rw [h.toVecPadded_eq _ _ _ hv, h.toVecPadded_eq _ _ _ hv']
  rfl

/-- The DER that is accepted. -/
theorem derToWire_eq_ok_iff (h : lib.Documented) {der : Bytes} {l : Nat} (hpos : 0 < l)
    (hl : l ≤ i32Max) : (∃ w, derToWire lib der l = .ok w) ↔ IsSigValue der l := by
  rw [isSigValue_iff]
  constructor
  · rintro ⟨w, hw⟩
    obtain ⟨-, r, s, hr, hs, hder, -⟩ := derToWire_eq_ok h hw
    exact ⟨r, s, hr, hs, hder⟩
  · rintro ⟨r, s, hr, hs, rfl⟩
    exact ⟨_, derToWire_ecdsaSigValue h hpos hl hr hs⟩

/-! ## Refusals -/

/-- A computation with one error. -/
def FailsWith {α : Type} (e : AsxError) (x : Result α) : Prop := (∃ a, x = .ok a) ∨ x = .error e

theorem FailsWith.okOr_bind {α β : Type} {e : AsxError} {o : Option α} {f : α → Result β}
    (h : ∀ a, FailsWith e (f a)) : FailsWith e (Except.okOr o e >>= f) := by
  cases o with
  | none => exact .inr rfl
  | some a => exact h a

theorem FailsWith.rejectIf_bind {β : Type} {e : AsxError} {p : Prop} [Decidable p]
    {f : Unit → Result β} (h : FailsWith e (f ())) : FailsWith e (Except.rejectIf p e >>= f) := by
  rw [Asx.rejectIf_bind]
  split
  · exact .inr rfl
  · exact h

/-- What is not converted is refused as malformed. -/
theorem derToWire_failsWith (lib : EcdsaLibrary) (der : Bytes) (l : Nat) :
    FailsWith malformedEcdsa (derToWire lib der l) :=
  .okOr_bind fun _ => .okOr_bind fun _ => .rejectIf_bind <| .rejectIf_bind <| .rejectIf_bind <|
    .okOr_bind fun _ => .okOr_bind fun _ => .okOr_bind fun _ => .inl ⟨_, rfl⟩

/-- A length that no `i32` holds is refused. -/
theorem derToWire_large (h : lib.Documented) {l : Nat} (hl : i32Max < l) (der : Bytes) :
    derToWire lib der l = .error malformedEcdsa := by
  obtain ⟨w, hw⟩ | hrefused := derToWire_failsWith lib der l
  · have := (derToWire_eq_ok h hw).1
    omega
  · exact hrefused

/-- The two forms of an ECDSA signature are inverse to each other: on the wire all texts of twice
    the length, in DER the shortest forms of two numbers that fit; everything else is refused. -/
theorem ecdsaForms_inverse (lib : EcdsaLibrary) (h : lib.Documented) :
    (∀ l der w, derToWire lib der l = .ok w → w.length = 2 * l ∧ wireToDer lib w l = .ok der) ∧
    (∀ l w, 0 < l → l ≤ i32Max → w.length = 2 * l →
      ∃ der, wireToDer lib w l = .ok der ∧ derToWire lib der l = .ok w) ∧
    (∀ l der, 0 < l → l ≤ i32Max → ((∃ w, derToWire lib der l = .ok w) ↔ IsSigValue der l)) ∧
    (∀ l der, i32Max < l → derToWire lib der l = .error malformedEcdsa) ∧
    ∀ l der, (∃ w, derToWire lib der l = .ok w) ∨ derToWire lib der l = .error malformedEcdsa := by
  refine ⟨fun l der w hw => ?_, fun l w hpos hl hw => ?_, fun l der hpos hl =>
    derToWire_eq_ok_iff h hpos hl, fun l der hl => derToWire_large h hl der,
    fun l der => derToWire_failsWith lib der l⟩
  · obtain ⟨hl, r, s, hr, hs, rfl, rfl⟩ := derToWire_eq_ok h hw
    have hlength := length_wireOf hr hs
    refine ⟨hlength, ?_⟩
    have hrl := @length_paddedOctets r l hr
    rw [wireToDer_eq h hl hlength, wireOf, List.take_left' hrl, List.drop_left' hrl,
      octetsNat_paddedOctets, octetsNat_paddedOctets]
  · have htake := numBytes_octetsNat (w.take l)
    have hdrop := numBytes_octetsNat (w.drop l)
    rw [List.length_take] at htake
    rw [List.length_drop] at hdrop
    refine ⟨_, wireToDer_eq h hl hw, ?_⟩
    rw [derToWire_ecdsaSigValue h hpos hl (by omega) (by omega), wireOf_halves hw]

/-! ## A library -/

/-- A library that writes minimal DER and reads every definite length. As in `openssl`, what
    follows the SEQUENCE is not looked at, and an empty vector is an error. -/
def lenientEcdsa : EcdsaLibrary where
  fromDer der :=
    match derTake der 0x30 with
    | .ok (content, _) =>
      match derTake content 0x02 with
      | .ok (r, rest) =>
        match derTake rest 0x02 with
        | .ok (s, []) => some ⟨octetsInt r, octetsInt s⟩
        | _ => none
      | .error _ => none
    | .error _ => none
  toDer sig :=
    if 0 ≤ sig.r ∧ 0 ≤ sig.s then some (ecdsaSigValue sig.r.toNat sig.s.toNat) else none
  fromSlice b := if b.length ≤ i32Max then some (octetsNat b) else none
  toVecPadded n width :=
    if 0 < width ∧ numBytes n ≤ width then some (paddedOctets n.natAbs width.toNat) else none

theorem octetsInt_derNat (n : Nat) : octetsInt (derNat n) = n := by
  obtain ⟨x, rest, hcontent, hx⟩ := (derNat_isDerNat n).sign
  have hsign : ¬ (derNat n).head?.any (· ≥ 0x80) = true := by
    rw [hcontent]
    simpa using hx
  rw [octetsInt, if_neg hsign, octetsNat_derNat]

/-- The library of the example behaves as documented. -/
theorem lenientEcdsa_documented : lenientEcdsa.Documented where
  toDer_eq := by
    intro r s hr hs
    simp [lenientEcdsa]
  fromDer_eq := by
    intro r s hr hs
    have hlength : ∀ n : Nat, numBytes n ≤ i32Max → (derNat n).length ≤ 2 ^ 31 := by
      intro n hn
      exact (length_derNat_le n).trans (Nat.succ_le_succ hn)
    have htlv : ∀ n : Nat, numBytes n ≤ i32Max → (derTlv 0x02 (derNat n)).length ≤ 2 ^ 31 + 10 := by
      intro n hn
      have hlt : (derNat n).length < 2 ^ 64 := lt_of_le_of_lt (hlength n hn) (by decide)
      rw [← compression_derTlv 0x02 hlt]
      exact (length_compression_derTlv 0x02 hlt).trans (Nat.add_le_add_right (hlength n hn) 10)
    have htake : ∀ n : Nat, numBytes n ≤ i32Max → ∀ rest,
        derTake (derTlv 0x02 (derNat n) ++ rest) 0x02 = .ok (derNat n, rest) := by
      intro n hn rest
      exact derTake_isTlv (derTlv_isTlv 0x02 (lt_of_le_of_lt (hlength n hn) (by decide))) rest
    have hcontent : (derTlv 0x02 (derNat r) ++ derTlv 0x02 (derNat s)).length < 256 ^ 8 := by
      rw [List.length_append]
      exact lt_of_le_of_lt (Nat.add_le_add (htlv r hr) (htlv s hs)) (by decide)
    have houter := derTake_isTlv (derTlv_isTlv 0x30 hcontent) []
    have hlast := htake s hs []
    rw [List.append_nil] at houter hlast
    simp only [lenientEcdsa, ecdsaSigValue, houter, htake r hr, hlast, octetsInt_derNat]
  fromSlice_eq := fun b hb => if_pos hb
  toVecPadded_eq := by
    intro n width v hv
    obtain ⟨-, hv⟩ := Option.ite_none_right_eq_some.mp hv
    exact (Option.some.inj hv).symm
  toVecPadded_isSome := by
    intro n width hpos hl hn
    simp [lenientEcdsa, hpos, hn]

/-- A key of one octet, with a leading zero and a high bit. -/
theorem ecdsaForms_inverse_short :
    ∃ der, wireToDer lenientEcdsa [0x00, 0x81] 1 = .ok der ∧
      derToWire lenientEcdsa der 1 = .ok [0x00, 0x81] :=
  (ecdsaForms_inverse lenientEcdsa lenientEcdsa_documented).2.1 1 [0x00, 0x81] (by decide)
    (by decide) rfl

/-- The signature of two zeros fits every width. It is refused at one that is no `i32`, and at the
    width 0, although the empty wire form has its DER. -/
theorem not_ecdsaForms_inverse :
    IsSigValue [0x30, 0x06, 0x02, 0x01, 0x00, 0x02, 0x01, 0x00] (2 ^ 31) ∧
    derToWire lenientEcdsa [0x30, 0x06, 0x02, 0x01, 0x00, 0x02, 0x01, 0x00] (2 ^ 31) =
      .error malformedEcdsa ∧
    wireToDer lenientEcdsa [] 0 = .ok [0x30, 0x06, 0x02, 0x01, 0x00, 0x02, 0x01, 0x00] ∧
    derToWire lenientEcdsa [0x30, 0x06, 0x02, 0x01, 0x00, 0x02, 0x01, 0x00] 0 =
      .error malformedEcdsa := by
  have hder : ecdsaSigValue 0 0 = [0x30, 0x06, 0x02, 0x01, 0x00, 0x02, 0x01, 0x00] := by decide
  rw [← hder]
  refine ⟨isSigValue_iff.mpr ⟨0, 0, by decide, by decide, rfl⟩,
    derToWire_large lenientEcdsa_documented (by decide) _,
    wireToDer_eq lenientEcdsa_documented (by decide) rfl, ?_⟩
  obtain ⟨w, hw⟩ | hrefused := derToWire_failsWith lenientEcdsa (ecdsaSigValue 0 0) 0
  · -- an empty vector is an error
    simp only [derToWire, Except.bind_eq_ok, Except.okOr_eq_ok, Except.rejectIf_eq_ok] at hw
    obtain ⟨sig, -, -, -, -, -, -, -, -, -, width, hwidth, v, hv, -⟩ := hw
    obtain rfl := Option.some.inj hwidth
    simp [lenientEcdsa] at hv
  · exact hrefused

end Asx
