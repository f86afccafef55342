import Asx.ForStd.Der
import Asx.Native.Core

/-!
# The two forms of an ECDSA signature

`der_to_wire` and `wire_to_der` of `crypto/alg/ecdsa.rs`. A `BigNum` is its number. The DER coder
of OpenSSL and the conversions between numbers and octets are functions of the `EcdsaLibrary`.
-/

namespace Asx

/-- `EcdsaSig`. -/
structure EcdsaSig where
  r : Int
  s : Int
deriving DecidableEq, Repr

/-- What is used of the `openssl` crate. -/
structure EcdsaLibrary where
  /-- `EcdsaSig::from_der`. -/
  fromDer : Bytes → Option EcdsaSig
  /-- `EcdsaSig::to_der`. -/
  toDer : EcdsaSig → Option Bytes
  /-- `BigNum::from_slice`. -/
  fromSlice : Bytes → Option Int
  /-- `BigNum::to_vec_padded`. -/
  toVecPadded : Int → Int → Option Bytes

/-- `BigNum::num_bytes`. -/
def numBytes (n : Int) : Nat := (natOctets n.natAbs).length

/-- `i32::MAX`. -/
def i32Max : Nat := 2 ^ 31 - 1

/-- `i32::try_from`, for a `usize`. -/
def i32TryFrom (n : Nat) : Option Int := if n ≤ i32Max then some n else none

/-- `malformed`. -/
def malformedEcdsa : AsxError :=
  ⟨.securityVerificationFailed, "signing key returned a malformed ECDSA signature: the key seam " ++
    "must return one ASN.1 DER ECDSA-Sig-Value (SEQUENCE of two minimal non-negative INTEGERs)",
    .new "xmldsig_ecdsa_der_to_wire"⟩

/-- `der_to_wire`. -/
def derToWire (lib : EcdsaLibrary) (der : Bytes) (l : Nat) : Result Bytes := do
  let sig ← Except.okOr (lib.fromDer der) malformedEcdsa
  let encoded ← Except.okOr (lib.toDer sig) malformedEcdsa
  Except.rejectIf (encoded ≠ der) malformedEcdsa
  Except.rejectIf (sig.r < 0 ∨ sig.s < 0) malformedEcdsa
  Except.rejectIf (numBytes sig.r > l ∨ numBytes sig.s > l) malformedEcdsa
  let width ← Except.okOr (i32TryFrom l) malformedEcdsa
  let r ← Except.okOr (lib.toVecPadded sig.r width) malformedEcdsa
  let s ← Except.okOr (lib.toVecPadded sig.s width) malformedEcdsa
  pure (r ++ s)

/-- An error of `wire_to_der`. -/
def wireToDerError (message : Str) : AsxError :=
  ⟨.securityVerificationFailed, message, .new "xmldsig_ecdsa_wire_to_der"⟩

/-- `wire_to_der`. -/
def wireToDer (lib : EcdsaLibrary) (value : Bytes) (l : Nat) : Result Bytes := do
  Except.rejectIf (value.length ≠ 2 * l) (wireToDerError ("ECDSA SignatureValue is " ++
    showNat value.length ++ " octets; " ++ showNat (2 * l) ++ " required (r ‖ s, XMLDSig 1.1 §6.4.3)"))
  let undecodable := wireToDerError "ECDSA SignatureValue could not be decoded"
  let r ← Except.okOr (lib.fromSlice (value.take l)) undecodable
  let s ← Except.okOr (lib.fromSlice (value.drop l)) undecodable
  Except.okOr (lib.toDer ⟨r, s⟩) undecodable

end Asx
