import Asx.Native.Verify

/-!
# Certification paths

`validate_chain_offline` of `crypto/wssec/x509.rs`. What OpenSSL answers is a parameter
(`OpenSsl`); a certificate object is represented by its encoding, so `X509::from_der` gives
the encoding of the certificate it reads.
-/

namespace Asx

/-- The OpenSSL operations of the path validation. -/
structure OpenSsl where
  /-- `X509::from_der`. -/
  x509FromDer : Bytes → Option Bytes
  /-- `X509::stack_from_pem`. -/
  stackFromPem : Str → Option (List Bytes)
  /-- `X509StoreBuilder::add_cert` of every trust anchor. -/
  addCerts : List Bytes → Option Unit
  /-- `X509StoreContext::init` with `verify_cert` and `chain`: trust anchors, leaf and
      intermediates to the verdict and the path. -/
  verifyCert : List Bytes → Bytes → List Bytes → Option (Bool × List Bytes)

/-- `pkix_error`. -/
def pkixError (message : Str) : AsxError :=
  signatureValueError .securityVerificationFailed message

/-- `validate_chain_offline`: the path OpenSSL built, signer first. -/
def validateChainOffline (openssl : OpenSsl) (x509CertificatesDer : List Bytes)
    (policy : ChainPolicy) : Result (List Bytes) := do
  Except.rejectIf (policy.trustAnchorPems = [])
    (pkixError "PKIX validation requires at least one trust anchor")
  let leafDer ← Except.okOr x509CertificatesDer.head?
    (pkixError "PKIX validation requires an X509 certificate in KeyInfo")
  let leaf ← Except.okOr (openssl.x509FromDer leafDer)
    (pkixError "failed to parse signer certificate for PKIX validation: ")
  let intermediates ← (x509CertificatesDer.drop 1).mapM fun der =>
    Except.okOr (openssl.x509FromDer der)
      (pkixError "failed to parse intermediate certificate for PKIX validation: ")
  let anchors ← policy.trustAnchorPems.mapM fun pem =>
    Except.okOr (openssl.stackFromPem pem) (pkixError "invalid trust-anchor certificate PEM: ")
  let _ ← Except.okOr (openssl.addCerts anchors.flatten)
    (pkixError "failed to add trust-anchor certificate: ")
  let (valid, path) ← Except.okOr (openssl.verifyCert anchors.flatten leaf intermediates)
    (pkixError "PKIX certificate validation failed: ")
  Except.rejectIf (valid = false ∨ path = [])
    (pkixError "PKIX certificate validation did not produce a trusted chain")
  pure path

end Asx
