import Asx.Native.Revocation

/-!
# Checking a certification path

`check_path` of `revocation/mod.rs` and what it calls, down to `crl_scope` and `ocsp_status`.
These two and the clock are parameters over a state of any type (`PathServices`): between two of
their calls the other checks of the client go on.
-/

namespace Asx

/-- `Method`. -/
inductive RevocationMethod where
  | crl
  | ocsp
deriving DecidableEq, Repr

/-- `Outcome`. -/
inductive PathOutcome where
  | good
  | revoked (subject : Str) (method : RevocationMethod)
  | notObtainable (subject : Str) (accepted : Bool)
  | distrusted (ca : Str) (reason : DistrustReason) (since : SystemTime)
  | noSource (subject : Str) (accepted ocsp : Bool)
deriving DecidableEq, Repr

/-- `Outcome::refused`. -/
def PathOutcome.refused : PathOutcome → Bool
  | .good => false
  | .revoked .. => true
  | .distrusted .. => true
  | .notObtainable _ accepted => !accepted
  | .noSource _ accepted _ => !accepted

/-- What OpenSSL reads from a certificate and a time. Times are seconds since the epoch. -/
structure CertificateReader where
  /-- `display_name` of the subject. -/
  displayName : Bytes → Str
  /-- `subject_name().to_der()`. -/
  subjectDer : Bytes → Option Bytes
  notBefore : Bytes → Int
  notAfter : Bytes → Int
  /-- `Asn1Time::from_unix`. -/
  fromUnix : Int → Option Int

/-- What a check calls. -/
structure PathServices (σ : Type) where
  clock : StateM σ SystemTime
  /-- `crl_scope`. -/
  crlScope : ScopeCall → StateM σ (RevocationStatus × Option SystemTime)
  /-- `ocsp_status`: the certificate, its issuer and the path from there on. -/
  ocspStatus : Bytes → Bytes → List Bytes → StateM σ RevocationStatus

/-- The parts of `Revocation` that a path is checked with. -/
structure PathChecker (σ : Type) where
  lib : CrlLibrary
  reader : CertificateReader
  rule : RevocationRule
  crlSigners : List Bytes
  services : PathServices σ

namespace PathChecker

variable {σ : Type} (v : PathChecker σ)

/-- `crl_signer`. -/
def crlSigner (name : Bytes) : StateM σ (Option Bytes) := do
  let time ← v.services.clock
  match v.reader.fromUnix (unixSecs time) with
  | none => pure none
  | some now =>
    pure (v.crlSigners.find? fun s =>
      v.reader.subjectDer s == some name && decide (v.reader.notBefore s ≤ now) &&
        decide (v.reader.notAfter s ≥ now))

/-- The loop of `crl_status` over the URIs of a point: the status and the warning so far, and
    whether the status decides. -/
def checkUrls (issuer : Bytes) (subject : CrlSubject) (point : DistributionPoint)
    (signer : Bytes) : List Str → RevocationStatus × Option SystemTime →
      StateM σ ((RevocationStatus × Option SystemTime) × Bool)
  | [], found => pure (found, false)
  | url :: urls, (fallback, warning) => do
    let (status, warn) ← v.services.crlScope ⟨issuer, subject, point, signer, url⟩
    let warning := if warn.isSome then warn else warning
    match status with
    | .good _ => pure ((status, warning), true)
    | .revoked _ => pure ((status, warning), true)
    | .distrusted .. => checkUrls issuer subject point signer urls (status, warning)
    | _ => checkUrls issuer subject point signer urls (fallback, warning)

/-- The `signer` of `crl_status`. -/
def pointSigner (issuer : Bytes) (point : DistributionPoint) : StateM σ (Option Bytes) :=
  match point.crlIssuer with
  | none => pure (some issuer)
  | some name => v.crlSigner name

/-- The loop of `crl_status` over the points. -/
def checkPoints (issuer : Bytes) (subject : CrlSubject) : List DistributionPoint →
    RevocationStatus × Option SystemTime → StateM σ (RevocationStatus × Option SystemTime)
  | [], found => pure found
  | point :: points, found => do
    let signer ← v.pointSigner issuer point
    match signer with
    | none => checkPoints issuer subject points found
    | some signer =>
      let (found, decides) ← v.checkUrls issuer subject point signer point.uris found
      if decides then pure found else checkPoints issuer subject points found

/-- `crl_status`. -/
def crlStatus (cert issuer : Bytes) (subject : CrlSubject) :
    StateM σ (RevocationStatus × Option SystemTime) :=
  match distributionPoints v.lib cert with
  | .ok (some (point :: points)) =>
    v.checkPoints issuer subject (point :: points) (.notObtainable .network, none)
  | .ok _ => pure (.absent, none)
  | .error _ => pure (.notObtainable .network, none)

/-- The `decided` of `decide`. -/
def decided (cert issuer : Bytes) (status : RevocationStatus) (method : RevocationMethod) :
    Option (PathOutcome × RevocationMethod × StatusSource) :=
  match status with
  | .good source => some (.good, method, source)
  | .revoked source => some (.revoked (v.reader.displayName cert) method, method, source)
  | .distrusted reason since source =>
    some (.distrusted (v.reader.displayName issuer) reason since, method, source)
  | _ => none

/-- The `not_obtainable` of `decide`. -/
def notObtainable (cert : Bytes) (method : RevocationMethod) (source : StatusSource) :
    PathOutcome × RevocationMethod × StatusSource × Option SystemTime :=
  (.notObtainable (v.reader.displayName cert) v.rule.unobtainableAccepted, method, source, none)

/-- The `ocsp` of `decide`. -/
def ocspAnswer (cert issuer : Bytes) (upper : List Bytes) : StateM σ RevocationStatus :=
  match v.rule.sources with
  | .crlOnly => pure .absent
  | .crlThenOcsp => v.services.ocspStatus cert issuer upper

/-- `decide`. -/
def decideOne (cert issuer : Bytes) (upper : List Bytes) :
    StateM σ (PathOutcome × RevocationMethod × StatusSource × Option SystemTime) :=
  match CrlSubject.of v.lib cert with
  | .error _ => pure (v.notObtainable cert .crl .network)
  | .ok subject => do
    let (crl, warning) ← v.crlStatus cert issuer subject
    match v.decided cert issuer crl .crl with
    | some (outcome, method, source) => pure (outcome, method, source, warning)
    | none =>
      let ocsp ← v.ocspAnswer cert issuer upper
      match v.decided cert issuer ocsp .ocsp with
      | some (outcome, method, source) => pure (outcome, method, source, none)
      | none =>
        pure (match crl, ocsp with
          | .absent, .absent =>
            (.noSource (v.reader.displayName cert)
              (decide (v.rule.missingSource = .acceptRecorded))
              (decide (v.rule.sources = .crlThenOcsp)), .crl, .network, none)
          | _, .notObtainable source => v.notObtainable cert .ocsp source
          | .notObtainable source, _ => v.notObtainable cert .crl source
          | _, _ => v.notObtainable cert .crl .network)

/-- `check_one`, without its telemetry. -/
def checkOne (cert issuer : Bytes) (upper : List Bytes) : StateM σ PathOutcome := do
  let (outcome, _, _, _) ← v.decideOne cert issuer upper
  pure outcome

/-- `check_one` for the certificate `i` of a path. -/
def checkOneAt (path : List Bytes) (i : Nat) : StateM σ PathOutcome :=
  v.checkOne (path.getD i []) (path.getD (i + 1) []) (path.drop (i + 1))

/-- The loop of `check_path`, from certificate `n - 1` down. -/
def walk (path : List Bytes) : Nat → PathOutcome → StateM σ PathOutcome
  | 0, outcome => pure outcome
  | i + 1, outcome => do
    let one ← v.checkOneAt path i
    if one.refused then pure one
    else walk path i (if one ≠ .good then one else outcome)

/-- `check_path`. -/
def checkPath (path : List Bytes) : StateM σ PathOutcome :=
  if path.length < 2 then pure .good else v.walk path (path.length - 1) .good

end PathChecker

end Asx
