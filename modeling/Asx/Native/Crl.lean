import Asx.Native.Core
import Asx.Native.Time

/-!
# Certificate revocation lists

`revocation/crl.rs`: the distribution points of a certificate, and the CRL parser. What
`x509-parser` and OpenSSL read from the DER encodings is a parameter (`CrlLibrary`); a
certificate is represented by its encoding.
-/

namespace Asx

/-! ## Libraries -/

/-- A `GeneralName`, as far as it is read. -/
inductive GeneralName where
  | uri (uri : Str)
  | directoryName (raw : Bytes)
  | other
deriving DecidableEq, Repr

/-- A `DistributionPointName`. -/
inductive DistributionPointName where
  | fullName (names : List GeneralName)
  | nameRelativeToCrlIssuer
deriving DecidableEq, Repr

/-- What `x509-parser` reads from a certificate. -/
structure ParsedCertificate where
  subject : Bytes
  issuer : Bytes
  rawSerial : Bytes
  /-- `basicConstraints` is there and says that it is a CA. -/
  isCa : Bool
  /-- The `cRLSign` of the `keyUsage`, where there is one. -/
  crlSign : Option Bool
  subjectKeyIdentifier : Option Bytes
  /-- The points of the first `cRLDistributionPoints`: name and `cRLIssuer`. -/
  distributionPoints : Option (List (Option DistributionPointName × Option (List GeneralName)))
deriving DecidableEq, Repr

/-- An `IssuingDistributionPoint` as it is parsed. -/
structure RawIdp where
  distributionPoint : Option DistributionPointName
  onlyContainsUserCerts : Bool
  onlyContainsCaCerts : Bool
  onlySomeReasons : Bool
  onlyContainsAttributeCerts : Bool
  indirectCrl : Bool
deriving DecidableEq, Repr

/-- What an extension of a CRL is parsed as. -/
inductive CrlExtensionValue where
  | authorityKeyIdentifier (keyIdentifier : Option Bytes)
  | issuingDistributionPoint (point : RawIdp)
  | parseError
  | other
deriving DecidableEq, Repr

/-- An extension of a CRL. -/
structure CrlExtension where
  oid : Str
  critical : Bool
  value : CrlExtensionValue
deriving DecidableEq, Repr

/-- An extension of an entry. -/
structure EntryExtension where
  oid : Str
  critical : Bool
  value : Bytes
deriving DecidableEq, Repr

/-- An entry of a CRL. -/
structure CrlEntry where
  rawSerial : Bytes
  extensions : List EntryExtension
deriving DecidableEq, Repr

/-- A `CertificateRevocationList` of `x509-parser`. Times are seconds since the epoch. -/
structure RawCrl where
  issuer : Bytes
  extensions : List CrlExtension
  lastUpdate : Int
  nextUpdate : Option Int
  entries : List CrlEntry
deriving DecidableEq, Repr

/-- The library operations on certificates and CRLs. -/
structure CrlLibrary where
  /-- `X509Certificate::from_der`. -/
  parseCertificate : Bytes → Option ParsedCertificate
  /-- `X509Ref::public_key` with `public_key_to_der`. -/
  publicKey : Bytes → Option Bytes
  /-- Whether `X509Crl::from_der` reads the CRL. -/
  isCrl : Bytes → Bool
  /-- `X509Crl::verify` with a public key. -/
  verifyCrl : Bytes → Bytes → Bool
  /-- `X509Crl::from_pem` with `to_der`. -/
  crlFromPem : Bytes → Option Bytes
  /-- `CertificateRevocationList::from_der`: the rest and the CRL. -/
  parseCrl : Bytes → Option (Bytes × RawCrl)
  /-- `GeneralName::from_der`: the rest and the name. -/
  generalName : Bytes → Option (Bytes × GeneralName)
  /-- SHA-256. -/
  sha256 : Bytes → Bytes

/-! ## Distribution points -/

/-- `DistributionPoint`. -/
structure DistributionPoint where
  uris : List Str
  allUris : List Str
  crlIssuer : Option Bytes
deriving DecidableEq, Repr

/-- `is_http`. -/
def isHttpUri (uri : Str) : Bool :=
  let lower := Str.toAsciiLowercase uri
  ("http://" : Str).isPrefixOf lower || ("https://" : Str).isPrefixOf lower

/-- The URIs among names. -/
def uriNames (names : List GeneralName) : List Str :=
  names.filterMap fun
    | .uri u => some u
    | _ => none

/-- One point of `distribution_points`. -/
def distributionPoint (name : Option DistributionPointName)
    (crlIssuer : Option (List GeneralName)) : DistributionPoint :=
  let all := match name with
    | some (.fullName names) => uriNames names
    | _ => []
  ⟨all.filter isHttpUri, all, crlIssuer.bind fun names => names.findSome? fun
    | .directoryName raw => some raw
    | _ => none⟩

/-- `distribution_points`. -/
def distributionPoints (lib : CrlLibrary) (cert : Bytes) :
    Except Str (Option (List DistributionPoint)) := do
  let parsed ← Except.okOr (lib.parseCertificate cert) "unparseable certificate: "
  pure (parsed.distributionPoints.map fun points =>
    points.map fun p => distributionPoint p.1 p.2)

/-! ## The certificate that is checked -/

/-- `trim`: without leading zero octets, the last one excepted. -/
def trimZeros (b : Bytes) : Bytes :=
  if b.all (· == 0) then b.drop (b.length - 1) else b.dropWhile (· == 0)

/-- `Subject`. -/
structure CrlSubject where
  serial : Bytes
  issuer : Bytes
  isCa : Bool
deriving DecidableEq, Repr

/-- `Subject::of`. -/
def CrlSubject.of (lib : CrlLibrary) (cert : Bytes) : Except Str CrlSubject := do
  let parsed ← Except.okOr (lib.parseCertificate cert) "unparseable certificate: "
  pure ⟨trimZeros parsed.rawSerial, parsed.issuer, parsed.isCa⟩

/-! ## Parsing a CRL -/

/-- `Idp`. -/
structure Idp where
  uris : Option (List Str)
  relativeName : Bool
  onlyUser : Bool
  onlyCa : Bool
  onlySomeReasons : Bool
  onlyAttribute : Bool
  indirect : Bool
deriving DecidableEq, Repr

/-- `ParsedCrl`. -/
structure ParsedCrl where
  thisUpdate : SystemTime
  nextUpdate : Option SystemTime
  idp : Option Idp
  revoked : List (Bytes × Bytes)
deriving DecidableEq, Repr

/-- `KNOWN_CRL_EXTENSIONS`. -/
def knownCrlExtensions : List Str :=
  [.lit "2.5.29.35", .lit "2.5.29.18", .lit "2.5.29.20", .lit "2.5.29.28", .lit "2.5.29.46"]

/-- `DELTA_CRL_INDICATOR`. -/
def deltaCrlIndicator : Str := .lit "2.5.29.27"

/-- `KNOWN_ENTRY_EXTENSIONS`. -/
def knownEntryExtensions : List Str :=
  [.lit "2.5.29.21", .lit "2.5.29.23", .lit "2.5.29.24", .lit "2.5.29.29"]

/-- `CERTIFICATE_ISSUER`. -/
def certificateIssuerOid : Str := .lit "2.5.29.29"

/-- The `Idp` of an `IssuingDistributionPoint`. -/
def Idp.of (point : RawIdp) : Idp where
  uris := match point.distributionPoint with
    | some (.fullName names) => some (uriNames names)
    | _ => none
  relativeName := point.distributionPoint == some .nameRelativeToCrlIssuer
  onlyUser := point.onlyContainsUserCerts
  onlyCa := point.onlyContainsCaCerts
  onlySomeReasons := point.onlySomeReasons
  onlyAttribute := point.onlyContainsAttributeCerts
  indirect := point.indirectCrl

/-- One extension in the loop of `parse_and_verify`. -/
def readCrlExtension (signerSki : Option Bytes) (idp : Option Idp) (ext : CrlExtension) :
    Except Str (Option Idp) :=
  if ext.oid = deltaCrlIndicator then .error "a delta CRL is not a complete CRL".toList
  else
    match ext.value with
    | .authorityKeyIdentifier keyIdentifier =>
      match keyIdentifier, signerSki with
      | some id, some ski =>
        if id ≠ ski then .error "the CRL's authority key identifier names another key".toList
        else .ok idp
      | _, _ => .ok idp
    | .issuingDistributionPoint point => .ok (some (Idp.of point))
    | value =>
      if value = .parseError ∧ ext.critical = true then
        .error ("unparseable critical CRL extension " ++ ext.oid)
      else if ext.critical = true ∧ ext.oid ∉ knownCrlExtensions then
        .error ("unknown critical CRL extension " ++ ext.oid)
      else .ok idp

/-- `der_content`. -/
def derContent (bytes : Bytes) : Option (UInt8 × Bytes) :=
  match bytes with
  | tag :: first :: rest =>
    if first < 0x80 then if rest.length = first.toNat then some (tag, rest) else none
    else
      let n := first.toNat % 128
      if n = 0 ∨ n > 4 ∨ rest.length < n then none
      else
        let len := (rest.take n).foldl (fun acc b => acc * 256 + b.toNat) 0
        if (rest.drop n).length = len then some (tag, rest.drop n) else none
  | _ => none

/-- The loop of `certificate_issuer`. A name has at least one byte, so the number of bytes
    bounds the number of rounds. -/
def findDirectoryName (lib : CrlLibrary) : Nat → Bytes → Option Bytes
  | 0, _ => none
  | rounds + 1, rest =>
    if rest = [] then none
    else
      match lib.generalName rest with
      | none => none
      | some (_, .directoryName raw) => some raw
      | some (next, _) => findDirectoryName lib rounds next

/-- `certificate_issuer`. -/
def certificateIssuer (lib : CrlLibrary) (value : Bytes) : Option Bytes :=
  match derContent value with
  | some (0x30, content) => findDirectoryName lib content.length content
  | _ => none

/-- One extension of an entry: the issuer in force after it. -/
def readEntryExtension (lib : CrlLibrary) (idp : Option Idp) (entryIssuer : Bytes)
    (ext : EntryExtension) : Except Str Bytes :=
  if ext.oid = certificateIssuerOid then
    if idp.any (·.indirect) then
      Except.okOr (certificateIssuer lib ext.value)
        "an unreadable CertificateIssuer entry extension".toList
    else .error ("a CertificateIssuer entry extension in a CRL without " ++
      "IssuingDistributionPoint.indirectCRL".toList)
  else if ext.critical = true ∧ ext.oid ∉ knownEntryExtensions then
    .error ("unknown critical CRL entry extension " ++ ext.oid)
  else .ok entryIssuer

/-- One entry in the loop of `parse_and_verify`: the issuer in force and the entries so far. -/
def readCrlEntry (lib : CrlLibrary) (idp : Option Idp) (st : Bytes × List (Bytes × Bytes))
    (entry : CrlEntry) : Except Str (Bytes × List (Bytes × Bytes)) := do
  let entryIssuer ← entry.extensions.foldlM (readEntryExtension lib idp) st.1
  pure (entryIssuer, st.2 ++ [(entryIssuer, trimZeros entry.rawSerial)])

/-- `parse_and_verify`. -/
def parseAndVerify (lib : CrlLibrary) (der signer : Bytes) (nextUpdateRequired : Bool) :
    Except Str ParsedCrl := do
  Except.rejectIf (lib.isCrl der = false) "unparseable CRL: ".toList
  let key ← Except.okOr (lib.publicKey signer) []
  Except.rejectIf (lib.verifyCrl der key = false)
    "the CRL signature does not verify with the issuing key".toList
  let (rest, crl) ← Except.okOr (lib.parseCrl der) "unparseable CRL: ".toList
  Except.rejectIf (rest ≠ []) "trailing bytes after the CRL".toList
  let signerParsed ← Except.okOr (lib.parseCertificate signer) "unparseable CRL signer: ".toList
  Except.rejectIf (crl.issuer ≠ signerParsed.subject)
    "the CRL issuer is not the signing certificate's subject".toList
  Except.rejectIf (signerParsed.crlSign = some false)
    "the CRL signer's keyUsage does not permit cRLSign".toList
  let idp ← crl.extensions.foldlM (readCrlExtension signerParsed.subjectKeyIdentifier) none
  let thisUpdate := crl.lastUpdate * nanosPerSec
  let nextUpdate := crl.nextUpdate.map (· * nanosPerSec)
  Except.rejectIf (nextUpdate = none ∧ nextUpdateRequired = true)
    "the CRL has no nextUpdate (BSI TR-03109-4 Anhang B)".toList
  Except.rejectIf (nextUpdate.any (· < thisUpdate))
    "the CRL's nextUpdate is before its thisUpdate".toList
  let (_, revoked) ← crl.entries.foldlM (readCrlEntry lib idp) (crl.issuer, [])
  pure ⟨thisUpdate, nextUpdate, idp, revoked⟩

/-! ## Checks -/

/-- `ParsedCrl::covers`. -/
def ParsedCrl.covers (crl : ParsedCrl) (subject : CrlSubject) (point : DistributionPoint) :
    Except Str Unit :=
  match crl.idp with
  | none => Except.rejectIf (point.crlIssuer.isSome)
      "an indirect CRL without IssuingDistributionPoint.indirectCRL".toList
  | some idp => do
    Except.rejectIf (point.crlIssuer.isSome ∧ idp.indirect = false)
      "an indirect CRL without IssuingDistributionPoint.indirectCRL".toList
    Except.rejectIf (idp.onlyAttribute = true) "the CRL covers attribute certificates only".toList
    Except.rejectIf (idp.onlyUser = true ∧ subject.isCa = true)
      "the CRL covers end-entity certificates only".toList
    Except.rejectIf (idp.onlyCa = true ∧ subject.isCa = false)
      "the CRL covers CA certificates only".toList
    Except.rejectIf (idp.onlySomeReasons = true)
      "the CRL covers some revocation reasons only".toList
    Except.rejectIf (idp.relativeName = true)
      "the CRL names its distribution point relative to its issuer".toList
    Except.rejectIf (idp.uris.any fun uris => ¬ uris.any (point.allUris.contains ·))
      "the CRL's distribution point is not the certificate's".toList

/-- `THIS_UPDATE_SKEW`. -/
def thisUpdateSkew : Int := 300 * nanosPerSec

/-- `ParsedCrl::check_time`. -/
def ParsedCrl.checkTime (crl : ParsedCrl) (now : SystemTime) : Except Str Unit :=
  Except.rejectIf (crl.thisUpdate > now + thisUpdateSkew)
    "the CRL's thisUpdate is in the future".toList

/-- `ParsedCrl::lists`. -/
def ParsedCrl.lists (crl : ParsedCrl) (subject : CrlSubject) : Bool :=
  crl.revoked.contains (subject.issuer, subject.serial)

end Asx
