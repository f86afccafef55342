import Asx.Native.Send
import Asx.Native.Smp

/-!
# Peppol participant discovery

`Smp` of `peppol.rs`: a lookup for identifiers that are written `scheme::value`. The DNS
resolver of the system, the revocation check of the SMP's signer and the certificates are
parameters; a certificate is represented by its encoding.
-/

namespace Asx

/-- `PEPPOL_PRODUCTION_SML_ZONE`. -/
def peppolProductionSmlZone : Str := "participant.sml.prod.tech.peppol.org"

/-- `PEPPOL_TEST_SML_ZONE`. -/
def peppolTestSmlZone : Str := "participant.sml.test.tech.peppol.org"

/-- `SmpConfig::peppol_production`. -/
def SmpConfig.peppolProduction : SmpConfig :=
  ⟨peppolProductionSmlZone, .naptr, peppolParticipantScheme, peppolAs4TransportProfile, .deny⟩

/-- `Partner`, without its quirks. -/
structure Partner where
  id : Str
  partyType : Option Str := none
  endpoint : Option Str := none
  signing : List Bytes := []
  encryption : Option Bytes := none
deriving DecidableEq, Repr

/-- What a lookup takes from outside. The resolver of `net` is that of the client. -/
structure PeppolLibrary where
  net : SmpNetwork
  /-- `HickoryBdxlResolver::from_system_config`. -/
  systemResolver : Result (Str → Result (List NaptrRecord))
  /-- `Revocation::check`: the description of an outcome that refuses. -/
  refused : List Bytes → Option Str
  /-- `Certificate::from_der`. -/
  certificateFromDer : Bytes → Except PublicError Unit
  /-- `Certificate::subject_cn`. -/
  subjectCn : Bytes → Option Str

/-- `Smp`, without the HTTP client and the revocation, which are in `PeppolLibrary`. -/
structure Smp where
  zone : Str
  anchorPems : List Str
  staticSmp : Option Str
  resolver : Option (Str → Result (List NaptrRecord))

namespace Smp

/-- What stands after the first `::`. -/
def afterScheme : Str → Option Str
  | ':' :: ':' :: v => some v
  | _ :: s => afterScheme s
  | [] => none

/-- The `value` of `lookup`: the part of an identifier after the first `::`, or all of it. -/
def value (id : Str) : Str := (afterScheme id).getD id

/-- The configuration of a lookup. -/
def config (smp : Smp) : SmpConfig :=
  let config := match smp.staticSmp with
    | some url => SmpConfig.withStaticSmp url
    | none => { SmpConfig.peppolProduction with smlZone := smp.zone }
  { config with signaturePolicy := .verify ⟨smp.anchorPems, true⟩ }

/-- The client of a lookup: its own resolver, else that of the system where one is needed. -/
def client (lib : PeppolLibrary) (smp : Smp) : Except PublicError SmpNetwork :=
  match smp.resolver, smp.staticSmp with
  | some resolver, _ => .ok { lib.net with lookupNaptr := some resolver }
  | none, some _ => .ok { lib.net with lookupNaptr := none }
  | none, none =>
    match lib.systemResolver with
    | .ok resolver => .ok { lib.net with lookupNaptr := some resolver }
    | .error e => .error (.fromInternal .smpLookup e)

/-- The request of a lookup. -/
def request (participant documentType process : Str) : SmpLookupRequest :=
  ⟨value participant, value documentType, value process, none⟩

/-- The partner that an endpoint stands for. -/
def partnerOf (lib : PeppolLibrary) (endpoint : SmpEndpoint) : Except PublicError Partner := do
  let der ← Except.okOr (endpoint.certificateDerB64.bind fun b64 =>
      Base64.decode (b64.filter fun c => !Str.isWhitespace c))
    (PublicError.new .rejected "the SMP endpoint carries no access point certificate")
  lib.certificateFromDer der
  let cn ← Except.okOr (lib.subjectCn der) (PublicError.new .rejected
    "the access point certificate has no single CN (Peppol AS4 §4.5)")
  pure { id := cn, endpoint := some endpoint.url, signing := [der], encryption := some der }

/-- `Smp::lookup`. -/
def lookup (lib : PeppolLibrary) (smp : Smp) (participant documentType process : Str) :
    Except PublicError Partner := do
  let net ← smp.client lib
  let endpoint ← (lookupEndpointWith net smp.config
    (request participant documentType process)).mapError (PublicError.fromInternal .smpLookup)
  match lib.refused endpoint.signerPath with
  | some description => throw (PublicError.new .rejected ("the SMP signer: " ++ description))
  | none => partnerOf lib endpoint

end Smp

end Asx
