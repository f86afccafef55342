import Asx.Native.Bdxl
import Asx.Native.VerifyEnveloped
import Asx.Native.XmlParse

/-!
# The SMP client

`smp.rs`: where to ask for a participant's `ServiceMetadata`, how the answer is authenticated,
and the endpoint that it names. `lookupEndpointWith` is the client's lookup; the HTTP
client, the DNS resolver and the XML parser are parameters.
-/

namespace Asx

open Xml

/-- `SmpSignaturePolicy`. -/
inductive SmpSignaturePolicy where
  | deny
  | verify (anchors : ChainPolicy)
  | requireSignaturePresent
  | allowUnsigned
deriving DecidableEq, Repr

/-- `SmpConfig`. -/
structure SmpConfig where
  smlZone : Str
  discovery : SmlDiscovery
  participantScheme : Str
  transportProfile : Str
  signaturePolicy : SmpSignaturePolicy
deriving DecidableEq, Repr

/-- `PEPPOL_AS4_TRANSPORT_PROFILE`. -/
def peppolAs4TransportProfile : Str := .lit "peppol-transport-as4-v2_0"

/-- `PEPPOL_PARTICIPANT_SCHEME`. -/
def peppolParticipantScheme : Str := .lit "iso6523-actorid-upis"

/-- `SmpConfig::with_static_smp`. -/
def SmpConfig.withStaticSmp (smpBaseUrl : Str) : SmpConfig :=
  ⟨[], .static smpBaseUrl, peppolParticipantScheme, peppolAs4TransportProfile, .deny⟩

/-- `SmpLookupRequest`. -/
structure SmpLookupRequest where
  participantId : Str
  documentTypeId : Str
  processId : Str
  transportProfile : Option Str
deriving DecidableEq, Repr

/-- `SmpEndpoint`. -/
structure SmpEndpoint where
  url : Str
  verifiedSignerFingerprintSha256 : Option Str
  signedDocument : Bytes
  certificateDerB64 : Option Str
  transportProfile : Str
  serviceDescription : Option Str
  serviceActivationDate : Option Str
  serviceExpirationDate : Option Str
  signerPath : List Bytes
deriving DecidableEq, Repr

/-! ## Namespaces -/

def smpNs : Str := Str.lit "http://busdox.org/serviceMetadata/publishing/1.0/"
def smp2NsServiceMetadata : Str :=
  Str.lit "http://docs.oasis-open.org/bdxr/ns/SMP/2/ServiceMetadata"
def smp2NsBasic : Str := Str.lit "http://docs.oasis-open.org/bdxr/ns/SMP/2/BasicComponents"
def smp2NsAggregate : Str := Str.lit "http://docs.oasis-open.org/bdxr/ns/SMP/2/AggregateComponents"
def busdoxIdentifiersNs : Str := Str.lit "http://busdox.org/transport/identifiers/1.0/"

/-! ## Reading the endpoint -/

/-- `SmpVersion`. -/
inductive SmpVersion where
  | v1
  | v2
deriving DecidableEq, Repr

/-- An error of the response parser. -/
def smpParseError (code : ErrorCode) (message : Str) : AsxError := ⟨code, message, .new "smp_parse"⟩

/-- `SmpVersion::detect`. -/
def SmpVersion.detect (doc : Document) : Result SmpVersion :=
  let root := doc.rootElement
  if root.namespaceUri = some smpNs then .ok .v1
  else if root.namespaceUri = some smp2NsServiceMetadata then .ok .v2
  else .error (smpParseError .parseFailed ("SMP response document element is \x7b" ++
    root.namespaceUri.getD "no namespace" ++ "\x7d" ++ root.localName ++
    "; expected an OASIS SMP 1.0 (" ++ smpNs ++ ") or SMP 2.0 (" ++ smp2NsServiceMetadata ++
    ") ServiceMetadata"))

/-- `child_in`. -/
def childIn (n : Node) (ns loc : Str) : Option Node := n.children.find? (·.hasTagName ns loc)

/-- `is_endpoint`. -/
def isEndpoint (n : Node) : SmpVersion → Bool
  | .v1 => n.hasTagName smpNs "Endpoint"
  | .v2 => n.hasTagName smp2NsAggregate "Endpoint"

/-- `endpoint_transport_profile`. -/
def endpointTransportProfile (endpoint : Node) : SmpVersion → Option Str
  | .v1 => endpoint.attribute? "transportProfile"
  | .v2 => (childIn endpoint smp2NsBasic "TransportProfileID").bind Node.text?

/-- The element `endpoint_address` takes its text from. -/
def endpointAddressNode (endpoint : Node) : SmpVersion → Option Node
  | .v1 =>
    let reference := (childIn endpoint Ns.wsa "EndpointReference").or
      (childIn endpoint smpNs "EndpointReference")
    (reference.bind fun reference => childIn reference Ns.wsa "Address").or
      (childIn endpoint smpNs "EndpointURI")
  | .v2 => childIn endpoint smp2NsBasic "AddressURI"

/-- `endpoint_address`. -/
def endpointAddress (endpoint : Node) (version : SmpVersion) : Option Str :=
  (endpointAddressNode endpoint version).bind Node.text?

/-- The element `endpoint_certificate` takes its text from. -/
def endpointCertificateNode (endpoint : Node) : SmpVersion → Option Node
  | .v1 => childIn endpoint smpNs "Certificate"
  | .v2 => (childIn endpoint smp2NsAggregate "Certificate").bind fun cert =>
      childIn cert smp2NsBasic "ContentBinaryObject"

/-- `endpoint_certificate`. -/
def endpointCertificate (endpoint : Node) (version : SmpVersion) : Option Str :=
  (endpointCertificateNode endpoint version).bind Node.text?

/-- The element `child_text` takes its text from. -/
def childTextNode (endpoint : Node) (version : SmpVersion) (v1Name v2Name : Str) : Option Node :=
  match version with
  | .v1 => childIn endpoint smpNs v1Name
  | .v2 => childIn endpoint smp2NsBasic v2Name

/-- `child_text`. -/
def childText (endpoint : Node) (version : SmpVersion) (v1Name v2Name : Str) : Option Str :=
  (childTextNode endpoint version v1Name v2Name).bind Node.text?

/-- The element `ancestor_process_id` takes its text from. -/
def ancestorProcessIdNode (endpoint : Node) : SmpVersion → Option Node
  | .v1 => do
    let list ← endpoint.parent?
    let process ← list.parent?
    (childIn process smpNs "ProcessIdentifier").or
      (childIn process busdoxIdentifiersNs "ProcessIdentifier")
  | .v2 => do
    let processMetadata ← endpoint.parent?
    let process ← childIn processMetadata smp2NsAggregate "Process"
    childIn process smp2NsBasic "ID"

/-- `ancestor_process_id`. -/
def ancestorProcessId (endpoint : Node) (version : SmpVersion) : Option Str :=
  (ancestorProcessIdNode endpoint version).bind Node.text?

/-- The checks of one round of the loop of `extract_endpoint`: the endpoint of this element,
    unless its profile, process or address make the round `continue`. -/
def readEndpoint (version : SmpVersion) (processId transportProfile : Str) (endpoint : Node) :
    Option SmpEndpoint := do
  let profile ← endpointTransportProfile endpoint version
  guard (Str.eqIgnoreAsciiCase (Str.trim profile) transportProfile)
  let declaredProcess ← ancestorProcessId endpoint version
  guard (Str.eqIgnoreAsciiCase (Str.trim declaredProcess) processId)
  let url ← endpointAddress endpoint version
  some
    { signedDocument := []
      verifiedSignerFingerprintSha256 := none
      signerPath := []
      url := Str.trim url
      certificateDerB64 := (endpointCertificate endpoint version).map Str.withoutWhitespace
      transportProfile := Str.trim profile
      serviceDescription :=
        (childText endpoint version "ServiceDescription" "Description").map Str.trim
      serviceActivationDate :=
        (childText endpoint version "ServiceActivationDate" "ActivationDate").map Str.trim
      serviceExpirationDate :=
        (childText endpoint version "ServiceExpirationDate" "ExpirationDate").map Str.trim }

/-- The loop of `extract_endpoint`: a second match is refused. -/
def extractEndpointFrom (version : SmpVersion) (processId transportProfile : Str) :
    Option SmpEndpoint → List Node → Result (Option SmpEndpoint)
  | found, [] => .ok found
  | found, endpoint :: rest =>
    match readEndpoint version processId transportProfile endpoint with
    | none => extractEndpointFrom version processId transportProfile found rest
    | some e =>
      if found.isSome then .error (smpParseError .parseFailed
        ("SMP response offers more than one endpoint for process '" ++ processId ++
          "' with transport profile '" ++ transportProfile ++
          "'; refusing to resolve the ambiguity by document order"))
      else extractEndpointFrom version processId transportProfile (some e) rest

/-- `extract_endpoint`. -/
def extractEndpoint (doc : Document) (version : SmpVersion) (processId transportProfile : Str) :
    Result (Option SmpEndpoint) :=
  extractEndpointFrom version processId transportProfile none
    (doc.descendants.filter (isEndpoint · version))

/-! ## The signature policy -/

/-- `has_enveloped_signature`. -/
def hasEnvelopedSignature (doc : Document) : Bool := doc.descendants.any (isDsElement · "Signature")

/-- `enforce_smp_signature_policy`. -/
def enforceSmpSignaturePolicy (pki : Pki) (doc : Document) :
    SmpSignaturePolicy → Result (Option Str × List Bytes)
  | .deny => .error ⟨.policyViolation,
      "SMP lookup results are not authorized for use: SmpConfig::signature_policy is " ++
        "SmpSignaturePolicy::Deny (the default). Set " ++
        "SmpSignaturePolicy::verify_with_trust_anchors(smp_ca_pems) to verify the " ++
        "response against the network's SMP CA, or one of the weaker variants for a " ++
        "closed or test network", .new "smp_signature_policy"⟩
  | .verify anchors => do
    let verified ← (verifyEnvelopedDocumentSignature pki doc [] anchors).mapError fun err =>
      ⟨.securityVerificationFailed, "SMP ServiceMetadata signature verification failed: " ++
        err.message ++ ". The endpoint URL and recipient certificate in this response cannot " ++
        "be trusted", .new "smp_verify_signature"⟩
    pure (some verified.signerFingerprintSha256, verified.signerPath)
  | .requireSignaturePresent => do
    Except.rejectIf (hasEnvelopedSignature doc = false) ⟨.securityVerificationFailed,
      "SMP ServiceMetadata response carries no ds:Signature; PEPPOL and CEF " ++
        "eDelivery require the SMP to sign its metadata. Set " ++
        "SmpConfig::signature_policy = AllowUnsigned only for a closed or test network",
      .new "smp_parse_signature"⟩
    pure (none, [])
  | .allowUnsigned => .ok (none, [])

/-- What `parse_service_metadata` does with the parsed response. -/
def readServiceMetadata (pki : Pki) (doc : Document) (processId transportProfile : Str)
    (policy : SmpSignaturePolicy) : Result SmpEndpoint := do
  let signer ← enforceSmpSignaturePolicy pki doc policy
  let version ← SmpVersion.detect doc
  let found ← extractEndpoint doc version processId transportProfile
  let endpoint ← Except.okOr found (smpParseError .notFound
    ("no matching AS4 endpoint found in SMP for process '" ++ processId ++
      "' with transport profile '" ++ transportProfile ++ "'"))
  pure { endpoint with verifiedSignerFingerprintSha256 := signer.1, signerPath := signer.2 }

/-- `parse_service_metadata`, up to the parsed document. -/
def parseSmpResponse (roxmltree : Roxmltree) (xml : Bytes) : Result Document := do
  let text ← Except.okOr (Str.fromUtf8 xml)
    (smpParseError .parseFailed "SMP ServiceMetadata response is not valid UTF-8")
  (parseXml roxmltree text .smp "smp_parse").mapError fun e =>
    smpParseError .parseFailed ("SMP ServiceMetadata XML parse failed: " ++ e.message)

/-- `parse_service_metadata`. -/
def parseServiceMetadata (roxmltree : Roxmltree) (pki : Pki) (xml : Bytes)
    (processId transportProfile : Str) (policy : SmpSignaturePolicy) : Result SmpEndpoint := do
  let doc ← parseSmpResponse roxmltree xml
  let endpoint ← readServiceMetadata pki doc processId transportProfile policy
  pure { endpoint with signedDocument := xml }

/-! ## The lookup -/

/-- What an HTTP client answers. `statusText` is the status as it is printed. -/
structure HttpResponse where
  status : Nat
  statusText : Str
  body : Bytes
deriving DecidableEq, Repr

/-- What the lookup takes from outside: the XML parser, the certificate and signature
    operations, the resolver, and the HTTP client with the URLs it can build a request for.
    Errors of the HTTP client are their texts. -/
structure SmpNetwork where
  roxmltree : Roxmltree
  pki : Pki
  text : BdxlText
  lookupNaptr : Option (Str → Result (List NaptrRecord))
  isRequestUrl : Str → Except Str Unit
  send : Str → Except Str HttpResponse

/-- `MAX_SMP_RESPONSE_BYTES`. -/
def maxSmpResponseBytes : Nat := 1024 * 1024

/-- Whether a byte stands for itself in a URL path segment. -/
def isUnreserved (b : UInt8) : Bool :=
  let c := Char.ofNat b.toNat
  Str.isAsciiAlphanumeric c || c == '-' || c == '.' || c == '_' || c == '~'

/-- The upper-case hexadecimal digit of a number below 16. -/
def hexDigitUpper (n : Nat) : Char := Char.ofNat (if n < 10 then n + 48 else n + 55)

/-- `percent_encode`. -/
def percentEncode (s : Str) : Str :=
  (Str.utf8 s).flatMap fun b =>
    if isUnreserved b then [Char.ofNat b.toNat]
    else ['%', hexDigitUpper (b.toNat / 16), hexDigitUpper (b.toNat % 16)]

/-- `build_lookup_url_at`. -/
def buildLookupUrlAt (config : SmpConfig) (smpBaseUrl : Str) (req : SmpLookupRequest) : Str :=
  Str.trimEndChar '/' smpBaseUrl ++ "/" ++
    percentEncode (config.participantScheme ++ "::" ++ req.participantId) ++ "/services/" ++
    percentEncode req.documentTypeId

/-- `resolve_smp_base_url`. -/
def resolveSmpBaseUrl (net : SmpNetwork) (config : SmpConfig) (participantId : Str) : Result Str :=
  match config.discovery with
  | .static smpBaseUrl => .ok (Str.trimEndChar '/' smpBaseUrl)
  | .legacyCname => .ok ("https://" ++
      legacyCnameHost net.text config.participantScheme participantId config.smlZone)
  | .naptr => do
    let lookupNaptr ← Except.okOr net.lookupNaptr ⟨.invalidInput,
      "SmlDiscovery::Naptr needs a DNS resolver: call " ++
        "SmpClient::with_resolver(..) — with HickoryBdxlResolver under the " ++
        "`dns` feature, or your own BdxlResolver. Use " ++
        "SmpConfig::with_static_smp(..) if the SMP URL is known in advance",
      .new "smp_discovery"⟩
    let name := bdxlDnsName net.text config.participantScheme participantId config.smlZone
    let records ← lookupNaptr name
    Except.rejectIf (records = []) ⟨.notFound, "participant '" ++ participantId ++
      "' is not registered in SML zone '" ++ config.smlZone ++ "': no NAPTR records at '" ++
      name ++ "'", .new "smp_discovery"⟩
    selectSmpBaseUrl net.text records

/-- The response body that `lookup_endpoint_with` goes on with. -/
def fetchServiceMetadata (net : SmpNetwork) (config : SmpConfig) (req : SmpLookupRequest) :
    Result Bytes := do
  let smpBase ← resolveSmpBaseUrl net config req.participantId
  let url := buildLookupUrlAt config smpBase req
  (net.isRequestUrl url).mapError fun e => ⟨.invalidInput,
    "SMP lookup URL '" ++ url ++ "' is not a valid request: " ++ e, .new "smp_lookup"⟩
  let response ← (net.send url).mapError fun e => ⟨.transportFailure,
    "SMP HTTP request failed for '" ++ url ++ "': " ++ e, .new "smp_lookup"⟩
  Except.rejectIf (¬ (200 ≤ response.status ∧ response.status < 300)) ⟨.notFound,
    "SMP returned HTTP " ++ response.statusText ++ " for participant '" ++ req.participantId ++
      "' / doc-type '" ++ req.documentTypeId ++ "'", .new "smp_lookup"⟩
  Except.rejectIf (response.body.length > maxSmpResponseBytes) ⟨.payloadTooLarge,
    "SMP response of " ++ showNat response.body.length ++ " bytes exceeds the limit",
    .new "smp_lookup_body"⟩
  pure response.body

/-- `lookup_endpoint_with`. -/
def lookupEndpointWith (net : SmpNetwork) (config : SmpConfig) (req : SmpLookupRequest) :
    Result SmpEndpoint := do
  let body ← fetchServiceMetadata net config req
  let transportProfile := req.transportProfile.getD config.transportProfile
  parseServiceMetadata net.roxmltree net.pki body req.processId transportProfile
    config.signaturePolicy

end Asx
