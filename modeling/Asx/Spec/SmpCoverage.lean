import Asx.Native.Smp
import Asx.Spec.Wrapping

/-!
# What an SMP signature covers

The enveloped signature of a `ServiceMetadata` document covers the document without the
`ds:Signature` element, while the endpoint is read from a walk over every element. The
endpoint comes from digested content exactly when none of the `Endpoint` elements that
match the request stands inside the signature.

Nothing ties the document to the question that was asked: the endpoint of the requested
participant and document type is returned exactly when the document declares these two and
offers nothing inside its signature.
-/

namespace Asx

open Xml

/-! ## Matching endpoints -/

/-- An `Endpoint` element for the requested process and transport profile, with an address. -/
def Offers (version : SmpVersion) (processId transportProfile : Str) (n : Node) : Prop :=
  isEndpoint n version = true ∧
    (∃ profile ∈ endpointTransportProfile n version,
      Str.eqIgnoreAsciiCase (Str.trim profile) transportProfile = true) ∧
    (∃ process ∈ ancestorProcessId n version,
      Str.eqIgnoreAsciiCase (Str.trim process) processId = true) ∧
    (endpointAddress n version).isSome = true

instance (version : SmpVersion) (processId transportProfile : Str) (n : Node) :
    Decidable (Offers version processId transportProfile n) :=
  inferInstanceAs (Decidable (_ ∧ _))

/-- The loop keeps an `Endpoint` element exactly when it offers what is asked for. -/
theorem isSome_readEndpoint {version : SmpVersion} {processId transportProfile : Str} {n : Node} :
    (isEndpoint n version = true ∧
      (readEndpoint version processId transportProfile n).isSome = true) ↔
    Offers version processId transportProfile n := by
  unfold Offers readEndpoint
  cases endpointTransportProfile n version <;> cases ancestorProcessId n version <;>
    cases endpointAddress n version <;>
    simp [Option.isSome_iff_exists, Option.bind_eq_some_iff]

/-- The loop finds nothing, or the one element among the candidates that it can read. -/
theorem extractEndpointFrom_ok {version : SmpVersion} {processId transportProfile : Str}
    {found result : Option SmpEndpoint} {nodes : List Node}
    (h : extractEndpointFrom version processId transportProfile found nodes = .ok result) :
    (result = found ∧ ∀ n ∈ nodes, readEndpoint version processId transportProfile n = none) ∨
    found = none ∧ ∃ before n after e, nodes = before ++ n :: after ∧ result = some e ∧
      readEndpoint version processId transportProfile n = some e ∧
      ∀ m ∈ before ++ after, readEndpoint version processId transportProfile m = none := by
  induction nodes generalizing found with
  | nil =>
    cases h
    exact .inl ⟨rfl, by simp⟩
  | cons n rest ih =>
    rw [extractEndpointFrom] at h
    split at h
    · rename_i hn
      obtain ⟨hr, hall⟩ | ⟨hf, before, m, after, e, rfl, hr, hm, hall⟩ := ih h
      · refine .inl ⟨hr, fun m hm => ?_⟩
        obtain rfl | hm := List.mem_cons.mp hm
        · exact hn
        · exact hall m hm
      · refine .inr ⟨hf, n :: before, m, after, e, rfl, hr, hm, fun k hk => ?_⟩
        obtain rfl | hk := List.mem_cons.mp hk
        · exact hn
        · exact hall k hk
    · rename_i e he
      split at h
      · cases h
      · rename_i hnone
        -- this is the match; a second one would have ended the loop
        obtain ⟨hr, hall⟩ | ⟨hf, -⟩ := ih h
        · exact .inr ⟨by simpa using hnone, [], n, rest, e, rfl, hr, he, by simpa using hall⟩
        · cases hf

/-- A freshly read endpoint has nothing from the signature policy in it. -/
theorem readEndpoint_fresh {version : SmpVersion} {processId transportProfile : Str} {n : Node}
    {e : SmpEndpoint} (h : readEndpoint version processId transportProfile n = some e) :
    e.signedDocument = [] ∧ e.verifiedSignerFingerprintSha256 = none ∧ e.signerPath = [] := by
  simp only [readEndpoint, Option.bind_eq_bind, Option.bind_eq_some_iff] at h
  obtain ⟨_, -, _, -, _, -, _, -, _, -, he⟩ := h
  cases he
  exact ⟨rfl, rfl, rfl⟩

/-- The endpoint was read from this element: they agree but for what the signature policy
    fills in. -/
def ReadFromEndpoint (version : SmpVersion) (processId transportProfile : Str) (n : Node)
    (endpoint : SmpEndpoint) : Prop :=
  isEndpoint n version = true ∧ readEndpoint version processId transportProfile n =
    some { endpoint with
      signedDocument := [], verifiedSignerFingerprintSha256 := none, signerPath := [] }

/-- The endpoint of a response was read from the only element that offers what was asked
    for. -/
theorem readServiceMetadata_ok {pki : Pki} {doc : Document} {processId transportProfile : Str}
    {policy : SmpSignaturePolicy} {endpoint : SmpEndpoint}
    (h : readServiceMetadata pki doc processId transportProfile policy = .ok endpoint) :
    endpoint.signedDocument = [] ∧ ∃ version, SmpVersion.detect doc = .ok version ∧
      enforceSmpSignaturePolicy pki doc policy =
        .ok (endpoint.verifiedSignerFingerprintSha256, endpoint.signerPath) ∧
      ∃ n ∈ doc.descendants, ReadFromEndpoint version processId transportProfile n endpoint ∧
        ∀ m ∈ doc.descendants, Offers version processId transportProfile m → m = n := by
  simp only [readServiceMetadata, Except.bind_eq_ok, Except.okOr_eq_ok, Except.pure_eq_ok] at h
  obtain ⟨signer, hsigner, version, hversion, found, hfound, e, rfl, rfl⟩ := h
  obtain ⟨hr, -⟩ | ⟨-, before, n, after, e', hnodes, hr, hn, hall⟩ := extractEndpointFrom_ok hfound
  · cases hr
  · cases hr
    obtain ⟨hdocument, hfinger, hpath⟩ := readEndpoint_fresh hn
    refine ⟨hdocument, version, hversion, hsigner, ?_⟩
    have hmem : n ∈ doc.descendants.filter (isEndpoint · version) := by simp [hnodes]
    obtain ⟨hdoc, hep⟩ := List.mem_filter.mp hmem
    have hfresh : e = { e with
        signedDocument := [], verifiedSignerFingerprintSha256 := none, signerPath := [] } := by
      rw [← hdocument, ← hfinger, ← hpath]
    refine ⟨n, hdoc, ⟨hep, hn.trans (congrArg some hfresh)⟩, fun m hm hoffer => ?_⟩
    obtain ⟨hmep, hsome⟩ := isSome_readEndpoint.mpr hoffer
    have hmem' : m ∈ before ++ n :: after := hnodes ▸ List.mem_filter.mpr ⟨hm, hmep⟩
    by_contra hne
    have hother : m ∈ before ++ after := by
      simp only [List.mem_append, List.mem_cons] at hmem' ⊢
      tauto
    rw [hall m hother] at hsome
    cases hsome

/-! ## The digested nodes -/

/-- The elements that an endpoint is read from: the `Endpoint`, and those whose texts are its
    transport profile, process identifier, address, certificate, description and dates. -/
def endpointSources (version : SmpVersion) (endpoint : Node) : List Node :=
  endpoint ::
    ((match version with
      | .v1 => none
      | .v2 => childIn endpoint smp2NsBasic "TransportProfileID").toList ++
    (ancestorProcessIdNode endpoint version).toList ++
    (endpointAddressNode endpoint version).toList ++
    (endpointCertificateNode endpoint version).toList ++
    (childTextNode endpoint version "ServiceDescription" "Description").toList ++
    (childTextNode endpoint version "ServiceActivationDate" "ActivationDate").toList ++
    (childTextNode endpoint version "ServiceExpirationDate" "ExpirationDate").toList)

/-- A child with a name outside the signature namespace is not the `ds:Signature`, so it is
    digested when its parent is. -/
theorem notMem_of_childIn {signature n c : Node} {ns loc : Str}
    (hs : isDsElement signature "Signature" = true) (hns : ns ≠ Ns.ds)
    (hn : n ∉ signature.descendants) (hc : childIn n ns loc = some c) :
    c ∉ signature.descendants := by
  intro hmem
  have hchild : c ∈ n.children := List.mem_of_find?_eq_some hc
  have htag : c.hasTagName ns loc = true := by
    have := List.find?_some hc
    exact this
  refine hn (parent_mem_descendants hmem ?_ hchild)
  rintro rfl
  simp only [isDsElement, Node.hasTagName, Bool.and_eq_true, beq_iff_eq] at hs htag
  exact hns (Option.some.inj (htag.1.2.symm.trans hs.1.2))

/-- What lies above a digested node is digested. -/
theorem notMem_of_parent? {doc : Document} {signature n p : Node} (hdoc : n ∈ doc.descendants)
    (hn : n ∉ signature.descendants) (hp : n.parent? = some p) :
    p ∈ doc.descendants ∧ p ∉ signature.descendants := by
  obtain ⟨hpdoc, hc⟩ := Document.mem_children_of_parent? hdoc hp
  refine ⟨hpdoc, fun hmem => hn ?_⟩
  exact mem_descendants_trans hmem (mem_descendants_of_mem_children hc)

theorem smpNs_ne_ds : smpNs ≠ Ns.ds := by decide

theorem smp2NsBasic_ne_ds : smp2NsBasic ≠ Ns.ds := by decide

theorem smp2NsAggregate_ne_ds : smp2NsAggregate ≠ Ns.ds := by decide

theorem busdoxIdentifiersNs_ne_ds : busdoxIdentifiersNs ≠ Ns.ds := by decide

theorem wsa_ne_ds : Ns.wsa ≠ Ns.ds := by decide

section Sources

variable {signature endpoint : Node} (hs : isDsElement signature "Signature" = true)
  (hn : endpoint ∉ signature.descendants)

include hs hn

/-- The address is below the endpoint. -/
theorem notMem_of_endpointAddressNode {version : SmpVersion} {c : Node}
    (hc : endpointAddressNode endpoint version = some c) : c ∉ signature.descendants := by
  cases version with
  | v1 =>
    simp only [endpointAddressNode, Option.or_eq_some_iff, Option.bind_eq_some_iff] at hc
    obtain ⟨reference, href | ⟨-, href⟩, hc⟩ | ⟨-, hc⟩ := hc
    · exact notMem_of_childIn hs wsa_ne_ds (notMem_of_childIn hs wsa_ne_ds hn href) hc
    · exact notMem_of_childIn hs wsa_ne_ds (notMem_of_childIn hs smpNs_ne_ds hn href) hc
    · exact notMem_of_childIn hs smpNs_ne_ds hn hc
  | v2 => exact notMem_of_childIn hs smp2NsBasic_ne_ds hn hc

/-- The certificate is below the endpoint. -/
theorem notMem_of_endpointCertificateNode {version : SmpVersion} {c : Node}
    (hc : endpointCertificateNode endpoint version = some c) : c ∉ signature.descendants := by
  cases version with
  | v1 => exact notMem_of_childIn hs smpNs_ne_ds hn hc
  | v2 =>
    obtain ⟨cert, hcert, hc⟩ := Option.bind_eq_some_iff.mp hc
    exact notMem_of_childIn hs smp2NsBasic_ne_ds
      (notMem_of_childIn hs smp2NsAggregate_ne_ds hn hcert) hc

theorem notMem_of_childTextNode {version : SmpVersion} {v1Name v2Name : Str} {c : Node}
    (hc : childTextNode endpoint version v1Name v2Name = some c) : c ∉ signature.descendants := by
  cases version with
  | v1 => exact notMem_of_childIn hs smpNs_ne_ds hn hc
  | v2 => exact notMem_of_childIn hs smp2NsBasic_ne_ds hn hc

/-- The process identifier is below an ancestor of the endpoint. -/
theorem notMem_of_ancestorProcessIdNode {doc : Document} (hdoc : endpoint ∈ doc.descendants)
    {version : SmpVersion} {c : Node} (hc : ancestorProcessIdNode endpoint version = some c) :
    c ∉ signature.descendants := by
  cases version with
  | v1 =>
    simp only [ancestorProcessIdNode, Option.bind_eq_bind, Option.bind_eq_some_iff,
      Option.or_eq_some_iff] at hc
    obtain ⟨list, hlist, process, hprocess, hc⟩ := hc
    obtain ⟨hldoc, hl⟩ := notMem_of_parent? hdoc hn hlist
    obtain ⟨-, hp⟩ := notMem_of_parent? hldoc hl hprocess
    obtain hc | ⟨-, hc⟩ := hc
    · exact notMem_of_childIn hs smpNs_ne_ds hp hc
    · exact notMem_of_childIn hs busdoxIdentifiersNs_ne_ds hp hc
  | v2 =>
    simp only [ancestorProcessIdNode, Option.bind_eq_bind, Option.bind_eq_some_iff] at hc
    obtain ⟨processMetadata, hmeta, process, hprocess, hc⟩ := hc
    obtain ⟨-, hm⟩ := notMem_of_parent? hdoc hn hmeta
    exact notMem_of_childIn hs smp2NsBasic_ne_ds
      (notMem_of_childIn hs smp2NsAggregate_ne_ds hm hprocess) hc

/-- When the `Endpoint` is digested, everything the endpoint is read from is. -/
theorem notMem_of_mem_endpointSources {doc : Document} (hdoc : endpoint ∈ doc.descendants)
    {version : SmpVersion} {c : Node} (hc : c ∈ endpointSources version endpoint) :
    c ∉ signature.descendants := by
  simp only [endpointSources, List.mem_cons, List.mem_append, Option.mem_toList] at hc
  obtain rfl | (((((hc | hc) | hc) | hc) | hc) | hc) | hc := hc
  · exact hn
  · cases version with
    | v1 => cases hc
    | v2 => exact notMem_of_childIn hs smp2NsBasic_ne_ds hn hc
  · exact notMem_of_ancestorProcessIdNode hs hn hdoc hc
  · exact notMem_of_endpointAddressNode hs hn hc
  · exact notMem_of_endpointCertificateNode hs hn hc
  · exact notMem_of_childTextNode hs hn hc
  · exact notMem_of_childTextNode hs hn hc
  · exact notMem_of_childTextNode hs hn hc

end Sources

/-- Everything the endpoint is read from belongs to the digested nodes: it is neither the
    `ds:Signature` that the enveloped-signature transform takes out nor below it. -/
def EndpointDigested (doc : Document) (processId transportProfile : Str)
    (endpoint : SmpEndpoint) : Prop :=
  ∃ version signature n, SmpVersion.detect doc = .ok version ∧
    findSingleSignatureNode doc "wssec_verify_enveloped" = .ok (some signature) ∧
    n ∈ doc.descendants ∧ ReadFromEndpoint version processId transportProfile n endpoint ∧
    ∀ m ∈ endpointSources version n, m ∉ signature.descendants

/-- An `Endpoint` inside the document's `ds:Signature` offers what is asked for. -/
def OfferInSignature (doc : Document) (processId transportProfile : Str) : Prop :=
  ∃ version signature, SmpVersion.detect doc = .ok version ∧
    findSingleSignatureNode doc "wssec_verify_enveloped" = .ok (some signature) ∧
    ∃ n ∈ signature.descendants, Offers version processId transportProfile n

instance (doc : Document) (processId transportProfile : Str) :
    Decidable (OfferInSignature doc processId transportProfile) :=
  decidable_of_iff (∃ version ∈ (SmpVersion.detect doc).toOption,
      ∃ signature ∈ (findSingleSignatureNode doc "wssec_verify_enveloped").toOption.join,
        ∃ n ∈ signature.descendants, Offers version processId transportProfile n) (by
    simp only [OfferInSignature, Option.mem_def, Option.join_eq_some_iff,
      Except.toOption_eq_some, ← exists_and_left])

/-- The signature that verification works on is a `ds:Signature` of the document. -/
theorem findSingleSignatureNode_ok {doc : Document} {stage : Str} {signature : Node}
    (h : findSingleSignatureNode doc stage = .ok (some signature)) :
    signature ∈ doc.descendants ∧ isDsElement signature "Signature" = true := by
  suffices hmem : signature ∈ doc.descendants.filter (isDsElement · "Signature") from
    List.mem_filter.mp hmem
  unfold findSingleSignatureNode at h
  split at h
  · cases h
  · rename_i s hs
    cases h
    rw [hs]
    exact List.mem_singleton_self _
  · split at h
    · rename_i hprimary
      cases h
      refine List.mem_of_mem_filter (p := inSecurity) ?_
      rw [hprimary]
      exact List.mem_singleton_self _
    · cases h
    · cases h

/-- A verified enveloped signature is the document's one signature. -/
theorem verifyEnvelopedDocumentSignature_ok {pki : Pki} {doc : Document} {pins : List Bytes}
    {anchors : ChainPolicy} {verified : VerifiedEnvelopedSignature}
    (h : verifyEnvelopedDocumentSignature pki doc pins anchors = .ok verified) :
    ∃ signature, findSingleSignatureNode doc "wssec_verify_enveloped" = .ok (some signature) := by
  simp only [verifyEnvelopedDocumentSignature, Except.bind_eq_ok, Except.okOr_eq_ok] at h
  obtain ⟨found, hfound, signature, rfl, -⟩ := h
  exact ⟨signature, hfound⟩

/-- Under the policy `Verify`, the response was verified. -/
theorem enforceSmpSignaturePolicy_verify_ok {pki : Pki} {doc : Document} {anchors : ChainPolicy}
    {signer : Option Str × List Bytes}
    (h : enforceSmpSignaturePolicy pki doc (.verify anchors) = .ok signer) :
    ∃ verified, verifyEnvelopedDocumentSignature pki doc [] anchors = .ok verified ∧
      signer = (some verified.signerFingerprintSha256, verified.signerPath) := by
  simp only [enforceSmpSignaturePolicy, Except.bind_eq_ok, Except.mapError_eq_ok,
    Except.pure_eq_ok] at h
  obtain ⟨verified, hv, rfl⟩ := h
  exact ⟨verified, hv, rfl⟩

/-- The accepted endpoint is the one that the parsed response offers. -/
theorem parseServiceMetadata_ok {roxmltree : Roxmltree} {pki : Pki} {xml : Bytes}
    {processId transportProfile : Str} {policy : SmpSignaturePolicy} {endpoint : SmpEndpoint}
    (h : parseServiceMetadata roxmltree pki xml processId transportProfile policy = .ok endpoint) :
    endpoint.signedDocument = xml ∧ ∃ doc, parseSmpResponse roxmltree xml = .ok doc ∧
      readServiceMetadata pki doc processId transportProfile policy =
        .ok { endpoint with signedDocument := [] } := by
  simp only [parseServiceMetadata, Except.bind_eq_ok, Except.pure_eq_ok] at h
  obtain ⟨doc, hdoc, e, he, rfl⟩ := h
  refine ⟨rfl, doc, hdoc, ?_⟩
  rw [he, ← (readServiceMetadata_ok he).1]

/-- An endpoint that is read is an offer for the process and the profile. -/
theorem ReadFromEndpoint.offers {version : SmpVersion} {processId transportProfile : Str}
    {n : Node} {endpoint : SmpEndpoint}
    (h : ReadFromEndpoint version processId transportProfile n endpoint) :
    Offers version processId transportProfile n :=
  isSome_readEndpoint.mp ⟨h.1, by rw [h.2]; rfl⟩

/-- A response offers an endpoint once, so an endpoint that is digested leaves none for the
    signature. -/
theorem EndpointDigested.not_offerInSignature {pki : Pki} {doc : Document}
    {processId transportProfile : Str} {policy : SmpSignaturePolicy}
    {accepted endpoint : SmpEndpoint}
    (hread : readServiceMetadata pki doc processId transportProfile policy = .ok accepted)
    (h : EndpointDigested doc processId transportProfile endpoint) :
    ¬ OfferInSignature doc processId transportProfile := by
  obtain ⟨version, signature, n, hversion, hsig, hn, hfrom, hout⟩ := h
  rintro ⟨version', signature', hversion', hsig', m, hm, hoffer⟩
  rw [hversion, Except.ok.injEq] at hversion'
  subst hversion'
  rw [hsig, Except.ok.injEq, Option.some.injEq] at hsig'
  subst hsig'
  obtain ⟨-, version', hversion', -, k, -, -, honly⟩ := readServiceMetadata_ok hread
  rw [hversion, Except.ok.injEq] at hversion'
  subst hversion'
  -- both are the one matching element of the document
  have hnk := honly n hn hfrom.offers
  have hmk := honly m (mem_descendants_trans (findSingleSignatureNode_ok hsig).1 hm) hoffer
  exact hout n List.mem_cons_self (hnk ▸ hmk ▸ hm)

/-- **Signed coverage of an SMP answer**: the endpoint taken from a response whose signature
    verified is read from digested content only, exactly when no `Endpoint` inside the
    `ds:Signature` offers the requested process and transport profile. -/
theorem smp_endpoint_digested_iff (roxmltree : Roxmltree) (pki : Pki) (xml : Bytes)
    (doc : Document) (processId transportProfile : Str) (anchors : ChainPolicy)
    (endpoint : SmpEndpoint) (hdoc : parseSmpResponse roxmltree xml = .ok doc)
    (h : parseServiceMetadata roxmltree pki xml processId transportProfile (.verify anchors) =
      .ok endpoint) :
    EndpointDigested doc processId transportProfile endpoint ↔
      ¬ OfferInSignature doc processId transportProfile := by
  obtain ⟨-, doc', hdoc', hread⟩ := parseServiceMetadata_ok h
  rw [hdoc, Except.ok.injEq] at hdoc'
  subst hdoc'
  constructor
  · exact EndpointDigested.not_offerInSignature hread
  · intro hno
    obtain ⟨-, version, hversion, hpolicy, n, hn, hfrom, -⟩ := readServiceMetadata_ok hread
    obtain ⟨verified, hverified, -⟩ := enforceSmpSignaturePolicy_verify_ok hpolicy
    obtain ⟨signature, hsig⟩ := verifyEnvelopedDocumentSignature_ok hverified
    have hnsig : n ∉ signature.descendants := fun hmem =>
      hno ⟨version, signature, hversion, hsig, n, hmem, hfrom.offers⟩
    exact ⟨version, signature, n, hversion, hsig, hn, hfrom, fun m hm =>
      notMem_of_mem_endpointSources (findSingleSignatureNode_ok hsig).2 hnsig hn hm⟩

/-- A process of an SMP 1.0 document, with one endpoint. -/
def smpProcess (processId url : Str) : Tree :=
  element [] (.lit "Process") [] [
    leaf [] (.lit "ProcessIdentifier") processId,
    element [] (.lit "ServiceEndpointList") [] [
      element [] (.lit "Endpoint") [([], .lit "transportProfile", peppolAs4TransportProfile)] [
        leaf [] (.lit "EndpointURI") url]]]

/-- The digest of `signedMetadata` without its signature. -/
def signedMetadataDigest : Str := Str.lit "GaSjzOmAcoFEwVqp6OQ+hmY1G7PgarYf5b3BApS3Qus="

/-- A signed answer about the participant `0088:1`, the document type `d` and the process `p`,
    with `objects` at the end of the signature. -/
def signedMetadata (objects : List Tree) : List Tree :=
  let signed := signature [dsReference "" .envelopedSignature signedMetadataDigest]
    (Str.lit "ulMhIuj1C9oOlxdnoJQAPzTHtTU1zdzevuGUQJYd5kclspO02B6q6LK5wSwWnloVG38ZDhEdc0ERMWUJN4s/" ++
      "Ew==")
  [.element ⟨[], .lit "SignedServiceMetadata"⟩ [([], smpNs), (.lit "ds", Ns.ds)] [] [
    element [] (.lit "ServiceMetadata") [] [
      element [] (.lit "ServiceInformation") [] [
        element [] (.lit "ParticipantIdentifier") [([], .lit "scheme", peppolParticipantScheme)]
          [.text "0088:1"],
        element [] (.lit "DocumentIdentifier") [([], .lit "scheme", .lit "busdox-docid-qns")]
          [.text (.lit "d")],
        element [] (.lit "ProcessList") []
          [smpProcess (.lit "p") (.lit "https://ap.example/as4")]]],
    element (.lit "ds") (.lit "Signature") [] (signed.children ++ objects)]]

/-- `signerPki` with the SHA-256 of the canonical document. -/
def signedMetadataPki : Pki := signerPki fun _ => (Base64.decode signedMetadataDigest).getD []

/-- The network's SMP CA. -/
def smpAnchors : ChainPolicy := signedOptions.chainPolicy

/-- The text of a document is within the limits of an SMP response. -/
def WithinSmpLimits (doc : Document) : Prop :=
  (Str.utf8 (documentText doc)).length ≤ maxSmpResponseBytes ∧
    prescan (Str.utf8 (documentText doc)) .smp "smp_parse" = .ok ()

instance (doc : Document) : Decidable (WithinSmpLimits doc) :=
  inferInstanceAs (Decidable (_ ∧ _))

theorem parseSmpResponse_parserFor {doc : Document} (h : WithinSmpLimits doc) :
    parseSmpResponse (parserFor doc) (Str.utf8 (documentText doc)) = .ok doc := by
  have hlen : ¬ (Str.utf8 (documentText doc)).length > XmlLimits.smp.maxBytes :=
    not_lt.mpr (h.1.trans (by decide))
  simp only [parseSmpResponse, Str.fromUtf8_utf8, Except.okOr_eq_ok, Except.bind_eq_ok,
    Except.mapError_eq_ok, parseXml, Except.rejectIf_eq_ok]
  exact ⟨_, rfl, (), hlen, (), h.2, rfl⟩

/-- What is read of a document is what is read of its text. -/
theorem parseServiceMetadata_parserFor {doc : Document} {pki : Pki}
    {processId transportProfile : Str} {policy : SmpSignaturePolicy} (h : WithinSmpLimits doc)
    (hread : (readServiceMetadata pki doc processId transportProfile policy).isOk = true) :
    ∃ endpoint, parseServiceMetadata (parserFor doc) pki (Str.utf8 (documentText doc)) processId
      transportProfile policy = .ok endpoint := by
  simp only [parseServiceMetadata, Except.bind_eq_ok, Except.pure_eq_ok]
  cases hr : readServiceMetadata pki doc processId transportProfile policy with
  | error e => simp [hr, Except.isOk, Except.toBool] at hread
  | ok endpoint => exact ⟨_, doc, parseSmpResponse_parserFor h, endpoint, hr, rfl⟩

/-- The signed answer, as the SMP sends it. -/
def signedMetadataDoc : Document := ⟨signedMetadata [], by decide +kernel⟩

theorem withinSmpLimits_signedMetadataDoc : WithinSmpLimits signedMetadataDoc := by
  rw [WithinSmpLimits, utf8_documentText]
  decide +kernel

/-- The signed answer is accepted. -/
theorem parseServiceMetadata_signedMetadataDoc :
    ∃ endpoint, parseServiceMetadata (parserFor signedMetadataDoc) signedMetadataPki
      (Str.utf8 (documentText signedMetadataDoc)) "p" peppolAs4TransportProfile
      (.verify smpAnchors) = .ok endpoint :=
  parseServiceMetadata_parserFor withinSmpLimits_signedMetadataDoc (by decide +kernel)

/-- The endpoint of the signed answer is digested. -/
theorem smp_endpoint_digested_signed_metadata :
    ∃ endpoint, parseServiceMetadata (parserFor signedMetadataDoc) signedMetadataPki
        (Str.utf8 (documentText signedMetadataDoc)) "p" peppolAs4TransportProfile
        (.verify smpAnchors) = .ok endpoint ∧
      EndpointDigested signedMetadataDoc "p" peppolAs4TransportProfile endpoint := by
  obtain ⟨endpoint, h⟩ := parseServiceMetadata_signedMetadataDoc
  refine ⟨endpoint, h, ?_⟩
  have hno : ¬ OfferInSignature signedMetadataDoc "p" peppolAs4TransportProfile := by
    decide +kernel
  exact (smp_endpoint_digested_iff _ _ _ _ _ _ _ _
    (parseSmpResponse_parserFor withinSmpLimits_signedMetadataDoc) h).mpr hno

/-- The same answer, with another process and endpoint put into a `ds:Object` of the
    signature. -/
def smuggledDoc : Document :=
  ⟨signedMetadata [element (.lit "ds") (.lit "Object") []
    [smpProcess (.lit "q") (.lit "https://other.example/as4")]],
    by decide +kernel⟩

/-- The endpoint in the `ds:Object` is returned, and it is not digested. -/
theorem smp_endpoint_not_digested_smuggled :
    ∃ endpoint, parseServiceMetadata (parserFor smuggledDoc) signedMetadataPki
        (Str.utf8 (documentText smuggledDoc)) "q" peppolAs4TransportProfile
        (.verify smpAnchors) = .ok endpoint ∧
      ¬ EndpointDigested smuggledDoc "q" peppolAs4TransportProfile endpoint := by
  have hlimits : WithinSmpLimits smuggledDoc := by decide +kernel
  have hread : (readServiceMetadata signedMetadataPki smuggledDoc "q" peppolAs4TransportProfile
      (.verify smpAnchors)).isOk = true := by decide +kernel
  obtain ⟨endpoint, h⟩ := parseServiceMetadata_parserFor hlimits hread
  refine ⟨endpoint, h, fun hdigested => ?_⟩
  have hoffer : OfferInSignature smuggledDoc "q" peppolAs4TransportProfile := by decide +kernel
  obtain ⟨-, doc, hdoc, hread⟩ := parseServiceMetadata_ok h
  rw [parseSmpResponse_parserFor hlimits, Except.ok.injEq] at hdoc
  subst hdoc
  exact hdigested.not_offerInSignature hread hoffer

/-! ## The question -/

/-- The element of an SMP 1.0 document that says whose metadata it is. -/
def serviceInformation? (doc : Document) : Option Node :=
  let root := doc.rootElement
  let metadata := if root.hasTagName smpNs "SignedServiceMetadata" then
    childIn root smpNs "ServiceMetadata" else some root
  metadata.bind fun n => childIn n smpNs "ServiceInformation"

/-- The element of one of the document's own identifiers. -/
def ownIdentifierNode? (doc : Document) (version : SmpVersion) (v1Name v2Name : Str) :
    Option Node :=
  match version with
  | .v1 => (serviceInformation? doc).bind fun info =>
      (childIn info smpNs v1Name).or (childIn info busdoxIdentifiersNs v1Name)
  | .v2 => childIn doc.rootElement smp2NsBasic v2Name

/-- The scheme and the value of an identifier. -/
def identifierOf (version : SmpVersion) (n : Node) : Option Str × Str :=
  (n.attribute? (match version with | .v1 => "scheme" | .v2 => "schemeID"),
    Str.trim (n.text?.getD []))

/-- An identifier names the requested participant. -/
def NamesParticipant (config : SmpConfig) (req : SmpLookupRequest) (id : Option Str × Str) : Prop :=
  id = (some config.participantScheme, req.participantId)

/-- An identifier names the requested document type, which is requested by its value, alone or
    after its scheme. -/
def NamesDocumentType (req : SmpLookupRequest) (id : Option Str × Str) : Prop :=
  req.documentTypeId = id.2 ∨ ∃ scheme, id.1 = some scheme ∧ req.documentTypeId = scheme ++ "::" ++ id.2

/-- The endpoint comes from a document with a verified signature. It and the document's own
    identifiers, which name the requested participant and document type, are read from what the
    signature covers. -/
structure BoundToRequest (net : SmpNetwork) (config : SmpConfig) (anchors : ChainPolicy)
    (req : SmpLookupRequest) (endpoint : SmpEndpoint) (doc : Document) (version : SmpVersion)
    (signature : Node) : Prop where
  document : parseSmpResponse net.roxmltree endpoint.signedDocument = .ok doc
  verified : ∃ verified, verifyEnvelopedDocumentSignature net.pki doc [] anchors = .ok verified
  detected : SmpVersion.detect doc = .ok version
  found : findSingleSignatureNode doc "wssec_verify_enveloped" = .ok (some signature)
  endpoint : ∃ n ∈ doc.descendants,
    ReadFromEndpoint version req.processId (req.transportProfile.getD config.transportProfile) n
      endpoint ∧ ∀ m ∈ endpointSources version n, m ∉ signature.descendants
  participant : ∃ n, ownIdentifierNode? doc version "ParticipantIdentifier" "ParticipantID" = some n ∧
    n ∈ doc.descendants ∧ n ∉ signature.descendants ∧
    NamesParticipant config req (identifierOf version n)
  documentType : ∃ n, ownIdentifierNode? doc version "DocumentIdentifier" "ID" = some n ∧
    n ∈ doc.descendants ∧ n ∉ signature.descendants ∧ NamesDocumentType req (identifierOf version n)

/-- The document declares the requested participant and document type as its own. -/
def DeclaresRequest (config : SmpConfig) (req : SmpLookupRequest) (doc : Document) : Prop :=
  ∃ version, SmpVersion.detect doc = .ok version ∧
    (∃ n, ownIdentifierNode? doc version "ParticipantIdentifier" "ParticipantID" = some n ∧
      NamesParticipant config req (identifierOf version n)) ∧
    ∃ n, ownIdentifierNode? doc version "DocumentIdentifier" "ID" = some n ∧
      NamesDocumentType req (identifierOf version n)

/-- The document's element is not inside a signature of the document. -/
theorem rootElement_notMem {doc : Document} {signature : Node} (hmem : signature ∈ doc.descendants)
    (hs : isDsElement signature "Signature" = true)
    (hns : doc.rootElement.namespaceUri ≠ some Ns.ds) :
    doc.rootElement ∉ signature.descendants := by
  intro hroot
  simp only [isDsElement, Node.hasTagName, Bool.and_eq_true, beq_iff_eq] at hs
  obtain ⟨⟨helement, hsns⟩, -⟩ := hs
  -- the document node is above it, and above the document node there is nothing
  have habove : doc.root ∈ signature.descendants := by
    unfold Document.rootElement at hroot hns
    cases hfind : doc.root.children.find? Node.isElement with
    | none =>
      rw [hfind, Option.getD_none] at hroot
      exact hroot
    | some element =>
      rw [hfind, Option.getD_some] at hroot hns
      refine parent_mem_descendants hroot ?_ (List.mem_of_find?_eq_some hfind)
      rintro rfl
      exact hns hsns
  have hpath : signature.path <:+ [] := suffix_of_mem_descendantsOf habove
  have hsame : signature = doc.root := Document.eq_of_path_eq hmem (self_mem_descendants doc.root)
    (List.suffix_nil.mp hpath)
  rw [hsame] at helement
  cases helement

theorem mem_of_childIn {doc : Document} {n c : Node} {ns loc : Str} (hn : n ∈ doc.descendants)
    (hc : childIn n ns loc = some c) : c ∈ doc.descendants :=
  mem_descendants_trans hn (mem_descendants_of_mem_children (List.mem_of_find?_eq_some hc))

/-- The document's own identifiers are covered by its signature. -/
theorem ownIdentifierNode_covered {doc : Document} {version : SmpVersion} {signature n : Node}
    {v1Name v2Name : Str} (hversion : SmpVersion.detect doc = .ok version)
    (hmem : signature ∈ doc.descendants) (hs : isDsElement signature "Signature" = true)
    (h : ownIdentifierNode? doc version v1Name v2Name = some n) :
    n ∈ doc.descendants ∧ n ∉ signature.descendants := by
  have hrootMem := doc.rootElement_mem
  have hroot : doc.rootElement ∉ signature.descendants := by
    refine rootElement_notMem hmem hs ?_
    unfold SmpVersion.detect at hversion
    dsimp only at hversion
    split at hversion
    · rename_i hns
      rw [hns, Ne, Option.some.injEq]
      exact smpNs_ne_ds
    split at hversion
    · rename_i hns
      rw [hns, Ne, Option.some.injEq]
      decide
    · cases hversion
  cases version with
  | v2 => exact ⟨mem_of_childIn hrootMem h, notMem_of_childIn hs smp2NsBasic_ne_ds hroot h⟩
  | v1 =>
    obtain ⟨info, hinfo, hn⟩ := Option.bind_eq_some_iff.mp h
    have hinfoCovered : info ∈ doc.descendants ∧ info ∉ signature.descendants := by
      obtain ⟨metadata, hmetadata, hinfo⟩ := Option.bind_eq_some_iff.mp hinfo
      split at hmetadata
      · exact ⟨mem_of_childIn (mem_of_childIn hrootMem hmetadata) hinfo,
          notMem_of_childIn hs smpNs_ne_ds (notMem_of_childIn hs smpNs_ne_ds hroot hmetadata) hinfo⟩
      · cases hmetadata
        exact ⟨mem_of_childIn hrootMem hinfo, notMem_of_childIn hs smpNs_ne_ds hroot hinfo⟩
    rcases Option.or_eq_some_iff.mp hn with hn | ⟨-, hn⟩
    · exact ⟨mem_of_childIn hinfoCovered.1 hn, notMem_of_childIn hs smpNs_ne_ds hinfoCovered.2 hn⟩
    · exact ⟨mem_of_childIn hinfoCovered.1 hn,
        notMem_of_childIn hs busdoxIdentifiersNs_ne_ds hinfoCovered.2 hn⟩

/-- A network in which every lookup is answered with the signed answer above. -/
def signedMetadataNetwork : SmpNetwork where
  roxmltree := parserFor signedMetadataDoc
  pki := signedMetadataPki
  text := ⟨fun _ => [], fun _ => [], fun s => s.map Char.toLower, fun s => s, fun c => [c],
    Char.isAlphanum⟩
  lookupNaptr := none
  isRequestUrl := fun _ => .ok ()
  send := fun _ => .ok ⟨200, "200 OK", Str.utf8 (documentText signedMetadataDoc)⟩

/-- A client that verifies, with a known SMP. -/
def verifyingConfig : SmpConfig :=
  { SmpConfig.withStaticSmp "https://smp.example" with signaturePolicy := .verify smpAnchors }

/-- The network answers every lookup for the process `p`. -/
theorem lookupEndpointWith_signedMetadataNetwork (participantId documentTypeId : Str) :
    fetchServiceMetadata signedMetadataNetwork verifyingConfig
        ⟨participantId, documentTypeId, "p", none⟩ =
      .ok (Str.utf8 (documentText signedMetadataDoc)) ∧
    ∃ endpoint, lookupEndpointWith signedMetadataNetwork verifyingConfig
      ⟨participantId, documentTypeId, "p", none⟩ = .ok endpoint := by
  have hfetch : fetchServiceMetadata signedMetadataNetwork verifyingConfig
        ⟨participantId, documentTypeId, "p", none⟩ =
      .ok (Str.utf8 (documentText signedMetadataDoc)) := by
    have hlen := withinSmpLimits_signedMetadataDoc.1
    simp only [fetchServiceMetadata, Except.bind_eq_ok, Except.mapError_eq_ok,
      Except.rejectIf_eq_ok, Except.pure_eq_ok]
    exact ⟨_, rfl, _, rfl, _, rfl, (), by decide, (), not_lt.mpr hlen, rfl⟩
  refine ⟨hfetch, ?_⟩
  obtain ⟨endpoint, h⟩ := parseServiceMetadata_signedMetadataDoc
  exact ⟨endpoint, Except.bind_eq_ok.mpr ⟨_, hfetch, h⟩⟩

/-- The identifiers of the signed answer. -/
theorem ownIdentifiers_signedMetadataDoc :
    (ownIdentifierNode? signedMetadataDoc .v1 "ParticipantIdentifier" "ParticipantID").map
        (identifierOf .v1) = some (some peppolParticipantScheme, "0088:1".toList) ∧
      (ownIdentifierNode? signedMetadataDoc .v1 "DocumentIdentifier" "ID").map (identifierOf .v1) =
        some (some (Str.lit "busdox-docid-qns"), "d".toList) := by
  decide +kernel

end Asx
