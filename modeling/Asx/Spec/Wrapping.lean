import Asx.Native.Verifier
import Asx.Native.XmlParse
import Asx.Spec.C14nOnto
import Asx.Spec.HeaderFields
import Asx.Spec.Verification

/-!
# Signature wrapping

Whether the `eb:Messaging` that the receiver acts on is the node the signature covers. The
id index, the coverage check and the parser each find their node in their own way:

- the index knows an element by `wsu:Id`, an unqualified `Id` and `xml:id`;
- the coverage check reads `wsu:Id`, else an attribute `Id` in any namespace;
- the parser takes the `eb:Messaging` among the children of the SOAP header.

They agree when the header carries the signed id in an attribute that the index knows. What is
read of the header is then digested, as long as no comment cuts a text short: the digest is of the
text on both sides of a comment, the parser takes what stands before it.

## Key results
- `parseAs4UserMessageFromDoc_ok`: which node the parser reads
- `messaging_bound_iff`: when the header that is acted on is the digested node and its fields come
  from the digested octets
-/

namespace Asx

open Xml SameDocumentReferenceIndex

/-! ## The parser's node -/

/-- The message was read from the first `eb:UserMessage` of this header block. -/
def ReadFrom (session : SessionContext) (doc : Document) (messaging : Node)
    (message : ParsedAs4UserMessage) : Prop :=
  ∃ state userMessage, readEnvelope doc session = .ok (state, some messaging) ∧
    firstUserMessage? messaging = some userMessage ∧
    (readUserMessage session state userMessage >>= checkUserMessageState session) = .ok message

/-- What the loop over the header blocks keeps: no user message has been read yet, and the
    `messaging_node` is an `eb:Messaging` among the blocks. -/
private def HeaderInv (blocks : List Node) (acc : As4UserMessageParseState × Option Node) : Prop :=
  acc.1.hasUserMessage = false ∧
    ∀ m ∈ acc.2, m ∈ blocks ∧ m.hasTagName Ns.ebms3 "Messaging" = true

private theorem hasUserMessage_readWsaBlock (state : As4UserMessageParseState) (child : Node) :
    (readWsaBlock state child).hasUserMessage = state.hasUserMessage := by
  unfold readWsaBlock
  dsimp only
  split
  · rfl
  · split
    · rfl
    · split
      · rfl
      · split <;> rfl

private theorem readHeaderBlock_inv {session : SessionContext} {soapNs : Str} {blocks : List Node}
    {acc acc' : As4UserMessageParseState × Option Node} {child : Node} (hc : child ∈ blocks)
    (hacc : HeaderInv blocks acc) (h : readHeaderBlock session soapNs acc child = .ok acc') :
    HeaderInv blocks acc' := by
  unfold readHeaderBlock at h
  dsimp only at h
  split at h
  · rename_i hm
    simp only [Except.bind_eq_ok, Except.pure_eq_ok] at h
    obtain ⟨-, -, -, -, -, -, rfl⟩ := h
    refine ⟨hacc.1, fun m hmem => ?_⟩
    rw [Option.mem_def, Option.or_eq_some_iff] at hmem
    obtain hmem | ⟨-, hmem⟩ := hmem
    · exact hacc.2 m hmem
    · cases hmem
      exact ⟨hc, hm⟩
  · split at h
    · simp only [Except.bind_eq_ok, Except.pure_eq_ok] at h
      obtain ⟨-, -, -, -, rfl⟩ := h
      exact hacc
    · split at h
      · rw [Except.pure_eq_ok] at h
        subst h
        exact ⟨by rw [hasUserMessage_readWsaBlock]; exact hacc.1, hacc.2⟩
      · simp only [Except.bind_eq_ok, Except.pure_eq_ok] at h
        obtain ⟨-, -, -, -, rfl⟩ := h
        exact hacc

/-- The node the parser reads is an `eb:Messaging` of the document, and no user message is
    read before it. -/
theorem readEnvelope_ok {doc : Document} {session : SessionContext}
    {acc : As4UserMessageParseState × Option Node} (h : readEnvelope doc session = .ok acc) :
    acc.1.hasUserMessage = false ∧ ∀ m ∈ acc.2, m ∈ messagingNodes doc := by
  simp only [readEnvelope, Except.bind_eq_ok, Except.okOr_eq_ok] at h
  obtain ⟨-, -, rootNs, -, -, -, header, hheader, -, -, h⟩ := h
  have hinv := Except.foldlM_invariant
    (P := HeaderInv (header.children.filter Node.isElement)) h
    ⟨rfl, fun m hm => by cases hm⟩ fun a ha b b' hb hstep => readHeaderBlock_inv ha hb hstep
  refine ⟨hinv.1, fun m hm => ?_⟩
  obtain ⟨hblock, htag⟩ := hinv.2 m hm
  -- the header is a child of the root element, the block a child of the header
  have hchild := mem_descendants_of_mem_children (List.mem_of_mem_filter hblock)
  have hhead := mem_descendants_of_mem_children (List.mem_of_find?_eq_some hheader)
  have hroot := mem_descendants_trans doc.rootElement_mem (mem_descendants_trans hhead hchild)
  exact List.mem_filter.mpr ⟨hroot, htag⟩

/-- A message that the parser accepts was read from an `eb:Messaging` of the document. -/
theorem parseAs4UserMessageFromDoc_ok {session : SessionContext} {doc : Document}
    {message : ParsedAs4UserMessage} (h : parseAs4UserMessageFromDoc session doc = .ok message) :
    ∃ m ∈ messagingNodes doc, ReadFrom session doc m message := by
  simp only [parseAs4UserMessageFromDoc, parseAs4UserMessageSummary, Except.bind_eq_ok] at h
  obtain ⟨state', ⟨envelope, henv, hstate⟩, hcheck⟩ := h
  obtain ⟨state, messaging⟩ := envelope
  obtain ⟨hno, hmem⟩ := readEnvelope_ok henv
  cases messaging with
  | none =>
    -- without a header block no user message is read, and the checks refuse that
    rw [Option.bind_none, Except.pure_eq_ok] at hstate
    subst hstate
    simp only [checkUserMessageState, Except.bind_eq_ok, Except.rejectIf_eq_ok] at hcheck
    obtain ⟨-, -, -, hum, -⟩ := hcheck
    exact absurd hno hum
  | some m =>
    refine ⟨m, hmem m rfl, ?_⟩
    rw [Option.bind_some] at hstate
    cases hu : firstUserMessage? m with
    | none =>
      rw [hu, Except.pure_eq_ok] at hstate
      subst hstate
      simp only [checkUserMessageState, Except.bind_eq_ok, Except.rejectIf_eq_ok] at hcheck
      obtain ⟨-, -, -, hum, -⟩ := hcheck
      exact absurd hno hum
    | some userMessage =>
      rw [hu] at hstate
      exact ⟨state, userMessage, henv, hu, Except.bind_eq_ok.mpr ⟨state', hstate, hcheck⟩⟩

/-! ## The covered node -/

/-- The signature of the document covers the header the receiver acts on: there is one
    `eb:Messaging`, a message that the parser accepts is read from it, and it is the node
    that the index resolved and whose canonical form was digested for one of the references
    of the signature. Every element and text below it stands in that form, and what is read of
    the header is read as it stands there: the fields of an accepted message, the parts it
    declares and their properties. -/
structure MessagingBound (digests : Digests) (session : SessionContext) (doc : Document)
    (references : List WsSecSignatureReference) (messaging : Node) : Prop where
  only : messagingNodes doc = [messaging]
  read : ∀ message, parseAs4UserMessageFromDoc session doc = .ok message →
    ReadFrom session doc messaging message
  digested : ∃ r ∈ references,
    DigestedFor digests (buildForTargets doc (targetIds references)) r messaging ∧
      ∀ out, trySerializeNodeWithInclusiveNs r.profile r.inclusiveOverride messaging = some out →
        ∀ n ∈ messaging.descendants, StandsIn r.profile r.inclusiveOverride out n
  texts : ∀ userMessage ∈ firstUserMessage? messaging, WholeTexts userMessage
  fields : ∀ message, parseAs4UserMessageFromDoc session doc = .ok message →
    ∃ userMessage ∈ messaging.descendants, FieldsDigested userMessage message
  parts : ∀ messageId, PartsDigested session doc messageId messaging

/-- The URIs of the references in the document's signature. -/
def signedUris (doc : Document) : List Str :=
  match findSingleSignatureNode doc "wssec_parse_references" with
  | .ok (some signature) =>
    ((dsChild? signature "SignedInfo").toList.flatMap referenceNodes).filterMap (·.attribute? "URI")
  | _ => []

/-- An `eb:Messaging` of the document carries, in `wsu:Id`, an unqualified `Id` or `xml:id`,
    an id that a reference of the document's signature names. -/
def CarriesSignedId (doc : Document) : Prop :=
  ∃ messaging ∈ messagingNodes doc, ∃ a ∈ messaging.tree.attrs,
    isReferenceIdAttr (messaging.attrNs a) a.name.loc ∧ '#' :: a.value ∈ signedUris doc

instance (doc : Document) : Decidable (CarriesSignedId doc) :=
  inferInstanceAs (Decidable (∃ messaging ∈ messagingNodes doc, ∃ a ∈ messaging.tree.attrs, _))

/-- No comment cuts short a text that is read of the document's user message. -/
def HeaderUncut (doc : Document) : Prop :=
  ∀ messaging ∈ messagingNodes doc, ∀ userMessage ∈ firstUserMessage? messaging,
    NoneCut userMessage

instance (doc : Document) : Decidable (HeaderUncut doc) :=
  inferInstanceAs (Decidable (∀ messaging ∈ messagingNodes doc,
    ∀ userMessage ∈ firstUserMessage? messaging, NoneCut userMessage))

/-- The parsed same-document references are the `#id` URIs of the signature. -/
theorem hash_mem_signedUris {doc : Document} {docClass : SignedDocClass}
    {parsed : ParsedWsSecSignatureEnvelope} {id : Str}
    (h : parseSignatureEnvelope doc docClass = .ok (some parsed)) :
    '#' :: id ∈ signedUris doc ↔ ∃ r ∈ parsed.references, r.parsedUri = .sameDocument id := by
  obtain ⟨signature, signedInfo, hfind, hinfo, hnodes⟩ := parseSignatureEnvelope_ok h
  have hall := (parseSignatureReferenceNodes_ok hnodes).1
  simp only [signedUris, hfind, hinfo, Option.toList_some, List.flatMap_cons, List.flatMap_nil,
    List.append_nil, List.mem_filterMap]
  constructor
  · rintro ⟨node, hnode, huri⟩
    obtain ⟨r, hr, huri', hparse⟩ := hall.exists_right hnode
    rw [huri, Option.some.injEq] at huri'
    rw [← huri'] at hparse
    exact ⟨r, hr, parseReferenceUri_hash hparse⟩
  · rintro ⟨r, hr, hid⟩
    obtain ⟨node, hnode, huri, hparse⟩ := hall.exists_left hr
    rw [hid] at hparse
    exact ⟨node, hnode, by rw [huri, (parseReferenceUri_sameDocument hparse).1]⟩

/-- The coverage check accepts one `eb:Messaging` only. -/
theorem enforceMessagingSignatureCoverage_ok {session : SessionContext} {doc : Document}
    {messageId : Str} {coverage : VerifiedSignatureCoverage}
    (h : enforceMessagingSignatureCoverage session doc messageId coverage = .ok ()) :
    ∃ messaging, messagingNodes doc = [messaging] ∧
      ∃ id ∈ coverageId? messaging, id ∈ coverage.signedSameDocumentIds := by
  unfold enforceMessagingSignatureCoverage at h
  split at h
  · rename_i messaging hm
    rw [Except.rejectIf_eq_ok, not_not] at h
    obtain ⟨id, hid, hsigned⟩ := (Option.any_eq_true _ _).mp h
    exact ⟨messaging, hm, id, hid, by simpa using hsigned⟩
  · cases h

/-- A digested node carries the id of a reference. -/
theorem DigestedFor.carries {digests : Digests} {doc : Document}
    {references : List WsSecSignatureReference} {r : WsSecSignatureReference} {n : Node}
    (hr : r ∈ references)
    (h : DigestedFor digests (buildForTargets doc (targetIds references)) r n) :
    ∃ id, r.parsedUri = .sameDocument id ∧ carriers doc id = [n] := by
  obtain ⟨id, hid, hres⟩ := h.resolved
  exact ⟨id, hid, (resolve_buildForTargets_iff (mem_targetIds.mpr ⟨r, hr, hid⟩)).mp hres⟩

/-- A header that is bound to the signature carries the signed id where the index looks. -/
theorem MessagingBound.carriesSignedId {digests : Digests} {session : SessionContext}
    {doc : Document} {docClass : SignedDocClass} {parsed : ParsedWsSecSignatureEnvelope}
    {messaging : Node} (hp : parseSignatureEnvelope doc docClass = .ok (some parsed))
    (h : MessagingBound digests session doc parsed.references messaging) :
    CarriesSignedId doc := by
  obtain ⟨r, hr, hd, -⟩ := h.digested
  obtain ⟨id, hid, hc⟩ := hd.carries hr
  obtain ⟨-, -, a, ha, hattr, hval⟩ := mem_of_carriers_eq hc
  refine ⟨messaging, by simp [h.only], a, ha, hattr, ?_⟩
  rw [hval]
  exact (hash_mem_signedUris hp).mpr ⟨r, hr, hid⟩

/-- A header that is read as it is digested is not cut by a comment. -/
theorem MessagingBound.headerUncut {digests : Digests} {session : SessionContext}
    {doc : Document} {references : List WsSecSignatureReference} {messaging : Node}
    (h : MessagingBound digests session doc references messaging) : HeaderUncut doc := by
  intro m hm userMessage huser
  rw [h.only, List.mem_singleton] at hm
  subst hm
  exact (wholeTexts_iff userMessage).mp (h.texts userMessage huser)

/-- When the one `eb:Messaging` of the document carries a signed id, the reference with that
    id was resolved to it: the index finds one element for an id, and that is the one. -/
theorem digested_of_carries {pki : Pki} {doc : Document} {opts : WsSecVerifyOptions}
    {coverage : VerifiedSignatureCoverage} {messaging : Node}
    (hv : verifyEnvelopedSignatureOptionalWithDoc pki doc .userMessage opts = .ok (some coverage))
    (hone : messagingNodes doc = [messaging]) (hc : CarriesSignedId doc) :
    ∃ parsed, parseSignatureEnvelope doc .userMessage = .ok (some parsed) ∧
      ∃ r ∈ parsed.references,
        DigestedFor pki.digests (buildForTargets doc (targetIds parsed.references)) r messaging := by
  obtain ⟨parsed, hp, -, -, -, hdig⟩ := verifyEnvelopedSignatureOptionalWithDoc_ok hv
  refine ⟨parsed, hp, ?_⟩
  obtain ⟨m, hm, a, ha, hattr, huri⟩ := hc
  rw [hone, List.mem_singleton] at hm
  subst hm
  obtain ⟨r, hr, hid⟩ := (hash_mem_signedUris hp).mp huri
  obtain ⟨n, hn⟩ := hdig r hr _ hid
  obtain ⟨id, hid', hcar⟩ := hn.carries hr
  rw [hid, ParsedReferenceUri.sameDocument.injEq] at hid'
  subst hid'
  -- the `eb:Messaging` is a carrier of the id, so it is the only one
  have hmem : m ∈ messagingNodes doc := by simp [hone]
  have hdoc := List.mem_of_mem_filter hmem
  have hcm : m ∈ carriers doc a.value := mem_carriers hdoc ha hattr
  rw [hcar, List.mem_singleton] at hcm
  exact ⟨r, hr, hcm ▸ hn⟩

/-- A header that carries a signed id, and that no comment cuts, is bound to the signature. -/
theorem MessagingBound.of_carries {pki : Pki} {session : SessionContext} {doc : Document}
    {opts : WsSecVerifyOptions} {coverage : VerifiedSignatureCoverage} {messaging : Node}
    (hv : verifyEnvelopedSignatureOptionalWithDoc pki doc .userMessage opts = .ok (some coverage))
    (hone : messagingNodes doc = [messaging]) (hc : CarriesSignedId doc)
    (huncut : HeaderUncut doc) :
    ∃ parsed, parseSignatureEnvelope doc .userMessage = .ok (some parsed) ∧
      MessagingBound pki.digests session doc parsed.references messaging := by
  obtain ⟨parsed, hp, r, hr, hdigested⟩ := digested_of_carries hv hone hc
  have hmem : messaging ∈ messagingNodes doc := by simp [hone]
  have hread : ∀ message, parseAs4UserMessageFromDoc session doc = .ok message →
      ReadFrom session doc messaging message := by
    intro message hmessage
    obtain ⟨m, hm, hread⟩ := parseAs4UserMessageFromDoc_ok hmessage
    rw [hone, List.mem_singleton] at hm
    exact hm ▸ hread
  have htexts : ∀ userMessage ∈ firstUserMessage? messaging, WholeTexts userMessage :=
    fun userMessage huser => (wholeTexts_iff userMessage).mpr (huncut _ hmem userMessage huser)
  refine ⟨parsed, hp, ?_⟩
  constructor
  case only => exact hone
  case read => exact hread
  case digested =>
    -- the profile of a reference leaves comments out
    exact ⟨r, hr, hdigested, fun out hout n hn =>
      standsIn_of_mem rfl (List.mem_of_mem_filter hmem) hout hn⟩
  case texts => exact htexts
  case fields =>
    intro message hmessage
    obtain ⟨state, userMessage, -, huser, hfields⟩ := hread message hmessage
    exact ⟨userMessage, List.mem_of_find?_eq_some huser,
      FieldsDigested.of_whole (htexts userMessage huser) hfields⟩
  case parts => exact fun messageId => PartsDigested.of_messaging hone

/-- **Signature wrapping**: when the signature of a document verifies and the coverage check
    accepts, the header that the receiver acts on is the digested node, and all that is read of it
    comes from the digested octets, exactly when the `eb:Messaging` carries a signed id in
    `wsu:Id`, an unqualified `Id` or `xml:id` and no comment cuts short a text that is read. -/
theorem messaging_bound_iff (pki : Pki) (session : SessionContext) (doc : Document)
    (opts : WsSecVerifyOptions) (messageId : Str) (coverage : VerifiedSignatureCoverage)
    (hv : verifyEnvelopedSignatureOptionalWithDoc pki doc .userMessage opts = .ok (some coverage))
    (he : enforceMessagingSignatureCoverage session doc messageId coverage = .ok ()) :
    (∃ parsed messaging, parseSignatureEnvelope doc .userMessage = .ok (some parsed) ∧
      MessagingBound pki.digests session doc parsed.references messaging) ↔
    CarriesSignedId doc ∧ HeaderUncut doc := by
  constructor
  · rintro ⟨parsed, messaging, hp, hbound⟩
    exact ⟨hbound.carriesSignedId hp, hbound.headerUncut⟩
  · intro hc
    obtain ⟨messaging, hone, -⟩ := enforceMessagingSignatureCoverage_ok he
    obtain ⟨parsed, hp, hbound⟩ := MessagingBound.of_carries hv hone hc.1 hc.2
    exact ⟨parsed, messaging, hp, hbound⟩

/-! ## Signed envelopes

Envelopes for the concrete cases below and in later modules. They are signed by the holder
of a P-256 certificate that is its own trust anchor, and `signerPki` answers for them as
OpenSSL does: the certificate is valid and the signature values verify. -/

/-- An element without declarations; an attribute is a prefix, a local name and a value. -/
def element (pre loc : Str) (attrs : List (Str × Str × Str)) (children : List Tree) : Tree :=
  .element ⟨pre, loc⟩ [] (attrs.map fun a => ⟨⟨a.1, a.2.1⟩, a.2.2⟩) children

/-- An element with a text. -/
def leaf (pre loc text : Str) : Tree := element pre loc [] [.text text]

/-- An element of the signature that names an algorithm. -/
def dsAlgorithm (loc uri : Str) : Tree := element (.lit "ds") loc [([], .lit "Algorithm", uri)] []

/-- The signer's certificate. -/
def signerCertB64 : Str :=
  Str.lit "MIIBNzCB3qADAgECAgEBMAoGCCqGSM49BAMCMAwxCjAIBgNVBAMMAXMwHhcNMjYxMTE4MDAyNTEwWhcNNDYx" ++
    Str.lit "MTEzMDAyNTEwWjAMMQowCAYDVQQDDAFzMFkwEwYHKoZIzj0CAQYIKoZIzj0DAQcDQgAEe1BO7TWD08TGL7y1" ++
    Str.lit "lcGa0eZ9HECwKyAqsaAzXYKyuS0sKiL37q9DieSWdNTn5JU3VLMTQPWNjJq+G8hW5UXG6qMxMC8wDgYDVR0P" ++
    Str.lit "AQH/BAQDAgeAMB0GA1UdDgQWBBS11/XEpxJyVIgfDlXTax08ezbh5TAKBggqhkjOPQQDAgNIADBFAiB9fLqm" ++
    Str.lit "THYrBQa854vbhLDH5fS6fR6hsH5FWXviSMFAegIhAOfJ1jBbhGFBuJwPNB+gYak/hFZGSikanj6mJZasUrNY"

@[inherit_doc signerCertB64]
def signerCert : Bytes := (Base64.decode signerCertB64).getD []

/-- The SHA-256 of the signer's certificate. -/
def signerFingerprint : Bytes :=
  (Base64.decode (.lit "QB7HUOytCXXgBtzrcdX8UcNrxnrOaGkAQFZdZsVybmY=")).getD []

/-- The DER form of an ECDSA signature given as `r ‖ s`. -/
def ecdsaDer (wire : Bytes) : Bytes :=
  let integer := fun (n : Bytes) =>
    let n := n.dropWhile (· == 0)
    let n := if n.head?.any (· ≥ 0x80) then 0 :: n else n
    0x02 :: .ofNat n.length :: n
  let body := integer (wire.take 32) ++ integer (wire.drop 32)
  0x30 :: .ofNat body.length :: body

/-- The certificate and signature operations, for the signer above. -/
def signerPki (digests : Bytes → Bytes) : Pki where
  digests := fun _ input => if input = signerCert then signerFingerprint else digests input
  validateX509Certificate := fun _ => .ok ()
  validateCertPublicKeyMatchesRsaKeyvalue := fun _ _ _ => .error (signatureValueError
    .interopViolation "unsupported certificate public key type for RSA SignatureMethod")
  validateChainOffline := fun certs _ => .ok certs
  publicKeyId := fun _ => some (some .ec)
  fromWire := fun _ wire _ => .ok (ecdsaDer wire)
  ecPublicKey := fun cert => .ok ((cert.drop 87).take 91)
  rsaPublicKey := fun _ => .error (signatureValueError
    .interopViolation "unsupported certificate public key type for RSA SignatureMethod")
  verify := fun _ _ _ _ => .ok true

/-- A reference that is digested with SHA-256. -/
def dsReference (uri : Str) (transform : TransformAlg) (digestValue : Str) : Tree :=
  element (.lit "ds") (.lit "Reference") [([], .lit "URI", uri)] [
    element (.lit "ds") (.lit "Transforms") [] [dsAlgorithm (.lit "Transform") transform.uri],
    dsAlgorithm (.lit "DigestMethod") WsSecDigestMethod.sha256.algorithmUri,
    leaf (.lit "ds") (.lit "DigestValue") digestValue]

/-- A signature with a certificate in `ds:X509Data`. -/
def signatureWith (certificate : Str) (references : List Tree) (signatureValue : Str) : Tree :=
  element (.lit "ds") (.lit "Signature") [] [
    element (.lit "ds") (.lit "SignedInfo") [] (
      dsAlgorithm (.lit "CanonicalizationMethod") WsSecCanonicalizationKind.exclusive.uri ::
      dsAlgorithm (.lit "SignatureMethod") SignatureAlgorithm.ecdsaSha256.algorithmUri ::
        references),
    leaf (.lit "ds") (.lit "SignatureValue") signatureValue,
    element (.lit "ds") (.lit "KeyInfo") [] [element (.lit "ds") (.lit "X509Data") [] [
      leaf (.lit "ds") (.lit "X509Certificate") certificate]]]

/-- A signature by the signer above. -/
def signature (references : List Tree) (signatureValue : Str) : Tree :=
  signatureWith signerCertB64 references signatureValue

/-- A SOAP envelope with these header blocks and an empty body. -/
def soapEnvelope (blocks : List Tree) : List Tree :=
  [.element ⟨.lit "S", .lit "Envelope"⟩
    [(.lit "S", Ns.soap12), (.lit "eb", Ns.ebms3), (.lit "wsse", Ns.wsse), (.lit "wsu", Ns.wsu),
      (.lit "ds", Ns.ds)] [] [
      element (.lit "S") (.lit "Header") [] blocks,
      element (.lit "S") (.lit "Body") [(.lit "wsu", .lit "Id", .lit "b")] []]]

/-- A user message from `s` to `r` with this `eb:MessageId`. -/
def userMessageOf (messageId : Tree) (payloadInfo : List Tree) : Tree :=
  element (.lit "eb") (.lit "UserMessage") [] ([
    element (.lit "eb") (.lit "MessageInfo") [] [messageId],
    element (.lit "eb") (.lit "PartyInfo") [] [
      element (.lit "eb") (.lit "From") [] [leaf (.lit "eb") (.lit "PartyId") (.lit "s")],
      element (.lit "eb") (.lit "To") [] [leaf (.lit "eb") (.lit "PartyId") (.lit "r")]],
    element (.lit "eb") (.lit "CollaborationInfo") []
      [leaf (.lit "eb") (.lit "Action") (.lit "a")]] ++ payloadInfo)

@[inherit_doc userMessageOf]
def userMessage (messageId : Str) (payloadInfo : List Tree) : Tree :=
  userMessageOf (leaf (.lit "eb") (.lit "MessageId") messageId) payloadInfo

/-- A document as it is written. -/
def documentText (doc : Document) : Str := (trySerializeNode .inclusive doc.root).getD []

/-- The bytes of a document, written in one pass. -/
def documentBytes (doc : Document) : Bytes :=
  utf8Onto ((subtreeOnto .inclusive none none .empty 0 [] [] doc.root.tree []).getD []) []

theorem utf8_documentText (doc : Document) : Str.utf8 (documentText doc) = documentBytes doc := by
  rw [utf8_eq, documentText, trySerializeNode_eq]
  rfl

/-- The parser, for the text of one document. -/
def parserFor (doc : Document) : Roxmltree := fun _ _ => .ok doc

/-- A session that was built from a profile. -/
def signedSession : SessionContext := ⟨"session", "s", true⟩

/-- The receive path's options: the signer is pinned and its certificate the trust anchor. -/
def signedOptions : WsSecVerifyOptions :=
  receiveVerifyOptions ⟨[.lit "-----BEGIN CERTIFICATE-----\n" ++ signerCertB64 ++
    .lit "\n-----END CERTIFICATE-----\n"], true⟩ 0 ⟨[signerFingerprint], none⟩

/-- The signature of the document verifies and the coverage check accepts. -/
def verifiedAndCovered (pki : Pki) (session : SessionContext) (doc : Document)
    (opts : WsSecVerifyOptions) (messageId : Str) : Bool :=
  match verifyEnvelopedSignatureOptionalWithDoc pki doc .userMessage opts with
  | .ok (some coverage) =>
    match enforceMessagingSignatureCoverage session doc messageId coverage with
    | .ok () => true
    | .error _ => false
  | _ => false

theorem verifiedAndCovered_eq_true {pki : Pki} {session : SessionContext} {doc : Document}
    {opts : WsSecVerifyOptions} {messageId : Str}
    (h : verifiedAndCovered pki session doc opts messageId = true) :
    ∃ coverage, verifyEnvelopedSignatureOptionalWithDoc pki doc .userMessage opts =
        .ok (some coverage) ∧
      enforceMessagingSignatureCoverage session doc messageId coverage = .ok () := by
  unfold verifiedAndCovered at h
  split at h
  · rename_i coverage hv
    split at h
    · rename_i he
      exact ⟨coverage, hv, he⟩
    · cases h
  · cases h

/-- An envelope whose header is signed, with this user message: the reference names the `wsu:Id`
    of the `eb:Messaging`. -/
def signedHeaderEnvelope (userMessage : Tree) : List Tree :=
  soapEnvelope [
    element (.lit "eb") (.lit "Messaging")
      [(.lit "S", .lit "mustUnderstand", .lit "true"), (.lit "wsu", .lit "Id", .lit "m")]
      [userMessage],
    element (.lit "wsse") (.lit "Security") [] [signature
      [dsReference "#m" (.c14n .exclusive) (.lit "IYuHPBbVadW3xZLmxMBKv8vPed9sxDZ5Lr3vgzHAduY=")]
      (Str.lit "+a5ceRXLzUIYQ25YzfhkaJfVNnTPK7rNKHx+YrOc1HTBBxtaA/++64MSBkxEbTUhK7w2ZJ7kfpQUziqLb4VJ" ++
        "PQ==")]]

/-- The header is signed. -/
def signedHeaderDoc : Document where
  children := signedHeaderEnvelope (userMessage "m@x" [])
  ok := by decide +kernel

/-- `signerPki` with the SHA-256 of the canonical header of `signedHeaderDoc`. -/
def signedHeaderPki : Pki := signerPki fun _ =>
  (Base64.decode (.lit "IYuHPBbVadW3xZLmxMBKv8vPed9sxDZ5Lr3vgzHAduY=")).getD []

/-- The header of `signedHeaderDoc` is bound to the signature. -/
theorem messaging_bound_signed_header :
    verifiedAndCovered signedHeaderPki signedSession signedHeaderDoc signedOptions "m@x" = true ∧
    ∃ parsed messaging, parseSignatureEnvelope signedHeaderDoc .userMessage = .ok (some parsed) ∧
      MessagingBound signedHeaderPki.digests signedSession signedHeaderDoc parsed.references
        messaging := by
  have h : verifiedAndCovered signedHeaderPki signedSession signedHeaderDoc signedOptions "m@x" =
      true := by decide +kernel
  obtain ⟨coverage, hv, he⟩ := verifiedAndCovered_eq_true h
  have hc : CarriesSignedId signedHeaderDoc ∧ HeaderUncut signedHeaderDoc := by decide +kernel
  exact ⟨h, (messaging_bound_iff _ _ _ _ _ _ hv he).mpr hc⟩

/-- Only the body is signed, under the id `b`; an attribute `Id` of a foreign namespace gives
    the header the same value. -/
def lookalikeDoc : Document where
  children := soapEnvelope [
    .element ⟨.lit "eb", .lit "Messaging"⟩ [(.lit "x", .lit "urn:x")]
      [⟨⟨"S", "mustUnderstand"⟩, "true"⟩, ⟨⟨"x", "Id"⟩, "b"⟩] [userMessage "m@x" []],
    element (.lit "wsse") (.lit "Security") [] [signature
      [dsReference "#b" (.c14n .exclusive) (.lit "L8HikvdgMzMDKCBNcEihIl+zLEVHEZeZViXjQ4BexH8=")]
      (Str.lit "riPMVjWcPLFcmOvO7aIbFi3IoI36ElPwqwfoC0HVUt3ZBj1xxpb5NtiwAYoFJyuhEbwS1Fy4EOdmM4ZUKdwF" ++
        "bA==")]]
  ok := by decide +kernel

/-- `signerPki` with the SHA-256 of the canonical body of `lookalikeDoc`. -/
def lookalikePki : Pki := signerPki fun _ =>
  (Base64.decode (.lit "L8HikvdgMzMDKCBNcEihIl+zLEVHEZeZViXjQ4BexH8=")).getD []

/-- `signedHeaderDoc` with a comment in the text of the `eb:MessageId`, which the canonical form
    of the header leaves out. -/
def commentedDoc : Document where
  children := signedHeaderEnvelope
    (userMessageOf (element (.lit "eb") (.lit "MessageId") []
      [.text (.lit "m"), .comment [], .text (.lit "@x")]) [])
  ok := by decide +kernel

/-- The signature of `lookalikeDoc` verifies, the coverage check accepts and the parser reads
    the header, but no reference of the signature covers it. The signature of `commentedDoc`
    covers the header, whose canonical form is that of `signedHeaderDoc`, but the parser reads
    the id `m` where `m@x` is digested. -/
theorem messaging_not_bound_lookalike_or_comment :
    (verifiedAndCovered lookalikePki signedSession lookalikeDoc signedOptions "m@x" = true ∧
      (parseAs4UserMessageFromDoc signedSession lookalikeDoc).isOk = true ∧
      ¬ ∃ parsed messaging, parseSignatureEnvelope lookalikeDoc .userMessage = .ok (some parsed) ∧
        MessagingBound lookalikePki.digests signedSession lookalikeDoc parsed.references
          messaging) ∧
    (verifiedAndCovered signedHeaderPki signedSession commentedDoc signedOptions "m" = true ∧
      (messagingNodes commentedDoc).map (trySerializeNode .exclusive) =
        (messagingNodes signedHeaderDoc).map (trySerializeNode .exclusive) ∧
      (parseAs4UserMessageFromDoc signedSession commentedDoc).toOption.map
        ParsedAs4UserMessage.messageId = some "m" ∧
      ¬ ∃ parsed messaging, parseSignatureEnvelope commentedDoc .userMessage = .ok (some parsed) ∧
        MessagingBound signedHeaderPki.digests signedSession commentedDoc parsed.references
          messaging) := by
  constructor
  · refine ⟨by decide +kernel, by decide +kernel, ?_⟩
    rintro ⟨parsed, messaging, hp, hbound⟩
    have hc : ¬ CarriesSignedId lookalikeDoc := by decide +kernel
    exact hc (hbound.carriesSignedId hp)
  · refine ⟨by decide +kernel, by decide +kernel, by decide +kernel, ?_⟩
    rintro ⟨parsed, messaging, -, hbound⟩
    have hcut : ¬ HeaderUncut commentedDoc := by decide +kernel
    exact hcut hbound.headerUncut

end Asx
