import Asx.Spec.ReceiptScope
import Asx.Spec.SmpCoverage

/-!
# One security header

The signature is looked up twice: the verification takes the one `ds:Signature` that is a child
of a `wsse:Security`, and `open_inbound` reads the encryption structure from the parent of the
first `ds:Signature` of the document. A counter-signature in an earlier header block makes the
two lookups differ.

## Main results
- `firstSignatureHeader_eq_iff`: when the lookups agree
- `eq_of_resolveEnvelope`: at most one header encrypts the parts of a document
- `security_header_iff`: when a message is opened with the header of its verified signature
-/

namespace Asx

open Xml Interact

/-! ## The two lookups -/

/-- The first `ds:Signature` of a document. -/
def firstSignature? (doc : Document) : Option Node :=
  doc.descendants.find? (isDsElement · "Signature")

/-- The header that `open_inbound` reads. -/
def firstSignatureHeader (doc : Document) : Option Node := (firstSignature? doc).bind Node.parent?

/-- The header of the signature that is verified. -/
def verifiedHeader (doc : Document) : Option Node :=
  match findSingleSignatureNode doc "wssec_parse_references" with
  | .ok (some signature) => signature.parent?
  | _ => none

/-- The first `ds:Signature` of the document is a child of a `wsse:Security`. -/
def FirstSignatureSecured (doc : Document) : Prop := (firstSignature? doc).any inSecurity = true

instance (doc : Document) : Decidable (FirstSignatureSecured doc) :=
  inferInstanceAs (Decidable (_ = true))

theorem hasTagName_of_inSecurity {n p : Node} (h : inSecurity n = true) (hp : n.parent? = some p) :
    p.hasTagName Ns.wsse "Security" = true := by
  simpa [inSecurity, hp] using h

/-- A parsed user message is a SOAP 1.2 envelope. -/
theorem isSoapEnvelope_of_parse {session : SessionContext} {doc : Document}
    {parsed : ParsedAs4UserMessage} (h : parseAs4UserMessageFromDoc session doc = .ok parsed) :
    isSoapEnvelope doc = true := by
  simp only [parseAs4UserMessageFromDoc, parseAs4UserMessageSummary, Except.bind_eq_ok] at h
  obtain ⟨_, ⟨_, henvelope, -⟩, -⟩ := h
  simp only [readEnvelope, Except.bind_eq_ok, Except.rejectIf_eq_ok, Except.okOr_eq_ok,
    not_not] at henvelope
  obtain ⟨_, hname, _, hns, _, rfl, -⟩ := henvelope
  have helement : doc.rootElement.isElement = true := by
    unfold Node.isElement
    unfold Node.localName at hname
    cases htree : doc.rootElement.tree with
    | element name decls attrs children => rfl
    | _ => simp [htree, Tree.name?] at hname
  simp [isSoapEnvelope, Node.hasTagName, helement, hns, hname]

/-- The verified signature of a SOAP envelope is a child of a `wsse:Security`. -/
theorem inSecurity_of_parseSignatureEnvelope {doc : Document} {docClass : SignedDocClass}
    {signed : ParsedWsSecSignatureEnvelope} {signature : Node} (hsoap : isSoapEnvelope doc = true)
    (h : parseSignatureEnvelope doc docClass = .ok (some signed))
    (hfound : findSingleSignatureNode doc "wssec_parse_references" = .ok (some signature)) :
    inSecurity signature = true := by
  simp only [parseSignatureEnvelope, hfound, Except.bind_eq_ok, Except.ok.injEq] at h
  obtain ⟨_, rfl, h⟩ := h
  simp only [Except.bind_eq_ok, Except.rejectIf_eq_ok, hsoap, true_and, not_not] at h
  obtain ⟨_, hsecured, -⟩ := h
  exact hsecured

/-- The lookups agree exactly when the first signature of the document is a child of a
    `wsse:Security`. -/
theorem firstSignatureHeader_eq_iff {doc : Document} {signature : Node}
    (h : findSingleSignatureNode doc "wssec_parse_references" = .ok (some signature))
    (hsecured : inSecurity signature = true) :
    firstSignatureHeader doc = verifiedHeader doc ↔ FirstSignatureSecured doc := by
  have hverified : verifiedHeader doc = signature.parent? := by rw [verifiedHeader, h]
  rw [hverified, firstSignatureHeader, FirstSignatureSecured]
  constructor
  · intro heq
    obtain ⟨p, hp⟩ : ∃ p, signature.parent? = some p := by
      cases hp : signature.parent? with
      | none => simp [inSecurity, hp] at hsecured
      | some p => exact ⟨p, rfl⟩
    rw [hp, Option.bind_eq_some_iff] at heq
    obtain ⟨first, hfirst, hparent⟩ := heq
    rw [hfirst, Option.any_some, inSecurity, hparent, Option.any_some]
    exact hasTagName_of_inSecurity hsecured hp
  · intro hfirst
    rw [Option.any_eq_true_iff_get] at hfirst
    obtain ⟨hsome, hin⟩ := hfirst
    obtain ⟨first, hget⟩ := Option.isSome_iff_exists.mp hsome
    have hin' : inSecurity first = true := by simpa [hget] using hin
    have hmem : first ∈ doc.descendants.filter (isDsElement · "Signature") :=
      List.mem_filter.mpr ⟨List.mem_of_find?_eq_some hget,
        List.find?_some (p := (isDsElement · "Signature")) hget⟩
    -- the signature is the only one, or the only one in a security header
    suffices hsame : first = signature by rw [hget, hsame, Option.bind_some]
    unfold findSingleSignatureNode at h
    split at h
    · cases h
    · rename_i only hall
      cases h
      rw [hall] at hmem
      exact List.mem_singleton.mp hmem
    · split at h
      · rename_i primary hprimary
        cases h
        have hboth := List.mem_filter.mpr ⟨hmem, hin'⟩
        rw [hprimary] at hboth
        exact List.mem_singleton.mp hboth
      · cases h
      · cases h

/-! ## One header encrypts -/

/-- A child of `p` that lies inside the encryption of the header `s`: the header is `p` or
    above it. -/
theorem mem_ancestors_of_insideEncryption {doc : Document} {s p k : Node}
    (hs : s ∈ doc.descendants) (hp : p ∈ doc.descendants) (hk : k ∈ p.children)
    (h : insideEncryption s k = true) : s ∈ p.ancestors := by
  have hkdoc := mem_descendants_trans hp (mem_descendants_of_mem_children hk)
  unfold insideEncryption at h
  split at h
  · rename_i top htop
    rw [Bool.and_eq_true] at h
    obtain ⟨a, ha, hsame⟩ := List.any_eq_true.mp h.1
    have hadoc := ((Document.mem_ancestors_iff hkdoc).mp ha).1
    obtain rfl : a = s := Document.eq_of_path_eq hadoc hs (by simpa [sameNode] using hsame)
    rcases mem_ancestors_iff.mp ha with rfl | ⟨p', hp', ha'⟩
    · -- the walk up from the header itself is empty
      simp [Node.ancestors, sameNode] at htop
    · rw [parent?_of_mem_children hk, Option.some.injEq] at hp'
      exact hp' ▸ ha'
  · cases h

/-- A header that encrypts something has an `xenc:EncryptedKey`. -/
theorem resolveEnvelope_key {doc : Document} {security : Node} {declared : List Str}
    {suite : Option Suite} {maxParts : Nat} {envelope : ResolvedEnvelope}
    (h : resolveEnvelope doc security declared suite maxParts = .ok (some envelope)) :
    (∃ key ∈ security.children, key.hasTagName Ns.xenc "EncryptedKey" = true) ∧
      ∀ n ∈ doc.descendants, isEncryptionElement n = true → insideEncryption security n = true := by
  simp only [resolveEnvelope, checkEncryptionPlacement, Except.bind_eq_ok, Except.forM_eq_ok,
    Except.rejectIf_eq_ok] at h
  obtain ⟨_, hplaced, h⟩ := h
  constructor
  · split at h
    · cases h
    · simp only [Except.bind_eq_ok, resolveEncryption] at h
      obtain ⟨_, ⟨key, hkey, -⟩, -⟩ := h
      unfold theEncryptedKey at hkey
      split at hkey
      · rename_i one hkeys
        have hone : one ∈ security.children.filter (·.hasTagName Ns.xenc "EncryptedKey") := by
          rw [hkeys]
          exact List.mem_singleton_self one
        exact ⟨one, List.mem_filter.mp hone⟩
      · cases hkey
      · cases hkey
  · intro n hn henc
    simpa using hplaced n (List.mem_filter.mpr ⟨hn, henc⟩)

theorem isEncryptionElement_of_hasTagName {n : Node} {loc : Str}
    (h : n.hasTagName Ns.xenc loc = true) : isEncryptionElement n = true := by
  simp only [Node.hasTagName, Bool.and_eq_true] at h
  simp [isEncryptionElement, h.1.1, h.1.2]

/-- At most one header encrypts the parts of a document. -/
theorem eq_of_resolveEnvelope {doc : Document} {s s' : Node} {declared : List Str}
    {suite : Option Suite} {maxParts : Nat} {envelope envelope' : ResolvedEnvelope}
    (hs : s ∈ doc.descendants) (hs' : s' ∈ doc.descendants)
    (h : resolveEnvelope doc s declared suite maxParts = .ok (some envelope))
    (h' : resolveEnvelope doc s' declared suite maxParts = .ok (some envelope')) : s = s' := by
  obtain ⟨⟨key, hkey, htag⟩, hplaced⟩ := resolveEnvelope_key h
  obtain ⟨⟨key', hkey', htag'⟩, hplaced'⟩ := resolveEnvelope_key h'
  have hin := hplaced key' (mem_descendants_trans hs' (mem_descendants_of_mem_children hkey'))
    (isEncryptionElement_of_hasTagName htag')
  have hin' := hplaced' key (mem_descendants_trans hs (mem_descendants_of_mem_children hkey))
    (isEncryptionElement_of_hasTagName htag)
  exact eq_of_mem_ancestors (mem_ancestors_of_insideEncryption hs hs' hkey' hin)
    (mem_ancestors_of_insideEncryption hs' hs hkey hin')

/-! ## Opening with a given header -/

section

variable (header : Document → Option Node) (lib : As4Library) (session : SessionContext)
  (policy : As4PushPolicy) (authenticated : AuthenticatedInbound) (keys : RecipientKeys)
  (suite : Suite)

/-- `resolveInboundEnvelope`, with the header that is read. -/
def resolveInboundEnvelopeAt (messageId : Str) (doc : Document) (declared : List Str) :
    Result ResolvedEnvelope := do
  let security ← Except.okOr (header doc) (receiveError session messageId
    .securityVerificationFailed "the verified signature has no wsse:Security header")
  let envelope? ← (resolveEnvelope doc security declared (some suite) maxInboundPayloads).mapError
    (·.withMessageId messageId)
  let envelope ← Except.okOr (envelope?.filter fun _ => policy.requireEncryptedInbound)
    (notEncrypted session messageId (declared.headD []))
  checkEncrypted session messageId declared envelope
  pure envelope

/-- `openParts`, with the header that is read. -/
def openPartsAt (inbound : InboundBody) : Result (List (Str × Bytes × Str)) := do
  let messageId := authenticated.parsed.messageId
  let parts ← matchParts session messageId authenticated.declared inbound.multipart
  let envelope ← resolveInboundEnvelopeAt header session policy suite messageId inbound.doc
    authenticated.declared
  let restored ← restoredTypes session messageId authenticated.partProperties envelope
  let plaintexts ← (decryptAttachments lib.ops envelope (encryptedBodies envelope parts)
    keys).mapError (·.withMessageId messageId)
  let inputs ← digestInputs lib.roxmltree plaintexts restored
  let cids := envelope.data.map DataSpec.cid
  (verifyCidReferences lib.pki.digests authenticated.deferred (cids.zip inputs)).mapError
    (·.withMessageId messageId)
  decompressParts lib.ops session messageId authenticated.partProperties (cids.zip plaintexts)
    authenticated.declared

/-- `inboundPayloads`, with the header that is read. -/
def inboundPayloadsAt (inbound : InboundBody) : Result (List (Str × Bytes × Str)) :=
  if isTestService authenticated.parsed then .ok []
  else if isPathSwitch policy authenticated then do
    checkPayloadLess session authenticated.parsed.messageId inbound.doc inbound.multipart
    pure []
  else openPartsAt header lib session policy authenticated keys suite inbound

/-- `openInbound`, with the header that is read. -/
def openInboundAt (now : SystemTime) (body : Bytes) (contentType : Str) :
    Result VerifiedInbound := do
  enforceTimestampFreshness policy authenticated.parsed now
  let inbound ← readInboundBody lib session body contentType
  let payloads ← inboundPayloadsAt header lib session policy authenticated keys suite inbound
  pure
    { parsed := authenticated.parsed
      payloads
      signerDer := authenticated.signerDer
      references := authenticated.references
      nri := authenticated.nri }

/-- `open_inbound` reads the parent of the first signature. -/
theorem openInboundAt_first (now : SystemTime) (body : Bytes) (contentType : Str) :
    openInboundAt firstSignatureHeader lib session policy authenticated keys suite now body
        contentType =
      openInbound lib session policy now body contentType authenticated keys suite := rfl

end

section

variable {lib : As4Library} {session : SessionContext} {policy : As4PushPolicy}
  {chainPolicy : ChainPolicy} {now now' : SystemTime} {body : Bytes} {contentType : Str}
  {authorize : SenderAuthorizer} {authenticated : AuthenticatedInbound} {keys : RecipientKeys}
  {suite : Suite} {inbound : InboundBody} {signed : ParsedWsSecSignatureEnvelope}
  {header header' : Document → Option Node} {verified verified' : VerifiedInbound}

theorem resolveInboundEnvelopeAt_ok {messageId : Str} {doc : Document} {declared : List Str}
    {envelope : ResolvedEnvelope}
    (h : resolveInboundEnvelopeAt header session policy suite messageId doc declared =
      .ok envelope) :
    ∃ security, header doc = some security ∧
      resolveEnvelope doc security declared (some suite) maxInboundPayloads =
        .ok (some envelope) := by
  simp only [resolveInboundEnvelopeAt, Except.bind_eq_ok, Except.okOr_eq_ok,
    Except.mapError_eq_ok, Except.pure_eq_ok] at h
  obtain ⟨security, hheader, envelope?, henv, envelope', hsome, _, -, rfl⟩ := h
  obtain ⟨rfl, -⟩ := Option.filter_eq_some_iff.mp hsome
  exact ⟨security, hheader, henv⟩

/-- A message whose parts are opened has a header that encrypts them. -/
theorem openInboundAt_ok
    (h : openInboundAt header lib session policy authenticated keys suite now' body contentType =
      .ok verified)
    (hread : readInboundBody lib session body contentType = .ok inbound)
    (hopens : ¬ OpensNoPart policy authenticated.parsed authenticated.declared) :
    ∃ security envelope, header inbound.doc = some security ∧
      resolveEnvelope inbound.doc security authenticated.declared (some suite)
        maxInboundPayloads = .ok (some envelope) := by
  simp only [openInboundAt, hread, Except.bind_eq_ok, Except.ok.injEq, Except.pure_eq_ok] at h
  obtain ⟨_, -, _, rfl, payloads, hpayloads, -⟩ := h
  rw [OpensNoPart, not_or, ← isPathSwitch_iff] at hopens
  rw [inboundPayloadsAt, if_neg hopens.1, if_neg hopens.2] at hpayloads
  simp only [openPartsAt, Except.bind_eq_ok] at hpayloads
  obtain ⟨_, -, envelope, henvelope, -⟩ := hpayloads
  obtain ⟨security, hheader, henv⟩ := resolveInboundEnvelopeAt_ok henvelope
  exact ⟨security, envelope, hheader, henv⟩

/-- Which header is read makes no difference if it is the same one, or if no part is opened. -/
theorem openInboundAt_congr (hread : readInboundBody lib session body contentType = .ok inbound)
    (h : OpensNoPart policy authenticated.parsed authenticated.declared ∨
      header inbound.doc = header' inbound.doc) :
    openInboundAt header lib session policy authenticated keys suite now' body contentType =
      openInboundAt header' lib session policy authenticated keys suite now' body contentType := by
  have hpayloads : inboundPayloadsAt header lib session policy authenticated keys suite inbound =
      inboundPayloadsAt header' lib session policy authenticated keys suite inbound := by
    unfold inboundPayloadsAt
    rcases h with (htest | hswitch) | hsame
    · rw [if_pos htest, if_pos htest]
    · rw [← isPathSwitch_iff] at hswitch
      rw [if_pos hswitch, if_pos hswitch]
    · simp only [openPartsAt, resolveInboundEnvelopeAt, hsame]
  unfold openInboundAt
  rw [hread]
  refine congrArg (_ >>= ·) (funext fun _ => ?_)
  change (inboundPayloadsAt header lib session policy authenticated keys suite inbound >>= _) =
    (inboundPayloadsAt header' lib session policy authenticated keys suite inbound >>= _)
  rw [hpayloads]

/-- The header of the verified signature is a node of the document. -/
theorem mem_of_verifiedHeader {doc : Document} {s : Node} (h : verifiedHeader doc = some s) :
    s ∈ doc.descendants := by
  unfold verifiedHeader at h
  split at h
  · rename_i signature hfound
    exact (Document.mem_children_of_parent? (findSingleSignatureNode_ok hfound).1 h).1
  · cases h

theorem mem_of_firstSignatureHeader {doc : Document} {s : Node}
    (h : firstSignatureHeader doc = some s) : s ∈ doc.descendants := by
  obtain ⟨first, hfirst, hparent⟩ := Option.bind_eq_some_iff.mp h
  exact (Document.mem_children_of_parent? (List.mem_of_find?_eq_some hfirst) hparent).1

/-- A message that can be opened with either header has one: both encrypt its parts. -/
theorem header_eq_of_openInboundAt
    (h : openInboundAt firstSignatureHeader lib session policy authenticated keys suite now' body
      contentType = .ok verified)
    (h' : openInboundAt verifiedHeader lib session policy authenticated keys suite now' body
      contentType = .ok verified')
    (hread : readInboundBody lib session body contentType = .ok inbound)
    (hopens : ¬ OpensNoPart policy authenticated.parsed authenticated.declared) :
    firstSignatureHeader inbound.doc = verifiedHeader inbound.doc := by
  obtain ⟨s, _, hs, henv⟩ := openInboundAt_ok h hread hopens
  obtain ⟨s', _, hs', henv'⟩ := openInboundAt_ok h' hread hopens
  rw [hs, hs', eq_of_resolveEnvelope (mem_of_firstSignatureHeader hs) (mem_of_verifiedHeader hs')
    henv henv']

end

/-- An authenticated message is opened with the header of its verified signature exactly when
    no part of it is opened or the first `ds:Signature` of the document is a child of a
    `wsse:Security`: that is when an accepted message had that header read, and when a message
    that would be accepted with that header is not refused. -/
theorem security_header_iff (lib : As4Library) (session : SessionContext) (policy : As4PushPolicy)
    (chainPolicy : ChainPolicy) (now now' : SystemTime) (body : Bytes) (contentType : Str)
    (authorize : SenderAuthorizer) (localId : Str) (localType : Option Str)
    (authenticated : AuthenticatedInbound) (keys : RecipientKeys) (suite : Suite)
    (hauth : authenticateInbound lib session policy chainPolicy now body contentType authorize
      localId localType = .ok authenticated) :
    ∃ inbound signature, readInboundBody lib session body contentType = .ok inbound ∧
      findSingleSignatureNode inbound.doc "wssec_parse_references" = .ok (some signature) ∧
      verifiedHeader inbound.doc = signature.parent? ∧
      (∀ verified, openInbound lib session policy now' body contentType authenticated keys suite =
          .ok verified →
        (OpensNoPart policy authenticated.parsed authenticated.declared ∨
            firstSignatureHeader inbound.doc = signature.parent? ↔
          OpensNoPart policy authenticated.parsed authenticated.declared ∨
            FirstSignatureSecured inbound.doc)) ∧
      (∀ verified, openInboundAt verifiedHeader lib session policy authenticated keys suite now'
          body contentType = .ok verified →
        (openInbound lib session policy now' body contentType authenticated keys suite =
            .ok verified ↔
          OpensNoPart policy authenticated.parsed authenticated.declared ∨
            FirstSignatureSecured inbound.doc)) := by
  obtain ⟨inbound, signed, ha⟩ := authenticateInbound_ok hauth
  obtain ⟨signature, _, hfound, -, -⟩ := parseSignatureEnvelope_ok ha.signature
  have hsecured := inSecurity_of_parseSignatureEnvelope (isSoapEnvelope_of_parse ha.header)
    ha.signature hfound
  have hagree := firstSignatureHeader_eq_iff hfound hsecured
  have hheader : verifiedHeader inbound.doc = signature.parent? := by rw [verifiedHeader, hfound]
  refine ⟨inbound, signature, ha.read, hfound, hheader, fun verified _ => ?_,
    fun verified hverified => ?_⟩
  · rw [← hagree, hheader]
  · rw [← hagree, ← openInboundAt_first]
    constructor
    · intro hopen
      by_cases hnone : OpensNoPart policy authenticated.parsed authenticated.declared
      · exact .inl hnone
      · exact .inr (header_eq_of_openInboundAt hopen hverified ha.read hnone)
    · intro hcond
      rw [openInboundAt_congr ha.read hcond]
      exact hverified

/-- The header of the signature of `onePartMessage` is the one that is read, though another
    signature stands behind it. -/
theorem security_header_one_part :
    ∃ authenticated inbound signature, authenticateMessage onePartLibrary onePartMessage =
        .ok authenticated ∧
      readInboundBody onePartLibrary signedSession (mimeMessage onePartMessage)
        "multipart/related; boundary=b" = .ok inbound ∧
      findSingleSignatureNode inbound.doc "wssec_parse_references" = .ok (some signature) ∧
      (OpensNoPart profilePolicy authenticated.parsed authenticated.declared ∨
          firstSignatureHeader inbound.doc = signature.parent? ↔
        OpensNoPart profilePolicy authenticated.parsed authenticated.declared ∨
          FirstSignatureSecured inbound.doc) := by
  obtain ⟨authenticated, verified, ha, hv, -⟩ := onePartMessage_accepted
  obtain ⟨inbound, signature, hread, hfound, -, hread', -⟩ :=
    security_header_iff _ _ _ _ _ 0 _ _ _ _ _ _ recipientKeys rsaSuite ha
  exact ⟨authenticated, inbound, signature, ha, hread, hfound, hread' verified hv⟩

/-! ## A counter-signature -/

/-- `onePartMessage` with the block of the gateway before the others. -/
def counterSignedMessage : Document where
  children := soapEnvelope [
    gatewayBlock,
    element (.lit "eb") (.lit "Messaging")
      [(.lit "S", .lit "mustUnderstand", .lit "true"), (.lit "wsu", .lit "Id", .lit "m")]
      [userMessage (.lit "m@x") [element (.lit "eb") (.lit "PayloadInfo") []
        [partInfo (.lit "cid:p@x") []]]],
    element (.lit "wsse") (.lit "Security") [] [encryptedKey, encryptedData,
      signature [dsReference "#m" (.c14n .exclusive) onePartDigest,
        dsReference "cid:p@x" .attachmentContent plainPartDigest]
        (Str.lit "CqWBuCYCzVzvCIXeJAt8n/tj3PPZOA0ukZAKa6T1REcrsHTkt3F2gCVMnpRuOR+lFQ9CygwZo2rLn/G5ACH1" ++
          "Jg==")]]
  ok := by decide +kernel

@[inherit_doc counterSignedMessage]
def counterSignedLibrary : As4Library := recipientLibrary counterSignedMessage onePartDigest

/-- `open_inbound` of the message, with the header of the verified signature. -/
def openCounterSigned (authenticated : AuthenticatedInbound) : Result VerifiedInbound :=
  openInboundAt verifiedHeader counterSignedLibrary signedSession profilePolicy authenticated
    recipientKeys rsaSuite 0 (mimeMessage counterSignedMessage) "multipart/related; boundary=b"

/-- Authentication, and opening with the header of the verified signature: the header of the
    message and its payloads. -/
def counterSignedOutcome : Result (Bool × List (Str × Bytes × Str)) := do
  let authenticated ← authenticateMessage counterSignedLibrary counterSignedMessage
  let verified ← openCounterSigned authenticated
  pure (decide (OpensNoPart profilePolicy authenticated.parsed authenticated.declared),
    verified.payloads)

theorem counterSignedOutcome_eq :
    counterSignedOutcome.toOption = some (false, onePartPayloads) := by
  unfold counterSignedOutcome authenticateMessage openCounterSigned
  rw [mimeMessage_eq]
  decide +kernel

theorem readInboundBody_doc {doc : Document} {pki : Pki} {ops : XmlEncOps}
    {session : SessionContext} {body : Bytes} {contentType : Str} {inbound : InboundBody}
    (h : readInboundBody ⟨parserFor doc, pki, ops⟩ session body contentType = .ok inbound) :
    doc = inbound.doc := by
  simp only [readInboundBody, parseAs4UserMessageDocument, Except.bind_eq_ok,
    Except.mapError_eq_ok, Except.pure_eq_ok] at h
  obtain ⟨_, -, _, -, doc', hdoc, rfl⟩ := h
  exact Except.ok.inj (parseXml_ok hdoc).2

/-- The signature of a message verifies and its parts open under the header of that signature,
    but a counter-signature in an earlier header block has the message refused. -/
theorem counter_signed_refused :
    ∃ authenticated verified, authenticateMessage counterSignedLibrary counterSignedMessage =
        .ok authenticated ∧
      openCounterSigned authenticated = .ok verified ∧ verified.payloads = onePartPayloads ∧
      ∀ verified', openMessage counterSignedLibrary counterSignedMessage authenticated ≠
        .ok verified' := by
  have h := Except.toOption_eq_some.mp counterSignedOutcome_eq
  simp only [counterSignedOutcome, Except.bind_eq_ok, Except.pure_eq_ok, Prod.mk.injEq,
    decide_eq_false_iff_not] at h
  obtain ⟨authenticated, hauth, verified, hopen, hopens, hpayloads⟩ := h
  refine ⟨authenticated, verified, hauth, hopen, hpayloads, fun verified' hopen' => ?_⟩
  obtain ⟨inbound, signed, ha⟩ := authenticateInbound_ok hauth
  have hsame := header_eq_of_openInboundAt hopen' hopen ha.read hopens
  rw [show inbound.doc = counterSignedMessage from (readInboundBody_doc ha.read).symm] at hsame
  have hpaths : (firstSignatureHeader counterSignedMessage).map Node.path ≠
      (verifiedHeader counterSignedMessage).map Node.path := by decide +kernel
  exact hpaths (by rw [hsame])

end Asx
