import Asx.ForStd.List
import Asx.Native.Receipt
import Asx.Spec.Wrapping

/-!
# What a verified receipt says

The entries of a receipt against the references of the sent signature, and the signal message
against the signature of the receipt.

## Key results
- `non_repudiation_verified_iff`: the check is exact
- `signal_bound_iff`: when the signal message that is read is a digested node
-/

namespace Asx

open Xml SameDocumentReferenceIndex

/-! ## Non-repudiation -/

/-- The digest that an entry states. -/
def As4NriReference.digest? (r : As4NriReference) : Option Bytes :=
  Base64.decode (r.digestValueB64.filter fun c => !Str.isAsciiWhitespace c)

/-- Two entries name one URI, with the same algorithm and the same decoded digest. -/
structure Echoes (echoed sent : As4NriReference) : Prop where
  uri : echoed.uri = sent.uri
  method : echoed.digestMethodUri = sent.digestMethodUri
  digest : ∃ d, echoed.digest? = some d ∧ sent.digest? = some d

/-- The two lists are in bijection, and each entry of the receipt echoes its partner. -/
def InBijection (receipt sent : List As4NriReference) : Prop :=
  ∃ e : Fin receipt.length ≃ Fin sent.length, ∀ i, Echoes receipt[i] sent[e i]

section

variable {session : SessionContext} {messageId : Str}

theorem decodeXmlBase64_eq_ok {r : As4NriReference} {label stage : Str} {d : Bytes} :
    decodeXmlBase64 r.digestValueB64 label stage = .ok d ↔ r.digest? = some d :=
  Except.okOr_eq_ok

theorem checkDistinctUris_eq_ok {earlier refs : List As4NriReference} {u : Unit} :
    checkDistinctUris session messageId earlier refs = .ok u ↔
      (refs.map As4NriReference.uri).Nodup ∧ ∀ e ∈ earlier, ∀ r ∈ refs, e.uri ≠ r.uri := by
  induction refs generalizing earlier with
  | nil => simp [checkDistinctUris]
  | cons r refs ih =>
    simp only [checkDistinctUris, Except.bind_eq_ok, Except.rejectIf_eq_ok, ih, List.map_cons,
      List.nodup_cons, List.any_eq_true, beq_iff_eq, List.mem_append, List.mem_map,
      List.mem_cons, List.not_mem_nil, or_false]
    constructor
    · rintro ⟨-, hr, hnodup, hdistinct⟩
      refine ⟨⟨?_, hnodup⟩, ?_⟩
      · rintro ⟨r', hr', heq⟩
        exact hdistinct r (.inr rfl) r' hr' heq.symm
      · rintro e he r' (rfl | hr')
        · exact fun heq => hr ⟨e, he, heq⟩
        · exact hdistinct e (.inl he) r' hr'
    · rintro ⟨⟨hnew, hnodup⟩, hdistinct⟩
      refine ⟨(), ?_, hnodup, ?_⟩
      · rintro ⟨e, he, heq⟩
        exact hdistinct e he r (.inl rfl) heq
      · rintro e (he | rfl) r' hr'
        · exact hdistinct e he r' (.inr hr')
        · exact fun heq => hnew ⟨r', hr', heq.symm⟩

theorem checkEchoed_eq_ok {receipt : List As4NriReference} {sent : As4NriReference} {u : Unit} :
    checkEchoed session messageId receipt sent = .ok u ↔
      ∃ echoed, receipt.find? (fun c => c.uri == sent.uri) = some echoed ∧
        Echoes echoed sent := by
  simp only [checkEchoed, Except.bind_eq_ok, Except.okOr_eq_ok, Except.rejectIf_eq_ok, not_not,
    decodeXmlBase64_eq_ok]
  constructor
  · rintro ⟨echoed, hfind, -, hmethod, d, hd, d', hd', rfl⟩
    have huri : echoed.uri = sent.uri := by simpa using List.find?_some hfind
    exact ⟨echoed, hfind, huri, hmethod, d, hd, hd'⟩
  · rintro ⟨echoed, hfind, -, hmethod, d, hd, hd'⟩
    exact ⟨echoed, hfind, (), hmethod, d, hd, d, hd', rfl⟩

theorem checkUnexpected_eq_ok {policy : As4ReceiptPolicy} {sent receipt : List As4NriReference}
    {u : Unit} (hp : policy.rejectUnexpectedReferences = true) :
    checkUnexpected session policy messageId sent receipt = .ok u ↔
      ∀ c ∈ receipt, ∃ s ∈ sent, s.uri = c.uri := by
  unfold checkUnexpected
  split
  · rename_i c hc
    simp only [hp, Except.rejectIf_eq_ok, not_true_eq_false, false_iff]
    intro hall
    obtain ⟨s, hs, heq⟩ := hall c (List.mem_of_find?_eq_some hc)
    have hno := List.find?_some hc
    simp only [Bool.not_eq_true', List.any_eq_false, beq_iff_eq] at hno
    exact hno s hs heq
  · rename_i hnone
    simp only [true_iff]
    intro c hc
    have hany := List.find?_eq_none.mp hnone c hc
    rw [Bool.not_eq_true, Bool.not_eq_false', List.any_eq_true] at hany
    obtain ⟨s, hs, heq⟩ := hany
    exact ⟨s, hs, by simpa using heq⟩

/-- The references of a sent signature are at least one, with distinct URIs. -/
theorem sentSignatureReferences_ok {roxmltree : Roxmltree} {sent : As4SendOutput}
    {refs : List As4NriReference}
    (h : sentSignatureReferences roxmltree session messageId sent = .ok refs) :
    refs ≠ [] ∧ (refs.map As4NriReference.uri).Nodup := by
  simp only [sentSignatureReferences, Except.bind_eq_ok, Except.mapError_eq_ok,
    Except.rejectIf_eq_ok, Except.pure_eq_ok] at h
  obtain ⟨_, -, _, -, parsed, hparsed, -, hne, rfl⟩ := h
  refine ⟨by simpa using hne, ?_⟩
  simp only [parseSignatureReferences, parseSignatureReferencesFromDoc,
    parseSignatureReferencesFromSignedInfo, Except.bind_eq_ok, Except.pure_eq_ok] at hparsed
  obtain ⟨-, -, -, -, -, -, signedInfo, -, -, -, -, -, refs, hrefs, -, -, rfl⟩ := hparsed
  obtain ⟨hall, hnodup, -⟩ := parseSignatureReferenceNodes_ok hrefs
  -- the parsed URI is a function of the text, so distinct parsed URIs have distinct texts
  have hparse : refs.map (fun r => some r.parsedUri) = refs.map fun r =>
      (parseReferenceUri r.uri "wssec_parse_references").toOption := by
    refine List.map_congr_left fun r hr => ?_
    obtain ⟨-, -, -, hr⟩ := hall.exists_left hr
    exact (Except.toOption_eq_some.mpr hr).symm
  have hsome : (refs.map fun r => some r.parsedUri).Nodup := by
    have := hnodup.map (Option.some_injective _)
    rwa [List.map_map] at this
  rw [hparse] at hsome
  have huri : (refs.map WsSecSignatureReference.uri).Nodup := by
    refine List.Nodup.of_map
      (fun uri => (parseReferenceUri uri "wssec_parse_references").toOption) ?_
    rwa [List.map_map]
  rw [List.map_map]
  exact huri

/-- The passes of the check together say that the lists are in bijection. -/
theorem inBijection_iff {receipt sent : List As4NriReference}
    (hsent : (sent.map As4NriReference.uri).Nodup) :
    InBijection receipt sent ↔
      (receipt.map As4NriReference.uri).Nodup ∧
      (∀ s ∈ sent, ∃ echoed, receipt.find? (fun c => c.uri == s.uri) = some echoed ∧
        Echoes echoed s) ∧
      ∀ c ∈ receipt, ∃ s ∈ sent, s.uri = c.uri := by
  constructor
  · rintro ⟨e, he⟩
    have hnodup : (receipt.map As4NriReference.uri).Nodup :=
      List.nodup_keys_of_injective hsent e.injective fun i => (he i).uri
    refine ⟨hnodup, fun s hs => ?_, fun c hc => ?_⟩
    · obtain ⟨j, hj, rfl⟩ := List.getElem_of_mem hs
      have hecho : Echoes receipt[e.symm ⟨j, hj⟩] sent[j] := by
        have h := he (e.symm ⟨j, hj⟩)
        simpa using h
      exact ⟨_, hnodup.find?_key (List.getElem_mem _) hecho.uri, hecho⟩
    · obtain ⟨i, hi, rfl⟩ := List.getElem_of_mem hc
      exact ⟨_, List.getElem_mem _, (he ⟨i, hi⟩).uri.symm⟩
  · rintro ⟨hnodup, hecho, hexpected⟩
    obtain ⟨e, he⟩ := List.exists_equiv_of_keys hnodup hsent hexpected fun s hs => by
      obtain ⟨echoed, hfind, h⟩ := hecho s hs
      exact ⟨echoed, List.mem_of_find?_eq_some hfind, h.uri⟩
    refine ⟨e, fun i => ?_⟩
    obtain ⟨echoed, hfind, h⟩ := hecho sent[e i] (List.getElem_mem _)
    have hsame : receipt[i] = echoed :=
      Option.some.inj ((hnodup.find?_key (List.getElem_mem i.2) (he i)).symm.trans hfind)
    rw [hsame]
    exact h

end

/-- **Non-repudiation of receipt**: with unexpected references refused, the check returns
    `Verified` exactly when the entries of the receipt and the references of the sent signature
    are in bijection by URI, with equal algorithms and equal decoded digests. -/
theorem non_repudiation_verified_iff (roxmltree : Roxmltree) (session : SessionContext)
    (policy : As4ReceiptPolicy) (messageId : Str) (sent : As4SendOutput)
    (receipt : List As4NriReference) (hp : policy.rejectUnexpectedReferences = true) :
    (∃ references, verifyNonRepudiation roxmltree session policy messageId sent receipt =
        .ok (.verified references)) ↔
      ∃ sentRefs, sentSignatureReferences roxmltree session messageId sent = .ok sentRefs ∧
        InBijection receipt sentRefs := by
  unfold verifyNonRepudiation
  constructor
  · rintro ⟨references, h⟩
    split at h
    · simp only [Except.bind_eq_ok, Except.pure_eq_ok, reduceCtorEq, and_false, exists_false] at h
    · simp only [Except.bind_eq_ok, Except.pure_eq_ok, Except.forM_eq_ok, checkEchoed_eq_ok,
        checkDistinctUris_eq_ok, checkUnexpected_eq_ok hp] at h
      obtain ⟨sentRefs, hsent, -, ⟨hnodup, -⟩, -, hecho, -, hexpected, -⟩ := h
      exact ⟨sentRefs, hsent,
        (inBijection_iff (sentSignatureReferences_ok hsent).2).mpr ⟨hnodup, hecho, hexpected⟩⟩
  · rintro ⟨sentRefs, hsent, hbij⟩
    obtain ⟨hne, hdistinct⟩ := sentSignatureReferences_ok hsent
    have hreceipt : receipt ≠ [] := by
      rintro rfl
      obtain ⟨e, -⟩ := hbij
      exact (e.symm ⟨0, List.length_pos_of_ne_nil hne⟩).elim0
    obtain ⟨hnodup, hecho, hexpected⟩ := (inBijection_iff hdistinct).mp hbij
    rw [if_neg hreceipt]
    refine ⟨receipt, ?_⟩
    simp only [Except.bind_eq_ok, Except.pure_eq_ok, Except.forM_eq_ok, checkEchoed_eq_ok,
      checkDistinctUris_eq_ok, checkUnexpected_eq_ok hp]
    exact ⟨sentRefs, hsent, (), ⟨hnodup, by simp⟩, (), hecho, (), hexpected, trivial⟩

/-- The envelope of a sent message, with these references in its signature. -/
def sentEnvelope (references : List Tree) : List Tree :=
  soapEnvelope [element (.lit "wsse") (.lit "Security") []
    [element (.lit "ds") (.lit "Signature") [] [
      element (.lit "ds") (.lit "SignedInfo") [] references,
      leaf (.lit "ds") (.lit "SignatureValue") (.lit "AA==")]]]

/-- The reference to the header. -/
def headerReference : Tree :=
  dsReference "#m" (.c14n .exclusive) (.lit "IYuHPBbVadW3xZLmxMBKv8vPed9sxDZ5Lr3vgzHAduY=")

/-- A sent message whose signature covers the header. -/
def sentDoc : Document where
  children := sentEnvelope [headerReference]
  ok := by decide +kernel

/-- The message as it was sent. -/
def sentMessage : As4SendOutput :=
  ⟨"m@x", Str.utf8 (documentText sentDoc), "application/soap+xml"⟩

/-- A sent message whose signature covers the header and a part. -/
def sentPartDoc : Document where
  children := sentEnvelope [headerReference, dsReference "cid:p@x" .attachmentContent
    (.lit "sU6TNaUbqafHqiub3ulPJSr/ZEftMlH3IOKzZ/tFj0Q=")]
  ok := by decide +kernel

@[inherit_doc sentPartDoc]
def sentPartMessage : As4SendOutput :=
  ⟨"m@x", Str.utf8 (documentText sentPartDoc), "application/soap+xml"⟩

/-- A reference with a SHA-256 digest. -/
def sha256Reference (uri digest : Str) : As4NriReference :=
  ⟨uri, WsSecDigestMethod.sha256.algorithmUri, digest⟩

/-- Two such references echo each other when the digests are the same octets, however they are
    written. -/
theorem echoes_sha256 (uri digest digest' : Str)
    (h : (sha256Reference uri digest).digest? = (sha256Reference uri digest').digest? ∧
      (sha256Reference uri digest').digest?.isSome = true) :
    Echoes (sha256Reference uri digest) (sha256Reference uri digest') := by
  obtain ⟨d, hd⟩ := Option.isSome_iff_exists.mp h.2
  exact ⟨rfl, rfl, d, h.1.trans hd, hd⟩

/-- The references of the sent signature. -/
def sentReferences : List As4NriReference :=
  [sha256Reference "#m" (.lit "IYuHPBbVadW3xZLmxMBKv8vPed9sxDZ5Lr3vgzHAduY="),
    sha256Reference "cid:p@x" (.lit "sU6TNaUbqafHqiub3ulPJSr/ZEftMlH3IOKzZ/tFj0Q=")]

/-- The receipt's entries for them in another order, one digest written over two lines. -/
def echoedReferences : List As4NriReference :=
  [sha256Reference "cid:p@x" (.lit "sU6TNaUbqafHqiub3ulPJSr/ZEftMlH3IOKzZ/tFj0Q="),
    sha256Reference "#m" (Str.lit "IYuHPBbVadW3xZLmxMBKv8vPed9s" ++ "\n" ++
      Str.lit "xDZ5Lr3vgzHAduY=")]

/-- A profile's receipt policy. -/
def receiptPolicy : As4ReceiptPolicy :=
  ⟨true, true, true, none, some (300 * 1000000000), 262144⟩

/-- The receipt of the sent message is verified. -/
theorem non_repudiation_verified_reordered :
    ∃ references, verifyNonRepudiation (parserFor sentPartDoc) signedSession receiptPolicy "m@x"
      sentPartMessage echoedReferences = .ok (.verified references) := by
  refine (non_repudiation_verified_iff _ _ _ _ _ _ rfl).mpr ⟨sentReferences, ?_, ?_⟩
  · have h : (sentSignatureReferences (parserFor sentPartDoc) signedSession "m@x"
        sentPartMessage).toOption = some sentReferences := by
      rw [sentPartMessage, utf8_documentText]
      decide +kernel
    exact Except.toOption_eq_some.mp h
  · have hpart : Echoes echoedReferences[0] sentReferences[1] :=
      echoes_sha256 _ _ _ (by decide +kernel)
    have hheader : Echoes echoedReferences[1] sentReferences[0] :=
      echoes_sha256 _ _ _ (by decide +kernel)
    exact ⟨(Equiv.swap 0 1 : Equiv.Perm (Fin 2)), Fin.forall_fin_two.mpr ⟨hpart, hheader⟩⟩

/-! ## The signal message -/

/-- The verdict on a receipt rests on digested content: the one `eb:SignalMessage` lies in a
    node that was digested for a reference of the signature, and so do the elements that the
    `RefToMessageId` and the entries are read from. -/
structure SignalBound (digests : Digests) (doc : Document)
    (references : List WsSecSignatureReference) (parsed : ParsedAs4SignalEnvelope)
    (signal n : Node) : Prop where
  only : signalNodes doc = [signal]
  digested : ∃ r ∈ references,
    DigestedFor digests (buildForTargets doc (targetIds references)) r n
  inside : signal ∈ n.descendants
  refTo : ∀ v ∈ parsed.refToMessageId, ∃ m ∈ n.descendants, isEb m "RefToMessageId" ∧
    elementText m = some v
  entries : ∀ e ∈ parsed.nriReferences, ∃ m ∈ n.descendants, isDsElement m "Reference" ∧
    nriReference? m = some e

/-- The `eb:SignalMessage` or an ancestor of it carries, in `wsu:Id`, an unqualified `Id` or
    `xml:id`, an id that a reference of the document's signature names. -/
def SignalCarriesSignedId (doc : Document) : Prop :=
  ∃ signal ∈ signalNodes doc, ∃ n ∈ signal.ancestors, ∃ a ∈ n.tree.attrs,
    isReferenceIdAttr (n.attrNs a) a.name.loc ∧ '#' :: a.value ∈ signedUris doc

instance (doc : Document) : Decidable (SignalCarriesSignedId doc) :=
  inferInstanceAs (Decidable (∃ signal ∈ signalNodes doc, ∃ n ∈ signal.ancestors,
    ∃ a ∈ n.tree.attrs, _))

/-- The values read so far come from the subtree of the signal message. -/
private def SignalInv (signal : Node) (out : ParsedAs4SignalEnvelope) : Prop :=
  (∀ v ∈ out.refToMessageId, ∃ m ∈ signal.descendants, isEb m "RefToMessageId" ∧
    elementText m = some v) ∧
  ∀ e ∈ out.nriReferences, ∃ m ∈ signal.descendants, isDsElement m "Reference" ∧
    nriReference? m = some e

/-- A slot holds what it held, or the text of one of the elements. -/
private theorem fillSlot_foldlM {session : SessionContext} {stage loc : Str} {nodes : List Node}
    {slot slot' : Option Str}
    (h : nodes.foldlM (fillSlot session stage loc) slot = .ok slot') :
    ∀ v ∈ slot', v ∈ slot ∨ ∃ m ∈ nodes, elementText m = some v := by
  refine Except.foldlM_invariant
    (P := fun s : Option Str => ∀ v ∈ s, v ∈ slot ∨ ∃ m ∈ nodes, elementText m = some v) h
    (fun v hv => .inl hv) ?_
  intro m hm s s' hs hstep v hv
  unfold fillSlot at hstep
  split at hstep
  · cases hstep
    exact hs v hv
  · rename_i value hvalue
    simp only [Except.bind_eq_ok, Except.pure_eq_ok] at hstep
    obtain ⟨-, -, rfl⟩ := hstep
    cases hv
    exact .inr ⟨m, hm, hvalue⟩

private theorem readMessageInfo_inv {session : SessionContext} {stage : Str} {signal info : Node}
    {out out' : ParsedAs4SignalEnvelope} (hinfo : info ∈ signal.descendants)
    (hout : SignalInv signal out) (h : readMessageInfo session stage out info = .ok out') :
    SignalInv signal out' := by
  simp only [readMessageInfo, Except.bind_eq_ok, Except.pure_eq_ok] at h
  obtain ⟨-, -, refTo, hrefTo, -, -, rfl⟩ := h
  refine ⟨fun v hv => ?_, hout.2⟩
  obtain hv | ⟨m, hm, htext⟩ := fillSlot_foldlM hrefTo v hv
  · exact hout.1 v hv
  · obtain ⟨hm, htag⟩ := List.mem_filter.mp hm
    exact ⟨m, mem_descendants_trans hinfo hm, htag, htext⟩

private theorem readReceipt_inv {session : SessionContext} {stage : Str} {signal receipt : Node}
    {out out' : ParsedAs4SignalEnvelope} (hreceipt : receipt ∈ signal.descendants)
    (hout : SignalInv signal out) (h : readReceipt session stage out receipt = .ok out') :
    SignalInv signal out' := by
  simp only [readReceipt, Except.bind_eq_ok, Except.pure_eq_ok] at h
  obtain ⟨refs, hrefs, rfl⟩ := h
  refine ⟨hout.1, ?_⟩
  refine Except.foldlM_invariant
    (P := fun refs : List As4NriReference => ∀ e ∈ refs, ∃ m ∈ signal.descendants,
      isDsElement m "Reference" ∧ nriReference? m = some e) hrefs hout.2 ?_
  intro m hm refs refs' hinv hstep e he
  simp only [addNriReference, Except.bind_eq_ok, Except.pure_eq_ok] at hstep
  obtain ⟨-, -, rfl⟩ := hstep
  rcases List.mem_append.mp he with he | he
  · exact hinv e he
  · obtain ⟨nri, hnri, hm⟩ := List.mem_flatMap.mp hm
    obtain ⟨hm, htag⟩ := List.mem_filter.mp hm
    have hnri := mem_descendants_trans hreceipt (List.mem_of_mem_filter hnri)
    exact ⟨m, mem_descendants_trans hnri hm, htag, Option.mem_toList.mp he⟩

/-- What the parser reads comes from the one signal message of the document. -/
theorem parseAs4SignalEnvelope_ok {doc : Document} {session : SessionContext} {stage : Str}
    {parsed : ParsedAs4SignalEnvelope} {signal : Node}
    (h : parseAs4SignalEnvelope doc session stage = .ok parsed)
    (hsignal : signalNodes doc = [signal]) :
    (∀ v ∈ parsed.refToMessageId, ∃ m ∈ signal.descendants, isEb m "RefToMessageId" ∧
      elementText m = some v) ∧
    ∀ e ∈ parsed.nriReferences, ∃ m ∈ signal.descendants, isDsElement m "Reference" ∧
      nriReference? m = some e := by
  simp only [parseAs4SignalEnvelope, Except.bind_eq_ok, hsignal, readSignal,
    Except.pure_eq_ok] at h
  obtain ⟨-, -, out, hinfo, out', hreceipt, rfl⟩ := h
  have hinit : SignalInv signal
      { hasSignalMessage := true
        hasSignature := doc.descendants.any (isDsElement · "Signature") } := by
    constructor
    · intro v hv
      cases hv
    · intro e he
      cases he
  have hout : SignalInv signal out :=
    Except.foldlM_invariant (P := SignalInv signal) hinfo hinit
      fun info hi _ _ hinv hstep => readMessageInfo_inv (List.mem_of_mem_filter hi) hinv hstep
  have hout' : SignalInv signal out' :=
    Except.foldlM_invariant (P := SignalInv signal) hreceipt hout
      fun receipt hr _ _ hinv hstep => readReceipt_inv (List.mem_of_mem_filter hr) hinv hstep
  exact hout'

/-- What a verified signature of a receipt has established. -/
theorem verifyReceiptSignature_ok {pki : Pki} {session : SessionContext}
    {policy : As4ReceiptPolicy} {chainPolicy : ChainPolicy} {pins : Result (List Bytes)}
    {now : SystemTime} {messageId : Str} {doc : Document} {parsed : ParsedAs4SignalEnvelope}
    {signer : VerifiedReceiptSigner} (hsig : parsed.hasSignature = true)
    (h : verifyReceiptSignature pki session policy chainPolicy pins now messageId doc parsed =
      .ok signer) :
    ∃ opts coverage signal, verifyEnvelopedSignatureOptionalWithDoc pki doc .signal opts =
        .ok (some coverage) ∧ signalNodes doc = [signal] := by
  simp only [verifyReceiptSignature, hsig, if_true, verifyPresentSignature, Except.bind_eq_ok] at h
  obtain ⟨pins', -, -, -, coverage, hcoverage, _, hsignal, -⟩ := h
  unfold verifiedReceiptCoverage at hcoverage
  split at hcoverage
  · rename_i coverage' hv
    unfold enforceSignalSignatureCoverage at hsignal
    split at hsignal
    · rename_i signal hone
      exact ⟨_, coverage', signal, hv, hone⟩
    · cases hsignal
  · cases hcoverage
  · cases hcoverage

/-- A digested node around the signal message carries a signed id. -/
theorem SignalBound.signalCarriesSignedId {digests : Digests} {doc : Document}
    {signed : ParsedWsSecSignatureEnvelope} {parsed : ParsedAs4SignalEnvelope} {signal n : Node}
    (hp : parseSignatureEnvelope doc .signal = .ok (some signed))
    (h : SignalBound digests doc signed.references parsed signal n) :
    SignalCarriesSignedId doc := by
  obtain ⟨r, hr, hd⟩ := h.digested
  obtain ⟨id, hid, hc⟩ := hd.carries hr
  obtain ⟨hn, -, a, ha, hattr, hval⟩ := mem_of_carriers_eq hc
  have hsignal : signal ∈ signalNodes doc := by simp [h.only]
  have hanc : n ∈ signal.ancestors :=
    (Document.mem_ancestors_iff (List.mem_of_mem_filter hsignal)).mpr ⟨hn, h.inside⟩
  refine ⟨signal, hsignal, n, hanc, a, ha, hattr, ?_⟩
  rw [hval]
  exact (hash_mem_signedUris hp).mpr ⟨r, hr, hid⟩

/-- **Signal safety**: when the signature of a receipt verifies, the verdict rests on digested
    content exactly when the `eb:SignalMessage` or an ancestor of it carries a signed id in
    `wsu:Id`, an unqualified `Id` or `xml:id`. -/
theorem signal_bound_iff (pki : Pki) (session : SessionContext) (policy : As4ReceiptPolicy)
    (chainPolicy : ChainPolicy) (pins : Result (List Bytes)) (now : SystemTime) (messageId : Str)
    (doc : Document) (parsed : ParsedAs4SignalEnvelope) (signer : VerifiedReceiptSigner)
    (hparsed : parseAs4SignalEnvelope doc session syncResponseStage = .ok parsed)
    (hsig : parsed.hasSignature = true)
    (h : verifyReceiptSignature pki session policy chainPolicy pins now messageId doc parsed =
      .ok signer) :
    (∃ signed signal n, parseSignatureEnvelope doc .signal = .ok (some signed) ∧
      SignalBound pki.digests doc signed.references parsed signal n) ↔
    SignalCarriesSignedId doc := by
  constructor
  · rintro ⟨signed, signal, n, hp, hbound⟩
    exact hbound.signalCarriesSignedId hp
  · rintro ⟨signal, hsignal, n, hanc, a, ha, hattr, huri⟩
    obtain ⟨opts, coverage, one, hv, hone⟩ := verifyReceiptSignature_ok hsig h
    rw [hone, List.mem_singleton] at hsignal
    subst hsignal
    obtain ⟨signed, hp, -, -, -, hdig⟩ := verifyEnvelopedSignatureOptionalWithDoc_ok hv
    obtain ⟨r, hr, hid⟩ := (hash_mem_signedUris hp).mp huri
    obtain ⟨m, hm⟩ := hdig r hr _ hid
    obtain ⟨id, hid', hcar⟩ := hm.carries hr
    rw [hid, ParsedReferenceUri.sameDocument.injEq] at hid'
    subst hid'
    -- the ancestor is a carrier of the id, so it is the node that was digested
    have hdoc : signal ∈ doc.descendants :=
      List.mem_of_mem_filter (show signal ∈ signalNodes doc by simp [hone])
    obtain ⟨hn, hinside⟩ := (Document.mem_ancestors_iff hdoc).mp hanc
    have hmem : n ∈ carriers doc a.value := mem_carriers hn ha hattr
    rw [hcar, List.mem_singleton] at hmem
    subst hmem
    obtain ⟨hrefTo, hentries⟩ := parseAs4SignalEnvelope_ok hparsed hone
    refine ⟨signed, signal, n, hp, hone, ⟨r, hr, hm⟩, hinside, fun v hv => ?_, fun e he => ?_⟩
    · obtain ⟨k, hk, htag, htext⟩ := hrefTo v hv
      exact ⟨k, mem_descendants_trans hinside hk, htag, htext⟩
    · obtain ⟨k, hk, htag, hread⟩ := hentries e he
      exact ⟨k, mem_descendants_trans hinside hk, htag, hread⟩

/-- A receipt for the message `m@x`, with the reference of its header. -/
def receiptSignal : Tree :=
  element (.lit "eb") (.lit "SignalMessage") [] [
    element (.lit "eb") (.lit "MessageInfo") []
      [leaf (.lit "eb") (.lit "RefToMessageId") (.lit "m@x")],
    element (.lit "eb") (.lit "Receipt") [] [
      .element ⟨.lit "ebbpsig", .lit "NonRepudiationInformation"⟩
        [(.lit "ebbpsig", Ns.ebbpSignals)] [] [
          element (.lit "ebbpsig") (.lit "MessagePartNRInformation") [] [headerReference]]]]

/-- The receipt with its header signed under the header's `wsu:Id`. -/
def signedReceiptDoc : Document where
  children := soapEnvelope [
    element (.lit "eb") (.lit "Messaging") [(.lit "wsu", .lit "Id", .lit "m")] [receiptSignal],
    element (.lit "wsse") (.lit "Security") [] [signature
      [dsReference "#m" (.c14n .exclusive) (.lit "qyXDQwcPv6jQ+W0ryOb32ZVwaFrUGnEJsaP16BiEkDo=")]
      (Str.lit "h3rkBXQtMA5O7p2G9Qv60waBsf8vsVu7f3o61JMsAZpwQyWJZqEvTdD35WJALtHd8mqhCJte35vxCndtzPzZ" ++
        Str.lit "lg==")]]
  ok := by decide +kernel

/-- `signerPki` with the SHA-256 of the canonical header of `signedReceiptDoc`. -/
def signedReceiptPki : Pki := signerPki fun _ =>
  (Base64.decode (.lit "qyXDQwcPv6jQ+W0ryOb32ZVwaFrUGnEJsaP16BiEkDo=")).getD []

/-- The parser and the signature check of a receipt, with the signer pinned. -/
def receiptSigner (pki : Pki) (doc : Document) (parsed : ParsedAs4SignalEnvelope) :
    Result VerifiedReceiptSigner :=
  verifyReceiptSignature pki signedSession receiptPolicy signedOptions.chainPolicy
    (.ok [signerFingerprint]) 0 "m@x" doc parsed

/-- The receipt for `m@x` is parsed, and its signature verifies. -/
def receiptAccepted (pki : Pki) (doc : Document) : Bool :=
  match parseAs4SignalEnvelope doc signedSession syncResponseStage with
  | .ok parsed => parsed.hasSignature && parsed.refToMessageId == some "m@x" &&
      (receiptSigner pki doc parsed).isOk
  | .error _ => false

theorem receiptAccepted_eq_true {pki : Pki} {doc : Document}
    (h : receiptAccepted pki doc = true) :
    ∃ parsed signer, parseAs4SignalEnvelope doc signedSession syncResponseStage = .ok parsed ∧
      parsed.hasSignature = true ∧ receiptSigner pki doc parsed = .ok signer := by
  unfold receiptAccepted at h
  split at h
  · rename_i parsed hparsed
    rw [Bool.and_eq_true, Bool.and_eq_true] at h
    cases hs : receiptSigner pki doc parsed with
    | error e =>
      rw [hs] at h
      cases h.2
    | ok signer => exact ⟨parsed, signer, hparsed, h.1.1, hs⟩
  · cases h

/-- The signal message of `signedReceiptDoc` is digested. -/
theorem signal_bound_signed_receipt :
    ∃ parsed signer signed signal n,
      parseAs4SignalEnvelope signedReceiptDoc signedSession syncResponseStage = .ok parsed ∧
      receiptSigner signedReceiptPki signedReceiptDoc parsed = .ok signer ∧
      parseSignatureEnvelope signedReceiptDoc .signal = .ok (some signed) ∧
      SignalBound signedReceiptPki.digests signedReceiptDoc signed.references parsed signal n := by
  have h : receiptAccepted signedReceiptPki signedReceiptDoc = true := by decide +kernel
  obtain ⟨parsed, signer, hparsed, hsig, hsigner⟩ := receiptAccepted_eq_true h
  have hc : SignalCarriesSignedId signedReceiptDoc := by decide +kernel
  obtain ⟨signed, signal, n, hp, hbound⟩ :=
    (signal_bound_iff _ _ _ _ _ _ _ _ _ _ hparsed hsig hsigner).mpr hc
  exact ⟨parsed, signer, signed, signal, n, hparsed, hsigner, hp, hbound⟩

/-- Only the body is signed, under the id `b`; an attribute `Id` of a foreign namespace gives
    the header of the receipt the same value. -/
def lookalikeReceiptDoc : Document where
  children := soapEnvelope [
    .element ⟨.lit "eb", .lit "Messaging"⟩ [(.lit "x", .lit "urn:x")]
      [⟨⟨.lit "x", .lit "Id"⟩, .lit "b"⟩] [receiptSignal],
    element (.lit "wsse") (.lit "Security") [] [signature
      [dsReference "#b" (.c14n .exclusive) (.lit "L8HikvdgMzMDKCBNcEihIl+zLEVHEZeZViXjQ4BexH8=")]
      (Str.lit "riPMVjWcPLFcmOvO7aIbFi3IoI36ElPwqwfoC0HVUt3ZBj1xxpb5NtiwAYoFJyuhEbwS1Fy4EOdmM4ZUKdwF" ++
        "bA==")]]
  ok := by decide +kernel

/-- The signature of `lookalikeReceiptDoc` is accepted, but no reference covers its signal
    message. -/
theorem signal_not_bound_lookalike_id :
    ∃ parsed signer,
      parseAs4SignalEnvelope lookalikeReceiptDoc signedSession syncResponseStage = .ok parsed ∧
      parsed.hasSignature = true ∧
      receiptSigner lookalikePki lookalikeReceiptDoc parsed = .ok signer ∧
      ¬ ∃ signed signal n, parseSignatureEnvelope lookalikeReceiptDoc .signal =
          .ok (some signed) ∧
        SignalBound lookalikePki.digests lookalikeReceiptDoc signed.references parsed signal n := by
  have h : receiptAccepted lookalikePki lookalikeReceiptDoc = true := by decide +kernel
  obtain ⟨parsed, signer, hparsed, hsig, hsigner⟩ := receiptAccepted_eq_true h
  refine ⟨parsed, signer, hparsed, hsig, hsigner, ?_⟩
  rintro ⟨signed, signal, n, hp, hbound⟩
  have hc : ¬ SignalCarriesSignedId lookalikeReceiptDoc := by decide +kernel
  exact hc (hbound.signalCarriesSignedId hp)

end Asx
