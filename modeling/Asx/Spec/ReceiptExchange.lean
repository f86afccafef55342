import Asx.ForStd.Trim
import Asx.Spec.ReceiptCheck
import Asx.Spec.SignalErrors

/-!
# Receipts between two endpoints

The receiver of a message drafts a receipt over the references of its signature, signs it and
sends it; the sender parses the bytes and compares them with the references that it signed. Both
sides take the references from the same `ds:SignedInfo`, and the parser of signatures accepts
only such as survive the trimming of the parser of signals.

Key results:
- `sentReferences_complete`: the references of a sent signature are read back unchanged
- `drafted_receipt_verified`: the receipt for them is verified evidence at the sender
-/

namespace Asx

open Xml

/-- Trimming twice is trimming once. -/
theorem Str.trim_trim (s : Str) : Str.trim (Str.trim s) = Str.trim s := by
  have h := Str.trim_takeWhile_trim (p := fun _ => true) (fun _ _ => rfl) s
  rwa [List.takeWhile_eq_self_iff.mpr fun _ _ => rfl,
    List.takeWhile_eq_self_iff.mpr fun _ _ => rfl] at h

/-- A text with nothing to trim is kept, unless it is empty. -/
theorem nonBlank_of_trimmed {s : Str} (htrim : Str.trim s = s) (hne : s ≠ []) :
    nonBlank s = some s := by
  rw [nonBlank, htrim, if_neg hne]

/-! ## The references of a sent signature -/

/-- A reference URI that the parser of signatures accepts has no space around it and is not empty. -/
theorem trimmed_of_parseReferenceUri {uri stage : Str} {parsed : ParsedReferenceUri}
    (h : parseReferenceUri uri stage = .ok parsed) : nonBlank uri = some uri := by
  simp only [parseReferenceUri, Except.bind_eq_ok, Except.rejectIf_eq_ok, not_not] at h
  obtain ⟨_, htrim, h⟩ := h
  -- an empty URI is neither a `#` reference nor a `cid:` one, so the parser refuses it
  apply nonBlank_of_trimmed htrim
  intro hempty
  subst hempty
  cases h

/-- The URIs of the digest methods survive trimming. -/
theorem nonBlank_algorithmUri (m : WsSecDigestMethod) :
    nonBlank m.algorithmUri = some m.algorithmUri := by
  cases m <;> decide

theorem nonBlank_of_trimmedText {n : Node} {s : Str} (h : trimmedText? n = some s) :
    nonBlank s = some s := by
  rw [trimmedText?, Option.filter_eq_some_iff, Option.map_eq_some_iff] at h
  obtain ⟨⟨raw, -, rfl⟩, hne⟩ := h
  exact nonBlank_of_trimmed (Str.trim_trim raw) (of_decide_eq_true hne)

/-- A reference that the parser of signatures gives is one that the parser of signals keeps. -/
theorem parsedReference_complete {seen : List ParsedReferenceUri} {node : Node}
    {r : WsSecSignatureReference} (h : parseSignatureReference seen node = .ok r) :
    trimmedReference r.toNri = some r.toNri := by
  simp only [parseSignatureReference, Except.bind_eq_ok, Except.okOr_eq_ok, Except.pure_eq_ok,
    Except.rejectIf_eq_ok] at h
  obtain ⟨uri, -, -, -, parsedUri, huri, -, -, -, -, methodUri, -, value, hvalue, method, -, rfl⟩ := h
  obtain ⟨n, -, hn⟩ := Option.bind_eq_some_iff.mp hvalue
  rw [trimmedReference, WsSecSignatureReference.toNri, trimmed_of_parseReferenceUri huri,
    nonBlank_algorithmUri, nonBlank_of_trimmedText hn]
  rfl

/-- `parse_signature_references` gives one reference for each node, and each survives trimming. -/
theorem parsedReferences_complete {seen : List ParsedReferenceUri} {nodes : List Node}
    {refs : List WsSecSignatureReference}
    (h : parseSignatureReferenceNodes seen nodes = .ok refs) :
    refs.length = nodes.length ∧ ∀ r ∈ refs, trimmedReference r.toNri = some r.toNri := by
  -- `seen` holds the URIs of the nodes before; it only decides what is refused
  induction nodes generalizing seen refs with
  | nil =>
    cases h
    exact ⟨rfl, fun r hr => absurd hr List.not_mem_nil⟩
  | cons node nodes ih =>
    simp only [parseSignatureReferenceNodes, Except.bind_eq_ok, Except.pure_eq_ok] at h
    obtain ⟨r, hr, rest, hrest, rfl⟩ := h
    obtain ⟨hlength, hall⟩ := ih hrest
    refine ⟨congrArg (· + 1) hlength, fun r' hr' => ?_⟩
    cases List.mem_cons.mp hr' with
    | inl heq => exact heq ▸ parsedReference_complete hr
    | inr hmem => exact hall r' hmem

/-- The references of a sent signature are read back unchanged, and they are few. -/
theorem sentReferences_complete {roxmltree : Roxmltree} {session : SessionContext}
    {messageId : Str} {sent : As4SendOutput} {refs : List As4NriReference}
    (h : sentSignatureReferences roxmltree session messageId sent = .ok refs) :
    refs.length ≤ 19 ∧ ∀ r ∈ refs, trimmedReference r = some r := by
  simp only [sentSignatureReferences, Except.bind_eq_ok, Except.mapError_eq_ok,
    Except.rejectIf_eq_ok, Except.pure_eq_ok] at h
  obtain ⟨_, -, _, -, parsed, hparsed, -, -, rfl⟩ := h
  simp only [parseSignatureReferences, parseSignatureReferencesFromDoc,
    parseSignatureReferencesFromSignedInfo, Except.bind_eq_ok, Except.pure_eq_ok] at hparsed
  obtain ⟨-, -, -, -, -, -, signedInfo, -, -, -, _, hcap, refs, hrefs, -, -, rfl⟩ := hparsed
  obtain ⟨hlength, hall⟩ := parsedReferences_complete hrefs
  rw [enforceReferenceCap, Except.rejectIf_eq_ok] at hcap
  refine ⟨?_, fun r hr => ?_⟩
  · rw [List.length_map, hlength]
    exact Nat.not_lt.mp hcap
  · obtain ⟨p, hp, rfl⟩ := List.mem_map.mp hr
    exact hall p hp

/-- Nothing of complete references is left out. -/
theorem filterMap_complete {refs : List As4NriReference}
    (h : ∀ r ∈ refs, trimmedReference r = some r) : refs.filterMap trimmedReference = refs := by
  have hmap := List.filterMap_congr h
  rw [hmap]
  exact List.filterMap_some

/-! ## The verdict of the sender -/

/-- A receipt that echoes what was sent has no unexpected reference. -/
theorem checkUnexpected_self (session : SessionContext) (policy : As4ReceiptPolicy)
    (messageId : Str) (refs : List As4NriReference) :
    checkUnexpected session policy messageId refs refs = .ok () := by
  have hnone : (refs.find? fun c => !refs.any fun s => s.uri == c.uri) = none := by
    apply List.find?_eq_none.mpr
    intro c hc
    have hany : refs.any (fun s => s.uri == c.uri) = true :=
      List.any_eq_true.mpr ⟨c, hc, beq_self_eq_true _⟩
    simp [hany]
  rw [checkUnexpected, hnone]

/-- A receipt with exactly the references of the sent signature is evidence for all of them: their
    URIs are distinct, so each finds itself, and its digest is compared with itself. -/
theorem verifyNonRepudiation_self {roxmltree : Roxmltree} {session : SessionContext}
    (policy : As4ReceiptPolicy) {messageId : Str} {sent : As4SendOutput}
    {refs : List As4NriReference}
    (hsent : sentSignatureReferences roxmltree session messageId sent = .ok refs)
    (hdigest : ∀ r ∈ refs, ∃ d, r.digest? = some d) :
    verifyNonRepudiation roxmltree session policy messageId sent refs = .ok (.verified refs) := by
  obtain ⟨hne, hnodup⟩ := sentSignatureReferences_ok hsent
  have hdistinct : checkDistinctUris session messageId [] refs = .ok () :=
    checkDistinctUris_eq_ok.mpr ⟨hnodup, fun e he => absurd he List.not_mem_nil⟩
  have hechoed : forM refs (checkEchoed session messageId refs) = .ok () := by
    apply Except.forM_eq_ok.mpr
    intro r hr
    obtain ⟨d, hd⟩ := hdigest r hr
    exact checkEchoed_eq_ok.mpr ⟨r, hnodup.find?_key hr rfl, ⟨rfl, rfl, d, hd, hd⟩⟩
  rw [verifyNonRepudiation, if_neg hne, hsent]
  show (do
    checkDistinctUris session messageId [] refs
    forM refs (checkEchoed session messageId refs)
    checkUnexpected session policy messageId refs refs
    pure (As4NonRepudiation.verified refs)) = _
  rw [hdistinct, hechoed, checkUnexpected_self]
  rfl

/-- For every message that was sent with a signature and every receiver that drafts a receipt over
    the references of that signature and finishes it with any header: the sender's parser reads
    from the bytes of the receipt the same references in the same order, and the check against the
    message that was sent says that they are verified, whatever the receipt policy. That the
    digests are base64 is what the receiver has checked when it verified the signature. The
    receipt is read from the document that its text stands for, which is what the sender's XML
    parser gives when it accepts the text as the XML standard reads it. -/
theorem drafted_receipt_verified (roxmltree receiver : Roxmltree) (session : SessionContext)
    (policy : As4ReceiptPolicy) (messageId : Str) (sent : As4SendOutput)
    (refs : List As4NriReference)
    (hsent : sentSignatureReferences roxmltree session messageId sent = .ok refs)
    (hdigest : ∀ r ∈ refs, ∃ d, r.digest? = some d) (digests : Digests) (now : SystemTime)
    (receiptId : Str) (algorithm : SignatureAlgorithm) (draft : ReceiptDraft)
    (hdraft : draftReceipt receiver digests now receiptId messageId refs algorithm = .ok draft)
    (header : Markup)
    (hmade : Made [.lit "S12", .lit "eb", .lit "ebbpsig", .lit "wsse", .lit "wsu", .lit "ds"] header)
    (honce : GivenOnce header) (hforeign : Foreign (.lit "eb") Ns.ebms3 header.tree) (bytes : Bytes)
    (hfinish : finishSignal draft (printed true [header]) = .ok bytes) (stage : Str) :
    ∃ text doc parsed, bytes = Str.utf8 text ∧ parse text = some doc ∧
      parseAs4SignalEnvelope doc session stage = .ok parsed ∧ parsed.nriReferences = refs ∧
      parsed.refToMessageId = nonBlank messageId ∧
      (∀ nodes read, (∀ accepted, roxmltree text nodes = .ok accepted → parse text = some accepted) →
        roxmltree text nodes = .ok read → read = doc) ∧
      verifyNonRepudiation roxmltree session policy messageId sent parsed.nriReferences =
        .ok (.verified refs) := by
  obtain ⟨hfew, hcomplete⟩ := sentReferences_complete hsent
  obtain ⟨text, doc, htext, hparse, hread⟩ := parse_signedReceipt hdraft hmade honce hforeign hfinish
  have hdropped : (refs.dropLast.filterMap trimmedReference).length < maxSignalNriReferences := by
    have hle := List.length_filterMap_le trimmedReference refs.dropLast
    rw [List.length_dropLast] at hle
    show _ < 256
    omega
  have hparsed := hread session stage
  rw [receiptAsRead, if_pos hdropped] at hparsed
  have hdoc : ∀ nodes read,
      (∀ accepted, roxmltree text nodes = .ok accepted → parse text = some accepted) →
      roxmltree text nodes = .ok read → read = doc := by
    intro nodes read hreads hread
    exact Option.some.inj ((hreads read hread).symm.trans hparse)
  refine ⟨text, doc, _, htext, hparse, hparsed, filterMap_complete hcomplete, rfl, hdoc, ?_⟩
  show verifyNonRepudiation roxmltree session policy messageId sent
    (refs.filterMap trimmedReference) = _
  rw [filterMap_complete hcomplete]
  exact verifyNonRepudiation_self policy hsent hdigest

/-- The receipt for the message of `sentDoc` is verified. -/
theorem drafted_receipt_verified_one :
    ∃ text doc parsed, parse text = some doc ∧
      parseAs4SignalEnvelope doc signedSession "read" = .ok parsed ∧
      verifyNonRepudiation (parserFor sentDoc) signedSession receiptPolicy (.lit "m@x") sentMessage
        parsed.nriReferences = .ok (.verified [exampleReference]) := by
  obtain ⟨draft, bytes, hdraft, hfinish⟩ := exists_finished_example
  have hsent : (sentSignatureReferences (parserFor sentDoc) signedSession (.lit "m@x")
      sentMessage).toOption = some [exampleReference] := by decide +kernel
  rw [Except.toOption_eq_some] at hsent
  have hdigest : ∀ r ∈ [exampleReference], ∃ d, r.digest? = some d := by
    have hsome : exampleReference.digest?.isSome = true := by decide +kernel
    obtain ⟨d, hd⟩ := Option.isSome_iff_exists.mp hsome
    intro r hr
    exact ⟨d, List.mem_singleton.mp hr ▸ hd⟩
  obtain ⟨text, doc, parsed, -, hdoc, hparsed, -, -, -, hverified⟩ := drafted_receipt_verified
    (parserFor sentDoc) roxmltreeReads signedSession receiptPolicy _ sentMessage _
    hsent hdigest _ _ _ _ _ hdraft emptySecurity made_emptySecurity
    givenOnce_emptySecurity foreign_emptySecurity _ hfinish "read"
  exact ⟨text, doc, parsed, hdoc, hparsed, hverified⟩

end Asx
