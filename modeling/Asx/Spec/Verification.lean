import Asx.Native.Verify
import Asx.Spec.ReferenceIndex

/-!
# What a successful verification has checked

Inversion lemmas for the verification pipeline: from a successful run, the facts its steps
established. Later results cite these and do not unfold the pipeline again.

## Key results
- `parseSignatureReferenceNodes_ok`: one reference for each `ds:Reference` element, with
  distinct targets
- `verifySignatureReferences_ok`: every same-document reference names one element and the
  digest of that element's canonical form
- `verifyEnvelopedSignatureOptionalWithDoc_ok`: the coverage is that of the parsed references
-/

namespace Asx

open Xml SameDocumentReferenceIndex

/-! ## Parsing references -/

/-- A same-document URI is `#` and its fragment. -/
theorem normalizeSameDocumentUri_ok {uri id : Str} (h : normalizeSameDocumentUri uri = .ok id) :
    uri = '#' :: id := by
  simp only [normalizeSameDocumentUri, Except.bind_eq_ok, Except.pure_eq_ok,
    Except.rejectIf_eq_ok] at h
  obtain ⟨-, -, -, hstart, -, -, -, -, -, -, -, -, -, -, -, -, -, -, -, -, hid⟩ := h
  cases uri with
  | nil => simp at hstart
  | cons c uri =>
    have hc : '#' = c := by simpa using hstart
    rw [← hc, ← hid]
    rfl

/-- What a parsed URI says about its text. -/
theorem parseReferenceUri_sameDocument {uri stage id : Str}
    (h : parseReferenceUri uri stage = .ok (.sameDocument id)) :
    uri = '#' :: id ∧ normalizeSameDocumentUri uri = .ok id := by
  simp only [parseReferenceUri, Except.bind_eq_ok, Except.rejectIf_eq_ok] at h
  obtain ⟨-, -, h⟩ := h
  split at h
  · simp only [Except.bind_eq_ok, Except.pure_eq_ok] at h
    obtain ⟨_, -, h⟩ := h
    cases h
  · split at h
    · simp only [Except.bind_eq_ok, Except.mapError_eq_ok, Except.pure_eq_ok,
        ParsedReferenceUri.sameDocument.injEq] at h
      obtain ⟨id', hid, rfl⟩ := h
      exact ⟨normalizeSameDocumentUri_ok hid, hid⟩
    · cases h

theorem isCidReferenceUri_hash (id : Str) : isCidReferenceUri ('#' :: id) = false := rfl

/-- A URI that starts with `#` is parsed as a same-document reference. -/
theorem parseReferenceUri_hash {stage id : Str} {parsed : ParsedReferenceUri}
    (h : parseReferenceUri ('#' :: id) stage = .ok parsed) : parsed = .sameDocument id := by
  have hstart : ['#'].isPrefixOf ('#' :: id) = true := by simp
  simp only [parseReferenceUri, isCidReferenceUri_hash, hstart, Bool.false_eq_true, if_false,
    if_true, Except.bind_eq_ok, Except.rejectIf_eq_ok, Except.mapError_eq_ok,
    Except.pure_eq_ok] at h
  obtain ⟨-, -, id', hid, rfl⟩ := h
  have := normalizeSameDocumentUri_ok hid
  rw [(List.cons.inj this).2]

/-- What the parser has checked of one reference. -/
theorem parseSignatureReference_ok {seen : List ParsedReferenceUri} {node : Node}
    {r : WsSecSignatureReference} (h : parseSignatureReference seen node = .ok r) :
    node.attribute? "URI" = some r.uri ∧
      parseReferenceUri r.uri "wssec_parse_references" = .ok r.parsedUri ∧
      r.parsedUri ∉ seen := by
  simp only [parseSignatureReference, Except.bind_eq_ok, Except.okOr_eq_ok, Except.pure_eq_ok,
    Except.rejectIf_eq_ok] at h
  obtain ⟨uri, huri, -, -, parsedUri, hparsed, -, hseen, -, -, -, -, -, -, -, -, rfl⟩ := h
  exact ⟨huri, hparsed, hseen⟩

/-- The references are those of the `ds:Reference` elements, in order and with distinct
    targets. -/
theorem parseSignatureReferenceNodes_ok {seen : List ParsedReferenceUri} {nodes : List Node}
    {refs : List WsSecSignatureReference}
    (h : parseSignatureReferenceNodes seen nodes = .ok refs) :
    List.Forall₂ (fun node r => node.attribute? "URI" = some r.uri ∧
        parseReferenceUri r.uri "wssec_parse_references" = .ok r.parsedUri) nodes refs ∧
      (refs.map WsSecSignatureReference.parsedUri).Nodup ∧
      ∀ r ∈ refs, r.parsedUri ∉ seen := by
  induction nodes generalizing seen refs with
  | nil =>
    cases h
    simp
  | cons node nodes ih =>
    simp only [parseSignatureReferenceNodes, Except.bind_eq_ok, Except.pure_eq_ok] at h
    obtain ⟨r, hr, rest, hrest, rfl⟩ := h
    obtain ⟨huri, hparsed, hseen⟩ := parseSignatureReference_ok hr
    obtain ⟨hall, hnodup, hnew⟩ := ih hrest
    refine ⟨.cons ⟨huri, hparsed⟩ hall, ?_, ?_⟩
    · rw [List.map_cons, List.nodup_cons]
      refine ⟨fun hmem => ?_, hnodup⟩
      obtain ⟨r', hr', he⟩ := List.mem_map.mp hmem
      exact hnew r' hr' (by simp [he])
    · intro r' hr'
      obtain rfl | hr' := List.mem_cons.mp hr'
      · exact hseen
      · exact fun hmem => hnew r' hr' (List.mem_cons_of_mem _ hmem)

/-! ## Digests -/

/-- The target ids of the same-document references, as the index is built for them. -/
def targetIds (references : List WsSecSignatureReference) : List Str :=
  collectSameDocumentTargetIds (references.filterMap WsSecSignatureReference.targetId?)

/-- The prefixes that a reference's transform adds to its canonicalization. -/
def WsSecSignatureReference.inclusiveOverride (r : WsSecSignatureReference) :
    Option (List Str) :=
  if r.inclusiveNsPrefixes = [] then none else some r.inclusiveNsPrefixes

/-- The canonicalization profile of a reference. -/
def WsSecSignatureReference.profile (r : WsSecSignatureReference) :
    WsSecCanonicalizationProfile :=
  { WsSecCanonicalizationProfile.exclusive with kind := r.c14nKind }

/-- The index resolved the reference to this node, and the reference's `DigestValue` is the
    digest of the node's canonical form. -/
structure DigestedFor (digests : Digests) (index : SameDocumentReferenceIndex)
    (r : WsSecSignatureReference) (n : Node) : Prop where
  resolved : ∃ id, r.parsedUri = .sameDocument id ∧
    resolveSameDocumentReferenceTargetWithIndex index r.uri id = .ok n
  digest : ∃ out, trySerializeNodeWithInclusiveNs r.profile r.inclusiveOverride n = some out ∧
    decodeReferenceDigestValue r.uri r.digestMethod r.digestValueBase64 =
      .ok (digests r.digestMethod (Str.utf8 out))

private theorem mem_foldl_collect {ids unique : List Str} {id : Str} :
    id ∈ ids.foldl (fun unique id => if id ∈ unique then unique else unique ++ [id]) unique ↔
      id ∈ unique ∨ id ∈ ids := by
  induction ids generalizing unique with
  | nil => simp
  | cons x ids ih =>
    rw [List.foldl_cons, ih]
    split
    · rename_i hx
      simp only [List.mem_cons]
      constructor
      · exact Or.imp_right Or.inr
      · rintro (h | rfl | h)
        · exact .inl h
        · exact .inl hx
        · exact .inr h
    · simp only [List.mem_append, List.mem_cons, or_assoc, List.not_mem_nil,
        or_false]

theorem mem_targetIds {references : List WsSecSignatureReference} {id : Str} :
    id ∈ targetIds references ↔ ∃ r ∈ references, r.parsedUri = .sameDocument id := by
  have htarget : ∀ r : WsSecSignatureReference,
      r.targetId? = some id ↔ r.parsedUri = .sameDocument id := by
    intro r
    unfold WsSecSignatureReference.targetId?
    cases r.parsedUri <;> simp
  simp only [targetIds, collectSameDocumentTargetIds, mem_foldl_collect, List.not_mem_nil,
    false_or, List.mem_filterMap, htarget]

/-- A successful check of a same-document reference has resolved and digested its target.
    The parser has normalized the URI to the target id, as the resolver does again. -/
theorem verifySignatureReference_ok {digests : Digests} {external : Option (OrdMap Str Bytes)}
    {index : SameDocumentReferenceIndex} {r : WsSecSignatureReference} {id : Str}
    (hid : r.parsedUri = .sameDocument id) (hnorm : normalizeSameDocumentUri r.uri = .ok id)
    (h : verifySignatureReference digests external index r = .ok ()) :
    ∃ n, DigestedFor digests index r n := by
  simp only [verifySignatureReference, computeReferenceDigest, hid, Except.bind_eq_ok,
    Except.mapError_eq_ok, canonicalizeReferenceDigestWithIndex, hnorm,
    canonicalizeReferenceDigestFromTarget, Except.okOr_eq_ok, Except.pure_eq_ok,
    verifyReferenceDigestMatches, Except.rejectIf_eq_ok, not_not] at h
  obtain ⟨computed, ⟨id', hid', n, hn, out, hout, rfl⟩, expected, hexp, heq⟩ := h
  cases hid'
  exact ⟨n, ⟨id, hid, hn⟩, out, hout, by rw [hexp, heq]⟩

/-- Deferring the attachments leaves the same-document references as they are. -/
theorem targetIds_filter (references : List WsSecSignatureReference) :
    targetIds (references.filter (·.targetId?.isSome)) = targetIds references := by
  unfold targetIds
  congr 1
  induction references with
  | nil => rfl
  | cons r rs ih =>
    cases hr : r.targetId? with
    | none => simp [hr, ih]
    | some id => simp [hr, ih]

/-- Every same-document reference was checked against one index. -/
theorem verifySignatureReferences_ok {digests : Digests} {doc : Document}
    {references : List WsSecSignatureReference} {parts : List (Str × Bytes)}
    (h : verifySignatureReferences digests doc references parts = .ok ()) :
    ∃ external, ∀ r ∈ references, r.targetId?.isSome →
      verifySignatureReference digests external (buildForTargets doc (targetIds references)) r =
        .ok () := by
  simp only [verifySignatureReferences, Except.bind_eq_ok, Except.forM_eq_ok] at h
  obtain ⟨external, -, h⟩ := h
  refine ⟨external, fun r hr ht => h r (List.mem_append_left _ ?_)⟩
  exact List.mem_filter.mpr ⟨hr, ht⟩

/-! ## The pipeline -/

/-- What the parsed envelope says about the document's signature. -/
theorem parseSignatureEnvelope_ok {doc : Document} {docClass : SignedDocClass}
    {parsed : ParsedWsSecSignatureEnvelope}
    (h : parseSignatureEnvelope doc docClass = .ok (some parsed)) :
    ∃ signature signedInfo, findSingleSignatureNode doc "wssec_parse_references" =
        .ok (some signature) ∧
      dsChild? signature "SignedInfo" = some signedInfo ∧
      parseSignatureReferenceNodes [] (referenceNodes signedInfo) = .ok parsed.references := by
  simp only [parseSignatureEnvelope, Except.bind_eq_ok] at h
  obtain ⟨found, hfound, h⟩ := h
  cases found with
  | none => cases h
  | some signature =>
    simp only [Except.bind_eq_ok, Except.okOr_eq_ok, Except.pure_eq_ok, Option.some.injEq,
      parseSignatureReferencesFromSignedInfo] at h
    obtain ⟨-, -, signedInfo, hinfo, refs, ⟨-, -, refs', hrefs, -, -, rfl⟩, -, -, rfl⟩ := h
    exact ⟨signature, signedInfo, hfound, hinfo, hrefs⟩

/-- A verification that succeeds has parsed the signature, and every same-document
    reference of it was resolved and digested. -/
theorem verifyEnvelopedSignatureOptionalWithDoc_ok {pki : Pki} {doc : Document}
    {docClass : SignedDocClass} {opts : WsSecVerifyOptions} {coverage : VerifiedSignatureCoverage}
    (h : verifyEnvelopedSignatureOptionalWithDoc pki doc docClass opts = .ok (some coverage)) :
    ∃ parsed, parseSignatureEnvelope doc docClass = .ok (some parsed) ∧
      coverage.signedSameDocumentIds =
        parsed.references.filterMap WsSecSignatureReference.targetId? ∧
      coverage.signedCidReferences = parsed.references.filterMap WsSecSignatureReference.cid? ∧
      coverage.deferred = (if opts.deferAttachments then
        some (parsed.references.filterMap WsSecSignatureReference.pending?) else none) ∧
      ∀ r ∈ parsed.references, ∀ id, r.parsedUri = .sameDocument id →
        ∃ n, DigestedFor pki.digests (buildForTargets doc (targetIds parsed.references)) r n := by
  simp only [verifyEnvelopedSignatureOptionalWithDoc, Except.bind_eq_ok] at h
  obtain ⟨parsed?, hparsed, h⟩ := h
  cases parsed? with
  | none => cases h
  | some parsed =>
    simp only [Except.bind_eq_ok, Except.pure_eq_ok, Option.some.injEq] at h
    obtain ⟨chain, hchain, rfl⟩ := h
    refine ⟨parsed, hparsed, rfl, rfl, rfl, fun r hr id hid => ?_⟩
    simp only [verifyEnvelopedSignatureWithParsedSignature, Except.bind_eq_ok] at hchain
    obtain ⟨_, -, _, hrefs, -⟩ := hchain
    have hsome : r.targetId?.isSome := by simp [WsSecSignatureReference.targetId?, hid]
    obtain ⟨_, _, _, _, hnodes⟩ := parseSignatureEnvelope_ok hparsed
    obtain ⟨node, -, -, hparse⟩ :=
      (parseSignatureReferenceNodes_ok hnodes).1.exists_left hr
    have hnorm := (parseReferenceUri_sameDocument (hid ▸ hparse)).2
    obtain ⟨external, hall⟩ := verifySignatureReferences_ok hrefs
    split at hall
    · rw [targetIds_filter] at hall
      exact verifySignatureReference_ok hid hnorm
        (hall r (List.mem_filter.mpr ⟨hr, hsome⟩) hsome)
    · exact verifySignatureReference_ok hid hnorm (hall r hr hsome)

end Asx
