import Asx.Spec.PayloadIntegrity

/-!
# The references of a `ds:SignedInfo`

The parser returns one entry for each `ds:Reference` element, in document order, with what
that element says, and no two entries with the same key. The key is the name that the
verifier looks an attachment up by. The receive path compares the same names after
`normalize_cid`, which takes one more `cid:` scheme off, so two entries that differ for the
verifier may name one attachment there.

## Key results
- `parseReferenceTransformProfile_ok`: the transform chain is that of the element
- `coverageNormalizeCid_cid`: what the receive path makes of an accepted name
- `referenceTargets_distinct_iff`: when the targets are distinct for both
-/

namespace Asx

open Xml

/-! ## Transforms -/

/-- The `ds:Transform` elements of a reference. -/
def transformNodes (reference : Node) : List Node :=
  match dsChild? reference "Transforms" with
  | none => []
  | some transforms => transforms.children.filter (isDsElement · "Transform")

/-- What a transform's `Algorithm` names. -/
def transformAlg? (transform : Node) : Option TransformAlg :=
  (TransformAlg.fromUri ((transform.attribute? "Algorithm").getD [])).toOption

/-- The canonicalization a transform names. -/
def transformKind? (transform : Node) : Option WsSecCanonicalizationKind :=
  match transformAlg? transform with
  | some (.c14n kind) => some kind
  | _ => none

/-- The tokens of the `PrefixList`s under a transform. -/
def prefixListOf (transform : Node) : List Str :=
  (transform.children.filter Node.isElement).flatMap fun child =>
    ((child.attribute? "PrefixList").map Str.splitAsciiWhitespace).getD []

/-- The prefixes a transform adds: an inclusive canonicalization has none. -/
def transformPrefixes (transform : Node) : List Str :=
  if transformKind? transform = some .exclusive then prefixListOf transform else []

/-- The transform chain of a reference element: the canonicalization is that of the last
    transform and the prefixes are those of all, or every transform is that of an attachment's
    content. -/
structure HasTransformChain (reference : Node) (r : WsSecSignatureReference) : Prop where
  sameDocument : ∀ id, r.parsedUri = .sameDocument id →
    (∀ t ∈ transformNodes reference, (transformKind? t).isSome) ∧
      r.c14nKind = (((transformNodes reference).filterMap transformKind?).getLast?).getD
        .inclusive ∧
      r.inclusiveNsPrefixes = (transformNodes reference).flatMap transformPrefixes
  attachment : ∀ name, r.parsedUri = .cid name →
    (∀ t ∈ transformNodes reference, transformAlg? t = some .attachmentContent) ∧
      r.c14nKind = .exclusive ∧ r.inclusiveNsPrefixes = []

/-- The prefixes of a transform that is accepted. -/
theorem inclusiveNamespaces_ok {unsupportedChild : Str → Str → AsxError} {n : Node}
    {prefixes : List Str} (h : inclusiveNamespaces unsupportedChild n = .ok prefixes) :
    prefixes = prefixListOf n := by
  unfold inclusiveNamespaces at h
  suffices hacc : prefixes = [] ++ prefixListOf n from hacc
  generalize ([] : List Str) = acc at h ⊢
  unfold prefixListOf
  generalize n.children.filter Node.isElement = children at h ⊢
  induction children generalizing acc with
  | nil =>
    rw [List.foldlM_nil, Except.pure_eq_ok] at h
    simp [h]
  | cons child children ih =>
    rw [List.foldlM_cons, Except.bind_eq_ok] at h
    obtain ⟨acc', hacc, h⟩ := h
    have hrest := ih acc' h
    dsimp only at hacc
    split at hacc
    · split at hacc
      · rename_i list hlist
        rw [Except.pure_eq_ok] at hacc
        rw [hrest, ← hacc, List.flatMap_cons, hlist, List.append_assoc]
        rfl
      · rename_i hlist
        rw [Except.pure_eq_ok] at hacc
        rw [hrest, ← hacc, List.flatMap_cons, hlist]
        rfl
    · cases hacc

theorem transformAlg?_eq_some {t : Node} {alg : TransformAlg}
    (h : TransformAlg.fromUri ((t.attribute? "Algorithm").getD []) = .ok alg) :
    transformAlg? t = some alg := Except.toOption_eq_some.mpr h

/-- One transform of a same-document reference. -/
theorem applyTransform_ok {uri : Str} {acc out : WsSecCanonicalizationKind × List Str}
    {t : Node} (h : applyTransform uri acc t = .ok out) :
    transformKind? t = some out.1 ∧ out.2 = acc.2 ++ transformPrefixes t := by
  unfold applyTransform at h
  dsimp only at h
  split at h
  · rename_i halg
    rw [Except.pure_eq_ok] at h
    have hkind : transformKind? t = some .inclusive := by
      rw [transformKind?, transformAlg?_eq_some halg]
    rw [← h]
    simp [transformPrefixes, hkind]
  · rename_i halg
    rw [Except.bind_eq_ok] at h
    obtain ⟨more, hmore, h⟩ := h
    rw [Except.pure_eq_ok] at h
    have hkind : transformKind? t = some .exclusive := by
      rw [transformKind?, transformAlg?_eq_some halg]
    rw [← h, inclusiveNamespaces_ok hmore]
    simp [transformPrefixes, hkind]
  · cases h

/-- The transforms of a same-document reference, one after the other. -/
theorem foldlM_applyTransform_ok {uri : Str} {transforms : List Node}
    {acc out : WsSecCanonicalizationKind × List Str}
    (h : transforms.foldlM (applyTransform uri) acc = .ok out) :
    (∀ t ∈ transforms, (transformKind? t).isSome) ∧
      out.1 = ((transforms.filterMap transformKind?).getLast?).getD acc.1 ∧
      out.2 = acc.2 ++ transforms.flatMap transformPrefixes := by
  induction transforms generalizing acc with
  | nil =>
    rw [List.foldlM_nil, Except.pure_eq_ok] at h
    simp [h]
  | cons t transforms ih =>
    rw [List.foldlM_cons, Except.bind_eq_ok] at h
    obtain ⟨mid, hmid, h⟩ := h
    obtain ⟨hkind, hprefixes⟩ := applyTransform_ok hmid
    obtain ⟨hall, hlast, hmore⟩ := ih h
    refine ⟨?_, ?_, ?_⟩
    · intro t' ht'
      obtain rfl | ht' := List.mem_cons.mp ht'
      · simp [hkind]
      · exact hall t' ht'
    · -- the last transform decides, and the first one only where it is the last
      rw [hlast, List.filterMap_cons, hkind]
      cases hrest : transforms.filterMap transformKind? with
      | nil => rfl
      | cons k ks =>
        rw [List.getLast?_cons_cons, List.getLast?_cons, Option.getD_some, Option.getD_some]
    · rw [hmore, hprefixes, List.flatMap_cons, List.append_assoc]

theorem checkAttachmentTransform_ok {uri : Str} {t : Node} {u : Unit}
    (h : checkAttachmentTransform uri t = .ok u) : transformAlg? t = some .attachmentContent := by
  unfold checkAttachmentTransform at h
  dsimp only at h
  split at h
  · rename_i halg
    exact transformAlg?_eq_some halg
  · cases h

/-- The transform profile of a reference is the chain of its element. -/
theorem parseReferenceTransformProfile_ok {node : Node} {r : WsSecSignatureReference}
    (h : parseReferenceTransformProfile node r.uri r.parsedUri =
      .ok (r.c14nKind, r.inclusiveNsPrefixes)) : HasTransformChain node r := by
  unfold parseReferenceTransformProfile at h
  split at h
  · -- no `ds:Transforms`: the default for the kind of reference
    rename_i hnone
    have hnodes : transformNodes node = [] := by
      rw [transformNodes, hnone]
    rw [Except.ok.injEq, Prod.mk.injEq] at h
    obtain ⟨hkind, hprefixes⟩ := h
    constructor
    · intro id hid
      simp [hnodes, ← hkind, ← hprefixes, hid, defaultC14nKind]
    · intro name hname
      simp [hnodes, ← hkind, ← hprefixes, hname, defaultC14nKind]
  · rename_i transforms hsome
    have hnodes : transformNodes node = transforms.children.filter (isDsElement · "Transform") := by
      rw [transformNodes, hsome]
    dsimp only at h
    rw [← hnodes] at h
    split at h
    · rename_i name hname
      simp only [Except.bind_eq_ok, Except.forM_eq_ok, Except.pure_eq_ok, Prod.mk.injEq] at h
      obtain ⟨_, hall, hkind, hprefixes⟩ := h
      constructor
      · intro id hid
        rw [hname] at hid
        cases hid
      · intro _ _
        exact ⟨fun t ht => checkAttachmentTransform_ok (hall t ht), hkind.symm, hprefixes.symm⟩
    · rename_i id hid
      obtain ⟨hall, hkind, hprefixes⟩ := foldlM_applyTransform_ok h
      constructor
      · intro _ _
        simp only [hid, defaultC14nKind] at hkind hprefixes
        exact ⟨hall, hkind, by simpa using hprefixes⟩
      · intro name hname
        rw [hid] at hname
        cases hname

/-! ## Entries -/

/-- An entry has what its own `ds:Reference` element says. -/
structure IsEntryOf (node : Node) (r : WsSecSignatureReference) : Prop where
  uri : node.attribute? "URI" = some r.uri
  target : parseReferenceUri r.uri "wssec_parse_references" = .ok r.parsedUri
  digestMethod : ∃ alg, (dsChild? node "DigestMethod").bind (·.attribute? "Algorithm") = some alg ∧
    WsSecDigestMethod.fromAlgorithmUri alg = .ok r.digestMethod
  digestValue : (dsChild? node "DigestValue").bind trimmedText? = some r.digestValueBase64
  transforms : HasTransformChain node r

/-- A reference that is accepted says what its element says. -/
theorem parseSignatureReference_isEntryOf {seen : List ParsedReferenceUri} {node : Node}
    {r : WsSecSignatureReference} (h : parseSignatureReference seen node = .ok r) :
    IsEntryOf node r := by
  simp only [parseSignatureReference, Except.bind_eq_ok, Except.okOr_eq_ok, Except.pure_eq_ok,
    Except.rejectIf_eq_ok] at h
  obtain ⟨uri, huri, -, -, parsedUri, hparsed, -, -, profile, hprofile, alg, halg, value, hvalue,
    method, hmethod, rfl⟩ := h
  exact ⟨huri, hparsed, ⟨alg, halg, hmethod⟩, hvalue,
    parseReferenceTransformProfile_ok (by simpa using hprofile)⟩

/-- So the references are the elements, in their order. -/
theorem parseSignatureReferenceNodes_isEntryOf {seen : List ParsedReferenceUri}
    {nodes : List Node} {refs : List WsSecSignatureReference}
    (h : parseSignatureReferenceNodes seen nodes = .ok refs) :
    List.Forall₂ IsEntryOf nodes refs := by
  induction nodes generalizing seen refs with
  | nil =>
    cases h
    exact .nil
  | cons node nodes ih =>
    simp only [parseSignatureReferenceNodes, Except.bind_eq_ok, Except.pure_eq_ok] at h
    obtain ⟨r, hr, rest, hrest, rfl⟩ := h
    exact .cons (parseSignatureReference_isEntryOf hr) (ih hrest)

/-- What an accepted `ds:SignedInfo` has passed. -/
theorem parseSignatureReferencesFromSignedInfo_ok {signedInfo : Node} {docClass : SignedDocClass}
    {refs : List WsSecSignatureReference}
    (h : parseSignatureReferencesFromSignedInfo signedInfo docClass = .ok refs) :
    List.Forall₂ IsEntryOf (referenceNodes signedInfo) refs ∧
      refs.length ≤ docClass.maxReferences ∧
      (refs.map WsSecSignatureReference.parsedUri).Nodup := by
  simp only [parseSignatureReferencesFromSignedInfo, enforceReferenceCap, Except.bind_eq_ok,
    Except.rejectIf_eq_ok, Except.pure_eq_ok] at h
  obtain ⟨-, hcap, parsed, hparsed, -, -, rfl⟩ := h
  have hall := parseSignatureReferenceNodes_isEntryOf hparsed
  refine ⟨hall, ?_, (parseSignatureReferenceNodes_ok hparsed).2.1⟩
  rw [← hall.length_eq]
  omega

/-! ## Names of attachments -/

/-- `cid:` in any letter case. -/
def IsCidScheme (s : Str) : Prop := Str.eqIgnoreAsciiCase s "cid:" = true

/-- Two names that are one behind a further scheme: one of them has it and the other has not,
    or they write it in different letters. -/
def DifferByScheme (a b : Str) : Prop :=
  ∃ p q w, a = p ++ w ∧ b = q ++ w ∧ p ≠ q ∧ (IsCidScheme p ∨ p = [] ∧ ¬ IsCidScheme (w.take 4)) ∧
    (IsCidScheme q ∨ q = [] ∧ ¬ IsCidScheme (w.take 4))

theorem IsCidScheme.length {p : Str} (h : IsCidScheme p) : p.length = 4 := by
  have := congrArg List.length (beq_iff_eq.mp h)
  simpa using this

/-- What `normalize_cid` splits off. -/
theorem dropCidScheme_split (a : Str) :
    ∃ p, a = p ++ dropCidScheme a ∧
      (IsCidScheme p ∨ p = [] ∧ ¬ IsCidScheme ((dropCidScheme a).take 4)) := by
  unfold dropCidScheme
  split
  · rename_i h
    exact ⟨a.take 4, (List.take_append_drop 4 a).symm, .inl h⟩
  · rename_i h
    exact ⟨[], rfl, .inr ⟨rfl, h⟩⟩

theorem dropCidScheme_append {p w : Str}
    (h : IsCidScheme p ∨ p = [] ∧ ¬ IsCidScheme (w.take 4)) : dropCidScheme (p ++ w) = w := by
  obtain h | ⟨rfl, h⟩ := h
  · have htake : (p ++ w).take 4 = p := by rw [← h.length, List.take_left]
    have hdrop : (p ++ w).drop 4 = w := by rw [← h.length, List.drop_left]
    rw [dropCidScheme, htake, hdrop]
    exact if_pos h
  · exact if_neg h

/-- Two names differ by a scheme when nothing else tells them apart. -/
theorem differByScheme_iff {a b : Str} :
    DifferByScheme a b ↔ a ≠ b ∧ dropCidScheme a = dropCidScheme b := by
  constructor
  · rintro ⟨p, q, w, rfl, rfl, hne, hp, hq⟩
    refine ⟨fun he => hne (List.append_cancel_right he), ?_⟩
    rw [dropCidScheme_append hp, dropCidScheme_append hq]
  · rintro ⟨hne, hsame⟩
    obtain ⟨p, ha, hp⟩ := dropCidScheme_split a
    obtain ⟨q, hb, hq⟩ := dropCidScheme_split b
    rw [← hsame] at hb hq
    refine ⟨p, q, dropCidScheme a, ha, hb, ?_, hp, hq⟩
    rintro rfl
    exact hne (ha.trans hb.symm)

theorem dropOpening_of_head? {s : Str} (h : s.head? ≠ some '<') : dropOpening s = s := by
  cases s with
  | nil => rfl
  | cons c s =>
    have hc : ¬ '<' = c := fun he => h (by simp [← he])
    simp [dropOpening, Str.stripPrefix, hc]

theorem dropClosing_of_getLast? {s : Str} (h : s.getLast? ≠ some '>') : dropClosing s = s := by
  have hsuffix : ¬ (['>'].isSuffixOf s = true) := by
    intro hs
    obtain ⟨t, rfl⟩ := List.isSuffixOf_iff_suffix.mp hs
    simp at h
  simp [dropClosing, Str.stripSuffix, hsuffix]

/-- An accepted name has no white space and no brackets around it, so `normalize_cid` takes
    only a scheme off. -/
theorem coverageNormalizeCid_cid {uri stage name : Str}
    (h : parseReferenceUri uri stage = .ok (.cid name)) :
    name = normalizeCidUri uri ∧ isCidReferenceUri uri = true ∧
      coverageNormalizeCid name = dropCidScheme name := by
  simp only [parseReferenceUri, Except.bind_eq_ok, Except.rejectIf_eq_ok] at h
  obtain ⟨-, -, h⟩ := h
  split at h
  · rename_i hcid
    simp only [validateCidReferenceUri, Except.bind_eq_ok, Except.rejectIf_eq_ok,
      Except.pure_eq_ok, ParsedReferenceUri.cid.injEq] at h
    obtain ⟨_, ⟨-, -, -, -, -, hspace, rfl⟩, rfl⟩ := h
    refine ⟨rfl, hcid, ?_⟩
    rw [not_or] at hspace
    have htrim : Str.trim (normalizeCidUri uri) = normalizeCidUri uri :=
      Str.trim_of_forall (by simpa using hspace.1)
    have hopen : dropOpening (normalizeCidUri uri) = normalizeCidUri uri :=
      dropOpening_of_head? (Str.head?_trimEndChar_dropWhile '<' '>' _)
    have hclose : dropClosing (normalizeCidUri uri) = normalizeCidUri uri :=
      dropClosing_of_getLast? (Str.getLast?_trimEndChar '>' _)
    rw [coverageNormalizeCid_eq, normalizeCid_eq, htrim, hopen, hclose]
  · split at h
    · simp only [Except.bind_eq_ok, Except.pure_eq_ok] at h
      obtain ⟨_, -, h⟩ := h
      cases h
    · cases h

/-! ## Targets -/

/-- Two entries designate one target: they have the same fragment, or their attachments have
    one name for the verifier or for the receive path. -/
def SameTarget (r s : WsSecSignatureReference) : Prop :=
  match r.parsedUri, s.parsedUri with
  | .sameDocument id, .sameDocument id' => id = id'
  | .cid name, .cid name' =>
    name = name' ∨ coverageNormalizeCid name = coverageNormalizeCid name'
  | _, _ => False

/-- The names of the `cid:` URIs in a `ds:SignedInfo`. -/
def cidNames (signedInfo : Node) : List Str :=
  (referenceNodes signedInfo).filterMap fun node =>
    ((node.attribute? "URI").filter isCidReferenceUri).map normalizeCidUri

/-- The entries of a `ds:SignedInfo`: one for each reference element, no more than the class
    of the document allows, and each for a target of its own. -/
structure ReferencesExact (signedInfo : Node) (docClass : SignedDocClass)
    (refs : List WsSecSignatureReference) : Prop where
  entries : List.Forall₂ IsEntryOf (referenceNodes signedInfo) refs
  capped : refs.length ≤ docClass.maxReferences
  distinct : refs.Pairwise fun r s => ¬ SameTarget r s

/-- The Content-ID of an entry is that of its URI. -/
theorem cid?_of_isEntryOf {node : Node} {r : WsSecSignatureReference} (h : IsEntryOf node r) :
    ((node.attribute? "URI").filter isCidReferenceUri).map normalizeCidUri = r.cid? := by
  rw [h.uri]
  cases hr : r.parsedUri with
  | sameDocument id =>
    obtain ⟨huri, -⟩ := parseReferenceUri_sameDocument (hr ▸ h.target)
    rw [huri, WsSecSignatureReference.cid?, hr]
    rfl
  | cid name =>
    obtain ⟨hname, hcid, -⟩ := coverageNormalizeCid_cid (hr ▸ h.target)
    rw [WsSecSignatureReference.cid?, hr, Option.filter_some, if_pos hcid, hname]
    rfl

/-- The names in a `ds:SignedInfo` are those of its entries. -/
theorem cidNames_eq {signedInfo : Node} {refs : List WsSecSignatureReference}
    (h : List.Forall₂ IsEntryOf (referenceNodes signedInfo) refs) :
    cidNames signedInfo = refs.filterMap WsSecSignatureReference.cid? := by
  unfold cidNames
  generalize referenceNodes signedInfo = nodes at h
  induction h with
  | nil => rfl
  | cons hentry _ ih => rw [List.filterMap_cons, List.filterMap_cons, cid?_of_isEntryOf hentry, ih]

/-- Two entries with different keys have one target exactly when their names differ by a
    scheme. -/
theorem sameTarget_iff {r s : WsSecSignatureReference} {node node' : Node}
    (hr : IsEntryOf node r) (hs : IsEntryOf node' s) (hne : r.parsedUri ≠ s.parsedUri) :
    SameTarget r s ↔ ∃ a b, r.cid? = some a ∧ s.cid? = some b ∧ DifferByScheme a b := by
  unfold SameTarget WsSecSignatureReference.cid?
  cases hru : r.parsedUri with
  | sameDocument id =>
    cases hsu : s.parsedUri with
    | sameDocument id' =>
      have hid : id ≠ id' := by
        rintro rfl
        exact hne (hru.trans hsu.symm)
      simp [hid]
    | cid b => simp
  | cid a =>
    cases hsu : s.parsedUri with
    | sameDocument id' => simp
    | cid b =>
      have hab : a ≠ b := by
        rintro rfl
        exact hne (hru.trans hsu.symm)
      obtain ⟨-, -, ha⟩ := coverageNormalizeCid_cid (hru ▸ hr.target)
      obtain ⟨-, -, hb⟩ := coverageNormalizeCid_cid (hsu ▸ hs.target)
      simp only [ha, hb, hab, false_or, Option.some.injEq, exists_and_left, exists_eq_left',
        differByScheme_iff, ne_eq, not_false_eq_true, true_and]

/-- **The references of a `ds:SignedInfo`**: an accepted one gives an entry for each
    `ds:Reference`, in document order and with that element's own digest and transforms, and
    the entries have different targets exactly when no two of the names in it differ only by a
    further `cid:` scheme. -/
theorem referenceTargets_distinct_iff {signedInfo : Node} {docClass : SignedDocClass}
    {refs : List WsSecSignatureReference}
    (h : parseSignatureReferencesFromSignedInfo signedInfo docClass = .ok refs) :
    ReferencesExact signedInfo docClass refs ↔
      (cidNames signedInfo).Pairwise fun a b => ¬ DifferByScheme a b := by
  obtain ⟨hentries, hcapped, hnodup⟩ := parseSignatureReferencesFromSignedInfo_ok h
  have hkeys : refs.Pairwise fun r s => r.parsedUri ≠ s.parsedUri := List.pairwise_map.mp hnodup
  have hentry : ∀ r ∈ refs, ∃ node, IsEntryOf node r := by
    intro r hr
    obtain ⟨node, -, hnode⟩ := hentries.exists_left hr
    exact ⟨node, hnode⟩
  rw [cidNames_eq hentries, List.pairwise_filterMap]
  constructor
  · intro hexact
    refine (hkeys.and hexact.distinct).imp_of_mem fun {r s} hr hs hrs a ha b hb hscheme => ?_
    obtain ⟨node, hnode⟩ := hentry r hr
    obtain ⟨node', hnode'⟩ := hentry s hs
    exact hrs.2 ((sameTarget_iff hnode hnode' hrs.1).mpr ⟨a, b, ha, hb, hscheme⟩)
  · intro hscheme
    refine ⟨hentries, hcapped, (hkeys.and hscheme).imp_of_mem fun {r s} hr hs hrs hsame => ?_⟩
    obtain ⟨node, hnode⟩ := hentry r hr
    obtain ⟨node', hnode'⟩ := hentry s hs
    obtain ⟨a, b, ha, hb, hdiff⟩ := (sameTarget_iff hnode hnode' hrs.1).mp hsame
    exact hrs.2 a ha b hb hdiff

/-! ## Two signatures -/

/-- An envelope whose signature has these references, all for the digest of no bytes. -/
def referencesEnvelope (references : List (Str × TransformAlg)) : List Tree :=
  soapEnvelope [element (.lit "wsse") (.lit "Security") [] [signature
    (references.map fun r => dsReference r.1 r.2 emptyDigest) "AA=="]]
where
  /-- The SHA-256 of no bytes. -/
  emptyDigest : Str := .lit "47DEQpj8HBSa+/TImW+5JCeuQeRkm5NMpJWZG3hSuFU="

/-- The first `ds:SignedInfo` of a document. -/
def signedInfo? (doc : Document) : Option Node := doc.descendants.find? (isDsElement · "SignedInfo")

/-- The body and one attachment are signed. -/
def bodyAndPartDoc : Document where
  children := referencesEnvelope [(.lit "#b", .c14n .exclusive), (.lit "cid:x", .attachmentContent)]
  ok := by decide +kernel

/-- Two references that differ by a scheme. -/
def doubledSchemeDoc : Document where
  children := referencesEnvelope
    [(.lit "cid:x", .attachmentContent), (.lit "CID:cid:x", .attachmentContent)]
  ok := by decide +kernel

/-- The `ds:SignedInfo` of `bodyAndPartDoc`. -/
def bodyAndPartSignedInfo : Node := (signedInfo? bodyAndPartDoc).get (by decide +kernel)

/-- The `ds:SignedInfo` of `doubledSchemeDoc`. -/
def doubledSchemeSignedInfo : Node := (signedInfo? doubledSchemeDoc).get (by decide +kernel)

/-- An entry for an attachment. -/
def attachmentEntry (uri name : Str) : WsSecSignatureReference :=
  ⟨uri, .cid name, .sha256, referencesEnvelope.emptyDigest, .exclusive, []⟩

/-- References to the body and to a part. -/
theorem referenceTargets_distinct_body_and_part :
    (parseSignatureReferencesFromSignedInfo bodyAndPartSignedInfo .userMessage).isOk = true ∧
    ∀ refs, parseSignatureReferencesFromSignedInfo bodyAndPartSignedInfo .userMessage = .ok refs →
      ReferencesExact bodyAndPartSignedInfo .userMessage refs := by
  have hnames : cidNames bodyAndPartSignedInfo = [['x']] := by decide +kernel
  refine ⟨by decide +kernel, fun refs h => (referenceTargets_distinct_iff h).mpr ?_⟩
  rw [hnames]
  exact List.pairwise_singleton _ _

/-- `cid:x` and `CID:cid:x` are accepted side by side: the verifier looks for attachments
    named `x` and `cid:x`, and the receive path takes both references for `x`. -/
theorem referenceTargets_not_distinct_doubled_scheme :
    parseSignatureReferencesFromSignedInfo doubledSchemeSignedInfo .userMessage =
      .ok [attachmentEntry "cid:x" "x", attachmentEntry "CID:cid:x" "cid:x"] ∧
    ¬ ReferencesExact doubledSchemeSignedInfo .userMessage
      [attachmentEntry "cid:x" "x", attachmentEntry "CID:cid:x" "cid:x"] := by
  have hparse : (parseSignatureReferencesFromSignedInfo doubledSchemeSignedInfo
      .userMessage).toOption =
      some [attachmentEntry "cid:x" "x", attachmentEntry "CID:cid:x" "cid:x"] := by decide +kernel
  refine ⟨Except.toOption_eq_some.mp hparse, fun hexact => ?_⟩
  have hpair := (List.pairwise_cons.mp hexact.distinct).1 _ List.mem_cons_self
  exact hpair (.inr (by decide))

end Asx
