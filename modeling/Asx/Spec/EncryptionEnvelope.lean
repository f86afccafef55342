import Asx.Native.XmlEnc
import Asx.Spec.Wrapping
import Asx.Xml.Nodes

/-!
# What a resolved encryption envelope says

`resolve_envelope` reads the encryption of a header through many small readers. Here its result
is compared with the document: which elements it has read, how the references match the
encrypted parts, and which algorithms the decryption will use.

## Main results
- `resolveData_sound`: what is read from an `xenc:EncryptedData`
- `perm_of_foldlM_nameTarget`: the references name the encrypted parts, each once
- `checkSuite_ok`: the algorithms are those of the suite
- `envelope_sound`: all of it
-/

namespace Asx

open Xml

/-! ## Children and algorithms -/

/-- The children with a name. -/
def childrenNamed (parent : Node) (ns loc : Str) : List Node :=
  parent.children.filter (·.hasTagName ns loc)

/-- The children that are accepted under a name are all of that name. -/
theorem childrenIn_ok {parent : Node} {ns loc : Str} {nodes : List Node}
    (h : childrenIn parent ns loc = .ok nodes) : childrenNamed parent ns loc = nodes := by
  unfold childrenIn at h
  dsimp only at h
  split at h
  · cases h
  · rename_i hnone
    rw [← Except.ok.inj h]
    refine List.filter_congr fun n hn => ?_
    unfold Node.hasTagName
    by_cases hloc : (n.isElement && n.localName == loc) = true
    · have hns := List.find?_eq_none.mp hnone n (List.mem_filter.mpr ⟨hn, hloc⟩)
      simp only [ne_eq, decide_eq_true_eq, Decidable.not_not] at hns
      rw [Bool.and_eq_true] at hloc
      simp [hns, hloc.1, hloc.2]
    · rw [Bool.not_eq_true] at hloc
      rw [hloc, Bool.and_right_comm, hloc, Bool.false_and]

/-- Where one element is asked for there is no second. -/
theorem exactlyOne_ok {nodes : List Node} {what : Str} {n : Node}
    (h : exactlyOne nodes what = .ok n) : nodes = [n] := by
  unfold exactlyOne at h
  split at h
  · rw [Except.ok.inj h]
  · cases h
  · cases h

theorem oneChildIn_ok {parent : Node} {ns loc what : Str} {n : Node}
    (h : oneChildIn parent ns loc what = .ok n) : childrenNamed parent ns loc = [n] := by
  simp only [oneChildIn, Except.bind_eq_ok] at h
  obtain ⟨nodes, hnodes, hone⟩ := h
  rw [childrenIn_ok hnodes, exactlyOne_ok hone]

/-- The first child is the only one. -/
theorem firstChildNamed_of_childrenNamed {parent n : Node} {ns loc : Str}
    (h : childrenNamed parent ns loc = [n]) : firstChildNamed parent ns loc = some n := by
  rw [firstChildNamed, ← List.head?_filter]
  exact congrArg List.head? h

theorem algorithmOf_ok {n : Node} {what uri : Str} (h : algorithmOf n what = .ok uri) :
    algorithmAttr (some n) = uri := by
  rw [algorithmOf, Except.okOr_eq_ok, Option.filter_eq_some_iff] at h
  simp only [algorithmAttr, Option.bind_some, h.1, Option.getD_some]

/-- Every algorithm has one identifier. -/
theorem registry_uri : ∀ row ∈ registry, row.2.2.uri = row.2.1 := by
  decide +kernel

/-- An algorithm that is found has the URI that was asked for. -/
theorem lookup_ok {role : Role} {uri : Str} {alg : Alg} (h : lookup role uri = .ok alg) :
    alg.uri = uri := by
  rw [lookup, Except.okOr_eq_ok, Option.map_eq_some_iff] at h
  obtain ⟨row, hrow, rfl⟩ := h
  have hpred := List.find?_some hrow
  rw [registry_uri row (List.mem_of_find?_eq_some hrow)]
  exact (of_decide_eq_true hpred).2

/-- The same for an algorithm of one role. -/
theorem typedLookup_ok {α : Type} {role : Role} {pick : Alg → Option α} {uri : Str} {a : α}
    (h : typedLookup role pick uri = .ok a) : ∃ alg : Alg, alg.uri = uri ∧ pick alg = some a := by
  simp only [typedLookup, Except.bind_eq_ok, Except.okOr_eq_ok] at h
  obtain ⟨alg, halg, hpick⟩ := h
  exact ⟨alg, lookup_ok halg, hpick⟩

theorem contentCipher_fromUri {uri : Str} {c : XmlEncPayloadAlgorithm}
    (h : XmlEncPayloadAlgorithm.fromUri uri = .ok c) : (Alg.contentCipher c).uri = uri := by
  obtain ⟨alg, rfl, hpick⟩ := typedLookup_ok h
  split at hpick
  · cases hpick
    rfl
  · cases hpick

theorem keyTransport_fromUri {uri : Str} {a : KeyTransportAlg}
    (h : KeyTransportAlg.fromUri uri = .ok a) : (Alg.keyTransport a).uri = uri := by
  obtain ⟨alg, rfl, hpick⟩ := typedLookup_ok h
  split at hpick
  · cases hpick
    rfl
  · cases hpick

theorem keyWrap_fromUri {uri : Str} {a : KeyWrapAlg} (h : KeyWrapAlg.fromUri uri = .ok a) :
    (Alg.keyWrap a).uri = uri := by
  obtain ⟨alg, rfl, hpick⟩ := typedLookup_ok h
  split at hpick
  · cases hpick
    rfl
  · cases hpick

theorem keyAgreement_fromUri {uri : Str} {a : AgreementAlg} (h : AgreementAlg.fromUri uri = .ok a) :
    (Alg.keyAgreement a).uri = uri := by
  obtain ⟨alg, rfl, hpick⟩ := typedLookup_ok h
  split at hpick
  · cases hpick
    rfl
  · cases hpick

theorem kdf_fromUri {uri : Str} {a : KdfAlg} (h : KdfAlg.fromUri uri = .ok a) :
    (Alg.kdf a).uri = uri := by
  obtain ⟨alg, rfl, hpick⟩ := typedLookup_ok h
  split at hpick
  · cases hpick
    rfl
  · cases hpick

theorem digest_fromAlgorithmUri {uri : Str} {m : WsSecDigestMethod}
    (h : WsSecDigestMethod.fromAlgorithmUri uri = .ok m) : m.algorithmUri = uri := by
  obtain ⟨alg, rfl, hpick⟩ := typedLookup_ok h
  split at hpick
  · cases hpick
    rfl
  · cases hpick

/-! ## The encrypted parts -/

/-- What an entry of the envelope says of an `xenc:EncryptedData`: the algorithm of its only
    `xenc:EncryptionMethod` and the part that its only `xenc:CipherReference` names. -/
structure DescribesPart (n : Node) (d : DataSpec) : Prop where
  method : ∃ method, childrenNamed n Ns.xenc "EncryptionMethod" = [method] ∧
    algorithmAttr (some method) = (Alg.contentCipher d.cipher).uri
  reference : ∃ cipherData reference, childrenNamed n Ns.xenc "CipherData" = [cipherData] ∧
    childrenNamed cipherData Ns.xenc "CipherReference" = [reference] ∧
    d.cid = normalizeCid ((reference.attribute? "URI").getD [])

/-- An `xenc:EncryptedData` that is accepted describes a part that the body declares. -/
theorem resolveData_sound {n : Node} {keyId : Option Str} {declared : List Str} {d : DataSpec}
    (h : resolveData n keyId declared = .ok d) :
    DescribesPart n d ∧ ∃ part ∈ declared, normalizeCid part = d.cid := by
  simp only [resolveData, Except.bind_eq_ok, Except.rejectIf_eq_ok, Except.pure_eq_ok] at h
  obtain ⟨_, -, _, -, method, hmethod, cipherUri, huri, cipher, hcipher, _, -, _, -, cipherData,
    hcipherData, _, -, _, -, reference, hreference, _, -, _, hdeclared, _, -, _, -, rfl⟩ := h
  have hmethod' : algorithmAttr (some method) = (Alg.contentCipher cipher).uri := by
    rw [algorithmOf_ok huri, contentCipher_fromUri hcipher]
  refine ⟨⟨⟨method, oneChildIn_ok hmethod, hmethod'⟩, cipherData, reference,
    oneChildIn_ok hcipherData, oneChildIn_ok hreference, rfl⟩, ?_⟩
  simpa [List.any_eq_true] using hdeclared

/-- The entries describe the elements in order, and no two of them name one part. -/
theorem foldlM_addData_ok {keyId : Option Str} {declared : List Str} {datas : List Node}
    {data : List DataSpec} (h : datas.foldlM (addData keyId declared) [] = .ok data) :
    List.Forall₂ (fun n d => DescribesPart n d ∧ ∃ part ∈ declared, normalizeCid part = d.cid)
      datas data ∧ (data.map DataSpec.cid).Nodup := by
  have hstep : ∀ n data data', addData keyId declared data n = .ok data' →
      ∃ d, data' = data ++ [d] ∧ resolveData n keyId declared = .ok d ∧
        ∀ d' ∈ data, d'.cid ≠ d.cid := by
    intro n data data' hadd
    simp only [addData, Except.bind_eq_ok, Except.rejectIf_eq_ok, Except.pure_eq_ok] at hadd
    obtain ⟨d, hd, _, hnew, rfl⟩ := hadd
    exact ⟨d, rfl, hd, by simpa [List.any_eq_true] using hnew⟩
  constructor
  · obtain ⟨added, rfl, hadded⟩ := Except.foldlM_append_rel h fun n data data' hadd => by
      obtain ⟨d, heq, hd, -⟩ := hstep n data data' hadd
      exact ⟨d, heq, resolveData_sound hd⟩
    exact hadded
  · refine Except.foldlM_invariant (P := fun data : List DataSpec => (data.map DataSpec.cid).Nodup)
      h (by simp) fun n _ data data' hnodup hadd => ?_
    obtain ⟨d, rfl, -, hnew⟩ := hstep n data data' hadd
    rw [List.map_append, List.map_singleton, List.nodup_append]
    refine ⟨hnodup, List.nodup_singleton _, fun cid hcid cid' hcid' => ?_⟩
    obtain ⟨d', hd', rfl⟩ := List.mem_map.mp hcid
    rw [List.mem_singleton.mp hcid']
    exact hnew d' hd'

/-! ## References -/

/-- The entries of the reference lists: those of the `xenc:EncryptedKey`, then those of the
    header. -/
def dataReferences (key security : Node) : List Node :=
  (childrenNamed key Ns.xenc "ReferenceList" ++
    childrenNamed security Ns.xenc "ReferenceList").flatMap
      fun list => list.children.filter Node.isElement

/-- An `xenc:DataReference` names an element: no other element has its identifier. -/
structure Names (doc : Document) (reference target : Node) : Prop where
  tag : reference.hasTagName Ns.xenc "DataReference" = true
  target : ∃ id, fragment ((reference.attribute? "URI").getD []) = some id ∧
    elementsWithId doc id = [target]

/-- What a reference names is an element of the document. -/
theorem Names.mem {doc : Document} {reference target : Node} (h : Names doc reference target) :
    target ∈ doc.descendants := by
  obtain ⟨id, -, hid⟩ := h.target
  have hmem : target ∈ elementsWithId doc id := by
    rw [hid]
    exact List.mem_singleton_self _
  exact (List.mem_filter.mp hmem).1

/-- `same_node` is equality among the elements of one document. -/
theorem any_sameNode_iff {doc : Document} {nodes : List Node} {n : Node}
    (hnodes : ∀ m ∈ nodes, m ∈ doc.descendants) (hn : n ∈ doc.descendants) :
    nodes.any (sameNode · n) = true ↔ n ∈ nodes := by
  rw [List.any_eq_true]
  constructor
  · rintro ⟨m, hm, hsame⟩
    have heq : m = n := Document.eq_of_path_eq (hnodes m hm) hn (by simpa [sameNode] using hsame)
    exact heq ▸ hm
  · intro hmem
    exact ⟨n, hmem, by simp [sameNode]⟩

/-- A reference names an `xenc:EncryptedData` of the header that no earlier one has named. -/
theorem nameTarget_ok {doc : Document} {datas targets targets' : List Node} {reference : Node}
    (hdatas : ∀ n ∈ datas, n ∈ doc.descendants)
    (h : nameTarget doc datas targets reference = .ok targets') :
    ∃ target, targets' = targets ++ [target] ∧ Names doc reference target ∧ target ∈ datas ∧
      targets.any (sameNode · target) = false := by
  simp only [nameTarget, Except.bind_eq_ok, Except.rejectIf_eq_ok, Except.okOr_eq_ok] at h
  obtain ⟨_, htag, id, hid, h⟩ := h
  split at h
  · rename_i target htarget
    simp only [Except.bind_eq_ok, Except.rejectIf_eq_ok, Except.pure_eq_ok, Except.ok.injEq] at h
    obtain ⟨_, rfl, _, hmem, _, hnew, rfl⟩ := h
    have hnames : Names doc reference target := ⟨by simpa using htag, id, hid, htarget⟩
    refine ⟨target, rfl, hnames, ?_, by simpa using hnew⟩
    exact (any_sameNode_iff hdatas hnames.mem).mp (by simpa using hmem)
  · cases h
  · cases h

/-- The references name the encrypted parts, each of them once. -/
theorem perm_of_foldlM_nameTarget {doc : Document} {datas references targets : List Node}
    (hdatas : ∀ n ∈ datas, n ∈ doc.descendants) (hnodup : datas.Nodup)
    (h : references.foldlM (nameTarget doc datas) [] = .ok targets)
    (hnamed : checkDataNamed datas targets = .ok ()) :
    List.Forall₂ (Names doc) references targets ∧ targets.Perm datas := by
  obtain ⟨added, rfl, hadded⟩ := Except.foldlM_append_rel h fun reference targets targets' hstep =>
    by
      obtain ⟨target, heq, hnames, -⟩ := nameTarget_ok hdatas hstep
      exact ⟨target, heq, hnames⟩
  have hinv : targets.Nodup ∧ ∀ n ∈ targets, n ∈ datas := by
    refine Except.foldlM_invariant
      (P := fun targets : List Node => targets.Nodup ∧ ∀ n ∈ targets, n ∈ datas)
      h ⟨List.nodup_nil, by simp⟩ ?_
    rintro reference - targets targets' ⟨hn, hsub⟩ hstep
    obtain ⟨target, rfl, hnames, hmem, hnew⟩ := nameTarget_ok hdatas hstep
    have hnot : target ∉ targets := by
      intro hin
      rw [(any_sameNode_iff (fun m hm => hdatas m (hsub m hm)) hnames.mem).mpr hin] at hnew
      cases hnew
    constructor
    · refine List.nodup_append.mpr ⟨hn, List.nodup_singleton _, fun a ha b hb => ?_⟩
      rintro rfl
      exact hnot (List.mem_singleton.mp hb ▸ ha)
    · intro n hn'
      rcases List.mem_append.mp hn' with hn' | hn'
      · exact hsub n hn'
      · exact List.mem_singleton.mp hn' ▸ hmem
  refine ⟨hadded, (List.perm_ext_iff_of_nodup hinv.1 hnodup).mpr fun n => ⟨hinv.2 n, fun hn => ?_⟩⟩
  unfold checkDataNamed at hnamed
  split at hnamed
  · cases hnamed
  · rename_i hnone
    have hany := List.find?_eq_none.mp hnone n hn
    simp only [Bool.not_eq_true, Bool.not_eq_false'] at hany
    exact (any_sameNode_iff (fun m hm => hdatas m (hinv.2 m hm)) (hdatas n hn)).mp hany

/-! ## Placement -/

/-- Where an element lies: below an encryption element of the header. -/
def UnderEncryption (security n : Node) : Prop :=
  ∃ top ∈ security.children, (top.hasTagName Ns.xenc "EncryptedKey" = true ∨
    top.hasTagName Ns.xenc "EncryptedData" = true ∨
    top.hasTagName Ns.xenc "ReferenceList" = true) ∧ n ∈ top.descendants

/-- The last node on the way up to the header is a child of it. -/
theorem getLast?_takeWhile_ancestors {doc : Document} {security n top : Node}
    (hs : security ∈ doc.descendants) (hn : n ∈ doc.descendants)
    (hbelow : n.ancestors.any (sameNode · security) = true)
    (htop : (n.ancestors.takeWhile fun a => !sameNode a security).getLast? = some top) :
    top ∈ security.children ∧ n ∈ top.descendants := by
  induction hk : n.up.length using Nat.strong_induction_on generalizing n with
  | _ k ih =>
    subst hk
    have hself : sameNode n security = false := by
      by_contra hsame
      rw [Bool.not_eq_false] at hsame
      simp [Node.ancestors, hsame] at htop
    cases hparent : n.parent? with
    | none =>
      rw [ancestors_eq_of_root hparent] at hbelow
      simp [hself] at hbelow
    | some p =>
      obtain ⟨hp, hchild⟩ := Document.mem_children_of_parent? hn hparent
      rw [ancestors_eq_of_parent? hparent] at hbelow htop
      simp only [List.any_cons, hself, Bool.false_or] at hbelow
      rw [List.takeWhile_cons_of_pos (by simp [hself])] at htop
      by_cases hsame : sameNode p security = true
      · -- the parent is the header, so the walk has ended at `n`
        have heq : p = security := Document.eq_of_path_eq hp hs (by simpa [sameNode] using hsame)
        have hnil : p.ancestors.takeWhile (fun a => !sameNode a security) = [] := by
          simp [Node.ancestors, hsame]
        rw [hnil, List.getLast?_singleton, Option.some.injEq] at htop
        subst htop heq
        exact ⟨hchild, self_mem_descendants n⟩
      · have hcons : p.ancestors.takeWhile (fun a => !sameNode a security) ≠ [] := by
          simp [Node.ancestors, hsame]
        rw [List.getLast?_cons_of_ne_nil hcons] at htop
        obtain ⟨hmem, hdesc⟩ := ih _ (length_up_parent? hparent) hp hbelow htop rfl
        exact ⟨hmem, mem_descendants_trans hdesc (mem_descendants_of_mem_children hchild)⟩

/-- An element that `inside_encryption` accepts lies below an encryption element of the header. -/
theorem underEncryption_of_insideEncryption {doc : Document} {security n : Node}
    (hs : security ∈ doc.descendants) (hn : n ∈ doc.descendants)
    (h : insideEncryption security n = true) : UnderEncryption security n := by
  unfold insideEncryption at h
  split at h
  · rename_i top htop
    simp only [Bool.and_eq_true, Bool.or_eq_true, or_assoc] at h
    obtain ⟨hmem, hdesc⟩ := getLast?_takeWhile_ancestors hs hn h.1 htop
    exact ⟨top, hmem, h.2, hdesc⟩
  · cases h

/-! ## Algorithms -/

/-- The identifier of the method that unlocks the content key. -/
def KeyTransportSpec.methodUri : KeyTransportSpec → Str
  | .rsaOaep _ => (Alg.keyTransport .rsaOaep).uri
  | .agreement a => (Alg.keyWrap a.wrap).uri

/-- The identifiers that the decryption of an envelope goes by are those of the suite: the key
    method, with key agreement also the agreement, the KDF and the digest of the KDF, and the
    content algorithm of every part. -/
structure UsesSuite (suite : Suite) (envelope : ResolvedEnvelope) : Prop where
  keyMethod : envelope.key.transport.methodUri = suite.keyMethod
  agreement : ∀ a, envelope.key.transport = .agreement a →
    suite.agreement = some ((Alg.keyAgreement .ecdhEs).uri, (Alg.kdf .concatKdf).uri,
      a.kdfDigest.algorithmUri)
  content : ∀ d ∈ envelope.data, (Alg.contentCipher d.cipher).uri = suite.content

/-- The elements that `parse_agreement_method` reads the algorithms from. -/
theorem parseAgreementMethod_ok {n : Node} {wrap : KeyWrapAlg} {spec : AgreementSpec}
    (h : parseAgreementMethod n wrap = .ok spec) :
    spec.wrap = wrap ∧ algorithmAttr (some n) = (Alg.keyAgreement .ecdhEs).uri ∧
      ∃ kdm params digest, childrenNamed n Ns.xenc11 "KeyDerivationMethod" = [kdm] ∧
        algorithmAttr (some kdm) = (Alg.kdf .concatKdf).uri ∧
        childrenNamed kdm Ns.xenc11 "ConcatKDFParams" = [params] ∧
        childrenNamed params Ns.ds "DigestMethod" = [digest] ∧
        algorithmAttr (some digest) = spec.kdfDigest.algorithmUri := by
  simp only [parseAgreementMethod, concatKdfDigest, Except.bind_eq_ok, Except.pure_eq_ok] at h
  obtain ⟨agreementUri, hagreement, agreement, hagreement', kdm, hkdm, kdfUri, hkdf, kdf, hkdf',
    params, hparams, kdfDigest, ⟨digest, hdigest, digestUri, hdigestUri, hkdfDigest⟩, _, -, _, -,
    _, -, _, -, _, -, _, -, _, -, _, -, _, -, rfl⟩ := h
  cases agreement
  cases kdf
  refine ⟨rfl, (algorithmOf_ok hagreement).trans (keyAgreement_fromUri hagreement').symm, kdm,
    params, digest, oneChildIn_ok hkdm, (algorithmOf_ok hkdf).trans (kdf_fromUri hkdf').symm,
    oneChildIn_ok hparams, oneChildIn_ok hdigest, ?_⟩
  rw [algorithmOf_ok hdigestUri]
  split at hkdfDigest
  · rename_i huri
    rw [← Except.pure_eq_ok.mp hkdfDigest, digest_fromAlgorithmUri huri]
  · cases hkdfDigest

/-- What `parse_encrypted_key` reads is what `check_suite` compared. -/
theorem parseEncryptedKey_ok {key : Node} {spec : EncryptedKeySpec}
    (h : parseEncryptedKey key = .ok spec) :
    (∃ method, childrenNamed key Ns.xenc "EncryptionMethod" = [method] ∧
        algorithmAttr (some method) = spec.transport.methodUri) ∧
      ∀ a, spec.transport = .agreement a → ∃ keyInfo agreement,
        childrenNamed key Ns.ds "KeyInfo" = [keyInfo] ∧
        childrenNamed keyInfo Ns.xenc "AgreementMethod" = [agreement] ∧
        parseAgreementMethod agreement a.wrap = .ok a := by
  simp only [parseEncryptedKey, Except.bind_eq_ok, Except.pure_eq_ok] at h
  obtain ⟨method, hmethod, uri, huri, transport, htransport, _, -, rfl⟩ := h
  dsimp only
  unfold parseKeyTransport at htransport
  split at htransport
  · rename_i hrsa
    simp only [Except.bind_eq_ok, Except.pure_eq_ok] at htransport
    obtain ⟨params, -, rfl⟩ := htransport
    refine ⟨⟨method, oneChildIn_ok hmethod, ?_⟩, fun a ha => by cases ha⟩
    exact (algorithmOf_ok huri).trans (keyTransport_fromUri hrsa).symm
  · rename_i wrap hwrap
    simp only [Except.bind_eq_ok, Except.pure_eq_ok] at htransport
    obtain ⟨keyInfo, hkeyInfo, agreement, hagreement, a, ha, rfl⟩ := htransport
    have hsame := (parseAgreementMethod_ok ha).1
    refine ⟨⟨method, oneChildIn_ok hmethod, ?_⟩, fun a' ha' => ?_⟩
    · rw [KeyTransportSpec.methodUri, hsame]
      exact (algorithmOf_ok huri).trans (keyWrap_fromUri hwrap).symm
    · cases ha'
      exact ⟨keyInfo, agreement, oneChildIn_ok hkeyInfo, oneChildIn_ok hagreement, hsame ▸ ha⟩
  · cases htransport

/-- A suite asks for the key agreement that the message uses. -/
theorem checkSuiteAgreement_ok {suite : Suite} {n : Node} {wrap : KeyWrapAlg} {a : AgreementSpec}
    (hparse : parseAgreementMethod n wrap = .ok a)
    (h : checkSuiteAgreement suite (some n) = .ok ()) :
    suite.agreement = some ((Alg.keyAgreement .ecdhEs).uri, (Alg.kdf .concatKdf).uri,
      a.kdfDigest.algorithmUri) := by
  obtain ⟨-, hagreement, kdm, params, digest, hkdm, hkdf, hparams, hdigest, hdigestUri⟩ :=
    parseAgreementMethod_ok hparse
  unfold checkSuiteAgreement at h
  split at h
  · cases h
  · rename_i hnone
    cases hnone
  · rename_i wantAgreement wantKdf wantDigest am hsuite ham
    cases ham
    simp only [firstChildNamed_of_childrenNamed hkdm, Option.bind_some,
      firstChildNamed_of_childrenNamed hparams, firstChildNamed_of_childrenNamed hdigest,
      hagreement, hkdf, hdigestUri, Except.bind_eq_ok, Except.rejectIf_eq_ok, ne_eq,
      Decidable.not_not] at h
    obtain ⟨_, hwant, _, hwantKdf, hwantDigest⟩ := h
    rw [hsuite, hwant, hwantKdf, hwantDigest]
  · rename_i hnone
    cases hnone

/-- A suite that was checked is the one that decryption uses. -/
theorem checkSuite_ok {key : Node} {datas : List Node} {suite : Suite} {envelope : ResolvedEnvelope}
    {spec : EncryptedKeySpec} (hsuite : checkSuite key datas suite = .ok ())
    (hspec : parseEncryptedKey key = .ok spec) (htransport : envelope.key.transport = spec.transport)
    (hdata : List.Forall₂ DescribesPart datas envelope.data) : UsesSuite suite envelope := by
  obtain ⟨⟨method, hmethod, huri⟩, hagreement⟩ := parseEncryptedKey_ok hspec
  simp only [checkSuite, Except.bind_eq_ok, Except.rejectIf_eq_ok, Except.forM_eq_ok,
    firstChildNamed_of_childrenNamed hmethod, ne_eq, Decidable.not_not] at hsuite
  obtain ⟨_, hkey, _, hagree, hcontent⟩ := hsuite
  refine ⟨?_, fun a ha => ?_, fun d hd => ?_⟩
  · rw [htransport, ← huri, hkey]
  · obtain ⟨keyInfo, n, hkeyInfo, hn, hparse⟩ := hagreement a (htransport ▸ ha)
    rw [firstChildNamed_of_childrenNamed hkeyInfo, Option.bind_some,
      firstChildNamed_of_childrenNamed hn] at hagree
    exact checkSuiteAgreement_ok hparse hagree
  · obtain ⟨n, hn, hdescribes⟩ := hdata.exists_left hd
    obtain ⟨method', hmethod', huri'⟩ := hdescribes.method
    have heq := hcontent n hn
    rw [firstChildNamed_of_childrenNamed hmethod', huri'] at heq
    exact heq

/-! ## The envelope -/

/-- What the result of `resolve_envelope` says of the document. -/
structure EnvelopeSound (doc : Document) (security : Node) (declared : List Str)
    (suite : Option Suite) (envelope : ResolvedEnvelope) (key : Node) : Prop where
  /-- The header has exactly one `xenc:EncryptedKey`. -/
  oneKey : childrenNamed security Ns.xenc "EncryptedKey" = [key]
  /-- There is one entry for each `xenc:EncryptedData`, in order. -/
  data : List.Forall₂ DescribesPart (childrenNamed security Ns.xenc "EncryptedData") envelope.data
  distinct : (envelope.data.map DataSpec.cid).Nodup
  parts : ∀ d ∈ envelope.data, ∃ part ∈ declared, normalizeCid part = d.cid
  /-- Every entry of a reference list names one `xenc:EncryptedData`, and every
      `xenc:EncryptedData` is named by one entry. -/
  references : ∃ targets, List.Forall₂ (Names doc) (dataReferences key security) targets ∧
    targets.Perm (childrenNamed security Ns.xenc "EncryptedData")
  placement : ∀ n ∈ doc.descendants, isEncryptionElement n = true → UnderEncryption security n
  algorithms : ∀ s, suite = some s → UsesSuite s envelope

/-- There is exactly one `xenc:EncryptedKey`. -/
theorem theEncryptedKey_ok {keys : List Node} {key : Node} (h : theEncryptedKey keys = .ok key) :
    keys = [key] := by
  unfold theEncryptedKey at h
  split at h
  · rw [Except.ok.inj h]
  · cases h
  · cases h

/-- An envelope that is resolved is sound: it has one key, each reference names a part of its own,
    and the algorithms are those that the elements name and the suite asks for. -/
theorem envelope_sound (doc : Document) (security : Node) (hs : security ∈ doc.descendants)
    (declared : List Str) (suite : Option Suite) (maxParts : Nat) (envelope : ResolvedEnvelope)
    (h : resolveEnvelope doc security declared suite maxParts = .ok (some envelope)) :
    ∃ key, EnvelopeSound doc security declared suite envelope key := by
  simp only [resolveEnvelope, Except.bind_eq_ok] at h
  obtain ⟨_, hplacement, h⟩ := h
  split at h
  · cases h
  simp only [resolveEncryption, Except.bind_eq_ok, Except.rejectIf_eq_ok, Except.pure_eq_ok,
    Option.some.injEq] at h
  obtain ⟨_, ⟨key, hkey, _, -, keyId, -, keyLists, hlists, targets, htargets, _, hnamed, data,
    hdata, _, hsuite, spec, hspec, rfl⟩, rfl⟩ := h
  have hdatas : ∀ n ∈ childrenNamed security Ns.xenc "EncryptedData", n ∈ doc.descendants := by
    intro n hn
    exact mem_descendants_trans hs (mem_descendants_of_mem_children (List.mem_filter.mp hn).1)
  obtain ⟨hdescribes, hdistinct⟩ := foldlM_addData_ok hdata
  have hdata' := hdescribes.imp fun _ _ hpart => hpart.1
  refine ⟨key, theEncryptedKey_ok hkey, hdata', hdistinct, ?_, ⟨targets, ?_⟩, ?_, ?_⟩
  · intro d hd
    obtain ⟨n, -, hpart⟩ := hdescribes.exists_left hd
    exact hpart.2
  · refine perm_of_foldlM_nameTarget hdatas ((nodup_children security).filter _) ?_ hnamed
    rw [dataReferences, childrenIn_ok hlists]
    exact htargets
  · intro n hn henc
    have hinside := Except.forM_eq_ok.mp hplacement n (List.mem_filter.mpr ⟨hn, henc⟩)
    rw [Except.rejectIf_eq_ok, Bool.not_eq_false] at hinside
    exact underEncryption_of_insideEncryption hs hn hinside
  · rintro s rfl
    exact checkSuite_ok hsuite hspec rfl hdata'

/-- An element that names an algorithm. -/
def algorithmElement (pre loc uri : Str) (children : List Tree) : Tree :=
  element pre loc [([], .lit "Algorithm", uri)] children

/-- An `xenc:EncryptedData` of a part. -/
def encryptedPartData (id cid : Str) : Tree :=
  element (.lit "xenc") (.lit "EncryptedData")
    [([], .lit "Id", id), ([], .lit "Type", Ns.swaContentOnly)] [
    algorithmElement "xenc" "EncryptionMethod" (Alg.contentCipher .aes128Gcm).uri [],
    element (.lit "xenc") (.lit "CipherData") [] [
      element (.lit "xenc") (.lit "CipherReference") [([], .lit "URI", cid)] [
        element (.lit "xenc") (.lit "Transforms") [] [
          algorithmElement "ds" "Transform" Ns.swaCiphertextTransform []]]]]

/-- A security header with an encrypted key for two parts, which it references in another order
    than their `xenc:EncryptedData` stand. -/
def encryptedHeader : List Tree :=
  [.element ⟨.lit "wsse", .lit "Security"⟩
    [(.lit "wsse", Ns.wsse), (.lit "ds", Ns.ds), (.lit "xenc", Ns.xenc),
      (.lit "xenc11", Ns.xenc11)] [] [
      element (.lit "xenc") (.lit "EncryptedKey") [([], .lit "Id", .lit "k")] [
        algorithmElement "xenc" "EncryptionMethod" (Alg.keyTransport .rsaOaep).uri [
          algorithmElement "ds" "DigestMethod" (Alg.digest .sha256).uri [],
          algorithmElement "xenc11" "MGF" (Alg.mgf .mgf1Sha256).uri []],
        element (.lit "xenc") (.lit "CipherData") []
          [leaf (.lit "xenc") (.lit "CipherValue") (.lit "AQID")],
        element (.lit "xenc") (.lit "ReferenceList") [] [
          element (.lit "xenc") (.lit "DataReference") [([], .lit "URI", .lit "#f")] [],
          element (.lit "xenc") (.lit "DataReference") [([], .lit "URI", .lit "#e")] []]],
      encryptedPartData "e" "cid:a@b", encryptedPartData "f" "cid:c@d"]]

/-- A document that is only the header. -/
def encryptedHeaderDocument : Document := ⟨encryptedHeader, by decide +kernel⟩

/-- The suite of the profiles with key transport. -/
def keyTransportSuite : Suite where
  keyMethod := (Alg.keyTransport .rsaOaep).uri
  agreement := none
  content := (Alg.contentCipher .aes128Gcm).uri

/-- The Content-IDs of the body's two parts. -/
def encryptedPartIds : List Str := [Str.lit "<a@b>", Str.lit "<c@d>"]

/-- An envelope for two parts. -/
theorem envelope_sound_two_parts : ∃ envelope,
    resolveEnvelope encryptedHeaderDocument encryptedHeaderDocument.rootElement encryptedPartIds
        (some keyTransportSuite) 4 = .ok (some envelope) ∧
      ∃ key, EnvelopeSound encryptedHeaderDocument encryptedHeaderDocument.rootElement encryptedPartIds
        (some keyTransportSuite) envelope key := by
  have hresolve : resolveEnvelope encryptedHeaderDocument encryptedHeaderDocument.rootElement
      encryptedPartIds (some keyTransportSuite) 4 =
        .ok (some ⟨⟨.rsaOaep ⟨.sha256, .mgf1Sha256⟩, [1, 2, 3], none⟩,
          [⟨Str.lit "a@b", .aes128Gcm, none⟩, ⟨Str.lit "c@d", .aes128Gcm, none⟩]⟩) := by
    decide +kernel
  exact ⟨_, hresolve, envelope_sound _ _ (Document.rootElement_mem _) _ _ _ _ hresolve⟩

end Asx
