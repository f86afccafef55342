import Asx.ForStd.Ascii
import Asx.ForStd.Base64
import Asx.ForStd.Trim
import Asx.Spec.SmpCoverage

/-!
# The verdict on an enveloped reference

What a `ds:Reference` over the whole document declares: a digest method, a canonicalization with
its `PrefixList`, and the octets of a digest. The code reads the canonicalization's kind alone,
always digests with SHA-256, and compares the text of the digest value with its own Base64.

## Key results
- `digestEnvelopedReference_eq_ok`: the test that the code makes
- `envelopedVerdict_iff`: what a reference has to look like for its verdict to be that of its
  declarations
-/

namespace Asx

open Xml

/-! ## What a reference declares -/

/-- The transforms of a reference. -/
def envelopedTransforms (reference : Node) : List Node :=
  match dsChild? reference "Transforms" with
  | some transforms => transforms.children.filter (isDsElement · "Transform")
  | none => []

/-- The prefixes that a transform lists. -/
def prefixList (transform : Node) : List Str :=
  (transform.children.filter (·.hasTagName Ns.excC14n "InclusiveNamespaces")).flatMap fun child =>
    Str.splitAsciiWhitespace ((child.attribute? "PrefixList").getD [])

/-- The canonicalization that a transform is. -/
def c14nOf? (transform : Node) : Option (WsSecCanonicalizationKind × List Str) :=
  match TransformAlg.fromUri ((transform.attribute? "Algorithm").getD []) with
  | .ok (.c14n .exclusive) => some (.exclusive, prefixList transform)
  | .ok (.c14n .inclusive) => some (.inclusive, [])
  | _ => none

/-- The canonicalization of a reference: the last that is declared, else inclusive. -/
def declaredC14n (reference : Node) : WsSecCanonicalizationKind × List Str :=
  (envelopedTransforms reference).foldl (fun acc transform => (c14nOf? transform).getD acc)
    (.inclusive, [])

/-- The digest method of a reference, when it is a known one. -/
def declaredDigestMethod? (reference : Node) : Option WsSecDigestMethod :=
  ((dsChild? reference "DigestMethod").bind (·.attribute? "Algorithm")).bind fun uri =>
    (WsSecDigestMethod.fromAlgorithmUri uri).toOption

/-- The document without the signature, canonicalized as the reference declares. -/
def declaredText? (doc : Document) (signature reference : Node) : Option Str :=
  trySerializeNodeOmitting ⟨(declaredC14n reference).1, false, (declaredC14n reference).2⟩ none
    (some signature) doc.root

/-- The same without a `PrefixList`. -/
def plainText? (doc : Document) (signature reference : Node) : Option Str :=
  trySerializeNodeOmitting ⟨(declaredC14n reference).1, false, []⟩ none (some signature) doc.root

/-- White space in XML. -/
def isXmlSpace (c : Char) : Bool := c == ' ' || c == '\t' || c == '\n' || c == '\r'

/-- The character content of an element. -/
def characterContent (n : Node) : Str :=
  (n.tree.children.filter Tree.isText).flatMap fun t => t.text?.getD []

/-- The octets of the digest value, white space ignored. -/
def digestOctets? (reference : Node) : Option Bytes :=
  (dsChild? reference "DigestValue").bind fun n =>
    Base64.decode ((characterContent n).filter fun c => !isXmlSpace c)

/-- The digest value as it is written, up to white space around it. -/
def writtenDigest (reference : Node) : Str :=
  (((dsChild? reference "DigestValue").bind Node.text?).map Str.trim).getD []

/-- The value is the declared digest. -/
def DeclaredValue (digests : Digests) (doc : Document) (signature reference : Node) : Prop :=
  ∃ octets method text, digestOctets? reference = some octets ∧
    declaredDigestMethod? reference = some method ∧
    declaredText? doc signature reference = some text ∧ digests method (Str.utf8 text) = octets

/-- The digests have the lengths of their methods. -/
def Sized (digests : Digests) : Prop :=
  ∀ method input, (digests method input).length = method.outputLen

/-- A reference that declares what the code does: SHA-256, no `PrefixList` that changes the
    document, and a value that is written as the encoder writes it. -/
structure Conformant (doc : Document) (signature reference : Node) : Prop where
  method : declaredDigestMethod? reference = some .sha256
  text : declaredText? doc signature reference = plainText? doc signature reference
  value : (digestOctets? reference).map Base64.encode = some (writtenDigest reference)

/-- A reference whose value is no digest of its document under any digest function: neither its
    octets have the declared length, nor its text is the Base64 of a SHA-256 digest. -/
structure NeverMatches (doc : Document) (signature reference : Node) : Prop where
  declared : ∀ octets method text, digestOctets? reference = some octets →
    declaredDigestMethod? reference = some method →
    declaredText? doc signature reference = some text → octets.length ≠ method.outputLen
  plain : ∀ octets text, writtenDigest reference = Base64.encode octets →
    plainText? doc signature reference = some text →
    octets.length ≠ WsSecDigestMethod.sha256.outputLen

/-! ## What the code reads -/

theorem foldlM_applyEnvelopedTransform {transforms : List Node} {acc r : Bool ×
    WsSecCanonicalizationKind} {prefixes : List Str}
    (h : transforms.foldlM applyEnvelopedTransform acc = .ok r) :
    r.2 = (transforms.foldl (fun acc transform => (c14nOf? transform).getD acc)
      (acc.2, prefixes)).1 := by
  induction transforms generalizing acc prefixes with
  | nil =>
    rw [List.foldlM_nil, Except.pure_eq_ok] at h
    rw [← h, List.foldl_nil]
  | cons transform transforms ih =>
    rw [List.foldlM_cons, Except.bind_eq_ok] at h
    obtain ⟨acc', hstep, h⟩ := h
    rw [List.foldl_cons]
    unfold applyEnvelopedTransform at hstep
    unfold c14nOf?
    dsimp only at hstep
    split at hstep
    · rename_i halg
      cases hstep
      rw [halg]
      exact @ih (true, acc.2) prefixes h
    · rename_i kind halg
      cases hstep
      rw [halg]
      cases kind with
      | exclusive => exact ih h
      | inclusive => exact ih h
    · cases hstep

/-- What is kept of an accepted reference. -/
theorem parseEnvelopedReference_ok {reference : Node} {parsed : EnvelopedReference}
    (h : parseEnvelopedReference reference = .ok parsed) :
    parsed.c14nKind = (declaredC14n reference).1 ∧
      parsed.expectedDigest = writtenDigest reference := by
  unfold parseEnvelopedReference at h
  obtain ⟨-, -, h⟩ := Except.bind_eq_ok.mp h
  obtain ⟨applied, happlied, h⟩ := Except.bind_eq_ok.mp h
  obtain ⟨-, -, h⟩ := Except.bind_eq_ok.mp h
  obtain rfl := Except.pure_eq_ok.mp h
  exact ⟨foldlM_applyEnvelopedTransform happlied, rfl⟩

/-- The reference verifies when its text is the Base64 of the plain digest. -/
theorem digestEnvelopedReference_eq_ok {digests : Digests} {doc : Document}
    {signature reference : Node} {parsed : EnvelopedReference}
    (h : parseEnvelopedReference reference = .ok parsed) :
    digestEnvelopedReference digests doc signature parsed = .ok () ↔
      ∃ text, plainText? doc signature reference = some text ∧
        writtenDigest reference = Base64.encode (digests .sha256 (Str.utf8 text)) := by
  obtain ⟨hkind, hwritten⟩ := parseEnvelopedReference_ok h
  simp only [digestEnvelopedReference, canonicalizeEnvelopedDocument, Except.bind_eq_ok,
    Except.okOr_eq_ok, Except.pure_eq_ok, Except.rejectIf_eq_ok, EnvelopedReference.profile, hkind,
    hwritten, WsSecCanonicalizationProfile.exclusive, not_not, plainText?]
  constructor
  · rintro ⟨_, ⟨out, hout, rfl⟩, heq⟩
    exact ⟨out, hout, heq.symm⟩
  · rintro ⟨out, hout, heq⟩
    exact ⟨_, ⟨out, hout, rfl⟩, heq.symm⟩

/-! ## Digest functions -/

/-- The digest function that has one given digest and is constant elsewhere. -/
def oneDigest (method : WsSecDigestMethod) (text : Str) (octets : Bytes) (fill : UInt8) : Digests :=
  fun m input =>
    if m = method ∧ input = Str.utf8 text then octets else List.replicate m.outputLen fill

theorem oneDigest_self (method : WsSecDigestMethod) (text : Str) (octets : Bytes) (fill : UInt8) :
    oneDigest method text octets fill method (Str.utf8 text) = octets := if_pos ⟨rfl, rfl⟩

theorem oneDigest_sized {method : WsSecDigestMethod} {text : Str} {octets : Bytes}
    (hlength : octets.length = method.outputLen) (fill : UInt8) :
    Sized (oneDigest method text octets fill) := by
  intro m input
  unfold oneDigest
  split
  · rename_i hsame
    rw [hlength, hsame.1]
  · exact List.length_replicate

/-- Elsewhere the digest depends on what it is filled with. -/
theorem eq_of_oneDigest_eq {method m : WsSecDigestMethod} {text t : Str} {octets : Bytes}
    (h : oneDigest method text octets 0 m (Str.utf8 t) =
      oneDigest method text octets 1 m (Str.utf8 t)) : m = method ∧ t = text := by
  unfold oneDigest at h
  by_cases hsame : m = method ∧ Str.utf8 t = Str.utf8 text
  · exact ⟨hsame.1, Str.utf8_injective hsame.2⟩
  · rw [if_neg hsame, if_neg hsame] at h
    cases m <;> exact absurd h (by decide)

/-! ## The verdict -/

section

variable {doc : Document} {signature reference : Node} {parsed : EnvelopedReference}

/-- A reference that declares what the code does is judged by its declarations. -/
theorem envelopedVerdict_of_conformant (digests : Digests)
    (h : parseEnvelopedReference reference = .ok parsed)
    (hconformant : Conformant doc signature reference) :
    digestEnvelopedReference digests doc signature parsed = .ok () ↔
      DeclaredValue digests doc signature reference := by
  obtain ⟨octets, hoctets, hwritten⟩ := Option.map_eq_some_iff.mp hconformant.value
  rw [digestEnvelopedReference_eq_ok h, ← hwritten]
  constructor
  · rintro ⟨text, htext, hencode⟩
    have hsame : some octets = some (digests .sha256 (Str.utf8 text)) := by
      rw [← Base64.decode_encode, hencode, Base64.decode_encode]
    exact ⟨octets, .sha256, text, hoctets, hconformant.method, hconformant.text.trans htext,
      (Option.some.inj hsame).symm⟩
  · rintro ⟨octets', method, text, hoctets', hmethod, htext, hdigest⟩
    rw [hconformant.method, Option.some.injEq] at hmethod
    rw [hoctets, Option.some.injEq] at hoctets'
    subst hmethod hoctets'
    exact ⟨text, hconformant.text.symm.trans htext, by rw [hdigest]⟩

/-- Where no digest matches, the reference is refused, as it declares. -/
theorem envelopedVerdict_of_neverMatches {digests : Digests} (hsized : Sized digests)
    (h : parseEnvelopedReference reference = .ok parsed)
    (hnever : NeverMatches doc signature reference) :
    digestEnvelopedReference digests doc signature parsed = .ok () ↔
      DeclaredValue digests doc signature reference := by
  rw [digestEnvelopedReference_eq_ok h]
  refine iff_of_false ?_ ?_
  · rintro ⟨text, htext, hwritten⟩
    exact hnever.plain _ text hwritten htext (hsized _ _)
  · rintro ⟨octets, method, text, hoctets, hmethod, htext, rfl⟩
    exact hnever.declared _ method text hoctets hmethod htext (hsized _ _)

/-- If every digest function gives the verdict of the declarations and the octets of the value
    can be the declared digest, the reference declares what the code does. -/
theorem conformant_of_declared (h : parseEnvelopedReference reference = .ok parsed)
    (hverdict : ∀ digests, Sized digests →
      (digestEnvelopedReference digests doc signature parsed = .ok () ↔
        DeclaredValue digests doc signature reference))
    {octets : Bytes} {method : WsSecDigestMethod} {text : Str}
    (hoctets : digestOctets? reference = some octets)
    (hmethod : declaredDigestMethod? reference = some method)
    (htext : declaredText? doc signature reference = some text)
    (hlength : octets.length = method.outputLen) : Conformant doc signature reference := by
  have hwritten : ∀ fill, ∃ t, plainText? doc signature reference = some t ∧
      writtenDigest reference =
        Base64.encode (oneDigest method text octets fill .sha256 (Str.utf8 t)) := by
    intro fill
    have hvalue : DeclaredValue (oneDigest method text octets fill) doc signature reference :=
      ⟨octets, method, text, hoctets, hmethod, htext, oneDigest_self ..⟩
    exact (digestEnvelopedReference_eq_ok h).mp
      ((hverdict _ (oneDigest_sized hlength fill)).mpr hvalue)
  obtain ⟨t, hplain, hzero⟩ := hwritten 0
  obtain ⟨t', hplain', hone⟩ := hwritten 1
  rw [hplain, Option.some.injEq] at hplain'
  subst hplain'
  -- the text does not depend on the digests of other documents, so it is of this one
  have hsame : oneDigest method text octets 0 .sha256 (Str.utf8 t) =
      oneDigest method text octets 1 .sha256 (Str.utf8 t) := by
    have hdecode := congrArg Base64.decode (hzero.symm.trans hone)
    rw [Base64.decode_encode, Base64.decode_encode] at hdecode
    exact Option.some.inj hdecode
  obtain ⟨rfl, rfl⟩ := eq_of_oneDigest_eq hsame
  rw [oneDigest_self] at hzero
  exact ⟨hmethod, htext.trans hplain.symm, by rw [hoctets, hzero]; rfl⟩

/-- Likewise if the text of the value can be that of a SHA-256 digest. -/
theorem conformant_of_plain (h : parseEnvelopedReference reference = .ok parsed)
    (hverdict : ∀ digests, Sized digests →
      (digestEnvelopedReference digests doc signature parsed = .ok () ↔
        DeclaredValue digests doc signature reference))
    {octets : Bytes} {text : Str} (hwritten : writtenDigest reference = Base64.encode octets)
    (htext : plainText? doc signature reference = some text)
    (hlength : octets.length = WsSecDigestMethod.sha256.outputLen) :
    Conformant doc signature reference := by
  have hvalue : ∀ fill, DeclaredValue (oneDigest .sha256 text octets fill) doc signature
      reference := by
    intro fill
    refine (hverdict _ (oneDigest_sized hlength fill)).mp
      ((digestEnvelopedReference_eq_ok h).mpr ⟨text, htext, ?_⟩)
    rw [oneDigest_self, hwritten]
  obtain ⟨value, method, t, hoctets, hmethod, hdeclared, hzero⟩ := hvalue 0
  obtain ⟨value', method', t', hoctets', hmethod', hdeclared', hone⟩ := hvalue 1
  rw [hoctets, Option.some.injEq] at hoctets'
  rw [hmethod, Option.some.injEq] at hmethod'
  rw [hdeclared, Option.some.injEq] at hdeclared'
  subst hoctets' hmethod' hdeclared'
  obtain ⟨rfl, rfl⟩ := eq_of_oneDigest_eq (hzero.trans hone.symm)
  rw [oneDigest_self] at hzero
  exact ⟨hmethod, hdeclared.trans htext.symm, by rw [hoctets, ← hzero, hwritten]; rfl⟩

end

/-- The verdict on an accepted reference is that of its declarations, whatever the digests are,
    exactly when the reference declares what the code does or its value is no digest at all. -/
theorem envelopedVerdict_iff (doc : Document) (signature reference : Node)
    (parsed : EnvelopedReference) (h : parseEnvelopedReference reference = .ok parsed) :
    (∀ digests, Sized digests →
      (digestEnvelopedReference digests doc signature parsed = .ok () ↔
        DeclaredValue digests doc signature reference)) ↔
      Conformant doc signature reference ∨ NeverMatches doc signature reference := by
  constructor
  · intro hverdict
    by_cases hnever : NeverMatches doc signature reference
    · exact .inr hnever
    · left
      by_contra hnot
      apply hnever
      constructor
      · intro octets method text hoctets hmethod htext hlength
        exact hnot (conformant_of_declared h hverdict hoctets hmethod htext hlength)
      · intro octets text hwritten htext hlength
        exact hnot (conformant_of_plain h hverdict hwritten htext hlength)
  · rintro (hconformant | hnever) digests hsized
    · exact envelopedVerdict_of_conformant digests h hconformant
    · exact envelopedVerdict_of_neverMatches hsized h hnever

/-! ## A folded digest value -/

/-- The signature of a document and its first reference. -/
def firstEnveloped? (doc : Document) : Option (Node × Node × EnvelopedReference) := do
  let found ← (findSingleSignatureNode doc "wssec_verify_enveloped").toOption
  let signature ← found
  let signedInfo ← dsChild? signature "SignedInfo"
  let reference ← dsChild? signedInfo "Reference"
  let parsed ← (parseEnvelopedReference reference).toOption
  pure (signature, reference, parsed)

theorem parse_of_firstEnveloped? {doc : Document} {signature reference : Node}
    {parsed : EnvelopedReference} (h : firstEnveloped? doc = some (signature, reference, parsed)) :
    parseEnvelopedReference reference = .ok parsed := by
  simp only [firstEnveloped?, Option.bind_eq_bind, Option.bind_eq_some_iff, Option.pure_def,
    Option.some.injEq, Prod.mk.injEq] at h
  obtain ⟨_, -, _, -, _, -, _, -, _, hparsed, -, rfl, rfl⟩ := h
  exact Except.toOption_eq_some.mp hparsed

/-- The digest as a reference declares it. -/
def declaredDigest? (digests : Digests) (doc : Document) (signature reference : Node) :
    Option Bytes :=
  (declaredDigestMethod? reference).bind fun method =>
    (declaredText? doc signature reference).map fun text => digests method (Str.utf8 text)

/-- Whether the value of the first reference is the declared digest, and whether it verifies. -/
def firstVerdicts? (digests : Digests) (doc : Document) : Option (Bool × Bool) :=
  (firstEnveloped? doc).map fun (signature, reference, parsed) =>
    ((digestOctets? reference).isSome &&
        digestOctets? reference == declaredDigest? digests doc signature reference,
      (digestEnvelopedReference digests doc signature parsed).isOk)

theorem declaredValue_of_firstVerdicts? {digests : Digests} {doc : Document} {verdict : Bool}
    (h : firstVerdicts? digests doc = some (true, verdict)) :
    ∃ signature reference parsed, firstEnveloped? doc = some (signature, reference, parsed) ∧
      DeclaredValue digests doc signature reference ∧
      (digestEnvelopedReference digests doc signature parsed).isOk = verdict := by
  obtain ⟨⟨signature, reference, parsed⟩, hfirst, hverdicts⟩ := Option.map_eq_some_iff.mp h
  obtain ⟨hvalue, hverdict⟩ := Prod.mk.inj hverdicts
  rw [Bool.and_eq_true, beq_iff_eq] at hvalue
  obtain ⟨octets, hoctets⟩ := Option.isSome_iff_exists.mp hvalue.1
  have hdeclared := hvalue.2.symm.trans hoctets
  obtain ⟨method, hmethod, hdigest⟩ := Option.bind_eq_some_iff.mp hdeclared
  obtain ⟨text, htext, hoctetsEq⟩ := Option.map_eq_some_iff.mp hdigest
  exact ⟨signature, reference, parsed, hfirst,
    ⟨octets, method, text, hoctets, hmethod, htext, hoctetsEq⟩, hverdict⟩

/-- Whether the first reference declares what the code does. -/
def firstConformant? (doc : Document) : Option Bool :=
  (firstEnveloped? doc).map fun (signature, reference, _) =>
    declaredDigestMethod? reference == some .sha256 &&
      declaredText? doc signature reference == plainText? doc signature reference &&
      (digestOctets? reference).map Base64.encode == some (writtenDigest reference)

theorem conformant_of_firstConformant? {doc : Document} {signature reference : Node}
    {parsed : EnvelopedReference} (hfirst : firstEnveloped? doc = some (signature, reference, parsed))
    (h : firstConformant? doc = some true) : Conformant doc signature reference := by
  rw [firstConformant?, hfirst, Option.map_some, Option.some.injEq] at h
  simp only [Bool.and_eq_true, beq_iff_eq] at h
  exact ⟨h.1.1, h.1.2, h.2⟩

/-- The answer of `signedMetadataDoc` is judged by its declarations, and verifies. -/
theorem envelopedVerdict_signed_metadata :
    ∃ signature reference parsed,
      firstEnveloped? signedMetadataDoc = some (signature, reference, parsed) ∧
      DeclaredValue signedMetadataPki.digests signedMetadataDoc signature reference ∧
      (digestEnvelopedReference signedMetadataPki.digests signedMetadataDoc signature parsed).isOk =
        true ∧
      ∀ digests, Sized digests →
        (digestEnvelopedReference digests signedMetadataDoc signature parsed = .ok () ↔
          DeclaredValue digests signedMetadataDoc signature reference) := by
  have hverdicts : firstVerdicts? signedMetadataPki.digests signedMetadataDoc =
      some (true, true) := by decide +kernel
  have hconformant : firstConformant? signedMetadataDoc = some true := by decide +kernel
  obtain ⟨signature, reference, parsed, hfirst, hvalue, hok⟩ :=
    declaredValue_of_firstVerdicts? hverdicts
  exact ⟨signature, reference, parsed, hfirst, hvalue, hok,
    (envelopedVerdict_iff _ _ _ _ (parse_of_firstEnveloped? hfirst)).mpr
      (.inl (conformant_of_firstConformant? hfirst hconformant))⟩

/-- `signedMetadata` with its digest value on two lines. -/
def foldedMetadataDoc : Document where
  children :=
    [.element ⟨[], .lit "SignedServiceMetadata"⟩ [([], smpNs), (.lit "ds", Ns.ds)] [] [
      element [] (.lit "ServiceMetadata") [] [
        element [] (.lit "ServiceInformation") [] [
          element [] (.lit "ParticipantIdentifier") [([], .lit "scheme", peppolParticipantScheme)]
            [.text "0088:1"],
          element [] (.lit "DocumentIdentifier") [([], .lit "scheme", .lit "busdox-docid-qns")]
            [.text (.lit "d")],
          element [] (.lit "ProcessList") []
            [smpProcess (.lit "p") (.lit "https://ap.example/as4")]]],
      element (.lit "ds") (.lit "Signature") [] [
        element (.lit "ds") (.lit "SignedInfo") [] [
          dsReference "" .envelopedSignature
            (.lit "GaSjzOmAcoFEwVqp6OQ+hmY1G7PgarYf\n5b3BApS3Qus=")]]]]
  ok := by decide +kernel

/-- The value is the declared digest of the document, and the reference is refused. -/
theorem envelopedVerdict_folded :
    ∃ signature reference parsed,
      firstEnveloped? foldedMetadataDoc = some (signature, reference, parsed) ∧
      parseEnvelopedReference reference = .ok parsed ∧
      DeclaredValue signedMetadataPki.digests foldedMetadataDoc signature reference ∧
      digestEnvelopedReference signedMetadataPki.digests foldedMetadataDoc signature parsed ≠
        .ok () := by
  have hverdicts : firstVerdicts? signedMetadataPki.digests foldedMetadataDoc =
      some (true, false) := by decide +kernel
  obtain ⟨signature, reference, parsed, hfirst, hvalue, hrefused⟩ :=
    declaredValue_of_firstVerdicts? hverdicts
  refine ⟨signature, reference, parsed, hfirst, parse_of_firstEnveloped? hfirst, hvalue, ?_⟩
  intro hverified
  rw [hverified] at hrefused
  cases hrefused

end Asx
