import Asx.ForStd.Trim
import Asx.Spec.Inbound
import Asx.Spec.Wrapping

/-!
# Payload integrity

A delivered payload is covered by a `cid:` reference of its own. The receive path reads
Content-IDs in three places, each with its own normalizer: the coverage check, the envelope
of the encrypted parts and the digests of the references. They agree on every accepted
message, because the encrypted parts are the declared parts: the normalizer of the envelope
maps the declared Content-IDs onto themselves, so it changes none of them, and a Content-ID
that it leaves alone is left alone by the others.

## Key results
- `normalizeCid_declared`, `normalizeCidUri_declared`: the normalizers on the declared parts
- `openParts_ok`: what the run past the MIME match has checked
- `payloads_covered`: every payload has a reference of its own
-/

namespace Asx

open Xml

/-! ## Content-IDs -/

/-- The last step of `normalize_cid`. -/
def dropCidScheme (s : Str) : Str := if Str.eqIgnoreAsciiCase (s.take 4) "cid:" then s.drop 4 else s

/-- Without the bracket that may open a Content-ID. -/
def dropOpening (s : Str) : Str := (Str.stripPrefix "<" s).getD s

/-- Without the bracket that may close a Content-ID. -/
def dropClosing (s : Str) : Str := (Str.stripSuffix ">" s).getD s

theorem normalizeCid_eq (s : Str) :
    normalizeCid s = dropCidScheme (dropClosing (dropOpening (Str.trim s))) := rfl

theorem coverageNormalizeCid_eq (s : Str) : coverageNormalizeCid s = normalizeCid s := rfl

theorem infix_dropOpening (s : Str) : dropOpening s <:+: s := Str.infix_stripPrefix _ s

theorem infix_dropClosing (s : Str) : dropClosing s <:+: s := Str.infix_stripSuffix _ s

theorem infix_dropCidScheme (s : Str) : dropCidScheme s <:+: s := by
  unfold dropCidScheme
  split
  · exact (List.drop_suffix 4 s).isInfix
  · exact List.infix_rfl

theorem infix_normalizeCid (s : Str) : normalizeCid s <:+: s :=
  (infix_dropCidScheme _).trans ((infix_dropClosing _).trans ((infix_dropOpening _).trans
    (Str.infix_trim s)))

/-- A Content-ID without the scheme is not changed by the `trim_start_matches` of
    `normalize_cid_uri`, in either case. -/
theorem stripPrefix_cid_of_dropCidScheme {s scheme : Str} (hlen : scheme.length = 4)
    (hcid : Str.eqIgnoreAsciiCase scheme "cid:" = true) (h : dropCidScheme s = s) :
    Str.stripPrefix scheme s = none := by
  unfold Str.stripPrefix
  split
  · rename_i hpre
    obtain ⟨rest, rfl⟩ := List.isPrefixOf_iff_prefix.mp hpre
    have htake : (scheme ++ rest).take 4 = scheme := by rw [← hlen, List.take_left]
    simp only [dropCidScheme, htake, hcid, if_true] at h
    have := congrArg List.length h
    simp only [List.length_drop, List.length_append] at this
    omega
  · rfl

/-- What `normalize_cid` leaves alone, `normalize_cid_uri` leaves alone. -/
theorem normalizeCidUri_of_normalizeCid {s : Str} (h : normalizeCid s = s) :
    normalizeCidUri s = s := by
  rw [normalizeCid_eq] at h
  -- each step of `normalize_cid` fixes the text
  have htrim : Str.trim s = s :=
    Str.eq_of_infix_comp Str.infix_trim (fun t => (infix_dropCidScheme _).trans
      ((infix_dropClosing _).trans (infix_dropOpening t))) h
  rw [htrim] at h
  have hopen : dropOpening s = s :=
    Str.eq_of_infix_comp infix_dropOpening (fun t => (infix_dropCidScheme _).trans
      (infix_dropClosing t)) h
  rw [hopen] at h
  have hclose : dropClosing s = s := Str.eq_of_infix_comp infix_dropClosing infix_dropCidScheme h
  rw [hclose] at h
  -- and so does each step of `normalize_cid_uri`
  have hlower : Str.trimStartMatches "cid:" s = s :=
    Str.trimStartMatches_of_none (stripPrefix_cid_of_dropCidScheme rfl rfl h)
  have hupper : Str.trimStartMatches "CID:" s = s :=
    Str.trimStartMatches_of_none (stripPrefix_cid_of_dropCidScheme rfl rfl h)
  have hleft : s.dropWhile (· == '<') = s :=
    Str.dropWhile_of_stripPrefix_none (Str.stripPrefix_eq_none (by simp) hopen)
  have hright : Str.trimEndChar '>' s = s :=
    Str.trimEndChar_of_stripSuffix_none (Str.stripSuffix_eq_none (by simp) hclose)
  rw [normalizeCidUri, htrim, hlower, hupper, hleft, hright]

/-! ## The envelope -/

/-- An encrypted part is one that the body declares. -/
theorem resolveData_ok {n : Node} {keyId : Option Str} {declared : List Str} {spec : DataSpec}
    (h : resolveData n keyId declared = .ok spec) : ∃ d ∈ declared, normalizeCid d = spec.cid := by
  simp only [resolveData, Except.bind_eq_ok, Except.rejectIf_eq_ok, Except.pure_eq_ok] at h
  obtain ⟨-, -, -, -, -, -, -, -, -, -, -, -, -, -, -, -, -, -, -, -, reference, -, -, -, -, hdecl,
    -, -, -, -, rfl⟩ := h
  obtain ⟨d, hd, hcid⟩ := List.any_eq_true.mp (not_not.mp hdecl)
  exact ⟨d, hd, by simpa using hcid⟩

/-- The encrypted parts have distinct Content-IDs, each of them that of a declared part. -/
theorem addData_foldlM_ok {keyId : Option Str} {declared : List Str} {datas : List Node}
    {data : List DataSpec} (h : datas.foldlM (addData keyId declared) [] = .ok data) :
    (data.map DataSpec.cid).Nodup ∧
      ∀ c ∈ data.map DataSpec.cid, ∃ d ∈ declared, normalizeCid d = c := by
  refine Except.foldlM_invariant (P := fun data : List DataSpec =>
    (data.map DataSpec.cid).Nodup ∧
      ∀ c ∈ data.map DataSpec.cid, ∃ d ∈ declared, normalizeCid d = c) h ⟨by simp, by simp⟩ ?_
  rintro n - data data' ⟨hnodup, hdecl⟩ hstep
  simp only [addData, Except.bind_eq_ok, Except.rejectIf_eq_ok, Except.pure_eq_ok] at hstep
  obtain ⟨spec, hspec, -, hnew, rfl⟩ := hstep
  simp only [List.map_append, List.map_cons, List.map_nil]
  constructor
  · refine List.nodup_append.mpr ⟨hnodup, by simp, ?_⟩
    rintro c hc c' hc' rfl
    rw [List.mem_singleton] at hc'
    obtain ⟨d, hd, rfl⟩ := List.mem_map.mp hc
    exact hnew (List.any_eq_true.mpr ⟨d, hd, by simpa using hc'⟩)
  · intro c hc
    rcases List.mem_append.mp hc with hc | hc
    · exact hdecl c hc
    · rw [List.mem_singleton] at hc
      exact hc ▸ resolveData_ok hspec

/-- The encrypted parts of an envelope are distinct, and declared. -/
theorem resolveEnvelope_ok {doc : Document} {security : Node} {declared : List Str}
    {suite : Option Suite} {maxParts : Nat} {envelope : ResolvedEnvelope}
    (h : resolveEnvelope doc security declared suite maxParts = .ok (some envelope)) :
    (envelope.data.map DataSpec.cid).Nodup ∧
      ∀ c ∈ envelope.data.map DataSpec.cid, ∃ d ∈ declared, normalizeCid d = c := by
  simp only [resolveEnvelope, Except.bind_eq_ok] at h
  obtain ⟨-, -, h⟩ := h
  split at h
  · cases h
  · simp only [Except.bind_eq_ok, Except.pure_eq_ok, Option.some.injEq] at h
    obtain ⟨_, h, rfl⟩ := h
    simp only [resolveEncryption, Except.bind_eq_ok, Except.pure_eq_ok] at h
    obtain ⟨-, -, -, -, keyId, -, -, -, -, -, -, -, data, hdata, -, -, -, -, rfl⟩ := h
    exact addData_foldlM_ok hdata

/-- What the envelope of an opened message says about its parts. -/
structure EncryptsDeclared (declared : List Str) (envelope : ResolvedEnvelope) : Prop where
  /-- No Content-ID is encrypted twice. -/
  nodup : (envelope.data.map DataSpec.cid).Nodup
  /-- An encrypted part is a declared part, up to normalization. -/
  isDeclared : ∀ c ∈ envelope.data.map DataSpec.cid, ∃ d ∈ declared, normalizeCid d = c
  /-- A declared part is encrypted. -/
  isEncrypted : ∀ d ∈ declared, d ∈ envelope.data.map DataSpec.cid

/-- So are those of a message, all of whose declared parts are encrypted. -/
theorem resolveInboundEnvelope_ok {session : SessionContext} {policy : As4PushPolicy}
    {messageId : Str} {doc : Document} {declared : List Str} {suite : Suite}
    {envelope : ResolvedEnvelope}
    (h : resolveInboundEnvelope session policy messageId doc declared suite = .ok envelope) :
    EncryptsDeclared declared envelope := by
  simp only [resolveInboundEnvelope, Except.bind_eq_ok, Except.okOr_eq_ok,
    Except.mapError_eq_ok] at h
  obtain ⟨security, -, envelope?, henv, envelope', hsome, _, hplain, h⟩ := h
  rw [Except.pure_eq_ok] at h
  subst h
  obtain ⟨rfl, -⟩ := Option.filter_eq_some_iff.mp hsome
  obtain ⟨hnodup, hdecl⟩ := resolveEnvelope_ok henv
  refine ⟨hnodup, hdecl, fun d hd => ?_⟩
  unfold checkEncrypted at hplain
  split at hplain
  · cases hplain
  · rename_i hnone
    have hany := List.find?_eq_none.mp hnone d hd
    rw [Bool.not_eq_true, Bool.not_eq_false', List.any_eq_true] at hany
    obtain ⟨data, hdata, hcid⟩ := hany
    exact List.mem_map.mpr ⟨data, hdata, by simpa using hcid⟩

/-- The normalizer changes no Content-ID of an encrypted message: it maps the declared ones
    onto themselves. -/
theorem EncryptsDeclared.normalizeCid_declared {declared : List Str} {envelope : ResolvedEnvelope}
    (h : EncryptsDeclared declared envelope) : ∀ d ∈ declared, normalizeCid d = d :=
  Str.fixed_of_onto infix_normalizeCid fun d hd => h.isDeclared d (h.isEncrypted d hd)

theorem EncryptsDeclared.mem_declared {declared : List Str} {envelope : ResolvedEnvelope}
    (h : EncryptsDeclared declared envelope) {c : Str}
    (hc : c ∈ envelope.data.map DataSpec.cid) : c ∈ declared := by
  obtain ⟨d, hd, rfl⟩ := h.isDeclared c hc
  rw [h.normalizeCid_declared d hd]
  exact hd

/-! ## The decrypted parts -/

/-- What `verify_cid_references` has checked of one reference. -/
theorem verifyCidReference_ok {digests : Digests} {parts : List (Str × Bytes)}
    {reference : PendingCidReference}
    (h : verifyCidReference digests parts reference = .ok ()) :
    ∃ part ∈ parts, normalizeCidUri part.1 = reference.cid ∧
      decodeReferenceDigestValue reference.uri reference.digestMethod
        reference.digestValueBase64 = .ok (digests reference.digestMethod part.2) := by
  simp only [verifyCidReference, Except.bind_eq_ok, Except.okOr_eq_ok,
    verifyReferenceDigestMatches, Except.rejectIf_eq_ok, not_not] at h
  obtain ⟨payload, hfind, expected, hexpected, hmatch⟩ := h
  obtain ⟨part, hpart, rfl⟩ := Option.map_eq_some_iff.mp hfind
  have hcid := List.find?_some hpart
  exact ⟨part, List.mem_of_find?_eq_some hpart, by simpa using hcid, hmatch ▸ hexpected⟩

section

variable {lib : As4Library} {session : SessionContext} {policy : As4PushPolicy}
  {chainPolicy : ChainPolicy} {now : SystemTime} {body : Bytes} {contentType : Str}
  {authorize : SenderAuthorizer} {authenticated : AuthenticatedInbound} {keys : RecipientKeys}
  {suite : Suite} {inbound : InboundBody} {envelope : ResolvedEnvelope}
  {restored : List (Option Str)} {plaintexts inputs : List Bytes}

/-- The payload is the part `k` of the envelope, decrypted and decompressed, and the digest of
    the decrypted bytes under the part's restored type is the `DigestValue` of the reference. -/
structure CoveredBy (lib : As4Library) (session : SessionContext) (properties : PartProperties)
    (envelope : ResolvedEnvelope) (restored : List (Option Str)) (plaintexts : List Bytes)
    (payload : Str × Bytes × Str) (r : WsSecSignatureReference) : Prop where
  named : r.cid? = some payload.1
  digest : ∃ (k : Nat) (data : DataSpec) (kind : Option Str) (bytes input : Bytes),
    envelope.data[k]? = some data ∧ data.cid = payload.1 ∧
    restored[k]? = some kind ∧ plaintexts[k]? = some bytes ∧
    decompressPayloadIfDeclared lib.ops session payload.1 properties.compression bytes =
      .ok payload.2.1 ∧
    swaAttachmentDigestInput lib.roxmltree kind bytes = .ok input ∧
    decodeReferenceDigestValue r.uri r.digestMethod r.digestValueBase64 =
      .ok (lib.pki.digests r.digestMethod input)

/-- The digest input at a position is that of the plaintext there, under the type there. -/
theorem digestInputs_getElem? {roxmltree : Roxmltree} {k : Nat} {input : Bytes}
    (h : digestInputs roxmltree plaintexts restored = .ok inputs) (hk : inputs[k]? = some input) :
    ∃ kind bytes, restored[k]? = some kind ∧ plaintexts[k]? = some bytes ∧
      swaAttachmentDigestInput roxmltree kind bytes = .ok input := by
  have hall := Except.mapM_eq_ok.mp h
  obtain ⟨hlen, hget⟩ := List.forall₂_iff_get.mp hall
  obtain ⟨hlt, rfl⟩ := List.getElem?_eq_some_iff.mp hk
  have hzip : k < (plaintexts.zip restored).length := hlen ▸ hlt
  have hswa := hget k hzip hlt
  simp only [List.get_eq_getElem, List.getElem_zip] at hswa
  rw [List.length_zip] at hzip
  exact ⟨_, _, List.getElem?_eq_getElem (by omega), List.getElem?_eq_getElem (by omega), hswa⟩

/-- On the Content-IDs of an opened message the normalizer of the references is the
    identity. -/
theorem EncryptsDeclared.normalizeCidUri_cid {declared : List Str}
    (h : EncryptsDeclared declared envelope) {c : Str} (hc : c ∈ envelope.data.map DataSpec.cid) :
    normalizeCidUri c = c :=
  normalizeCidUri_of_normalizeCid (h.normalizeCid_declared c (h.mem_declared hc))

/-- Every declared part has the reference with exactly its Content-ID, and that reference was
    checked against the part's own bytes. -/
theorem Opened.reference_of_declared {signed : ParsedWsSecSignatureEnvelope}
    (ha : Authenticated lib session chainPolicy now body contentType authorize authenticated
      inbound signed)
    (ho : Opened lib session policy authenticated keys suite inbound envelope restored plaintexts
      inputs)
    {d : Str} (hd : d ∈ authenticated.declared) :
    ∃ r ∈ signed.references, r.cid? = some d ∧
      ∃ (k : Nat) (data : DataSpec) (input : Bytes), envelope.data[k]? = some data ∧
        data.cid = d ∧ inputs[k]? = some input ∧
        decodeReferenceDigestValue r.uri r.digestMethod r.digestValueBase64 =
          .ok (lib.pki.digests r.digestMethod input) := by
  have henv := resolveInboundEnvelope_ok ho.resolved
  obtain ⟨r, hr, cid, hcid, hcover⟩ := ha.covered d hd
  have hpending : ⟨r.uri, cid, r.digestMethod, r.digestValueBase64⟩ ∈ authenticated.deferred := by
    rw [ha.pending]
    exact List.mem_filterMap.mpr ⟨r, hr, by simp [WsSecSignatureReference.pending?, hcid]⟩
  obtain ⟨⟨c, input⟩, hpart, hnorm, hdigest⟩ :=
    verifyCidReference_ok (Except.forM_eq_ok.mp ho.digested _ hpending)
  dsimp only at hnorm hdigest
  -- the part that was found is declared, so the reference has its Content-ID unchanged
  obtain ⟨k, hk⟩ := List.mem_iff_getElem?.mp hpart
  obtain ⟨hc, hinput⟩ := List.getElem?_zip_eq_some.mp hk
  have hmem := List.mem_of_getElem? hc
  rw [henv.normalizeCidUri_cid hmem] at hnorm
  subst hnorm
  rw [coverageNormalizeCid_eq, coverageNormalizeCid_eq, henv.normalizeCid_declared d hd,
    henv.normalizeCid_declared c (henv.mem_declared hmem)] at hcover
  subst hcover
  obtain ⟨data, hdata, hdc⟩ := Option.map_eq_some_iff.mp (List.getElem?_map ▸ hc)
  exact ⟨r, hr, hcid, k, data, input, hdata, hdc, hinput, hdigest⟩

/-- A payload is covered by a reference with its own Content-ID. -/
theorem Opened.coveredBy {signed : ParsedWsSecSignatureEnvelope}
    (ha : Authenticated lib session chainPolicy now body contentType authorize authenticated
      inbound signed)
    (ho : Opened lib session policy authenticated keys suite inbound envelope restored plaintexts
      inputs)
    {d : Str} (hd : d ∈ authenticated.declared) {payload : Str × Bytes × Str}
    (hp : FromPart lib.ops session authenticated.partProperties
      ((envelope.data.map DataSpec.cid).zip plaintexts) d payload) :
    ∃ r ∈ signed.references, CoveredBy lib session authenticated.partProperties envelope restored
      plaintexts payload r := by
  obtain ⟨r, hr, hcid, k, data, input, hdata, hdc, hinput, hdigest⟩ :=
    ho.reference_of_declared ha hd
  obtain ⟨rfl, -, bytes, hpart, hdec⟩ := hp
  obtain ⟨kind, bytes', hkind, hbytes', hswa⟩ := digestInputs_getElem? ho.digestInput hinput
  -- the Content-IDs are distinct, so the digested part is the one that was decompressed
  obtain ⟨k', hk'⟩ := List.mem_iff_getElem?.mp hpart
  obtain ⟨hc', hbytes⟩ := List.getElem?_zip_eq_some.mp hk'
  have hck : (envelope.data.map DataSpec.cid)[k]? = some payload.1 := by
    rw [List.getElem?_map, hdata, Option.map_some, hdc]
  have hkk : k = k' := by
    obtain ⟨hlt, -⟩ := List.getElem?_eq_some_iff.mp hck
    have hnodup := (resolveInboundEnvelope_ok ho.resolved).nodup
    exact (List.getElem?_inj hlt hnodup).mp (hck.trans hc'.symm)
  subst hkk
  rw [hbytes', Option.some.injEq] at hbytes
  subst hbytes
  exact ⟨r, hr, hcid, k, data, kind, _, input, hdata, hdc, hkind, hbytes', hdec, hswa, hdigest⟩

end

/-- **Payload integrity**: the payloads of a body that is authenticated and opened are mapped
    injectively to the `cid:` references of the accepted signature, such that the decrypted
    bytes of each payload, as the digest input of its restored type, hash to the `DigestValue`
    of its reference. -/
theorem payloads_covered (lib : As4Library) (session : SessionContext) (policy : As4PushPolicy)
    (chainPolicy : ChainPolicy) (now later : SystemTime) (body : Bytes) (contentType : Str)
    (authorize : SenderAuthorizer) (localId : Str) (localType : Option Str) (keys : RecipientKeys)
    (suite : Suite) (authenticated : AuthenticatedInbound) (verified : VerifiedInbound)
    (hauth : authenticateInbound lib session policy chainPolicy now body contentType authorize
      localId localType = .ok authenticated)
    (hopen : openInbound lib session policy later body contentType authenticated keys suite =
      .ok verified) :
    ∃ inbound signed,
      Authenticated lib session chainPolicy now body contentType authorize authenticated inbound
        signed ∧
      ∃ refOf : Fin verified.payloads.length → Fin signed.references.length,
        Function.Injective refOf ∧
        ∀ i, ∃ envelope restored plaintexts inputs,
          Opened lib session policy authenticated keys suite inbound envelope restored plaintexts
            inputs ∧
          CoveredBy lib session authenticated.partProperties envelope restored plaintexts
            verified.payloads[i] signed.references[refOf i] := by
  obtain ⟨inbound, signed, ha⟩ := authenticateInbound_ok hauth
  obtain ⟨-, -, inbound', hread, hpayloads⟩ := openInbound_ok hopen
  rw [ha.read, Except.ok.injEq] at hread
  subst hread
  refine ⟨inbound, signed, ha, ?_⟩
  rcases inboundPayloads_ok hpayloads with hnone | hparts
  · -- the test service and a path switch deliver nothing
    have hno : ∀ i : Fin verified.payloads.length, False := by
      intro i
      have hzero := congrArg List.length hnone
      have hi := i.2
      simp only [List.length_nil] at hzero
      omega
    exact ⟨fun i => (hno i).elim, fun i => (hno i).elim, fun i => (hno i).elim⟩
  obtain ⟨envelope, restored, plaintexts, inputs, ho, hdec⟩ := openParts_ok hparts
  have hall := decompressParts_ok (fun x hx => hx) hdec
  obtain ⟨hlen, hget⟩ := List.forall₂_iff_get.mp hall
  obtain ⟨-, -, -, hnodup⟩ := declaredParts_ok ha.declares
  have hcov : ∀ i : Fin verified.payloads.length, ∃ j : Fin signed.references.length,
      CoveredBy lib session authenticated.partProperties envelope restored plaintexts
        verified.payloads[i] signed.references[j] := by
    intro i
    have hi : i.1 < authenticated.declared.length := hlen.symm ▸ i.2
    obtain ⟨r, hr, hc⟩ := ho.coveredBy ha (List.getElem_mem hi) (hget i hi i.2)
    obtain ⟨j, hj, rfl⟩ := List.getElem_of_mem hr
    exact ⟨⟨j, hj⟩, hc⟩
  choose refOf hrefOf using hcov
  refine ⟨refOf, fun i j hij => ?_, fun i => ⟨envelope, restored, plaintexts, inputs, ho, hrefOf i⟩⟩
  -- a reference names one Content-ID, and the payloads have distinct ones
  have hsame : verified.payloads[i].1 = verified.payloads[j].1 := by
    have hi := (hrefOf i).named
    have hj := (hrefOf j).named
    rw [hij, hj, Option.some.injEq] at hi
    exact hi.symm
  have hi : i.1 < authenticated.declared.length := hlen.symm ▸ i.2
  have hj : j.1 < authenticated.declared.length := hlen.symm ▸ j.2
  have hdi := (hget i hi i.2).1
  have hdj := (hget j hj j.2).1
  exact Fin.ext ((hnodup.getElem_inj_iff).mp (hdi.symm.trans (hsame.trans hdj)))

/-! ## An encrypted message

The part `p@x` is encrypted with AES-128-GCM under a content key that RSA-OAEP wraps for the
recipient. `recipientOps` and `recipientKeys` answer as OpenSSL and the key's holder do. -/

/-- An element of the XML Encryption namespace. -/
def xencElement (loc : Str) (attrs : List (Str × Str × Str)) (children : List Tree) : Tree :=
  element (.lit "xenc") loc attrs children

/-- The content key, wrapped for the recipient. -/
def wrappedKeyB64 : Str :=
  Str.lit "07eBxyEe1B06zpdtaBOsrlMKQcqE5wOKf8xmwZa2DECJWYdBTVjmu1NJE8g9s/Cc4pswMKLBOQOx1w1zEj5n" ++
    Str.lit "zq0RfbloQ8gEDCb8/X2xDc0YAmNl4x3CrOlWaKeSnrAOnRMN+V4Ikw1tj8vjqJ4ymR/QwuZ0Hse8qyfnpDaG" ++
    Str.lit "yyk="

/-- The `xenc:EncryptedKey` that names the encrypted part. -/
def encryptedKey : Tree :=
  .element ⟨.lit "xenc", .lit "EncryptedKey"⟩ [(.lit "xenc", Ns.xenc), (.lit "x11", Ns.xenc11)] [] [
    xencElement (.lit "EncryptionMethod")
      [([], .lit "Algorithm", .lit "http://www.w3.org/2009/xmlenc11#rsa-oaep")] [
      dsAlgorithm (.lit "DigestMethod") WsSecDigestMethod.sha256.algorithmUri,
      element (.lit "x11") (.lit "MGF")
        [([], .lit "Algorithm", .lit "http://www.w3.org/2009/xmlenc11#mgf1sha256")] []],
    xencElement (.lit "CipherData") [] [leaf (.lit "xenc") (.lit "CipherValue") wrappedKeyB64],
    xencElement (.lit "ReferenceList") [] [xencElement (.lit "DataReference")
      [([], .lit "URI", .lit "#e")] []]]

/-- The `xenc:EncryptedData` of the part `p@x`. -/
def encryptedData : Tree :=
  .element ⟨.lit "xenc", .lit "EncryptedData"⟩ [(.lit "xenc", Ns.xenc)]
    [⟨⟨"", "Id"⟩, "e"⟩, ⟨⟨"", "Type"⟩, Ns.swaContentOnly⟩] [
      xencElement "EncryptionMethod"
        [([], .lit "Algorithm", .lit "http://www.w3.org/2009/xmlenc11#aes128-gcm")] [],
      xencElement "CipherData" [] [
        xencElement (.lit "CipherReference") [([], .lit "URI", .lit "cid:p@x")] [
          xencElement (.lit "Transforms") []
            [dsAlgorithm (.lit "Transform") Ns.swaCiphertextTransform]]]]

/-- The content key. -/
def contentKey : Bytes := (Base64.decode "AAECAwQFBgcICQoLDA0ODw==").getD []

/-- The part `p@x` as it is sent: nonce, ciphertext and tag. -/
def encryptedPart : Bytes :=
  (Base64.decode (.lit "AAECAwQFBgcICQoL4w3eogl6k9ssHrUgthUZzOhmfyXwaCI=")).getD []

/-- The part `p@x` in clear. -/
def plainPart : Bytes := Str.utf8 "payload"

/-- The SHA-256 of `plainPart`. -/
def plainPartDigest : Str := .lit "I59Z7VXnN8dxR89VrQwbAwttfudIp0JpUvm4UtWpNeU="

/-- The ciphers, for the part above. -/
def recipientOps : XmlEncOps where
  digests := fun _ _ => []
  checkPoint := fun _ _ => .error "no key on this curve"
  aesKwUnwrap := fun _ _ _ => none
  aesGcmOpen := fun _ cek nonce sealed =>
    if cek = contentKey ∧ nonce ++ sealed = encryptedPart then some plainPart else none
  randomCek := fun cipher => List.replicate cipher.keyLen 0xFF
  decompressGzip := fun _ => .error ⟨.parseFailed, "not gzip", .new "as4_decompress"⟩

/-- The recipient's RSA key. -/
def recipientKeys : RecipientKeys := fun spec =>
  some (.rsa, fun _ => if some spec.wrappedKey = Base64.decode wrappedKeyB64 then .ok contentKey
    else .error uniformFailure)

/-- The algorithms of the message above. -/
def rsaSuite : Suite :=
  ⟨.lit "http://www.w3.org/2009/xmlenc11#rsa-oaep", none,
    .lit "http://www.w3.org/2009/xmlenc11#aes128-gcm"⟩

/-- What an endpoint takes from libraries, for the message with this header digest. -/
def recipientLibrary (doc : Document) (headerDigest : Str) : As4Library where
  roxmltree := parserFor doc
  pki := signerPki fun input => (Base64.decode
    (if input = plainPart then plainPartDigest else headerDigest)).getD []
  ops := recipientOps

/-- The MIME message: the SOAP envelope, and the encrypted part. -/
def mimeMessage (doc : Document) : Bytes :=
  Str.utf8 "--b\r\nContent-Type: application/soap+xml\r\n\r\n" ++ Str.utf8 (documentText doc) ++
    Str.utf8 "\r\n--b\r\nContent-ID: <p@x>\r\n\r\n" ++ encryptedPart ++ Str.utf8 "\r\n--b--"

theorem mimeMessage_eq (doc : Document) : mimeMessage doc =
    utf8Onto (.lit "--b\r\nContent-Type: application/soap+xml\r\n\r\n") (documentBytes doc ++
      utf8Onto (.lit "\r\n--b\r\nContent-ID: <p@x>\r\n\r\n")
        (encryptedPart ++ utf8Onto (.lit "\r\n--b--") [])) := by
  simp only [mimeMessage, utf8_documentText, ← utf8_append_eq, List.append_assoc, List.append_nil,
    lit_eq_toList]

/-- A profile's policy: signed and encrypted, five minutes ahead and a week behind. -/
def profilePolicy : As4PushPolicy :=
  ⟨true, true, false, some ⟨300 * 1000000000, 604800 * 1000000000⟩⟩

/-- The one sender has one certificate. -/
def pinnedSender : SenderAuthorizer := fun _ => .ok ⟨[signerFingerprint], none⟩

/-- `authenticate_inbound` of the message, for the party `r`. -/
def authenticateMessage (lib : As4Library) (doc : Document) : Result AuthenticatedInbound :=
  authenticateInbound lib signedSession profilePolicy signedOptions.chainPolicy 0 (mimeMessage doc)
    "multipart/related; boundary=b" pinnedSender "r" none

/-- `open_inbound` of the message. -/
def openMessage (lib : As4Library) (doc : Document) (authenticated : AuthenticatedInbound) :
    Result VerifiedInbound :=
  openInbound lib signedSession profilePolicy 0 (mimeMessage doc) "multipart/related; boundary=b"
    authenticated recipientKeys rsaSuite

/-- A part that the header declares. -/
def partInfo (href : Str) (children : List Tree) : Tree :=
  element (.lit "eb") (.lit "PartInfo") [([], .lit "href", href)] children

/-- The SHA-256 of the canonical header of `onePartMessage`. -/
def onePartDigest : Str := .lit "JiQluzr7fGQQXohmb0i9YHQE8Zs65eR/Fh7BYPGdbys="

/-- The header block of a gateway that has signed the message as it passed. -/
def gatewayBlock : Tree :=
  .element ⟨.lit "g", .lit "Countersigned"⟩ [(.lit "g", .lit "urn:gateway")] []
    [element (.lit "ds") (.lit "Signature") [] []]

/-- A message with one part, and the block of a gateway behind its own. -/
def onePartMessage : Document where
  children := soapEnvelope [
    element (.lit "eb") (.lit "Messaging")
      [(.lit "S", .lit "mustUnderstand", .lit "true"), (.lit "wsu", .lit "Id", .lit "m")]
      [userMessage (.lit "m@x") [element (.lit "eb") (.lit "PayloadInfo") []
        [partInfo (.lit "cid:p@x") []]]],
    element (.lit "wsse") (.lit "Security") [] [encryptedKey, encryptedData,
      signature [dsReference "#m" (.c14n .exclusive) onePartDigest,
        dsReference "cid:p@x" .attachmentContent plainPartDigest]
        (Str.lit "CqWBuCYCzVzvCIXeJAt8n/tj3PPZOA0ukZAKa6T1REcrsHTkt3F2gCVMnpRuOR+lFQ9CygwZo2rLn/G5ACH1" ++
          "Jg==")],
    gatewayBlock]
  ok := by decide +kernel

/-- `recipientLibrary`, for `onePartMessage`. -/
def onePartLibrary : As4Library := recipientLibrary onePartMessage onePartDigest

/-- The part of `onePartMessage`, as it is delivered. -/
def onePartPayloads : List (Str × Bytes × Str) :=
  [⟨"p@x", plainPart, "application/octet-stream"⟩]

/-- `onePartMessage` is authenticated and opened, and its part is delivered. -/
theorem onePartMessage_accepted :
    ∃ authenticated verified, authenticateMessage onePartLibrary onePartMessage =
        .ok authenticated ∧
      openMessage onePartLibrary onePartMessage authenticated = .ok verified ∧
      verified.payloads = onePartPayloads := by
  have h : ((authenticateMessage onePartLibrary onePartMessage >>=
      openMessage onePartLibrary onePartMessage).map VerifiedInbound.payloads).toOption =
      some onePartPayloads := by
    unfold authenticateMessage openMessage
    rw [mimeMessage_eq]
    decide +kernel
  rw [Except.toOption_eq_some] at h
  cases hrun : authenticateMessage onePartLibrary onePartMessage >>=
      openMessage onePartLibrary onePartMessage with
  | error e =>
    rw [hrun] at h
    cases h
  | ok verified =>
    rw [hrun, Except.map, Except.ok.injEq] at h
    obtain ⟨authenticated, ha, hv⟩ := Except.bind_eq_ok.mp hrun
    exact ⟨authenticated, verified, ha, hv, h⟩

/-- The part of `onePartMessage` is covered by a reference of its own. -/
theorem payloads_covered_one_part :
    ∃ authenticated verified inbound, ∃ signed : ParsedWsSecSignatureEnvelope,
      authenticateMessage onePartLibrary onePartMessage = .ok authenticated ∧
      openMessage onePartLibrary onePartMessage authenticated = .ok verified ∧
      verified.payloads = onePartPayloads ∧
      ∃ refOf : Fin verified.payloads.length → Fin signed.references.length,
        Function.Injective refOf ∧
        ∀ i, ∃ envelope restored plaintexts inputs,
          Opened onePartLibrary signedSession profilePolicy authenticated recipientKeys rsaSuite
            inbound envelope restored plaintexts inputs ∧
          CoveredBy onePartLibrary signedSession authenticated.partProperties envelope restored
            plaintexts verified.payloads[i] signed.references[refOf i] := by
  obtain ⟨authenticated, verified, ha, hv, hp⟩ := onePartMessage_accepted
  obtain ⟨inbound, signed, -, hcovered⟩ :=
    payloads_covered _ _ _ _ _ _ _ _ _ _ _ _ _ _ _ ha hv
  exact ⟨authenticated, verified, inbound, signed, ha, hv, hp, hcovered⟩

end Asx
