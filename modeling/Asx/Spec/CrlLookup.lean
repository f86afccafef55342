import Mathlib.Data.List.TakeWhile
import Asx.ForStd.Base64
import Asx.ForStd.Except
import Asx.ForStd.Octets
import Asx.Native.Crl

/-!
# What a CRL lists

`parse_and_verify` walks the entries of a CRL with the issuer in force as running state and
keeps the pairs of issuer and serial; `lists` looks a certificate's pair up. Serials are kept
without their leading zero octets, so they are compared as numbers without sign.

## Key results
- `foldlM_readEntryExtension_ok`, `foldlM_readCrlEntry_ok`: the issuer in force at an entry is
  that of the last `CertificateIssuer` at or before it
- `parseAndVerify_ok`: what an accepted CRL has passed
- `crlLists_iff`: a certificate is listed exactly by an entry with its serial and its issuer
-/

namespace Asx

/-! ## Serials -/

/-- Two serials are one number without sign. No octets at all are not a number. -/
def SameSerial (a b : Bytes) : Prop := octetsNat a = octetsNat b ∧ (a = [] ↔ b = [])

theorem trimZeros_eq {b : Bytes} :
    trimZeros b = if b.dropWhile (· == 0) = [] then b.drop (b.length - 1)
      else b.dropWhile (· == 0) := by
  have hall : b.all (· == 0) = true ↔ b.dropWhile (· == 0) = [] := by
    rw [List.dropWhile_eq_nil_iff, List.all_eq_true]
  simp only [trimZeros, hall]

/-- Octets that are all zero are trimmed to the last one. -/
theorem trimZeros_of_zeros {b : Bytes} (h : b.dropWhile (· == 0) = []) :
    trimZeros b = if b = [] then [] else [0] := by
  have hzero : ∀ x ∈ b, x = 0 := by simpa using List.dropWhile_eq_nil_iff.mp h
  rw [trimZeros_eq, if_pos h, List.eq_replicate_of_mem hzero]
  cases b with
  | nil => rfl
  | cons x b => simp

/-- Serial numbers are compared without their leading zeros. -/
theorem trimZeros_eq_iff {a b : Bytes} : trimZeros a = trimZeros b ↔ SameSerial a b := by
  rw [SameSerial, octetsNat_eq_iff]
  have hnil : ∀ c : Bytes, c.dropWhile (· == 0) ≠ [] → c ≠ [] := by
    rintro _ h rfl
    exact h rfl
  have hzero : ∀ c : Bytes, c.dropWhile (· == 0) ≠ [0] := by
    intro c hc
    have := List.head?_dropWhile_not (· == 0) c
    rw [hc] at this
    simp at this
  by_cases ha : a.dropWhile (· == 0) = [] <;> by_cases hb : b.dropWhile (· == 0) = []
  · rw [trimZeros_of_zeros ha, trimZeros_of_zeros hb, ha, hb]
    by_cases hane : a = [] <;> by_cases hbne : b = [] <;> simp [hane, hbne]
  · rw [trimZeros_of_zeros ha, trimZeros_eq, if_neg hb, ha]
    constructor
    · intro h
      split at h
      · exact absurd h.symm hb
      · exact absurd h.symm (hzero b)
    · rintro ⟨h, -⟩
      exact absurd h.symm hb
  · rw [trimZeros_of_zeros hb, trimZeros_eq, if_neg ha, hb]
    constructor
    · intro h
      split at h
      · exact absurd h ha
      · exact absurd h (hzero a)
    · rintro ⟨h, -⟩
      exact absurd h ha
  · rw [trimZeros_eq, trimZeros_eq, if_neg ha, if_neg hb]
    simp [hnil a ha, hnil b hb]

/-! ## The issuer in force -/

/-- The issuers that the `CertificateIssuer` extensions name, in order. -/
def namedIssuers (lib : CrlLibrary) (extensions : List EntryExtension) : List Bytes :=
  (extensions.filter (·.oid = certificateIssuerOid)).filterMap fun ext =>
    certificateIssuer lib ext.value

/-- The issuer in force after some entries: that of the last `CertificateIssuer` in them, else
    the CRL's. -/
def issuerInForce (lib : CrlLibrary) (crlIssuer : Bytes) (entries : List CrlEntry) : Bytes :=
  (namedIssuers lib (entries.flatMap CrlEntry.extensions)).getLast?.getD crlIssuer

/-- The entry extension is one that a CRL with this `IssuingDistributionPoint` may have. -/
structure EntryExtensionAllowed (lib : CrlLibrary) (idp : Option Idp) (ext : EntryExtension) :
    Prop where
  known : ext.critical = true → ext.oid ∈ knownEntryExtensions
  issuer : ext.oid = certificateIssuerOid →
    idp.any (·.indirect) = true ∧ (certificateIssuer lib ext.value).isSome

theorem getLast?_getD_append {α : Type} (l m : List α) (d : α) :
    (l ++ m).getLast?.getD d = m.getLast?.getD (l.getLast?.getD d) := by
  rw [List.getLast?_append]
  cases m.getLast? <;> rfl

theorem namedIssuers_append (lib : CrlLibrary) (l m : List EntryExtension) :
    namedIssuers lib (l ++ m) = namedIssuers lib l ++ namedIssuers lib m := by
  simp [namedIssuers]

/-- One extension of an entry. -/
theorem readEntryExtension_ok {lib : CrlLibrary} {idp : Option Idp} {entryIssuer out : Bytes}
    {ext : EntryExtension} (h : readEntryExtension lib idp entryIssuer ext = .ok out) :
    out = (namedIssuers lib [ext]).getLast?.getD entryIssuer ∧
      EntryExtensionAllowed lib idp ext := by
  unfold readEntryExtension at h
  split at h
  · rename_i hoid
    split at h
    · rename_i hindirect
      rw [Except.okOr_eq_ok] at h
      refine ⟨by simp [namedIssuers, hoid, h], ?_, fun _ => ⟨hindirect, by simp [h]⟩⟩
      intro _
      rw [hoid]
      decide
    · cases h
  · rename_i hoid
    split at h
    · cases h
    · rename_i hknown
      cases h
      refine ⟨by simp [namedIssuers, hoid], ?_, fun h => absurd h hoid⟩
      intro hcritical
      by_contra hnot
      exact hknown ⟨hcritical, hnot⟩

/-- The extensions of one entry. -/
theorem foldlM_readEntryExtension_ok {lib : CrlLibrary} {idp : Option Idp}
    {extensions : List EntryExtension} {entryIssuer out : Bytes}
    (h : extensions.foldlM (readEntryExtension lib idp) entryIssuer = .ok out) :
    out = (namedIssuers lib extensions).getLast?.getD entryIssuer ∧
      ∀ ext ∈ extensions, EntryExtensionAllowed lib idp ext := by
  induction extensions generalizing entryIssuer with
  | nil =>
    rw [List.foldlM_nil, Except.pure_eq_ok] at h
    simp [h, namedIssuers]
  | cons ext extensions ih =>
    rw [List.foldlM_cons, Except.bind_eq_ok] at h
    obtain ⟨mid, hmid, h⟩ := h
    obtain ⟨hext, hallowed⟩ := readEntryExtension_ok hmid
    obtain ⟨hout, hall⟩ := ih h
    constructor
    · have happend := namedIssuers_append lib [ext] extensions
      rw [List.singleton_append] at happend
      rw [hout, hext, happend, getLast?_getD_append]
    · intro ext' hext'
      obtain rfl | hext' := List.mem_cons.mp hext'
      · exact hallowed
      · exact hall ext' hext'

/-- An entry of the CRL puts this pair into the set. -/
def Enters (lib : CrlLibrary) (issuer : Bytes) (entries : List CrlEntry) (pair : Bytes × Bytes) :
    Prop :=
  ∃ before entry after, entries = before ++ entry :: after ∧
    pair = (issuerInForce lib issuer (before ++ [entry]), trimZeros entry.rawSerial)

theorem enters_nil {lib : CrlLibrary} {issuer : Bytes} {pair : Bytes × Bytes} :
    ¬ Enters lib issuer [] pair := by
  rintro ⟨before, entry, after, h, -⟩
  simp at h

/-- The issuer in force after an entry is its own, or the one before. -/
theorem issuerInForce_cons (lib : CrlLibrary) (issuer : Bytes) (entry : CrlEntry)
    (entries : List CrlEntry) : issuerInForce lib issuer (entry :: entries) =
      issuerInForce lib (issuerInForce lib issuer [entry]) entries := by
  rw [issuerInForce, List.flatMap_cons, namedIssuers_append, getLast?_getD_append]
  simp [issuerInForce]

/-- An entry enters its serial for the issuer in force. -/
theorem enters_cons {lib : CrlLibrary} {issuer : Bytes} {entry : CrlEntry}
    {entries : List CrlEntry} {pair : Bytes × Bytes} :
    Enters lib issuer (entry :: entries) pair ↔
      pair = (issuerInForce lib issuer [entry], trimZeros entry.rawSerial) ∨
        Enters lib (issuerInForce lib issuer [entry]) entries pair := by
  constructor
  · rintro ⟨before, entry', after, hsplit, hpair⟩
    cases before with
    | nil =>
      obtain ⟨rfl, rfl⟩ := List.cons.inj hsplit
      exact .inl hpair
    | cons first before =>
      obtain ⟨rfl, rfl⟩ := List.cons.inj hsplit
      refine .inr ⟨before, entry', after, rfl, ?_⟩
      rw [hpair, List.cons_append, issuerInForce_cons]
  · rintro (hpair | ⟨before, entry', after, rfl, hpair⟩)
    · exact ⟨[], entry, entries, rfl, hpair⟩
    · refine ⟨entry :: before, entry', after, rfl, ?_⟩
      rw [hpair, List.cons_append, issuerInForce_cons lib issuer entry (before ++ [entry'])]

/-- The loop over the entries: the pairs are those that the entries put in, each under the
    issuer in force there. -/
theorem foldlM_readCrlEntry_ok {lib : CrlLibrary} {idp : Option Idp} {entries : List CrlEntry}
    {st out : Bytes × List (Bytes × Bytes)}
    (h : entries.foldlM (readCrlEntry lib idp) st = .ok out) :
    (∀ pair, pair ∈ out.2 ↔ pair ∈ st.2 ∨ Enters lib st.1 entries pair) ∧
      ∀ entry ∈ entries, ∀ ext ∈ entry.extensions, EntryExtensionAllowed lib idp ext := by
  induction entries generalizing st with
  | nil =>
    rw [List.foldlM_nil, Except.pure_eq_ok] at h
    simp [h, enters_nil]
  | cons entry entries ih =>
    rw [List.foldlM_cons, Except.bind_eq_ok] at h
    obtain ⟨mid, hmid, h⟩ := h
    simp only [readCrlEntry, Except.bind_eq_ok, Except.pure_eq_ok] at hmid
    obtain ⟨entryIssuer, hissuer, rfl⟩ := hmid
    obtain ⟨hforce, hallowed⟩ := foldlM_readEntryExtension_ok hissuer
    have hforce : entryIssuer = issuerInForce lib st.1 [entry] := by
      rw [hforce, issuerInForce, List.flatMap_singleton]
    obtain ⟨hpairs, hall⟩ := ih h
    constructor
    · intro pair
      rw [hpairs, enters_cons, List.mem_append, List.mem_singleton, or_assoc, hforce]
    · intro entry' hentry'
      obtain rfl | hentry' := List.mem_cons.mp hentry'
      · exact hallowed
      · exact hall entry' hentry'

/-! ## The CRL's own extensions -/

/-- `x509-parser` reads an extension by its OID: only a 2.5.29.35 is read as an
    `AuthorityKeyIdentifier` and only a 2.5.29.28 as an `IssuingDistributionPoint`. -/
structure ReadsByOid (lib : CrlLibrary) : Prop where
  authorityKeyIdentifier : ∀ der rest crl, lib.parseCrl der = some (rest, crl) →
    ∀ ext ∈ crl.extensions, ∀ id, ext.value = .authorityKeyIdentifier id →
      ext.oid = .lit "2.5.29.35"
  issuingDistributionPoint : ∀ der rest crl, lib.parseCrl der = some (rest, crl) →
    ∀ ext ∈ crl.extensions, ∀ point, ext.value = .issuingDistributionPoint point →
      ext.oid = .lit "2.5.29.28"

/-- The `IssuingDistributionPoint` an extension is. -/
def CrlExtension.point? (ext : CrlExtension) : Option RawIdp :=
  match ext.value with
  | .issuingDistributionPoint point => some point
  | _ => none

/-- The CRL is marked indirect: the last `IssuingDistributionPoint` says so. -/
def RawCrl.isIndirect (crl : RawCrl) : Bool :=
  (crl.extensions.filterMap CrlExtension.point?).getLast?.any (·.indirectCrl)

/-- The extension is none that makes the CRL unusable. A value that was read as one of the two
    kinds above is known. -/
structure CrlExtensionAllowed (ext : CrlExtension) : Prop where
  noDelta : ext.oid ≠ deltaCrlIndicator
  known : ext.critical = true → ext.oid ∈ knownCrlExtensions ∨
    (∃ id, ext.value = .authorityKeyIdentifier id) ∨
    ∃ point, ext.value = .issuingDistributionPoint point

/-- An extension that is read is one that the reader knows. -/
theorem readCrlExtension_ok {ski : Option Bytes} {idp out : Option Idp} {ext : CrlExtension}
    (h : readCrlExtension ski idp ext = .ok out) :
    out = ((ext.point?.map Idp.of).or idp) ∧ CrlExtensionAllowed ext := by
  unfold readCrlExtension at h
  split at h
  · cases h
  · rename_i hdelta
    split at h
    · rename_i id hvalue
      have hout : out = idp := by
        split at h
        · split at h
          · cases h
          · exact (Except.ok.inj h).symm
        · exact (Except.ok.inj h).symm
      exact ⟨by simp [hout, CrlExtension.point?, hvalue],
        hdelta, fun _ => .inr (.inl ⟨id, hvalue⟩)⟩
    · rename_i point hvalue
      exact ⟨by simp [CrlExtension.point?, hvalue, ← Except.ok.inj h], hdelta,
        fun _ => .inr (.inr ⟨point, hvalue⟩)⟩
    · rename_i hkey hpoint
      have hnone : ext.point? = none := by
        unfold CrlExtension.point?
        split
        · rename_i point hvalue
          exact absurd hvalue (hpoint point)
        · rfl
      split at h
      · cases h
      · split at h
        · cases h
        · rename_i hknown
          refine ⟨by simp [hnone, ← Except.ok.inj h], hdelta, fun hcritical => .inl ?_⟩
          by_contra hnot
          exact hknown ⟨hcritical, hnot⟩

/-- The loop over the CRL's extensions keeps the last `IssuingDistributionPoint`. -/
theorem foldlM_readCrlExtension_ok {ski : Option Bytes} {extensions : List CrlExtension}
    {idp out : Option Idp} (h : extensions.foldlM (readCrlExtension ski) idp = .ok out) :
    out = (((extensions.filterMap CrlExtension.point?).getLast?.map Idp.of).or idp) ∧
      ∀ ext ∈ extensions, CrlExtensionAllowed ext := by
  induction extensions generalizing idp with
  | nil =>
    rw [List.foldlM_nil, Except.pure_eq_ok] at h
    simp [h]
  | cons ext extensions ih =>
    rw [List.foldlM_cons, Except.bind_eq_ok] at h
    obtain ⟨mid, hmid, h⟩ := h
    obtain ⟨hext, hallowed⟩ := readCrlExtension_ok hmid
    obtain ⟨hout, hall⟩ := ih h
    constructor
    · rw [hout, hext, List.filterMap_cons]
      cases ext.point? with
      | none => simp
      | some point =>
        rw [List.getLast?_cons]
        cases (extensions.filterMap CrlExtension.point?).getLast? <;> rfl
    · intro ext' hext'
      obtain rfl | hext' := List.mem_cons.mp hext'
      · exact hallowed
      · exact hall ext' hext'

/-! ## Accepted CRLs -/

/-- A CRL that can be used for lookups: no delta CRL, no critical extension that is not
    understood, and a `CertificateIssuer` only where the CRL is marked indirect. -/
structure Usable (lib : CrlLibrary) (crl : RawCrl) : Prop where
  noDelta : ∀ ext ∈ crl.extensions, ext.oid ≠ deltaCrlIndicator
  known : ∀ ext ∈ crl.extensions, ext.critical = true → ext.oid ∈ knownCrlExtensions
  entryKnown : ∀ entry ∈ crl.entries, ∀ ext ∈ entry.extensions, ext.critical = true →
    ext.oid ∈ knownEntryExtensions
  issuer : ∀ entry ∈ crl.entries, ∀ ext ∈ entry.extensions, ext.oid = certificateIssuerOid →
    crl.isIndirect = true ∧ (certificateIssuer lib ext.value).isSome

/-- A CRL that is accepted is one that the library has parsed, with its entries as they stand. -/
theorem parseAndVerify_ok {lib : CrlLibrary} (hlib : ReadsByOid lib) {der signer : Bytes}
    {required : Bool} {crl : ParsedCrl} (h : parseAndVerify lib der signer required = .ok crl) :
    ∃ raw, lib.parseCrl der = some ([], raw) ∧ Usable lib raw ∧
      ∀ pair, pair ∈ crl.revoked ↔ Enters lib raw.issuer raw.entries pair := by
  simp only [parseAndVerify, Except.bind_eq_ok, Except.rejectIf_eq_ok, Except.okOr_eq_ok,
    Except.pure_eq_ok] at h
  obtain ⟨-, -, key, hkey, -, -, parsed, hparsed, h⟩ := h
  obtain ⟨rest, raw⟩ := parsed
  simp only [not_not] at h
  obtain ⟨-, hrest, signerParsed, -, -, -, -, -, idp, hidp, -, -, -, -, entered, hentered, rfl⟩ := h
  subst hrest
  obtain ⟨hidp, hext⟩ := foldlM_readCrlExtension_ok hidp
  obtain ⟨hpairs, hentry⟩ := foldlM_readCrlEntry_ok hentered
  have hindirect : idp.any (·.indirect) = raw.isIndirect := by
    rw [hidp, RawCrl.isIndirect]
    cases (raw.extensions.filterMap CrlExtension.point?).getLast? <;> rfl
  refine ⟨raw, hparsed, ⟨fun ext hm => (hext ext hm).noDelta, ?_, ?_, ?_⟩, ?_⟩
  · intro ext hm hcritical
    obtain hknown | ⟨id, hid⟩ | ⟨point, hpoint⟩ := (hext ext hm).known hcritical
    · exact hknown
    · rw [hlib.authorityKeyIdentifier der [] raw hparsed ext hm id hid]
      decide
    · rw [hlib.issuingDistributionPoint der [] raw hparsed ext hm point hpoint]
      decide
  · exact fun entry he ext hm => (hentry entry he ext hm).known
  · intro entry he ext hm hoid
    rw [← hindirect]
    exact (hentry entry he ext hm).issuer hoid
  · intro pair
    simpa using hpairs pair

/-- The CRL has an entry for the certificate: their serials are related, and the issuer in
    force at the entry is the certificate's. -/
def HasEntryFor (lib : CrlLibrary) (serials : Bytes → Bytes → Prop) (crl : RawCrl)
    (cert : ParsedCertificate) : Prop :=
  ∃ before entry after, crl.entries = before ++ entry :: after ∧
    serials entry.rawSerial cert.rawSerial ∧
    issuerInForce lib crl.issuer (before ++ [entry]) = cert.issuer

/-- **CRL lookup**: an accepted CRL is usable, and it lists a certificate exactly when it has
    an entry with the certificate's serial, as a number without sign, under the certificate's
    issuer. -/
theorem crlLists_iff (lib : CrlLibrary) (hlib : ReadsByOid lib) (der signer cert : Bytes)
    (required : Bool) (crl : ParsedCrl) (subject : CrlSubject)
    (hcrl : parseAndVerify lib der signer required = .ok crl)
    (hsubject : CrlSubject.of lib cert = .ok subject) :
    ∃ raw parsed, lib.parseCrl der = some ([], raw) ∧ lib.parseCertificate cert = some parsed ∧
      Usable lib raw ∧ (crl.lists subject = true ↔ HasEntryFor lib SameSerial raw parsed) := by
  obtain ⟨raw, hraw, husable, hpairs⟩ := parseAndVerify_ok hlib hcrl
  simp only [CrlSubject.of, Except.bind_eq_ok, Except.okOr_eq_ok, Except.pure_eq_ok] at hsubject
  obtain ⟨parsed, hparsed, rfl⟩ := hsubject
  refine ⟨raw, parsed, hraw, hparsed, husable, ?_⟩
  rw [ParsedCrl.lists, List.contains_iff_mem, hpairs]
  constructor
  · rintro ⟨before, entry, after, hsplit, hpair⟩
    obtain ⟨hissuer, hserial⟩ := Prod.mk.inj hpair
    exact ⟨before, entry, after, hsplit, trimZeros_eq_iff.mp hserial.symm, hissuer.symm⟩
  · rintro ⟨before, entry, after, hsplit, hserial, hissuer⟩
    refine ⟨before, entry, after, hsplit, ?_⟩
    rw [hissuer, trimZeros_eq_iff.mpr hserial]

/-! ## Two CRLs of an authority

An authority with the name `CN=s` and a certificate of it with the serial 128. One CRL of the
authority is indirect and has the serial under two issuers, the other has one entry, for the
serial −128. -/

/-- The authority's certificate. -/
def authorityCert : Bytes := (Base64.decode (
  .lit "MIIBKjCB0KADAgECAgEBMAoGCCqGSM49BAMCMAwxCjAIBgNVBAMMAXMwHhcNMjYxMTE4MDAw" ++
  .lit "MDAwWhcNNDYxMTEzMDAwMDAwWjAMMQowCAYDVQQDDAFzMFkwEwYHKoZIzj0CAQYIKoZIzj0D" ++
  .lit "AQcDQgAEd+0tmuiMMhTBlPWVCWZZiyA1s1mFLseXUMvrEf6q4FNPatl6M5dsE8uTYiVWEsfq" ++
  .lit "ln/wU0l5w/WapYIQJhTgiaMjMCEwDwYDVR0TAQH/BAUwAwEB/zAOBgNVHQ8BAf8EBAMCAQYw" ++
  .lit "CgYIKoZIzj0EAwIDSQAwRgIhAPZyzGuKcdcn2GlofDPfQrv2pIe82Out7ch0t1kefZMGAiEA" ++
  .lit "1uwGSkjTc02mwJ/4QyFJRBTd8zFlyRl2bohRdXTkAe0=")).getD []

/-- A certificate with the serial 128. -/
def partnerCert : Bytes := (Base64.decode (
  .lit "MIIBGTCBwKADAgECAgIAgDAKBggqhkjOPQQDAjAMMQowCAYDVQQDDAFzMB4XDTI2MTExODAw" ++
  .lit "MDAwMFoXDTQ2MTExMzAwMDAwMFowDDEKMAgGA1UEAwwBcDBZMBMGByqGSM49AgEGCCqGSM49" ++
  .lit "AwEHA0IABMbB3nhvNJUyTbYVWFMfHScnnNHuh5gkwYrRPlzGSH9niC1PcuojhdyUird+k7j0" ++
  .lit "rWUmqR0MDjU+3kDk0rKd2gajEjAQMA4GA1UdDwEB/wQEAwIHgDAKBggqhkjOPQQDAgNIADBF" ++
  .lit "AiA1uW51YDlEPclN+8coVDYz4bwA+KsCImhKQi1U9uhrEAIhAMfgX7N8YmoqEodr0K8vF7H+" ++
  .lit "gaZ/RtqTkOmsp44odJG/")).getD []

/-- The name `CN=s`. -/
def authorityName : Bytes :=
  [0x30, 0x0C, 0x31, 0x0A, 0x30, 0x08, 0x06, 0x03, 0x55, 0x04, 0x03, 0x0C, 0x01, 0x73]

/-- The name `CN=p`. -/
def partnerName : Bytes :=
  [0x30, 0x0C, 0x31, 0x0A, 0x30, 0x08, 0x06, 0x03, 0x55, 0x04, 0x03, 0x0C, 0x01, 0x70]

/-- A CRL with one entry, for the serial −128. -/
def negativeSerialCrl : Bytes := (Base64.decode (
  .lit "MIG5MGECAQEwCgYIKoZIzj0EAwIwDDEKMAgGA1UEAwwBcxcNMjYxMTE4MDAwMDAwWhcNMjcw" ++
  .lit "MTE4MDAwMDAwWjAUMBICAYAXDTI2MTExODAwMDAwMFqgDjAMMAoGA1UdFAQDAgEBMAoGCCqG" ++
  .lit "SM49BAMCA0gAMEUCIQDV0bw17ZcTFGR0oWdrIY+qUH916nPYKztzfAWHFYAySwIgMwg14BFe" ++
  .lit "jGRxe9Tz67/8Yw4R1Z0zxH9pRcUbZINJbIg=")).getD []

/-- The library on these encodings. -/
def negativeSerialLibrary : CrlLibrary where
  parseCertificate cert :=
    if cert = authorityCert then
      some ⟨authorityName, authorityName, [0x01], true, some true, none, none⟩
    else if cert = partnerCert then
      some ⟨partnerName, authorityName, [0x00, 0x80], false, some false, none, none⟩
    else none
  publicKey cert :=
    if cert = authorityCert then some ((cert.drop 87).take 91)
    else if cert = partnerCert then some ((cert.drop 88).take 91) else none
  isCrl der := der == negativeSerialCrl
  verifyCrl der key := der == negativeSerialCrl && key == (authorityCert.drop 87).take 91
  crlFromPem _ := none
  parseCrl der :=
    if der = negativeSerialCrl then
      some ([], ⟨authorityName, [⟨.lit "2.5.29.20", false, .other⟩], 1794960000, some 1800230400,
        [⟨[0x80], []⟩]⟩)
    else none
  generalName _ := none
  sha256 data := data

/-- The CRL as it is parsed. -/
def negativeSerialParsed : ParsedCrl :=
  ⟨1794960000 * nanosPerSec, some (1800230400 * nanosPerSec), none, [(authorityName, [0x80])]⟩

/-- The name `CN=q`. -/
def otherName : Bytes :=
  [0x30, 0x0C, 0x31, 0x0A, 0x30, 0x08, 0x06, 0x03, 0x55, 0x04, 0x03, 0x0C, 0x01, 0x71]

/-- An indirect CRL with four entries, the second and the last for the serial 128. The first
    names `CN=q` as its issuer and the third `CN=s`. -/
def indirectCrl : Bytes := (Base64.decode (
  .lit "MIIBSTCB8QIBATAKBggqhkjOPQQDAjAMMQowCAYDVQQDDAFzFw0yNjExMTgwMDAwMDBaFw0y" ++
  .lit "NzExMTgwMDAwMDBaMIGSMDICAQcXDTI2MTExODAwMDAwMFowHjAcBgNVHR0BAf8EEjAQpA4w" ++
  .lit "DDEKMAgGA1UEAwwBcTATAgIAgBcNMjYxMTE4MDAwMDAwWjAyAgEJFw0yNjExMTgwMDAwMDBa" ++
  .lit "MB4wHAYDVR0dAQH/BBIwEKQOMAwxCjAIBgNVBAMMAXMwEwICAIAXDTI2MTExODAwMDAwMFqg" ++
  .lit "HzAdMAoGA1UdFAQDAgECMA8GA1UdHAEB/wQFMAOEAf8wCgYIKoZIzj0EAwIDRwAwRAIgFKKx" ++
  .lit "8DhtNR8AD0cQbI6UQWmiUM9XDmPJOvO1hd7pZuYCIHHwVKbI6XZTdhwKq2iW5GAMSJKbFl1z" ++
  .lit "1Gtk1B4qWRR/")).getD []

/-- The value of a `CertificateIssuer` with one directory name. -/
def certificateIssuerValue (name : Bytes) : Bytes := 0x30 :: 0x10 :: 0xA4 :: 0x0E :: name

/-- `indirectCrl` as the library reads it. -/
def indirectRaw : RawCrl where
  issuer := authorityName
  extensions := [⟨.lit "2.5.29.20", false, .other⟩,
    ⟨.lit "2.5.29.28", true, .issuingDistributionPoint
      { distributionPoint := none
        onlyContainsUserCerts := false
        onlyContainsCaCerts := false
        onlySomeReasons := false
        indirectCrl := true
        onlyContainsAttributeCerts := false }⟩]
  lastUpdate := 1794960000
  nextUpdate := some 1826496000
  entries := [
    ⟨[0x07], [⟨certificateIssuerOid, true, certificateIssuerValue otherName⟩]⟩,
    ⟨[0x00, 0x80], []⟩,
    ⟨[0x09], [⟨certificateIssuerOid, true, certificateIssuerValue authorityName⟩]⟩,
    ⟨[0x00, 0x80], []⟩]

/-- `negativeSerialLibrary`, for the other CRL. -/
def indirectLibrary : CrlLibrary :=
  { negativeSerialLibrary with
    isCrl := (· == indirectCrl)
    verifyCrl := fun der key => der == indirectCrl && key == (authorityCert.drop 87).take 91
    parseCrl := fun der => if der = indirectCrl then some ([], indirectRaw) else none
    generalName := fun
      | 0xA4 :: 0x0E :: name => some (name.drop 14, .directoryName (name.take 14))
      | _ => none }

/-- `indirectCrl` as it is parsed. -/
def indirectParsed : ParsedCrl where
  thisUpdate := 1794960000 * nanosPerSec
  nextUpdate := some (1826496000 * nanosPerSec)
  idp := some ⟨none, false, false, false, false, false, true⟩
  revoked := [(otherName, [0x07]), (otherName, [0x80]), (authorityName, [0x09]),
    (authorityName, [0x80])]

theorem readsByOid_indirectLibrary : ReadsByOid indirectLibrary := by
  have hparse : ∀ der rest crl, indirectLibrary.parseCrl der = some (rest, crl) →
      crl = indirectRaw := by
    intro der rest crl h
    simp only [indirectLibrary] at h
    split at h
    · cases h
      rfl
    · cases h
  constructor
  · intro der rest crl h ext hext id hid
    rw [hparse der rest crl h] at hext
    simp only [indirectRaw, List.mem_cons, List.not_mem_nil, or_false] at hext
    obtain rfl | rfl := hext <;> cases hid
  · intro der rest crl h ext hext point hpoint
    rw [hparse der rest crl h] at hext
    simp only [indirectRaw, List.mem_cons, List.not_mem_nil, or_false] at hext
    obtain rfl | rfl := hext
    · cases hpoint
    · rfl

/-- The certificate is listed by the last entry of the indirect CRL. -/
theorem crlLists_indirect :
    indirectParsed.lists ⟨[0x80], authorityName, false⟩ = true ∧
    ∃ raw parsed, indirectLibrary.parseCrl indirectCrl = some ([], raw) ∧
      indirectLibrary.parseCertificate partnerCert = some parsed ∧
      Usable indirectLibrary raw ∧
      (indirectParsed.lists ⟨[0x80], authorityName, false⟩ = true ↔
        HasEntryFor indirectLibrary SameSerial raw parsed) := by
  have hcrl : (parseAndVerify indirectLibrary indirectCrl authorityCert true).toOption =
      some indirectParsed := by decide +kernel
  have hsubject : (CrlSubject.of indirectLibrary partnerCert).toOption =
      some ⟨[0x80], authorityName, false⟩ := by decide +kernel
  exact ⟨by decide, crlLists_iff _ readsByOid_indirectLibrary _ _ _ _ _ _
    (Except.toOption_eq_some.mp hcrl) (Except.toOption_eq_some.mp hsubject)⟩

/-- The certificate with the serial 128 is listed, and the CRL has no entry with that
    INTEGER. -/
theorem crl_lists_other_integer :
    parseAndVerify negativeSerialLibrary negativeSerialCrl authorityCert true =
      .ok negativeSerialParsed ∧
    CrlSubject.of negativeSerialLibrary partnerCert = .ok ⟨[0x80], authorityName, false⟩ ∧
    negativeSerialParsed.lists ⟨[0x80], authorityName, false⟩ = true ∧
    ∀ raw parsed, negativeSerialLibrary.parseCrl negativeSerialCrl = some ([], raw) →
      negativeSerialLibrary.parseCertificate partnerCert = some parsed →
      ¬ HasEntryFor negativeSerialLibrary (fun a b => octetsInt a = octetsInt b) raw parsed := by
  have hcrl : (parseAndVerify negativeSerialLibrary negativeSerialCrl authorityCert true).toOption =
      some negativeSerialParsed := by decide +kernel
  have hsubject : (CrlSubject.of negativeSerialLibrary partnerCert).toOption =
      some ⟨[0x80], authorityName, false⟩ := by decide +kernel
  refine ⟨Except.toOption_eq_some.mp hcrl, Except.toOption_eq_some.mp hsubject, by decide, ?_⟩
  have hserial : ((negativeSerialLibrary.parseCertificate partnerCert).map
      ParsedCertificate.rawSerial) = some [0x00, 0x80] := by decide +kernel
  have hentries : ((negativeSerialLibrary.parseCrl negativeSerialCrl).map
      fun p => p.2.entries.map CrlEntry.rawSerial) = some [[0x80]] := by decide +kernel
  rintro raw parsed hraw hparsed ⟨before, entry, after, hsplit, hinteger, -⟩
  rw [hparsed, Option.map_some, Option.some.injEq] at hserial
  rw [hraw, Option.map_some, Option.some.injEq, hsplit] at hentries
  have hmem : entry.rawSerial ∈ [[(0x80 : UInt8)]] := by
    rw [← hentries]
    simp
  rw [hserial, List.mem_singleton.mp hmem] at hinteger
  exact absurd hinteger (by decide)

end Asx
