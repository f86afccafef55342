import Asx.ForStd.Ascii
import Asx.ForStd.List
import Asx.Native.Peppol
import Asx.Spec.SmpCoverage

/-!
# The URLs of SMP lookups

A lookup asks for `{base}/{participant}/services/{document type}`. The two identifiers are
percent-encoded, so they hold no `/` and are read back from the end of the URL, whatever the
base is. The encoding is a prefix code over the octets. Of an identifier `scheme::value` only
the value is sent: the participant's scheme is the one of the network.

## Key results
- `percentEncode_injective`, `isPathSegment_percentEncode`: the encoding
- `buildLookupUrlAt_inj`: the identifiers are determined by the URL
- `lookup_congr_send`: a lookup sends nothing to another URL
- `lookupUrls_differ_iff`: two lookups ask at different URLs exactly when a value differs
-/

namespace Asx

/-! ## Percent-encoding -/

/-- The encoding of one octet. -/
private def escapeByte (b : UInt8) : Str :=
  if isUnreserved b then [Char.ofNat b.toNat]
  else ['%', hexDigitUpper (b.toNat / 16), hexDigitUpper (b.toNat % 16)]

private theorem toNat_ofNat_byte (b : UInt8) : (Char.ofNat b.toNat).toNat = b.toNat := by
  have hall : ∀ n < 256, (Char.ofNat n).toNat = n := by decide +kernel
  exact hall b.toNat b.toNat_lt

private theorem hexDigitUpper_inj {m n : Nat} (hm : m < 16) (hn : n < 16)
    (h : hexDigitUpper m = hexDigitUpper n) : m = n := by
  have hall : ∀ m < 16, ∀ n < 16, hexDigitUpper m = hexDigitUpper n → m = n := by decide
  exact hall m hm n hn h

private theorem ne_percent_of_unreserved {b : UInt8} (h : isUnreserved b = true) :
    Char.ofNat b.toNat ≠ '%' := by
  intro he
  simp only [isUnreserved, he] at h
  exact absurd h (by decide)

/-- The first octet is read off the text. -/
private theorem escapeByte_append_inj {a b : UInt8} {s t : Str}
    (h : escapeByte a ++ s = escapeByte b ++ t) : a = b := by
  unfold escapeByte at h
  split at h <;> split at h
  · obtain ⟨hc, -⟩ := List.cons.inj h
    have hn := congrArg Char.toNat hc
    rw [toNat_ofNat_byte, toNat_ofNat_byte] at hn
    exact UInt8.toNat_inj.mp hn
  · rename_i ha _
    exact absurd (List.cons.inj h).1 (ne_percent_of_unreserved ha)
  · rename_i _ hb
    exact absurd (List.cons.inj h).1.symm (ne_percent_of_unreserved hb)
  · simp only [List.cons_append, List.cons.injEq, true_and] at h
    obtain ⟨hhigh, hlow, -⟩ := h
    have ha := a.toNat_lt
    have hb := b.toNat_lt
    have hhigh := hexDigitUpper_inj (by omega) (by omega) hhigh
    have hlow := hexDigitUpper_inj (by omega) (by omega) hlow
    exact UInt8.toNat_inj.mp (by omega)

/-- No two texts are encoded alike. -/
theorem percentEncode_injective : Function.Injective percentEncode := by
  intro s t h
  have hbytes : Str.utf8 s = Str.utf8 t :=
    List.flatMap_inj_of_prefix_code (f := escapeByte)
      (fun b => by unfold escapeByte; split <;> simp) (fun _ _ _ _ => escapeByte_append_inj) h
  have hback := congrArg Str.fromUtf8 hbytes
  rw [Str.fromUtf8_utf8, Str.fromUtf8_utf8, Option.some.injEq] at hback
  exact hback

/-- An upper-case hexadecimal digit. -/
def isHexUpper (c : Char) : Bool := Str.isAsciiDigit c || ('A' ≤ c && c ≤ 'F')

/-- Unreserved characters and `%XX` only. -/
def isPathSegment : Str → Bool
  | '%' :: x :: y :: s => isHexUpper x && isHexUpper y && isPathSegment s
  | c :: s => (Str.isAsciiAlphanumeric c || c == '-' || c == '.' || c == '_' || c == '~') &&
      isPathSegment s
  | [] => true

private theorem isPathSegment_escapeByte_append (b : UInt8) {s : Str}
    (hs : isPathSegment s = true) : isPathSegment (escapeByte b ++ s) = true := by
  unfold escapeByte
  split
  · rename_i hb
    rw [List.singleton_append, isPathSegment.eq_2]
    · rw [hs, Bool.and_true]
      exact hb
    · rintro x y rest he -
      exact absurd he (ne_percent_of_unreserved hb)
  · have hdigit : ∀ n < 16, isHexUpper (hexDigitUpper n) = true := by decide
    have hb := b.toNat_lt
    rw [List.cons_append, List.cons_append, List.singleton_append, isPathSegment.eq_1,
      hdigit _ (by omega), hdigit _ (by omega), hs]
    rfl

/-- What is encoded is one segment of a path. -/
theorem isPathSegment_percentEncode (s : Str) : isPathSegment (percentEncode s) = true := by
  suffices ∀ bytes : Bytes, isPathSegment (bytes.flatMap escapeByte) = true from this (Str.utf8 s)
  intro bytes
  induction bytes with
  | nil => rfl
  | cons b bytes ih =>
    rw [List.flatMap_cons]
    exact isPathSegment_escapeByte_append b ih

theorem slash_notMem_percentEncode (s : Str) : '/' ∉ percentEncode s := by
  intro h
  obtain ⟨b, -, hb⟩ := List.mem_flatMap.mp h
  have hall : ∀ n < 256, '/' ∉ escapeByte (.ofNat n) := by decide +kernel
  have := hall b.toNat b.toNat_lt
  rw [UInt8.ofNat_toNat] at this
  exact this hb

/-! ## Lookup URLs -/

/-- The identifiers are read back from the end of a lookup URL. -/
theorem buildLookupUrlAt_inj {config : SmpConfig} {base base' : Str} {req req' : SmpLookupRequest}
    (h : buildLookupUrlAt config base req = buildLookupUrlAt config base' req') :
    req.participantId = req'.participantId ∧ req.documentTypeId = req'.documentTypeId := by
  have hurl : ∀ (base : Str) (req : SmpLookupRequest), buildLookupUrlAt config base req =
      ((Str.trimEndChar '/' base ++
        '/' :: percentEncode (config.participantScheme ++ "::" ++ req.participantId)) ++
        '/' :: "services".toList) ++ '/' :: percentEncode req.documentTypeId := by
    intro base req
    simp [buildLookupUrlAt]
  rw [hurl, hurl] at h
  obtain ⟨h, hdocument⟩ := List.append_cons_inj_of_notMem_right
    (slash_notMem_percentEncode _) (slash_notMem_percentEncode _) h
  have h := List.append_cancel_right h
  obtain ⟨-, hparticipant⟩ := List.append_cons_inj_of_notMem_right
    (slash_notMem_percentEncode _) (slash_notMem_percentEncode _) h
  exact ⟨List.append_cancel_left (percentEncode_injective hparticipant),
    percentEncode_injective hdocument⟩

namespace Smp

variable {lib : PeppolLibrary} {smp : Smp}

/-- The URL that a lookup asks at, or the error that comes before. -/
def lookupUrl (lib : PeppolLibrary) (smp : Smp) (participant documentType : Str) :
    Except PublicError Str := do
  let net ← smp.client lib
  let base ← (resolveSmpBaseUrl net smp.config (value participant)).mapError
    (PublicError.fromInternal .smpLookup)
  pure (buildLookupUrlAt smp.config base (request participant documentType []))

/-- The same library with another HTTP client. -/
def withSend (lib : PeppolLibrary) (send : Str → Except Str HttpResponse) : PeppolLibrary :=
  { lib with net := { lib.net with send } }

theorem client_withSend (send : Str → Except Str HttpResponse) :
    smp.client (withSend lib send) = (smp.client lib).map fun net => { net with send } := by
  unfold client withSend
  split
  · rfl
  · rfl
  · cases lib.systemResolver with
    | ok resolver => rfl
    | error e => rfl

/-- The base URL does not depend on the HTTP client. -/
theorem resolveSmpBaseUrl_send (net : SmpNetwork) (config : SmpConfig) (participantId : Str)
    (send : Str → Except Str HttpResponse) :
    resolveSmpBaseUrl { net with send } config participantId =
      resolveSmpBaseUrl net config participantId := rfl

theorem send_of_client {net : SmpNetwork} (h : smp.client lib = .ok net) :
    net.send = lib.net.send := by
  unfold client at h
  split at h
  · cases h
    rfl
  · cases h
    rfl
  · split at h
    · cases h
      rfl
    · cases h

/-- The fetch asks the HTTP client for the one URL. -/
theorem fetchServiceMetadata_congr {net : SmpNetwork} {config : SmpConfig}
    {req : SmpLookupRequest} {send : Str → Except Str HttpResponse}
    (h : ∀ base, resolveSmpBaseUrl net config req.participantId = .ok base →
      send (buildLookupUrlAt config base req) = net.send (buildLookupUrlAt config base req)) :
    fetchServiceMetadata { net with send } config req = fetchServiceMetadata net config req := by
  unfold fetchServiceMetadata
  rw [resolveSmpBaseUrl_send]
  cases hbase : resolveSmpBaseUrl net config req.participantId with
  | error e => rfl
  | ok base => simp only [bind, Except.bind, h base hbase]

/-- A lookup sends nothing to another URL: what the HTTP client would answer elsewhere makes no
    difference to it. -/
theorem lookup_congr_send {participant documentType process : Str}
    {send : Str → Except Str HttpResponse}
    (h : ∀ url, smp.lookupUrl lib participant documentType = .ok url →
      send url = lib.net.send url) :
    smp.lookup (withSend lib send) participant documentType process =
      smp.lookup lib participant documentType process := by
  unfold lookup
  rw [client_withSend]
  cases hclient : smp.client lib with
  | error e => rfl
  | ok net =>
    have hfetch : fetchServiceMetadata { net with send } smp.config
          (request participant documentType process) =
        fetchServiceMetadata net smp.config (request participant documentType process) := by
      refine fetchServiceMetadata_congr fun base hbase => ?_
      rw [send_of_client hclient]
      refine h _ ?_
      have hbase : resolveSmpBaseUrl net smp.config (value participant) = .ok base := hbase
      exact Except.bind_eq_ok.mpr ⟨net, hclient, Except.bind_eq_ok.mpr
        ⟨base, by rw [hbase, Except.mapError], rfl⟩⟩
    simp only [Except.map, bind, Except.bind, lookupEndpointWith, hfetch]
    rfl

/-- The URL that is shown is built on the base of the participant. -/
theorem lookupUrl_eq_ok {participant documentType url : Str}
    (h : smp.lookupUrl lib participant documentType = .ok url) :
    ∃ base, url = buildLookupUrlAt smp.config base (request participant documentType []) := by
  simp only [lookupUrl, Except.bind_eq_ok, Except.pure_eq_ok] at h
  obtain ⟨_, -, base, -, rfl⟩ := h
  exact ⟨base, rfl⟩

/-- **SMP lookups**: two lookups ask at different URLs exactly when the values of the
    participants or of the document types differ, and the encoding of the path segments is
    injective and writes unreserved characters and `%XX` only. -/
theorem lookupUrls_differ_iff {participant participant' documentType documentType' url url' : Str}
    (h : smp.lookupUrl lib participant documentType = .ok url)
    (h' : smp.lookupUrl lib participant' documentType' = .ok url') :
    (url ≠ url' ↔ value participant ≠ value participant' ∨
        value documentType ≠ value documentType') ∧
      Function.Injective percentEncode ∧ ∀ s, isPathSegment (percentEncode s) = true := by
  refine ⟨?_, percentEncode_injective, isPathSegment_percentEncode⟩
  rw [← not_and_or, not_iff_not]
  constructor
  · rintro rfl
    obtain ⟨base, hurl⟩ := lookupUrl_eq_ok h
    obtain ⟨base', hurl'⟩ := lookupUrl_eq_ok h'
    exact buildLookupUrlAt_inj (hurl.symm.trans hurl')
  · rintro ⟨hparticipant, hdocument⟩
    have hsame : smp.lookupUrl lib participant documentType =
        smp.lookupUrl lib participant' documentType' := by
      simp only [lookupUrl, request, hparticipant, hdocument]
    rw [h, h', Except.ok.injEq] at hsame
    exact hsame

/-! ## A known SMP -/

/-- A client of one SMP. -/
def knownSmp : Smp := ⟨peppolTestSmlZone, [], some (.lit "https://smp.example/"), none⟩

/-- A library whose SMP answers every lookup. -/
def knownSmpLibrary : PeppolLibrary where
  net := signedMetadataNetwork
  systemResolver := .error ⟨.invalidInput, "no system configuration", .new "smp_discovery"⟩
  refused := fun _ => none
  certificateFromDer := fun _ => .ok ()
  subjectCn := fun _ => some "POP000001"

/-- Two participants, at one SMP. -/
theorem lookupUrls_differ_two_participants :
    knownSmp.lookupUrl knownSmpLibrary (.lit "iso6523-actorid-upis::0088:1") (.lit "s::d") =
      .ok (.lit "https://smp.example/iso6523-actorid-upis%3A%3A0088%3A1/services/d") ∧
    knownSmp.lookupUrl knownSmpLibrary (.lit "iso6523-actorid-upis::0088:2") (.lit "s::d") =
      .ok (.lit "https://smp.example/iso6523-actorid-upis%3A%3A0088%3A2/services/d") ∧
    Str.lit "https://smp.example/iso6523-actorid-upis%3A%3A0088%3A1/services/d" ≠
      Str.lit "https://smp.example/iso6523-actorid-upis%3A%3A0088%3A2/services/d" := by
  have h₁ : (knownSmp.lookupUrl knownSmpLibrary (.lit "iso6523-actorid-upis::0088:1")
      (.lit "s::d")).toOption =
      some (.lit "https://smp.example/iso6523-actorid-upis%3A%3A0088%3A1/services/d") := by
    decide +kernel
  have h₂ : (knownSmp.lookupUrl knownSmpLibrary (.lit "iso6523-actorid-upis::0088:2")
      (.lit "s::d")).toOption =
      some (.lit "https://smp.example/iso6523-actorid-upis%3A%3A0088%3A2/services/d") := by
    decide +kernel
  have h₁ := Except.toOption_eq_some.mp h₁
  have h₂ := Except.toOption_eq_some.mp h₂
  exact ⟨h₁, h₂, (lookupUrls_differ_iff h₁ h₂).1.mpr (.inl (by decide +kernel))⟩

/-- Identifiers that differ in the scheme only are looked up at one URL. -/
theorem lookupUrls_same_other_schemes :
    knownSmp.lookupUrl knownSmpLibrary (.lit "iso6523-actorid-upis::0088:1")
        (.lit "busdox-docid-qns::d") =
      .ok (.lit "https://smp.example/iso6523-actorid-upis%3A%3A0088%3A1/services/d") ∧
    knownSmp.lookupUrl knownSmpLibrary (.lit "other-actorid::0088:1")
        (.lit "peppol-doctype-wildcard::d") =
      .ok (.lit "https://smp.example/iso6523-actorid-upis%3A%3A0088%3A1/services/d") := by
  have h₁ : (knownSmp.lookupUrl knownSmpLibrary (.lit "iso6523-actorid-upis::0088:1")
      (.lit "busdox-docid-qns::d")).toOption =
      some (.lit "https://smp.example/iso6523-actorid-upis%3A%3A0088%3A1/services/d") := by
    decide +kernel
  have h₂ : (knownSmp.lookupUrl knownSmpLibrary (.lit "other-actorid::0088:1")
      (.lit "peppol-doctype-wildcard::d")).toOption =
      some (.lit "https://smp.example/iso6523-actorid-upis%3A%3A0088%3A1/services/d") := by
    decide +kernel
  exact ⟨Except.toOption_eq_some.mp h₁, Except.toOption_eq_some.mp h₂⟩

end Smp

end Asx
