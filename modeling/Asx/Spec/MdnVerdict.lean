import Asx.ForStd.Trim
import Asx.Spec.MdnFields

/-!
# When an MDN means delivery

`check_mdn` reports a message as delivered from the signature, the message id, the disposition
and the MIC of an MDN. It reads only the first of the disposition's modifiers, and it compares
the algorithms of the MICs only where both name one; otherwise a delivery that it reports is
one, and the fields that say so stand in the notification that the signature covers.

## Main results
- `checkMdn_delivered_iff`: what `check_mdn` tests
- `modifier_of_head`: the first modifier of the list is the one it reads
- `delivered_sound_iff`: when a reported delivery is one
-/

namespace Asx

/-! ## Modifiers -/

/-- A disposition modifier without its description, in lower case. -/
def modifierName (m : Str) : Str := Str.toAsciiLowercase (Str.trim (m.takeWhile (· ≠ ':')))

/-- The comma-separated modifiers of a disposition: what follows the `/` after the type. -/
def dispositionModifiers (disposition : Str) : List Str :=
  let action := ((Str.splitOnce ';' disposition).map fun r => Str.trim r.2).getD []
  match Str.splitOnce '/' action with
  | none => []
  | some (_, list) => (Str.splitChar ',' list).map modifierName

/-- A modifier that says that the message was not taken. -/
def negativeModifiers : List Str := [Str.lit "error", Str.lit "failure"]

theorem modifierClass_eq (m : Str) :
    modifierClass m = Str.toAsciiLowercase (Str.trim (m.takeWhile (· ≠ ':'))) := by
  unfold modifierClass
  have h := Str.head?_splitChar ':' m
  cases hs : Str.splitChar ':' m with
  | nil =>
    rw [hs] at h
    cases h
  | cons piece pieces =>
    rw [hs, List.head?_cons, Option.some.injEq] at h
    rw [List.headD_cons, h]

/-- If the first modifier of the list is negative, it is the one that `check_mdn` reads. -/
theorem modifier_of_head {disposition word : Str} (hword : word ∈ negativeModifiers)
    (h : (dispositionModifiers disposition).head? = some word) :
    (parseDisposition disposition).modifier.map modifierClass = some word := by
  have hslash : '/' ∉ word := by
    simp only [negativeModifiers, List.mem_cons, List.not_mem_nil, or_false] at hword
    rcases hword with rfl | rfl <;> decide
  have hne : word ≠ [] := by
    simp only [negativeModifiers, List.mem_cons, List.not_mem_nil, or_false] at hword
    rcases hword with rfl | rfl <;> decide
  unfold dispositionModifiers at h
  unfold parseDisposition
  generalize ((Str.splitOnce ';' disposition).map fun r => Str.trim r.2).getD [] = action at h ⊢
  dsimp only at h ⊢
  split at h
  · cases h
  rename_i kind list honce
  have haction : action ≠ [] := by
    rintro rfl
    cases honce
  rw [if_neg haction, Str.splitChar_eq '/' action, honce]
  rw [List.head?_map, Str.head?_splitChar, Option.map_some, Option.some.injEq, modifierName] at h
  simp only [List.getElem?_cons_succ, ← List.head?_eq_getElem?, Str.head?_splitChar,
    Option.bind_some, Option.map_some]
  -- the description ends before the next slash
  have hnoslash : '/' ∉ (list.takeWhile (· ≠ ',')).takeWhile (· ≠ ':') := by
    intro hmem
    apply hslash
    rw [← h, Str.toAsciiLowercase]
    exact List.mem_map.mpr ⟨'/', Str.mem_trim hmem (by decide), by decide⟩
  have hsame : ((list.takeWhile (· ≠ '/')).takeWhile (· ≠ ',')).takeWhile (· ≠ ':') =
      (list.takeWhile (· ≠ ',')).takeWhile (· ≠ ':') := by
    have hall : ((list.takeWhile (· ≠ ',')).takeWhile (· ≠ ':')).takeWhile (· ≠ '/') =
        (list.takeWhile (· ≠ ',')).takeWhile (· ≠ ':') := by
      rw [List.takeWhile_eq_self_iff]
      intro c hc
      have : c ≠ '/' := by
        rintro rfl
        exact hnoslash hc
      simpa using this
    rw [← hall]
    simp only [List.takeWhile_takeWhile]
    congr 1
    funext c
    by_cases h₁ : c = '/' <;> by_cases h₂ : c = ',' <;> by_cases h₃ : c = ':' <;> simp [h₁, h₂, h₃]
  have hclass : modifierClass (Str.trim ((list.takeWhile (· ≠ '/')).takeWhile (· ≠ ','))) =
      word := by
    rw [modifierClass_eq, Str.trim_takeWhile_trim, hsame, h]
    intro c hc
    have : c ≠ ':' := by
      rintro rfl
      exact absurd hc (by decide)
    simpa using this
  have hnonempty : Str.trim ((list.takeWhile (· ≠ '/')).takeWhile (· ≠ ',')) ≠ [] := by
    intro hempty
    rw [hempty] at hclass
    exact hne hclass.symm
  rw [Option.filter_some, if_pos (by simpa using hnonempty), Option.map_some, hclass]

/-! ## What is tested -/

/-- What `check_mdn` tests of a parsed MDN. -/
structure MdnAnswers (lib : MdnLibrary) (pins : List Bytes) (expectedId expectedMic : Str)
    (parsed : ParsedMdn) (signerDer : Option Bytes) : Prop where
  signer : parsed.isSigned = true → pinnedSigner lib pins signerDer = true
  id : ∃ id, parsed.originalMessageId = some id ∧ normalizeMessageId id = expectedId
  processed : Str.eqIgnoreAsciiCase (parseDisposition parsed.disposition).dispositionType
    "processed" = true
  modifier : (parseDisposition parsed.disposition).modifier.map modifierClass = none ∨
    (parseDisposition parsed.disposition).modifier.map modifierClass = some "warning".toList
  mic : ∃ actual, parsed.receivedContentMic = some actual ∧
    micValuesMatch actual expectedMic = true

theorem dispositionVerdict_delivered_iff {parsed : ParsedMdn} {expectedMic : Str} :
    (∃ d w, dispositionVerdict parsed expectedMic = .delivered d w) ↔
      Str.eqIgnoreAsciiCase (parseDisposition parsed.disposition).dispositionType
        "processed" = true ∧
      ((parseDisposition parsed.disposition).modifier.map modifierClass = none ∨
        (parseDisposition parsed.disposition).modifier.map modifierClass =
          some "warning".toList) ∧
      ∃ actual, parsed.receivedContentMic = some actual ∧
        micValuesMatch actual expectedMic = true := by
  unfold dispositionVerdict
  dsimp only
  generalize parseDisposition parsed.disposition = disposition
  generalize disposition.modifier.map modifierClass = modifier
  split
  · rename_i hrefused
    constructor
    · rintro ⟨d, w, h⟩
      cases h
    · rintro ⟨hprocessed, hmodifier, -⟩
      rcases hrefused with hfailed | ⟨-, herror⟩
      · -- a type cannot be both
        simp only [Str.eqIgnoreAsciiCase, beq_iff_eq] at hfailed hprocessed
        exact absurd (hfailed.symm.trans hprocessed) (by decide)
      · rcases hmodifier with h | h
        · rw [h] at herror
          cases herror
        · rw [h, Option.some.injEq] at herror
          exact absurd herror (by decide)
  · split
    · rename_i hpass
      cases hmic : parsed.receivedContentMic with
      | none => simp
      | some actual =>
        by_cases hmatch : micValuesMatch actual expectedMic = true
        · simp only [if_pos hmatch]
          exact ⟨fun _ => ⟨hpass.1, hpass.2, actual, rfl, hmatch⟩, fun _ => ⟨_, _, rfl⟩⟩
        · simp only [if_neg hmatch]
          constructor
          · rintro ⟨d, w, h⟩
            cases h
          · rintro ⟨-, -, actual', hactual, hmatch'⟩
            cases hactual
            exact absurd hmatch' hmatch
    · rename_i hpass
      constructor
      · rintro ⟨d, w, h⟩
        cases h
      · rintro ⟨hprocessed, hmodifier, -⟩
        exact absurd ⟨hprocessed, hmodifier⟩ hpass

section

variable (lib : MdnLibrary) (session : SessionContext) (pins : List Bytes) (requireSigned : Bool)
  (raw : Bytes) (contentType : Option Str) (expectedId expectedMic : Str)

/-- A delivery is reported exactly if the MDN can be parsed and passes the tests. -/
theorem checkMdn_delivered_iff :
    (∃ d w, (checkMdn lib session pins requireSigned raw contentType expectedId
        expectedMic).verdict = .delivered d w) ↔
      raw.length ≤ maxAs2MdnBytes ∧ ∃ parsed signerDer signerPath,
        parseMdnWithSigner lib session (bodyWithMimeHeaders raw contentType) requireSigned =
          .ok (parsed, signerDer, signerPath) ∧
        MdnAnswers lib pins expectedId expectedMic parsed signerDer := by
  unfold checkMdn
  dsimp only
  by_cases hlen : raw.length > maxAs2MdnBytes
  · simp only [if_pos hlen]
    constructor
    · rintro ⟨d, w, h⟩
      cases h
    · rintro ⟨hle, -⟩
      omega
  · simp only [if_neg hlen]
    cases hparse : parseMdnWithSigner lib session (bodyWithMimeHeaders raw contentType)
        requireSigned with
    | error e => simp
    | ok result =>
      obtain ⟨parsed, signerDer, signerPath⟩ := result
      by_cases hpin : parsed.isSigned = true ∧ pinnedSigner lib pins signerDer = false
      · simp only [if_pos hpin]
        constructor
        · rintro ⟨d, w, h⟩
          cases h
        · rintro ⟨-, p, s, path, heq, hanswers⟩
          cases heq
          rw [hanswers.signer hpin.1] at hpin
          cases hpin.2
      -- past the signer and the id, the disposition decides
      · by_cases hid : parsed.originalMessageId.any (fun id => normalizeMessageId id == expectedId)
        · have hid' : ∃ id, parsed.originalMessageId = some id ∧
              normalizeMessageId id = expectedId := by
            simpa [Option.any_eq_true] using hid
          simp only [if_neg hpin, hid, not_true, if_false, dispositionVerdict_delivered_iff]
          constructor
          · rintro ⟨hprocessed, hmodifier, hmic⟩
            refine ⟨Nat.le_of_not_lt hlen, parsed, signerDer, signerPath, rfl,
              fun hsigned => ?_, hid', hprocessed, hmodifier, hmic⟩
            by_contra hnot
            exact hpin ⟨hsigned, by simpa using hnot⟩
          · rintro ⟨-, p, s, path, heq, hanswers⟩
            cases heq
            exact ⟨hanswers.processed, hanswers.modifier, hanswers.mic⟩
        · simp only [if_neg hpin, hid]
          constructor
          · rintro ⟨d, w, h⟩
            cases h
          · rintro ⟨-, p, s, path, heq, hanswers⟩
            cases heq
            obtain ⟨id, hsome, hnorm⟩ := hanswers.id
            simp [hsome, hnorm] at hid

theorem checkMdn_parsed {parsed : ParsedMdn} {signerDer : Option Bytes} {signerPath : List Bytes}
    (hlen : raw.length ≤ maxAs2MdnBytes)
    (hparse : parseMdnWithSigner lib session (bodyWithMimeHeaders raw contentType) requireSigned =
      .ok (parsed, signerDer, signerPath)) :
    (checkMdn lib session pins requireSigned raw contentType expectedId expectedMic).parsed =
      some parsed := by
  unfold checkMdn
  dsimp only
  rw [if_neg (Nat.not_lt.mpr hlen), hparse]
  dsimp only
  split
  · rfl
  · split
    · rfl
    · rfl

/-! ## Soundness -/

/-- The algorithm of a MIC value, in lower case. -/
def micAlgorithm (mic : Str) : Option Str :=
  (normalizeReceivedMicValue mic).2.map Str.toAsciiLowercase

/-- What a reported delivery has to rest on. -/
structure DeliverySound (parsed : ParsedMdn) : Prop where
  /-- The signature is by a pinned certificate and covers the notification that the fields are
      read from, or no signature is required and the fields are read from the report itself. -/
  signer : (∃ entity der fingerprint,
      lib.verifyAndDecrypt (bodyWithMimeHeaders raw contentType) = .ok (some entity) ∧
      entity.signerDer = some der ∧ lib.fingerprint der = some fingerprint ∧
      fingerprint ∈ pins ∧ ReadFromEntity lib entity.entity parsed) ∨
    (requireSigned = false ∧ parsed.isSigned = false ∧
      ReadFromEntity lib (bodyWithMimeHeaders raw contentType) parsed)
  id : ∃ id, parsed.originalMessageId = some id ∧ normalizeMessageId id = expectedId
  mic : ∃ actual, parsed.receivedContentMic = some actual ∧
    micDigestsMatch (normalizeReceivedMicValue actual).1
      (normalizeReceivedMicValue expectedMic).1 = true ∧
    micAlgorithm actual = micAlgorithm expectedMic
  processed : Str.eqIgnoreAsciiCase (parseDisposition parsed.disposition).dispositionType
    "processed" = true
  modifiers : ∀ m ∈ dispositionModifiers parsed.disposition, m ∉ negativeModifiers

theorem micValuesMatch_iff {actual expected : Str} :
    micValuesMatch actual expected = true ↔
      micDigestsMatch (normalizeReceivedMicValue actual).1
          (normalizeReceivedMicValue expected).1 = true ∧
        ∀ a e, micAlgorithm actual = some a → micAlgorithm expected = some e → a = e := by
  unfold micValuesMatch micAlgorithm
  dsimp only
  rw [Bool.and_eq_true]
  refine and_congr_right fun _ => ?_
  cases (normalizeReceivedMicValue actual).2 with
  | none => simp
  | some a =>
    cases (normalizeReceivedMicValue expected).2 with
    | none => simp
    | some e =>
      simp only [Str.eqIgnoreAsciiCase, beq_iff_eq, Option.map_some, Option.some.injEq,
        Str.toAsciiLowercase]
      constructor
      · rintro h _ _ rfl rfl
        exact h
      · intro h
        exact h _ _ rfl rfl

/-- The condition that the code leaves out: no modifier after the first is negative, and the MIC
    names an algorithm if the MIC of the sent message does, and only then. -/
structure NothingUnread (parsed : ParsedMdn) : Prop where
  modifiers : ∀ m ∈ (dispositionModifiers parsed.disposition).tail, m ∉ negativeModifiers
  algorithm : ∀ actual, parsed.receivedContentMic = some actual →
    ((micAlgorithm actual).isSome ↔ (micAlgorithm expectedMic).isSome)

/-- Delivery is sound iff nothing of an MDN that answers is left unread: no further modifier is
    negative, and the MIC names an algorithm when the request has. -/
theorem delivered_sound_iff :
    (∀ d w, (checkMdn lib session pins requireSigned raw contentType expectedId
        expectedMic).verdict = .delivered d w →
      ∃ parsed, (checkMdn lib session pins requireSigned raw contentType expectedId
          expectedMic).parsed = some parsed ∧
        DeliverySound lib pins requireSigned raw contentType expectedId expectedMic parsed) ↔
      ∀ parsed signerDer signerPath, raw.length ≤ maxAs2MdnBytes →
        parseMdnWithSigner lib session (bodyWithMimeHeaders raw contentType) requireSigned =
          .ok (parsed, signerDer, signerPath) →
        MdnAnswers lib pins expectedId expectedMic parsed signerDer →
        NothingUnread expectedMic parsed := by
  have hdelivered := checkMdn_delivered_iff lib session pins requireSigned raw contentType
    expectedId expectedMic
  constructor
  -- an MDN that answers is delivered, so soundness speaks about it
  · intro hsound parsed signerDer signerPath hlen hparse hanswers
    obtain ⟨d, w, hverdict⟩ := hdelivered.mpr ⟨hlen, parsed, signerDer, signerPath, hparse, hanswers⟩
    obtain ⟨parsed', hparsed', hsound⟩ := hsound d w hverdict
    rw [checkMdn_parsed lib session pins requireSigned raw contentType expectedId expectedMic hlen
      hparse, Option.some.injEq] at hparsed'
    subst hparsed'
    refine ⟨fun m hm => hsound.modifiers m (List.mem_of_mem_tail hm), fun actual hactual => ?_⟩
    obtain ⟨actual', hactual', -, halg⟩ := hsound.mic
    rw [hactual, Option.some.injEq] at hactual'
    subst hactual'
    rw [halg]
  · intro hunread d w hverdict
    obtain ⟨hlen, parsed, signerDer, signerPath, hparse, hanswers⟩ := hdelivered.mp ⟨d, w, hverdict⟩
    have hnothing := hunread parsed signerDer signerPath hlen hparse hanswers
    refine ⟨parsed, checkMdn_parsed lib session pins requireSigned raw contentType expectedId
      expectedMic hlen hparse, ?_, hanswers.id, ?_, hanswers.processed, ?_⟩
    -- the fields are those of the verified entity, or of the body of an unsigned MDN
    · obtain ⟨hverified, hunsigned⟩ := parseMdnWithSigner_ok hparse
      cases hsigned : parsed.isSigned with
      | false =>
        obtain ⟨hnotRequired, hread⟩ := hunsigned hsigned
        exact .inr ⟨hnotRequired, rfl, hread⟩
      | true =>
        obtain ⟨verified, hok, rfl, hread⟩ := hverified hsigned
        have hpinned := hanswers.signer hsigned
        simp only [pinnedSigner, Option.any_eq_true, Option.bind_eq_some_iff] at hpinned
        obtain ⟨fingerprint, ⟨der, ⟨entity, rfl, hder⟩, hfingerprint⟩, hmem⟩ := hpinned
        exact .inl ⟨entity, der, fingerprint, hok, hder, hfingerprint, by simpa using hmem,
          hread entity rfl⟩
    -- the digests are compared; the algorithms only when both are named
    · obtain ⟨actual, hactual, hmatch⟩ := hanswers.mic
      obtain ⟨hdigest, halg⟩ := micValuesMatch_iff.mp hmatch
      refine ⟨actual, hactual, hdigest, ?_⟩
      have hiff := hnothing.algorithm actual hactual
      cases ha : micAlgorithm actual with
      | none =>
        rw [ha] at hiff
        have hnone : micAlgorithm expectedMic = none := by simpa using hiff
        exact hnone.symm
      | some a =>
        rw [ha] at hiff
        obtain ⟨e, he⟩ := Option.isSome_iff_exists.mp (hiff.mp rfl)
        rw [he, halg a e ha he]
    · -- the first modifier was read, the others are not negative
      intro m hm hneg
      cases hlist : dispositionModifiers parsed.disposition with
      | nil =>
        rw [hlist] at hm
        cases hm
      | cons first rest =>
        rw [hlist] at hm
        rcases List.mem_cons.mp hm with rfl | hrest
        · have hread := modifier_of_head hneg (by rw [hlist]; rfl)
          simp only [negativeModifiers, List.mem_cons, List.not_mem_nil, or_false] at hneg
          rcases hanswers.modifier with hnone | hwarning
          · rw [hread] at hnone
            cases hnone
          · rw [hread, Option.some.injEq] at hwarning
            rcases hneg with rfl | rfl <;> exact absurd hwarning (by decide)
        · refine hnothing.modifiers m ?_ hneg
          rw [hlist]
          exact hrest

end

/-- The fields of a notification that warns of one thing and reports another as an error. -/
def errorNotification : Str :=
  Str.lit "Final-Recipient: rfc822; r\r\nOriginal-Message-ID: <m@s>\r\n" ++
    Str.lit "Disposition: automatic-action/MDN-sent-automatically; " ++
    Str.lit "processed/warning: late, error: decryption-failed\r\n" ++
    Str.lit "Received-Content-MIC: AQID, sha-256\r\n"

/-- The MDN with these fields, unsigned. -/
def errorMdn : Bytes :=
  Str.utf8 (Str.lit "Content-Type: multipart/report; report-type=disposition-notification; " ++
    Str.lit "boundary=b\r\n\r\n--b\r\n\r\nSorry\r\n--b\r\n" ++
    Str.lit "Content-Type: message/disposition-notification\r\n\r\n" ++ errorNotification ++
    Str.lit "\r\n--b--\r\n")

/-- What the libraries make of that MDN. -/
def errorMdnLibrary : MdnLibrary where
  parseMail := fun _ => some (.mk (Str.lit "multipart/report")
    [(Str.lit "report-type", Str.lit "disposition-notification"), (Str.lit "boundary", Str.lit "b")]
    (some []) [
      .mk (Str.lit "text/plain") [] (some (Str.utf8 (Str.lit "Sorry"))) [],
      .mk (Str.lit "message/disposition-notification") [] (some (Str.utf8 errorNotification)) []])
  verifyAndDecrypt := fun _ => .ok none
  fingerprint := fun _ => none

/-- An MDN that reports an error is taken for a delivery. -/
theorem error_mdn_delivered :
    (checkMdn errorMdnLibrary ⟨Str.lit "s", Str.lit "p", true⟩ [] false errorMdn none
        (Str.lit "m@s") (Str.lit "AQID, sha-256")).verdict =
      .delivered (Str.lit "processed/warning: late, error: decryption-failed")
        (some (Str.lit "late, error: decryption-failed")) ∧
    ∃ parsed, (checkMdn errorMdnLibrary ⟨Str.lit "s", Str.lit "p", true⟩ [] false errorMdn none
        (Str.lit "m@s") (Str.lit "AQID, sha-256")).parsed = some parsed ∧
      Str.lit "error" ∈ dispositionModifiers parsed.disposition := by
  have hparsed : (checkMdn errorMdnLibrary ⟨Str.lit "s", Str.lit "p", true⟩ [] false errorMdn none
      (Str.lit "m@s") (Str.lit "AQID, sha-256")).parsed.any
        (fun parsed => Str.lit "error" ∈ dispositionModifiers parsed.disposition) = true := by
    decide +kernel
  obtain ⟨parsed, hsome, hmem⟩ := (Option.any_eq_true _ _).mp hparsed
  exact ⟨by decide +kernel, parsed, hsome, of_decide_eq_true hmem⟩

end Asx
