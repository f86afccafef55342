import Asx.ForStd.ExceptT
import Asx.Native.TwoPass
import Asx.Spec.PayloadIntegrity

/-!
# External keys and keys in memory

`verify` runs its last step a second time when an external decrypter had to be asked. A pass
is the freshness check, followed by a computation that is the same in every pass and asks for
at most one key operation (`openInboundM_flow`), as long as the random content keys open
nothing.

## Main results
- `openInboundM_steps`: without effects the last step is `openInbound`
- `as4VerifyWith_inMemory`: with keys in memory `verify` is `as4Verify`
- `external_keys_refine_keys_in_memory`: external decrypters that answer as keys in memory do
- `stale_in_second_pass`: the second pass reads the clock again
-/

namespace Asx

/-- A computation over the recipient's keys that asks for at most one operation. -/
inductive KeyFlow (α : Type) where
  | done (r : α)
  | ask (spec : EncryptedKeySpec) (op : KeyOp) (next : Result Bytes → α)

namespace KeyFlow

variable {α β : Type} {m : Type → Type} [Monad m]

/-- The computation with these keys. -/
def run (keys : StepKeys m) : KeyFlow α → m α
  | done r => pure r
  | ask spec op next =>
    match keys spec with
    | some (_, step) => next <$> step op
    | none => pure (next (.error keyStepFailed))

/-- The computation, and then a function. -/
def map (f : α → β) : KeyFlow α → KeyFlow β
  | done r => done (f r)
  | ask spec op next => ask spec op fun answer => f (next answer)

/-- A flow that is mapped gives its answer mapped. -/
theorem run_map [LawfulMonad m] (keys : StepKeys m) (f : α → β) (flow : KeyFlow α) :
    (flow.map f).run keys = f <$> flow.run keys := by
  cases flow with
  | done r => simp [map, run]
  | ask spec op next =>
    simp only [map, run]
    split
    · simp [Functor.map_map]
    · simp

end KeyFlow

/-- The keys select these recipients. -/
def Selects {m : Type → Type} (keys : StepKeys m)
    (recipients : EncryptedKeySpec → Option RecipientKey) : Prop :=
  ∀ spec, (keys spec).map Prod.fst = recipients spec

/-- The libraries' ciphers, with other random keys. -/
def XmlEncOps.drawing (ops : XmlEncOps) (randomCek : XmlEncPayloadAlgorithm → Bytes) : XmlEncOps :=
  { ops with randomCek }

section

variable (ops : XmlEncOps) (randomCek : XmlEncPayloadAlgorithm → Bytes)

theorem bindKey_drawing (spec : EncryptedKeySpec) (recipient : RecipientKey) :
    bindKey (ops.drawing randomCek) spec recipient = bindKey ops spec recipient := rfl

theorem unlockKey_drawing (bound : BoundKey) (decrypter : KeyOp → Result Bytes) :
    unlockKey (ops.drawing randomCek) bound decrypter = unlockKey ops bound decrypter := rfl

theorem decryptContent_drawing (cipher : XmlEncPayloadAlgorithm) (cek : Bytes) :
    decryptContent (ops.drawing randomCek) cipher cek = decryptContent ops cipher cek := rfl

theorem decompressParts_drawing (session : SessionContext) (messageId : Str)
    (properties : PartProperties) (byCid : List (Str × Bytes)) (declared : List Str) :
    decompressParts (ops.drawing randomCek) session messageId properties byCid declared =
      decompressParts ops session messageId properties byCid declared := by
  induction declared generalizing byCid with
  | nil => rfl
  | cons cid declared ih =>
    rw [decompressParts, decompressParts]
    refine congrArg (_ >>= ·) (funext fun taken => ?_)
    simp only [ih]
    rfl

end

/-- No body can be opened with the random keys. -/
def NoneOpens (ops : XmlEncOps) (randomCek : XmlEncPayloadAlgorithm → Bytes)
    (bodies : List Bytes) : Prop :=
  ∀ blob ∈ bodies, ∀ cipher, decryptContent ops cipher (randomCek cipher) blob =
    .error uniformFailure

/-- Where no body opens under the random key, the loop over the bodies fails as one. -/
theorem NoneOpens.mapM {ops : XmlEncOps} {randomCek : XmlEncPayloadAlgorithm → Bytes}
    {bodies : List Bytes} (h : NoneOpens ops randomCek bodies) (hne : bodies ≠ [])
    (cipher : XmlEncPayloadAlgorithm) :
    bodies.mapM (decryptContent ops cipher (randomCek cipher)) = .error uniformFailure := by
  cases bodies with
  | nil => exact absurd rfl hne
  | cons blob bodies =>
    rw [List.mapM_cons, h blob List.mem_cons_self cipher]
    rfl

/-- What `decrypt_attachments` does with the answer to its key operation, when no body can be
    opened with a random key. -/
def openBodies (ops : XmlEncOps) (bound : BoundKey) (cipher : XmlEncPayloadAlgorithm)
    (bodies : List Bytes) (answer : Result Bytes) : Result (List Bytes) :=
  match unlockKey ops bound fun _ => answer with
  | .ok cek =>
    if cek.length = cipher.keyLen then bodies.mapM (decryptContent ops cipher cek)
    else .error uniformFailure
  | .error _ => .error uniformFailure

/-- A failed key operation draws a random key, and with it the bodies fail to open: the draw has no
    other effect. -/
theorem mapM_unlockCek_drawing {ops : XmlEncOps} {randomCek : XmlEncPayloadAlgorithm → Bytes}
    {bodies : List Bytes} (h : NoneOpens ops randomCek bodies) (hne : bodies ≠ [])
    (bound : BoundKey) (cipher : XmlEncPayloadAlgorithm) (answer : Result Bytes) :
    bodies.mapM (decryptContent (ops.drawing randomCek) cipher
        (unlockCek (ops.drawing randomCek) bound cipher fun _ => answer)) =
      openBodies ops bound cipher bodies answer := by
  rw [decryptContent_drawing, unlockCek, unlockKey_drawing, openBodies]
  cases unlockKey ops bound fun _ => answer with
  | error e => exact h.mapM hne cipher
  | ok cek =>
    by_cases hlen : cek.length = cipher.keyLen
    · simp only [if_pos hlen]
    · simp only [if_neg hlen]
      exact h.mapM hne cipher

/-- `decrypt_attachments` asks for at most one key operation, whatever the random keys are. -/
theorem decryptAttachmentsM_flow (ops : XmlEncOps) (envelope : ResolvedEnvelope)
    (bodies : List Bytes) (recipients : EncryptedKeySpec → Option RecipientKey) :
    ∃ flow : KeyFlow (Result (List Bytes)), ∀ randomCek, NoneOpens ops randomCek bodies →
      ∀ (m : Type → Type) [Monad m] [LawfulMonad m] (keys : StepKeys m),
        Selects keys recipients →
        (decryptAttachmentsM (ops.drawing randomCek) envelope bodies keys).run =
          flow.run keys := by
  -- up to the key operation nothing depends on the pass, and behind it the drawn key fails alike
  unfold decryptAttachmentsM
  cases hdata : envelope.data.head? with
  | none => exact ⟨.done (.ok []), fun _ _ _ _ _ _ _ => rfl⟩
  | some first =>
    cases hchecked : Except.rejectIf ((envelope.data.any fun d => d.cipher ≠ first.cipher) ∨
      bodies.length ≠ envelope.data.length)
      (xmlencRefused "the encrypted parts declare different content ciphers") with
    | error e =>
      refine ⟨.done (.error e), fun randomCek _ m _ _ keys hkeys => ?_⟩
      simp only [ExceptT.run_ofExcept_bind, hchecked, KeyFlow.run]
    | ok u =>
      have hne : bodies ≠ [] := by
        rintro rfl
        have hlen := (not_or.mp (Except.rejectIf_eq_ok.mp hchecked)).2
        rw [not_not, List.length_nil, eq_comm, List.length_eq_zero_iff] at hlen
        rw [hlen] at hdata
        cases hdata
      cases hrecipient : recipients envelope.key with
      | none =>
        refine ⟨.done (.error uniformFailure), fun randomCek _ m _ _ keys hkeys => ?_⟩
        have hnone := hkeys envelope.key
        rw [hrecipient, Option.map_eq_none_iff] at hnone
        simp only [ExceptT.run_ofExcept_bind, hchecked, hnone, Except.okOr, KeyFlow.run]
      | some recipient =>
        have hselected : ∀ (m : Type → Type) (keys : StepKeys m), Selects keys recipients →
            ∃ step, keys envelope.key = some (recipient, step) := by
          intro m keys hkeys
          have hsome := hkeys envelope.key
          rw [hrecipient, Option.map_eq_some_iff] at hsome
          obtain ⟨⟨_, step⟩, hselected, rfl⟩ := hsome
          exact ⟨step, hselected⟩
        cases hbound : bindKey ops envelope.key recipient with
        | error e =>
          refine ⟨.done (.error e), fun randomCek _ m _ _ keys hkeys => ?_⟩
          obtain ⟨step, hstep⟩ := hselected m keys hkeys
          simp only [ExceptT.run_ofExcept_bind, hchecked, hstep, Except.okOr, bindKey_drawing,
            hbound, KeyFlow.run]
        | ok bound =>
          refine ⟨.ask envelope.key bound.op (openBodies ops bound first.cipher bodies),
            fun randomCek hdraw m _ _ keys hkeys => ?_⟩
          obtain ⟨step, hstep⟩ := hselected m keys hkeys
          simp only [ExceptT.run_ofExcept_bind, hchecked, hstep, Except.okOr, bindKey_drawing,
            hbound, KeyFlow.run]
          rw [ExceptT.run_bind_ofExcept]
          simp only [unlockCekM, ExceptT.run_lift, map_bind, map_pure]
          rw [map_eq_pure_bind]
          refine congrArg _ (funext fun answer => ?_)
          exact congrArg pure (mapM_unlockCek_drawing hdraw hne bound first.cipher answer)

/-- The bodies of the encrypted parts can be opened with no random key, if the parts cannot. -/
theorem noneOpens_encryptedBodies {ops : XmlEncOps} {randomCek : XmlEncPayloadAlgorithm → Bytes}
    {parts : List InboundAttachment} (envelope : ResolvedEnvelope)
    (h : NoneOpens ops randomCek (parts.map InboundAttachment.bytes)) :
    NoneOpens ops randomCek (encryptedBodies envelope parts) := by
  intro blob hblob cipher
  obtain ⟨data, -, rfl⟩ := List.mem_map.mp hblob
  cases hfind : parts.find? (·.contentId == data.cid) with
  | none =>
    -- A part that is missing has no bytes, which is less than a nonce and a tag.
    simp [decryptContent, Except.rejectIf, bind, Except.bind]
  | some part => exact h part.bytes (List.mem_map_of_mem (List.mem_of_find?_eq_some hfind)) cipher

/-- The parts that are opened are parts of the body. -/
theorem matchParts_subset {session : SessionContext} {messageId : Str} {declared : List Str}
    {multipart : Option MultipartAs4Payload} {parts : List InboundAttachment}
    (h : matchParts session messageId declared multipart = .ok parts) :
    ∃ payload, multipart = some payload ∧ ∀ part ∈ parts, part ∈ payload.payloads := by
  simp only [matchParts, Except.bind_eq_ok, Except.okOr_eq_ok, Except.mapM_eq_ok] at h
  obtain ⟨payload, hpayload, _, -, _, -, hparts⟩ := h
  refine ⟨payload, hpayload, fun part hpart => ?_⟩
  obtain ⟨cid, -, hfind⟩ := hparts.exists_left hpart
  exact List.mem_of_find?_eq_some hfind

/-- `openParts` after the decryption. -/
def finishParts (lib : As4Library) (session : SessionContext) (authenticated : AuthenticatedInbound)
    (envelope : ResolvedEnvelope) (restored : List (Option Str)) (plaintexts : List Bytes) :
    Result (List (Str × Bytes × Str)) := do
  let inputs ← digestInputs lib.roxmltree plaintexts restored
  (verifyCidReferences lib.pki.digests authenticated.deferred
    ((envelope.data.map DataSpec.cid).zip inputs)).mapError
      (·.withMessageId authenticated.parsed.messageId)
  decompressParts lib.ops session authenticated.parsed.messageId authenticated.partProperties
    ((envelope.data.map DataSpec.cid).zip plaintexts) authenticated.declared

section

variable (lib : As4Library) (session : SessionContext) (policy : As4PushPolicy)
  (authenticated : AuthenticatedInbound) (suite : Suite)
  (recipients : EncryptedKeySpec → Option RecipientKey)

/-- Opening the parts asks for at most one key operation. -/
theorem openPartsM_flow (inbound : InboundBody) :
    ∃ flow : KeyFlow (Result (List (Str × Bytes × Str))), ∀ pass : Pass,
      (∀ payload, inbound.multipart = some payload → NoneOpens lib.ops pass.randomCek
        (payload.payloads.map InboundAttachment.bytes)) →
      ∀ (m : Type → Type) [Monad m] [LawfulMonad m] (keys : StepKeys m),
        Selects keys recipients →
        (openPartsM (lib.during pass) session policy authenticated keys suite inbound).run =
          flow.run keys := by
  unfold openPartsM
  cases hparts : matchParts session authenticated.parsed.messageId authenticated.declared
      inbound.multipart with
  | error e =>
    refine ⟨.done (.error e), fun pass _ m _ _ keys _ => ?_⟩
    simp only [ExceptT.run_ofExcept_bind, hparts, KeyFlow.run]
  | ok parts =>
    cases henvelope : resolveInboundEnvelope session policy authenticated.parsed.messageId
        inbound.doc authenticated.declared suite with
    | error e =>
      refine ⟨.done (.error e), fun pass _ m _ _ keys _ => ?_⟩
      simp only [ExceptT.run_ofExcept_bind, hparts, henvelope, KeyFlow.run]
    | ok envelope =>
      cases hrestored : restoredTypes session authenticated.parsed.messageId
          authenticated.partProperties envelope with
      | error e =>
        refine ⟨.done (.error e), fun pass _ m _ _ keys _ => ?_⟩
        simp only [ExceptT.run_ofExcept_bind, hparts, henvelope, hrestored, KeyFlow.run]
      | ok restored =>
        obtain ⟨flow, hflow⟩ := decryptAttachmentsM_flow lib.ops envelope
          (encryptedBodies envelope parts) recipients
        refine ⟨flow.map fun r => r.mapError (·.withMessageId authenticated.parsed.messageId) >>=
          finishParts lib session authenticated envelope restored,
          fun pass hpass m _ _ keys hkeys => ?_⟩
        have hnone : NoneOpens lib.ops pass.randomCek (encryptedBodies envelope parts) := by
          obtain ⟨payload, hpayload, hsub⟩ := matchParts_subset hparts
          refine noneOpens_encryptedBodies envelope fun blob hblob => ?_
          obtain ⟨part, hpart, rfl⟩ := List.mem_map.mp hblob
          exact hpass payload hpayload _ (List.mem_map_of_mem (hsub part hpart))
        have hdecompress : decompressParts (lib.during pass).ops = decompressParts lib.ops := by
          funext session messageId properties byCid declared
          exact decompressParts_drawing lib.ops pass.randomCek session messageId properties byCid
            declared
        simp only [ExceptT.run_ofExcept_bind, hparts, henvelope, hrestored, hdecompress,
          ExceptT.ofExcept_bind_ofExcept]
        rw [ExceptT.run_bind_ofExcept, ExceptT.run_adapt, Functor.map_map, KeyFlow.run_map,
          ← hflow pass.randomCek hnone m keys hkeys]
        rfl

/-- Opening the payloads is one flow for all passes in which no body opens under the random key. -/
theorem inboundPayloadsM_flow (inbound : InboundBody) :
    ∃ flow : KeyFlow (Result (List (Str × Bytes × Str))), ∀ pass : Pass,
      (∀ payload, inbound.multipart = some payload → NoneOpens lib.ops pass.randomCek
        (payload.payloads.map InboundAttachment.bytes)) →
      ∀ (m : Type → Type) [Monad m] [LawfulMonad m] (keys : StepKeys m),
        Selects keys recipients →
        (inboundPayloadsM (lib.during pass) session policy authenticated keys suite inbound).run =
          flow.run keys := by
  unfold inboundPayloadsM
  by_cases htest : isTestService authenticated.parsed
  · refine ⟨.done (.ok []), fun pass _ m _ _ keys _ => ?_⟩
    simp only [if_pos htest, ExceptT.run_pure, KeyFlow.run]
  · by_cases hswitch : isPathSwitch policy authenticated
    · refine ⟨.done (checkPayloadLess session authenticated.parsed.messageId inbound.doc
        inbound.multipart >>= fun _ => pure []), fun pass _ m _ _ keys _ => ?_⟩
      simp only [if_neg htest, if_pos hswitch, ExceptT.run_ofExcept_bind, KeyFlow.run]
      cases checkPayloadLess session authenticated.parsed.messageId inbound.doc
        inbound.multipart with
      | error e => rfl
      | ok u => rfl
    · simp only [if_neg htest, if_neg hswitch]
      exact openPartsM_flow lib session policy authenticated suite recipients inbound

theorem multipart_of_readInboundBody {body : Bytes} {contentType : Str} {inbound : InboundBody}
    (h : readInboundBody lib session body contentType = .ok inbound) :
    extractMultipartRelatedPayloadIfPresent body contentType session "as4_receive_push" =
      .ok inbound.multipart := by
  simp only [readInboundBody, Except.bind_eq_ok, Except.pure_eq_ok] at h
  obtain ⟨multipart, hextract, _, -, _, -, rfl⟩ := h
  exact hextract

/-- The random keys open no part of the message. -/
def DrawsFail (body : Bytes) (contentType : Str) (pass : Pass) : Prop :=
  ∀ payload, extractMultipartRelatedPayloadIfPresent body contentType session
      "as4_receive_push" = .ok (some payload) →
    NoneOpens lib.ops pass.randomCek (payload.payloads.map InboundAttachment.bytes)

/-- A pass is the freshness check, followed by what is the same in every pass: it asks for at
    most one key operation. -/
theorem openInboundM_flow (body : Bytes) (contentType : Str) :
    ∃ flow : KeyFlow (Result VerifiedInbound), ∀ pass : Pass,
      DrawsFail lib session body contentType pass →
      ∀ (m : Type → Type) [Monad m] [LawfulMonad m] (keys : StepKeys m),
        Selects keys recipients →
        (openInboundM (lib.during pass) session policy pass.now body contentType authenticated
            keys suite).run =
          match enforceTimestampFreshness policy authenticated.parsed pass.now with
          | .ok _ => flow.run keys
          | .error e => pure (.error e) := by
  unfold openInboundM
  cases hread : readInboundBody lib session body contentType with
  | error e =>
    refine ⟨.done (.error e), fun pass _ m _ _ keys _ => ?_⟩
    have hread' : readInboundBody (lib.during pass) session body contentType = .error e := hread
    simp only [ExceptT.run_ofExcept_bind, hread', KeyFlow.run]
    cases enforceTimestampFreshness policy authenticated.parsed pass.now with
    | error e => rfl
    | ok u => rfl
  | ok inbound =>
    obtain ⟨flow, hflow⟩ :=
      inboundPayloadsM_flow lib session policy authenticated suite recipients inbound
    refine ⟨flow.map fun payloads => payloads.map fun payloads =>
      { parsed := authenticated.parsed
        payloads
        signerDer := authenticated.signerDer
        references := authenticated.references
        nri := authenticated.nri }, fun pass hpass m _ _ keys hkeys => ?_⟩
    have hread' : readInboundBody (lib.during pass) session body contentType = .ok inbound := hread
    have hdraws : ∀ payload, inbound.multipart = some payload → NoneOpens lib.ops pass.randomCek
        (payload.payloads.map InboundAttachment.bytes) := by
      intro payload hpayload
      refine hpass payload ?_
      rw [multipart_of_readInboundBody lib session hread, hpayload]
    simp only [ExceptT.run_ofExcept_bind, hread']
    cases enforceTimestampFreshness policy authenticated.parsed pass.now with
    | error e => rfl
    | ok u =>
      dsimp only
      rw [KeyFlow.run_map, ← hflow pass hdraws m keys hkeys, ExceptT.run_bind, map_eq_pure_bind]
      refine congrArg _ (funext fun payloads => ?_)
      cases payloads with
      | error e => rfl
      | ok payloads => rfl

end

/-! ## Keys in memory and external keys -/

/-- The recipient that the configured keys select. -/
def LocalKeys.recipient (keys : LocalKeys) (spec : EncryptedKeySpec) : Option RecipientKey :=
  match keys.matching spec with
  | [(_, key)] => key.certificate.recipientKey
  | _ => none

/-- The first pass selects the recipient's key as the second does. -/
theorem LocalKeys.select_selects (keys : LocalKeys) (answers : Answers) :
    Selects (keys.select answers) keys.recipient := by
  intro spec
  unfold LocalKeys.select LocalKeys.recipient
  rcases keys.matching spec with _ | ⟨⟨index, key⟩, _ | ⟨other, rest⟩⟩
  · rfl
  · dsimp only
    cases key.certificate.recipientKey with
    | none => rfl
    | some recipient =>
      cases key.keyPair with
      | none => rfl
      | some pair => rfl
  · rfl

/-- A decrypter with its key in memory, and one that is either the same or answers every
    operation as that key does. -/
structure AnswersAs (decrypter inMemory : LocalDecrypter) : Prop where
  certificate : inMemory.certificate = decrypter.certificate
  pair : ∃ pair, inMemory.keyPair = some pair ∧ (∀ own, decrypter.keyPair = some own → own = pair) ∧
    (decrypter.keyPair = none → ∀ op, (decrypter.decrypt op).toOption =
      (pair.decryptNow op).toOption)

/-- The same decrypters match. -/
theorem matching_forall₂ {lib : KeyLibrary} {decrypters inMemory : List LocalDecrypter}
    (h : List.Forall₂ AnswersAs decrypters inMemory) (spec : EncryptedKeySpec) :
    List.Forall₂ (fun d p => d.1 = p.1 ∧ AnswersAs d.2 p.2)
      (LocalKeys.matching ⟨lib, decrypters⟩ spec) (LocalKeys.matching ⟨lib, inMemory⟩ spec) := by
  unfold LocalKeys.matching
  dsimp only
  generalize 0 = n
  induction h generalizing n with
  | nil => exact .nil
  | @cons d p _ _ hab _ ih =>
    rw [List.zipIdx_cons, List.zipIdx_cons]
    by_cases hnamed : namesCertificate lib spec.recipient d.certificate
    · have hnamed' : namesCertificate lib spec.recipient p.certificate := by
        rw [hab.certificate]
        exact hnamed
      simp only [List.filterMap_cons, if_pos hnamed, if_pos hnamed']
      exact .cons ⟨rfl, hab⟩ (ih (n + 1))
    · have hnamed' : ¬ namesCertificate lib spec.recipient p.certificate := by
        rw [hab.certificate]
        exact hnamed
      simp only [List.filterMap_cons, if_neg hnamed, if_neg hnamed']
      exact ih (n + 1)

/-- A decrypter that matches is the configured one at its index. -/
theorem getElem?_of_mem_matching {keys : LocalKeys} {spec : EncryptedKeySpec} {index : Nat}
    {key : LocalDecrypter} (h : (index, key) ∈ keys.matching spec) :
    keys.decrypters[index]? = some key := by
  obtain ⟨d, hd, hsome⟩ := List.mem_filterMap.mp h
  split at hsome
  · cases hsome
    exact List.mem_zipIdx_iff_getElem?.mp hd
  · cases hsome

/-- What a decrypter answers to a key operation, in the form of the key seam. -/
theorem deferredStep_answered {lib : KeyLibrary} {index : Nat} {answers : Answers} {op : KeyOp}
    {owned : OwnedKeyOp} {answer : Option Bytes} (hop : publicOp lib op = some owned)
    (hanswer : answers.lookup (index, owned) = some answer) :
    deferredStep lib index answers op = pure (Except.okOr answer keyStepFailed) := by
  unfold deferredStep
  rw [hop]
  dsimp only
  rw [hanswer]
  cases answer with
  | none => rfl
  | some secret => rfl

/-- A key in memory answers an operation as it answers the public form of it. -/
theorem KeyPair.step_eq {lib : KeyLibrary} {pair : KeyPair} {op : KeyOp} {owned : OwnedKeyOp}
    (hop : publicOp lib op = some owned) :
    pair.step lib op = Except.okOr (pair.decryptNow owned).toOption keyStepFailed := by
  unfold KeyPair.step
  rw [hop]
  change (pair.decryptNow owned).mapError _ = _
  cases pair.decryptNow owned with
  | ok secret => rfl
  | error e => rfl

section

variable {lib : KeyLibrary} {decrypters inMemory : List LocalDecrypter}
  (h : List.Forall₂ AnswersAs decrypters inMemory)

include h

theorem recipient_eq : LocalKeys.recipient ⟨lib, inMemory⟩ = LocalKeys.recipient ⟨lib, decrypters⟩ := by
  funext spec
  have hmatching := @matching_forall₂ lib decrypters inMemory h spec
  unfold LocalKeys.recipient
  revert hmatching
  generalize LocalKeys.matching ⟨lib, decrypters⟩ spec = ds
  generalize LocalKeys.matching ⟨lib, inMemory⟩ spec = ps
  intro hmatching
  cases hmatching with
  | nil => rfl
  | cons hab hrest =>
    cases hrest with
    | nil => exact congrArg LocalCertificate.recipientKey hab.2.certificate
    | cons _ _ => rfl

/-- A computation with keys in memory has one result, and leaves nothing pending. With the
    other decrypters it has the same one, or it leaves one operation pending and has the same
    result once the operation is answered. -/
theorem run_select_cases {α : Type} (flow : KeyFlow α) :
    ∃ r, (∀ answers pending, (flow.run (LocalKeys.select ⟨lib, inMemory⟩ answers)).run pending =
        (r, pending)) ∧
      ((∀ answers pending, (flow.run (LocalKeys.select ⟨lib, decrypters⟩ answers)).run pending =
          (r, pending)) ∨
        ∃ index owned r', ∃ d : LocalDecrypter, decrypters[index]? = some d ∧
          (flow.run (LocalKeys.select ⟨lib, decrypters⟩ [])).run [] = (r', [(index, owned)]) ∧
          ∀ answers pending, answers.lookup (index, owned) = some (d.decrypt owned).toOption →
            (flow.run (LocalKeys.select ⟨lib, decrypters⟩ answers)).run pending = (r, pending)) := by
  cases flow with
  | done r => exact ⟨r, fun _ _ => rfl, .inl fun _ _ => rfl⟩
  | ask spec op next =>
    have hmatching := @matching_forall₂ lib decrypters inMemory h spec
    have hindex : ∀ index d, (index, d) ∈ LocalKeys.matching ⟨lib, decrypters⟩ spec →
        decrypters[index]? = some d := fun _ _ hmem => getElem?_of_mem_matching hmem
    simp only [KeyFlow.run, LocalKeys.select]
    revert hmatching hindex
    generalize LocalKeys.matching ⟨lib, decrypters⟩ spec = ds
    generalize LocalKeys.matching ⟨lib, inMemory⟩ spec = ps
    intro hmatching hindex
    cases hmatching with
    | nil => exact ⟨_, fun _ _ => rfl, .inl fun _ _ => rfl⟩
    | @cons d p _ _ hab hrest =>
      cases hrest with
      | cons _ _ => exact ⟨_, fun _ _ => rfl, .inl fun _ _ => rfl⟩
      | nil =>
        obtain ⟨index, d⟩ := d
        obtain ⟨_, p⟩ := p
        obtain ⟨rfl, hcert, pair, hpair, hown, hexternal⟩ := hab
        dsimp only
        rw [hcert, hpair]
        -- one decrypter matches: it is in memory, or its answer decides
        cases d.certificate.recipientKey with
        | none => exact ⟨_, fun _ _ => rfl, .inl fun _ _ => rfl⟩
        | some recipient =>
          refine ⟨next (pair.step lib op), fun _ _ => rfl, ?_⟩
          cases hkey : d.keyPair with
          | some own =>
            obtain rfl := hown own hkey
            exact .inl fun _ _ => rfl
          | none =>
            -- an operation without a public form fails in both
            cases hop : publicOp lib op with
            | none =>
              have hstep : pair.step lib op = .error keyStepFailed := by
                rw [KeyPair.step, hop]
                rfl
              refine .inl fun answers _ => ?_
              have hdeferred : deferredStep lib index answers op = pure (.error keyStepFailed) := by
                rw [deferredStep, hop]
              rw [hstep]
              exact congrArg (fun x : Pending (Result Bytes) => (next <$> x).run _) hdeferred
            | some owned =>
              refine .inr ⟨index, owned, next (.error keyStepFailed), d,
                hindex index d List.mem_cons_self, ?_, fun answers pending hanswer => ?_⟩
              · have hdeferred : deferredStep lib index [] op = (do
                    modify (· ++ [(index, owned)])
                    pure (.error keyStepFailed)) := by
                  rw [deferredStep, hop]
                  rfl
                exact congrArg (fun x : Pending (Result Bytes) => (next <$> x).run []) hdeferred
              · have hdeferred := deferredStep_answered hop hanswer
                rw [hexternal hkey, ← KeyPair.step_eq hop] at hdeferred
                exact congrArg (fun x : Pending (Result Bytes) => (next <$> x).run pending)
                  hdeferred

end

/-! ## Keys without effects

With steps that only answer, the last step of the receive path is `openInbound`. -/

section

variable {m : Type → Type} [Monad m] [LawfulMonad m]

/-- Keys whose steps only answer. -/
def RecipientKeys.steps (keys : RecipientKeys) : StepKeys m := fun spec =>
  (keys spec).map fun selected => (selected.1, fun op => pure (selected.2 op))

/-- Only the answer to its own operation matters to a bound key. -/
theorem unlockCek_op (ops : XmlEncOps) (bound : BoundKey) (cipher : XmlEncPayloadAlgorithm)
    (decrypter : KeyOp → Result Bytes) :
    unlockCek ops bound cipher (fun _ => decrypter bound.op) =
      unlockCek ops bound cipher decrypter := by
  cases bound with
  | rsaOaep params wrapped => rfl
  | ecdh curve point kdfDigest kdfParams wrap wrapped => rfl

/-- With all keys in memory, the stepwise decryption is the direct one. -/
theorem decryptAttachmentsM_steps (ops : XmlEncOps) (envelope : ResolvedEnvelope)
    (bodies : List Bytes) (keys : RecipientKeys) :
    decryptAttachmentsM (m := m) ops envelope bodies (RecipientKeys.steps keys) =
      MonadExcept.ofExcept (decryptAttachments ops envelope bodies keys) := by
  unfold decryptAttachmentsM decryptAttachments
  cases envelope.data.head? with
  | none => rfl
  | some first =>
    have hunlock : ∀ (bound : BoundKey) (decrypter : KeyOp → Result Bytes),
        (ExceptT.lift (unlockCekM ops bound first.cipher fun op => pure (decrypter op)) :
          ExceptT AsxError m Bytes) =
          MonadExcept.ofExcept (.ok (unlockCek ops bound first.cipher decrypter)) := by
      intro bound decrypter
      apply ExceptT.ext
      simp [unlockCekM, unlockCek_op, MonadExcept.ofExcept]
    unfold RecipientKeys.steps
    cases keys envelope.key with
    | none =>
      simp only [Option.map_none, Except.okOr, ExceptT.ofExcept_error_bind,
        ExceptT.ofExcept_bind_ofExcept]
      rfl
    | some selected =>
      simp only [Option.map_some, Except.okOr, ExceptT.ofExcept_ok_bind, hunlock,
        ExceptT.ofExcept_bind_ofExcept]
      rfl

/-- With all keys in memory, opening the parts step by step is opening them directly. -/
theorem openPartsM_steps (lib : As4Library) (session : SessionContext) (policy : As4PushPolicy)
    (authenticated : AuthenticatedInbound) (keys : RecipientKeys) (suite : Suite)
    (inbound : InboundBody) :
    openPartsM (m := m) lib session policy authenticated (RecipientKeys.steps keys) suite inbound =
      MonadExcept.ofExcept (openParts lib session policy authenticated keys suite inbound) := by
  unfold openPartsM
  simp only [decryptAttachmentsM_steps, ExceptT.adapt_ofExcept, ExceptT.ofExcept_bind_ofExcept]
  rfl

/-- The same for the payloads. -/
theorem inboundPayloadsM_steps (lib : As4Library) (session : SessionContext)
    (policy : As4PushPolicy) (authenticated : AuthenticatedInbound) (keys : RecipientKeys)
    (suite : Suite) (inbound : InboundBody) :
    inboundPayloadsM (m := m) lib session policy authenticated (RecipientKeys.steps keys) suite
        inbound =
      MonadExcept.ofExcept (inboundPayloads lib session policy authenticated keys suite
        inbound) := by
  unfold inboundPayloadsM inboundPayloads
  split
  · rfl
  · split
    · exact ExceptT.ofExcept_bind_ofExcept _ fun _ => .ok []
    · exact openPartsM_steps lib session policy authenticated keys suite inbound

/-- The same for the message. -/
theorem openInboundM_steps (lib : As4Library) (session : SessionContext) (policy : As4PushPolicy)
    (now : SystemTime) (body : Bytes) (contentType : Str) (authenticated : AuthenticatedInbound)
    (keys : RecipientKeys) (suite : Suite) :
    openInboundM (m := m) lib session policy now body contentType authenticated
        (RecipientKeys.steps keys) suite =
      MonadExcept.ofExcept (openInbound lib session policy now body contentType authenticated
        keys suite) := by
  unfold openInboundM
  simp only [inboundPayloadsM_steps]
  simp only [ExceptT.ofExcept_bind_pure, ExceptT.ofExcept_bind_ofExcept]
  rfl

/-- The configured keys, when they are in memory. -/
def LocalKeys.inMemory (keys : LocalKeys) : RecipientKeys := fun spec =>
  match keys.matching spec with
  | [(_, key)] => do
    let recipient ← key.certificate.recipientKey
    let pair ← key.keyPair
    some (recipient, pair.step keys.lib)
  | _ => none

/-- Configured keys that are all in memory need no answers from outside. -/
theorem LocalKeys.select_inMemory {keys : LocalKeys}
    (h : ∀ d ∈ keys.decrypters, d.keyPair.isSome) (answers : Answers) :
    keys.select answers = RecipientKeys.steps keys.inMemory := by
  funext spec
  have hmem : ∀ d ∈ keys.matching spec, d.2.keyPair.isSome := by
    rintro ⟨index, d⟩ hd
    exact h d (List.mem_of_getElem? (getElem?_of_mem_matching hd))
  unfold LocalKeys.select RecipientKeys.steps LocalKeys.inMemory
  revert hmem
  rcases keys.matching spec with _ | ⟨⟨index, key⟩, _ | ⟨other, rest⟩⟩
  · intro _
    rfl
  · intro hmem
    obtain ⟨pair, hpair⟩ := Option.isSome_iff_exists.mp (hmem _ List.mem_cons_self)
    dsimp only at hpair ⊢
    rw [hpair]
    cases key.certificate.recipientKey with
    | none => rfl
    | some recipient => rfl
  · intro _
    rfl

/-- With keys in memory `verify` has one pass, which is `as4Verify`. -/
theorem as4VerifyWith_inMemory (ctx : As4VerifyContext) {keys : LocalKeys}
    (h : ∀ d ∈ keys.decrypters, d.keyPair.isSome) (only other : Pass) (body : Bytes)
    (contentType : Str) :
    as4VerifyWith ctx keys only other body contentType =
      (as4Verify { ctx with lib := ctx.lib.during only, keys := keys.inMemory, openedAt := only.now }
        body contentType, []) := by
  have hrun : ∀ authenticated, runPass ctx keys body contentType authenticated [] only =
      (openInbound (ctx.lib.during only) ctx.session ctx.policy only.now body contentType
        authenticated keys.inMemory ctx.suite, []) := by
    intro authenticated
    rw [runPass, LocalKeys.select_inMemory h, openInboundM_steps]
    generalize openInbound (ctx.lib.during only) ctx.session ctx.policy only.now body contentType
      authenticated keys.inMemory ctx.suite = opened
    cases opened with
    | ok verified => rfl
    | error e => rfl
  have hauth : as4Verify { ctx with
        lib := ctx.lib.during only, keys := keys.inMemory, openedAt := only.now } body contentType =
      authenticatedSender ctx body contentType >>= fun authenticated =>
        openInbound (ctx.lib.during only) ctx.session ctx.policy only.now body contentType
          authenticated keys.inMemory ctx.suite := by
    unfold as4Verify authenticatedSender
    rw [bind_assoc]
    refine congrArg _ (funext fun authenticated => ?_)
    rw [bind_assoc]
    rfl
  rw [hauth, as4VerifyWith]
  cases authenticatedSender ctx body contentType with
  | error e => rfl
  | ok authenticated =>
    dsimp only
    rw [verifyPasses, hrun]
    rfl

end

/-! ## The two passes -/

section

variable (ctx : As4VerifyContext) (lib : KeyLibrary) (decrypters inMemory : List LocalDecrypter)
  (body : Bytes) (contentType : Str)

/-- The answer that is kept for an operation is that of the decrypter at its index. -/
theorem lookup_askDecrypters {keys : LocalKeys} {index : Nat} {owned : OwnedKeyOp}
    {d : LocalDecrypter} (hd : keys.decrypters[index]? = some d) :
    (askDecrypters keys [(index, owned)]).lookup (index, owned) =
      some (d.decrypt owned).toOption := by
  simp [askDecrypters, hd]

/-- The loop with keys in memory asks nothing. With the other decrypters it asks nothing and
    comes to the same, or it asks for one operation, checks the freshness again and comes to
    the same then. -/
theorem verifyPasses_cases (authenticated : AuthenticatedInbound)
    (hkeys : List.Forall₂ AnswersAs decrypters inMemory) (first second only other : Pass)
    (hclock : only.now = first.now) (hfirst : DrawsFail ctx.lib ctx.session body contentType first)
    (hsecond : DrawsFail ctx.lib ctx.session body contentType second)
    (honly : DrawsFail ctx.lib ctx.session body contentType only) :
    ∃ result, verifyPasses ctx ⟨lib, inMemory⟩ body contentType authenticated only other =
        (result, []) ∧
      (verifyPasses ctx ⟨lib, decrypters⟩ body contentType authenticated first second =
          (result, []) ∨
        ∃ asked, verifyPasses ctx ⟨lib, decrypters⟩ body contentType authenticated first second =
          (enforceTimestampFreshness ctx.policy authenticated.parsed second.now >>=
            fun _ => result, [asked])) := by
  obtain ⟨flow, hflow⟩ := openInboundM_flow ctx.lib ctx.session ctx.policy authenticated ctx.suite
    (LocalKeys.recipient ⟨lib, decrypters⟩) body contentType
  have hexternal : ∀ answers, Selects (LocalKeys.select ⟨lib, decrypters⟩ answers)
      (LocalKeys.recipient ⟨lib, decrypters⟩) := LocalKeys.select_selects _
  have hmemory : ∀ answers, Selects (LocalKeys.select ⟨lib, inMemory⟩ answers)
      (LocalKeys.recipient ⟨lib, decrypters⟩) := by
    rw [← recipient_eq hkeys]
    exact LocalKeys.select_selects _
  obtain ⟨result, hresult, hcases⟩ := @run_select_cases lib decrypters inMemory hkeys _ flow
  simp only [verifyPasses, runPass, hflow first hfirst _ _ (hexternal _),
    hflow second hsecond _ _ (hexternal _), hflow only honly _ _ (hmemory _)]
  rw [hclock]
  cases enforceTimestampFreshness ctx.policy authenticated.parsed first.now with
  | error e => exact ⟨.error e, rfl, .inl rfl⟩
  | ok u =>
    refine ⟨result, ?_, ?_⟩
    · dsimp only
      rw [hresult]
      rfl
    · obtain hsame | ⟨index, owned, r', d, hd, hpending, hanswered⟩ := hcases
      · left
        dsimp only
        rw [hsame]
        rfl
      · right
        refine ⟨(index, owned), ?_⟩
        dsimp only
        rw [hpending]
        cases enforceTimestampFreshness ctx.policy authenticated.parsed second.now with
        | error e => rfl
        | ok u =>
          dsimp only
          rw [hanswered _ _ (lookup_askDecrypters hd)]
          rfl

/-- `verify` with external decrypters that answer as keys in memory do. Each is asked at most
    once for an operation, and none for a message that is not authenticated. The result is that of
    the keys in memory; where a decrypter was asked, the message must be fresh at the clock of the
    second pass as well. -/
theorem external_keys_refine_keys_in_memory (first second only other : Pass)
    (hkeys : List.Forall₂ AnswersAs decrypters inMemory) (hclock : only.now = first.now)
    (hfirst : DrawsFail ctx.lib ctx.session body contentType first)
    (hsecond : DrawsFail ctx.lib ctx.session body contentType second)
    (honly : DrawsFail ctx.lib ctx.session body contentType only) :
    let external := as4VerifyWith ctx ⟨lib, decrypters⟩ first second body contentType
    let memory := as4VerifyWith ctx ⟨lib, inMemory⟩ only other body contentType
    external.2.Nodup ∧ memory.2 = [] ∧
      (∀ e, authenticatedSender ctx body contentType = .error e → external.2 = []) ∧
      (external.2 = [] → external.1 = memory.1) ∧
      (∀ authenticated, authenticatedSender ctx body contentType = .ok authenticated →
        (external.2 ≠ [] → external.1 =
          (enforceTimestampFreshness ctx.policy authenticated.parsed second.now >>=
            fun _ => memory.1)) ∧
        (enforceTimestampFreshness ctx.policy authenticated.parsed second.now = .ok () →
          external.1 = memory.1)) := by
  unfold as4VerifyWith
  cases hauth : authenticatedSender ctx body contentType with
  | error e =>
    refine ⟨List.nodup_nil, rfl, fun _ _ => rfl, fun _ => rfl, fun authenticated h => ?_⟩
    cases h
  | ok authenticated =>
    obtain ⟨result, hmemory, hexternal⟩ := verifyPasses_cases ctx lib decrypters inMemory body
      contentType authenticated hkeys first second only other hclock hfirst hsecond honly
    dsimp only
    rw [hmemory]
    obtain hexternal | ⟨asked, hexternal⟩ := hexternal
    · rw [hexternal]
      refine ⟨List.nodup_nil, rfl, fun _ h => (by cases h), fun _ => rfl,
        fun _ _ => ⟨fun hne => absurd rfl hne, fun _ => rfl⟩⟩
    · rw [hexternal]
      refine ⟨List.nodup_singleton asked, rfl, fun _ h => (by cases h), fun hnil => ?_,
        fun authenticated' h => ?_⟩
      · cases hnil
      · cases h
        refine ⟨fun _ => rfl, fun hfresh => ?_⟩
        rw [hfresh]
        rfl

end

/-! ## A message at the end of its window

The message is a week old when it arrives, which is as long as `profilePolicy` accepts it, and a
second older when the decrypter has answered. -/

open Xml

/-- The SHA-256 of the canonical header of `agedMessage`. -/
def agedDigest : Str := .lit "5W3i4aIz2NUthSFEV+SXcgc6o6fcF0YSGSn3AQG89ro="

/-- A message with a timestamp, encrypted for the key with the identifier `01020304`. -/
def agedMessage : Document where
  children := soapEnvelope [
    element (.lit "eb") (.lit "Messaging")
      [(.lit "S", .lit "mustUnderstand", .lit "true"), (.lit "wsu", .lit "Id", .lit "m")] [
      element (.lit "eb") (.lit "UserMessage") [] [
        element (.lit "eb") (.lit "MessageInfo") []
          [leaf (.lit "eb") (.lit "Timestamp") (.lit "2026-11-20T00:00:00Z"),
          leaf (.lit "eb") (.lit "MessageId") (.lit "m@x")],
        element (.lit "eb") (.lit "PartyInfo") [] [
          element (.lit "eb") (.lit "From") [] [leaf (.lit "eb") (.lit "PartyId") (.lit "s")],
          element (.lit "eb") (.lit "To") [] [leaf (.lit "eb") (.lit "PartyId") (.lit "r")]],
        element (.lit "eb") (.lit "CollaborationInfo") []
          [leaf (.lit "eb") (.lit "Action") (.lit "a")],
        element (.lit "eb") (.lit "PayloadInfo") [] [partInfo (.lit "cid:p@x") []]]],
    element (.lit "wsse") (.lit "Security") [] [
      .element ⟨.lit "xenc", .lit "EncryptedKey"⟩
        [(.lit "xenc", Ns.xenc), (.lit "x11", Ns.xenc11)] [] [
        xencElement "EncryptionMethod"
          [([], .lit "Algorithm", .lit "http://www.w3.org/2009/xmlenc11#rsa-oaep")] [
            dsAlgorithm (.lit "DigestMethod") WsSecDigestMethod.sha256.algorithmUri,
            element (.lit "x11") (.lit "MGF")
              [([], .lit "Algorithm", .lit "http://www.w3.org/2009/xmlenc11#mgf1sha256")] []],
        element (.lit "ds") (.lit "KeyInfo") [] [element (.lit "ds") (.lit "X509Data") []
          [leaf (.lit "ds") (.lit "X509SKI") (.lit "AQIDBA==")]],
        xencElement (.lit "CipherData") [] [leaf (.lit "xenc") (.lit "CipherValue") wrappedKeyB64],
        xencElement (.lit "ReferenceList") [] [xencElement (.lit "DataReference")
          [([], .lit "URI", .lit "#e")] []]],
      encryptedData,
      signature [dsReference "#m" (.c14n .exclusive) agedDigest,
        dsReference "cid:p@x" .attachmentContent plainPartDigest]
        (Str.lit "3oknioGXqApMgbXAZX+Atgm0i97Fj9YS7C0AWyWpWmFsaiETUQF43NQmQd/hHvQH66KiEPWik+Tid6VD" ++
          "H+cZkA==")]]
  ok := by decide +kernel

/-- The certificate of the recipient's RSA key. -/
def rsaCertificate : LocalCertificate where
  der := [0x30]
  subjectKeyId := some [1, 2, 3, 4]
  publicKeySha1 := none
  serialNumber := none
  issuerName := []
  recipientKey := some .rsa

/-- The recipient's RSA key. -/
def rsaKeyPair : KeyPair where
  decryptNow := fun op =>
    match op with
    | .rsaOaep wrapped =>
      if some wrapped = Base64.decode wrappedKeyB64 then .ok contentKey else .error "OAEP"
    | .ecdh _ => .error "not an EC key"

/-- The key in memory. -/
def rsaInMemory : LocalDecrypter := ⟨rsaCertificate, some rsaKeyPair, rsaKeyPair.decryptNow⟩

/-- The key behind an external decrypter. -/
def rsaExternal : LocalDecrypter := ⟨rsaCertificate, none, rsaKeyPair.decryptNow⟩

/-- OpenSSL, for an RSA key that is named by its identifier. -/
def rsaKeyLibrary : KeyLibrary := ⟨fun _ _ => none, fun _ => none⟩

/-- The week after the timestamp of `agedMessage`, in nanoseconds. -/
def lastMoment : SystemTime := (1795132800 + 604800) * 1000000000

/-- The endpoint that `agedMessage` is sent to. -/
def agedContext : As4VerifyContext where
  lib := recipientLibrary agedMessage agedDigest
  session := signedSession
  policy := profilePolicy
  chainPolicy := signedOptions.chainPolicy
  authorize := pinnedSender
  localId := "r"
  localType := none
  revocation := fun _ => none
  keys := LocalKeys.inMemory ⟨rsaKeyLibrary, [rsaInMemory]⟩
  suite := rsaSuite
  authenticatedAt := lastMoment
  openedAt := lastMoment

/-- A pass at some time. -/
def passAt (now : SystemTime) : Pass := ⟨now, recipientOps.randomCek⟩

/-- Whether the message is stale a second later and the first pass leaves an operation pending,
    and what is delivered with the key in memory. -/
def agedOutcome : Result (Bool × List (Str × Bytes × Str)) := do
  let authenticated ← authenticatedSender agedContext (mimeMessage agedMessage)
    "multipart/related; boundary=b"
  let (_, pending) := runPass agedContext ⟨rsaKeyLibrary, [rsaExternal]⟩ (mimeMessage agedMessage)
    "multipart/related; boundary=b" authenticated [] (passAt lastMoment)
  let verified ← openInbound (agedContext.lib.during (passAt lastMoment)) signedSession
    profilePolicy lastMoment (mimeMessage agedMessage) "multipart/related; boundary=b"
    authenticated agedContext.keys rsaSuite
  pure (!(enforceTimestampFreshness profilePolicy authenticated.parsed
      (lastMoment + 1000000000)).isOk && !pending.isEmpty, verified.payloads)

theorem agedOutcome_eq : agedOutcome.toOption = some (true, onePartPayloads) := by
  rw [agedOutcome, mimeMessage_eq]
  decide +kernel

/-- An external key that answers as the one in memory. -/
theorem rsaExternal_answersAs : List.Forall₂ AnswersAs [rsaExternal] [rsaInMemory] :=
  .cons ⟨rfl, rsaKeyPair, rfl, fun _ h => absurd h (by simp [rsaExternal]), fun _ _ => rfl⟩ .nil

/-- A key of `0xFF` opens nothing. -/
theorem passAt_drawsFail (now : SystemTime) :
    DrawsFail agedContext.lib agedContext.session (mimeMessage agedMessage)
      "multipart/related; boundary=b" (passAt now) := by
  intro payload _ blob _ cipher
  have hkey : recipientOps.randomCek cipher ≠ contentKey := by
    cases cipher with
    | aes128Gcm => decide
    | aes256Gcm => decide
  have hopen : recipientOps.aesGcmOpen cipher (recipientOps.randomCek cipher) (blob.take 12)
      (blob.drop 12) = none := if_neg fun h => hkey h.1
  unfold decryptContent
  by_cases hreject : ((passAt now).randomCek cipher).length ≠ cipher.keyLen ∨
      blob.length < 12 + 16
  · rw [Except.rejectIf, if_pos hreject]
    rfl
  · rw [Except.rejectIf, if_neg hreject]
    exact congrArg (Except.okOr · uniformFailure) hopen

/-- What the runs below start from. -/
theorem agedMessage_authenticated : ∃ authenticated verified,
    authenticatedSender agedContext (mimeMessage agedMessage) "multipart/related; boundary=b" =
      .ok authenticated ∧
    enforceTimestampFreshness profilePolicy authenticated.parsed lastMoment = .ok () ∧
    (enforceTimestampFreshness profilePolicy authenticated.parsed
      (lastMoment + 1000000000)).isOk = false ∧
    (runPass agedContext ⟨rsaKeyLibrary, [rsaExternal]⟩ (mimeMessage agedMessage)
      "multipart/related; boundary=b" authenticated [] (passAt lastMoment)).2.isEmpty = false ∧
    as4VerifyWith agedContext ⟨rsaKeyLibrary, [rsaInMemory]⟩ (passAt lastMoment)
      (passAt lastMoment) (mimeMessage agedMessage) "multipart/related; boundary=b" =
        (.ok verified, []) ∧ verified.payloads = onePartPayloads := by
  have h := Except.toOption_eq_some.mp agedOutcome_eq
  simp only [agedOutcome, Except.bind_eq_ok, Except.pure_eq_ok, Prod.mk.injEq, Bool.and_eq_true,
    Bool.not_eq_true'] at h
  obtain ⟨authenticated, hauth, verified, hopen, ⟨hfresh, hpending⟩, hpayloads⟩ := h
  have hnow : enforceTimestampFreshness profilePolicy authenticated.parsed lastMoment = .ok () := by
    simp only [openInbound, Except.bind_eq_ok] at hopen
    obtain ⟨u, hnow, -⟩ := hopen
    exact hnow
  refine ⟨authenticated, verified, hauth, hnow, hfresh, hpending, ?_, hpayloads⟩
  rw [as4VerifyWith_inMemory agedContext (by simp [rsaInMemory])]
  have hverify : as4Verify { agedContext with
      lib := agedContext.lib.during (passAt lastMoment)
      keys := LocalKeys.inMemory ⟨rsaKeyLibrary, [rsaInMemory]⟩
      openedAt := (passAt lastMoment).now } (mimeMessage agedMessage)
      "multipart/related; boundary=b" = .ok verified := by
    simp only [authenticatedSender, Except.bind_eq_ok, Except.pure_eq_ok] at hauth
    obtain ⟨authenticated', hauth, u, hrevocation, rfl⟩ := hauth
    simp only [as4Verify, Except.bind_eq_ok]
    exact ⟨authenticated', hauth, u, hrevocation, hopen⟩
  rw [hverify]

/-- With the key behind an external decrypter that answers at once, the message is accepted as it
    is with the key in memory. -/
theorem external_keys_refine_keys_in_memory_aged : ∃ verified,
    (as4VerifyWith agedContext ⟨rsaKeyLibrary, [rsaInMemory]⟩ (passAt lastMoment)
      (passAt lastMoment) (mimeMessage agedMessage) "multipart/related; boundary=b").1 =
        .ok verified ∧
    (as4VerifyWith agedContext ⟨rsaKeyLibrary, [rsaExternal]⟩ (passAt lastMoment)
      (passAt lastMoment) (mimeMessage agedMessage) "multipart/related; boundary=b").1 =
        .ok verified ∧
    (as4VerifyWith agedContext ⟨rsaKeyLibrary, [rsaExternal]⟩ (passAt lastMoment)
      (passAt lastMoment) (mimeMessage agedMessage) "multipart/related; boundary=b").2.Nodup := by
  obtain ⟨authenticated, verified, hauth, hfresh, -, -, hmemory, -⟩ := agedMessage_authenticated
  obtain ⟨hnodup, -, -, -, hsame⟩ := external_keys_refine_keys_in_memory agedContext rsaKeyLibrary
    [rsaExternal] [rsaInMemory] (mimeMessage agedMessage) "multipart/related; boundary=b"
    (passAt lastMoment) (passAt lastMoment) (passAt lastMoment) (passAt lastMoment)
    rsaExternal_answersAs rfl (passAt_drawsFail _) (passAt_drawsFail _) (passAt_drawsFail _)
  have hequal := (hsame authenticated hauth).2 hfresh
  rw [hmemory] at hequal ⊢
  exact ⟨verified, rfl, hequal, hnodup⟩

/-- The key in memory accepts the message, and an external decrypter that answers exactly as it
    does but takes a second has it refused as too old. -/
theorem stale_in_second_pass : ∃ verified e,
    List.Forall₂ AnswersAs [rsaExternal] [rsaInMemory] ∧
    as4VerifyWith agedContext ⟨rsaKeyLibrary, [rsaInMemory]⟩ (passAt lastMoment)
      (passAt lastMoment) (mimeMessage agedMessage) "multipart/related; boundary=b" =
        (.ok verified, []) ∧
    (as4VerifyWith agedContext ⟨rsaKeyLibrary, [rsaExternal]⟩ (passAt lastMoment)
      (passAt (lastMoment + 1000000000)) (mimeMessage agedMessage)
      "multipart/related; boundary=b").1 = .error e := by
  obtain ⟨authenticated, verified, hauth, -, hstale, hpending, hmemory, -⟩ :=
    agedMessage_authenticated
  obtain ⟨result, -, hexternal⟩ := verifyPasses_cases agedContext rsaKeyLibrary [rsaExternal]
    [rsaInMemory] (mimeMessage agedMessage) "multipart/related; boundary=b" authenticated
    rsaExternal_answersAs (passAt lastMoment) (passAt (lastMoment + 1000000000))
    (passAt lastMoment) (passAt lastMoment) rfl (passAt_drawsFail _) (passAt_drawsFail _)
    (passAt_drawsFail _)
  cases hfresh : enforceTimestampFreshness profilePolicy authenticated.parsed
      (lastMoment + 1000000000) with
  | ok u =>
    rw [hfresh] at hstale
    cases hstale
  | error e =>
    refine ⟨verified, e, rsaExternal_answersAs, hmemory, ?_⟩
    rw [as4VerifyWith, hauth]
    obtain hnone | ⟨asked, hasked⟩ := hexternal
    · have hempty := congrArg Prod.snd hnone
      simp only [verifyPasses, hpending, Bool.false_eq_true, if_false] at hempty
      rw [hempty] at hpending
      cases hpending
    · dsimp only
      rw [hasked]
      dsimp only
      change (enforceTimestampFreshness profilePolicy authenticated.parsed
        (lastMoment + 1000000000) >>= fun _ => result) = _
      rw [hfresh]
      rfl

end Asx
