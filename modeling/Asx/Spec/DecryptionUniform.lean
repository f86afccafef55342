import Asx.Native.Decrypt

/-!
# Failed decryptions look alike

`decrypt_attachments` with the calls it makes: the private-key operation and the content
decryptions. Once the recipient's key is bound, a failure is told from no other failure, and
the same calls have been made before it: the key operation that the `xenc:EncryptedKey`
declares, once, and at least one content decryption.

## Main results
- `decryptAttachmentsCalls_result`: the calls are those of `decryptAttachments`
- `decryptAttachmentsCalls_of_pastBind`: what has been called after the key is bound
- `decryption_failures_uniform`: any two failures
-/

namespace Asx

/-- A call that `decrypt_attachments` makes. -/
inductive DecryptCall where
  | keyOp (op : KeyOp)
  | content (blob : Bytes)
deriving DecidableEq, Repr

/-- A computation that may fail, with the calls made so far. -/
abbrev Decrypting (α : Type) := List DecryptCall → Result α × List DecryptCall

namespace Decrypting

variable {α β : Type}

/-- A step that makes no call. -/
def lift (r : Result α) : Decrypting α := fun calls => (r, calls)

/-- A step that is one call. -/
def call (c : DecryptCall) (r : Result α) : Decrypting α := fun calls => (r, calls ++ [c])

/-- `?`. -/
def andThen (x : Decrypting α) (f : α → Decrypting β) : Decrypting β := fun calls =>
  match x calls with
  | (.ok a, calls') => f a calls'
  | (.error e, calls') => (.error e, calls')

/-- Calls in order, up to the first that fails. -/
def collect (f : α → Decrypting β) : List α → Decrypting (List β)
  | [] => lift (.ok [])
  | a :: l => andThen (f a) fun b => andThen (collect f l) fun bs => lift (.ok (b :: bs))

end Decrypting

/-- The key operation of `unlock_cek`, with its call. -/
def unlockKeyCalls (ops : XmlEncOps) (bound : BoundKey) (decrypter : KeyOp → Result Bytes) :
    Decrypting Bytes :=
  match bound with
  | .rsaOaep params wrapped =>
    .call (.keyOp (.rsaOaep wrapped params)) (decrypter (.rsaOaep wrapped params))
  | .ecdh curve point kdfDigest kdfParams wrap wrapped =>
    .andThen (.call (.keyOp (.ecdh curve point)) (decrypter (.ecdh curve point))) fun z =>
      .lift (unwrapKey ops wrap (concatKdf ops.digests kdfDigest z (wrap.kekLen * 8) kdfParams)
        wrapped)

/-- `unlock_cek`, with its call. -/
def unlockCekCalls (ops : XmlEncOps) (bound : BoundKey) (cipher : XmlEncPayloadAlgorithm)
    (decrypter : KeyOp → Result Bytes) : Decrypting Bytes := fun calls =>
  match unlockKeyCalls ops bound decrypter calls with
  | (.ok cek, calls') =>
    (.ok (if cek.length = cipher.keyLen then cek else ops.randomCek cipher), calls')
  | (.error _, calls') => (.ok (ops.randomCek cipher), calls')

/-- `decrypt_content`, with its call. -/
def decryptContentCalls (ops : XmlEncOps) (cipher : XmlEncPayloadAlgorithm) (cek blob : Bytes) :
    Decrypting Bytes :=
  .call (.content blob) (decryptContent ops cipher cek blob)

/-- `decrypt_attachments`, with its calls. -/
def decryptAttachmentsCalls (ops : XmlEncOps) (envelope : ResolvedEnvelope) (bodies : List Bytes)
    (keys : RecipientKeys) : Decrypting (List Bytes) :=
  match envelope.data.head? with
  | none => .lift (.ok [])
  | some first =>
    .andThen (.lift (Except.rejectIf ((envelope.data.any fun d => d.cipher ≠ first.cipher) ∨
        bodies.length ≠ envelope.data.length)
      (xmlencRefused "the encrypted parts declare different content ciphers"))) fun _ =>
    .andThen (.lift (Except.okOr (keys envelope.key) uniformFailure)) fun selected =>
    .andThen (.lift (bindKey ops envelope.key selected.1)) fun bound =>
    .andThen (unlockCekCalls ops bound first.cipher selected.2) fun cek =>
    .collect (decryptContentCalls ops first.cipher cek) bodies

/-! ## The calls -/

/-- The private-key operation that an `xenc:EncryptedKey` declares. -/
def declaredOp (spec : EncryptedKeySpec) : KeyOp :=
  match spec.transport with
  | .rsaOaep params => .rsaOaep spec.wrappedKey params
  | .agreement agreement => .ecdh agreement.originatorCurve agreement.originatorPoint

/-- Binding changes nothing about the operation. -/
theorem bindKey_op {ops : XmlEncOps} {spec : EncryptedKeySpec} {recipient : RecipientKey}
    {bound : BoundKey} (h : bindKey ops spec recipient = .ok bound) :
    bound.op = declaredOp spec := by
  unfold bindKey at h
  unfold declaredOp
  split at h
  · rename_i htransport
    cases h
    rw [htransport]
    rfl
  · cases h
  · rename_i agreement curve htransport
    simp only [Except.bind_eq_ok, Except.rejectIf_eq_ok, Except.pure_eq_ok] at h
    obtain ⟨_, hcurve, _, -, rfl⟩ := h
    rw [htransport]
    exact congrArg (KeyOp.ecdh · _) (Decidable.not_not.mp hcurve).symm
  · cases h

/-- Whatever the key operation gives, it is called once and a content key comes out. -/
theorem unlockCekCalls_eq (ops : XmlEncOps) (bound : BoundKey) (cipher : XmlEncPayloadAlgorithm)
    (decrypter : KeyOp → Result Bytes) (calls : List DecryptCall) :
    unlockCekCalls ops bound cipher decrypter calls =
      (.ok (unlockCek ops bound cipher decrypter), calls ++ [.keyOp bound.op]) := by
  cases bound with
  | rsaOaep params wrapped =>
    simp only [unlockCekCalls, unlockKeyCalls, Decrypting.call, unlockCek, unlockKey, BoundKey.op]
    cases decrypter (.rsaOaep wrapped params) with
    | error e => rfl
    | ok cek => rfl
  | ecdh curve point kdfDigest kdfParams wrap wrapped =>
    simp only [unlockCekCalls, unlockKeyCalls, Decrypting.andThen, Decrypting.call,
      Decrypting.lift, unlockCek, unlockKey, BoundKey.op]
    cases decrypter (.ecdh curve point) with
    | error e => rfl
    | ok z =>
      simp only [bind, Except.bind]
      cases unwrapKey ops wrap
        (concatKdf ops.digests kdfDigest z (wrap.kekLen * 8) kdfParams) wrapped with
      | error e => rfl
      | ok cek => rfl

/-- The content decryptions: the results of `decrypt_content` in order, up to the first body
    that fails, and every body up to there is a call. -/
theorem collect_decryptContentCalls (ops : XmlEncOps) (cipher : XmlEncPayloadAlgorithm)
    (cek : Bytes) (bodies : List Bytes) (calls : List DecryptCall) :
    ∃ k, k ≤ bodies.length ∧ (bodies ≠ [] → 0 < k) ∧
      Decrypting.collect (decryptContentCalls ops cipher cek) bodies calls =
        (bodies.mapM (decryptContent ops cipher cek),
          calls ++ (bodies.take k).map DecryptCall.content) := by
  induction bodies generalizing calls with
  | nil => exact ⟨0, Nat.le_refl 0, by simp, by simp [Decrypting.collect, Decrypting.lift, pure, Except.pure]⟩
  | cons blob bodies ih =>
    rw [Decrypting.collect, List.mapM_cons]
    simp only [Decrypting.andThen, decryptContentCalls, Decrypting.call]
    cases decryptContent ops cipher cek blob with
    | error e => exact ⟨1, by simp, by simp, by simp [bind, Except.bind]⟩
    | ok plain =>
      obtain ⟨k, hk, -, heq⟩ := ih (calls ++ [.content blob])
      refine ⟨k + 1, by simpa using hk, by simp, ?_⟩
      dsimp only [bind, Except.bind]
      rw [heq]
      cases bodies.mapM (decryptContent ops cipher cek) with
      | error e => simp
      | ok plains => simp [Decrypting.lift, pure, Except.pure]

/-- The recipient's key is bound: a decrypter was selected and fits. -/
def PastBind (ops : XmlEncOps) (envelope : ResolvedEnvelope) (bodies : List Bytes)
    (keys : RecipientKeys) : Prop :=
  ∃ first recipient decrypter bound, envelope.data.head? = some first ∧
    (∀ d ∈ envelope.data, d.cipher = first.cipher) ∧ bodies.length = envelope.data.length ∧
    keys envelope.key = some (recipient, decrypter) ∧
    bindKey ops envelope.key recipient = .ok bound

theorem decryptAttachmentsCalls_of_pastBind {ops : XmlEncOps} {envelope : ResolvedEnvelope}
    {bodies : List Bytes} {keys : RecipientKeys} (h : PastBind ops envelope bodies keys) :
    ∃ cipher cek k, 0 < k ∧ k ≤ bodies.length ∧
      decryptAttachmentsCalls ops envelope bodies keys [] =
        (bodies.mapM (decryptContent ops cipher cek),
          .keyOp (declaredOp envelope.key) :: (bodies.take k).map DecryptCall.content) := by
  obtain ⟨first, recipient, decrypter, bound, hfirst, hciphers, hlen, hkeys, hbound⟩ := h
  have hnone : ¬ ((envelope.data.any fun d => d.cipher ≠ first.cipher) ∨
      bodies.length ≠ envelope.data.length) := by
    rintro (hany | hne)
    · obtain ⟨d, hd, hne⟩ := List.any_eq_true.mp hany
      exact of_decide_eq_true hne (hciphers d hd)
    · exact hne hlen
  have hbodies : bodies ≠ [] := by
    rintro rfl
    rw [List.length_nil, eq_comm, List.length_eq_zero_iff] at hlen
    rw [hlen] at hfirst
    cases hfirst
  obtain ⟨k, hk, hpos, heq⟩ := collect_decryptContentCalls ops first.cipher
    (unlockCek ops bound first.cipher decrypter) bodies [.keyOp (declaredOp envelope.key)]
  refine ⟨first.cipher, unlockCek ops bound first.cipher decrypter, k, hpos hbodies, hk, ?_⟩
  unfold decryptAttachmentsCalls
  rw [hfirst]
  simp only [Decrypting.andThen, Decrypting.lift, Except.rejectIf, if_neg hnone, hkeys,
    Except.okOr, hbound, unlockCekCalls_eq, bindKey_op hbound, List.nil_append]
  exact heq

/-- The calls are those of `decrypt_attachments`. -/
theorem decryptAttachmentsCalls_result (ops : XmlEncOps) (envelope : ResolvedEnvelope)
    (bodies : List Bytes) (keys : RecipientKeys) (calls : List DecryptCall) :
    (decryptAttachmentsCalls ops envelope bodies keys calls).1 =
      decryptAttachments ops envelope bodies keys := by
  unfold decryptAttachmentsCalls decryptAttachments
  cases envelope.data.head? with
  | none => rfl
  | some first =>
    simp only [Decrypting.andThen, Decrypting.lift]
    generalize Except.rejectIf ((envelope.data.any fun d => d.cipher ≠ first.cipher) ∨
      bodies.length ≠ envelope.data.length)
      (xmlencRefused "the encrypted parts declare different content ciphers") = checked
    cases checked with
    | error e => rfl
    | ok u =>
      cases keys envelope.key with
      | none => rfl
      | some selected =>
        simp only [Except.okOr, bind, Except.bind]
        cases bindKey ops envelope.key selected.1 with
        | error e => rfl
        | ok bound =>
          obtain ⟨k, -, -, heq⟩ := collect_decryptContentCalls ops first.cipher
            (unlockCek ops bound first.cipher selected.2) bodies (calls ++ [.keyOp bound.op])
          simp only [unlockCekCalls_eq, heq]

/-! ## Failures -/

theorem decryptContent_error {ops : XmlEncOps} {cipher : XmlEncPayloadAlgorithm}
    {cek blob : Bytes} {e : AsxError} (h : decryptContent ops cipher cek blob = .error e) :
    e = uniformFailure := by
  unfold decryptContent at h
  by_cases hreject : cek.length ≠ cipher.keyLen ∨ blob.length < 12 + 16
  · simp only [Except.rejectIf, if_pos hreject, bind, Except.bind, Except.error.injEq] at h
    exact h.symm
  · simp only [Except.rejectIf, if_neg hreject, bind, Except.bind] at h
    cases hopen : ops.aesGcmOpen cipher cek (blob.take 12) (blob.drop 12) with
    | none =>
      rw [hopen] at h
      exact (Except.error.inj h).symm
    | some plain =>
      rw [hopen] at h
      cases h

/-- A loop fails with an error of one of its iterations. -/
theorem mapM_decryptContent_error {ops : XmlEncOps} {cipher : XmlEncPayloadAlgorithm}
    {cek : Bytes} {bodies : List Bytes} {e : AsxError}
    (h : bodies.mapM (decryptContent ops cipher cek) = .error e) : e = uniformFailure := by
  induction bodies with
  | nil => cases h
  | cons blob bodies ih =>
    rw [List.mapM_cons] at h
    cases hblob : decryptContent ops cipher cek blob with
    | error e' =>
      rw [hblob] at h
      cases h
      exact decryptContent_error hblob
    | ok plain =>
      rw [hblob] at h
      cases hrest : bodies.mapM (decryptContent ops cipher cek) with
      | error e' =>
        rw [hrest] at h
        cases h
        exact ih hrest
      | ok plains =>
        rw [hrest] at h
        cases h

/-- What a run past the bound key has called: the declared private-key operation, once, and then
    the content decryption of one body or more. -/
def CalledAlike (envelope : ResolvedEnvelope) (bodies : List Bytes) (calls : List DecryptCall) :
    Prop :=
  ∃ k, 0 < k ∧ k ≤ bodies.length ∧
    calls = .keyOp (declaredOp envelope.key) :: (bodies.take k).map DecryptCall.content

/-- Two runs that fail after the key was bound fail with the same error, after the same kind of
    calls, whichever step failed in which of them. -/
theorem decryption_failures_uniform (ops₁ ops₂ : XmlEncOps)
    (envelope₁ envelope₂ : ResolvedEnvelope) (bodies₁ bodies₂ : List Bytes)
    (keys₁ keys₂ : RecipientKeys) (e₁ e₂ : AsxError)
    (hbind₁ : PastBind ops₁ envelope₁ bodies₁ keys₁)
    (hbind₂ : PastBind ops₂ envelope₂ bodies₂ keys₂)
    (hfail₁ : decryptAttachments ops₁ envelope₁ bodies₁ keys₁ = .error e₁)
    (hfail₂ : decryptAttachments ops₂ envelope₂ bodies₂ keys₂ = .error e₂) :
    e₁ = e₂ ∧
      CalledAlike envelope₁ bodies₁ (decryptAttachmentsCalls ops₁ envelope₁ bodies₁ keys₁ []).2 ∧
      CalledAlike envelope₂ bodies₂ (decryptAttachmentsCalls ops₂ envelope₂ bodies₂ keys₂ []).2 := by
  have hone : ∀ {ops : XmlEncOps} {envelope : ResolvedEnvelope} {bodies : List Bytes}
      {keys : RecipientKeys} {e : AsxError}, PastBind ops envelope bodies keys →
      decryptAttachments ops envelope bodies keys = .error e → e = uniformFailure ∧
        CalledAlike envelope bodies (decryptAttachmentsCalls ops envelope bodies keys []).2 := by
    intro ops envelope bodies keys e hbind hfail
    obtain ⟨cipher, cek, k, hpos, hk, hcalls⟩ := decryptAttachmentsCalls_of_pastBind hbind
    have hresult := decryptAttachmentsCalls_result ops envelope bodies keys []
    rw [hcalls, hfail] at hresult
    refine ⟨mapM_decryptContent_error hresult, k, hpos, hk, ?_⟩
    rw [hcalls]
  obtain ⟨h₁, hcalls₁⟩ := hone hbind₁ hfail₁
  obtain ⟨h₂, hcalls₂⟩ := hone hbind₂ hfail₂
  exact ⟨h₁.trans h₂.symm, hcalls₁, hcalls₂⟩

/-- A library to which nothing is genuine. -/
def refusingOps : XmlEncOps where
  digests := fun _ b => b
  checkPoint := fun _ _ => .ok ()
  aesKwUnwrap := fun _ _ _ => none
  aesGcmOpen := fun _ _ _ _ => none
  randomCek := fun cipher => List.replicate cipher.keyLen 0
  decompressGzip := .ok

/-- A key whose operations fail. -/
def refusingKey (recipient : RecipientKey) : RecipientKeys := fun _ =>
  some (recipient, fun _ => .error uniformFailure)

/-- One part whose key travels by RSA-OAEP. -/
def transportedEnvelope : ResolvedEnvelope where
  key := ⟨.rsaOaep ⟨.sha256, .mgf1Sha256⟩, [1], none⟩
  data := [⟨Str.lit "a@b", .aes128Gcm, none⟩]

/-- The base point of P-256, uncompressed. -/
def p256Generator : Bytes :=
  [0x04, 0x6B, 0x17, 0xD1, 0xF2, 0xE1, 0x2C, 0x42, 0x47, 0xF8, 0xBC, 0xE6, 0xE5, 0x63, 0xA4, 0x40, 0xF2,
    0x77, 0x03, 0x7D, 0x81, 0x2D, 0xEB, 0x33, 0xA0, 0xF4, 0xA1, 0x39, 0x45, 0xD8, 0x98, 0xC2, 0x96,
    0x4F, 0xE3, 0x42, 0xE2, 0xFE, 0x1A, 0x7F, 0x9B, 0x8E, 0xE7, 0xEB, 0x4A, 0x7C, 0x0F, 0x9E, 0x16,
    0x2B, 0xCE, 0x33, 0x57, 0x6B, 0x31, 0x5E, 0xCE, 0xCB, 0xB6, 0x40, 0x68, 0x37, 0xBF, 0x51, 0xF5]

/-- Two parts whose key is agreed on. -/
def agreedEnvelope : ResolvedEnvelope where
  key := ⟨.agreement ⟨.sha256, ⟨[], [], [], [], []⟩, .p256, p256Generator, .aes128⟩,
    [1], none⟩
  data := [⟨Str.lit "a@b", .aes128Gcm, none⟩, ⟨Str.lit "c@d", .aes128Gcm, none⟩]

/-- A message for a key transport and one for a key agreement. -/
theorem decryption_failures_uniform_transport_agreement :
    CalledAlike transportedEnvelope [[0]] (decryptAttachmentsCalls refusingOps transportedEnvelope
        [[0]] (refusingKey .rsa) []).2 ∧
      CalledAlike agreedEnvelope [[0], [1]] (decryptAttachmentsCalls refusingOps agreedEnvelope
        [[0], [1]] (refusingKey (.ec .p256)) []).2 :=
  (decryption_failures_uniform refusingOps refusingOps transportedEnvelope agreedEnvelope [[0]]
    [[0], [1]] (refusingKey .rsa) (refusingKey (.ec .p256)) uniformFailure uniformFailure
    ⟨_, _, _, _, rfl, by decide, rfl, rfl, rfl⟩ ⟨_, _, _, _, rfl, by decide, rfl, rfl, rfl⟩
    rfl rfl).2

end Asx
