import Asx.Spec.As2Delivery

/-!
# What a refused AS2 request tells its sender

A request whose content carries no valid signature is refused. The answer depends on how far the
content came: one answer for everything that fails before there is a MIME entity, one for an entity
that does not look signed, and one for an entity that does. Which of the three it is can be seen.

## Main results
- `refused_response`: the answer to a request without a valid signature
- `as2_refusals_uniform`: two requests of one kind get one answer
-/

namespace Asx

open Interact

/-- What becomes of the content of an envelope under a key. -/
inductive ContentKind where
  | undecryptable
  | unsigned
  | signed
deriving DecidableEq, Repr

/-- The kind of a content. A key that was not unwrapped, one of the wrong length, bad padding and
    a plaintext that is not a MIME entity are all undecryptable. -/
def contentKind (lib : CmsLibrary) (envelope : Envelope) (key : Bytes) : ContentKind :=
  match envelope.decryptContent lib key with
  | none => .undecryptable
  | some plain => if claimsSignature lib plain then .signed else .unsigned

/-- The refusal of a content without a valid signature. -/
def ContentKind.refusal : ContentKind → Refusal
  | undecryptable => .decryptionFailed
  | unsigned => .insufficientSecurity
  | signed => .authenticationFailed

/-- The response of a refused request, for what the signer of the MDN returned. -/
def refusedResponse (refusal : Refusal) : Except Str Bytes → InboundResponse
  | .ok mdn => .mdn 200 refusal.disposition mdn
  | .error _ => .empty 400

/-- The headers admit a request with a body: `open` is reached. -/
structure Admitted (ep : As2Endpoint) (headers : HeaderMap) (body : Bytes) (messageId sender : Str)
    (policy : As2PartnerPolicy) (session : As2Session) : Prop where
  message_eq : (readAs2Request headers body).messageId = some messageId
  version : (readAs2Request headers body).version.any supportedVersion = true
  sender_eq : (readAs2Request headers body).sender = some sender
  sender_id : isAs2Id sender = true
  policy_eq : policyFor ep.partners none sender = some policy
  session_eq : ep.sessionOf policy = some session
  recipient_eq : (readAs2Request headers body).recipient = some ep.localId
  body_ne : body ≠ []

section

variable {lib : CmsLibrary} {ep : As2Endpoint} {headers : HeaderMap} {body : Bytes}
  {messageId sender : Str} {policy : As2PartnerPolicy} {session : As2Session}

/-- A request that passes the checks of its header goes on to be opened. -/
theorem as2Serve_admitted (h : Admitted ep headers body messageId sender policy session) :
    as2Serve lib ep headers body =
      serve lib ep sender headers body (as2Open (ep.config lib) messageId sender) [] := by
  have hpartner : (ep.config lib).partner sender = true := by
    simp [As2Endpoint.config, h.policy_eq]
  have hsession : (ep.config lib).session sender = true := by
    simp [As2Endpoint.config, h.policy_eq, h.session_eq]
  have hbody : (readAs2Request headers body).body.isEmpty = false := by
    simpa [readAs2Request] using h.body_ne
  have hrecipient : (readAs2Request headers body).recipient = some (ep.config lib).localId :=
    h.recipient_eq
  simp only [as2Serve, as2Handle, h.message_eq, h.version, h.sender_eq, Option.filter_some,
    h.sender_id, hpartner, hrecipient, hbody, hsession, Bool.not_true, if_true,
    Option.getD_some, ne_eq, not_true, if_false, Bool.false_eq_true]

/-- A refusal signs one MDN and answers with it. -/
theorem path_refuse {refusal : Refusal} {detail : Str} {path : List Bytes}
    {t : List As2Event} {a : InboundAnswer}
    (hp : Path (serve lib ep sender headers body (as2Refuse messageId 200 refusal detail) path) t
      (.ret a)) :
    ∃ signed, t = [⟨.inbound (.sign (.mdn messageId refusal.disposition refusal.text none)),
      signed⟩] ∧ a.response = refusedResponse refusal signed := by
  obtain ⟨signed, t', rfl, hpath⟩ := Path.of_call hp
  refine ⟨signed, ?_, ?_⟩
  · cases signed with
    | error err => rw [(Path.of_ret hpath).1]
    | ok mdn => rw [(Path.of_ret hpath).1]
  · cases signed with
    | error err =>
      rw [(Path.of_ret hpath).2]
      rfl
    | ok mdn =>
      rw [(Path.of_ret hpath).2]
      rfl

/-! ## Unsigned contents -/

/-- The content of a run has no valid signature by a pinned certificate. -/
def Unsigned (lib : CmsLibrary) (session : As2Session) (policy : As2PartnerPolicy)
    (envelope : Envelope) (h : List As2Event) : Prop :=
  ∀ key plain, contentKeyIn envelope h = some key → envelope.decryptContent lib key = some plain →
    ∀ result, verifyPinned lib session policy plain ≠ .ok result

/-- Every failure behind the decryption is one refusal, up to its detail. -/
theorem verifyPinned_error {plain : Bytes}
    (h : ∀ result, verifyPinned lib session policy plain ≠ .ok result) :
    ∃ detail, verifyPinned lib session policy plain = .error (.authenticationFailed, detail) := by
  cases hresult : verifyPinned lib session policy plain with
  | ok result => exact absurd hresult (h result)
  | error refusal =>
    simp only [verifyPinned, Except.bind_eq_error, Except.mapError_eq_error, Except.okOr_eq_error,
      Except.rejectIf_eq_error, Except.pure_eq_error] at hresult
    -- Every step of the check names this refusal.
    rcases hresult with ⟨err, -, rfl⟩ | ⟨_, -, ⟨err, -, rfl⟩ | ⟨_, -, ⟨-, rfl⟩ | ⟨_, -, ⟨-, rfl⟩ |
      ⟨_, -, hnever⟩⟩⟩⟩
    · exact ⟨_, rfl⟩
    · exact ⟨_, rfl⟩
    · exact ⟨_, rfl⟩
    · exact ⟨_, rfl⟩
    · exact hnever.elim

/-- So is every failure of the decryption. -/
theorem verifySealed_error {algorithm : As2MicAlgorithm} {envelope : Envelope} {key : Bytes}
    (h : ∀ plain, envelope.decryptContent lib key = some plain →
      ∀ result, verifyPinned lib session policy plain ≠ .ok result) :
    ∃ detail, verifySealed lib session policy algorithm envelope key =
      .error ((contentKind lib envelope key).refusal, detail) := by
  unfold verifySealed contentKind
  cases hplain : envelope.decryptContent lib key with
  | none => exact ⟨_, rfl⟩
  | some plain =>
    obtain ⟨detail, herror⟩ := verifyPinned_error (h plain hplain)
    dsimp only
    split
    · rename_i hclaims
      refine ⟨detail, Except.bind_eq_error.mpr (.inr ⟨plain, rfl, ?_⟩)⟩
      refine Except.bind_eq_error.mpr (.inr ⟨(), ?_, ?_⟩)
      · exact Except.rejectIf_eq_ok.mpr (not_not.mpr hclaims)
      · exact Except.bind_eq_error.mpr (.inl herror)
    · rename_i hclaims
      refine ⟨"the message is not signed", Except.bind_eq_error.mpr (.inr ⟨plain, rfl, ?_⟩)⟩
      exact Except.bind_eq_error.mpr (.inl (Except.rejectIf_eq_error.mpr ⟨hclaims, rfl⟩))

/-- What follows the content key of a request without a valid signature. -/
theorem path_unsigned {algorithm : As2MicAlgorithm} {envelope : Envelope} {key : Bytes}
    {t : List As2Event} {a : InboundAnswer} {next : As2Opened → InboundProg}
    (h : ∀ plain, envelope.decryptContent lib key = some plain →
      ∀ result, verifyPinned lib session policy plain ≠ .ok result)
    (hp : Path (match verifySealed lib session policy algorithm envelope key with
      | .ok (opened, path) => serve lib ep sender headers body (next opened) path
      | .error refusal => serve lib ep sender headers body
          (as2Refuse messageId 200 refusal.1 refusal.2) []) t (.ret a)) :
    ∃ signed, t = [⟨.inbound (.sign (.mdn messageId
        (contentKind lib envelope key).refusal.disposition
        (contentKind lib envelope key).refusal.text none)), signed⟩] ∧
      a.response = refusedResponse (contentKind lib envelope key).refusal signed := by
  obtain ⟨detail, herror⟩ := verifySealed_error h
  rw [herror] at hp
  exact path_refuse hp

/-- A run of a request that reaches its decrypter and has no valid signature. -/
structure UnsignedRun (lib : CmsLibrary) (ep : As2Endpoint) (headers : HeaderMap) (body : Bytes)
    (messageId sender : Str) (policy : As2PartnerPolicy) (session : As2Session)
    (envelope : Envelope) (h : List As2Event) (a : InboundAnswer) : Prop where
  admitted : Admitted ep headers body messageId sender policy session
  enveloped : detectSmimeFormat lib (requestEntity headers body) = .enveloped
  envelope_eq : parseEnvelope lib (requestEntity headers body) ep.decrypters = some envelope
  run : Path (as2Serve lib ep headers body) h (.ret a)
  unsigned : Unsigned lib session policy envelope h

/-- What a run has had signed, with what the signer returned for it. -/
def signaturesIn (h : List As2Event) : List (SignalDraft × Except Str Bytes) :=
  h.filterMap fun e => match e with
    | ⟨.inbound (.sign draft), signed⟩ => some (draft, signed)
    | _ => none

/-- The MDNs that a run has had signed. -/
def mdnsIn (h : List As2Event) : List SignalDraft := (signaturesIn h).map Prod.fst

/-- The MDN of a refused content. -/
def ContentKind.mdn (kind : ContentKind) (messageId : Str) : SignalDraft :=
  .mdn messageId kind.refusal.disposition kind.refusal.text none

/-- A request without a valid signature asks its decrypter once, has one MDN signed, which is that
    of what its content is, and is answered with what the signer returned for it. -/
theorem refused_response {envelope : Envelope} {h : List As2Event} {a : InboundAnswer}
    (hr : UnsignedRun lib ep headers body messageId sender policy session envelope h a) :
    ∃ key signed, contentKeyIn envelope h = some key ∧
      (∃ decrypted, decryptions h = [⟨.decrypt envelope.decrypter envelope.op, decrypted⟩]) ∧
      signaturesIn h = [((contentKind lib envelope key).mdn messageId, signed)] ∧
      a.response = refusedResponse (contentKind lib envelope key).refusal signed := by
  obtain ⟨hadmitted, henveloped, henvelope, hrun, hunsigned⟩ := hr
  have hpartner : ep.partnerOf sender = some (policy, session) := by
    rw [As2Endpoint.partnerOf, hadmitted.policy_eq, Option.bind_some, hadmitted.session_eq]
    rfl
  have haddressed : Addressed lib ep headers body sender policy session envelope :=
    ⟨hadmitted.sender_eq, hadmitted.policy_eq, hadmitted.session_eq, hadmitted.recipient_eq,
      henveloped, henvelope⟩
  have hpath := hrun
  rw [as2Serve_admitted hadmitted, as2Open, serve, hpartner] at hpath
  unfold openThen at hpath
  unfold requestEntity at henveloped henvelope
  simp only [henveloped, henvelope, if_true, unwrapCek] at hpath
  obtain ⟨answer, t, rfl, hrest⟩ := Path.of_call hpath
  clear hpath
  split at hrest
  · -- The decrypter gave a key.
    rename_i cek hcek
    have hkey : contentKeyIn envelope (⟨.decrypt envelope.decrypter envelope.op, answer⟩ :: t) =
        some cek := by
      change Option.or (Option.filter (fun cek : Bytes => cek.length = _) answer) _ = _
      rw [hcek, Option.some_or]
    obtain ⟨signed, rfl, hresponse⟩ := path_unsigned (hunsigned cek · hkey) hrest
    exact ⟨cek, signed, hkey, decryptions_eq hrun haddressed hkey, rfl, hresponse⟩
  · -- The key is random.
    rename_i hnone
    obtain ⟨(filled : Option { key : Bytes // key.length = envelope.cipher.keyLen }), t, rfl,
      hlast⟩ := Path.of_call hrest
    have hkey : contentKeyIn envelope (⟨.decrypt envelope.decrypter envelope.op, answer⟩ ::
        ⟨.random envelope.cipher.keyLen, filled⟩ :: t) =
        some ((filled.map Subtype.val).getD (List.replicate envelope.cipher.keyLen 0)) := by
      change Option.or (Option.filter (fun cek : Bytes => cek.length = _) answer) _ = _
      rw [hnone, Option.none_or]
      rfl
    obtain ⟨signed, rfl, hresponse⟩ := path_unsigned (hunsigned _ · hkey) hlast
    exact ⟨_, signed, hkey, decryptions_eq hrun haddressed hkey, rfl, hresponse⟩

theorem ContentKind.refusal_disposition_injective {k₁ k₂ : ContentKind}
    (h : k₁.refusal.disposition = k₂.refusal.disposition) : k₁ = k₂ := by
  revert h
  cases k₁ <;> cases k₂ <;> decide +kernel

/-- Two requests with one header block for one decrypter, neither with a valid signature: each
    asks the decrypter once, has one MDN signed, which says only of what kind the content is, and
    is answered with the octets that the signer returned for this MDN. The MDNs are the same when
    the contents are of one kind, and only then, and so are the responses when the signer returned
    the same. -/
theorem as2_refusals_uniform {body₁ body₂ : Bytes} {e₁ e₂ : Envelope} {h₁ h₂ : List As2Event}
    {a₁ a₂ : InboundAnswer}
    (hr₁ : UnsignedRun lib ep headers body₁ messageId sender policy session e₁ h₁ a₁)
    (hr₂ : UnsignedRun lib ep headers body₂ messageId sender policy session e₂ h₂ a₂)
    (hdecrypter : e₁.decrypter = e₂.decrypter) :
    (∃ decrypted, decryptions h₁ = [⟨.decrypt e₁.decrypter e₁.op, decrypted⟩]) ∧
    (∃ decrypted, decryptions h₂ = [⟨.decrypt e₁.decrypter e₂.op, decrypted⟩]) ∧
    ∃ key₁ key₂ signed₁ signed₂, contentKeyIn e₁ h₁ = some key₁ ∧ contentKeyIn e₂ h₂ = some key₂ ∧
      signaturesIn h₁ = [((contentKind lib e₁ key₁).mdn messageId, signed₁)] ∧
      signaturesIn h₂ = [((contentKind lib e₂ key₂).mdn messageId, signed₂)] ∧
      a₁.response = refusedResponse (contentKind lib e₁ key₁).refusal signed₁ ∧
      a₂.response = refusedResponse (contentKind lib e₂ key₂).refusal signed₂ ∧
      (mdnsIn h₁ = mdnsIn h₂ ↔ contentKind lib e₁ key₁ = contentKind lib e₂ key₂) ∧
      (contentKind lib e₁ key₁ = contentKind lib e₂ key₂ → signed₁ = signed₂ →
        a₁.response = a₂.response) := by
  obtain ⟨key₁, signed₁, hkey₁, hdecrypted₁, hsigned₁, hresponse₁⟩ := refused_response hr₁
  obtain ⟨key₂, signed₂, hkey₂, hdecrypted₂, hsigned₂, hresponse₂⟩ := refused_response hr₂
  have hmdns₁ : mdnsIn h₁ = [(contentKind lib e₁ key₁).mdn messageId] := by
    rw [mdnsIn, hsigned₁]
    rfl
  have hmdns₂ : mdnsIn h₂ = [(contentKind lib e₂ key₂).mdn messageId] := by
    rw [mdnsIn, hsigned₂]
    rfl
  refine ⟨hdecrypted₁, hdecrypter ▸ hdecrypted₂, key₁, key₂, signed₁, signed₂, hkey₁, hkey₂,
    hsigned₁, hsigned₂, hresponse₁, hresponse₂, ⟨fun hsame => ?_, fun hkind => ?_⟩,
    fun hkind hsigned => ?_⟩
  · -- the disposition of the MDN tells the kinds apart
    rw [hmdns₁, hmdns₂] at hsame
    have hdraft := List.head_eq_of_cons_eq hsame
    injection hdraft with _ hdisposition
    exact ContentKind.refusal_disposition_injective hdisposition
  · rw [hmdns₁, hmdns₂, hkind]
  · rw [hresponse₁, hresponse₂, hkind, hsigned]

end

/-! ## Two refused requests -/

/-- The subject and the serial number of a recipient's certificate. -/
def refusedIssuer : Bytes := [48, 12, 49, 10, 48, 8, 6, 3, 85, 4, 3, 12, 1, 114]

def refusedSerial : Bytes :=
  [29, 208, 129, 127, 153, 37, 56, 157, 8, 192, 28, 133, 127, 37, 246, 168, 239, 188, 22, 48]

/-- An AES-128 content for that recipient, in base64. The plaintext is the unsigned entity below;
    `last` stands for the last byte of the ciphertext. -/
def refusedBody (last : Str) : Bytes := Str.utf8 (
  Str.lit "MIIBqAYJKoZIhvcNAQcDoIIBmTCCAZUCAQAxggFAMIIBPAIBADAkMAwxCjAIBgNVBAMMAXICFB3Q\r\n" ++
  Str.lit "gX+ZJTidCMAchX8l9qjvvBYwMA0GCSqGSIb3DQEBAQUABIIBAA1TWvw1B1mrFWUP3yw5+8OCfqp6\r\n" ++
  Str.lit "oUTQHZfVZfAdv7RJWH6whZHoFD930+DTv4eQwrR6FsgpgeMk+C91rYguSAgOrOFZXuu3YxV2kda/\r\n" ++
  Str.lit "kr+qI7qXPvpuqsWAMyV10JsAhR5hWqKS3WKKFddRRe9+HhXRe1CKXYbzK5yIvQlcobwlKct/xz0m\r\n" ++
  Str.lit "8VzmgpZK6EPPNqvPyJAMX0hxx4Et87pBOCfhyMfjcq+kFNx3sk13Efk1itWI/vDy12+ojy13gKph\r\n" ++
  Str.lit "nVjxmdqV5t0Tx/sZN00JT6tekYOv3N7DYutlSEr1GvT+SVhdhN5aUg9T2ZLCXttb6RPjksSBe1FE\r\n" ++
  Str.lit "5RdD6id+MRUwTAYJKoZIhvcNAQcBMB0GCWCGSAFlAwQBAgQQKYPWjaubVheY1Eu3hzXnY4AgsXlb\r\n" ++
  Str.lit "6UHpKTv5HNCM7EE+gB45m1VnEGeBCnQcsEnBk" ++
  last)

/-- The entity without a signature. -/
def refusedEntity : Bytes := Str.utf8 (Str.lit "Content-Type: text/plain\r\n\r\nhi")

/-- The content key. -/
def refusedKey : Bytes := [96, 87, 208, 194, 45, 224, 116, 119, 176, 172, 100, 135, 97, 223, 80, 212]

/-- What the libraries make of these bodies: the fields stand at fixed places, and the padding is
    right for one last byte of the ciphertext. -/
def refusedLibrary : CmsLibrary where
  parseMail := fun mail =>
    some (some (Str.lit "application/pkcs7-mime; smime-type=enveloped-data"), some (mail.drop 86))
  contentInfoToDer := some
  contentInfo := fun der => some (Str.lit "1.2.840.113549.1.7.3", der.drop 19)
  envelopedData := fun content => some
    ⟨[some ⟨.issuerAndSerialNumber ((content.drop 20).take 14) ((content.drop 36).take 20),
      ⟨Str.lit "1.2.840.113549.1.1.1", some [5, 0]⟩, (content.drop 75).take 256⟩],
      Str.lit "1.2.840.113549.1.7.1",
      ⟨Str.lit "2.16.840.1.101.3.4.1.2", some ((content.drop 357).take 18)⟩,
      some (content.drop 377)⟩
  oaepParams := fun _ => none
  algorithmIdentifier := fun _ => none
  octetString := fun der => some (der.drop 2)
  decrypt := fun _ key _ ciphertext =>
    if key = refusedKey ∧ ciphertext.getLast? = some 105 then some refusedEntity else none
  fromSmime := fun mail => some (mail.drop 86, none)
  pkcs7Type := fun _ => some .enveloped
  trustStore := fun _ => .ok ()
  stackFromPem := fun _ => none
  pkcs7Verify := fun _ _ _ _ => none
  pkcs7Signers := fun _ _ => none
  verifyCert := fun _ _ _ => none
  fingerprint := fun _ => none
  inflate := fun _ _ => none
  sha256 := fun _ => []
  sha384 := fun _ => []
  sha512 := fun _ => []

/-- A partner, and what it sends. -/
def refusedPolicy : As2PartnerPolicy := ⟨some (none, Str.lit "P"), [[1]]⟩

def refusedSession : As2Session :=
  ⟨⟨Str.lit "s", Str.lit "P", true⟩, [Str.lit "anchor"], []⟩

def refusedEndpoint : As2Endpoint :=
  ⟨Str.lit "L", Str.lit "as2", [((none, Str.lit "P"), refusedPolicy)],
    [((none, Str.lit "P"), refusedSession)], [⟨some (refusedIssuer, refusedSerial), []⟩], none⟩

def refusedHeaders : HeaderMap := fun name =>
  if name = Str.lit "message-id" then some (Str.lit "<m@s>")
  else if name = Str.lit "as2-version" then some (Str.lit "1.2")
  else if name = Str.lit "as2-from" then some (Str.lit "P")
  else if name = Str.lit "as2-to" then some (Str.lit "L")
  else if name = Str.lit "content-type" then
    some (Str.lit "application/pkcs7-mime; smime-type=enveloped-data")
  else none

/-- The answers of a run: the decrypter unwraps the key, and the signer returns an MDN. -/
def refusedAnswers : (call : As2Call) → call.Answer
  | .decrypt _ _ => some refusedKey
  | .random _ => none
  | .revocation _ => .ok ()
  | .inbound .verify => .error ⟨.invalidInput, [], .new []⟩
  | .inbound .openAs2 => .error ⟨.invalidInput, [], .new []⟩
  | .inbound .revocation => .ok ()
  | .inbound (.claim _) => .error []
  | .inbound (.finish _) => .error ⟨.invalidInput, [], .new []⟩
  | .inbound (.handle _ _) => .ok ()
  | .inbound (.sign _) => .ok []
  | .inbound (.record _) => .ok ()
  | .inbound (.accept _ _) => .ok ()
  | .inbound (.abandon _ _) => .ok ()

/-- The run of a body. -/
def refusedRun (last : Str) : List As2Event × InboundAnswer :=
  (as2Serve refusedLibrary refusedEndpoint refusedHeaders (refusedBody last)).answered refusedAnswers

theorem refused_admitted {body : Bytes} (h : body ≠ []) :
    Admitted refusedEndpoint refusedHeaders body (Str.lit "m@s") (Str.lit "P") refusedPolicy
      refusedSession where
  message_eq := by
    change (readAs2Request refusedHeaders []).messageId = _
    decide +kernel
  version := by
    change (readAs2Request refusedHeaders []).version.any supportedVersion = true
    decide +kernel
  sender_eq := by
    change (readAs2Request refusedHeaders []).sender = _
    decide +kernel
  sender_id := by decide +kernel
  policy_eq := by decide +kernel
  session_eq := by decide +kernel
  recipient_eq := by
    change (readAs2Request refusedHeaders []).recipient = _
    decide +kernel
  body_ne := h

theorem refused_enveloped (last : Str) (h : last = Str.lit "Gk=" ∨ last = Str.lit "Gg=") :
    detectSmimeFormat refusedLibrary (requestEntity refusedHeaders (refusedBody last)) =
        .enveloped ∧
      (parseEnvelope refusedLibrary (requestEntity refusedHeaders (refusedBody last))
        refusedEndpoint.decrypters).map Envelope.decrypter = some 0 := by
  rcases h with rfl | rfl <;> decide +kernel

/-- No signature is found in anything here. -/
theorem refused_unsignedRun {last : Str} (h : last = Str.lit "Gk=" ∨ last = Str.lit "Gg=") :
    ∃ envelope, envelope.decrypter = 0 ∧
      UnsignedRun refusedLibrary refusedEndpoint refusedHeaders (refusedBody last) (Str.lit "m@s")
        (Str.lit "P") refusedPolicy refusedSession envelope (refusedRun last).1
        (refusedRun last).2 := by
  obtain ⟨henveloped, hparsed⟩ := refused_enveloped last h
  obtain ⟨envelope, henvelope, hdecrypter⟩ := Option.map_eq_some_iff.mp hparsed
  refine ⟨envelope, hdecrypter, ?_, henveloped, henvelope, Prog.path_answered .., ?_⟩
  · refine refused_admitted ?_
    rcases h with rfl | rfl <;> decide +kernel
  · intro key plain hkey hplain result hok
    obtain ⟨-, certs, pkcs7, detached, written, signers, -, hwritten, -⟩ := verifyPinned_ok hok
    cases hwritten

/-- A body that decrypts to an unsigned entity and one with wrong padding: the decrypter is asked
    once for each, and each is answered with the MDN that it had signed. -/
theorem as2_refusals_uniform_padding : ∃ e₁ e₂ key₁ key₂ signed₁ signed₂,
    (∃ decrypted, decryptions (refusedRun (Str.lit "Gk=")).1 =
      [⟨.decrypt (Envelope.decrypter e₁) e₁.op, decrypted⟩]) ∧
    (∃ decrypted, decryptions (refusedRun (Str.lit "Gg=")).1 =
      [⟨.decrypt e₁.decrypter (Envelope.op e₂), decrypted⟩]) ∧
    signaturesIn (refusedRun (Str.lit "Gk=")).1 =
      [((contentKind refusedLibrary e₁ key₁).mdn (Str.lit "m@s"), signed₁)] ∧
    signaturesIn (refusedRun (Str.lit "Gg=")).1 =
      [((contentKind refusedLibrary e₂ key₂).mdn (Str.lit "m@s"), signed₂)] ∧
    (refusedRun (Str.lit "Gk=")).2.response =
      refusedResponse (contentKind refusedLibrary e₁ key₁).refusal signed₁ ∧
    (refusedRun (Str.lit "Gg=")).2.response =
      refusedResponse (contentKind refusedLibrary e₂ key₂).refusal signed₂ := by
  obtain ⟨e₁, hd₁, hr₁⟩ := @refused_unsignedRun (Str.lit "Gk=") (.inl rfl)
  obtain ⟨e₂, hd₂, hr₂⟩ := @refused_unsignedRun (Str.lit "Gg=") (.inr rfl)
  obtain ⟨hdecrypted₁, hdecrypted₂, key₁, key₂, signed₁, signed₂, -, -, hsigned₁, hsigned₂,
    hresponse₁, hresponse₂, -⟩ := as2_refusals_uniform hr₁ hr₂ (hd₁.trans hd₂.symm)
  exact ⟨e₁, e₂, key₁, key₂, signed₁, signed₂, hdecrypted₁, hdecrypted₂, hsigned₁, hsigned₂,
    hresponse₁, hresponse₂⟩

/-- The answer tells a ciphertext with wrong padding from one whose content is not signed. -/
theorem as2_refusals_differ : ∃ e₁ e₂, e₁.decrypter = e₂.decrypter ∧
    UnsignedRun refusedLibrary refusedEndpoint refusedHeaders (refusedBody (Str.lit "Gk="))
      (Str.lit "m@s") (Str.lit "P") refusedPolicy refusedSession e₁ (refusedRun (Str.lit "Gk=")).1
      (refusedRun (Str.lit "Gk=")).2 ∧
    UnsignedRun refusedLibrary refusedEndpoint refusedHeaders (refusedBody (Str.lit "Gg="))
      (Str.lit "m@s") (Str.lit "P") refusedPolicy refusedSession e₂ (refusedRun (Str.lit "Gg=")).1
      (refusedRun (Str.lit "Gg=")).2 ∧
    (refusedRun (Str.lit "Gk=")).2.response =
      .mdn 200 Refusal.insufficientSecurity.disposition [] ∧
    (refusedRun (Str.lit "Gg=")).2.response =
      .mdn 200 Refusal.decryptionFailed.disposition [] := by
  obtain ⟨e₁, hd₁, hr₁⟩ := @refused_unsignedRun (Str.lit "Gk=") (.inl rfl)
  obtain ⟨e₂, hd₂, hr₂⟩ := @refused_unsignedRun (Str.lit "Gg=") (.inr rfl)
  exact ⟨e₁, e₂, hd₁.trans hd₂.symm, hr₁, hr₂, by decide +kernel, by decide +kernel⟩

end Asx
