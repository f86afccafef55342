import Asx.ForStd.Calls
import Asx.Native.As2Inbound

/-!
# What an AS2 endpoint delivers

The application is called after the request named a configured partner and the local party, its
body was an `EnvelopedData` for one configured decrypter, and the content carried a signature by
a pinned certificate of the partner that the revocation check let pass. What it is given, and the
MIC of the MDN, are functions of the verified entity.

## Main results
- `as2Serve_meets`: what holds when a request makes one of its calls
- `as2_delivery_safe`: what holds of a run that calls the application
-/

namespace Asx

open Interact

/-! ## A request with a verified entity -/

/-- The body as S/MIME is looked for in it. -/
def requestEntity (headers : HeaderMap) (body : Bytes) : Bytes :=
  bodyWithMimeHeaders body (header headers "content-type")

/-- What an accepted message was read from. -/
structure As2Source where
  sender : Str
  policy : As2PartnerPolicy
  session : As2Session
  envelope : Envelope
  contentKey : Bytes
  plain : Bytes
  verified : VerifiedSmimeEntity
  signer : Bytes

/-- The request names a partner and the local party, and is enveloped for a decrypter. -/
structure Addressed (lib : CmsLibrary) (ep : As2Endpoint) (headers : HeaderMap) (body : Bytes)
    (sender : Str) (policy : As2PartnerPolicy) (session : As2Session) (envelope : Envelope) :
    Prop where
  sender_eq : (readAs2Request headers body).sender = some sender
  policy_eq : policyFor ep.partners none sender = some policy
  session_eq : ep.sessionOf policy = some session
  recipient_eq : (readAs2Request headers body).recipient = some ep.localId
  enveloped : detectSmimeFormat lib (requestEntity headers body) = .enveloped
  envelope_eq : parseEnvelope lib (requestEntity headers body) ep.decrypters = some envelope

/-- The answer of the decrypter in a run. -/
def unwrappedIn : List As2Event → Option (Option Bytes)
  | [] => none
  | ⟨.decrypt _ _, answer⟩ :: _ => some answer
  | _ :: h => unwrappedIn h

/-- The random bytes of a run, or zeros where there were none. -/
def drawnIn : List As2Event → Option Bytes
  | [] => none
  | ⟨.random size, (filled : Option { key : Bytes // key.length = size })⟩ :: _ =>
    some ((filled.map Subtype.val).getD (List.replicate size 0))
  | _ :: h => drawnIn h

/-- The content key of a run: the decrypter's answer when it has the right length, and else the
    random bytes. -/
def contentKeyIn (envelope : Envelope) (h : List As2Event) : Option Bytes :=
  (unwrappedIn h).bind fun answer =>
    (answer.filter fun cek => cek.length = envelope.cipher.keyLen).or (drawnIn h)

/-- The calls of a run led to a verified entity. -/
structure Accepts (lib : CmsLibrary) (ep : As2Endpoint) (headers : HeaderMap) (body : Bytes)
    (h : List As2Event) (src : As2Source) : Prop where
  addressed : Addressed lib ep headers body src.sender src.policy src.session src.envelope
  contentKey : contentKeyIn src.envelope h = some src.contentKey
  plain : src.envelope.decryptContent lib src.contentKey = some src.plain
  claims : claimsSignature lib src.plain = true
  verified : verifyPinned lib src.session src.policy src.plain = .ok (src.verified, src.signer)

/-- The payload and the media type of an entity. -/
def payloadOf (lib : CmsLibrary) (entity : Bytes) : Option (Bytes × Str) :=
  (entityPayload lib ⟨⟨[], [], false⟩, [], []⟩ (.fromEntityBytes entity)).toOption

/-- The MIC of an entity, as an MDN carries it. -/
def micOf (lib : CmsLibrary) (algorithm : As2MicAlgorithm) (entity : Bytes) : Str :=
  (computeMic lib entity algorithm).1 ++ ", " ++ (computeMic lib entity algorithm).2

/-- Whether a call is a private-key operation. -/
def As2Call.isDecrypt : As2Call → Bool
  | .decrypt _ _ => true
  | _ => false

/-- The private-key operations of a run. -/
def decryptions (h : List As2Event) : List As2Event := h.filter (·.call.isDecrypt)

/-! ## The payload is a function of the entity -/

/-- The media type is read from the octets of the entity. -/
theorem contentType_of_entity {v v' : VerifiedSmimeEntity} (h : v.entity = v'.entity) :
    v.contentType = v'.contentType := by
  cases v
  cases v'
  cases h
  rfl

/-- So is the content. -/
theorem decodedContent_of_entity {v v' : VerifiedSmimeEntity} (h : v.entity = v'.entity) :
    v.decodedContent = v'.decodedContent := by
  cases v
  cases v'
  cases h
  rfl

/-- The session is only named in errors. -/
theorem decodeEntityContent_ok {lib : CmsLibrary} {session : As2Session} {v : VerifiedSmimeEntity}
    {content : Bytes} (session' : As2Session) (v' : VerifiedSmimeEntity) (h : v.entity = v'.entity)
    (hok : decodeEntityContent lib session v = .ok content) :
    decodeEntityContent lib session' v' = .ok content := by
  simp only [decodeEntityContent, Except.bind_eq_ok] at hok ⊢
  obtain ⟨decoded, hdecoded, hcontent⟩ := hok
  refine ⟨decoded, decodedContent_of_entity h ▸ hdecoded, ?_⟩
  rw [← contentType_of_entity h]
  split
  · rename_i hcompressed
    rw [if_pos hcompressed, Except.mapError_eq_ok] at hcontent
    rw [Except.mapError_eq_ok]
    exact hcontent
  · rename_i hcompressed
    rw [if_neg hcompressed] at hcontent
    exact hcontent

/-- A payload that is delivered is that of the entity. -/
theorem payloadOf_eq {lib : CmsLibrary} {session : As2Session} {v : VerifiedSmimeEntity}
    {payload : Bytes × Str} (h : entityPayload lib session v = .ok payload) :
    payloadOf lib v.entity = some payload := by
  simp only [entityPayload, Except.bind_eq_ok, Except.mapError_eq_ok] at h
  obtain ⟨content, hcontent, hpayload⟩ := h
  have hcontent' := decodeEntityContent_ok ⟨⟨[], [], false⟩, [], []⟩ (.fromEntityBytes v.entity)
    rfl hcontent
  have htype : v.contentType = (VerifiedSmimeEntity.fromEntityBytes v.entity).contentType :=
    contentType_of_entity rfl
  have heq : entityPayload lib ⟨⟨[], [], false⟩, [], []⟩ (.fromEntityBytes v.entity) =
      .ok payload := by
    simp only [entityPayload, Except.bind_eq_ok, Except.mapError_eq_ok]
    exact ⟨content, hcontent', htype ▸ hpayload⟩
  rw [payloadOf, heq]
  rfl

/-! ## Along a run -/

section

variable {lib : CmsLibrary} {ep : As2Endpoint} {headers : HeaderMap} {body : Bytes}
  {h t : List As2Event} {src src' : As2Source}

theorem unwrappedIn_append {answer : Option Bytes} (hs : unwrappedIn h = some answer) :
    unwrappedIn (h ++ t) = some answer := by
  fun_induction unwrappedIn h with
  | case1 => cases hs
  | case2 i op a h => exact hs
  | case3 e h hno ih =>
    rw [List.cons_append, unwrappedIn]
    · exact ih hs
    · exact hno

theorem drawnIn_append {key : Bytes} (hs : drawnIn h = some key) : drawnIn (h ++ t) = some key := by
  fun_induction drawnIn h with
  | case1 => cases hs
  | case2 size filled h => exact hs
  | case3 e h hno ih =>
    rw [List.cons_append, drawnIn]
    · exact ih hs
    · exact hno

/-- The content key of a history stays that of a longer one. -/
theorem contentKeyIn_append {envelope : Envelope} {key : Bytes}
    (hs : contentKeyIn envelope h = some key) : contentKeyIn envelope (h ++ t) = some key := by
  obtain ⟨answer, hanswer, hkey⟩ := Option.bind_eq_some_iff.mp hs
  rw [contentKeyIn, unwrappedIn_append hanswer, Option.bind_some]
  rcases Option.or_eq_some_iff.mp hkey with hlen | ⟨hnone, hdrawn⟩
  · rw [hlen, Option.some_or]
  · rw [hnone, Option.none_or, drawnIn_append hdrawn]

/-- What is accepted in a history is accepted in a longer one. -/
theorem Accepts.append (hacc : Accepts lib ep headers body h src) :
    Accepts lib ep headers body (h ++ t) src :=
  { hacc with contentKey := contentKeyIn_append hacc.contentKey }

/-- A run is read in one way. -/
theorem Accepts.unique (hacc : Accepts lib ep headers body h src)
    (hacc' : Accepts lib ep headers body h src') : src = src' := by
  obtain ⟨sender, policy, session, envelope, key, plain, verified, signer⟩ := src
  obtain ⟨sender', policy', session', envelope', key', plain', verified', signer'⟩ := src'
  obtain ⟨⟨h1, h2, h3, -, -, h4⟩, h5, h6, -, h7⟩ := hacc
  obtain ⟨⟨h1', h2', h3', -, -, h4'⟩, h5', h6', -, h7'⟩ := hacc'
  dsimp only at *
  obtain rfl : sender = sender' := Option.some.inj (h1.symm.trans h1')
  obtain rfl : policy = policy' := Option.some.inj (h2.symm.trans h2')
  obtain rfl : session = session' := Option.some.inj (h3.symm.trans h3')
  obtain rfl : envelope = envelope' := Option.some.inj (h4.symm.trans h4')
  obtain rfl : key = key' := Option.some.inj (h5.symm.trans h5')
  obtain rfl : plain = plain' := Option.some.inj (h6.symm.trans h6')
  obtain ⟨rfl, rfl⟩ : verified = verified' ∧ signer = signer' := by
    simpa using h7.symm.trans h7'
  rfl

end

/-! ## What a call needs -/

/-- What holds when a request makes a call: the first private-key operation is the only one and
    belongs to the envelope, the application gets what was signed, and so does a MIC. -/
def As2Pre (lib : CmsLibrary) (ep : As2Endpoint) (headers : HeaderMap) (body : Bytes)
    (h : List As2Event) : As2Call → Prop
  | .decrypt decrypter op => decryptions h = [] ∧ ∃ sender policy session envelope,
      Addressed lib ep headers body sender policy session envelope ∧
        decrypter = envelope.decrypter ∧ op = envelope.op
  | .inbound (.handle message _) => ∃ src received, Accepts lib ep headers body h src ∧
      ⟨.revocation src.verified.signerPath, .ok ()⟩ ∈ h ∧ message = .as2 received ∧
        received.sender = src.sender ∧ payloadOf lib src.verified.entity = some received.payload
  | .inbound (.sign (.mdn _ _ _ (some mic))) => ∃ src, Accepts lib ep headers body h src ∧
      mic = micOf lib (requestedMicAlgorithm headers) src.verified.entity
  | _ => True

/-- `Meets` for a request. -/
def As2Meets (lib : CmsLibrary) (ep : As2Endpoint) (headers : HeaderMap) (body : Bytes)
    (h : List As2Event) (p : As2Prog) : Prop :=
  Meets (As2Pre lib ep headers body) (fun _ _ => True) h p

/-- The calls of `handle` once a message is accepted. -/
def AfterAccept (received : Received) (mic : Str) : InboundCall → Prop
  | .verify | .openAs2 | .revocation => False
  | .handle message _ => message = .as2 received
  | .sign (.mdn _ _ _ (some m)) => m = mic
  | _ => True

theorem calls_signThen {received : Received} {mic : Str} {draft : SignalDraft}
    (h : AfterAccept received mic (.sign draft)) (success : Bytes → InboundAnswer)
    (failure : Str → InboundAnswer) :
    Calls (AfterAccept received mic) (signThen draft success failure) := by
  refine ⟨h, fun answer => ?_⟩
  cases answer with
  | error err => trivial
  | ok signal => trivial

/-- After the claim the handler signs one MIC, that of the opened message. -/
theorem calls_as2Acknowledge (cfg : As2InboundConfig) (messageId sender : Str) (opened : As2Opened)
    (key : Str) (token : ClaimToken) (received : Received) :
    Calls (AfterAccept received opened.mic)
      (as2Acknowledge cfg messageId sender opened key token) := by
  have haccept : ∀ {failure : Str → InboundAnswer} {success : InboundAnswer}
      {next : Except Str Unit → InboundProg}, (∀ err, next (.error err) = .ret (failure err)) →
      next (.ok ()) = .ret success →
      Calls (AfterAccept received opened.mic) (.call (.accept key token) next : InboundProg) := by
    intro failure success next herror hok
    refine ⟨trivial, fun answer => ?_⟩
    cases answer with
    | error err =>
      rw [herror]
      trivial
    | ok u =>
      rw [hok]
      trivial
  refine ⟨rfl, fun answer => ?_⟩
  cases answer with
  | error err => exact ⟨trivial, fun _ => trivial⟩
  | ok signal =>
    refine ⟨trivial, fun finished => ?_⟩
    cases finished with
    | error err => exact ⟨trivial, fun _ => trivial⟩
    | ok record =>
      dsimp only [recordAudit]
      cases cfg.audit with
      | none => exact haccept (fun _ => rfl) rfl
      | some durability =>
        refine ⟨trivial, fun written => ?_⟩
        cases written with
        | ok u => exact haccept (fun _ => rfl) rfl
        | error err =>
          cases durability with
          | bestEffort => exact haccept (fun _ => rfl) rfl
          | durable => exact ⟨trivial, fun _ => trivial⟩

/-- And hands over one message, the opened one. -/
theorem calls_as2Claim (cfg : As2InboundConfig) (messageId sender : Str) (opened : As2Opened) :
    Calls (AfterAccept (as2Received messageId sender opened) opened.mic)
      (as2Claim cfg messageId sender opened) := by
  refine ⟨trivial, fun answer => ?_⟩
  cases answer with
  | error err => trivial
  | ok claim =>
    cases claim with
    | duplicate =>
      refine calls_signThen ?_ _ _
      rfl
    | inFlight => trivial
    | claimed token =>
      refine ⟨trivial, fun evidence => ?_⟩
      cases evidence with
      | error err => exact ⟨trivial, fun _ => trivial⟩
      | ok record =>
        cases cfg.readable opened.signerDer with
        | false => exact ⟨trivial, fun _ => trivial⟩
        | true =>
          refine ⟨rfl, fun answer => ?_⟩
          cases answer with
          | ok u => exact calls_as2Acknowledge cfg messageId sender opened _ token _
          | error fault =>
            refine ⟨trivial, fun _ => calls_signThen ?_ _ _⟩
            trivial

section

variable {lib : CmsLibrary} {ep : As2Endpoint} {headers : HeaderMap} {body : Bytes}
  {h : List As2Event} {src : As2Source} {sender : Str}

/-- A program that keeps to `AfterAccept` keeps to its conditions in the run that accepted. -/
theorem serve_meets_of_calls {received : Received} {mic : Str}
    (hacc : Accepts lib ep headers body h src)
    (hrev : ⟨.revocation src.verified.signerPath, .ok ()⟩ ∈ h)
    (hsender : received.sender = src.sender)
    (hpayload : payloadOf lib src.verified.entity = some received.payload)
    (hmic : mic = micOf lib (requestedMicAlgorithm headers) src.verified.entity)
    {p : InboundProg} (hp : Calls (AfterAccept received mic) p) (path : List Bytes) :
    As2Meets lib ep headers body h (serve lib ep sender headers body p path) := by
  induction p generalizing h with
  | ret answer => trivial
  | call c k ih =>
    obtain ⟨hc, hk⟩ := hp
    have hnext : ∀ e : As2Event, ∀ a, As2Meets lib ep headers body (h ++ [e])
        (serve lib ep sender headers body (k a) path) :=
      fun e a => ih a hacc.append (List.mem_append_left _ hrev) (hk a)
    cases c with
    | verify => exact hc.elim
    | openAs2 => exact hc.elim
    | revocation => exact hc.elim
    | handle message record =>
      cases hc
      exact ⟨⟨src, received, hacc, hrev, rfl, hsender, hpayload⟩, fun a => hnext _ a⟩
    | sign draft =>
      refine ⟨?_, fun a => hnext _ a⟩
      cases draft with
      | receipt messageId nri => trivial
      | mdn messageId disposition text m =>
        cases m with
        | none => trivial
        | some m =>
          cases hc
          exact ⟨src, hacc, hmic⟩
    | claim key => exact ⟨trivial, fun a => hnext _ a⟩
    | finish builder => exact ⟨trivial, fun a => hnext _ a⟩
    | record record => exact ⟨trivial, fun a => hnext _ a⟩
    | accept key token => exact ⟨trivial, fun a => hnext _ a⟩
    | abandon key token => exact ⟨trivial, fun a => hnext _ a⟩

/-- A refusal of the message hands nothing over. -/
theorem serve_meets_refuse (messageId : Str) (status : Nat) (refusal : Refusal) (detail : Str)
    (path : List Bytes) : As2Meets lib ep headers body h
      (serve lib ep sender headers body (as2Refuse messageId status refusal detail) path) := by
  refine ⟨trivial, fun answer => ?_⟩
  cases answer with
  | error err => trivial
  | ok mdn => trivial

/-- What an opened message was made of. -/
theorem verifySealed_ok {session : As2Session} {policy : As2PartnerPolicy} {envelope : Envelope}
    {algorithm : As2MicAlgorithm} {cek : Bytes} {opened : As2Opened} {path : List Bytes}
    (hok : verifySealed lib session policy algorithm envelope cek = .ok (opened, path)) :
    ∃ plain verified, envelope.decryptContent lib cek = some plain ∧
      claimsSignature lib plain = true ∧
      verifyPinned lib session policy plain = .ok (verified, opened.signerDer) ∧
      payloadOf lib verified.entity = some (opened.content, opened.mediaType) ∧
      opened.mic = micOf lib algorithm verified.entity ∧ path = verified.signerPath := by
  simp only [verifySealed, authenticate, Except.bind_eq_ok, Except.okOr_eq_ok, Except.rejectIf_eq_ok,
    Except.pure_eq_ok, not_not] at hok
  obtain ⟨plain, hplain, _, hclaims, ⟨verified, signer⟩, hverified, ⟨content, mediaType⟩, hpayload,
    hopened⟩ := hok
  cases hopened
  exact ⟨plain, verified, hplain, hclaims, hverified, payloadOf_eq hpayload, rfl, rfl⟩

/-- `handle` after `open`, in the run that gave the content key. -/
theorem serve_meets_opened (messageId : Str) {policy : As2PartnerPolicy} {session : As2Session}
    {envelope : Envelope} {key : Bytes}
    (haddressed : Addressed lib ep headers body sender policy session envelope)
    (hkey : contentKeyIn envelope h = some key) {opened : As2Opened} {path : List Bytes}
    (hok : verifySealed lib session policy (requestedMicAlgorithm headers) envelope key =
      .ok (opened, path)) :
    As2Meets lib ep headers body h (serve lib ep sender headers body
      (.call .revocation fun
        | .error description => as2Refuse messageId 200 .authenticationFailed description
        | .ok () => as2Claim (ep.config lib) messageId sender opened) path) := by
  obtain ⟨plain, verified, hplain, hclaims, hverified, hpayload, hmic, rfl⟩ := verifySealed_ok hok
  refine ⟨trivial, fun outcome => ?_⟩
  cases outcome with
  | error description => exact serve_meets_refuse ..
  | ok u =>
    have hacc : Accepts lib ep headers body h
        ⟨sender, policy, session, envelope, key, plain, verified, opened.signerDer⟩ :=
      ⟨haddressed, hkey, hplain, hclaims, hverified⟩
    exact serve_meets_of_calls hacc.append (List.mem_append_right _ List.mem_cons_self) rfl hpayload
      hmic (calls_as2Claim ..) _

/-- `open` goes on with a refusal, or with what the content key in the run opens. -/
theorem openThen_meets {policy : As2PartnerPolicy} {session : As2Session}
    (hsender : (readAs2Request headers body).sender = some sender)
    (hpolicy : policyFor ep.partners none sender = some policy)
    (hsession : ep.sessionOf policy = some session)
    (hrecipient : (readAs2Request headers body).recipient = some ep.localId)
    {next : Except (Refusal × Str) (As2Opened × List Bytes) → As2Prog}
    (hrefuse : ∀ h refusal, As2Meets lib ep headers body h (next (.error refusal)))
    (hopened : ∀ h envelope key opened path,
      Addressed lib ep headers body sender policy session envelope →
      contentKeyIn envelope h = some key →
      verifySealed lib session policy (requestedMicAlgorithm headers) envelope key =
        .ok (opened, path) → As2Meets lib ep headers body h (next (.ok (opened, path)))) :
    As2Meets lib ep headers body []
      (openThen lib ep.decrypters session policy headers body next) := by
  unfold openThen
  dsimp only
  split
  · rename_i henveloped
    split
    · rename_i envelope henvelope
      have haddressed : Addressed lib ep headers body sender policy session envelope :=
        ⟨hsender, hpolicy, hsession, hrecipient, henveloped, henvelope⟩
      have hresume : ∀ (h : List As2Event) (key : Bytes), contentKeyIn envelope h = some key →
          As2Meets lib ep headers body h (next
            (verifySealed lib session policy (requestedMicAlgorithm headers) envelope key)) := by
        intro h key hkey
        cases hok : verifySealed lib session policy (requestedMicAlgorithm headers) envelope key with
        | error refusal => exact hrefuse ..
        | ok result => exact hopened h envelope key _ _ haddressed hkey hok
      refine ⟨⟨rfl, sender, policy, session, envelope, haddressed, rfl, rfl⟩, fun answer => ?_⟩
      -- The run has the answer of the decrypter, so the key it gives is known.
      dsimp only [List.nil_append]
      split
      · rename_i cek hcek
        refine hresume _ cek ?_
        change Option.or (Option.filter (fun cek : Bytes => cek.length = _) answer) _ = _
        rw [hcek, Option.some_or]
      · rename_i hnone
        refine ⟨trivial, fun filled => hresume _ _ ?_⟩
        change Option.or (Option.filter (fun cek : Bytes => cek.length = _) answer) _ = _
        rw [hnone, Option.none_or]
        rfl
    · exact hrefuse ..
  · split
    · exact hrefuse ..
    · rename_i hno
      exact absurd rfl hno

/-- Opening the message keeps the obligation: what is handed over was accepted. -/
theorem serve_meets_open (messageId : Str) {policy : As2PartnerPolicy} {session : As2Session}
    (hsender : (readAs2Request headers body).sender = some sender)
    (hpolicy : policyFor ep.partners none sender = some policy)
    (hsession : ep.sessionOf policy = some session)
    (hrecipient : (readAs2Request headers body).recipient = some ep.localId) :
    As2Meets lib ep headers body []
      (serve lib ep sender headers body (as2Open (ep.config lib) messageId sender) []) := by
  have hpartner : ep.partnerOf sender = some (policy, session) := by
    rw [As2Endpoint.partnerOf, hpolicy, Option.bind_some, hsession]
    rfl
  rw [as2Open, serve, hpartner]
  dsimp only
  -- In every branch `handle` is resumed with a refusal or with an opened message.
  refine openThen_meets hsender hpolicy hsession hrecipient
    (fun h refusal => serve_meets_refuse ..) ?_
  intro h envelope key opened path haddressed hkey hok
  exact serve_meets_opened messageId haddressed hkey hok

/-- Every call of a request meets its condition. -/
theorem as2Serve_meets (lib : CmsLibrary) (ep : As2Endpoint) (headers : HeaderMap) (body : Bytes) :
    As2Meets lib ep headers body [] (as2Serve lib ep headers body) := by
  unfold as2Serve as2Handle
  dsimp only
  split
  · trivial
  · split
    · exact serve_meets_refuse ..
    · split
      · exact serve_meets_refuse ..
      · rename_i sender hsender
        have hsender' := (Option.filter_eq_some_iff.mp hsender).1
        split
        · exact serve_meets_refuse ..
        · rename_i hpartner
          split
          · exact serve_meets_refuse ..
          · rename_i hrecipient
            split
            · exact serve_meets_refuse ..
            · split
              · exact serve_meets_refuse ..
              · rename_i hsession
                rw [hsender', Option.getD_some]
                have hfound : (ep.config lib).session sender = true := by simpa using hsession
                obtain ⟨session, hbind⟩ := Option.isSome_iff_exists.mp hfound
                obtain ⟨policy, hpolicy, hsome⟩ := Option.bind_eq_some_iff.mp hbind
                exact serve_meets_open _ hsender' hpolicy hsome (not_not.mp hrecipient)

end

/-! ## Delivery -/

/-- The decrypter of an envelope is a configured one. -/
theorem parseEnvelope_decrypter {lib : CmsLibrary} {smime : Bytes}
    {recipients : List RecipientCertificate} {envelope : Envelope}
    (h : parseEnvelope lib smime recipients = some envelope) :
    envelope.decrypter < recipients.length := by
  simp only [parseEnvelope, Option.bind_eq_bind, Option.bind_eq_some_iff] at h
  obtain ⟨der, -, info, -, enveloped, -, cipher, -, ciphertext, -, h⟩ := h
  split at h
  · rename_i decrypter ktri hselected
    obtain ⟨transport, -, heq⟩ := Option.bind_eq_some_iff.mp h
    cases heq
    have hmem : (decrypter, ktri) ∈ selectedRecipients enveloped.recipInfos recipients := by
      rw [hselected]
      exact List.mem_cons_self
    simp only [selectedRecipients, List.mem_flatMap, List.mem_map, List.mem_filter] at hmem
    obtain ⟨ktri', -, ⟨cert, index⟩, ⟨hindex, -⟩, heq⟩ := hmem
    cases heq
    exact (List.mem_zipIdx' hindex).1
  · cases h

/-- An unwrapped key is the answer of a decrypter. -/
theorem unwrappedIn_mem {h : List As2Event} {answer : Option Bytes}
    (hs : unwrappedIn h = some answer) : ∃ i op, (⟨.decrypt i op, answer⟩ : As2Event) ∈ h := by
  fun_induction unwrappedIn h with
  | case1 => cases hs
  | case2 i op a h =>
    cases hs
    exact ⟨i, op, List.mem_cons_self⟩
  | case3 e h hno ih =>
    obtain ⟨i, op, hmem⟩ := ih hs
    exact ⟨i, op, List.mem_cons_of_mem e hmem⟩

/-- The one private-key operation of a run that has a content key is the one of its envelope. -/
theorem decryptions_eq {lib : CmsLibrary} {ep : As2Endpoint} {headers : HeaderMap} {body : Bytes}
    {h : List As2Event} {q : As2Prog} (hrun : Path (as2Serve lib ep headers body) h q)
    {sender : Str} {policy : As2PartnerPolicy} {session : As2Session} {envelope : Envelope}
    (haddressed : Addressed lib ep headers body sender policy session envelope) {key : Bytes}
    (hkey : contentKeyIn envelope h = some key) :
    ∃ answer, decryptions h = [⟨.decrypt envelope.decrypter envelope.op, answer⟩] := by
  have hmeets := as2Serve_meets lib ep headers body
  obtain ⟨answer, hanswer, -⟩ := Option.bind_eq_some_iff.mp hkey
  obtain ⟨i, op, hmem⟩ := unwrappedIn_mem hanswer
  obtain ⟨h₁, h₂, hsplit⟩ := List.append_of_mem hmem
  obtain ⟨hfirst, _, _, _, envelope', haddressed', rfl, rfl⟩ := hmeets.before hrun _ _ _ hsplit
  obtain rfl : envelope = envelope' :=
    Option.some.inj (haddressed.envelope_eq.symm.trans haddressed'.envelope_eq)
  refine ⟨answer, ?_⟩
  -- A later one would have found this one before it.
  have hlast : decryptions h₂ = [] := by
    refine List.filter_eq_nil_iff.mpr fun e he hdecrypt => ?_
    obtain ⟨g₁, g₂, hsplit'⟩ := List.append_of_mem he
    obtain ⟨call, result⟩ := e
    cases call with
    | decrypt i op =>
      have hbefore : decryptions
          (h₁ ++ ⟨.decrypt envelope.decrypter envelope.op, answer⟩ :: g₁) = [] :=
        (hmeets.before hrun _ ⟨.decrypt i op, result⟩ g₂ (by
          rw [hsplit, hsplit']
          simp)).1
      rw [decryptions, List.filter_append, List.append_eq_nil_iff] at hbefore
      simp [As2Call.isDecrypt] at hbefore
    | random size => cases hdecrypt
    | revocation path => cases hdecrypt
    | inbound call => cases hdecrypt
  rw [hsplit, decryptions, List.filter_append, List.filter_cons_of_pos rfl]
  unfold decryptions at hfirst hlast
  rw [hfirst, hlast]
  rfl

/-- A signer that passed is the first one that the library named for the content. -/
theorem verifyPinned_ok {lib : CmsLibrary} {session : As2Session} {policy : As2PartnerPolicy}
    {plain signer : Bytes} {verified : VerifiedSmimeEntity}
    (h : verifyPinned lib session policy plain = .ok (verified, signer)) :
    (∃ f, lib.fingerprint signer = some f ∧ f ∈ policy.pins) ∧
    ∃ certs pkcs7 detached written signers, lib.fromSmime plain = some (pkcs7, detached) ∧
      lib.pkcs7Verify session.trustAnchorPems certs pkcs7 detached = some written ∧
      lib.pkcs7Signers certs pkcs7 = some signers ∧ signer ∈ signers ∧
      verified.entity = detached.getD written := by
  simp only [verifyPinned, verifySmimeSignedPayload, Except.bind_eq_ok, Except.mapError_eq_ok,
    Except.okOr_eq_ok, Except.rejectIf_eq_ok, Except.pure_eq_ok, not_not] at h
  obtain ⟨_, -, v, ⟨_, -, ⟨pkcs7, detached⟩, hsmime, chains, -, written, hwritten, signers, hsigners,
    first, hfirst, path, -, rfl⟩, signer', hsigner, _, hpinned, hpair⟩ := h
  cases hpair
  cases hsigner
  obtain ⟨f, hf, hmem⟩ := (Option.any_eq_true _ _).mp hpinned
  exact ⟨⟨f, hf, List.contains_iff_mem.mp hmem⟩, chains.flatten, pkcs7, detached, written, signers,
    hsmime, hwritten, hsigners, List.mem_of_head? hfirst, rfl⟩

/-- When the application is called, the request came from a configured partner for the local
    party, one configured decrypter was asked once, and a pinned certificate of the partner that
    the revocation check let pass has signed the entity. Payload, media type and MIC are functions
    of that entity, and no message of AS4 is handed over. `Signed` is what a verified signature
    stands for. -/
theorem as2_delivery_safe (lib : CmsLibrary) (Signed : Bytes → Bytes → Prop)
    (hlib : ∀ anchors certs pkcs7 detached written signers,
      lib.pkcs7Verify anchors certs pkcs7 detached = some written →
      lib.pkcs7Signers certs pkcs7 = some signers →
      ∀ signer ∈ signers, Signed signer (detached.getD written))
    (ep : As2Endpoint) (headers : HeaderMap) (body : Bytes) {h : List As2Event} {q : As2Prog}
    (hrun : Path (as2Serve lib ep headers body) h q) {received : Received} {record : AuditRecord}
    {answer : Except Fault Unit}
    (hcall : ⟨.inbound (.handle (.as2 received) record), answer⟩ ∈ h) :
    ∃ src, Accepts lib ep headers body h src ∧ received.sender = src.sender ∧
      (∃ decrypted, decryptions h =
        [⟨.decrypt src.envelope.decrypter src.envelope.op, decrypted⟩]) ∧
      src.envelope.decrypter < ep.decrypters.length ∧
      Signed src.signer src.verified.entity ∧
      (∃ f, lib.fingerprint src.signer = some f ∧ f ∈ src.policy.pins) ∧
      ⟨.revocation src.verified.signerPath, .ok ()⟩ ∈ h ∧
      payloadOf lib src.verified.entity = some received.payload ∧
      (∀ messageId disposition text mic signed,
        ⟨.inbound (.sign (.mdn messageId disposition text (some mic))), signed⟩ ∈ h →
        mic = micOf lib (requestedMicAlgorithm headers) src.verified.entity) ∧
      ∀ message record answer, ⟨.inbound (.handle (.as4 message) record), answer⟩ ∉ h := by
  have hmeets := as2Serve_meets lib ep headers body
  obtain ⟨h₁, h₂, hsplit⟩ := List.append_of_mem hcall
  obtain ⟨src, received', hacc, hrev, heq, hsender, hpayload⟩ := hmeets.before hrun _ _ _ hsplit
  cases heq
  have hprefix : Accepts lib ep headers body h src := hsplit ▸ hacc.append
  obtain ⟨hpinned, certs, pkcs7, detached, written, signers, -, hwritten, hsigners, hmem, hentity⟩ :=
    verifyPinned_ok hacc.verified
  refine ⟨src, hprefix, hsender, ?_, parseEnvelope_decrypter hacc.addressed.envelope_eq, ?_, hpinned,
    ?_, hpayload, ?_, ?_⟩
  · exact decryptions_eq hrun hprefix.addressed hprefix.contentKey
  · rw [hentity]
    exact hlib _ certs pkcs7 detached written signers hwritten hsigners _ hmem
  · rw [hsplit]
    exact List.mem_append_left _ hrev
  · intro messageId disposition text mic signed hsign
    obtain ⟨g₁, g₂, hsplit'⟩ := List.append_of_mem hsign
    obtain ⟨src', hacc', hmic⟩ := hmeets.before hrun _ _ _ hsplit'
    have hprefix' : Accepts lib ep headers body h src' := hsplit' ▸ hacc'.append
    rw [hmic, hprefix.unique hprefix']
  · intro message record' answer' has4
    obtain ⟨g₁, g₂, hsplit'⟩ := List.append_of_mem has4
    obtain ⟨_, _, -, -, hmessage, -⟩ := hmeets.before hrun _ _ _ hsplit'
    cases hmessage

/-! ## A delivered message -/

/-- The signed entity. -/
def deliveredEntity : Bytes := Str.utf8 (Str.lit "Content-Type: text/plain\r\n\r\nhi")

/-- Its signature. -/
def deliveredSignature : Str :=
  Str.lit "MIGvBgkqhkiG9w0BBwKggaEwgZ4CAQExDzANBglghkgBZQMEAgEFADALBgkqhkiG\r\n" ++
  Str.lit "9w0BBwExezB5AgEBMBEwDDEKMAgGA1UEAwwBcwIBATANBglghkgBZQMEAgEFADAK\r\n" ++
  Str.lit "BggqhkjOPQQDAgRGMEQCIFBSK42Nuz1VOlCJ7JHSCl5ljCxNvR7ECRU+kOn4T9LI\r\n" ++
  Str.lit "AiALZoNR6+80ur/M3wXTkVPG6J8+eO19Ydc1r+B225ZzhA==\r\n"

/-- The entity with its signature. -/
def deliveredPlain : Bytes :=
  Str.utf8 (Str.lit "Content-Type: multipart/signed; protocol=\"application/pkcs7-signature\"; " ++
    Str.lit "micalg=sha-256; boundary=b\r\n\r\n--b\r\n") ++ deliveredEntity ++
  Str.utf8 (Str.lit "\r\n--b\r\nContent-Type: application/pkcs7-signature\r\n" ++
    Str.lit "Content-Transfer-Encoding: base64\r\n\r\n" ++ deliveredSignature ++
    Str.lit "--b--\r\n")

/-- The certificate of the signer, which is its own anchor. -/
def deliveredPem : Str :=
  Str.lit "-----BEGIN CERTIFICATE-----\n" ++
  Str.lit "MIIBWzCCAQKgAwIBAgIBATAKBggqhkjOPQQDAjAMMQowCAYDVQQDDAFzMCAXDTI2\n" ++
  Str.lit "MTExODA4NDAxN1oYDzIxMjYxMDI1MDg0MDE3WjAMMQowCAYDVQQDDAFzMFkwEwYH\n" ++
  Str.lit "KoZIzj0CAQYIKoZIzj0DAQcDQgAETsnfRmBnWWGmtAsVkDz2UwlQcWeC/i8x0Xqg\n" ++
  Str.lit "Pt+Rp4v9JzX36KWAdBlfMx214uLku6dRl3jXiuM/VS15mFzpEqNTMFEwHQYDVR0O\n" ++
  Str.lit "BBYEFGXRH2VaWiP2uvqFSMm/q0QFsIrnMB8GA1UdIwQYMBaAFGXRH2VaWiP2uvqF\n" ++
  Str.lit "SMm/q0QFsIrnMA8GA1UdEwEB/wQFMAMBAf8wCgYIKoZIzj0EAwIDRwAwRAIgUCUQ\n" ++
  Str.lit "w9EmuirweZ1zxrDNbSgVZxVmvuVumMP7RwwKjVECIGD1KXP9kHNkRupWzSDAcRmc\n" ++
  Str.lit "mh22UmfAefEZJnvjfy6P\n" ++
  Str.lit "-----END CERTIFICATE-----\n"

def deliveredSigner : Bytes :=
  ((Base64.decode (((deliveredPem.drop 28).take 476).filter (· ≠ '\n')))).getD []

/-- Its fingerprint. -/
def deliveredPrint : Bytes :=
  [48, 147, 54, 199, 171, 230, 145, 27, 73, 104, 84, 138, 238, 190, 173, 177, 133, 97, 239,
   69, 119, 178, 66, 251, 176, 196, 148, 144, 203, 193, 103, 222]

/-- The request's body: `deliveredPlain`, encrypted with AES-128 for a recipient. -/
def deliveredBody : Bytes := Str.utf8 (
  Str.lit "MIIDbAYJKoZIhvcNAQcDoIIDXTCCA1kCAQAxggFAMIIBPAIBADAkMAwxCjAIBgNVBAMMAXICFB3Q\r\n" ++
  Str.lit "gX+ZJTidCMAchX8l9qjvvBYwMA0GCSqGSIb3DQEBAQUABIIBADW4xTjO+5/gCj8AI0vwJlmJOGi6\r\n" ++
  Str.lit "REnycBktlDJhcBpGulQf+tkoI2PPinYUQSn/8/fKTxzkEmBl4dIwDnRrznESCFuL7j6BdIBzz/Ei\r\n" ++
  Str.lit "nXbNhfJDrHWO+iPqkA0JLE73lfKa/PePUWBZAE7ETTQmtZBgOtIq411i4iNXPvzWULdgUdQy/Vc+\r\n" ++
  Str.lit "BXTE3MG1dFBF4ZiSUrHUbN3xSX+Nba0hYLe9NzuxgDiQgoXvWQg4xzBLkTcuSiBJBi+K6K3MN0cd\r\n" ++
  Str.lit "5EiD40aYugt3mMSk5EaFwrOlcePZfwXmyQXuAx/Ep6LKk5yt+8TzIosMLiRjqIStNaNu+FFwPO0M\r\n" ++
  Str.lit "J3GOXDGGcREwggIOBgkqhkiG9w0BBwEwHQYJYIZIAWUDBAECBBCqbFGir+gVbkkf01GMMJgkgIIB\r\n" ++
  Str.lit "4P2rhxVa55a5aCJqLNWZSQ95xmpUk23F8ouOiNvaMpR1CRd5wlFOZPjY07bhiPiiHYSsI5IAm5lH\r\n" ++
  Str.lit "wjvJTOORK3c7y5SZgOcqF0iGq8QQ9UDWnulTGsF0dqkEBF+oqN7elA/I5ZbHW+HUM3MBAfqAllN8\r\n" ++
  Str.lit "JPT9NoQjYFESmpLvdEDrnxVlXM8VCcbRki4vcwZKzMKxNyDhmOVNXQibm/bMH+sdO22uVR0gJDIa\r\n" ++
  Str.lit "e+VHSuWCeQ0uoIS8GxS9aqXCKxChMz3CcQSAddCL7CqdaPRFLoaU7Rz5t7m5XlF32LrdSvdKtX8Q\r\n" ++
  Str.lit "hZlF0wqItuiPg8uZ8W1a7VsSum1IEEVrKVt6FhRI3aLt2w5P17+TYzg/Tn3QaknInDCxVE66Gm8Q\r\n" ++
  Str.lit "tzn9tLT4IrXVWgeQOfoD7pVIa7Bgr1ROjx4Mdr05ejh/Dqfw5mklwWWdeUVDARkOmGAERzyPXtOf\r\n" ++
  Str.lit "LV8qxTEukbFoHm8nUgNBKJZnIZZwO1oCyd/1HiTlnwVCJjOi3gFzT8Q1rYeYI8ucpqET+3yBrSnF\r\n" ++
  Str.lit "h54HxO25IHDSFBj6KgRwrfoXEfuWNfrRXZx8p9yl55nYT3wvb5emvM5dMyRKsrVKZiWXW3IHwWNr\r\n" ++
  Str.lit "760Lgpc114pghpjdAuMyy/CJW4QEQGHJkQ==\r\n")

/-- The content key. -/
def deliveredKey : Bytes := [13, 171, 187, 153, 31, 175, 62, 235, 131, 197, 121, 232, 27, 155, 192, 248]

/-- Subject and serial number of the recipient's certificate. -/
def deliveredRecipient : Bytes × Bytes :=
  ([48, 12, 49, 10, 48, 8, 6, 3, 85, 4, 3, 12, 1, 114],
    [29, 208, 129, 127, 153, 37, 56, 157, 8, 192, 28, 133, 127, 37, 246, 168, 239, 188, 22, 48])

/-- What the libraries make of the message. The fields of the envelope stand at fixed places, and
    the two digests are those of the entity and of the dedup key. -/
def deliveredLibrary : CmsLibrary where
  parseMail := fun mail =>
    some (some (Str.lit "application/pkcs7-mime; smime-type=enveloped-data"), some (mail.drop 86))
  contentInfoToDer := some
  contentInfo := fun der => some (Str.lit "1.2.840.113549.1.7.3", der.drop 19)
  envelopedData := fun content => some
    ⟨[some ⟨.issuerAndSerialNumber ((content.drop 20).take 14) ((content.drop 36).take 20),
      ⟨Str.lit "1.2.840.113549.1.1.1", some [5, 0]⟩, (content.drop 75).take 256⟩],
      Str.lit "1.2.840.113549.1.7.1",
      ⟨Str.lit "2.16.840.1.101.3.4.1.2", some ((content.drop 359).take 18)⟩,
      some (content.drop 381)⟩
  oaepParams := fun _ => none
  algorithmIdentifier := fun _ => none
  octetString := fun der => some (der.drop 2)
  decrypt := fun _ key _ _ => if key = deliveredKey then some deliveredPlain else none
  fromSmime := fun mail =>
    if mail = deliveredPlain then some (Str.utf8 deliveredSignature, some deliveredEntity)
    else some (mail.drop 86, none)
  pkcs7Type := fun pkcs7 => if pkcs7 = Str.utf8 deliveredSignature then some .signed
    else some .enveloped
  trustStore := fun _ => .ok ()
  stackFromPem := fun pem => if pem = deliveredPem then some [deliveredSigner] else none
  pkcs7Verify := fun _ _ _ detached =>
    if detached = some deliveredEntity then some deliveredEntity else none
  pkcs7Signers := fun _ _ => some [deliveredSigner]
  verifyCert := fun _ _ _ => some (true, [deliveredSigner])
  fingerprint := fun der => if der = deliveredSigner then some deliveredPrint else none
  inflate := fun _ _ => none
  sha256 := fun b => if b = deliveredEntity
    then [238, 124, 218, 117, 133, 123, 49, 117, 140, 212, 149, 255, 6, 198, 182, 105, 161, 64,
       239, 117, 76, 251, 59, 238, 155, 205, 32, 234, 105, 26, 176, 5]
    else [193, 15, 1, 144, 31, 93, 234, 114, 243, 201, 253, 97, 64, 104, 145, 58, 0, 3, 194, 69,
       59, 22, 158, 185, 245, 7, 177, 110, 147, 182, 206, 213]
  sha384 := fun _ => []
  sha512 := fun _ => []

def deliveredEndpoint : As2Endpoint :=
  ⟨Str.lit "L", Str.lit "as2",
    [((none, Str.lit "P"), ⟨some (none, Str.lit "P"), [deliveredPrint]⟩)],
    [((none, Str.lit "P"),
      ⟨⟨Str.lit "s", Str.lit "P", true⟩, [deliveredPem], [deliveredPem]⟩)],
    [⟨some deliveredRecipient, []⟩], none⟩

def deliveredHeaders : HeaderMap := fun name =>
  if name = Str.lit "message-id" then some (Str.lit "<m@s>")
  else if name = Str.lit "as2-version" then some (Str.lit "1.2")
  else if name = Str.lit "as2-from" then some (Str.lit "P")
  else if name = Str.lit "as2-to" then some (Str.lit "L")
  else if name = Str.lit "content-type" then
    some (Str.lit "application/pkcs7-mime; smime-type=enveloped-data")
  else none

/-- The answers of a run in which nothing fails. -/
def deliveredAnswers : (call : As2Call) → call.Answer
  | .decrypt _ _ => some deliveredKey
  | .random _ => none
  | .revocation _ => .ok ()
  | .inbound .verify => .error ⟨.invalidInput, [], .new []⟩
  | .inbound .openAs2 => .error ⟨.invalidInput, [], .new []⟩
  | .inbound .revocation => .ok ()
  | .inbound (.claim _) => .ok (.claimed ⟨Str.lit "t"⟩)
  | .inbound (.finish builder) => .ok ⟨Str.lit "r", builder⟩
  | .inbound (.handle _ _) => .ok ()
  | .inbound (.sign _) => .ok []
  | .inbound (.record _) => .ok ()
  | .inbound (.accept _ _) => .ok ()
  | .inbound (.abandon _ _) => .ok ()

/-- The run of that message. -/
def deliveredRun : List As2Event × InboundAnswer :=
  (as2Serve deliveredLibrary deliveredEndpoint deliveredHeaders deliveredBody).answered
    deliveredAnswers

/-- The message that a call hands to the application. -/
def As2Call.received : As2Call → Option Received
  | .inbound (.handle (.as2 received) _) => some received
  | _ => none

theorem As2Call.received_eq {call : As2Call} {r : Received} (h : call.received = some r) :
    ∃ record, call = .inbound (.handle (.as2 r) record) := by
  unfold As2Call.received at h
  split at h
  · cases h
    exact ⟨_, rfl⟩
  · cases h

theorem deliveredRun_received :
    deliveredRun.1.findSome? (·.call.received) =
      some ⟨Str.lit "m@s", Str.lit "P", Str.utf8 (Str.lit "hi"), Str.lit "text/plain"⟩ := by
  decide +kernel

theorem deliveredRun_handled : ∃ record answer,
    (⟨.inbound (.handle (.as2 ⟨Str.lit "m@s", Str.lit "P", Str.utf8 (Str.lit "hi"),
      Str.lit "text/plain"⟩) record), answer⟩ : As2Event) ∈ deliveredRun.1 := by
  obtain ⟨⟨call, answer⟩, hmem, hreceived⟩ :=
    List.exists_of_findSome?_eq_some deliveredRun_received
  obtain ⟨record, rfl⟩ := As2Call.received_eq hreceived
  exact ⟨record, answer, hmem⟩

/-- The entity of a real message is signed, and its body is what the application is given. -/
theorem as2_delivery_safe_delivered : ∃ src,
    Accepts deliveredLibrary deliveredEndpoint deliveredHeaders deliveredBody deliveredRun.1 src ∧
      src.verified.entity = deliveredEntity ∧ src.signer = deliveredSigner ∧
      payloadOf deliveredLibrary deliveredEntity =
        some (Str.utf8 (Str.lit "hi"), Str.lit "text/plain") := by
  obtain ⟨record, answer, hcall⟩ := deliveredRun_handled
  obtain ⟨src, haccepts, -, -, -, ⟨hsigner, hentity⟩, -, -, hpayload, -⟩ :=
    as2_delivery_safe deliveredLibrary
      (fun signer content => signer = deliveredSigner ∧ content = deliveredEntity)
      (by
        intro anchors certs pkcs7 detached written signers hverify hsigners signer hmem
        cases hsigners
        obtain ⟨hdetached, hwritten⟩ := Option.ite_none_right_eq_some.mp hverify
        refine ⟨List.mem_singleton.mp hmem, ?_⟩
        rw [hdetached]
        rfl)
      deliveredEndpoint deliveredHeaders deliveredBody
      (Prog.path_answered deliveredAnswers _) hcall
  exact ⟨src, haccepts, hentity, hsigner, hentity ▸ hpayload⟩

end Asx
