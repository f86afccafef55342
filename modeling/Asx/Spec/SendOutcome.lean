import Asx.Spec.AsyncMdn
import Asx.Spec.ResponseErrors
import Asx.Spec.Wrapping

/-!
# What the result of a send says

Every course of an exchange is a path of the program that sends. A send ends as delivered only
where the receipt or MDN was accepted, the signer's revocation passed and a durable sink has
the record. That nothing was written is said truthfully as long as no task of the crypto pool
fails after the request: such a failure is reported as a configuration error.

## Main results
- `as4_truthful_iff`, `as2_truthful_iff`: the courses on which the result is truthful
- `send_outcomes_truthful_iff`: both
-/

namespace Asx

open Interact Xml

/-! ## Courses -/

/-- The stages of the tasks that have failed. -/
def failedTasks (h : List SendEvent) : List Str :=
  h.filterMap fun
    | ⟨.task stage, .error _⟩ => some stage
    | _ => none

/-- The requests with their answers. -/
def requests (h : List SendEvent) : List (SentMessage × Except HttpFailure SyncResponse) :=
  h.filterMap fun
    | ⟨.http sent, answer⟩ => some (sent, answer)
    | _ => none

/-- The revocation checks with their answers. -/
def revocations (h : List SendEvent) : List (List Bytes × Except Str Unit) :=
  h.filterMap fun
    | ⟨.revocation path, answer⟩ => some (path, answer)
    | _ => none

/-- The records given to the sink with its answers. -/
def records (h : List SendEvent) : List (AuditRecord × Except Str Unit) :=
  h.filterMap fun
    | ⟨.record record, answer⟩ => some (record, answer)
    | _ => none

@[simp] theorem failedTasks_append (h h' : List SendEvent) :
    failedTasks (h ++ h') = failedTasks h ++ failedTasks h' := List.filterMap_append

@[simp] theorem requests_append (h h' : List SendEvent) :
    requests (h ++ h') = requests h ++ requests h' := List.filterMap_append

@[simp] theorem revocations_append (h h' : List SendEvent) :
    revocations (h ++ h') = revocations h ++ revocations h' := List.filterMap_append

@[simp] theorem records_append (h h' : List SendEvent) :
    records (h ++ h') = records h ++ records h' := List.filterMap_append

/-- An error says that nothing was written: a configuration or a transport error. -/
def PublicError.SaysNotSent (e : PublicError) : Prop := e.kind = .config ∨ e.kind = .transport

/-- The HTTP client was not called, or reported the request as not written. -/
def NotWritten (h : List SendEvent) : Prop :=
  ∀ r ∈ requests h, ∃ err, r.2 = .error (.notWritten err)

/-- The record is with the sink, if that is durable. -/
def Recorded (sink : Option AuditDurability) (h : List SendEvent) (record : AuditRecord) : Prop :=
  sink = some .durable → (record, .ok ()) ∈ records h

/-- No durable sink has failed. -/
def SinkHolds (sink : Option AuditDurability) (h : List SendEvent) : Prop :=
  sink = some .durable → ∀ r ∈ records h, r.2 = .ok ()

/-! ## Kinds of errors -/

@[simp] theorem kind_new (kind : ErrorKind) (message : Str) :
    (PublicError.new kind message).kind = kind := rfl

@[simp] theorem kind_withEvidence (e : PublicError) (record : Option AuditRecord) :
    (e.withEvidence record).kind = e.kind := rfl

@[simp] theorem kind_retryableIf (e : PublicError) (condition : Bool) :
    (e.retryableIf condition).kind = e.kind := rfl

@[simp] theorem kind_fromInternal (stage : ErrorStage) (err : AsxError) :
    (PublicError.fromInternal stage err).kind = PublicError.kindOf stage err.code := rfl

/-- Before a request there is no partner to refuse it. -/
theorem kind_toError (refused : Unsendable) : refused.toError.kind ≠ .partnerError := by
  cases refused with
  | config message => simp [Unsendable.toError]
  | internal err =>
    obtain ⟨code, message, context⟩ := err
    cases code <;> simp [Unsendable.toError, PublicError.internal, PublicError.kindOf]
  | signer => simp [Unsendable.toError]

/-- While an answer is verified, every other code becomes `Backend` or `Indeterminate`. -/
theorem kindOf_responseVerify {err : AsxError} (h : NotCapacity err) :
    PublicError.kindOf .responseVerify err.code = .backend ∨
      PublicError.kindOf .responseVerify err.code = .indeterminate := by
  unfold NotCapacity at h
  generalize err.code = code at h ⊢
  cases code <;> simp [PublicError.kindOf] at h ⊢

/-- A failure of the HTTP client never names the partner, and says that nothing was sent only
    where nothing was written. -/
theorem kind_classify (failure : HttpFailure) : (classify failure).kind ≠ .partnerError ∧
    ((classify failure).SaysNotSent → ∃ err, failure = .notWritten err) := by
  cases failure with
  | notWritten err =>
    obtain ⟨code, message, context⟩ := err
    refine ⟨?_, fun _ => ⟨_, rfl⟩⟩
    cases code <;> simp [classify, PublicError.kindOf]
  | written written =>
    obtain ⟨⟨code, message, context⟩, hcode⟩ := written
    simp only [List.mem_cons, List.not_mem_nil, or_false] at hcode
    rcases hcode with rfl | rfl | rfl <;>
      simp [classify, PublicError.kindOf, PublicError.SaysNotSent]
  | other text => simp [classify, PublicError.SaysNotSent]

/-! ## The parts of a send -/

section Parts

variable {pre : List SendEvent → SendCall → Prop} {post : List SendEvent → SendEnd → Prop}
  {h : List SendEvent}

/-- A task on the blocking pool: it panics, and the run ends, or the rest runs. -/
theorem meets_spawnCrypto {stage : Str} {session : SessionContext} {rest : SendProg}
    (hcall : pre h (.task stage))
    (hfailed : ∀ text, post (h ++ [⟨.task stage, .error text⟩]) (.failed (.internal
      ⟨.transportFailure, "blocking task failed: " ++ text, .forSession stage session⟩)))
    (hrest : Meets pre post (h ++ [⟨.task stage, .ok ()⟩]) rest) :
    Meets pre post h (spawnCrypto stage session rest) := by
  refine ⟨hcall, fun answer => ?_⟩
  cases answer with
  | error text => exact hfailed text
  | ok u => exact hrest

/-- The revocation check is asked for a path, and for no path it passes. -/
theorem meets_checkRevocation {path : List Bytes} {rest : Except Str Unit → SendProg}
    (hcall : pre h (.revocation path))
    (hnone : path = [] → Meets pre post h (rest (.ok ())))
    (hrest : path ≠ [] → ∀ answer, Meets pre post (h ++ [⟨.revocation path, answer⟩]) (rest answer)) :
    Meets pre post h (checkRevocation path rest) := by
  rw [checkRevocation]
  split
  · rename_i hpath
    exact hnone hpath
  · rename_i hpath
    exact ⟨hcall, fun answer => hrest hpath answer⟩

/-- What the calls `t` to the sink tell of the result `written`. -/
structure WriteTells (sink : Option AuditDurability) (record : Option AuditRecord)
    (t : List SendEvent) (written : Result Unit) : Prop where
  tasks : failedTasks t = []
  requests : requests t = []
  revocations : revocations t = []
  recorded : written = .ok () → ∀ r, record = some r → Recorded sink t r
  holds : written = .ok () → SinkHolds sink t
  failed : ∀ err, written = .error err →
    err.code = .storageBackendFailure ∧ ¬ SinkHolds sink t

/-- The audit step in front of a rest: what it makes of the record is all that the rest learns. -/
theorem meets_writeRecord {sink : Option AuditDurability} {sha256 : Bytes → Bytes}
    {record : Option AuditRecord} {stage : Str} {rest : Result Unit → SendProg}
    (hcall : ∀ r, pre h (.record r))
    (hrest : ∀ t written, WriteTells sink record t written →
      Meets pre post (h ++ t) (rest written)) :
    Meets pre post h (writeRecord sink sha256 record stage rest) := by
  have hnothing (hsilent : sink = none ∨ record = none) : Meets pre post h (rest (.ok ())) := by
    have htells : WriteTells sink record [] (.ok ()) := by
      refine ⟨rfl, rfl, rfl, fun _ r hr hsink => ?_, fun _ _ r hr => ?_, fun err herr => ?_⟩
      · rcases hsilent with rfl | rfl
        · cases hsink
        · cases hr
      · cases hr
      · cases herr
    simpa using hrest [] (.ok ()) htells
  cases sink with
  | none => exact hnothing (.inl rfl)
  | some durability =>
    cases record with
    | none => exact hnothing (.inr rfl)
    | some r =>
      refine ⟨hcall r, fun answer => ?_⟩
      cases answer with
      | ok u =>
        refine hrest [⟨.record r, .ok ()⟩] (.ok ())
          ⟨rfl, rfl, rfl, fun _ r' hr' _ => ?_, fun _ _ x hx => ?_, fun err herr => by cases herr⟩
        · cases hr'
          exact List.mem_singleton_self _
        · rw [List.mem_singleton.mp hx]
      | error text =>
        cases durability with
        | bestEffort =>
          exact hrest [⟨.record r, .error text⟩] (.ok ())
            ⟨rfl, rfl, rfl, fun _ _ _ hsink => by simp at hsink, fun _ hsink => by simp at hsink,
              fun err herr => by cases herr⟩
        | durable =>
          refine hrest [⟨.record r, .error text⟩] (.error _)
            ⟨rfl, rfl, rfl, (fun hok => by cases hok), (fun hok => by cases hok),
              fun err herr => ?_⟩
          cases herr
          refine ⟨rfl, fun hholds => ?_⟩
          have hok := hholds rfl (r, .error text) (List.mem_singleton_self _)
          cases hok

end Parts

/-! ## AS4 -/

namespace As4Sender

variable {δ : Type} {x : As4Sender δ} {h : List SendEvent}

/-- The result of a send says what has happened in the course `h`. -/
structure Truthful (x : As4Sender δ) (h : List SendEvent) (r : SendEnd) : Prop where
  delivered : ∀ result signer record, r = .delivered result signer record →
    ∃ sent response receipt s, (sent, .ok response) ∈ requests h ∧
      x.verified sent response = .ok (.receipt receipt, s) ∧
      result = ⟨receipt.refToMessageId, .as4⟩ ∧
      (s.path ≠ [] → (s.path, .ok ()) ∈ revocations h) ∧ Recorded x.audit h record
  notSent : ∀ e, r = .failed e → e.SaysNotSent → NotWritten h
  partner : ∀ e, r = .failed e → e.kind = .partnerError →
    ∃ sent response signal s, (sent, .ok response) ∈ requests h ∧
      x.verified sent response = .ok (.error signal, s) ∧
      ∃ err ∈ signal.errors, e.ebms = some err.errorCode ∧
        ∀ ref, err.refToMessageId = some ref → ref = sent.messageId

/-- An `eb:Error` that names no message, or this one. -/
def NamesNoOther (messageId : Str) (error : Node) : Prop :=
  ∀ ref, (readError error).refToMessageId = some ref → ref = messageId

/-- The first `eb:Error` of a document names no other message than this one, or a later one with
    the same code does not. -/
def FirstErrorOurs (doc : Document) (messageId : Str) : Prop :=
  ∃ first rest, errorElements doc = first :: rest ∧
    (NamesNoOther messageId first ∨ ∃ error ∈ rest.take (maxSignalErrors - 1),
      NamesNoOther messageId error ∧ (readError error).errorCode = (readError first).errorCode)

/-- The courses on which it does: no task fails after the request, and where the partner refuses
    the message, the first `eb:Error` of its response is not that of another message. -/
structure Sound (x : As4Sender δ) (h : List SendEvent) : Prop where
  tasks : ∀ stage ∈ failedTasks h, stage = "as4_send".toList
  partner : ∀ sent response doc, (sent, .ok response) ∈ requests h → response.body ≠ [] →
    (∃ signal s, x.verified sent response = .ok (.error signal, s)) →
    (∀ r ∈ revocations h, r.2 = .ok ()) → SinkHolds x.audit h →
    ResponseDocument x.context response.body (response.contentType.getD "application/soap+xml") doc →
    FirstErrorOurs doc sent.messageId

/-- No verdict on an answer is `CapacityExhausted`, so that kind cannot come from here. -/
theorem notCapacity_verified {sent : SentMessage} {response : SyncResponse} {err : AsxError}
    (h : x.verified sent response = .error err) : NotCapacity err :=
  verifySyncResponse_code x.context x.now sent response.body _ err h

/-- The document decides whether the code of the first error is that of an error of ours. -/
theorem firstErrorOurs_iff {doc : Document} {messageId : Str} {errors : List As4ReceivedError}
    (hne : errors ≠ []) (h : errors = ((errorElements doc).take maxSignalErrors).map readError) :
    FirstErrorOurs doc messageId ↔ ∃ first, errors.head? = some first ∧
      ∃ err ∈ errors, err.errorCode = first.errorCode ∧
        ∀ ref, err.refToMessageId = some ref → ref = messageId := by
  cases hdoc : errorElements doc with
  | nil =>
    rw [hdoc] at h
    exact absurd h hne
  | cons first rest =>
    have herrors : errors =
        readError first :: (rest.take (maxSignalErrors - 1)).map readError := by
      rw [h, hdoc]
      rfl
    rw [herrors]
    constructor
    · rintro ⟨first', rest', hcons, hours⟩
      rw [hdoc, List.cons.injEq] at hcons
      obtain ⟨rfl, rfl⟩ := hcons
      refine ⟨readError first, rfl, ?_⟩
      rcases hours with hfirst | ⟨error, hmem, hnames, hcode⟩
      · exact ⟨readError first, List.mem_cons_self, rfl, hfirst⟩
      · exact ⟨readError error, List.mem_cons_of_mem _ (List.mem_map_of_mem hmem), hcode, hnames⟩
    · rintro ⟨first', hfirst, err, hmem, hcode, hnames⟩
      rw [List.head?_cons, Option.some.injEq] at hfirst
      subst hfirst
      refine ⟨first, rest, hdoc, ?_⟩
      rcases List.mem_cons.mp hmem with rfl | hmem
      · exact .inl hnames
      · obtain ⟨error, herror, rfl⟩ := List.mem_map.mp hmem
        exact .inr ⟨error, herror, hnames, hcode⟩

/-- Where the result is neither a delivery nor says that nothing was sent nor names the partner,
    it is truthful. -/
theorem truthful_of_kind {e : PublicError} (hsent : ¬ e.SaysNotSent)
    (hpartner : e.kind ≠ .partnerError) : x.Truthful h (.failed e) := by
  refine ⟨(fun id signer record hr => by cases hr), fun e' he hbroken => ?_, fun e' he hkind => ?_⟩
  · cases he
    exact absurd hbroken hsent
  · cases he
    exact absurd hkind hpartner

theorem not_truthful_of_sent {e : PublicError} {sent : SentMessage} {response : SyncResponse}
    (hreq : (sent, .ok response) ∈ requests h) (hbroken : e.SaysNotSent) :
    ¬ x.Truthful h (.failed e) := by
  intro ht
  obtain ⟨err, herr⟩ := ht.notSent e rfl hbroken _ hreq
  cases herr

/-- A refusal before the request is truthful, whatever it says. -/
theorem truthful_iff_before (hreq : requests h = [])
    (htasks : ∀ stage ∈ failedTasks h, stage = "as4_send".toList) {e : PublicError}
    (hkind : e.kind ≠ .partnerError) : x.Truthful h (.failed e) ↔ x.Sound h := by
  refine iff_of_true ⟨(fun id signer record hr => by cases hr), fun e' he _ r hr => ?_,
    fun e' he hpartner => ?_⟩ ⟨htasks, fun sent response doc hmem => ?_⟩
  · rw [hreq] at hr
    cases hr
  · cases he
    exact absurd hpartner hkind
  · simp [hreq] at hmem

/-- A failure of the client is a transport error only where nothing was written. -/
theorem truthful_iff_failure {sent : SentMessage} {failure : HttpFailure}
    (hreq : requests h = [(sent, .error failure)]) (htasks : failedTasks h = []) :
    x.Truthful h (.failed (classify failure)) ↔ x.Sound h := by
  obtain ⟨hpartner, hbroken⟩ := kind_classify failure
  refine iff_of_true ⟨(fun _ _ _ hr => by cases hr), fun e he hsays r hr => ?_,
    fun e he hkind => ?_⟩ ⟨by simp [htasks], fun sent' response doc hmem => ?_⟩
  · cases he
    rw [hreq, List.mem_singleton] at hr
    subst hr
    obtain ⟨err, rfl⟩ := hbroken hsays
    exact ⟨err, rfl⟩
  · cases he
    exact absurd hkind hpartner
  · simp [hreq] at hmem

section Answered

variable {sent : SentMessage} {response : SyncResponse}

theorem mem_requests_iff (hreq : requests h = [(sent, .ok response)]) {sent' : SentMessage}
    {response' : SyncResponse} (hmem : (sent', .ok response') ∈ requests h) :
    sent' = sent ∧ response' = response := by
  rw [hreq, List.mem_singleton, Prod.mk.injEq, Except.ok.injEq] at hmem
  exact hmem

/-- After a response only a refusal that it carries can make a course unsound. -/
theorem sound_of_answered (hreq : requests h = [(sent, .ok response)]) (htasks : failedTasks h = [])
    (hpartner : ∀ signal s, x.verified sent response = .ok (.error signal, s) →
      (∀ r ∈ revocations h, r.2 = .ok ()) → SinkHolds x.audit h → ∀ doc,
      ResponseDocument x.context response.body
        (response.contentType.getD "application/soap+xml") doc →
      FirstErrorOurs doc sent.messageId) : x.Sound h where
  tasks := by simp [htasks]
  partner := by
    intro sent' response' doc hmem _ hrefused hrevocations hsink hdoc
    obtain ⟨rfl, rfl⟩ := mem_requests_iff hreq hmem
    obtain ⟨signal, s, hok⟩ := hrefused
    exact hpartner signal s hok hrevocations hsink doc hdoc

/-- What `exchange` takes for the result of the verification, before the record is written. -/
structure Judged (x : As4Sender δ) (h : List SendEvent) (sent : SentMessage)
    (response : SyncResponse) (result : Result As4SyncSignal) : Prop where
  ok : ∀ signal, result = .ok signal → ∃ s, x.verified sent response = .ok (signal, s) ∧
    (s.path ≠ [] → (s.path, .ok ()) ∈ revocations h) ∧ ∀ r ∈ revocations h, r.2 = .ok ()
  error : ∀ err, result = .error err → x.verified sent response = .error err ∨
    (err.code = .securityVerificationFailed ∧
      (∃ p, x.verified sent response = .ok p) ∧ ∃ r ∈ revocations h, r.2 ≠ .ok ())

/-- The end after an answer that is refused. -/
theorem conclude_error_iff {err : AsxError} {record : Option AuditRecord} {written : Result Unit}
    (hreq : requests h = [(sent, .ok response)]) (htasks : failedTasks h = [])
    (hj : x.Judged h sent response (.error err)) :
    x.Truthful h (x.conclude response (.error err) record written) ↔ x.Sound h := by
  have hcapacity : NotCapacity err := by
    rcases hj.error err rfl with hverified | ⟨hsecurity, -⟩
    · exact notCapacity_verified hverified
    · rw [NotCapacity, hsecurity]
      decide
  have hkind := kindOf_responseVerify hcapacity
  refine iff_of_true ?_ (sound_of_answered hreq htasks ?_)
  · simp only [conclude]
    split
    · exact truthful_of_kind (by simp [PublicError.SaysNotSent]) (by simp)
    · refine truthful_of_kind ?_ ?_
      · rcases hkind with hkind | hkind <;> simp [PublicError.SaysNotSent, hkind]
      · rcases hkind with hkind | hkind <;> simp [hkind]
  · intro signal s hsignal hrevocations
    rcases hj.error err rfl with hverified | ⟨-, -, r, hr, hrefused⟩
    · rw [hverified] at hsignal
      cases hsignal
    · exact absurd (hrevocations r hr) hrefused

/-- The end after a verified receipt, whether its record is written or not. -/
theorem conclude_receipt_iff {receipt : As4VerifiedReceipt} {record : Option AuditRecord}
    {written : Result Unit} (hreq : requests h = [(sent, .ok response)])
    (htasks : failedTasks h = []) (hj : x.Judged h sent response (.ok (.receipt receipt)))
    (hrecorded : written = .ok () → ∀ r, record = some r → Recorded x.audit h r) :
    x.Truthful h (x.conclude response (.ok (.receipt receipt)) record written) ↔ x.Sound h := by
  have hmem : (sent, .ok response) ∈ requests h := by simp [hreq]
  obtain ⟨s, hverified, hpath, -⟩ := hj.ok _ rfl
  refine iff_of_true ?_ (sound_of_answered hreq htasks ?_)
  · cases record with
    | none => exact ⟨(fun _ _ _ hr => by cases hr), (fun _ hr => by cases hr), fun _ hr => by cases hr⟩
    | some record =>
      cases written with
      | error err =>
        exact truthful_of_kind (by simp [PublicError.SaysNotSent, PublicError.deliveredButUnrecorded])
          (by simp [PublicError.deliveredButUnrecorded])
      | ok u =>
        simp only [conclude]
        split
        · exact truthful_of_kind (by simp [PublicError.SaysNotSent]) (by simp)
        · refine ⟨fun id signer record' hr => ?_, (fun _ hr => by cases hr), fun _ hr => by cases hr⟩
          cases hr
          exact ⟨sent, response, receipt, s, hmem, hverified, rfl, hpath, hrecorded rfl record rfl⟩
  · intro signal s' hsignal
    rw [hverified] at hsignal
    cases hsignal

theorem conclude_signal_iff {signal : As4ErrorSignal} {record : Option AuditRecord}
    {written : Result Unit} (hreq : requests h = [(sent, .ok response)])
    (htasks : failedTasks h = []) (hbody : response.body ≠ [])
    (hj : x.Judged h sent response (.ok (.error signal)))
    (hholds : written = .ok () → SinkHolds x.audit h)
    (hfailed : ∀ err, written = .error err →
      err.code = .storageBackendFailure ∧ ¬ SinkHolds x.audit h) :
    x.Truthful h (x.conclude response (.ok (.error signal)) record written) ↔ x.Sound h := by
  have hmem : (sent, .ok response) ∈ requests h := by simp [hreq]
  obtain ⟨s, hverified, -, hrevocations⟩ := hj.ok _ rfl
  obtain ⟨doc, hdoc, hne, herrors⟩ := verifySyncResponse_error hverified
  -- a response has one document
  have hunique : ∀ doc', ResponseDocument x.context response.body
      (response.contentType.getD "application/soap+xml") doc' → doc' = doc := by
    rintro doc' ⟨soap', hsoap', hparse'⟩
    obtain ⟨soap, hsoap, hparse⟩ := hdoc
    rw [hsoap, Except.ok.injEq] at hsoap'
    subst hsoap'
    rw [hparse, Except.ok.injEq] at hparse'
    exact hparse'.symm
  cases written with
  | error err =>
    obtain ⟨hcode, hsink⟩ := hfailed err rfl
    refine iff_of_true ?_ (sound_of_answered hreq htasks ?_)
    · have hkind : ((PublicError.internal err).withEvidence record).kind = .backend := by
        simp [PublicError.internal, hcode, PublicError.kindOf]
      exact truthful_of_kind (by simp only [PublicError.SaysNotSent, hkind]; simp) (by rw [hkind]; simp)
    · exact fun _ _ _ _ hholds' => absurd hholds' hsink
  | ok u =>
    constructor
    · intro ht
      refine sound_of_answered hreq htasks fun signal' s' hsignal _ _ doc' hdoc' => ?_
      obtain ⟨sent', response', signal'', s'', hmem', hverified', err, herr, hebms, href⟩ :=
        ht.partner _ rfl rfl
      obtain ⟨rfl, rfl⟩ := mem_requests_iff hreq hmem'
      rw [hverified] at hverified'
      cases hverified'
      rw [hunique doc' hdoc', firstErrorOurs_iff hne herrors]
      cases hfirst : signal.errors.head? with
      | none => exact absurd (List.head?_eq_none_iff.mp hfirst) hne
      | some first =>
        refine ⟨first, rfl, err, herr, ?_, href⟩
        simp only [PublicError.withEvidence, PublicError.retryableIf, PublicError.partnerEbms,
          hfirst, Option.map_some, Option.getD_some, Option.some.injEq] at hebms
        exact hebms.symm
    · intro hs
      obtain ⟨first, hfirst, err, herr, hcode, href⟩ := (firstErrorOurs_iff hne herrors).mp
        (hs.partner sent response doc hmem hbody ⟨signal, s, hverified⟩ hrevocations (hholds rfl)
          hdoc)
      refine ⟨(fun _ _ _ hr => by cases hr), fun e he hbroken => ?_, fun e he _ => ?_⟩
      · cases he
        rcases hbroken with hbroken | hbroken <;> cases hbroken
      · cases he
        refine ⟨sent, response, signal, s, hmem, hverified, err, herr, ?_, href⟩
        simp [PublicError.withEvidence, PublicError.retryableIf, PublicError.partnerEbms, hfirst,
          hcode]

/-- The record and the end of an exchange. -/
theorem meets_record {result : Result As4SyncSignal} {signerDer : Option Bytes}
    (hreq : requests h = [(sent, .ok response)]) (htasks : failedTasks h = [])
    (hrecords : records h = []) (hbody : response.body ≠ [])
    (hj : x.Judged h sent response result) :
    Meets (fun _ _ => True) (fun h r => x.Truthful h r ↔ x.Sound h) h
      (x.record sent response result signerDer) := by
  refine meets_spawnCrypto trivial (fun text => ?_) ?_
  · -- the task of the record fails: a configuration error, although the request was answered
    have hmem : (sent, .ok response) ∈
        requests (h ++ [⟨.task "as4_receipt_record".toList, .error text⟩]) := by
      rw [requests_append, hreq]
      exact List.mem_append_left _ (List.mem_singleton_self _)
    refine iff_of_false (not_truthful_of_sent hmem (.inl rfl)) fun hs => ?_
    have hstage := hs.tasks "as4_receipt_record".toList (by
      rw [failedTasks_append]
      exact List.mem_append_right _ (List.mem_singleton_self _))
    exact absurd hstage (by decide)
  · refine meets_writeRecord (fun _ => trivial) fun t written htells => ?_
    have hreq' : requests (h ++ [⟨.task "as4_receipt_record".toList, .ok ()⟩] ++ t) =
        [(sent, .ok response)] := by
      rw [requests_append, requests_append, hreq, htells.requests]
      rfl
    have htasks' : failedTasks (h ++ [⟨.task "as4_receipt_record".toList, .ok ()⟩] ++ t) = [] := by
      rw [failedTasks_append, failedTasks_append, htasks, htells.tasks]
      rfl
    have hrev : revocations (h ++ [⟨.task "as4_receipt_record".toList, .ok ()⟩] ++ t) =
        revocations h := by
      rw [revocations_append, revocations_append, htells.revocations]
      exact (List.append_nil _).trans (List.append_nil _)
    have hrec : records (h ++ [⟨.task "as4_receipt_record".toList, .ok ()⟩] ++ t) = records t := by
      rw [records_append, records_append, hrecords]
      rfl
    have hj' : x.Judged (h ++ [⟨.task "as4_receipt_record".toList, .ok ()⟩] ++ t) sent response
        result := by
      constructor
      · intro signal hsignal
        rw [hrev]
        exact hj.ok signal hsignal
      · intro err herr
        rw [hrev]
        exact hj.error err herr
    have hsink : SinkHolds x.audit (h ++ [⟨.task "as4_receipt_record".toList, .ok ()⟩] ++ t) ↔
        SinkHolds x.audit t := by
      rw [SinkHolds, SinkHolds, hrec]
    cases result with
    | error err => exact conclude_error_iff hreq' htasks' hj'
    | ok signal =>
      cases signal with
      | receipt receipt =>
        refine conclude_receipt_iff hreq' htasks' hj' fun hok r hr => ?_
        rw [Recorded, hrec]
        exact htells.recorded hok r hr
      | error signal =>
        refine conclude_signal_iff hreq' htasks' hbody hj' (fun hok => hsink.mpr (htells.holds hok))
          fun err herr => ?_
        rw [hsink]
        exact htells.failed err herr

theorem meets_answered (hreq : requests h = [(sent, .ok response)]) (htasks : failedTasks h = [])
    (hrevocations : revocations h = []) (hrecords : records h = []) :
    Meets (fun _ _ => True) (fun h r => x.Truthful h r ↔ x.Sound h) h
      (x.answered sent response) := by
  rw [answered]
  split
  -- an empty answer is indeterminate
  · rename_i hbody
    refine iff_of_true (truthful_of_kind (by simp [PublicError.SaysNotSent]) (by simp)) ?_
    refine ⟨by simp [htasks], fun sent' response' doc hmem hne => ?_⟩
    obtain ⟨rfl, rfl⟩ := mem_requests_iff hreq hmem
    exact absurd hbody hne
  · rename_i hbody
    refine meets_spawnCrypto trivial (fun text => ?_) ?_
    -- a task that fails after the request says that nothing was sent
    · have hmem : (sent, .ok response) ∈
          requests (h ++ [⟨.task "as4_receipt_verify".toList, .error text⟩]) := by
        rw [requests_append, hreq]
        exact List.mem_append_left _ (List.mem_singleton_self _)
      refine iff_of_false (not_truthful_of_sent hmem (.inl rfl)) fun hs => ?_
      have hstage := hs.tasks "as4_receipt_verify".toList (by
        rw [failedTasks_append]
        exact List.mem_append_right _ (List.mem_singleton_self _))
      exact absurd hstage (by decide)
    -- what follows the task sends nothing more
    · have hreq' (t : List SendEvent) (ht : requests t = []) : requests (h ++
          [⟨.task "as4_receipt_verify".toList, .ok ()⟩] ++ t) = [(sent, .ok response)] := by
        rw [requests_append, requests_append, hreq, ht]
        rfl
      have htasks' (t : List SendEvent) (ht : failedTasks t = []) : failedTasks (h ++
          [⟨.task "as4_receipt_verify".toList, .ok ()⟩] ++ t) = [] := by
        rw [failedTasks_append, failedTasks_append, htasks, ht]
        rfl
      have hrecords' (t : List SendEvent) (ht : records t = []) : records (h ++
          [⟨.task "as4_receipt_verify".toList, .ok ()⟩] ++ t) = [] := by
        rw [records_append, records_append, hrecords, ht]
        rfl
      have hrev (t : List SendEvent) : revocations (h ++
          [⟨.task "as4_receipt_verify".toList, .ok ()⟩] ++ t) = revocations t := by
        rw [revocations_append, revocations_append, hrevocations]
        rfl
      cases hverified : x.verified sent response with
      | error err =>
        have hj : x.Judged (h ++ [⟨.task "as4_receipt_verify".toList, .ok ()⟩]) sent response
            (.error err) := by
          refine ⟨(fun signal hsignal => by cases hsignal), fun err' herr' => ?_⟩
          cases herr'
          exact .inl hverified
        exact meets_record (by simpa using hreq' [] rfl) (by simpa using htasks' [] rfl)
          (by simpa using hrecords' [] rfl) hbody hj
      | ok p =>
        obtain ⟨signal, signer⟩ := p
        -- the signer is checked for revocation, unless it has no path
        refine meets_checkRevocation trivial (fun hpath => ?_) fun hpath answer => ?_
        · refine meets_record (by simpa using hreq' [] rfl) (by simpa using htasks' [] rfl)
            (by simpa using hrecords' [] rfl) hbody ⟨fun signal' hsignal => ?_,
              fun err herr => by cases herr⟩
          cases hsignal
          refine ⟨signer, hverified, fun hne => absurd hpath hne, fun r hr => ?_⟩
          have hnil := hrev []
          rw [List.append_nil] at hnil
          rw [hnil] at hr
          cases hr
        · cases answer with
          | ok u =>
            refine meets_record (hreq' _ rfl) (htasks' _ rfl) (hrecords' _ rfl) hbody
              ⟨fun signal' hsignal => ?_, fun err herr => by cases herr⟩
            cases hsignal
            rw [hrev]
            refine ⟨signer, hverified, fun _ => List.mem_singleton_self _, fun r hr => ?_⟩
            rw [List.mem_singleton.mp hr]
          | error text =>
            refine meets_record (hreq' _ rfl) (htasks' _ rfl) (hrecords' _ rfl) hbody
              ⟨(fun signal' hsignal => by cases hsignal), fun err herr => ?_⟩
            cases herr
            rw [hrev]
            refine .inr ⟨rfl, ⟨_, hverified⟩, (signer.path, .error text),
              List.mem_singleton_self _, fun hok => by cases hok⟩

end Answered

theorem meets_transmit {draft : δ} {raw : Option Bytes} (hreq : requests h = [])
    (htasks : failedTasks h = []) (hrevocations : revocations h = [])
    (hrecords : records h = []) :
    Meets (fun _ _ => True) (fun h r => x.Truthful h r ↔ x.Sound h) h
      (x.transmit draft raw) := by
  have hbefore : ∀ stage ∈ failedTasks h, stage = "as4_send".toList := by simp [htasks]
  rw [transmit]
  split
  · exact truthful_iff_before hreq hbefore (kind_toError _)
  · rename_i sent hsent
    split
    · exact truthful_iff_before hreq hbefore (kind_toError _)
    · refine ⟨trivial, fun answer => ?_⟩
      have hreq' : requests (h ++ [⟨.http sent, answer⟩]) = [(sent, answer)] := by
        rw [requests_append, hreq]
        rfl
      have htasks' : failedTasks (h ++ [⟨.http sent, answer⟩]) = [] := by
        rw [failedTasks_append, htasks]
        rfl
      cases answer with
      | ok response =>
        refine meets_answered hreq' htasks' ?_ ?_
        · rw [revocations_append, hrevocations]
          rfl
        · rw [records_append, hrecords]
          rfl
      | error failure => exact truthful_iff_failure hreq' htasks'

/-- No course but those of `Sound` has an untruthful result, and each of them has. -/
theorem as4_truthful_iff (x : As4Sender δ) (h : List SendEvent) (r : SendEnd)
    (hpath : Path x.send h (.ret r)) : x.Truthful h r ↔ x.Sound h := by
  have hmeets : Meets (fun _ _ => True) (fun h r => x.Truthful h r ↔ x.Sound h) [] x.send := by
    rw [send]
    split
    · exact truthful_iff_before rfl (by simp [failedTasks]) (kind_toError _)
    · refine meets_spawnCrypto trivial (fun text => ?_) ?_
      · refine truthful_iff_before rfl (fun stage hstage => ?_) (kind_toError (.internal _))
        exact List.mem_singleton.mp hstage
      · split
        · exact truthful_iff_before rfl (by simp [failedTasks]) (kind_toError _)
        · split
          · exact meets_transmit rfl rfl rfl rfl
          · refine ⟨trivial, fun answer => ?_⟩
            cases answer with
            | error text => exact truthful_iff_before rfl (by simp [failedTasks]) (kind_toError _)
            | ok signature => exact meets_transmit rfl rfl rfl rfl
  exact hmeets.path hpath

end As4Sender

/-! ## AS2 -/

namespace As2Sender

variable {x : As2Sender} {h : List SendEvent}

/-- The result of a send says what has happened in the course `h`. -/
structure Truthful (x : As2Sender) (h : List SendEvent) (r : SendEnd) : Prop where
  delivered : ∀ receipt signer record, r = .delivered receipt signer record →
    ∃ entity mic sent response disposition warning, x.entity = .ok (entity, mic) ∧
      (sent, .ok response) ∈ requests h ∧
      (x.checked mic response).verdict = .delivered disposition warning ∧
      receipt = ⟨x.messageId, .mdn disposition warning⟩ ∧
      ((x.checked mic response).signerPath ≠ [] →
        ((x.checked mic response).signerPath, .ok ()) ∈ revocations h) ∧
      Recorded x.audit h record
  notSent : ∀ e, r = .failed e → e.SaysNotSent → NotWritten h

/-- The courses on which it does: no task fails after the request. -/
structure Sound (h : List SendEvent) : Prop where
  tasks : ∀ stage ∈ failedTasks h, stage = "as2_send".toList

theorem truthful_of_kind {e : PublicError} (hsent : ¬ e.SaysNotSent) :
    x.Truthful h (.failed e) := by
  refine ⟨(fun id signer record hr => by cases hr), fun e' he hbroken => ?_⟩
  cases he
  exact absurd hbroken hsent

theorem not_truthful_of_sent {e : PublicError} {sent : SentMessage} {response : SyncResponse}
    (hreq : (sent, .ok response) ∈ requests h) (hbroken : e.SaysNotSent) :
    ¬ x.Truthful h (.failed e) := by
  intro ht
  obtain ⟨err, herr⟩ := ht.notSent e rfl hbroken _ hreq
  cases herr

theorem truthful_iff_before (hreq : requests h = [])
    (htasks : ∀ stage ∈ failedTasks h, stage = "as2_send".toList) {e : PublicError} :
    x.Truthful h (.failed e) ↔ Sound h := by
  refine iff_of_true ⟨(fun id signer record hr => by cases hr), fun e' he _ r hr => ?_⟩ ⟨htasks⟩
  rw [hreq] at hr
  cases hr

theorem truthful_iff_failure {sent : SentMessage} {failure : HttpFailure}
    (hreq : requests h = [(sent, .error failure)]) (htasks : failedTasks h = []) :
    x.Truthful h (.failed (classify failure)) ↔ Sound h := by
  obtain ⟨-, hbroken⟩ := kind_classify failure
  refine iff_of_true ⟨(fun _ _ _ hr => by cases hr), fun e he hsays r hr => ?_⟩
    ⟨by simp [htasks]⟩
  cases he
  rw [hreq, List.mem_singleton] at hr
  subst hr
  obtain ⟨err, rfl⟩ := hbroken hsays
  exact ⟨err, rfl⟩

section Answered

variable {entity : Bytes} {mic : Str} {sent : SentMessage} {response : SyncResponse}

/-- The end of the check, for a verdict that is the one of the MDN or, where its signer is
    refused, indeterminate. -/
theorem conclude_iff {checked : CheckedMdn} {record : Option AuditRecord} {written : Result Unit}
    (hentity : x.entity = .ok (entity, mic)) (hreq : requests h = [(sent, .ok response)])
    (htasks : failedTasks h = [])
    (hverdict : checked.verdict = (x.checked mic response).verdict ∧
        ((x.checked mic response).signerPath ≠ [] →
          (∃ err, checked.verdict = .indeterminate err) ∨
          ((x.checked mic response).signerPath, .ok ()) ∈ revocations h) ∨
      (∃ err, checked.verdict = .indeterminate err ∧ err.code = .securityVerificationFailed) ∧
        ∀ err, (x.checked mic response).verdict ≠ .indeterminate err)
    (hrecorded : written = .ok () → ∀ r, record = some r → Recorded x.audit h r)
    (hfailed : ∀ err, written = .error err → err.code = .storageBackendFailure) :
    x.Truthful h (x.conclude response checked record written) ↔ Sound h := by
  have hmem : (sent, .ok response) ∈ requests h := by simp [hreq]
  have hsound : Sound h := ⟨by simp [htasks]⟩
  cases hv : checked.verdict with
  | delivered disposition warning =>
    -- the revocation check only takes a delivery back, it makes none
    have hown : (x.checked mic response).verdict = .delivered disposition warning ∧
        ((x.checked mic response).signerPath ≠ [] →
          ((x.checked mic response).signerPath, .ok ()) ∈ revocations h) := by
      rcases hverdict with ⟨heq, hpath⟩ | ⟨⟨err, herr, -⟩, -⟩
      · refine ⟨by rw [← heq, hv], fun hne => ?_⟩
        rcases hpath hne with ⟨err, herr⟩ | hpassed
        · rw [hv] at herr
          cases herr
        · exact hpassed
      · rw [hv] at herr
        cases herr
    refine iff_of_true ?_ hsound
    simp only [conclude, hv]
    cases record with
    | none => exact truthful_of_kind (by simp [PublicError.SaysNotSent])
    | some record =>
      cases written with
      | error err =>
        exact truthful_of_kind
          (by simp [PublicError.SaysNotSent, PublicError.deliveredButUnrecorded])
      | ok u =>
        dsimp only
        split
        · exact truthful_of_kind (by simp [PublicError.SaysNotSent])
        · refine ⟨fun receipt signer record' hr => ?_, fun _ hr => by cases hr⟩
          cases hr
          exact ⟨entity, mic, sent, response, disposition, warning, hentity, hmem, hown.1,
            rfl, hown.2, hrecorded rfl record rfl⟩
  | refused disposition =>
    refine iff_of_true ?_ hsound
    simp only [conclude, hv]
    cases written with
    | error err =>
      have hcode := hfailed err rfl
      exact truthful_of_kind
        (by simp [PublicError.SaysNotSent, PublicError.internal, hcode, PublicError.kindOf])
    | ok u =>
      exact truthful_of_kind (by simp [PublicError.SaysNotSent, PublicError.partnerMdn])
  | indeterminate err =>
    have hcapacity : NotCapacity err := by
      rcases hverdict with ⟨heq, -⟩ | ⟨⟨err', herr', hsecurity⟩, -⟩
      · exact checkMdn_code (heq.symm.trans hv)
      · rw [hv] at herr'
        cases herr'
        rw [NotCapacity, hsecurity]
        decide
    refine iff_of_true ?_ hsound
    simp only [conclude, hv]
    split
    · exact truthful_of_kind (by simp [PublicError.SaysNotSent])
    · refine truthful_of_kind ?_
      rcases kindOf_responseVerify hcapacity with hkind | hkind <;>
        simp [PublicError.SaysNotSent, hkind]

/-- The record and the end of an exchange. -/
theorem meets_record {checked : CheckedMdn} (hentity : x.entity = .ok (entity, mic))
    (hreq : requests h = [(sent, .ok response)]) (htasks : failedTasks h = [])
    (hrecords : records h = [])
    (hverdict : checked.verdict = (x.checked mic response).verdict ∧
        ((x.checked mic response).signerPath ≠ [] →
          (∃ err, checked.verdict = .indeterminate err) ∨
          ((x.checked mic response).signerPath, .ok ()) ∈ revocations h) ∨
      (∃ err, checked.verdict = .indeterminate err ∧ err.code = .securityVerificationFailed) ∧
        ∀ err, (x.checked mic response).verdict ≠ .indeterminate err) :
    Meets (fun _ _ => True) (fun h r => x.Truthful h r ↔ Sound h) h
      (x.record response checked) := by
  rw [record]
  refine meets_writeRecord (fun _ => trivial) fun t written htells => ?_
  have hreq' : requests (h ++ t) = [(sent, .ok response)] := by
    rw [requests_append, hreq, htells.requests]
    rfl
  have htasks' : failedTasks (h ++ t) = [] := by
    rw [failedTasks_append, htasks, htells.tasks]
    rfl
  have hrev : revocations (h ++ t) = revocations h := by
    rw [revocations_append, htells.revocations, List.append_nil]
  refine conclude_iff hentity hreq' htasks' (by rw [hrev]; exact hverdict)
    (fun hok r hr hsink => ?_) fun err herr => (htells.failed err herr).1
  rw [records_append, hrecords]
  exact htells.recorded hok r hr hsink

theorem meets_answered (hentity : x.entity = .ok (entity, mic))
    (hreq : requests h = [(sent, .ok response)]) (htasks : failedTasks h = [])
    (hrecords : records h = []) :
    Meets (fun _ _ => True) (fun h r => x.Truthful h r ↔ Sound h) h
      (x.answered mic response) := by
  rw [answered]
  split
  · exact iff_of_true (truthful_of_kind (by simp [PublicError.SaysNotSent]))
      ⟨by simp [htasks]⟩
  · refine meets_spawnCrypto trivial (fun text => ?_) ?_
    · have hmem : (sent, .ok response) ∈
          requests (h ++ [⟨.task "as2_mdn_verify".toList, .error text⟩]) := by
        rw [requests_append, hreq]
        exact List.mem_append_left _ (List.mem_singleton_self _)
      refine iff_of_false (not_truthful_of_sent hmem (.inl rfl)) fun hs => ?_
      have hstage := hs.tasks "as2_mdn_verify".toList (by
        rw [failedTasks_append]
        exact List.mem_append_right _ (List.mem_singleton_self _))
      exact absurd hstage (by decide)
    · have hreq' (t : List SendEvent) (ht : requests t = []) : requests (h ++
          [⟨.task "as2_mdn_verify".toList, .ok ()⟩] ++ t) = [(sent, .ok response)] := by
        rw [requests_append, requests_append, hreq, ht]
        rfl
      have htasks' (t : List SendEvent) (ht : failedTasks t = []) : failedTasks (h ++
          [⟨.task "as2_mdn_verify".toList, .ok ()⟩] ++ t) = [] := by
        rw [failedTasks_append, failedTasks_append, htasks, ht]
        rfl
      have hrecords' (t : List SendEvent) (ht : records t = []) : records (h ++
          [⟨.task "as2_mdn_verify".toList, .ok ()⟩] ++ t) = [] := by
        rw [records_append, records_append, hrecords, ht]
        rfl
      refine meets_checkRevocation trivial (fun hpath => ?_) fun hpath answer => ?_
      · -- nothing to check: the verdict is indeterminate already, or the MDN has no signer
        refine meets_record hentity (by simpa using hreq' [] rfl) (by simpa using htasks' [] rfl)
          (by simpa using hrecords' [] rfl) (.inl ⟨rfl, fun hne => .inl ?_⟩)
        rw [revocationPath] at hpath
        split at hpath
        · rename_i err herr
          exact ⟨err, herr⟩
        · exact absurd hpath hne
      · have hsigner : revocationPath (x.checked mic response) =
            (x.checked mic response).signerPath ∧
            ∀ err, (x.checked mic response).verdict ≠ .indeterminate err := by
          rw [revocationPath] at hpath ⊢
          split at hpath
          · exact absurd rfl hpath
          · rename_i hne
            exact ⟨rfl, hne⟩
        cases answer with
        | ok u =>
          refine meets_record hentity (hreq' _ rfl) (htasks' _ rfl) (hrecords' _ rfl)
            (.inl ⟨rfl, fun _ => .inr ?_⟩)
          rw [← hsigner.1, revocations_append]
          exact List.mem_append_right _ (List.mem_singleton_self _)
        | error text =>
          exact meets_record hentity (hreq' _ rfl) (htasks' _ rfl) (hrecords' _ rfl)
            (.inr ⟨⟨_, rfl, rfl⟩, hsigner.2⟩)

end Answered

theorem meets_transmit {entity body : Bytes} {mic contentType : Str}
    (hentity : x.entity = .ok (entity, mic)) (hreq : requests h = [])
    (htasks : failedTasks h = []) (hrecords : records h = []) :
    Meets (fun _ _ => True) (fun h r => x.Truthful h r ↔ Sound h) h
      (x.transmit mic body contentType) := by
  rw [transmit]
  split
  · exact truthful_iff_before hreq (by simp [htasks])
  · refine ⟨trivial, fun answer => ?_⟩
    have hreq' : requests (h ++ [⟨.http ⟨x.messageId, body, contentType⟩, answer⟩]) =
        [(⟨x.messageId, body, contentType⟩, answer)] := by
      rw [requests_append, hreq]
      rfl
    have htasks' : failedTasks (h ++ [⟨.http ⟨x.messageId, body, contentType⟩, answer⟩]) = [] := by
      rw [failedTasks_append, htasks]
      rfl
    cases answer with
    | ok response =>
      refine meets_answered hentity hreq' htasks' ?_
      rw [records_append, hrecords]
      rfl
    | error failure => exact truthful_iff_failure hreq' htasks'

/-- A run of the AS2 sender ends truthfully iff its calls were sound. -/
theorem as2_truthful_iff (x : As2Sender) (h : List SendEvent) (r : SendEnd)
    (hpath : Path x.send h (.ret r)) : x.Truthful h r ↔ Sound h := by
  have hmeets : Meets (fun _ _ => True) (fun h r => x.Truthful h r ↔ Sound h) [] x.send := by
    rw [send]
    split
    · exact truthful_iff_before rfl (by simp [failedTasks])
    · refine meets_spawnCrypto trivial (fun text => ?_) ?_
      · refine truthful_iff_before rfl fun stage hstage => ?_
        exact List.mem_singleton.mp hstage
      · split
        · exact truthful_iff_before rfl (by simp [failedTasks])
        · rename_i entity mic hentity
          refine ⟨trivial, fun answer => ?_⟩
          dsimp only
          split
          · exact truthful_iff_before rfl (by simp [failedTasks])
          · refine meets_spawnCrypto trivial (fun text => ?_) ?_
            · refine truthful_iff_before rfl fun stage hstage => ?_
              exact List.mem_singleton.mp hstage
            · split
              · exact truthful_iff_before rfl (by simp [failedTasks])
              · exact meets_transmit hentity rfl rfl rfl
  exact hmeets.path hpath

end As2Sender

/-! ## Both protocols -/

/-- For every sender and every course of the exchange, the result of `send` is truthful if and
    only if the course is sound. -/
theorem send_outcomes_truthful_iff {δ : Type} (x : As4Sender δ) (y : As2Sender)
    (h : List SendEvent) (r : SendEnd) :
    (Path x.send h (.ret r) → (x.Truthful h r ↔ x.Sound h)) ∧
      (Path y.send h (.ret r) → (y.Truthful h r ↔ As2Sender.Sound h)) :=
  ⟨As4Sender.as4_truthful_iff x h r, As2Sender.as2_truthful_iff y h r⟩

/-! ## Courses of one message -/

/-- A signal with an `eb:Error` for the message `m@a`, and one for another message. -/
def refusalDoc : Document where
  children := soapEnvelope [element (.lit "eb") (.lit "Messaging") []
    [element (.lit "eb") (.lit "SignalMessage") [] [
      element (.lit "eb") (.lit "Error")
        [([], .lit "errorCode", .lit "EBMS:0004"), ([], .lit "refToMessageId", .lit "m@a")] [],
      element (.lit "eb") (.lit "Error")
        [([], .lit "errorCode", .lit "EBMS:0011"), ([], .lit "refToMessageId", .lit "n@a")] []]]]
  ok := by decide +kernel

/-- The response with this signal. -/
def refusalResponse : SyncResponse where
  status := 200
  contentType := none
  body := Str.utf8 (
    Str.lit "<S:Envelope xmlns:S=\"http://www.w3.org/2003/05/soap-envelope\" xmlns:eb=\"" ++ Ns.ebms3 ++
    Str.lit "\" xmlns:wsse=\"" ++ Ns.wsse ++ Str.lit "\" xmlns:wsu=\"" ++ Ns.wsu ++
    Str.lit "\" xmlns:ds=\"" ++ Ns.ds ++ Str.lit "\"><S:Header><eb:Messaging><eb:SignalMessage>" ++
    Str.lit "<eb:Error errorCode=\"EBMS:0004\" refToMessageId=\"m@a\"></eb:Error>" ++
    Str.lit "<eb:Error errorCode=\"EBMS:0011\" refToMessageId=\"n@a\"></eb:Error>" ++
    Str.lit "</eb:SignalMessage></eb:Messaging></S:Header><S:Body wsu:Id=\"b\"></S:Body></S:Envelope>")

/-- The message `m@a` as it is sent. -/
def plainSent : SentMessage := ⟨.lit "m@a", [60], .lit "application/soap+xml"⟩

/-- An AS4 sender without a sink whose request is built without a signature. -/
def plainAs4Sender : As4Sender Unit where
  session := ⟨.lit "s", .lit "p", true⟩
  prepared := .ok ()
  draft := .ok ()
  toSign _ := none
  finish _ _ := .ok plainSent
  request _ := .ok ()
  context := ⟨parserFor refusalDoc, signerPki fun data => data, ⟨.lit "s", .lit "p", true⟩,
    ⟨true, true, true, none, none, 1000⟩, ⟨[], false⟩, [], []⟩
  now := 0
  recordOf _ _ _ _ := none
  audit := none
  sha256 data := data
  isCertificate _ := true

/-- The errors of `refusalResponse`. -/
def refusalSignal : As4ErrorSignal where
  messageId := none
  refToMessageId := none
  timestamp := none
  errors := [
    ⟨.lit "EBMS:0004", none, none, none, some (.lit "m@a"), none, none, none⟩,
    ⟨.lit "EBMS:0011", none, none, none, some (.lit "n@a"), none, none, none⟩]

theorem plainAs4Sender_verified :
    plainAs4Sender.verified plainSent refusalResponse = .ok (.error refusalSignal, {}) := by
  have h : (plainAs4Sender.verified plainSent refusalResponse).toOption =
      some (.error refusalSignal, {}) := by decide +kernel
  exact Except.toOption_eq_some.mp h

/-- The courses of two messages: an AS4 message that the partner refuses, and an AS2 message whose
    MDN is accepted. -/
theorem send_outcomes_truthful_iff_refused_delivered :
    (∃ h e, Path plainAs4Sender.send h (.ret (.failed e)) ∧ e.kind = .partnerError ∧
      e.ebms = some (Str.lit "EBMS:0004") ∧ plainAs4Sender.Truthful h (.failed e)) ∧
    ∃ h, Path (sampleSender (sampleClient [] plainField)).send h
        (.ret (.delivered sampleReceipt [1] sampleRecord)) ∧
      (sampleSender (sampleClient [] plainField)).Truthful h
        (.delivered sampleReceipt [1] sampleRecord) := by
  have houtcomes := send_outcomes_truthful_iff plainAs4Sender (sampleSender (sampleClient [] plainField))
  constructor
  · have hpath : Path plainAs4Sender.send
        [⟨.task "as4_send".toList, .ok ()⟩, ⟨.http plainSent, .ok refusalResponse⟩,
          ⟨.task "as4_receipt_verify".toList, .ok ()⟩, ⟨.task "as4_receipt_record".toList, .ok ()⟩]
        (.ret (plainAs4Sender.conclude refusalResponse (.ok (.error refusalSignal)) none (.ok ()))) := by
      refine .cons (.cons ?_)
      show Path (plainAs4Sender.answered plainSent refusalResponse) _ _
      rw [As4Sender.answered, if_neg (by decide +kernel), plainAs4Sender_verified]
      exact .cons (.cons .nil)
    refine ⟨_, _, hpath, rfl, rfl, ((houtcomes _ _).1 hpath).mpr ⟨by simp [failedTasks], ?_⟩⟩
    -- the first error is for the message that was sent
    rintro sent response doc hmem - - - - ⟨soap, -, hparse⟩
    obtain ⟨-, hdoc⟩ := parseXml_ok hparse
    have hsent : sent = plainSent := by simp [requests] at hmem; exact hmem.1
    cases hdoc
    subst hsent
    have herrors : refusalSignal.errors =
        ((errorElements refusalDoc).take maxSignalErrors).map readError := by decide +kernel
    refine (As4Sender.firstErrorOurs_iff (by decide) herrors).mpr
      ⟨_, rfl, _, List.mem_cons_self, rfl, fun ref href => ?_⟩
    cases href
    rfl
  · have hend := path_of_answered sampleSync_delivered.1
    have hpath : Path (sampleSender (sampleClient [] plainField)).send
        ([⟨.task "as2_send".toList, .ok ()⟩, ⟨.sign [], .error []⟩,
          ⟨.task "as2_send".toList, .ok ()⟩,
          ⟨.http ⟨Str.lit "m@s", [], []⟩, .ok ⟨200, none, sampleMdn [] plainField⟩⟩] ++
          ((sampleSync (sampleClient [] plainField) [] plainField).answered sampleAnswers).1)
        (.ret (.delivered sampleReceipt [1] sampleRecord)) :=
      .cons (.cons (.cons (.cons hend)))
    have htasks : failedTasks ((sampleSync (sampleClient [] plainField) [] plainField).answered
        sampleAnswers).1 = [] := by decide +kernel
    refine ⟨_, hpath, ((houtcomes _ _).2 hpath).mpr ⟨fun stage hstage => ?_⟩⟩
    rw [failedTasks_append, htasks] at hstage
    cases hstage

/-- The task that verifies the receipt panics: the partner has the message, and the result says
    that nothing was sent. -/
theorem panic_after_request_says_not_sent : ∃ (h : List SendEvent) (r : SendEnd),
    Path plainAs4Sender.send h (.ret r) ∧ ¬ plainAs4Sender.Truthful h r := by
  refine ⟨[⟨.task "as4_send".toList, .ok ()⟩, ⟨.http plainSent, .ok refusalResponse⟩,
    ⟨.task "as4_receipt_verify".toList, .error "panic".toList⟩],
    .failed (.internal ⟨.transportFailure, "blocking task failed: " ++ "panic".toList,
      .forSession "as4_receipt_verify" plainAs4Sender.session⟩), ?_, ?_⟩
  · refine .cons (.cons ?_)
    show Path (plainAs4Sender.answered plainSent refusalResponse) _ _
    rw [As4Sender.answered, if_neg (by decide +kernel)]
    exact .cons .nil
  · exact As4Sender.not_truthful_of_sent (List.mem_singleton_self _) (.inl rfl)

end Asx
