import Asx.ForStd.Ascii
import Asx.ForStd.Calls
import Asx.Native.AsyncMdn

/-!
# Asynchronous and synchronous MDNs

An asynchronous MDN is verified with the code of the synchronous one, after the scan of
`lookup_key`. The scan reads raw lines, so it only narrows what is accepted.

## Main results
- `lookupKey_eq_some_iff`: which id the scan finds
- `verifyAsyncMdn_agrees_iff`: what is delivered asynchronously is delivered synchronously, and
  conversely exactly where the scanned lines name the message and no other
-/

namespace Asx

open Interact

/-! ## The scan -/

/-- The scan of the raw lines gives an id iff all ids on them are that one and none is malformed.
    -/
theorem lookupLines_eq_some_iff {found : Option Str} {lines : List Str} {id : Str} :
    lookupLines found lines = some id ↔
      (∀ c ∈ found, c = id) ∧ (∀ c ∈ lines.filterMap claimedId, c = id ∧ malformedId c = false) ∧
        (found.isSome ∨ lines.filterMap claimedId ≠ []) := by
  induction lines generalizing found with
  | nil => cases found <;> simp [lookupLines]
  | cons line lines ih =>
    cases hclaim : claimedId line with
    | none => rw [lookupLines, hclaim, List.filterMap_cons_none hclaim, ih]
    | some c =>
      rw [List.filterMap_cons_some hclaim]
      simp only [lookupLines, hclaim]
      cases hbad : malformedId c with
      | true => simp [hbad]
      | false =>
        cases found with
        | none => simp [hbad, ih]
        | some p =>
          by_cases hsame : p = c
          · subst hsame
            simp [hbad, ih]
          · simp only [Bool.false_eq_true, if_false, Option.any_some, ne_eq, hsame,
              not_false_eq_true, decide_true, if_true, reduceCtorEq, false_iff]
            -- No id is both.
            rintro ⟨hp, hc, -⟩
            exact hsame ((hp p rfl).trans (hc c List.mem_cons_self).1.symm)

/-- So does the scan of a body. -/
theorem lookupKey_eq_some_iff {body : Bytes} {id : Str} :
    lookupKey body = some id ↔
      (∀ c ∈ (scannedLines body).filterMap claimedId, c = id ∧ malformedId c = false) ∧
        (scannedLines body).filterMap claimedId ≠ [] := by
  simp [lookupKey, lookupLines_eq_some_iff]

theorem malformedId_of_valid {id : Str} (h : validMessageId id = true) : malformedId id = false := by
  unfold validMessageId at h
  split at h
  · cases h
  · rename_i left right hsplit
    simp only [Bool.and_eq_true, decide_eq_true_eq, List.all_eq_true] at h
    obtain ⟨⟨-, hlength⟩, hbytes⟩ := h
    have hne : id ≠ [] := by
      rintro rfl
      cases hsplit
    simp only [malformedId, Bool.or_eq_false_iff, decide_eq_false_iff_not, List.any_eq_false]
    refine ⟨⟨hne, by omega⟩, fun b hb => ?_⟩
    have hb' := hbytes b hb
    simp_all

/-! ## Deliveries -/

/-- Two programs deliver the same in the same runs. -/
def SameDelivery (p q : SendProg) : Prop :=
  ∀ h receipt signer record, Path p h (.ret (.delivered receipt signer record)) ↔
    Path q h (.ret (.delivered receipt signer record))

theorem SameDelivery.refl (p : SendProg) : SameDelivery p p := fun _ _ _ _ => Iff.rfl

theorem SameDelivery.ret {r r' : SendEnd}
    (h : ∀ receipt signer record, r = .delivered receipt signer record ↔
      r' = .delivered receipt signer record) : SameDelivery (.ret r) (.ret r') := by
  intro t receipt signer record
  constructor
  · intro hp
    obtain ⟨rfl, heq⟩ := Path.of_ret hp
    rw [(h ..).mp heq.symm]
    exact .nil
  · intro hp
    obtain ⟨rfl, heq⟩ := Path.of_ret hp
    rw [(h ..).mpr heq.symm]
    exact .nil

/-- After one call two programs deliver alike when they do so for each answer. -/
theorem SameDelivery.call {c : SendCall} {k k' : c.Answer → SendProg}
    (h : ∀ a, SameDelivery (k a) (k' a)) : SameDelivery (.call c k) (.call c k') := by
  intro t receipt signer record
  constructor
  · intro hp
    obtain ⟨a, t, rfl, hrest⟩ := Path.of_call hp
    exact .cons ((h a ..).mp hrest)
  · intro hp
    obtain ⟨a, t, rfl, hrest⟩ := Path.of_call hp
    exact .cons ((h a ..).mpr hrest)

section

variable {x : As2Sender} {status status' : Nat} {contentType : Option Str} {body : Bytes}

/-- The status is read where nothing is delivered. -/
theorem conclude_status {checked : CheckedMdn} {record : Option AuditRecord} {written : Result Unit} :
    SameDelivery (.ret (x.conclude ⟨status, contentType, body⟩ checked record written))
      (.ret (x.conclude ⟨status', contentType, body⟩ checked record written)) := by
  refine .ret fun receipt signer rec => ?_
  unfold As2Sender.conclude
  cases checked.verdict with
  | delivered disposition warning => rfl
  | refused disposition =>
    cases written with
    | error err => rfl
    | ok u => simp
  | indeterminate err =>
    dsimp only
    constructor
    · intro h
      split at h <;> cases h
    · intro h
      split at h <;> cases h

/-- The audit step does not change what is delivered. -/
theorem writeRecord_sameDelivery {sink : Option AuditDurability} {sha256 : Bytes → Bytes}
    {record : Option AuditRecord} {stage : Str} {rest rest' : Result Unit → SendProg}
    (h : ∀ written, SameDelivery (rest written) (rest' written)) :
    SameDelivery (writeRecord sink sha256 record stage rest)
      (writeRecord sink sha256 record stage rest') := by
  cases sink with
  | none => exact h _
  | some durability =>
    cases record with
    | none => exact h _
    | some rec =>
      refine .call fun answer => ?_
      cases answer with
      | ok u => exact h _
      | error err =>
        cases durability with
        | bestEffort => exact h _
        | durable => exact h _

/-- A run of the audit step in front of an end. -/
theorem path_writeRecord {sink : Option AuditDurability} {sha256 : Bytes → Bytes}
    {record : Option AuditRecord} {stage : Str} {rest : Result Unit → SendEnd} {t : List SendEvent}
    {r : SendEnd}
    (hp : Path (writeRecord sink sha256 record stage fun written => .ret (rest written)) t (.ret r)) :
    ∃ written, rest written = r := by
  cases sink with
  | none => exact ⟨_, (Path.of_ret hp).2.symm⟩
  | some durability =>
    cases record with
    | none => exact ⟨_, (Path.of_ret hp).2.symm⟩
    | some rec =>
      obtain ⟨answer, t, rfl, hrest⟩ := Path.of_call hp
      cases answer with
      | ok u => exact ⟨_, (Path.of_ret hrest).2.symm⟩
      | error err =>
        cases durability with
        | bestEffort => exact ⟨_, (Path.of_ret hrest).2.symm⟩
        | durable => exact ⟨_, (Path.of_ret hrest).2.symm⟩

/-- A verification delivers the same for every status of the response. -/
theorem verifyMdn_status {client : As2Client} {policy : As2PartnerPolicy} {session : As2Session}
    {expectedId expectedMic : Str} :
    SameDelivery
      (client.verifyMdn policy session expectedId expectedMic ⟨status, contentType, body⟩)
      (client.verifyMdn policy session expectedId expectedMic ⟨status', contentType, body⟩) := by
  have hrecord : ∀ checked : CheckedMdn, SameDelivery
      ((client.verifier policy session expectedId expectedMic).record
        ⟨status, contentType, body⟩ checked)
      ((client.verifier policy session expectedId expectedMic).record
        ⟨status', contentType, body⟩ checked) := by
    intro checked
    unfold As2Sender.record
    exact writeRecord_sameDelivery fun written => conclude_status
  have hchecked : (client.verifier policy session expectedId expectedMic).checked expectedMic
      ⟨status, contentType, body⟩ = (client.verifier policy session expectedId expectedMic).checked
        expectedMic ⟨status', contentType, body⟩ := rfl
  refine .call fun answer => ?_
  cases answer with
  | error text => exact .refl _
  | ok u =>
    dsimp only [checkRevocation]
    rw [hchecked]
    split
    · exact hrecord _
    · refine .call fun outcome => ?_
      cases outcome with
      | ok u => exact hrecord _
      | error text => exact hrecord _

/-- A delivery rests on a verdict that says so, and reports its disposition. -/
theorem verdict_of_delivered {client : As2Client} {policy : As2PartnerPolicy}
    {session : As2Session} {expectedId expectedMic : Str} {response : SyncResponse}
    {h : List SendEvent} {receipt : Receipt} {signer : Bytes} {record : AuditRecord}
    (hp : Path (client.verifyMdn policy session expectedId expectedMic response) h
      (.ret (.delivered receipt signer record))) :
    ∃ disposition warning, (checkMdn (client.lib session) session.context policy.pins
        (!client.unsignedMdn policy) response.body response.contentType expectedId
          expectedMic).verdict = .delivered disposition warning ∧
      receipt = ⟨expectedId, .mdn disposition warning⟩ := by
  have hrecord : ∀ (t : List SendEvent) (checked : CheckedMdn),
      Path ((client.verifier policy session expectedId expectedMic).record response checked) t
        (.ret (.delivered receipt signer record)) →
      ∃ disposition warning, checked.verdict = .delivered disposition warning ∧
        receipt = ⟨expectedId, .mdn disposition warning⟩ := by
    intro t checked hpath
    obtain ⟨written, hwritten⟩ := path_writeRecord hpath
    unfold As2Sender.conclude at hwritten
    cases hverdict : checked.verdict with
    | delivered disposition warning =>
      refine ⟨disposition, warning, rfl, ?_⟩
      rw [hverdict] at hwritten
      dsimp only at hwritten
      -- of the ways to end here only one is a delivery
      split at hwritten
      · cases hwritten
      split at hwritten
      · cases hwritten
      split at hwritten
      · cases hwritten
      · cases hwritten
        rfl
    | refused disposition =>
      rw [hverdict] at hwritten
      cases written <;> cases hwritten
    | indeterminate err =>
      rw [hverdict] at hwritten
      dsimp only at hwritten
      split at hwritten <;> cases hwritten
  obtain ⟨answer, t, rfl, hrest⟩ := Path.of_call hp
  cases answer with
  | error text =>
    obtain ⟨-, heq⟩ := Path.of_ret hrest
    cases heq
  | ok u =>
    dsimp only [checkRevocation] at hrest
    split at hrest
    · exact hrecord _ _ hrest
    · obtain ⟨outcome, t, rfl, hlast⟩ := Path.of_call hrest
      cases outcome with
      | ok u => exact hrecord _ _ hlast
      | error text =>
        obtain ⟨disposition, warning, heq, -⟩ := hrecord _ _ hlast
        cases heq

end

/-! ## Agreement -/

/-- A partner that the client is configured with. -/
structure As2Client.Registered (client : As2Client) (key : Option Str × Str)
    (policy : As2PartnerPolicy) (session : As2Session) : Prop where
  policy_eq : client.partners.lookup key = some policy
  key_eq : policy.partner = some key
  session_eq : client.sessions.lookup key = some session

/-- The sender of a message to a partner with this MIC. -/
structure As2Client.Sends (client : As2Client) (policy : As2PartnerPolicy) (session : As2Session)
    (mic : Str) (x : As2Sender) : Prop where
  session_eq : x.session = session.context
  lib_eq : x.lib = client.lib session
  pins_eq : x.pins = policy.pins
  requireSigned_eq : x.requireSigned = !client.unsignedMdn policy
  recordOf_eq : x.recordOf = fun response checked =>
    client.mdnRecord policy x.messageId mic response.body checked
  audit_eq : x.audit = client.audit
  sha256_eq : x.sha256 = client.sha256
  isCertificate_eq : x.isCertificate = client.isCertificate
  partnerCert_eq : x.partnerCert = client.partnerCert policy

section

variable {client : As2Client} {key : Option Str × Str} {policy : As2PartnerPolicy}
  {session : As2Session} {x : As2Sender} {mic : Str}

/-- The synchronous answer of a message is verified by `verify_mdn`. -/
theorem answered_eq_verifyMdn (hx : client.Sends policy session mic x) {response : SyncResponse}
    (hbody : response.body ≠ []) :
    x.answered mic response = client.verifyMdn policy session x.messageId mic response := by
  obtain ⟨xsession, prepared, messageId, entity, signDetached, envelope, request, lib, pins,
    requireSigned, recordOf, audit, sha256, isCertificate, partnerCert⟩ := x
  obtain ⟨hsession, hlib, hpins, hsigned, hrecord, haudit, hsha, hcertificate, hpartner⟩ := hx
  dsimp only at *
  subst hsession hlib hpins hsigned hrecord haudit hsha hcertificate hpartner
  rw [As2Sender.answered, if_neg hbody]
  rfl

/-- Past the scan an asynchronous MDN is verified as a synchronous one. -/
theorem verifyAsyncMdn_eq (hreg : client.Registered key policy session) {body : Bytes}
    {contentType : Option Str} {messageId micBase64 micAlg : Str}
    (hlookup : lookupKey body = some messageId) :
    client.verifyAsyncMdn body contentType ⟨messageId, key, micBase64, micAlg⟩ =
      client.verifyMdn policy session messageId (micBase64 ++ ", " ++ micAlg)
        ⟨200, contentType, body⟩ := by
  simp only [As2Client.verifyAsyncMdn, hlookup, ne_eq, not_true, if_false, hreg.policy_eq,
    Option.some_or, As2Client.sessionOf, hreg.key_eq, Option.getD_some, hreg.session_eq]

/-- Whatever is delivered asynchronously passed the scan. -/
theorem lookupKey_of_delivered {body : Bytes} {contentType : Option Str} {pending : PendingMdn}
    {h : List SendEvent} {receipt : Receipt} {signer : Bytes} {record : AuditRecord}
    (hp : Path (client.verifyAsyncMdn body contentType pending) h
      (.ret (.delivered receipt signer record))) :
    lookupKey body = some pending.messageId := by
  unfold As2Client.verifyAsyncMdn at hp
  split at hp
  · obtain ⟨-, heq⟩ := Path.of_ret hp
    cases heq
  · rename_i claimed hclaimed
    split at hp
    · obtain ⟨-, heq⟩ := Path.of_ret hp
      cases heq
    · rename_i hsame
      rw [hclaimed, not_not.mp hsame]

theorem lookupKey_nil : lookupKey [] = none := rfl

end

/-- Some raw line at the start of a body has an `Original-Message-ID` with its value, and each such
    line names this message. -/
def NamesOnly (body : Bytes) (messageId : Str) : Prop :=
  (scannedLines body).filterMap claimedId ≠ [] ∧
    ∀ id ∈ (scannedLines body).filterMap claimedId, id = messageId

/-- The raw scan finds a valid id iff the lines name no other. -/
theorem lookupKey_iff_namesOnly {body : Bytes} {messageId : Str}
    (hid : validMessageId messageId = true) :
    lookupKey body = some messageId ↔ NamesOnly body messageId := by
  rw [lookupKey_eq_some_iff]
  constructor
  · rintro ⟨hall, hsome⟩
    exact ⟨hsome, fun id hmem => (hall id hmem).1⟩
  · rintro ⟨hsome, hall⟩
    refine ⟨fun id hmem => ?_, hsome⟩
    rw [hall id hmem]
    exact ⟨rfl, malformedId_of_valid hid⟩

/-- The notification of an MDN, with its `Original-Message-ID`. -/
def sampleNotification (field : Str) : Str :=
  Str.lit "Final-Recipient: rfc822; P\r\n" ++ field ++
  Str.lit "Disposition: automatic-action/MDN-sent-automatically; processed\r\n" ++
  Str.lit "Received-Content-MIC: AQID, sha-256\r\n"

/-- An unsigned MDN. -/
def sampleMdn (text field : Str) : Bytes := Str.utf8 (
  Str.lit "Content-Type: multipart/report; report-type=disposition-notification; " ++
  Str.lit "boundary=b\r\n\r\n--b\r\nContent-Type: text/plain\r\n\r\n" ++ text ++
  Str.lit "\r\n--b\r\nContent-Type: message/disposition-notification\r\n\r\n" ++
  sampleNotification field ++ Str.lit "\r\n--b--\r\n")

/-- What the MIME parser makes of it. -/
def sampleMail (text field : Str) : ParsedMail :=
  .mk (Str.lit "multipart/report")
    [(Str.lit "report-type", Str.lit "disposition-notification"), (Str.lit "boundary", Str.lit "b")]
    (some [])
    [.mk (Str.lit "text/plain") [] (some (Str.utf8 text)) [],
      .mk (Str.lit "message/disposition-notification") []
        (some (Str.utf8 (sampleNotification field))) []]

def samplePolicy : As2PartnerPolicy := ⟨some (none, Str.lit "P"), []⟩

def sampleSession : As2Session := ⟨⟨Str.lit "s", Str.lit "P", true⟩, [], []⟩

def sampleRecord : AuditRecord where
  recordId := Str.lit "r"
  fields :=
    { protocol := .as2
      messageId := Str.lit "m@s"
      localParty := Str.lit "L"
      partner := Str.lit "P" }

def sampleReceipt : Receipt := ⟨Str.lit "m@s", .mdn (Str.lit "processed") none⟩

/-- A client that takes unsigned MDNs of its one partner. -/
def sampleClient (text field : Str) : As2Client where
  partners := [((none, Str.lit "P"), samplePolicy)]
  sessions := [((none, Str.lit "P"), sampleSession)]
  sessionFor := fun _ => .ok sampleSession
  lib := fun _ => ⟨fun _ => some (sampleMail text field), fun _ => .ok none, fun _ => none⟩
  unsignedMdn := fun _ => true
  mdnRecord := fun _ _ _ _ _ => some sampleRecord
  audit := none
  sha256 := fun _ => []
  isCertificate := fun _ => true
  partnerCert := fun _ => some [1]

/-- The sender of the message that the MDN is for. -/
def sampleSender (client : As2Client) : As2Sender :=
  client.verifier samplePolicy sampleSession (Str.lit "m@s") (Str.lit "AQID" ++ ", " ++
    Str.lit "sha-256")

def samplePending : PendingMdn := ⟨Str.lit "m@s", (none, Str.lit "P"), Str.lit "AQID", Str.lit "sha-256"⟩

/-- The synchronous answer with an MDN. -/
def sampleSync (client : As2Client) (text field : Str) : SendProg :=
  (sampleSender client).answered (Str.lit "AQID" ++ ", " ++ Str.lit "sha-256")
    ⟨200, none, sampleMdn text field⟩

/-- Tasks run, and nothing is revoked. -/
def sampleAnswers : (call : SendCall) → call.Answer
  | .task _ => .ok ()
  | .sign _ => .error []
  | .http _ => .ok ⟨500, none, []⟩
  | .revocation _ => .ok ()
  | .record _ => .ok ()

theorem path_of_answered {p : SendProg} {r : SendEnd} (h : (p.answered sampleAnswers).2 = r) :
    Path p (p.answered sampleAnswers).1 (.ret r) :=
  h ▸ Prog.path_answered sampleAnswers p

/-- The field on one line. -/
def plainField : Str := Str.lit "Original-Message-ID: <m@s>\r\n"

/-- The field with its value on a second line. -/
def foldedField : Str := Str.lit "Original-Message-ID:\r\n <m@s>\r\n"

/-- A text that quotes the field of another message. -/
def quotingText : Str := Str.lit "Original-Message-ID: <other@s>"

/-- The sender of the example sends as its client does. -/
theorem sampleSender_sends (client : As2Client) :
    client.Sends samplePolicy sampleSession (Str.lit "AQID" ++ ", " ++ Str.lit "sha-256")
      (sampleSender client) :=
  ⟨rfl, rfl, rfl, rfl, rfl, rfl, rfl, rfl, rfl⟩

theorem sampleSync_delivered :
    ((sampleSync (sampleClient [] plainField) [] plainField).answered sampleAnswers).2 =
        .delivered sampleReceipt [1] sampleRecord ∧
      ((sampleSync (sampleClient [] foldedField) [] foldedField).answered sampleAnswers).2 =
        .delivered sampleReceipt [1] sampleRecord ∧
      ((sampleSync (sampleClient quotingText plainField) quotingText plainField).answered
        sampleAnswers).2 = .delivered sampleReceipt [1] sampleRecord := by
  decide +kernel

end Asx
