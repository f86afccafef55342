import Mathlib.Data.Set.Function
import Asx.ForStd.Ascii
import Asx.ForStd.Hex
import Asx.ForStd.Trim
import Asx.Spec.ReceiptScope
import Asx.Spec.SenderIdentity
import Asx.Xml.Nodes

/-!
# Dedup keys do not collide

The text that `dedup_key` digests joins the protocol, the type and the id of the sender and the
message id by NUL octets, without escaping. It is unambiguous for strings without NUL: those of a
parsed XML document and of AS2 headers have none. In any run of requests against one store a
message is then answered as a duplicate only after the same message was accepted.

## Main results
- `preimage_injective`: the digested text determines the message
- `nulFree_of_as4Verify`: no NUL comes out of a verified AS4 message
- `handle_claims`: what the handlers claim, and when they answer `Duplicate`
- `dedupKeys_do_not_collide`: what this says of runs
-/

namespace Asx

open Interact Xml

/-! ## What a key stands for -/

/-- What a dedup key is made of. -/
structure MessageIdentity where
  protocol : DedupProtocol
  senderType : Str
  senderId : Str
  messageId : Str
deriving DecidableEq, Repr

namespace MessageIdentity

/-- The parts in the order they are digested. -/
def parts (m : MessageIdentity) : List Str := [m.protocol.tag, m.senderType, m.senderId, m.messageId]

/-- The text that is digested. -/
def preimage (m : MessageIdentity) : Bytes :=
  Str.utf8 "asx-dedup-v1".toList ++ m.parts.flatMap fun part => 0 :: Str.utf8 part

/-- The dedup key. -/
def key (sha256 : Bytes → Bytes) (m : MessageIdentity) : Str :=
  dedupKey sha256 m.protocol m.senderType m.senderId m.messageId

/-- No string holds a NUL. -/
structure NulFree (m : MessageIdentity) : Prop where
  senderType : Char.ofNat 0 ∉ m.senderType
  senderId : Char.ofNat 0 ∉ m.senderId
  messageId : Char.ofNat 0 ∉ m.messageId

theorem key_eq (sha256 : Bytes → Bytes) (m : MessageIdentity) :
    m.key sha256 = hexLower (sha256 m.preimage) := rfl

end MessageIdentity

/-- The tags of the protocols differ. -/
theorem DedupProtocol.tag_injective {p q : DedupProtocol} (h : p.tag = q.tag) : p = q := by
  cases p <;> cases q <;> simp [DedupProtocol.tag] at h ⊢

/-- Only the character NUL is encoded with a zero octet. -/
theorem zero_notMem_utf8 {s : Str} (h : Char.ofNat 0 ∉ s) : 0 ∉ Str.utf8 s := by
  intro hzero
  -- a byte below 0x80 is a character of its own
  obtain ⟨c, hc, hvalue⟩ := Str.exists_of_mem_utf8 hzero (by decide)
  have hnul : c = Char.ofNat 0 := Char.toNat_inj.mp (hvalue.trans (by decide))
  exact h (hnul ▸ hc)

/-- So the parts of an identity without NUL are free of the separator. -/
theorem MessageIdentity.NulFree.parts {m : MessageIdentity} (h : m.NulFree) :
    ∀ part ∈ m.parts.map Str.utf8, 0 ∉ part := by
  have hall : ∀ part ∈ m.parts, Char.ofNat 0 ∉ part := by
    intro part hpart
    simp only [MessageIdentity.parts, List.mem_cons, List.not_mem_nil, or_false] at hpart
    rcases hpart with rfl | rfl | rfl | rfl
    · -- the tag of a protocol is one of two constants
      cases m.protocol <;> decide
    · exact h.senderType
    · exact h.senderId
    · exact h.messageId
  intro part hpart
  obtain ⟨text, htext, rfl⟩ := List.mem_map.mp hpart
  exact zero_notMem_utf8 (hall text htext)

/-- The digested text determines the message. -/
theorem preimage_injective {m m' : MessageIdentity} (hm : m.NulFree) (hm' : m'.NulFree)
    (h : m.preimage = m'.preimage) : m = m' := by
  have hjoined : (m.parts.map Str.utf8).flatMap (0 :: ·) =
      (m'.parts.map Str.utf8).flatMap (0 :: ·) := by
    rw [List.flatMap_map, List.flatMap_map]
    exact List.append_cancel_left h
  -- a part ends at the first NUL after it, so the parts can be told apart
  have hparts := List.flatMap_cons_inj_of_notMem hm.parts hm'.parts hjoined
  rw [List.map_inj_right fun _ _ heq => Str.utf8_injective heq] at hparts
  obtain ⟨p, t, s, id⟩ := m
  obtain ⟨p', t', s', id'⟩ := m'
  simp only [MessageIdentity.parts, List.cons.injEq, and_true] at hparts
  obtain ⟨htag, rfl, rfl, rfl⟩ := hparts
  rw [DedupProtocol.tag_injective htag]

/-- Keys are equal only of equal messages, where the digests of the two do not collide. -/
theorem MessageIdentity.eq_of_key_eq {sha256 : Bytes → Bytes} {m m' : MessageIdentity}
    (hm : m.NulFree) (hm' : m'.NulFree) {s : Set Bytes} (hinj : Set.InjOn sha256 s)
    (hmem : m.preimage ∈ s) (hmem' : m'.preimage ∈ s) (h : m.key sha256 = m'.key sha256) :
    m = m' := by
  rw [key_eq, key_eq] at h
  exact preimage_injective hm hm' (hinj hmem hmem' (hexLower_injective h))

/-! ## Strings of a parsed document -/

/-- NUL is no character of XML. -/
theorem nul_notMem_of_allChars {s : Str} (h : AllChars s) : Char.ofNat 0 ∉ s :=
  fun hnul => absurd (h _ hnul) (by decide)

theorem nul_notMem_trim {s : Str} (h : Char.ofNat 0 ∉ s) : Char.ofNat 0 ∉ Str.trim s :=
  fun hnul => h ((Str.infix_trim s).subset hnul)

/-- An element of a document, as it was read. -/
theorem exists_element_of_mem {doc : Document} {n : Node} (hn : n ∈ doc.descendants)
    (helement : n.isElement = true) :
    ∃ q ds as cs, n.tree = .element q ds as cs ∧ StartTagOk n.chain q ds as ∧
      WellFormedList n.chain cs := by
  have hhead := (Document.chainOk_of_mem hn).head
  obtain ⟨tree, up, path⟩ := n
  cases tree with
  | element q ds as cs =>
    rcases hhead with ⟨_, hroot⟩ | hwf
    · cases hroot
    · rw [WellFormed] at hwf
      exact ⟨q, ds, as, cs, rfl, hwf⟩
  | root | text | comment | pi => cases helement

/-- The text of an element of a document has no NUL. -/
theorem nul_notMem_text {doc : Document} {n : Node} (hn : n ∈ doc.descendants)
    (helement : n.isElement = true) {text : Str} (h : n.text? = some text) :
    Char.ofNat 0 ∉ text := by
  obtain ⟨q, ds, as, cs, htree, -, hcs⟩ := exists_element_of_mem hn helement
  rw [Node.text?, htree] at h
  -- the text of a node is its first child, if that is a text
  rcases cs with _ | ⟨_ | _ | s | _ | _, cs⟩
  all_goals simp only [Tree.text?, Option.some.injEq, reduceCtorEq] at h
  subst h
  rw [WellFormedList, WellFormed] at hcs
  exact nul_notMem_of_allChars hcs.1

/-- The value of an attribute of an element of a document has no NUL. -/
theorem nul_notMem_attribute {doc : Document} {n : Node} (hn : n ∈ doc.descendants)
    (helement : n.isElement = true) {loc value : Str} (h : n.attribute? loc = some value) :
    Char.ofNat 0 ∉ value := by
  obtain ⟨q, ds, as, cs, htree, htag, -⟩ := exists_element_of_mem hn helement
  rw [Node.attribute?, htree] at h
  obtain ⟨a, ha, rfl⟩ := Option.map_eq_some_iff.mp h
  exact nul_notMem_of_allChars (htag.attrs a (List.mem_of_find?_eq_some ha)).2.2.2

/-- The id of an accepted message is the text of an `eb:MessageId` of its user message. -/
theorem parseAs4UserMessageFromDoc_messageId {session : SessionContext} {doc : Document}
    {parsed : ParsedAs4UserMessage} (h : parseAs4UserMessageFromDoc session doc = .ok parsed) :
    ∃ messaging ∈ messagingNodes doc, ∃ userMessage,
      firstUserMessage? messaging = some userMessage ∧
      parsed.messageId ∈ descendantTexts userMessage Ns.ebms3 "MessageId" := by
  obtain ⟨messaging, hmessaging, state, userMessage, -, huser, hread⟩ :=
    parseAs4UserMessageFromDoc_ok h
  obtain ⟨state', hstate, hcheck⟩ := Except.bind_eq_ok.mp hread
  -- only the step that finds the id counts, and the check that there is one
  simp only [readUserMessage, Except.bind_eq_ok, Except.pure_eq_ok] at hstate
  obtain ⟨messageId, hmessageId, _, -, _, -, _, -, _, -, _, -, rfl⟩ := hstate
  simp only [checkUserMessageState, Except.bind_eq_ok, Except.okOr_eq_ok, Except.rejectIf_eq_ok,
    Except.pure_eq_ok] at hcheck
  obtain ⟨-, -, -, -, -, -, -, -, id, hid, -, -, -, -, -, -, -, -, -, -, -, -, -, -, rfl⟩ := hcheck
  simp only [atMostOne, Except.bind_eq_ok, Except.pure_eq_ok] at hmessageId
  obtain ⟨-, -, rfl⟩ := hmessageId
  exact ⟨messaging, hmessaging, userMessage, huser, List.mem_of_head? hid⟩

/-- The nodes below the user message of an accepted message. -/
theorem mem_descendants_of_userMessage {doc : Document} {messaging userMessage n : Node}
    (hmessaging : messaging ∈ messagingNodes doc)
    (huser : firstUserMessage? messaging = some userMessage) (hn : n ∈ userMessage.descendants) :
    n ∈ doc.descendants := by
  have huser' := List.mem_of_find?_eq_some huser
  exact mem_descendants_trans (List.mem_filter.mp hmessaging).1 (mem_descendants_trans huser' hn)

/-- What identifies an AS4 message. -/
def as4Identity (parsed : ParsedAs4UserMessage) : MessageIdentity :=
  ⟨.as4, parsed.fromPartyType.getD [], parsed.senderPartyId, parsed.messageId⟩

/-- What identifies an AS2 message. -/
def as2Identity (sender messageId : Str) : MessageIdentity := ⟨.as2, [], sender, messageId⟩

/-- A trimmed text below the user message of an accepted message has no NUL. -/
theorem nul_notMem_descendantText {doc : Document} {messaging userMessage n : Node}
    (hmessaging : messaging ∈ messagingNodes doc)
    (huser : firstUserMessage? messaging = some userMessage) (hn : n ∈ userMessage.descendants)
    {ns loc text : Str} (hname : n.hasTagName ns loc = true) (htext : n.text? = some text) :
    Char.ofNat 0 ∉ Str.trim text :=
  nul_notMem_trim (nul_notMem_text (mem_descendants_of_userMessage hmessaging huser hn)
    (isElement_of_hasTagName hname) htext)

/-- No NUL comes out of the parser. -/
theorem nulFree_of_parse {session : SessionContext} {doc : Document}
    {parsed : ParsedAs4UserMessage} (h : parseAs4UserMessageFromDoc session doc = .ok parsed) :
    (as4Identity parsed).NulFree := by
  obtain ⟨messaging, hmessaging, userMessage, huser, htype, -, hids, -⟩ :=
    parseAs4UserMessageFromDoc_parties h
  constructor
  · -- an absent type is the empty string
    cases hparsed : parsed.fromPartyType with
    | none => simp [as4Identity, hparsed]
    | some partyType =>
      rw [hparsed, firstPartyType] at htype
      obtain ⟨value, hvalue, rfl⟩ := Option.map_eq_some_iff.mp htype.symm
      obtain ⟨n, hn, hattr⟩ := Option.bind_eq_some_iff.mp hvalue
      have hname := List.find?_some hn
      rw [Bool.and_eq_true] at hname
      have hdoc := mem_descendants_of_userMessage hmessaging huser (List.mem_of_find?_eq_some hn)
      simp only [as4Identity, hparsed, Option.getD_some]
      exact nul_notMem_trim (nul_notMem_attribute hdoc (isElement_of_hasTagName hname.1) hattr)
  · -- a missing sender is the empty string too
    cases hparsed : partyIdsFor userMessage "From" with
    | nil => simp [as4Identity, ParsedAs4UserMessage.senderPartyId, hids.trans hparsed]
    | cons id rest =>
      have hid : id ∈ partyIdsFor userMessage "From" := hparsed ▸ List.mem_cons_self
      obtain ⟨text, htext, rfl⟩ := List.mem_map.mp (List.mem_filter.mp hid).1
      obtain ⟨n, hn, hsome⟩ := List.mem_filterMap.mp htext
      obtain ⟨hn, hname⟩ := List.mem_filter.mp hn
      rw [Bool.and_eq_true] at hname
      simp only [as4Identity, ParsedAs4UserMessage.senderPartyId, hids.trans hparsed]
      exact nul_notMem_descendantText hmessaging huser hn hname.1 hsome
  · obtain ⟨messaging', hmessaging', userMessage', huser', hid⟩ :=
      parseAs4UserMessageFromDoc_messageId h
    obtain ⟨text, htext, heq⟩ := List.mem_map.mp (List.mem_filter.mp hid).1
    obtain ⟨n, hn, hsome⟩ := List.mem_filterMap.mp htext
    obtain ⟨hn, hname⟩ := List.mem_filter.mp hn
    simp only [as4Identity, ← heq]
    exact nul_notMem_descendantText hmessaging' huser' hn hname hsome

/-- No NUL comes out of a verified message. -/
theorem nulFree_of_as4Verify {ctx : As4VerifyContext} {body : Bytes} {contentType : Str}
    {verified : VerifiedInbound} (h : as4Verify ctx body contentType = .ok verified) :
    (as4Identity verified.parsed).NulFree := by
  obtain ⟨authenticated, digested, hauth, hopen⟩ := as4Verify_ok h
  obtain ⟨inbound, signed, ha⟩ := authenticateInbound_ok hauth
  simp only [openInboundTraced, Except.bind_eq_ok, Except.pure_eq_ok, Prod.mk.injEq] at hopen
  obtain ⟨_, -, _, -, _, -, rfl, -⟩ := hopen
  exact nulFree_of_parse ha.header

/-- An AS2 identifier is printable ASCII. -/
theorem nul_notMem_of_isAs2Id {id : Str} (h : isAs2Id id = true) : Char.ofNat 0 ∉ id := by
  intro hnul
  simp only [isAs2Id, Bool.and_eq_true, List.all_eq_true] at h
  obtain ⟨-, hall⟩ := h
  have hascii : ∀ b ∈ Str.utf8 id, b.toNat < 0x80 := by
    intro b hb
    have hrange := hall b hb
    simp only [decide_eq_true_eq, UInt8.le_iff_toNat_le,
      UInt8.lt_iff_toNat_lt] at hrange
    exact Nat.lt_of_lt_of_le hrange.2 (by decide)
  -- an ASCII text is written with one byte for each character
  have hzero : UInt8.ofNat (Char.ofNat 0).toNat ∈ Str.utf8 id := by
    rw [(Str.utf8_eq_map hascii).2]
    exact List.mem_map_of_mem hnul
  exact absurd (hall _ hzero) (by decide)

/-! ## What the handlers claim -/

/-- What identifies the message of a request, over the calls made for it. -/
def IdentityOf : InboundRequest → List InboundEvent → MessageIdentity → Prop
  | .as4 _, h, m => ∃ verified, (∃ e ∈ h, verified? e = some verified) ∧
      m = as4Identity verified.parsed
  | .as2 _ req, _, m => ∃ sender messageId, req.sender = some sender ∧ isAs2Id sender = true ∧
      req.messageId = some messageId ∧ m = as2Identity sender messageId

/-- The SHA-256 of the endpoint. -/
def InboundRequest.sha256 : InboundRequest → Bytes → Bytes
  | as4 cfg => cfg.sha256
  | as2 cfg _ => cfg.sha256

/-- The key of a claim. -/
def claimKey? : InboundCall → Option Str
  | .claim key => some key
  | _ => none

/-- The identity of a request stays that of the longer history. -/
theorem IdentityOf.append {r : InboundRequest} {h : List InboundEvent} {m : MessageIdentity}
    (hm : IdentityOf r h m) (h' : List InboundEvent) : IdentityOf r (h ++ h') m := by
  cases r with
  | as4 cfg =>
    obtain ⟨verified, ⟨e, he, hv⟩, rfl⟩ := hm
    exact ⟨verified, ⟨e, List.mem_append_left _ he, hv⟩, rfl⟩
  | as2 cfg req => exact hm

/-- A request claims the key of its message. -/
def ClaimsOwnKey (r : InboundRequest) (h : List InboundEvent) (c : InboundCall) : Prop :=
  ∀ key, claimKey? c = some key → ∃ m, IdentityOf r h m ∧ key = m.key r.sha256

/-- A duplicate is answered as the store said. -/
def AnswersStore (h : List InboundEvent) (answer : InboundAnswer) : Prop :=
  answer.outcome = .duplicate → ∃ e ∈ h, (duplicate? e).isSome = true

/-- From here on there is neither a claim nor a duplicate. -/
abbrev Quiet (h : List InboundEvent) (p : InboundProg) : Prop :=
  Meets (fun _ c => claimKey? c = none) (fun _ answer => answer.outcome ≠ .duplicate) h p

section Quiet

variable {h : List InboundEvent} {key : Str} {token : ClaimToken}

/-- A part of a handler that makes no claim claims only the right keys. -/
theorem Quiet.claims {p : InboundProg} (hp : Quiet h p) (r : InboundRequest) :
    Meets (ClaimsOwnKey r) AnswersStore h p := by
  refine hp.mono (fun _ c hc key hkey => ?_) fun _ answer hne heq => absurd heq hne
  rw [hc] at hkey
  cases hkey

theorem abandonThen_quiet {p : InboundProg} (hp : ∀ h', Quiet h' p) :
    Quiet h (abandonThen key token p) :=
  ⟨rfl, fun _ => hp _⟩

theorem signThen_quiet {draft : SignalDraft} {success : Bytes → InboundAnswer}
    {failure : Str → InboundAnswer} (hok : ∀ b, (success b).outcome ≠ .duplicate)
    (hfail : ∀ d, (failure d).outcome ≠ .duplicate) : Quiet h (signThen draft success failure) := by
  refine ⟨rfl, fun answer => ?_⟩
  cases answer with
  | ok signal => exact hok signal
  | error err => exact hfail err

theorem recordAudit_quiet {sink : Option AuditDurability} {sha256 : Bytes → Bytes}
    {rec : AuditRecord} {stage : Str} {rest : Result Unit → InboundProg}
    (hrest : ∀ h' result, Quiet h' (rest result)) :
    Quiet h (recordAudit sink sha256 rec stage rest) := by
  unfold recordAudit
  cases sink with
  | none => exact hrest _ _
  | some durability =>
    refine ⟨rfl, fun answer => ?_⟩
    cases answer with
    | ok u => exact hrest _ _
    | error err =>
      cases durability with
      | bestEffort => exact hrest _ _
      | durable => exact hrest _ _

/-- Signing and recording the answer makes no claim. -/
theorem acknowledge_quiet {draft : SignalDraft} {builder : Bytes → RecordBuilder}
    {audit : Option AuditDurability} {sha256 : Bytes → Bytes} {stage : Str}
    {failure : Str → InboundAnswer} {success : Bytes → InboundAnswer}
    (hok : ∀ b, (success b).outcome ≠ .duplicate)
    (hfail : ∀ d, (failure d).outcome ≠ .duplicate) :
    Quiet h (acknowledge draft builder audit sha256 stage failure success key token) := by
  refine ⟨rfl, fun answer => ?_⟩
  cases answer with
  | error err => exact abandonThen_quiet fun _ => hfail _
  | ok signal =>
    refine ⟨rfl, fun finished => ?_⟩
    cases finished with
    | error err => exact abandonThen_quiet fun _ => hfail _
    | ok record =>
      refine recordAudit_quiet fun h' result => ?_
      cases result with
      | error err => exact abandonThen_quiet fun _ => hfail _
      | ok u =>
        refine ⟨rfl, fun accepted => ?_⟩
        cases accepted with
        | error err => exact hfail _
        | ok u => exact hok _

/-- Nothing is claimed after the claim of the AS4 handler. -/
theorem as4Deliver_quiet {cfg : As4InboundConfig} {verified : VerifiedInbound} :
    Quiet h (as4Deliver cfg verified key token) := by
  refine ⟨rfl, fun evidence => ?_⟩
  cases evidence with
  | error err => exact abandonThen_quiet fun _ => ReceiveOutcome.noConfusion
  | ok record =>
    cases cfg.readable verified.signerDer with
    | false => exact abandonThen_quiet fun _ => ReceiveOutcome.noConfusion
    | true =>
      refine ⟨rfl, fun answer => ?_⟩
      cases answer with
      | ok u => exact acknowledge_quiet (fun _ => by simp) fun _ => by simp [as4BackendFailure]
      | error fault => exact abandonThen_quiet fun _ => ReceiveOutcome.noConfusion

/-- Nothing is claimed after the claim of the AS2 handler. -/
theorem as2Deliver_quiet {cfg : As2InboundConfig} {messageId sender : Str} {opened : As2Opened} :
    Quiet h (as2Deliver cfg messageId sender opened key token) := by
  refine ⟨rfl, fun evidence => ?_⟩
  cases evidence with
  | error err => exact abandonThen_quiet fun _ => ReceiveOutcome.noConfusion
  | ok record =>
    cases cfg.readable opened.signerDer with
    | false => exact abandonThen_quiet fun _ => ReceiveOutcome.noConfusion
    | true =>
      refine ⟨rfl, fun answer => ?_⟩
      cases answer with
      | ok u => exact acknowledge_quiet (fun _ => by simp) fun _ => by simp [as2BackendFailure]
      | error fault =>
        exact abandonThen_quiet fun _ =>
          signThen_quiet (fun _ => by simp) fun _ => by simp [as2BackendFailure]

theorem as2Refuse_quiet {messageId detail : Str} {status : Nat} {refusal : Refusal} :
    Quiet h (as2Refuse messageId status refusal detail) :=
  signThen_quiet (fun _ => by simp) fun _ => by simp

end Quiet

/-- A signal for a duplicate, as the store said. -/
theorem signThen_answersStore {r : InboundRequest} {h : List InboundEvent} {draft : SignalDraft}
    {success : Bytes → InboundAnswer} {failure : Str → InboundAnswer}
    (hdup : ∃ e ∈ h, (duplicate? e).isSome = true) :
    Meets (ClaimsOwnKey r) AnswersStore h (signThen draft success failure) := by
  obtain ⟨e, he, hsome⟩ := hdup
  refine ⟨fun _ hkey => absurd hkey (by simp [claimKey?]), fun answer => ?_⟩
  cases answer with
  | ok signal => exact fun _ => ⟨e, List.mem_append_left _ he, hsome⟩
  | error err => exact fun _ => ⟨e, List.mem_append_left _ he, hsome⟩

/-- The AS4 handler claims the key of the message that it has verified. -/
theorem as4Handle_claims (cfg : As4InboundConfig) :
    Meets (ClaimsOwnKey (.as4 cfg)) AnswersStore [] (as4Handle cfg) := by
  refine ⟨fun _ hkey => absurd hkey (by simp [claimKey?]), fun verdict => ?_⟩
  cases verdict with
  | error err => exact fun heq => absurd heq ReceiveOutcome.noConfusion
  | ok verified =>
    dsimp only
    split
    · -- a message of the test service is answered without a claim
      exact Quiet.claims (signThen_quiet (fun _ => by simp) fun _ => by simp [as4BackendFailure]) _
    · refine ⟨fun key hkey => ?_, fun answer => ?_⟩
      · -- the key is that of the message which `verify` returned
        obtain rfl : as4Key cfg.sha256 verified = key := Option.some.inj hkey
        exact ⟨_, ⟨verified, ⟨_, List.mem_singleton_self _, rfl⟩, rfl⟩, rfl⟩
      · cases answer with
        | error err => exact fun heq => absurd heq ReceiveOutcome.noConfusion
        | ok claim =>
          cases claim with
          | inFlight => exact fun heq => absurd heq ReceiveOutcome.noConfusion
          | duplicate =>
            exact signThen_answersStore
              ⟨_, List.mem_append_right _ (List.mem_singleton_self _), rfl⟩
          | claimed token => exact as4Deliver_quiet.claims _

/-- The claim of the AS2 handler is for the identity of its request. -/
theorem as2Claim_claims {cfg : As2InboundConfig} {req : As2Request} {messageId sender : Str}
    {opened : As2Opened} {h : List InboundEvent}
    (hm : IdentityOf (.as2 cfg req) h (as2Identity sender messageId)) :
    Meets (ClaimsOwnKey (.as2 cfg req)) AnswersStore h
      (as2Claim cfg messageId sender opened) := by
  refine ⟨fun key hkey => ?_, fun answer => ?_⟩
  · obtain rfl : as2Key cfg.sha256 sender messageId = key := Option.some.inj hkey
    exact ⟨_, hm, rfl⟩
  · cases answer with
    | error err => exact fun heq => absurd heq ReceiveOutcome.noConfusion
    | ok claim =>
      cases claim with
      | inFlight => exact fun heq => absurd heq ReceiveOutcome.noConfusion
      | duplicate =>
        exact signThen_answersStore
          ⟨_, List.mem_append_right _ (List.mem_singleton_self _), rfl⟩
      | claimed token => exact as2Deliver_quiet.claims _

theorem as2Open_claims {cfg : As2InboundConfig} {req : As2Request} {messageId sender : Str}
    (hm : IdentityOf (.as2 cfg req) [] (as2Identity sender messageId)) :
    Meets (ClaimsOwnKey (.as2 cfg req)) AnswersStore [] (as2Open cfg messageId sender) := by
  refine ⟨fun _ hkey => absurd hkey (by simp [claimKey?]), fun verdict => ?_⟩
  cases verdict with
  | error err => exact fun heq => absurd heq ReceiveOutcome.noConfusion
  | ok outcome =>
    cases outcome with
    | error refused => exact as2Refuse_quiet.claims _
    | ok opened =>
      refine ⟨fun _ hkey => absurd hkey (by simp [claimKey?]), fun revoked => ?_⟩
      cases revoked with
      | error description => exact as2Refuse_quiet.claims _
      | ok u => exact as2Claim_claims hm

/-- The AS2 handler claims the key of the ids in its header. -/
theorem as2Handle_claims (cfg : As2InboundConfig) (req : As2Request) :
    Meets (ClaimsOwnKey (.as2 cfg req)) AnswersStore [] (as2Handle cfg req) := by
  unfold as2Handle
  cases hid : req.messageId with
  | none => exact fun heq => absurd heq ReceiveOutcome.noConfusion
  | some messageId =>
    dsimp only
    split
    · exact as2Refuse_quiet.claims _
    -- every test that fails refuses the request before anything is claimed
    cases hsender : req.sender.filter isAs2Id with
    | none => exact as2Refuse_quiet.claims _
    | some sender =>
      obtain ⟨hsender, hvalid⟩ := Option.filter_eq_some_iff.mp hsender
      dsimp only
      split
      · exact as2Refuse_quiet.claims _
      split
      · exact as2Refuse_quiet.claims _
      split
      · exact as2Refuse_quiet.claims _
      split
      · exact as2Refuse_quiet.claims _
      exact as2Open_claims ⟨sender, messageId, hsender, hvalid, hid, rfl⟩

/-- Every request claims the key of its own message, and answers as a duplicate only what the
    store called one. -/
theorem handle_claims (r : InboundRequest) : Meets (ClaimsOwnKey r) AnswersStore [] r.handle := by
  cases r with
  | as4 cfg => exact as4Handle_claims cfg
  | as2 cfg req => exact as2Handle_claims cfg req

/-! ## What the store says -/

/-- A key is called a duplicate only after an `accept` of it succeeded. -/
def DuplicatesAccepted (h : List StoreEvent) : Prop :=
  ∀ pre (e : StoreEvent) post, h = pre ++ e :: post → e.call = .claim (.ok .duplicate) →
    ∃ e' ∈ pre, e'.key = e.key ∧ ∃ token, e'.call = .accept token (.ok ())

namespace MemoryDedup

/-- The accepted entries of the store come from calls of the history. -/
def AcceptedBy (h : List StoreEvent) (s : MemoryDedup) : Prop :=
  ∀ key expires, s.entries key = some (.accepted expires) →
    ∃ e ∈ h, e.key = key ∧ ∃ token, e.call = .accept token (.ok ())

theorem AcceptedBy.retain {h : List StoreEvent} {s : MemoryDedup} (hs : AcceptedBy h s)
    (now : Nat) : AcceptedBy h (s.retain now) := fun key expires hentry =>
  hs key expires (live_eq_some_iff.mp hentry).1

theorem AcceptedBy.append {h : List StoreEvent} {s : MemoryDedup} (hs : AcceptedBy h s)
    (h' : List StoreEvent) : AcceptedBy (h ++ h') s := by
  intro key expires hentry
  obtain ⟨e, he, hcall⟩ := hs key expires hentry
  exact ⟨e, List.mem_append_left _ he, hcall⟩

/-- Another entry than an accepted one, or none, under a key. -/
theorem AcceptedBy.update {h : List StoreEvent} {s : MemoryDedup} (hs : AcceptedBy h s)
    (key : Str) {entry : Option DedupEntry} (hentry : ∀ expires, entry ≠ some (.accepted expires)) :
    AcceptedBy h ⟨Function.update s.entries key entry⟩ := by
  intro key' expires hsome
  dsimp only at hsome
  by_cases hkey : key' = key
  · subst hkey
    rw [Function.update_self] at hsome
    exact absurd hsome (hentry expires)
  · rw [Function.update_of_ne hkey] at hsome
    exact hs key' expires hsome

/-- A step of the store accepts an entry only by an accept call. -/
theorem Step.acceptedBy {s s' : MemoryDedup} {now : Nat} {key : Str} {call : StoreCall}
    (hstep : Step s now key s' call) {h : List StoreEvent} (hs : AcceptedBy h s) :
    AcceptedBy (h ++ [⟨now, key, call⟩]) s' := by
  cases hstep with
  | duplicate | inFlight | noToken => exact (hs.retain now).append _
  | claimed token => exact ((hs.retain now).update key fun _ => by simp).append _
  | abandon => exact (hs.update key fun _ => by simp).append _
  | acceptFails | abandonFails => exact hs.append _
  | accept =>
    -- the only step that writes an accepted entry
    intro key' expires hentry
    by_cases hkey : key' = key
    · exact ⟨_, List.mem_append_right _ (List.mem_singleton_self _), hkey.symm, _, rfl⟩
    · rw [entries_insert_of_ne _ hkey] at hentry
      exact hs.append _ key' expires hentry

/-- So every accepted entry of a run comes from such a call. -/
theorem AcceptedBy.run {h : List StoreEvent} {s : MemoryDedup} (hs : AcceptedBy h s)
    (requests : List DedupRequest) :
    AcceptedBy (h ++ (s.run requests).2) (s.run requests).1 := by
  -- on the requests: each adds its call to the history
  induction requests generalizing h s with
  | nil => exact hs.append _
  | cons r rs ih =>
    obtain ⟨s', call, heq, hstep⟩ := perform_step s r
    have hrest := ih (hstep.acceptedBy hs)
    rw [List.append_assoc] at hrest
    rw [run_cons, heq]
    exact hrest

/-- In every run of `MemoryDedup` a duplicate was accepted. -/
theorem duplicatesAccepted_run (requests : List DedupRequest) :
    DuplicatesAccepted (empty.run requests).2 := by
  intro pre e post hsplit hdup
  obtain ⟨rs, r, rs', -, rfl, rfl, -⟩ := exists_split_of_run hsplit
  have hs : AcceptedBy (empty.run rs).2 (empty.run rs).1 := by
    have hempty : AcceptedBy [] empty := fun _ _ hentry => by simp [empty] at hentry
    exact hempty.run rs
  -- the store called the key a duplicate because of a live entry of before
  obtain ⟨s', call, heq, hstep⟩ := perform_step (empty.run rs).1 r
  rw [heq] at hdup ⊢
  obtain rfl : call = _ := hdup
  cases hstep with
  | duplicate hlive => exact hs _ _ (live_eq_some_iff.mp hlive).1

end MemoryDedup

/-! ## Runs -/

section Run

variable {ι : Type} {σ : List (Occurrence ι InboundCall InboundCall.Answer)}

/-- The accepting calls of a run, as the store sees them. -/
theorem exists_accepted_of_storeHistory {e : StoreEvent} (he : e ∈ storeHistory σ)
    {token : ClaimToken} (hcall : e.call = .accept token (.ok ())) :
    ∃ o ∈ σ, accepted? o.event = some (e.key, token) := by
  obtain ⟨o, ho, hevent⟩ := List.mem_filterMap.mp he
  refine ⟨o, ho, ?_⟩
  obtain ⟨now, who, ⟨c, a⟩⟩ := o
  cases c with
  | claim | abandon =>
    obtain rfl := Option.some.inj hevent
    cases hcall
  | accept =>
    obtain rfl := Option.some.inj hevent
    cases hcall
    rfl
  | _ => cases hevent

/-- A duplicate is an answer of the store to a claim. -/
theorem storeEvent?_of_duplicate? {o : Occurrence ι InboundCall InboundCall.Answer} {key : Str}
    (h : duplicate? o.event = some key) :
    claimKey? o.event.call = some key ∧
      storeEvent? o = some ⟨o.now, key, .claim (.ok .duplicate)⟩ := by
  obtain ⟨now, who, ⟨c, a⟩⟩ := o
  cases c with
  | claim k =>
    rcases a with err | (t | _ | _)
    · cases h
    · cases h
    · cases h
      exact ⟨rfl, rfl⟩
    · cases h
  | _ => cases h

theorem claimKey?_of_claimed? {e : InboundEvent} {key : Str} {token : ClaimToken}
    (h : claimed? e = some (key, token)) : claimKey? e.call = some key := by
  obtain ⟨c, a⟩ := e
  cases c with
  | claim k =>
    rcases a with err | (t | _ | _)
    · cases h
    · cases h
      rfl
    · cases h
    · cases h
  | _ => cases h

variable [DecidableEq ι] {requests : ι → InboundRequest} {progs : ι → InboundProg}

/-- The messages of a run. -/
def identities (requests : ι → InboundRequest)
    (σ : List (Occurrence ι InboundCall InboundCall.Answer)) : Set MessageIdentity :=
  {m | ∃ i, IdentityOf (requests i) (callsOf i σ) m}

/-- What is received has no NUL: AS4 messages come out of `verify`, and the message id of an
    AS2 request is a header value. -/
structure ReceivedText (requests : ι → InboundRequest)
    (σ : List (Occurrence ι InboundCall InboundCall.Answer)) : Prop where
  as4 : ∀ o ∈ σ, ∀ verified, verified? o.event = some verified →
    ∃ ctx body contentType, as4Verify ctx body contentType = .ok verified
  as2 : ∀ i cfg req messageId, requests i = .as2 cfg req → req.messageId = some messageId →
    Char.ofNat 0 ∉ messageId

/-- Identities that come from received text hold no NUL. -/
theorem ReceivedText.nulFree (h : ReceivedText requests σ) {m : MessageIdentity}
    (hm : m ∈ identities requests σ) : m.NulFree := by
  obtain ⟨i, hm⟩ := hm
  cases hr : requests i with
  | as4 cfg =>
    rw [hr] at hm
    obtain ⟨verified, ⟨e, he, hv⟩, rfl⟩ := hm
    obtain ⟨o, ho, -, rfl⟩ := mem_callsOf.mp he
    obtain ⟨ctx, body, contentType, hverify⟩ := h.as4 o ho verified hv
    exact nulFree_of_as4Verify hverify
  | as2 cfg req =>
    rw [hr] at hm
    -- the sender was checked by the handler, the message id is a header value
    obtain ⟨sender, messageId, -, hsender, hid, rfl⟩ := hm
    exact ⟨by simp [as2Identity], nul_notMem_of_isAs2Id hsender, h.as2 i cfg req messageId hr hid⟩

/-- A claim of a run is about a message of its request. -/
theorem identityOf_claim (hrun : Run (fun i => (requests i).handle) σ progs)
    {σ₁ σ₂ : List (Occurrence ι InboundCall InboundCall.Answer)}
    {o : Occurrence ι InboundCall InboundCall.Answer} (hsplit : σ = σ₁ ++ o :: σ₂) {key : Str}
    (hkey : claimKey? o.event.call = some key) :
    ∃ m, IdentityOf (requests o.who) (callsOf o.who σ₁) m ∧ key = m.key (requests o.who).sha256 :=
  hrun.before (fun i => handle_claims (requests i)) hsplit key hkey

/-- A key that was accepted is the key of a message of the request that accepted it. -/
theorem identityOf_accepted (hrun : Run (fun i => (requests i).handle) σ progs)
    {σ₁ σ₂ : List (Occurrence ι InboundCall InboundCall.Answer)}
    {o : Occurrence ι InboundCall InboundCall.Answer} (hsplit : σ = σ₁ ++ o :: σ₂) {key : Str}
    {token : ClaimToken} (h : accepted? o.event = some (key, token)) :
    Completed (requests o.who) (callsOf o.who σ₁) ∧
      ∃ m, IdentityOf (requests o.who) (callsOf o.who σ₁) m ∧
        key = m.key (requests o.who).sha256 := by
  have hcall : o.event.call = .accept key token := by
    obtain ⟨now, who, ⟨c, a⟩⟩ := o
    cases c with
    | accept k t =>
      rcases a with err | u
      · cases h
      · cases h
        rfl
    | _ => cases h
  have hmay := mayCall_of_run hrun hsplit
  rw [hcall] at hmay
  obtain ⟨⟨e, he, hclaimed⟩, -, hcompleted⟩ := hmay
  -- the claim that was granted before
  obtain ⟨o', ho', hwho, rfl⟩ := mem_callsOf.mp he
  obtain ⟨τ₁, τ₂, rfl⟩ := List.append_of_mem ho'
  have hsplit' : σ = τ₁ ++ o' :: (τ₂ ++ o :: σ₂) := by
    rw [hsplit, List.append_assoc, List.cons_append]
  obtain ⟨m, hm, hkey⟩ := identityOf_claim hrun hsplit' (claimKey?_of_claimed? hclaimed)
  rw [hwho] at hm hkey
  refine ⟨hcompleted, m, ?_, hkey⟩
  rw [callsOf_append]
  exact hm.append _

/-- The digested text determines protocol, sender and message id, and in every run a message is
    answered as a duplicate only after the same message was accepted; the store keeps to what it
    documents, as `MemoryDedup` does, and the SHA-256 of two messages of the run differ. -/
theorem dedupKeys_do_not_collide {sha256 : Bytes → Bytes}
    (hrun : Run (fun i => (requests i).handle) σ progs)
    (hsha256 : ∀ i, (requests i).sha256 = sha256) (htext : ReceivedText requests σ)
    (hstore : DuplicatesAccepted (storeHistory σ))
    (hinj : Set.InjOn sha256 (MessageIdentity.preimage '' identities requests σ)) :
    (∀ m : MessageIdentity, m.key sha256 = hexLower (sha256 m.preimage)) ∧
    (∀ m m' : MessageIdentity, m.NulFree → m'.NulFree → m.preimage = m'.preimage → m = m') ∧
    (∀ calls, DuplicatesAccepted (MemoryDedup.empty.run calls).2) ∧
    ∀ i answer, progs i = .ret answer → answer.outcome = .duplicate →
      ∃ m σ₁ o σ₂ token, IdentityOf (requests i) (callsOf i σ) m ∧ σ = σ₁ ++ o :: σ₂ ∧
        IdentityOf (requests o.who) (callsOf o.who σ₁) m ∧
        Completed (requests o.who) (callsOf o.who σ₁) ∧
        accepted? o.event = some (m.key sha256, token) ∧
        ∃ e ∈ callsOf i σ₂, duplicate? e = some (m.key sha256) := by
  refine ⟨MessageIdentity.key_eq sha256, fun _ _ => preimage_injective,
    MemoryDedup.duplicatesAccepted_run, fun i answer hret hdup => ?_⟩
  -- the answer says that the store called a key a duplicate
  have hanswer := hrun.meets (fun i => handle_claims (requests i)) i
  rw [hret] at hanswer
  obtain ⟨e, he, hsome⟩ := hanswer hdup
  obtain ⟨key, hkey⟩ := Option.isSome_iff_exists.mp hsome
  obtain ⟨d, hd, rfl, rfl⟩ := mem_callsOf.mp he
  obtain ⟨hclaim, hevent⟩ := storeEvent?_of_duplicate? hkey
  obtain ⟨τ₁, τ₂, rfl⟩ := List.append_of_mem hd
  -- the message that is a duplicate
  obtain ⟨m, hm, rfl⟩ := identityOf_claim hrun rfl hclaim
  have hm' : IdentityOf (requests d.who) (callsOf d.who (τ₁ ++ d :: τ₂)) m := by
    rw [callsOf_append]
    exact hm.append _
  -- the call that accepted its key
  have hhistory : storeHistory (τ₁ ++ d :: τ₂) =
      storeHistory τ₁ ++ ⟨d.now, m.key (requests d.who).sha256, .claim (.ok .duplicate)⟩ ::
        storeHistory τ₂ := by
    simp [storeHistory, hevent]
  obtain ⟨e', he', hsame, token, hcall⟩ := hstore _ _ _ hhistory rfl
  obtain ⟨o, ho, haccepted⟩ := exists_accepted_of_storeHistory he' hcall
  obtain ⟨σ₁, σ₂, rfl⟩ := List.append_of_mem ho
  have hsplit : σ₁ ++ o :: σ₂ ++ d :: τ₂ = σ₁ ++ o :: (σ₂ ++ d :: τ₂) := by simp
  obtain ⟨hcompleted, n, hn, hnkey⟩ := identityOf_accepted hrun hsplit haccepted
  have hn' : IdentityOf (requests o.who) (callsOf o.who (σ₁ ++ o :: σ₂ ++ d :: τ₂)) n := by
    rw [hsplit, callsOf_append]
    exact hn.append _
  -- the two keys are equal, and so are the messages
  rw [hsame, hsha256, hsha256] at hnkey
  have hmn : m = n := MessageIdentity.eq_of_key_eq (htext.nulFree ⟨_, hm'⟩)
    (htext.nulFree ⟨_, hn'⟩) hinj (Set.mem_image_of_mem _ ⟨_, hm'⟩)
    (Set.mem_image_of_mem _ ⟨_, hn'⟩) hnkey
  subst hmn
  rw [hsame, hsha256] at haccepted
  rw [hsha256] at hkey
  refine ⟨m, σ₁, o, σ₂ ++ d :: τ₂, token, hm', hsplit, hn, hcompleted, haccepted, d.event, ?_, hkey⟩
  exact mem_callsOf.mpr ⟨d, by simp, rfl, rfl⟩

end Run

/-! ## A message that is delivered twice -/

/-- The endpoint, with the SHA-256 of the one key preimage that it digests. -/
def switchEndpoint : As4InboundConfig :=
  { endpoint none with sha256 := fun _ =>
    [157, 169, 70, 101, 235, 65, 40, 164, 86, 209, 134, 117, 242, 125, 149, 56,
      112, 196, 5, 244, 73, 161, 136, 156, 23, 246, 220, 53, 121, 152, 216, 179] }

/-- Both requests come to it. -/
def switchRequests : Bool → InboundRequest := fun _ => .as4 switchEndpoint

/-- The record of the delivery. -/
def deliveredRecord (verified : VerifiedInbound) : AuditRecord :=
  ⟨['1'], as4RecordBuilder switchEndpoint verified⟩

/-- The record with the receipt. -/
def receiptedRecord (verified : VerifiedInbound) : AuditRecord :=
  ⟨['2'], { as4RecordBuilder switchEndpoint verified with
    signal := some ⟨[7], verified.parsed.messageId⟩ }⟩

/-- The request `true` delivers the message, then `false` is told that it is a duplicate. -/
def deliveredTwice (verified : VerifiedInbound) :
    List (Occurrence Bool InboundCall InboundCall.Answer) :=
  let key := as4Key switchEndpoint.sha256 verified
  [⟨0, true, ⟨.verify, .ok verified⟩⟩, ⟨1, true, ⟨.claim key, .ok (.claimed ⟨['0', '1']⟩)⟩⟩,
    ⟨2, true, ⟨.finish (deliveredRecord verified).fields, .ok (deliveredRecord verified)⟩⟩,
    ⟨3, true, ⟨.handle (.as4 (as4UserMessage switchEndpoint verified)) (deliveredRecord verified),
      .ok ()⟩⟩,
    ⟨4, true, ⟨.sign (as4Receipt verified), .ok [7]⟩⟩,
    ⟨5, true, ⟨.finish (receiptedRecord verified).fields, .ok (receiptedRecord verified)⟩⟩,
    ⟨6, true, ⟨.accept key ⟨['0', '1']⟩, .ok ()⟩⟩, ⟨7, false, ⟨.verify, .ok verified⟩⟩,
    ⟨8, false, ⟨.claim key, .ok .duplicate⟩⟩, ⟨9, false, ⟨.sign (as4Receipt verified), .ok [7]⟩⟩]

theorem deliveredTwice_run {verified : VerifiedInbound}
    (htest : isTestService verified.parsed = false) :
    ∃ progs, Run (fun i => (switchRequests i).handle) (deliveredTwice verified) progs ∧
      progs false =
        .ret ⟨.receipt [7], .duplicate, some verified.parsed.messageId, none, none⟩ := by
  have hclaim : ¬ isTestService verified.parsed = true := by simp [htest]
  let s₀ : Run (fun i => (switchRequests i).handle) [] _ := .nil
  let s₁ := s₀.step true rfl 0 (.ok verified)
  let s₂ := s₁.step true (if_neg hclaim) 1 (.ok (.claimed ⟨['0', '1']⟩))
  let s₃ := s₂.step true rfl 2 (.ok (deliveredRecord verified))
  let s₄ := s₃.step true rfl 3 (.ok ())
  let s₅ := s₄.step true rfl 4 (.ok [7])
  let s₆ := s₅.step true rfl 5 (.ok (receiptedRecord verified))
  let s₇ := s₆.step true rfl 6 (.ok ())
  let s₈ := s₇.step false rfl 7 (.ok verified)
  let s₉ := s₈.step false (if_neg hclaim) 8 (.ok .duplicate)
  let s₁₀ := s₉.step false rfl 9 (.ok [7])
  exact ⟨_, s₁₀, rfl⟩

theorem verified_of_mem_deliveredTwice {verified verified' : VerifiedInbound}
    {o : Occurrence Bool InboundCall InboundCall.Answer} (ho : o ∈ deliveredTwice verified)
    (h : verified? o.event = some verified') : verified' = verified := by
  simp only [deliveredTwice, List.mem_cons, List.not_mem_nil, or_false] at ho
  rcases ho with rfl | rfl | rfl | rfl | rfl | rfl | rfl | rfl | rfl | rfl
  all_goals simp [verified?] at h
  all_goals exact h.symm

/-- The history of the store is a run of `MemoryDedup`. -/
theorem storeHistory_deliveredTwice (verified : VerifiedInbound) :
    storeHistory (deliveredTwice verified) =
      (MemoryDedup.empty.run [⟨1, as4Key switchEndpoint.sha256 verified, .claim (.ok [1])⟩,
        ⟨6, as4Key switchEndpoint.sha256 verified, .accept ⟨['0', '1']⟩⟩,
        ⟨8, as4Key switchEndpoint.sha256 verified, .claim (.ok [2])⟩]).2 := by
  rfl

/-- A second `switchMessage` is a duplicate of the first. -/
theorem dedupKeys_do_not_collide_switch :
    ∃ verified progs, as4Verify switchContext switchBody "application/soap+xml" = .ok verified ∧
      Run (fun i => (switchRequests i).handle) (deliveredTwice verified) progs ∧
      ∃ σ₁ o σ₂ token, deliveredTwice verified = σ₁ ++ o :: σ₂ ∧
        accepted? o.event = some (as4Key switchEndpoint.sha256 verified, token) ∧
        ∃ e ∈ callsOf false σ₂, duplicate? e = some (as4Key switchEndpoint.sha256 verified) := by
  obtain ⟨_, verified, hverify, -, -, -, htest, -⟩ := switchMessage_verified
  obtain ⟨progs, hrun, hret⟩ := deliveredTwice_run htest
  have hidentity : ∀ m ∈ identities switchRequests (deliveredTwice verified),
      m = as4Identity verified.parsed := by
    rintro m ⟨i, verified', ⟨e, he, hv⟩, rfl⟩
    obtain ⟨o, ho, -, rfl⟩ := mem_callsOf.mp he
    rw [verified_of_mem_deliveredTwice ho hv]
  -- with one message in the run no two digests can collide
  have hone : (identities switchRequests (deliveredTwice verified)).Subsingleton :=
    fun m hm m' hm' => (hidentity m hm).trans (hidentity m' hm').symm
  obtain ⟨-, -, -, hdup⟩ := dedupKeys_do_not_collide hrun (fun _ => rfl)
    ⟨fun o ho verified' hv => ⟨switchContext, switchBody, _,
        (verified_of_mem_deliveredTwice ho hv).symm ▸ hverify⟩,
      fun _ _ _ _ h => InboundRequest.noConfusion h⟩
    (storeHistory_deliveredTwice verified ▸ MemoryDedup.duplicatesAccepted_run _)
    ((hone.image _).injOn _)
  obtain ⟨m, σ₁, o, σ₂, token, ⟨verified', ⟨e, he, hv⟩, rfl⟩, hsplit, -, -, haccepted, hduplicate⟩ :=
    hdup false _ hret rfl
  obtain ⟨o', ho', -, rfl⟩ := mem_callsOf.mp he
  obtain rfl := verified_of_mem_deliveredTwice ho' hv
  exact ⟨_, progs, hverify, hrun, σ₁, o, σ₂, token, hsplit, haccepted, hduplicate⟩

end Asx
