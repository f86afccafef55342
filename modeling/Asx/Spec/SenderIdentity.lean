import Asx.Native.Authorizer
import Asx.Spec.Wrapping

/-!
# The identity of the parties

A header may name a party by several `eb:PartyId` elements. The receiver reads the type of the
party from the first of them and its id from the first that is not blank, by two walks. The two
stand in one element when the first is not blank, and else only if the header happens to repeat
the pair.

## Key results
- `parseAs4UserMessageFromDoc_parties`: where the types and ids of a message are read
- `oneElement_iff`: when a type and an id stand in one element
- `partyIdentity_iff`: when both parties of an accepted message are one element each
-/

namespace Asx

open Xml

/-! ## The two walks -/

/-- The `eb:PartyId` elements of a direction, in document order. -/
def partyElements (userMessage : Node) (direction : Str) : List Node :=
  userMessage.descendants.filter fun n =>
    n.hasTagName Ns.ebms3 "PartyId" && within n direction

/-- The type that an element carries. -/
def partyType (n : Node) : Option Str := (n.attribute? "type").map Str.trim

/-- The id that an element carries; a blank one carries none. -/
def partyText (n : Node) : Option Str := (n.text?.map Str.trim).filter (· ≠ [])

theorem firstPartyType_eq (userMessage : Node) (direction : Str) :
    firstPartyType userMessage direction =
      (partyElements userMessage direction).head?.bind partyType := by
  unfold firstPartyType partyElements
  rw [List.head?_filter]
  cases userMessage.descendants.find? _ with
  | none => rfl
  | some n => rfl

theorem partyIdsFor_eq (userMessage : Node) (direction : Str) :
    partyIdsFor userMessage direction =
      (partyElements userMessage direction).filterMap partyText := by
  unfold partyIdsFor
  rw [← partyElements, List.map_filterMap, List.filter_filterMap]
  rfl

/-- The type and the id stand in one element of the direction. -/
def OneElement (userMessage : Node) (direction : Str) (type : Option Str) (id : Str) : Prop :=
  ∃ n ∈ partyElements userMessage direction, partyType n = type ∧ partyText n = some id

/-- The first element of the direction is not blank, or an element with its type repeats the
    text of the first that is not. -/
def FirstPartyCounts (userMessage : Node) (direction : Str) : Prop :=
  ∀ first ∈ (partyElements userMessage direction).head?, partyText first ≠ none ∨
    ∃ n ∈ partyElements userMessage direction, partyType n = partyType first ∧
      partyText n = (partyElements userMessage direction).findSome? partyText

/-- What the two walks read stands in one element. -/
theorem oneElement_iff {userMessage : Node} {direction : Str}
    (hids : partyIdsFor userMessage direction ≠ []) :
    OneElement userMessage direction (firstPartyType userMessage direction)
        ((partyIdsFor userMessage direction).headD []) ↔
      FirstPartyCounts userMessage direction := by
  rw [partyIdsFor_eq] at hids ⊢
  rw [firstPartyType_eq]
  unfold OneElement FirstPartyCounts
  generalize partyElements userMessage direction = elements at hids ⊢
  obtain ⟨id, hid⟩ : ∃ id, elements.findSome? partyText = some id := by
    rw [← List.head?_filterMap]
    exact Option.isSome_iff_exists.mp (List.isSome_head?.mpr hids)
  have hhead : (elements.filterMap partyText).headD [] = id := by
    rw [List.headD_eq_head?_getD, List.head?_filterMap, hid, Option.getD_some]
  rw [hhead, hid]
  cases elements with
  | nil => cases hid
  | cons first rest =>
    simp only [List.head?_cons, Option.bind_some, Option.mem_def, Option.some.injEq,
      forall_eq']
    constructor
    · exact .inr
    · rintro (hfirst | h)
      · obtain ⟨text, htext⟩ := Option.ne_none_iff_exists'.mp hfirst
        rw [List.findSome?_cons, htext] at hid
        exact ⟨first, List.mem_cons_self, rfl, htext.trans hid⟩
      · exact h

/-! ## Accepted messages -/

/-- The types and ids of an accepted message are what the walks read of its user message. -/
theorem parseAs4UserMessageFromDoc_parties {session : SessionContext} {doc : Document}
    {parsed : ParsedAs4UserMessage} (h : parseAs4UserMessageFromDoc session doc = .ok parsed) :
    ∃ messaging ∈ messagingNodes doc, ∃ userMessage,
      firstUserMessage? messaging = some userMessage ∧
      parsed.fromPartyType = firstPartyType userMessage "From" ∧
      parsed.toPartyType = firstPartyType userMessage "To" ∧
      parsed.fromPartyIds = partyIdsFor userMessage "From" ∧
      parsed.toPartyIds = partyIdsFor userMessage "To" ∧
      parsed.fromPartyIds ≠ [] ∧ parsed.toPartyIds ≠ [] := by
  obtain ⟨messaging, hmessaging, state, userMessage, -, huser, hread⟩ :=
    parseAs4UserMessageFromDoc_ok h
  obtain ⟨state', hstate, hcheck⟩ := Except.bind_eq_ok.mp hread
  simp only [readUserMessage, Except.bind_eq_ok, Except.pure_eq_ok] at hstate
  obtain ⟨_, -, _, -, _, -, _, -, _, -, _, -, rfl⟩ := hstate
  simp only [checkUserMessageState, Except.bind_eq_ok, Except.okOr_eq_ok, Except.rejectIf_eq_ok,
    Except.pure_eq_ok] at hcheck
  obtain ⟨-, -, -, -, -, -, -, -, -, -, -, -, -, hfrom, -, hto, -, -, -, -, -, -, -, -, rfl⟩ :=
    hcheck
  exact ⟨messaging, hmessaging, userMessage, huser, rfl, rfl, rfl, rfl, hfrom, hto⟩

/-- The parties of a message as they are acted on: by the lookup of the partner, by the
    authorization, by the dedup key and by the check of the recipient. -/
structure PartyIdentity (userMessage : Node) (parsed : ParsedAs4UserMessage) : Prop where
  sender : ∃ n ∈ partyElements userMessage "From", ∃ id, partyText n = some id ∧
    partyType n = parsed.fromPartyType ∧ id = parsed.senderPartyId ∧
    (∀ cfg : AuthorizerConfig, cfg.registered parsed = policyFor cfg.partners (partyType n) id) ∧
    ∀ sha256 verified, verified.parsed = parsed → as4Key sha256 verified =
      dedupKey sha256 .as4 ((partyType n).getD []) id parsed.messageId
  recipient : ∃ n ∈ partyElements userMessage "To", ∃ id, partyText n = some id ∧
    partyType n = parsed.toPartyType ∧ id = parsed.toPartyId

theorem partyIdentity_iff_oneElement (userMessage : Node) (parsed : ParsedAs4UserMessage) :
    PartyIdentity userMessage parsed ↔
      OneElement userMessage "From" parsed.fromPartyType parsed.senderPartyId ∧
        OneElement userMessage "To" parsed.toPartyType parsed.toPartyId := by
  constructor
  · rintro ⟨⟨n, hn, _, htext, htype, rfl, -⟩, n', hn', _, htext', htype', rfl⟩
    exact ⟨⟨n, hn, htype, htext⟩, n', hn', htype', htext'⟩
  · rintro ⟨⟨n, hn, htype, htext⟩, n', hn', htype', htext'⟩
    refine ⟨⟨n, hn, _, htext, htype, rfl, ?_, ?_⟩, n', hn', _, htext', htype', rfl⟩
    · intro cfg
      rw [htype, AuthorizerConfig.registered]
    · rintro sha256 verified rfl
      rw [htype, as4Key]

/-- Both parties of an accepted message are one element each, exactly when the first
    `eb:PartyId` counts on both sides. -/
theorem partyIdentity_iff (session : SessionContext) (doc : Document)
    (parsed : ParsedAs4UserMessage) (h : parseAs4UserMessageFromDoc session doc = .ok parsed) :
    ∃ messaging ∈ messagingNodes doc, ∃ userMessage,
      firstUserMessage? messaging = some userMessage ∧
      (PartyIdentity userMessage parsed ↔
        FirstPartyCounts userMessage "From" ∧ FirstPartyCounts userMessage "To") := by
  obtain ⟨messaging, hmessaging, userMessage, huser, hfromType, htoType, hfromIds, htoIds, hfrom,
    hto⟩ := parseAs4UserMessageFromDoc_parties h
  refine ⟨messaging, hmessaging, userMessage, huser, ?_⟩
  rw [hfromIds] at hfrom
  rw [htoIds] at hto
  rw [partyIdentity_iff_oneElement, hfromType, htoType, ParsedAs4UserMessage.senderPartyId,
    ParsedAs4UserMessage.toPartyId, hfromIds, htoIds]
  exact and_congr (oneElement_iff hfrom) (oneElement_iff hto)

/-! ## A blank first element -/

instance (userMessage : Node) (direction : Str) :
    Decidable (FirstPartyCounts userMessage direction) :=
  inferInstanceAs (Decidable (∀ first ∈ (partyElements userMessage direction).head?, _))

/-- A message with these `eb:PartyId` elements of the sender and of the recipient. -/
def partiesEnvelope (senders recipients : List Tree) : List Tree :=
  soapEnvelope [
    element (.lit "eb") (.lit "Messaging") [(.lit "S", .lit "mustUnderstand", .lit "true")] [
      element (.lit "eb") (.lit "UserMessage") [] [
        element (.lit "eb") (.lit "MessageInfo") []
          [leaf (.lit "eb") (.lit "MessageId") (.lit "m@x")],
        element (.lit "eb") (.lit "PartyInfo") [] [
          element (.lit "eb") (.lit "From") [] senders,
          element (.lit "eb") (.lit "To") [] recipients],
        element (.lit "eb") (.lit "CollaborationInfo") []
          [leaf (.lit "eb") (.lit "Action") (.lit "a")]]],
    element (.lit "wsse") (.lit "Security") [] []]

/-- An `eb:PartyId` with a type. -/
def typedParty (type id : Str) : Tree := element (.lit "eb") (.lit "PartyId")
  [([], .lit "type", type)] [.text id]

/-- Both parties are named twice, under different types. -/
def severalPartiesDoc : Document where
  children := partiesEnvelope [typedParty "A" "s", typedParty "B" "s2"]
    [typedParty "A" "r", typedParty "C" " "]
  ok := by decide +kernel

/-- The parties of a message with several `eb:PartyId` each. -/
theorem partyIdentity_several :
    ∃ parsed, parseAs4UserMessageFromDoc signedSession severalPartiesDoc = .ok parsed ∧
      ∃ messaging ∈ messagingNodes severalPartiesDoc, ∃ userMessage,
        firstUserMessage? messaging = some userMessage ∧ PartyIdentity userMessage parsed := by
  have hok : (parseAs4UserMessageFromDoc signedSession severalPartiesDoc).toOption.isSome = true := by
    decide +kernel
  obtain ⟨parsed, hparsed⟩ := Option.isSome_iff_exists.mp hok
  rw [Except.toOption_eq_some] at hparsed
  obtain ⟨messaging, hmessaging, userMessage, huser, hiff⟩ :=
    partyIdentity_iff signedSession severalPartiesDoc parsed hparsed
  have hcounts : ∀ m ∈ messagingNodes severalPartiesDoc, ∀ u ∈ firstUserMessage? m,
      FirstPartyCounts u "From" ∧ FirstPartyCounts u "To" := by
    decide +kernel
  exact ⟨parsed, hparsed, messaging, hmessaging, userMessage, huser,
    hiff.mpr (hcounts messaging hmessaging userMessage huser)⟩

/-- The sender is named by a blank `eb:PartyId` of the type `A`, and by `s` of the type `B`. -/
def blankFirstDoc : Document where
  children := partiesEnvelope
    [element (.lit "eb") (.lit "PartyId") [([], .lit "type", .lit "A")] [],
      typedParty (.lit "B") (.lit "s")]
    [leaf (.lit "eb") (.lit "PartyId") (.lit "r")]
  ok := by decide +kernel

/-- Two partners with the id `s`, told apart by their types. -/
def twoPartners : AuthorizerConfig where
  partners := [((some "A", "s"), ⟨some (some "A", "s"), [[1]]⟩),
    ((some "B", "s"), ⟨some (some "B", "s"), [[2]]⟩)]
  rule := .registeredOnly
  subjectOf := fun _ => none

/-- The message is accepted and authorized as `s` of the type `A`, which no element of its header
    names. -/
theorem partyIdentity_blank_first :
    ∃ parsed, parseAs4UserMessageFromDoc signedSession blankFirstDoc = .ok parsed ∧
      (∃ authorization, authorize twoPartners parsed = .ok authorization ∧
        authorization.pins = [[1]]) ∧
      ∀ messaging ∈ messagingNodes blankFirstDoc, ∀ userMessage,
        firstUserMessage? messaging = some userMessage → ¬ PartyIdentity userMessage parsed := by
  have hok : (parseAs4UserMessageFromDoc signedSession blankFirstDoc).toOption.map
      (fun parsed => (parsed.fromPartyType, parsed.senderPartyId)) =
        some (some (.lit "A"), .lit "s") := by
    decide +kernel
  obtain ⟨parsed, hparsed, hpair⟩ := Option.map_eq_some_iff.mp hok
  rw [Except.toOption_eq_some] at hparsed
  obtain ⟨htype, hid⟩ := Prod.mk.inj hpair
  refine ⟨parsed, hparsed, ?_, ?_⟩
  · have hregistered : twoPartners.registered parsed =
        some ⟨some (some (.lit "A"), .lit "s"), [[1]]⟩ := by
      rw [AuthorizerConfig.registered, htype, hid]
      decide +kernel
    refine ⟨⟨[[1]], none⟩, ?_, rfl⟩
    unfold authorize
    rw [hregistered]
    exact Except.bind_eq_ok.mpr ⟨(), Except.rejectIf_eq_ok.mpr (by simp),
      Except.bind_eq_ok.mpr ⟨(), Except.rejectIf_eq_ok.mpr (by simp), rfl⟩⟩
  · intro messaging hmessaging userMessage huser hidentity
    obtain ⟨⟨n, hn, hntype, hntext⟩, -⟩ :=
      (partyIdentity_iff_oneElement userMessage parsed).mp hidentity
    rw [htype] at hntype
    rw [hid] at hntext
    have hnone : ∀ m ∈ messagingNodes blankFirstDoc, ∀ u ∈ firstUserMessage? m,
        ∀ n ∈ partyElements u "From",
          ¬ (partyType n = some (.lit "A") ∧ partyText n = some (.lit "s")) := by
      decide +kernel
    exact hnone messaging hmessaging userMessage huser n hn ⟨hntype, hntext⟩

end Asx
