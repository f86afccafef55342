import Asx.ForStd.Trim
import Asx.Native.Payload
import Asx.Xml.Nodes

/-!
# Header fields and the digested octets

What the receiver acts on are the texts and attributes of elements below the `eb:Messaging`;
what a signature covers is the canonical form of that element. The two differ at comments: the
canonical form leaves them out and joins the text on both sides, while `Node::text` stops at the
first child. The header is therefore not read as it is digested when a comment cuts a text short.

## Key results
- `standsIn_of_mem`: every element and every text below a canonicalized element stands in the
  canonical form
- `wholeTexts_iff`: the texts that are read are the digested ones exactly when no comment cuts
  one of them short
- `FieldsDigested.of_whole`, `PartsDigested.of_messaging`: where the fields of an accepted message
  and the properties of its parts come from
-/

namespace Asx

open Xml

/-! ## Canonical text -/

/-- The text with which element content starts, up to the first tag or processing instruction:
    comments are not written. -/
def leadingText : List Tree → Str
  | .text s :: ts => s ++ leadingText ts
  | .comment _ :: ts => leadingText ts
  | _ => []

/-- A node stands in this canonical form: an element with its start tag, all its attributes and
    its text up to the next tag, a text as it is escaped. -/
def StandsIn (profile : WsSecCanonicalizationProfile) (override : Option (List Str)) (out : Str)
    (n : Node) : Prop :=
  match n.tree with
  | .element q _ as cs => ∃ parentNs apex,
      (writeStartTag profile override parentNs apex n.chain q as).2.2 ++
        escapeText (leadingText cs) ++ ['<'] <:+: out
  | .text s => escapeText s <:+: out
  | _ => True

section CanonicalText

variable {profile : WsSecCanonicalizationProfile} {override : Option (List Str)}

/-- The canonical form of a list of children, cut before its first tag. -/
theorem serializeChildren_leadingText (hcomments : profile.includeComments = false)
    {parentNs : NsMap} {depth i : Nat} {up wup : List Tree} {path : List Nat} {cs : List Tree}
    {out : Str} (hwf : WellFormedList wup cs)
    (h : serializeChildren profile override none parentNs depth up path i cs = some out) :
    ∃ rest, out = escapeText (leadingText cs) ++ rest ∧
      (rest = [] ∨ ∃ more, rest = '<' :: more) := by
  induction cs generalizing i out with
  | nil =>
    rw [serializeChildren, Option.some.injEq] at h
    exact ⟨[], by rw [← h]; rfl, .inl rfl⟩
  | cons t ts ih =>
    rw [serializeChildren] at h
    split at h
    · cases h
    · rename_i first hfirst
      rw [Option.map_eq_some_iff] at h
      obtain ⟨others, hothers, rfl⟩ := h
      rw [WellFormedList] at hwf
      cases t with
      | root =>
        rw [WellFormed] at hwf
        exact hwf.1.elim
      | text s =>
        obtain ⟨rest, rfl, hrest⟩ := ih hwf.2 hothers
        rw [serializeSubtree, if_neg (by simp), Option.some.injEq] at hfirst
        refine ⟨rest, ?_, hrest⟩
        rw [← hfirst, leadingText, escapeText, escapeText, escapeText, List.flatMap_append,
          List.append_assoc]
      | comment s =>
        obtain ⟨rest, rfl, hrest⟩ := ih hwf.2 hothers
        rw [serializeSubtree, if_neg (by simp), writeComment, if_neg (by simp [hcomments]),
          Option.some.injEq] at hfirst
        exact ⟨rest, by rw [← hfirst, leadingText, List.nil_append], hrest⟩
      | pi target data =>
        -- the text ends where the instruction starts
        rw [serializeSubtree, if_neg (by simp), Option.some.injEq, writePi.eq_def] at hfirst
        exact ⟨first ++ others, rfl, .inr ⟨_, by rw [← hfirst]; rfl⟩⟩
      | element q ds as cs =>
        rw [serializeSubtree, if_neg (by simp)] at hfirst
        split at hfirst
        · cases hfirst
        · rw [Option.map_eq_some_iff] at hfirst
          obtain ⟨content, -, rfl⟩ := hfirst
          exact ⟨_, rfl, .inr ⟨_, rfl⟩⟩

/-- The canonical form of a node stands in the canonical form of every node above it. -/
private theorem serialize_mem_aux :
    (∀ (t : Tree) (parentNs : NsMap) (depth : Nat) (up : List Tree) (path : List Nat) (out : Str),
      serializeSubtree profile override none parentNs depth up path t = some out →
      ∀ n ∈ descendantsOf up path t, ∃ parentNs' depth' out',
        serializeSubtree profile override none parentNs' depth' n.up n.path n.tree = some out' ∧
          out' <:+: out) ∧
    (∀ (ts : List Tree) (parentNs : NsMap) (depth : Nat) (up : List Tree) (path : List Nat)
      (i : Nat) (out : Str),
      serializeChildren profile override none parentNs depth up path i ts = some out →
      ∀ n ∈ descendantsOfList up path i ts, ∃ parentNs' depth' out',
        serializeSubtree profile override none parentNs' depth' n.up n.path n.tree = some out' ∧
          out' <:+: out) := by
  apply Tree.induction
  case root =>
    intro cs ih parentNs depth up path out h n hn
    obtain rfl | hn := List.mem_cons.mp hn
    · exact ⟨parentNs, depth, out, h, List.infix_rfl⟩
    · rw [serializeSubtree, if_neg (by simp)] at h
      exact ih _ _ _ _ _ _ h n hn
  case element =>
    intro q ds as cs ih parentNs depth up path out h n hn
    obtain rfl | hn := List.mem_cons.mp hn
    · exact ⟨parentNs, depth, out, h, List.infix_rfl⟩
    · rw [serializeSubtree, if_neg (by simp)] at h
      split at h
      · cases h
      · rw [Option.map_eq_some_iff] at h
        obtain ⟨content, hcontent, rfl⟩ := h
        obtain ⟨parentNs', depth', out', hout', hinfix⟩ := ih _ _ _ _ _ _ hcontent n hn
        -- the content stands between the start tag and the end tag
        exact ⟨parentNs', depth', out', hout', hinfix.trans ⟨_, _, rfl⟩⟩
  case text =>
    intro s parentNs depth up path out h n hn
    obtain rfl := List.mem_singleton.mp hn
    exact ⟨parentNs, depth, out, h, List.infix_rfl⟩
  case comment =>
    intro s parentNs depth up path out h n hn
    obtain rfl := List.mem_singleton.mp hn
    exact ⟨parentNs, depth, out, h, List.infix_rfl⟩
  case pi =>
    intro target data parentNs depth up path out h n hn
    obtain rfl := List.mem_singleton.mp hn
    exact ⟨parentNs, depth, out, h, List.infix_rfl⟩
  case nil =>
    intro parentNs depth up path i out _ n hn
    cases hn
  case cons =>
    intro t ts iht ihts parentNs depth up path i out h n hn
    rw [serializeChildren] at h
    split at h
    · cases h
    · rename_i first hfirst
      rw [Option.map_eq_some_iff] at h
      obtain ⟨others, hothers, rfl⟩ := h
      obtain hn | hn := List.mem_append.mp hn
      · obtain ⟨parentNs', depth', out', hout', hinfix⟩ := iht _ _ _ _ _ hfirst n hn
        exact ⟨parentNs', depth', out', hout', hinfix.trans (List.prefix_append _ _).isInfix⟩
      · obtain ⟨parentNs', depth', out', hout', hinfix⟩ := ihts _ _ _ _ _ _ hothers n hn
        exact ⟨parentNs', depth', out', hout', hinfix.trans (List.suffix_append _ _).isInfix⟩

/-- Every element and every text below a canonicalized node of a document stands in its canonical
    form without comments. -/
theorem standsIn_of_mem (hcomments : profile.includeComments = false) {doc : Document}
    {top n : Node} {out : Str} (htop : top ∈ doc.descendants)
    (h : trySerializeNodeWithInclusiveNs profile override top = some out)
    (hn : n ∈ top.descendants) : StandsIn profile override out n := by
  obtain ⟨parentNs, depth, out', hout', hinfix⟩ := serialize_mem_aux.1 _ _ _ _ _ _ h n hn
  have hchain := Document.chainOk_of_mem (mem_descendants_trans htop hn)
  obtain ⟨tree, up, path⟩ := n
  unfold StandsIn
  cases tree with
  | root => trivial
  | comment => trivial
  | pi => trivial
  | text s =>
    rw [serializeSubtree, if_neg (by simp), Option.some.injEq] at hout'
    show escapeText s <:+: out
    rw [hout']
    exact hinfix
  | element q ds as cs =>
    rw [serializeSubtree, if_neg (by simp)] at hout'
    split at hout'
    · cases hout'
    · rw [Option.map_eq_some_iff] at hout'
      obtain ⟨content, hcontent, rfl⟩ := hout'
      obtain ⟨cs', hroot⟩ | hwf := hchain.head
      · cases hroot
      · rw [WellFormed] at hwf
        obtain ⟨rest, rfl, hrest⟩ := serializeChildren_leadingText hcomments hwf.2 hcontent
        refine ⟨parentNs, depth == 0, List.IsInfix.trans (List.IsPrefix.isInfix ?_) hinfix⟩
        rw [← List.append_assoc (writeStartTag _ _ _ _ _ _ _).2.2, List.append_assoc _ rest]
        refine (List.prefix_append_right_inj _).mpr ?_
        -- what follows the text is a tag: of the content, or the end tag
        obtain rfl | ⟨more, rfl⟩ := hrest
        · exact ⟨_, rfl⟩
        · exact ⟨_, rfl⟩

end CanonicalText

/-! ## Texts that are read -/

/-- The element's first child is a text, and not a blank one. -/
def hasText (n : Node) : Bool := Str.trim (n.text?.getD []) ≠ []

/-- The element from which a field of the message is read. -/
def fieldElement? (userMessage : Node) (loc : Str) : Option Node :=
  userMessage.descendants.find? fun n => n.hasTagName Ns.ebms3 loc && hasText n

/-- The elements from which the ids of a party are read. -/
def partyIdElements (userMessage : Node) (direction : Str) : List Node :=
  userMessage.descendants.filter fun n =>
    n.hasTagName Ns.ebms3 "PartyId" && within n direction && hasText n

/-- The text of an element as its digest covers it. -/
def digestedText (n : Node) : Str := Str.trim (leadingText n.tree.children)

/-- The fields that are the text of an element. -/
def textFields : List Str :=
  ["MessageId", "RefToMessageId", "Action", "Service", "ConversationId", "Timestamp"]

/-- The two parties. -/
def directions : List Str := ["From", "To"]

/-- Every text that the parser reads of the user message is the text as it is digested. -/
structure WholeTexts (userMessage : Node) : Prop where
  field : ∀ loc ∈ textFields,
    descendantText userMessage Ns.ebms3 loc = (fieldElement? userMessage loc).map digestedText
  party : ∀ direction ∈ directions,
    partyIdsFor userMessage direction = (partyIdElements userMessage direction).map digestedText

/-- No text other than white space follows the element's first child before the next tag: a
    comment does not cut the text short. -/
def ReadsWhole (n : Node) : Prop :=
  ∀ c ∈ leadingText n.tree.children.tail, Str.isWhitespace c = true

instance (n : Node) : Decidable (ReadsWhole n) :=
  List.decidableBAll (fun c => Str.isWhitespace c = true) (leadingText n.tree.children.tail)

/-- None of the elements that a text is read from is cut short by a comment. -/
def NoneCut (userMessage : Node) : Prop :=
  (∀ loc ∈ textFields, ∀ n ∈ fieldElement? userMessage loc, ReadsWhole n) ∧
    ∀ direction ∈ directions, ∀ n ∈ partyIdElements userMessage direction, ReadsWhole n

instance (userMessage : Node) : Decidable (NoneCut userMessage) :=
  inferInstanceAs (Decidable ((∀ loc ∈ textFields, _) ∧ ∀ direction ∈ directions, _))

/-- Of the texts of some elements, those that are not blank are read. -/
theorem readTexts_eq (elements : List Node) :
    ((elements.filterMap Node.text?).map Str.trim).filter (· ≠ []) =
      (elements.filter hasText).map fun n => Str.trim (n.text?.getD []) := by
  induction elements with
  | nil => rfl
  | cons n ns ih =>
    cases htext : n.text? with
    | none =>
      have hn : hasText n = false := by rw [hasText, htext]; rfl
      rw [List.filterMap_cons, htext, List.filter_cons_of_neg (by simp [hn])]
      exact ih
    | some s =>
      rw [List.filterMap_cons, htext, List.map_cons]
      by_cases hs : Str.trim s = []
      · have hn : hasText n = false := by simp [hasText, htext, hs]
        rw [List.filter_cons_of_neg (by simp [hs]), List.filter_cons_of_neg (by simp [hn])]
        exact ih
      · have hn : hasText n = true := by simp [hasText, htext, hs]
        rw [List.filter_cons_of_pos (by simp [hs]), List.filter_cons_of_pos hn, List.map_cons, ih,
          htext, Option.getD_some]

/-- The parser reads a field from the first element of its name that has text. -/
theorem descendantText_eq (userMessage : Node) (loc : Str) :
    descendantText userMessage Ns.ebms3 loc =
      (fieldElement? userMessage loc).map fun n => Str.trim (n.text?.getD []) := by
  rw [descendantText, descendantTexts, readTexts_eq, List.head?_map, List.filter_filter,
    List.head?_filter, fieldElement?]
  simp only [Bool.and_comm]

/-- The parser reads the ids of a party from the elements of its direction that have text. -/
theorem partyIdsFor_eq_map (userMessage : Node) (direction : Str) :
    partyIdsFor userMessage direction =
      (partyIdElements userMessage direction).map fun n => Str.trim (n.text?.getD []) := by
  rw [partyIdsFor, readTexts_eq, List.filter_filter, partyIdElements]
  simp only [Bool.and_comm]

/-- The text read from an element is the digested text exactly when no comment cuts it short. -/
theorem readText_eq_iff {n : Node} (helement : n.isElement = true) (h : hasText n = true) :
    Str.trim (n.text?.getD []) = digestedText n ↔ ReadsWhole n := by
  obtain ⟨tree, up, path⟩ := n
  cases tree with
  | element q ds as cs =>
    cases cs with
    | nil => cases h
    | cons t ts =>
      cases t with
      | text s =>
        have hs : Str.trim s ≠ [] := of_decide_eq_true h
        show Str.trim s = Str.trim (s ++ leadingText ts) ↔ _
        rw [eq_comm, Str.trim_append_eq_iff hs]
        rfl
      | root | element | comment | pi => cases h
  | root | text | comment | pi => cases helement

/-- **Texts as digested**: what the parser reads is what the digest covers exactly when no comment
    cuts a text short. -/
theorem wholeTexts_iff (userMessage : Node) : WholeTexts userMessage ↔ NoneCut userMessage := by
  have hfield : ∀ loc, descendantText userMessage Ns.ebms3 loc =
      (fieldElement? userMessage loc).map digestedText ↔
        ∀ n ∈ fieldElement? userMessage loc, ReadsWhole n := by
    intro loc
    rw [descendantText_eq]
    cases hn : fieldElement? userMessage loc with
    | none => simp
    | some n =>
      have hfound := List.find?_some hn
      rw [Bool.and_eq_true] at hfound
      simp only [Option.map_some, Option.some.injEq, Option.mem_def, forall_eq']
      exact readText_eq_iff (isElement_of_hasTagName hfound.1) hfound.2
  have hparty : ∀ direction, partyIdsFor userMessage direction =
      (partyIdElements userMessage direction).map digestedText ↔
        ∀ n ∈ partyIdElements userMessage direction, ReadsWhole n := by
    intro direction
    rw [partyIdsFor_eq_map, List.map_inj_left]
    refine forall₂_congr fun n hn => ?_
    rw [partyIdElements, List.mem_filter, Bool.and_eq_true, Bool.and_eq_true] at hn
    exact readText_eq_iff (isElement_of_hasTagName hn.2.1.1) hn.2.2
  constructor
  · intro h
    exact ⟨fun loc hloc => (hfield loc).mp (h.field loc hloc),
      fun direction hdirection => (hparty direction).mp (h.party direction hdirection)⟩
  · intro h
    exact ⟨fun loc hloc => (hfield loc).mpr (h.1 loc hloc),
      fun direction hdirection => (hparty direction).mpr (h.2 direction hdirection)⟩

/-! ## Attributes and properties -/

/-- The texts of a property, joined. -/
def propertyText (n : Node) : Str := ((n.children.filter (·.tree.isText)).filterMap Node.text?).flatten

/-- The value stands in an `eb:Property` of this name below the node. -/
def IsPropertyBelow (top : Node) (name value : Str) (within : Node → Bool) : Prop :=
  ∃ n ∈ top.descendants, n.hasTagName Ns.ebms3 "Property" = true ∧ within n = true ∧
    n.attribute? "name" = some name ∧ value = Str.trim (propertyText n)

/-- The type stands on an `eb:PartyId` of this direction below the user message. -/
def IsPartyType (userMessage : Node) (direction type : Str) : Prop :=
  ∃ n ∈ userMessage.descendants, n.hasTagName Ns.ebms3 "PartyId" = true ∧
    within n direction = true ∧ ∃ value ∈ n.attribute? "type", type = Str.trim value

/-- Every field of the message is the digested text, an attribute or a property of the user
    message or of an element below it. -/
structure FieldsDigested (userMessage : Node) (message : ParsedAs4UserMessage) : Prop where
  messageId : (fieldElement? userMessage "MessageId").map digestedText = some message.messageId
  refToMessageId :
    (fieldElement? userMessage "RefToMessageId").map digestedText = message.refToMessageId
  action : (fieldElement? userMessage "Action").map digestedText = some message.action
  service : (fieldElement? userMessage "Service").map digestedText = message.service
  conversationId :
    (fieldElement? userMessage "ConversationId").map digestedText = message.conversationId
  timestamp : (fieldElement? userMessage "Timestamp").map digestedText = message.timestamp
  fromPartyIds : message.fromPartyIds = (partyIdElements userMessage "From").map digestedText
  toPartyIds : message.toPartyIds = (partyIdElements userMessage "To").map digestedText
  fromPartyType : ∀ type ∈ message.fromPartyType, IsPartyType userMessage "From" type
  toPartyType : ∀ type ∈ message.toPartyType, IsPartyType userMessage "To" type
  mpc : ∀ mpc ∈ message.mpc, ∃ value ∈ userMessage.attribute? "mpc", mpc = Str.trim value
  originalSender : ∀ value ∈ message.originalSender,
    IsPropertyBelow userMessage "originalSender" value (within · "MessageProperties")
  finalRecipient : ∀ value ∈ message.finalRecipient,
    IsPropertyBelow userMessage "finalRecipient" value (within · "MessageProperties")
  trackingIdentifier : ∀ value ∈ message.trackingIdentifier,
    IsPropertyBelow userMessage "trackingIdentifier" value (within · "MessageProperties")

/-- The value of a property is its text. -/
theorem propertyValueFromNode_ok {n : Node} {session : SessionContext} {stage value : Str}
    (h : propertyValueFromNode n session stage = .ok (some value)) :
    value = Str.trim (propertyText n) := by
  unfold propertyValueFromNode at h
  dsimp only at h
  split at h
  · rw [Except.ok.injEq, Option.some.injEq] at h
    exact h.symm
  · split at h
    · cases h
    · cases h

/-- A four-corner property stands in an `eb:Property` of its name. -/
theorem fourCornerProperty_ok {session : SessionContext} {userMessage : Node} {name value : Str}
    (h : fourCornerProperty session userMessage name = .ok (some value)) :
    IsPropertyBelow userMessage name value (within · "MessageProperties") := by
  simp only [fourCornerProperty, atMostOne, messagePropertyValues, Except.bind_eq_ok,
    Except.pure_eq_ok, Except.mapM_eq_ok] at h
  obtain ⟨_, ⟨values, hvalues, rfl⟩, -, -, hhead⟩ := h
  have hmem : some value ∈ values := by
    simpa using List.mem_of_head? hhead
  obtain ⟨n, hn, hvalue⟩ := hvalues.exists_left hmem
  rw [List.mem_filter, Bool.and_eq_true, Bool.and_eq_true] at hn
  obtain ⟨hdescendant, ⟨htag, hname⟩, hwithin⟩ := hn
  exact ⟨n, hdescendant, htag, hwithin, by simpa using hname, propertyValueFromNode_ok hvalue⟩

/-- The type of a party stands on an `eb:PartyId` of its direction. -/
theorem firstPartyType_mem {userMessage : Node} {direction type : Str}
    (h : firstPartyType userMessage direction = some type) :
    IsPartyType userMessage direction type := by
  rw [firstPartyType, Option.map_eq_some_iff] at h
  obtain ⟨value, hvalue, rfl⟩ := h
  obtain ⟨n, hn, hattr⟩ := Option.bind_eq_some_iff.mp hvalue
  have hfound := List.find?_some hn
  rw [Bool.and_eq_true] at hfound
  exact ⟨n, List.mem_of_find?_eq_some hn, hfound.1, hfound.2, value, hattr, rfl⟩

/-- A field that occurs once is the first of its texts. -/
theorem atMostOne_ok {session : SessionContext} {field : Str} {values : List Str}
    {value : Option Str} (h : atMostOne session field values = .ok value) :
    values.head? = value := by
  simp only [atMostOne, Except.bind_eq_ok, Except.pure_eq_ok] at h
  obtain ⟨-, -, h⟩ := h
  exact h

/-- The fields of an accepted message come from the digested octets of its user message, when no
    comment cuts a text of it short. -/
theorem FieldsDigested.of_whole {session : SessionContext} {state : As4UserMessageParseState}
    {userMessage : Node} {message : ParsedAs4UserMessage} (hwhole : WholeTexts userMessage)
    (h : (readUserMessage session state userMessage >>= checkUserMessageState session) =
      .ok message) : FieldsDigested userMessage message := by
  obtain ⟨state', hstate, hcheck⟩ := Except.bind_eq_ok.mp h
  simp only [readUserMessage, Except.bind_eq_ok, Except.pure_eq_ok] at hstate
  obtain ⟨messageId, hmessageId, action, haction, conversationId, hconversationId, sender, hsender,
    recipient, hrecipient, tracking, htracking, rfl⟩ := hstate
  simp only [checkUserMessageState, Except.bind_eq_ok, Except.okOr_eq_ok, Except.pure_eq_ok]
    at hcheck
  obtain ⟨-, -, -, -, -, -, -, -, id, hid, act, hact, -, -, -, -, -, -, -, -, -, -, -, -, rfl⟩ :=
    hcheck
  -- the parser reads the first text child, the digest covers all of them
  have hfield : ∀ loc ∈ textFields, (fieldElement? userMessage loc).map digestedText =
      descendantText userMessage Ns.ebms3 loc := fun loc hloc => (hwhole.field loc hloc).symm
  constructor
  case messageId =>
    rw [hfield _ (by decide), ← hid]
    exact atMostOne_ok hmessageId
  case action =>
    rw [hfield _ (by decide), ← hact]
    exact atMostOne_ok haction
  case conversationId =>
    rw [hfield _ (by decide)]
    exact atMostOne_ok hconversationId
  case refToMessageId => exact hfield _ (by decide)
  case service => exact hfield _ (by decide)
  case timestamp => exact hfield _ (by decide)
  case fromPartyIds => exact hwhole.party _ (by decide)
  case toPartyIds => exact hwhole.party _ (by decide)
  case fromPartyType => exact fun type htype => firstPartyType_mem htype
  case toPartyType => exact fun type htype => firstPartyType_mem htype
  case mpc =>
    intro mpc hmpc
    obtain ⟨value, hvalue, rfl⟩ := Option.map_eq_some_iff.mp (Option.filter_eq_some_iff.mp hmpc).1
    exact ⟨value, hvalue, rfl⟩
  case originalSender =>
    rintro value rfl
    exact fourCornerProperty_ok hsender
  case finalRecipient =>
    rintro value rfl
    exact fourCornerProperty_ok hrecipient
  case trackingIdentifier =>
    rintro value rfl
    exact fourCornerProperty_ok htracking

/-! ## Parts -/

/-- The `eb:PartInfo` declares the part with this Content-ID. -/
def DeclaresPart (messaging partInfo : Node) (cid : Str) : Prop :=
  partInfo ∈ messaging.descendants ∧ isEb partInfo "PartInfo" = true ∧
    (partInfo.attribute? "href").map normalizeCid = some cid

/-- The property is one of an `eb:PartInfo` that declares the part. -/
def IsPartProperty (messaging : Node) (name cid value : Str) : Prop :=
  ∃ partInfo, DeclaresPart messaging partInfo cid ∧
    IsPropertyBelow partInfo name value fun n => n.parent?.any (isEb · "PartProperties")

/-- The parts of the message are declared in the header, and their properties stand there. -/
structure PartsDigested (session : SessionContext) (doc : Document) (messageId : Str)
    (messaging : Node) : Prop where
  declared : ∀ declared, declaredParts session doc messageId = .ok declared →
    ∀ cid ∈ declared, ∃ partInfo, DeclaresPart messaging partInfo cid
  compression : ∀ properties, partProperties session doc messageId = .ok properties →
    ∀ cid value, properties.compression.get cid = some value →
      IsPartProperty messaging "CompressionType" cid value
  mimeType : ∀ properties, partProperties session doc messageId = .ok properties →
    ∀ cid value, properties.mimeTypes.get cid = some value →
      IsPartProperty messaging "MimeType" cid value

/-- The slots of an `eb:PartInfo` hold properties of its own. -/
theorem propertySlots_ok {session : SessionContext} {messageId cid : Str} {partInfo : Node}
    {slots : PropertySlots} (h : propertySlots session messageId cid partInfo = .ok slots) :
    (∀ value, slots.compression = some (some value) →
      IsPropertyBelow partInfo "CompressionType" value fun n =>
        n.parent?.any (isEb · "PartProperties")) ∧
    ∀ value, slots.mimeType = some (some value) →
      IsPropertyBelow partInfo "MimeType" value fun n =>
        n.parent?.any (isEb · "PartProperties") := by
  refine Except.foldlM_invariant (P := fun slots : PropertySlots =>
    (∀ value, slots.compression = some (some value) →
      IsPropertyBelow partInfo "CompressionType" value fun n =>
        n.parent?.any (isEb · "PartProperties")) ∧
    ∀ value, slots.mimeType = some (some value) →
      IsPropertyBelow partInfo "MimeType" value fun n =>
        n.parent?.any (isEb · "PartProperties")) h ?_ ?_
  · exact ⟨fun value hv => (by cases hv), fun value hv => (by cases hv)⟩
  · intro property hproperty slots slots' hslots hstep
    obtain ⟨hdescendant, htag⟩ := List.mem_filter.mp hproperty
    simp only [addProperty, Except.bind_eq_ok, Except.rejectIf_eq_ok, not_not] at hstep
    obtain ⟨-, hparent, hstep⟩ := hstep
    split at hstep
    · rename_i hname
      simp only [Except.bind_eq_ok, Except.pure_eq_ok] at hstep
      obtain ⟨value, hvalue, -, -, rfl⟩ := hstep
      refine ⟨fun value' hv => ?_, hslots.2⟩
      rw [Option.some.injEq] at hv
      rw [hv] at hvalue
      exact ⟨property, hdescendant, htag, hparent, hname, propertyValueFromNode_ok hvalue⟩
    · split at hstep
      · rename_i hname
        simp only [Except.bind_eq_ok, Except.pure_eq_ok] at hstep
        obtain ⟨value, hvalue, -, -, rfl⟩ := hstep
        refine ⟨hslots.1, fun value' hv => ?_⟩
        rw [Option.some.injEq] at hv
        rw [hv] at hvalue
        exact ⟨property, hdescendant, htag, hparent, hname, propertyValueFromNode_ok hvalue⟩
      · rw [Except.pure_eq_ok] at hstep
        exact hstep ▸ hslots

private theorem get_insertSome {m : OrdMap Str Str} {key k value : Str} {o : Option Str}
    (h : (insertSome m key o).get k = some value) :
    (key = k ∧ o = some value) ∨ m.get k = some value := by
  cases o with
  | none => exact .inr h
  | some v =>
    rw [insertSome, OrdMap.get_insert] at h
    split at h
    · rename_i hk
      exact .inl ⟨hk.symm, h⟩
    · exact .inr h

/-- What is read of the parts of a message with one header is declared there. -/
theorem PartsDigested.of_messaging {session : SessionContext} {doc : Document} {messageId : Str}
    {messaging : Node} (hone : messagingNodes doc = [messaging]) :
    PartsDigested session doc messageId messaging := by
  have hmessaging : theMessaging session doc messageId = .ok messaging := by
    rw [theMessaging, hone]
  have hproperties : ∀ properties, partProperties session doc messageId = .ok properties →
      (∀ cid value, properties.compression.get cid = some value →
        IsPartProperty messaging "CompressionType" cid value) ∧
      ∀ cid value, properties.mimeTypes.get cid = some value →
        IsPartProperty messaging "MimeType" cid value := by
    intro properties h
    rw [partProperties, hmessaging] at h
    refine Except.foldlM_invariant (P := fun properties : PartProperties =>
      (∀ cid value, properties.compression.get cid = some value →
        IsPartProperty messaging "CompressionType" cid value) ∧
      ∀ cid value, properties.mimeTypes.get cid = some value →
        IsPartProperty messaging "MimeType" cid value) h ?_ ?_
    · exact ⟨fun cid value hv => (by cases hv), fun cid value hv => (by cases hv)⟩
    · intro partInfo hpart acc acc' hacc hstep
      obtain ⟨hdescendant, htag⟩ := List.mem_filter.mp hpart
      unfold addPartInfo at hstep
      split at hstep
      · rw [Except.ok.injEq] at hstep
        exact hstep ▸ hacc
      · rename_i href hhref
        simp only [Except.bind_eq_ok, Except.pure_eq_ok] at hstep
        obtain ⟨slots, hslots, rfl⟩ := hstep
        have hdeclares : DeclaresPart messaging partInfo (normalizeCid href) :=
          ⟨hdescendant, htag, by rw [hhref, Option.map_some]⟩
        obtain ⟨hcompression, hmime⟩ := propertySlots_ok hslots
        refine ⟨fun cid value hv => ?_, fun cid value hv => ?_⟩
        · obtain ⟨rfl, hslot⟩ | hold := get_insertSome hv
          · exact ⟨partInfo, hdeclares, hcompression value (Option.join_eq_some_iff.mp hslot)⟩
          · exact hacc.1 cid value hold
        · obtain ⟨rfl, hslot⟩ | hold := get_insertSome hv
          · exact ⟨partInfo, hdeclares, hmime value (Option.join_eq_some_iff.mp hslot)⟩
          · exact hacc.2 cid value hold
  constructor
  case compression => exact fun properties h => (hproperties properties h).1
  case mimeType => exact fun properties h => (hproperties properties h).2
  case declared =>
    intro declared h
    simp only [declaredParts, hmessaging, Except.bind_eq_ok, Except.ok.injEq, Except.pure_eq_ok]
      at h
    obtain ⟨_, rfl, declared', hfold, -, -, rfl⟩ := h
    refine Except.foldlM_invariant (P := fun declared : List Str =>
      ∀ cid ∈ declared, ∃ partInfo, DeclaresPart messaging partInfo cid) hfold (by simp) ?_
    intro partInfo hpart acc acc' hacc hstep cid hcid
    simp only [declarePart, Except.bind_eq_ok, Except.rejectIf_eq_ok, Except.pure_eq_ok] at hstep
    obtain ⟨-, hscheme, -, -, rfl⟩ := hstep
    obtain hcid | hcid := List.mem_append.mp hcid
    · exact hacc cid hcid
    · rw [List.mem_singleton] at hcid
      obtain ⟨hmem, -⟩ := List.mem_filter.mp hpart
      obtain ⟨hdescendant, htag⟩ := List.mem_filter.mp hmem
      refine ⟨partInfo, hdescendant, htag, ?_⟩
      -- a part without `href` has no `cid:` scheme and is refused
      cases hhref : partInfo.attribute? "href" with
      | none =>
        rw [hhref] at hscheme
        exact absurd (by decide) hscheme
      | some href => rw [hcid, hhref, Option.map_some, Option.getD_some]

end Asx
