import Asx.Native.Signals
import Asx.Spec.C14nOnto
import Asx.Spec.XmlOutPieces
import Asx.Xml.Named

/-!
# The frame of a signal

`write_signal` puts a body into an envelope, with or without a slot for the `wsse:Security`. The
text parses as the tree of the envelope, in which the signal parser finds the message info and
the body by name.

Key results:
- `parse_writeSignal`, `parse_filledSignal`: the text of a signal is the tree that its calls describe
- `parse_frame`: what is read of a signal is its message info and what is read of its body
-/

namespace Asx

open Xml XmlCall

/-! ## The frame -/

/-- A name of the ebMS3 header. -/
def ebName (loc : Str) : QName := ⟨.lit "eb", loc⟩

/-- An element of the ebMS3 header with nothing but text. -/
def ebLeaf (loc value : Str) : Markup := .element (ebName loc) [] [.text value]

namespace SignalEnvelope

/-- `eb:MessageInfo`, as it is written. -/
def messageInfo (spec : SignalEnvelope) : Markup :=
  .element (ebName (.lit "MessageInfo")) []
    ([ebLeaf (.lit "Timestamp") spec.timestamp, ebLeaf (.lit "MessageId") spec.messageId] ++
      spec.refToMessageId.toList.map (ebLeaf (.lit "RefToMessageId")))

/-- `eb:SignalMessage` with a body. -/
def signalMessage (spec : SignalEnvelope) (body : List Markup) : Markup :=
  .element (ebName (.lit "SignalMessage")) [] (spec.messageInfo :: body)

/-- The attribute `wsu:Id`, if there is one. -/
def wsuIdItem (id : Option Str) : List Attr :=
  id.toList.map fun v => ⟨⟨.lit "wsu", .lit "Id"⟩, v⟩

/-- `eb:Messaging` around it. -/
def messaging (spec : SignalEnvelope) (body : List Markup) : Markup :=
  .element (ebName (.lit "Messaging"))
    (⟨⟨.lit "S12", .lit "mustUnderstand"⟩, .lit "true"⟩ :: wsuIdItem spec.messagingId)
    [spec.signalMessage body]

/-- The declarations of the envelope. -/
def envelopeItems (spec : SignalEnvelope) : List Attr :=
  [declAttr (.lit "S12", Ns.soap12), declAttr (.lit "eb", Ns.ebms3)] ++
    spec.namespaces.map declAttr

/-- The envelope; `security` is what stands in front of `eb:Messaging`. -/
def envelope (spec : SignalEnvelope) (security body : List Markup) : Markup :=
  .element ⟨.lit "S12", .lit "Envelope"⟩ spec.envelopeItems
    [.element ⟨.lit "S12", .lit "Header"⟩ [] (security ++ [spec.messaging body]),
      .element ⟨.lit "S12", .lit "Body"⟩ (wsuIdItem spec.bodyId) []]

/-- The calls for `eb:MessageInfo` write it. -/
theorem writes_messageInfo (spec : SignalEnvelope) :
    Writes spec.messageInfoCalls [spec.messageInfo] := by
  intro q items content rest nodes
  have hrefTo : Writes
      (spec.refToMessageId.toList.map fun refTo =>
        .leaf (.lit "eb:RefToMessageId") refTo "eb:RefToMessageId")
      (spec.refToMessageId.toList.map (ebLeaf (.lit "RefToMessageId"))) :=
    writes_optional (fun v => writes_leaf _ v _) _
  simp only [messageInfoCalls, List.cons_append, List.nil_append, Description.run_start,
    Description.run_leaf, hrefTo.run, Description.run_endElement, Description.run_nil]
  rfl

/-- The calls up to the slot leave header and envelope open. -/
theorem run_headerCalls (spec : SignalEnvelope) :
    Description.empty.run spec.headerCalls =
      some ⟨[⟨⟨.lit "S12", .lit "Header"⟩, [], []⟩,
        ⟨⟨.lit "S12", .lit "Envelope"⟩, spec.envelopeItems, []⟩], []⟩ := by
  simp only [headerCalls, Description.empty, List.cons_append, List.nil_append,
    Description.run_start, Description.run_ns, (gives_namespaces spec.namespaces).run,
    Description.run_nil]
  rfl

/-- The calls behind the slot write the message and close the envelope. -/
theorem run_messageCalls (spec : SignalEnvelope) {calls : List XmlCall} {body : List Markup}
    (hbody : Writes calls body) (security : List Markup) :
    Description.run ⟨[⟨⟨.lit "S12", .lit "Header"⟩, [], security⟩,
        ⟨⟨.lit "S12", .lit "Envelope"⟩, spec.envelopeItems, []⟩], []⟩ (spec.messageCalls calls) =
      some ⟨[], [spec.envelope security body]⟩ := by
  have hid := gives_optionalAttr (.lit "wsu:Id") "wsu:Id"
  simp only [messageCalls, List.cons_append, List.nil_append, List.append_assoc,
    Description.run_start, Description.run_attr, (hid _).run, spec.writes_messageInfo.run,
    hbody.run, Description.run_endElement, Description.run_endElement_last, Description.run_nil]
  rfl

end SignalEnvelope

namespace SignalEnvelope

/-- The namespaces of a signal are legal and declared once. -/
structure Sound (spec : SignalEnvelope) : Prop where
  legal : ∀ n ∈ spec.namespaces, DeclOk n
  distinct : ((.lit "S12" : Str) :: .lit "eb" :: spec.namespaces.map Prod.fst).Nodup

theorem legal_messageInfoCalls (spec : SignalEnvelope) :
    spec.messageInfoCalls.all legalCall = true := by
  cases h : spec.refToMessageId <;> simp only [messageInfoCalls, h] <;> rfl

/-- The calls up to the slot are legal where the namespaces are. -/
theorem legal_headerCalls {spec : SignalEnvelope} (h : spec.Sound) :
    ∀ c ∈ spec.headerCalls, c.Legal := by
  refine legal_of_all ?_
  rw [headerCalls, List.all_append, List.all_append, Bool.and_eq_true, Bool.and_eq_true]
  refine ⟨⟨rfl, ?_⟩, rfl⟩
  rw [List.all_map, List.all_eq_true]
  exact fun n hn => decide_eq_true (h.legal n hn)

/-- The calls behind the slot are legal where those of the body are. -/
theorem legal_messageCalls (spec : SignalEnvelope) {calls : List XmlCall}
    (h : calls.all legalCall = true) : ∀ c ∈ spec.messageCalls calls, c.Legal := by
  refine legal_of_all ?_
  have hid : ∀ id, (optionalAttr (.lit "wsu:Id") "wsu:Id" id).all legalCall = true :=
    legal_optionalAttr rfl _
  simp only [messageCalls, List.all_append, hid, spec.legal_messageInfoCalls, h, Bool.and_true]
  rfl

/-! ## The text of a signal -/

/-- The namespaces that a signal declares. -/
theorem declsOf_envelopeItems {spec : SignalEnvelope} (h : spec.Sound) :
    declsOf spec.envelopeItems =
      (.lit "S12", Ns.soap12) :: (.lit "eb", Ns.ebms3) :: spec.namespaces := by
  have hdecls : ∀ ds : List (Str × Str), (∀ d ∈ ds, DeclOk d) → declsOf (ds.map declAttr) = ds := by
    intro ds hds
    have hmap : (ds.map declAttr).filterMap declOf = ds := by
      rw [List.filterMap_map, show declOf ∘ declAttr = some from funext declOf_declAttr,
        List.filterMap_some]
    rw [declsOf, hmap, List.filter_eq_self]
    intro d hd
    exact decide_eq_true fun heq => (hds d hd).2.1 (by rw [heq])
  have hitems : spec.envelopeItems =
      ((.lit "S12", Ns.soap12) :: (.lit "eb", Ns.ebms3) :: spec.namespaces).map declAttr := rfl
  rw [hitems, hdecls]
  intro d hd
  obtain rfl | rfl | hd := List.mem_cons.mp hd |>.imp id List.mem_cons.mp
  · exact of_decide_eq_true rfl
  · exact of_decide_eq_true rfl
  · exact h.legal d hd

/-- A signal gives nothing twice where its header and its body do not. -/
theorem givenOnce_envelope {spec : SignalEnvelope} (h : spec.Sound) {security body : List Markup}
    (hsecurity : GivenOnceList security) (hbody : GivenOnceList body) :
    GivenOnce (spec.envelope security body) := by
  have hid : ∀ id, declaredBy (wsuIdItem id) = [] ∧
      ((attrsOf (wsuIdItem id)).map fun a => a.name.loc).Nodup := by
    intro id
    cases id with
    | none => exact ⟨rfl, List.nodup_nil⟩
    | some v => exact ⟨rfl, List.nodup_singleton _⟩
  have hleaf : ∀ loc value, GivenOnce (ebLeaf loc value) := fun loc value =>
    ⟨⟨List.nodup_nil, List.nodup_nil⟩, trivial, trivial⟩
  have hinfo : GivenOnce spec.messageInfo :=
    ⟨⟨List.nodup_nil, List.nodup_nil⟩, givenOnceList_append.mpr
      ⟨⟨hleaf _ _, hleaf _ _, trivial⟩, givenOnceList_map (hleaf _)⟩⟩
  have hsignal : GivenOnce (spec.signalMessage body) :=
    ⟨⟨List.nodup_nil, List.nodup_nil⟩, hinfo, hbody⟩
  have hmessaging : GivenOnce (spec.messaging body) := by
    refine ⟨?_, hsignal, trivial⟩
    cases spec.messagingId with
    | none => exact ⟨List.nodup_nil, List.nodup_singleton _⟩
    | some v => exact ⟨List.nodup_nil, of_decide_eq_true rfl⟩
  refine ⟨⟨?_, ?_⟩, ⟨⟨List.nodup_nil, List.nodup_nil⟩,
    givenOnceList_append.mpr ⟨hsecurity, hmessaging, trivial⟩⟩, ⟨⟨?_, (hid _).2⟩, trivial⟩, trivial⟩
  · rw [declaredBy, declsOf_envelopeItems h]
    exact h.distinct
  · have hnone : attrsOf spec.envelopeItems = [] := by
      rw [attrsOf, List.filter_eq_nil_iff]
      intro a ha
      -- every item of the envelope is a declaration
      obtain ⟨d, -, rfl⟩ : ∃ d, d ∈ (.lit "S12", Ns.soap12) :: (.lit "eb", Ns.ebms3) ::
          spec.namespaces ∧ declAttr d = a := List.mem_map.mp ha
      simp
    rw [hnone]
    exact List.nodup_nil
  · rw [(hid _).1]
    exact List.nodup_nil

section

variable {spec : SignalEnvelope} {calls : List XmlCall} {body : List Markup}
  {written : XmlDoc × Option Nat}

/-- A signal without a slot parses as the tree of its envelope. -/
theorem parse_writeSignal (h : spec.Sound) (hbody : Writes calls body)
    (hlegal : calls.all legalCall = true) (honce : GivenOnceList body)
    (hreserve : spec.reserveSecurity = false) (hwrite : writeSignal spec calls = .ok written) :
    ∃ text ok, written.1.intoString = .ok text ∧
      parse text = some ⟨[(spec.envelope [] body).tree], ok⟩ := by
  simp only [writeSignal, Except.bind_eq_ok, Except.pure_eq_ok, hreserve, Bool.false_eq_true,
    if_false] at hwrite
  obtain ⟨out, hheader, out', hmessage, doc, hfinish, rfl⟩ := hwrite
  obtain ⟨d, hd, hsim⟩ := (Simulates.withForm .selfClosing).run (legal_headerCalls h) hheader
  rw [spec.run_headerCalls, Option.some.injEq] at hd
  subst hd
  obtain ⟨d, hd, hsim⟩ := hsim.run (spec.legal_messageCalls hlegal) hmessage
  rw [spec.run_messageCalls hbody, Option.some.injEq] at hd
  subst hd
  refine hsim.parse_finished rfl rfl ?_ (.inl rfl) (by rw [rebased_self hsim.segments]; exact hfinish)
  exact nothingTwice_of_givenOnce.1 _ _ (givenOnce_envelope h trivial honce)

/-- The slot of a signal that reserves one. -/
theorem slot_of_writeSignal (h : spec.Sound) (hreserve : spec.reserveSecurity = true)
    (hwrite : writeSignal spec calls = .ok written) : written.2 = some 0 := by
  simp only [writeSignal, Except.bind_eq_ok, Except.pure_eq_ok, hreserve, if_true] at hwrite
  obtain ⟨out, hheader, out', -, doc, -, rfl⟩ := hwrite
  obtain ⟨d, -, hsim⟩ := (Simulates.withForm .selfClosing).run (legal_headerCalls h) hheader
  rw [XmlOut.slot, XmlOut.closeStartTag]
  split <;> simp [hsim.segments]

/-- A signal whose slot is filled with a header block parses as the envelope with that block. -/
theorem parse_filledSignal (h : spec.Sound) (hbody : Writes calls body)
    (hlegal : calls.all legalCall = true) (honce : GivenOnceList body)
    (hreserve : spec.reserveSecurity = true) (hwrite : writeSignal spec calls = .ok written)
    {m : Markup} (hm : Made ((.lit "S12" : Str) :: .lit "eb" :: spec.namespaces.map Prod.fst) m)
    (hmonce : GivenOnce m) {doc : XmlDoc} (hfill : written.1.fill 0 (printed true [m]) = .ok doc) :
    ∃ text ok, doc.intoString = .ok text ∧
      parse text = some ⟨[(spec.envelope [m] body).tree], ok⟩ := by
  simp only [writeSignal, Except.bind_eq_ok, Except.pure_eq_ok, hreserve, if_true] at hwrite
  obtain ⟨out, hheader, out', hmessage, doc', hfinish, rfl⟩ := hwrite
  obtain ⟨d, hd, hsim⟩ := (Simulates.withForm .selfClosing).run (legal_headerCalls h) hheader
  rw [spec.run_headerCalls, Option.some.injEq] at hd
  subst hd
  rw [← rebased_self hsim.segments] at hmessage
  refine hsim.parse_filled ?_ (spec.legal_messageCalls hlegal) hmessage hfinish
    (spec.run_messageCalls hbody [m]) ?_ (.inl rfl) hfill
  · rw [scopeOf, scopeOf, scopeOf, declaredBy, declaredBy, declsOf_envelopeItems h, List.append_nil]
    exact hm
  · exact nothingTwice_of_givenOnce.1 _ _ (givenOnce_envelope h ⟨hmonce, trivial⟩ honce)

end

/-! ## What is found by name -/

/-- What prefixes mean in a signal. -/
def means (spec : SignalEnvelope) (pre : Str) : Option Str :=
  if pre = xmlPre then some xmlNs
  else nsOfUri (((.lit "S12", Ns.soap12) :: (.lit "eb", Ns.ebms3) :: spec.namespaces).lookup pre)

theorem means_eb (spec : SignalEnvelope) : spec.means (.lit "eb") = some Ns.ebms3 := rfl

/-- No other prefix of a signal means the namespace of ebMS3. -/
theorem means_ne {spec : SignalEnvelope} (h : ∀ n ∈ spec.namespaces, n.2 ≠ Ns.ebms3) {p : Str}
    (hp : p ≠ .lit "eb") : spec.means p ≠ some Ns.ebms3 := by
  rw [means]
  split
  · exact of_decide_eq_true rfl
  cases hl : ((.lit "S12", Ns.soap12) :: (.lit "eb", Ns.ebms3) :: spec.namespaces).lookup p with
  | none => exact of_decide_eq_true rfl
  | some uri =>
    obtain ⟨l₁, l₂, heq, -⟩ := List.lookup_eq_some_iff.mp hl
    have hmem : (p, uri) ∈ (.lit "S12", Ns.soap12) :: (.lit "eb", Ns.ebms3) :: spec.namespaces := by
      rw [heq]
      simp
    have huri : uri ≠ Ns.ebms3 := by
      rcases List.mem_cons.mp hmem with heq | hmem
      · rw [(Prod.mk.inj heq).2]
        exact of_decide_eq_true rfl
      rcases List.mem_cons.mp hmem with heq | hmem
      · exact absurd (Prod.mk.inj heq).1 hp
      · exact h _ hmem
    cases uri with
    | nil => exact of_decide_eq_true rfl
    | cons c cs => exact fun heq => huri (Option.some.inj heq)

/-- At the envelope a prefix means what the signal declares for it. -/
theorem resolve_envelope {spec : SignalEnvelope} (h : spec.Sound) (security body : List Markup)
    (cs : List Tree) (pre : Str) :
    resolve [(spec.envelope security body).tree, .root cs] pre = spec.means pre := by
  have hdecls : ((spec.envelope security body).tree).decls =
      (.lit "S12", Ns.soap12) :: (.lit "eb", Ns.ebms3) :: spec.namespaces := by
    rw [envelope, Markup.tree]
    exact declsOf_envelopeItems h
  rw [resolve, inScope_cons, hdecls, means]
  have hroot : inScope [.root cs] pre = none := rfl
  rw [hroot, Option.or_none]

/-- The ebMS3 elements of a signal are those of its `eb:Messaging`, where the prefixes are
    settled. -/
theorem exists_messaging {spec : SignalEnvelope} (h : spec.Sound)
    (hother : ∀ n ∈ spec.namespaces, n.2 ≠ Ns.ebms3) {security body : List Markup}
    (hsecurity : ForeignList (.lit "eb") Ns.ebms3 (Markup.treeList security))
    (hbody : Undeclaring (spec.messaging body).tree) {doc : Document}
    (hdoc : doc.children = [(spec.envelope security body).tree]) :
    ∃ n : Node, n.tree = (spec.messaging body).tree ∧ Settled spec.means n ∧
      ∀ loc, doc.descendants.filter (·.hasTagName Ns.ebms3 loc) =
        n.descendants.filter (·.hasTagName Ns.ebms3 loc) := by
  have hxml : Ns.ebms3 ≠ xmlNs := of_decide_eq_true rfl
  have hpre : (.lit "S12" : Str) ≠ .lit "eb" := of_decide_eq_true rfl
  have hroot := resolve_envelope h security body [(spec.envelope security body).tree]
  have henv : (spec.envelope security body).tree = .element ⟨.lit "S12", .lit "Envelope"⟩
      (declsOf spec.envelopeItems) (attrsOf spec.envelopeItems)
      [.element ⟨.lit "S12", .lit "Header"⟩ [] []
        (Markup.treeList security ++ [(spec.messaging body).tree]),
        .element ⟨.lit "S12", .lit "Body"⟩ (declsOf (wsuIdItem spec.bodyId))
          (attrsOf (wsuIdItem spec.bodyId)) []] := by
    rw [envelope, Markup.tree, treeList_element, treeList_element, Markup.tree, messaging,
      treeList_append_element, Markup.tree]
    rfl
  have hbodyDecls : declsOf (wsuIdItem spec.bodyId) = [] := by
    cases spec.bodyId <;> rfl
  rw [hbodyDecls] at henv
  refine ⟨⟨(spec.messaging body).tree, [.element ⟨.lit "S12", .lit "Header"⟩ [] []
      (Markup.treeList security ++ [(spec.messaging body).tree]), (spec.envelope security body).tree,
      .root [(spec.envelope security body).tree]], [0 + (Markup.treeList security).length, 0, 0]⟩,
    rfl, ⟨hbody, fun pre => ?_⟩, fun loc => ?_⟩
  · -- the header declares nothing, so it leaves the prefixes of the envelope as they are
    rw [resolve_undeclaring rfl]
    exact hroot pre
  · rw [Document.descendants, Node.descendants, Document.root, hdoc]
    refine filter_frame hxml loc henv hpre hpre hpre hsecurity trivial trivial fun p hp => ?_
    rw [hroot]
    exact means_ne hother hp

end SignalEnvelope

/-! ## Reading -/

/-- The text of an element with nothing but text. -/
theorem flatten_texts_leaf (q : QName) (items : List Attr) (value : Str) :
    (texts (Markup.tree (.element q items [.text value]))).flatten = value := by
  cases value <;> simp [Markup.tree, Markup.treeList, consNode, texts, textsList]

/-- A text as the readers take it: trimmed, and nothing if nothing is left. -/
def nonBlank (s : Str) : Option Str := if Str.trim s = [] then none else some (Str.trim s)

/-- The text of a field is all text below it, trimmed. -/
theorem elementText_eq (n : Node) : elementText n = nonBlank (texts n.tree).flatten := by
  rw [elementText, descendantTextNodes, texts_eq]
  rfl

/-- An attribute of a signal is read trimmed. -/
theorem signalAttribute_eq {n : Node} {name value : Str} (h : n.attribute? name = some value) :
    signalAttribute n name = nonBlank value := by
  rw [signalAttribute, h, nonBlank]
  by_cases hblank : Str.trim value = []
  · simp [hblank]
  · simp [hblank, Option.filter]

/-- The first attribute of an element is found by its name. -/
theorem attribute?_head {n : Node} {q : QName} {ds : List (Str × Str)} {a : Attr}
    {as : List Attr} {cs : List Tree} (h : n.tree = .element q ds (a :: as) cs) :
    n.attribute? a.name.loc = some a.value := by
  rw [Node.attribute?, h, Tree.attrs, List.find?_cons_of_pos (by exact decide_eq_true rfl)]
  rfl

theorem signalAttribute_none {n : Node} {name : Str} (h : n.attribute? name = none) :
    signalAttribute n name = none := by
  rw [signalAttribute, h]
  rfl

/-- Of one element with a text a slot takes the text; of none it stays empty. -/
theorem fillSlots_eq (session : SessionContext) (stage loc : Str) {nodes : List Node}
    {value : Option Str} (h : nodes.map (fun n => (texts n.tree).flatten) = value.toList) :
    nodes.foldlM (fillSlot session stage loc) none = .ok (value.bind nonBlank) := by
  cases value with
  | none =>
    rw [List.map_eq_nil_iff.mp h]
    rfl
  | some v =>
    obtain ⟨n, rfl, hn⟩ := List.map_eq_singleton_iff.mp h
    rw [List.foldlM_cons, fillSlot, elementText_eq, hn, Option.bind_some, nonBlank]
    by_cases hblank : Str.trim v = []
    · rw [if_pos hblank]
      rfl
    · rw [if_neg hblank]
      rfl

section

variable {ρ : Str → Option Str} (heb : ρ (.lit "eb") = some Ns.ebms3)

include heb

/-- The elements of ebMS3 in a written element: it, if it has the name, and those below. -/
theorem named_eb (loc l : Str) (items : List Attr) (ms : List Markup) :
    named ρ Ns.ebms3 loc (Markup.tree (.element (ebName l) items ms)) =
      (if l = loc then [Markup.tree (.element (ebName l) items ms)] else []) ++
        namedList ρ Ns.ebms3 loc (Markup.treeList ms) := by
  rw [Markup.tree, named]
  by_cases hl : l = loc
  · rw [if_pos ⟨heb, hl⟩, if_pos hl]
  · rw [if_neg fun h => hl h.2, if_neg hl]

omit heb in
theorem treeList_ebLeaf (l value : Str) (ms : List Markup) :
    Markup.treeList (ebLeaf l value :: ms) = (ebLeaf l value).tree :: Markup.treeList ms :=
  treeList_element _ _ _ _

theorem named_ebLeaf (loc l value : Str) :
    named ρ Ns.ebms3 loc (ebLeaf l value).tree =
      if l = loc then [(ebLeaf l value).tree] else [] := by
  rw [ebLeaf, named_eb heb]
  cases value <;> exact List.append_nil _

end

namespace SignalEnvelope

/-- The elements of ebMS3 in `eb:MessageInfo`. -/
theorem named_messageInfo (spec : SignalEnvelope) {ρ : Str → Option Str}
    (heb : ρ (.lit "eb") = some Ns.ebms3) (loc : Str) :
    named ρ Ns.ebms3 loc spec.messageInfo.tree =
      (if .lit "MessageInfo" = loc then [spec.messageInfo.tree] else []) ++
        ((if .lit "Timestamp" = loc then [(ebLeaf (.lit "Timestamp") spec.timestamp).tree] else []) ++
        ((if .lit "MessageId" = loc then [(ebLeaf (.lit "MessageId") spec.messageId).tree] else []) ++
        (if .lit "RefToMessageId" = loc then
          spec.refToMessageId.toList.map fun v => (ebLeaf (.lit "RefToMessageId") v).tree
          else []))) := by
  rw [messageInfo, named_eb heb]
  cases spec.refToMessageId with
  | none =>
    simp only [Option.toList_none, List.map_nil, List.append_nil, treeList_ebLeaf, namedList,
      named_ebLeaf heb, treeList_nil, ite_self]
  | some v =>
    simp only [Option.toList_some, List.map_cons, List.map_nil, List.cons_append, List.nil_append,
      treeList_ebLeaf, namedList, named_ebLeaf heb, treeList_nil, List.append_nil]

/-- The `eb:MessageInfo` of a signal is read as it was written. -/
theorem readMessageInfo_eq {spec : SignalEnvelope} {ρ : Str → Option Str}
    (heb : ρ (.lit "eb") = some Ns.ebms3) {n : Node} (hn : Settled ρ n)
    (htree : n.tree = spec.messageInfo.tree) (session : SessionContext) (stage : Str)
    (out : ParsedAs4SignalEnvelope) (hout : out.messageId = none ∧ out.refToMessageId = none ∧
      out.timestamp = none) :
    readMessageInfo session stage out n = .ok { out with
      messageId := nonBlank spec.messageId
      refToMessageId := spec.refToMessageId.bind nonBlank
      timestamp := nonBlank spec.timestamp } := by
  have hnamed := spec.named_messageInfo heb
  have hfound : ∀ (loc : Str) (value : Option Str),
      (named ρ Ns.ebms3 loc spec.messageInfo.tree).map (fun t => (texts t).flatten) =
        value.toList →
      (ebDescendants n loc).map (fun n => (texts n.tree).flatten) = value.toList := by
    intro loc value h
    rw [← h, ← htree, ← hn.named, List.map_map]
    rfl
  have hslot : ∀ (loc : Str) (value : Option Str),
      (named ρ Ns.ebms3 loc spec.messageInfo.tree).map (fun t => (texts t).flatten) =
        value.toList →
      (ebDescendants n loc).foldlM (fillSlot session stage loc) none = .ok (value.bind nonBlank) :=
    fun loc value h => fillSlots_eq session stage loc (hfound loc value h)
  have hmessageId := hslot "MessageId" (some spec.messageId) (by
    rw [hnamed]
    simp [lit_eq_toList, ebLeaf, flatten_texts_leaf])
  have hrefTo := hslot "RefToMessageId" spec.refToMessageId (by
    rw [hnamed]
    cases spec.refToMessageId <;> simp [lit_eq_toList, ebLeaf, flatten_texts_leaf])
  have htimestamp := hslot "Timestamp" (some spec.timestamp) (by
    rw [hnamed]
    simp [lit_eq_toList, ebLeaf, flatten_texts_leaf])
  rw [readMessageInfo, hout.1, hout.2.1, hout.2.2, hmessageId, hrefTo, htimestamp]
  rfl

end SignalEnvelope

/-- What a frame around a body needs to be read: the body declares nothing and holds no further
    `eb:Messaging`, `eb:SignalMessage` or `eb:MessageInfo`. -/
structure BodyReads (ρ : Str → Option Str) (body : List Markup) : Prop where
  undeclaring : UndeclaringList (Markup.treeList body)
  messaging : namedList ρ Ns.ebms3 "Messaging" (Markup.treeList body) = []
  signalMessage : namedList ρ Ns.ebms3 "SignalMessage" (Markup.treeList body) = []
  messageInfo : namedList ρ Ns.ebms3 "MessageInfo" (Markup.treeList body) = []

theorem undeclaring_ebLeaf (l value : Str) : Undeclaring (ebLeaf l value).tree := by
  rw [ebLeaf, Markup.tree]
  cases value with
  | nil => exact ⟨rfl, trivial⟩
  | cons c cs => exact ⟨rfl, trivial, trivial⟩

namespace SignalEnvelope

/-- The block of a signal declares nothing where its body does not. -/
theorem undeclaring_messaging {spec : SignalEnvelope} {body : List Markup}
    (h : UndeclaringList (Markup.treeList body)) : Undeclaring (spec.messaging body).tree := by
  have hinfo : Undeclaring spec.messageInfo.tree := by
    rw [messageInfo, Markup.tree]
    refine ⟨rfl, ?_⟩
    have helements : ∀ v, ∃ q items ms, ebLeaf (.lit "RefToMessageId") v = .element q items ms :=
      fun v => ⟨_, _, _, rfl⟩
    rw [List.cons_append, List.cons_append, List.nil_append, treeList_ebLeaf, treeList_ebLeaf,
      treeList_map helements]
    exact ⟨undeclaring_ebLeaf _ _, undeclaring_ebLeaf _ _,
      undeclaringList_map fun v => undeclaring_ebLeaf _ v⟩
  have hsignal : Undeclaring (spec.signalMessage body).tree := by
    rw [signalMessage, Markup.tree, messageInfo, treeList_element]
    exact ⟨rfl, hinfo, h⟩
  rw [messaging, Markup.tree, signalMessage, treeList_element]
  refine ⟨?_, hsignal, trivial⟩
  cases spec.messagingId <;> rfl

/-- A signal is read as its message info and what is read of its body. -/
theorem parse_frame {spec : SignalEnvelope} (h : spec.Sound)
    (hother : ∀ n ∈ spec.namespaces, n.2 ≠ Ns.ebms3) {security body : List Markup}
    (hsecurity : ForeignList (.lit "eb") Ns.ebms3 (Markup.treeList security))
    (hbody : BodyReads spec.means body) {doc : Document}
    (hdoc : doc.children = [(spec.envelope security body).tree]) (session : SessionContext)
    (stage : Str) :
    ∃ signal : Node, signal.tree = (spec.signalMessage body).tree ∧ Settled spec.means signal ∧
      parseAs4SignalEnvelope doc session stage = (do
        let out ← (ebDescendants signal "Receipt").foldlM (readReceipt session stage)
          { hasSignature := doc.descendants.any (isDsElement · "Signature")
            hasSignalMessage := true
            messageId := nonBlank spec.messageId
            refToMessageId := spec.refToMessageId.bind nonBlank
            timestamp := nonBlank spec.timestamp }
        pure { out with
          errors := ((ebDescendants signal "Error").take maxSignalErrors).map readError }) := by
  obtain ⟨n, htree, hn, hfound⟩ := exists_messaging h hother hsecurity
    (undeclaring_messaging hbody.undeclaring) hdoc
  have heb := spec.means_eb
  have hinfo := spec.named_messageInfo heb
  -- one `eb:Messaging`, in it one `eb:SignalMessage`, in it one `eb:MessageInfo`
  have hsignal : ∀ loc, named spec.means Ns.ebms3 loc (spec.signalMessage body).tree =
      (if .lit "SignalMessage" = loc then [(spec.signalMessage body).tree] else []) ++
        (named spec.means Ns.ebms3 loc spec.messageInfo.tree ++
          namedList spec.means Ns.ebms3 loc (Markup.treeList body)) := by
    intro loc
    rw [signalMessage, named_eb heb, messageInfo, treeList_element, namedList]
  have hmessaging : ∀ loc, named spec.means Ns.ebms3 loc n.tree =
      (if .lit "Messaging" = loc then [n.tree] else []) ++
        named spec.means Ns.ebms3 loc (spec.signalMessage body).tree := by
    intro loc
    rw [htree, messaging, named_eb heb, signalMessage, treeList_element, namedList, treeList_nil,
      namedList, List.append_nil]
  obtain ⟨m, hm, -, -⟩ := hn.exists_of_named Ns.ebms3 "Messaging" (t := n.tree) (by
    rw [hmessaging, hsignal, hinfo, hbody.messaging]
    simp [lit_eq_toList])
  obtain ⟨signal, hone, hsignalTree, hsettled⟩ := hn.exists_of_named Ns.ebms3 "SignalMessage"
    (t := (spec.signalMessage body).tree) (by
    rw [hmessaging, hsignal, hinfo, hbody.signalMessage]
    simp [lit_eq_toList])
  obtain ⟨info, hinfoOne, hinfoTree, hinfoSettled⟩ := hsettled.exists_of_named
    Ns.ebms3 "MessageInfo" (t := spec.messageInfo.tree) (by
      rw [hsignalTree, hsignal, hinfo, hbody.messageInfo]
      simp [lit_eq_toList])
  refine ⟨signal, hsignalTree, hsettled, ?_⟩
  have hmessagingNodes : messagingNodes doc = [m] := (hfound "Messaging").trans hm
  have hsignalNodes : signalNodes doc = [signal] := (hfound "SignalMessage").trans hone
  have hinfoNodes : ebDescendants signal "MessageInfo" = [info] := hinfoOne
  rw [parseAs4SignalEnvelope, hmessagingNodes, hsignalNodes]
  have hread := spec.readMessageInfo_eq heb hinfoSettled hinfoTree session stage
    { hasSignature := doc.descendants.any (isDsElement · "Signature"), hasSignalMessage := true }
    ⟨rfl, rfl, rfl⟩
  simp only [readSignal, hinfoNodes, List.foldlM_cons, List.foldlM_nil]
  rw [hread]
  rfl

end SignalEnvelope

end Asx
