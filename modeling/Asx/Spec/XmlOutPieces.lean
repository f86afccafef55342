import Asx.Native.SoapBuilder
import Asx.Spec.XmlOutTree

/-!
# Markup in pieces

Calls that write whole nodes describe the same nodes wherever they are made, so that a long run
is described piece by piece. What a writer holds already does not matter to the calls that follow:
a document with a slot in it holds, once the slot is filled, what the writer would have written
with the text in its place. What a parse of the text needs of the names and the constants of a
program is decided on the program, whatever values it is given.

## Key results
- `run_rebased`: a run from a writer that holds more text
- `Simulates.parse_filled`: a document with a filled slot parses as what was described, with the
  markup of the slot
- `nothingTwice_of_givenOnce`, `legal_of_all`: the conditions of a parse, read off the program
-/

namespace Asx

open Xml XmlCall

/-! ## Pieces of a description -/

namespace Description

/-- Calls are described one after the other. -/
theorem run_append (d : Description) (calls calls' : List XmlCall) :
    d.run (calls ++ calls') = (d.run calls).bind (·.run calls') := by
  rw [run, List.foldlM_append]
  rfl

variable {qname value field pre uri : Str} {q : QName} {items : List Attr} {content : List Markup}
  {rest : List OpenElement} {nodes : List Markup} {calls : List XmlCall}

theorem run_nil (d : Description) : d.run [] = some d := rfl

/-- `start` opens an element inside those that are open. -/
theorem run_start (d : Description) :
    d.run (.start qname :: calls) = run ⟨⟨qnameOf qname, [], []⟩ :: d.opened, d.nodes⟩ calls := rfl

/-- `ns` gives the open element a declaration, behind what it has. -/
theorem run_ns :
    run ⟨⟨q, items, content⟩ :: rest, nodes⟩ (ns pre uri :: calls) =
      run ⟨⟨q, items ++ [declAttr (pre, uri)], content⟩ :: rest, nodes⟩ calls := rfl

/-- `attr` gives the open element an attribute, behind what it has. -/
theorem run_attr :
    run ⟨⟨q, items, content⟩ :: rest, nodes⟩ (attr qname value field :: calls) =
      run ⟨⟨q, items ++ [⟨qnameOf qname, value⟩], content⟩ :: rest, nodes⟩ calls := rfl

/-- `leaf` writes an element with a text into the open one. -/
theorem run_leaf :
    run ⟨⟨q, items, content⟩ :: rest, nodes⟩ (.leaf qname value field :: calls) =
      run ⟨⟨q, items, content ++ [.element (qnameOf qname) [] [.text value]]⟩ :: rest, nodes⟩ calls :=
  rfl

/-- `end` writes the open element into the one around it. -/
theorem run_endElement {q' : QName} {items' : List Attr} {content' : List Markup} :
    run ⟨⟨q', items', content'⟩ :: ⟨q, items, content⟩ :: rest, nodes⟩ (.endElement :: calls) =
      run ⟨⟨q, items, content ++ [.element q' items' content']⟩ :: rest, nodes⟩ calls := rfl

/-- `end` of the outermost element writes it among the top-level nodes. -/
theorem run_endElement_last :
    run ⟨[⟨q, items, content⟩], nodes⟩ (.endElement :: calls) =
      run ⟨[], nodes ++ [.element q items content]⟩ calls := rfl

end Description

/-- Calls that give an open element these items. -/
def Gives (calls : List XmlCall) (items : List Attr) : Prop :=
  ∀ (q : QName) (items₀ : List Attr) (content : List Markup) (rest : List OpenElement)
    (nodes : List Markup), Description.run ⟨⟨q, items₀, content⟩ :: rest, nodes⟩ calls =
      some ⟨⟨q, items₀ ++ items, content⟩ :: rest, nodes⟩

/-- Calls that write these nodes into an open element. -/
def Writes (calls : List XmlCall) (ms : List Markup) : Prop :=
  ∀ (q : QName) (items : List Attr) (content : List Markup) (rest : List OpenElement)
    (nodes : List Markup), Description.run ⟨⟨q, items, content⟩ :: rest, nodes⟩ calls =
      some ⟨⟨q, items, content ++ ms⟩ :: rest, nodes⟩

section

variable {calls calls' : List XmlCall} {items items' : List Attr} {ms ms' : List Markup}

/-- Calls that give items may stand before any others. -/
theorem Gives.run (h : Gives calls items) {q : QName} {items₀ : List Attr} {content : List Markup}
    {rest : List OpenElement} {nodes : List Markup} :
    Description.run ⟨⟨q, items₀, content⟩ :: rest, nodes⟩ (calls ++ calls') =
      Description.run ⟨⟨q, items₀ ++ items, content⟩ :: rest, nodes⟩ calls' := by
  rw [Description.run_append, h]
  rfl

/-- Calls that write nodes may stand before any others. -/
theorem Writes.run (h : Writes calls ms) {q : QName} {items : List Attr} {content : List Markup}
    {rest : List OpenElement} {nodes : List Markup} :
    Description.run ⟨⟨q, items, content⟩ :: rest, nodes⟩ (calls ++ calls') =
      Description.run ⟨⟨q, items, content ++ ms⟩ :: rest, nodes⟩ calls' := by
  rw [Description.run_append, h]
  rfl

/-- An optional attribute is given when it has a value. -/
theorem gives_optionalAttr (qname field : Str) (value : Option Str) :
    Gives (optionalAttr qname field value) (value.toList.map fun v => ⟨qnameOf qname, v⟩) := by
  intro q items₀ content rest nodes
  cases value with
  | none => simp [optionalAttr, Description.run_nil]
  | some v => rfl

/-- A loop over declarations gives them in their order. -/
theorem gives_namespaces (namespaces : List (Str × Str)) :
    Gives (namespaces.map fun n => ns n.1 n.2) (namespaces.map declAttr) := by
  induction namespaces with
  | nil => intro q items₀ content rest nodes; simp [Description.run_nil]
  | cons n namespaces ih =>
    intro q items₀ content rest nodes
    rw [List.map_cons, Description.run_ns, ih, List.map_cons, List.append_assoc,
      List.singleton_append]

/-- Two pieces write the nodes of the first and then those of the second. -/
theorem Writes.append (h : Writes calls ms) (h' : Writes calls' ms') :
    Writes (calls ++ calls') (ms ++ ms') := by
  intro q items content rest nodes
  rw [h.run, h', List.append_assoc]

theorem Writes.nil : Writes [] [] := by
  intro q items content rest nodes
  rw [Description.run_nil, List.append_nil]

/-- A loop writes the nodes of its rounds. -/
theorem Writes.map {α : Type} {f : α → List XmlCall} {g : α → Markup}
    (h : ∀ a, Writes (f a) [g a]) (l : List α) : Writes (l.flatMap f) (l.map g) := by
  induction l with
  | nil => exact .nil
  | cons a l ih =>
    rw [List.flatMap_cons, List.map_cons]
    exact (h a).append ih

/-- A leaf is one node. -/
theorem writes_leaf (qname value field : Str) :
    Writes [.leaf qname value field] [.element (qnameOf qname) [] [.text value]] :=
  fun _ _ _ _ _ => rfl

/-- An optional leaf is written when it has a value. -/
theorem writes_optional {f : Str → XmlCall} {g : Str → Markup} (h : ∀ v, Writes [f v] [g v])
    (value : Option Str) : Writes (value.toList.map f) (value.toList.map g) := by
  cases value with
  | none => exact .nil
  | some v => exact h v

end

/-! ## What the writer holds already -/

namespace XmlOut

/-- A writer that holds more text, in front of its own and in earlier segments. -/
def rebased (lead : Str) (segments : List Str) (out : XmlOut) : XmlOut :=
  { out with buf := lead ++ out.buf, segments }

variable {lead : Str} {segments : List Str}

/-- Closing a start tag appends to the text, whatever stands before. -/
theorem rebased_closeStartTag (out : XmlOut) :
    (out.rebased lead segments).closeStartTag = out.closeStartTag.rebased lead segments := by
  cases htag : out.tagOpen with
  | true => simp [closeStartTag, rebased, htag]
  | false => simp [closeStartTag, rebased, htag]

/-- `start` appends to the text. -/
theorem rebased_start (out : XmlOut) (qname : Str) :
    (out.rebased lead segments).start qname =
      (out.start qname).map (rebased lead segments) := by
  rw [start, rebased_closeStartTag, start]
  simp [rebased, Except.map]

/-- `ns` is refused without an open start tag and appends to the text otherwise. -/
theorem rebased_ns (out : XmlOut) (pre uri : Str) :
    (out.rebased lead segments).ns pre uri = (out.ns pre uri).map (rebased lead segments) := by
  have htag : (out.rebased lead segments).tagOpen = out.tagOpen := rfl
  rw [ns, ns, htag]
  by_cases hopen : out.tagOpen = false
  · rw [Except.rejectIf, if_pos hopen]
    rfl
  · rw [Except.rejectIf, if_neg hopen]
    simp only [rebased, List.append_assoc, bind, Except.bind, pure, Except.pure, Except.map]

/-- `text` looks at the stack and at the value, not at the text so far. -/
theorem rebased_text (out : XmlOut) (value field : Str) :
    (out.rebased lead segments).text value field =
      (out.text value field).map (rebased lead segments) := by
  simp only [text, rebased_closeStartTag]
  by_cases hstack : out.stack = []
  · simp [rebased, hstack, Except.rejectIf, Except.map, bind, Except.bind]
  · cases hcheck : checkUnlessPlain (plainText value) value field with
    | error e => simp [rebased, hstack, Except.rejectIf, Except.map, bind, Except.bind]
    | ok u => simp [rebased, hstack, Except.rejectIf, Except.map, bind, Except.bind, pure, Except.pure]

/-- `end` closes the start tag or appends an end tag, whatever stands before. -/
theorem rebased_endElement (out : XmlOut) :
    (out.rebased lead segments).endElement = out.endElement.map (rebased lead segments) := by
  cases hstack : out.stack with
  | nil => simp [endElement, rebased, hstack, Except.map]
  | cons open_ rest =>
    simp only [endElement, rebased, hstack, prefixInScope]
    split
    · rfl
    · cases htag : out.tagOpen with
      | false => simp [Except.map, rebased]
      | true => cases hform : out.emptyForm <;> simp [Except.map, rebased]

/-- What the writer holds already does not matter to a call. -/
theorem rebased_call (out : XmlOut) (c : XmlCall) :
    (out.rebased lead segments).call c = (out.call c).map (rebased lead segments) := by
  cases c with
  | start qname => exact rebased_start out qname
  | ns pre uri => exact rebased_ns out pre uri
  | attr qname value field =>
    simp only [call, attr]
    have hcp : (out.rebased lead segments).checkPrefix qname = out.checkPrefix qname := rfl
    rw [hcp]
    cases htag : out.tagOpen with
    | false => simp [rebased, htag, Except.rejectIf, Except.map, bind, Except.bind]
    | true =>
      cases hcheck : checkUnlessPlain (plainAttr value) value field with
      | error e => simp [rebased, htag, Except.rejectIf, Except.map, bind, Except.bind]
      | ok u =>
        cases hscope : out.checkPrefix qname <;>
          simp [rebased, htag, Except.rejectIf, Except.map, bind, Except.bind, pure, Except.pure]
  | text value field => exact rebased_text out value field
  | leaf qname value field =>
    simp only [call, XmlOut.leaf, rebased_start]
    cases hstart : out.start qname with
    | error e => rfl
    | ok out₁ =>
      simp only [Except.map, bind, Except.bind, rebased_text]
      cases htext : out₁.text value field with
      | error e => rfl
      | ok out₂ => exact rebased_endElement out₂
  | endElement => exact rebased_endElement out

/-- What the writer holds already does not matter to a run. -/
theorem run_rebased (out : XmlOut) (calls : List XmlCall) :
    (out.rebased lead segments).run calls = (out.run calls).map (rebased lead segments) := by
  induction calls generalizing out with
  | nil => rfl
  | cons c calls ih =>
    simp only [run, List.foldlM_cons, rebased_call]
    cases hcall : out.call c with
    | error e => rfl
    | ok out₁ => exact ih out₁

/-- The calls one after the other, each with an empty buffer. What they write is put together
    from the last one on, so that an evaluation copies nothing twice. -/
def runOnto (out : XmlOut) : List XmlCall → Result XmlOut
  | [] => .ok out
  | c :: calls => do
    let next ← ({ out with buf := [] } : XmlOut).call c
    let last ← runOnto next calls
    pure (last.rebased out.buf out.segments)

/-- A run leaves the same, however its text is put together. -/
theorem run_eq_runOnto (out : XmlOut) (calls : List XmlCall) : out.run calls = out.runOnto calls := by
  induction calls generalizing out with
  | nil => rfl
  | cons c calls ih =>
    -- the writer is an empty one that holds what was written before
    have hout : ({ out with buf := [] } : XmlOut).rebased out.buf out.segments = out := by
      simp only [rebased, List.append_nil]
    rw [runOnto, run, List.foldlM_cons]
    conv_lhs => rw [← hout, rebased_call]
    cases ({ out with buf := [] } : XmlOut).call c with
    | error e => rfl
    | ok next =>
      show (next.rebased out.buf out.segments).run calls = _
      rw [run_rebased, ih]
      rfl

end XmlOut

/-! ## Filled slots -/

section

variable {form : EmptyForm} {lead : Str} {out out' : XmlOut} {d : Description} {calls : List XmlCall}
  {doc doc' : XmlDoc} {q : QName} {items : List Attr} {ms : List Markup}

/-- A writer without slots ends in one segment, whose text parses as what was described. -/
theorem Simulates.parse_finished (hsim : Simulates form out d) (hopened : d.opened = [])
    (hnodes : d.nodes = [.element q items ms])
    (htwice : Markup.EachTag NothingTwice [.root [Markup.tree (.element q items ms)]]
      (.element q items ms)) (hlead : lead = [] ∨ lead = Markup.xmlDeclaration)
    (hfinish : (out.rebased lead []).finish = .ok doc) :
    ∃ text ok, doc.intoString = .ok text ∧
      Xml.parse text = some ⟨[Markup.tree (.element q items ms)], ok⟩ := by
  obtain ⟨-, ok, hparse⟩ := hsim.parse hopened hnodes htwice hlead
  have hstack : (out.rebased lead []).stack = [] := by
    rw [XmlOut.rebased, hsim.stack, hopened, List.map_nil]
  simp only [XmlOut.finish, hstack, Except.ok.injEq] at hfinish
  refine ⟨_, ok, ?_, hparse⟩
  rw [← hfinish]
  simp [XmlOut.rebased, XmlDoc.intoString, XmlDoc.joined, Except.rejectIf, bind, Except.bind, pure,
    Except.pure]

/-- A writer reserves a slot and goes on. Once the slot is filled with markup, the text parses as
    what was described, with that markup where the slot is. -/
theorem Simulates.parse_filled (hsim : Simulates form out d) {m : Markup}
    (hm : Made (scopeOf d.opened) m) (hlegal : ∀ c ∈ calls, c.Legal)
    (hrun : (out.rebased lead []).slot.1.run calls = .ok out') (hfinish : out'.finish = .ok doc)
    (hdescribe : (d.add m).run calls = some ⟨[], [.element q items ms]⟩)
    (htwice : Markup.EachTag NothingTwice [.root [Markup.tree (.element q items ms)]]
      (.element q items ms)) (hlead : lead = [] ∨ lead = Markup.xmlDeclaration)
    (hfill : doc.fill 0 (printed (form == .selfClosing) [m]) = .ok doc') :
    ∃ text ok, doc'.intoString = .ok text ∧
      Xml.parse text = some ⟨[Markup.tree (.element q items ms)], ok⟩ := by
  -- the writer after the slot, and one that has written the markup there, differ in what they hold
  have hadd := hsim.add hm
  have hslot : (out.rebased lead []).slot.1 =
      XmlOut.rebased [] [lead ++ out.closeStartTag.buf] { out.closeStartTag with buf := [] } := by
    rw [XmlOut.slot, XmlOut.rebased_closeStartTag]
    rfl
  have hwritten : ({ out with
      buf := printed (form == .selfClosing) d.nodes ++
        closedText (form == .selfClosing) d.opened ++ printed (form == .selfClosing) [m]
      tagOpen := false } : XmlOut) =
      XmlOut.rebased (out.closeStartTag.buf ++ printed (form == .selfClosing) [m]) []
        { out.closeStartTag with buf := [] } := by
    simp [XmlOut.rebased, hsim.closeStartTag, hsim.segments]
  rw [hwritten] at hadd
  rw [hslot, XmlOut.run_rebased, Except.map_eq_ok] at hrun
  obtain ⟨out₂, hrun, rfl⟩ := hrun
  obtain ⟨d', hd', hsim'⟩ := hadd.run hlegal (by rw [XmlOut.run_rebased, hrun]; rfl)
  rw [hdescribe, Option.some.injEq] at hd'
  subst hd'
  obtain ⟨-, ok, hparse⟩ := hsim'.parse rfl rfl htwice hlead
  have hstack : out₂.stack = [] := hsim'.stack
  simp only [XmlOut.finish, XmlOut.rebased, hstack, Except.ok.injEq] at hfinish
  rw [← hfinish] at hfill
  simp only [XmlDoc.fill, List.length_singleton, List.replicate_one, List.getElem?_cons_zero,
    Except.ok.injEq] at hfill
  refine ⟨_, ok, ?_, hparse⟩
  rw [← hfill]
  simp [XmlOut.rebased, XmlDoc.intoString, XmlDoc.joined, Except.rejectIf, bind, Except.bind, pure,
    Except.pure]

end

/-! ## Nothing is given twice -/

mutual

/-- On every tag the prefixes declared and the local names of the attributes are distinct. -/
def GivenOnce : Markup → Prop
  | .element _ items ms =>
    ((declaredBy items).Nodup ∧ ((attrsOf items).map fun a => a.name.loc).Nodup) ∧ GivenOnceList ms
  | .text _ => True

@[inherit_doc GivenOnce]
def GivenOnceList : List Markup → Prop
  | [] => True
  | m :: ms => GivenOnce m ∧ GivenOnceList ms

end

/-- Two lists give everything once when each does. -/
theorem givenOnceList_append {ms ms' : List Markup} :
    GivenOnceList (ms ++ ms') ↔ GivenOnceList ms ∧ GivenOnceList ms' := by
  induction ms with
  | nil => simp [GivenOnceList]
  | cons m ms ih => simp [GivenOnceList, ih, and_assoc]

/-- A loop gives everything once when each round does. -/
theorem givenOnceList_map {α : Type} {f : α → Markup} {l : List α} (h : ∀ a, GivenOnce (f a)) :
    GivenOnceList (l.map f) := by
  induction l with
  | nil => trivial
  | cons a l ih => exact ⟨h a, ih⟩

/-- Whatever the prefixes mean, nothing is given twice. -/
theorem nothingTwice_of_givenOnce :
    (∀ (m : Markup) (up : List Tree), GivenOnce m → m.EachTag NothingTwice up) ∧
    ∀ (ms : List Markup) (up : List Tree), GivenOnceList ms →
      Markup.EachTagList NothingTwice up ms := by
  refine Markup.induction ?_ ?_ ?_ ?_
  · intro q items ms ih up h
    rw [GivenOnce] at h
    refine ⟨⟨h.1.1, ?_⟩, ih _ h.2⟩
    refine List.Nodup.of_map Prod.snd ?_
    rw [List.map_map]
    exact h.1.2
  · intro s up _
    trivial
  · intro up _
    trivial
  · intro m ms ihm ihms up h
    exact ⟨ihm up h.1, ihms up h.2⟩

/-! ## Trees of elements -/

/-- Elements do not run together, so a loop of elements is read as their trees. -/
theorem treeList_map {α : Type} {f : α → Markup}
    (h : ∀ a, ∃ q items ms, f a = .element q items ms) (l : List α) :
    Markup.treeList (l.map f) = l.map fun a => (f a).tree := by
  induction l with
  | nil => rfl
  | cons a l ih =>
    obtain ⟨q, items, ms, ha⟩ := h a
    rw [List.map_cons, Markup.treeList, ih, List.map_cons, ha, Markup.tree]
    rfl

/-- An element is not merged with what follows it. -/
theorem treeList_element (q : QName) (items : List Attr) (ms ms' : List Markup) :
    Markup.treeList (.element q items ms :: ms') =
      Markup.tree (.element q items ms) :: Markup.treeList ms' := by
  rw [Markup.treeList, Markup.tree]
  rfl

theorem treeList_nil : Markup.treeList [] = [] := rfl

/-- Nor is it merged with what stands before it. -/
theorem treeList_append_element (ms : List Markup) (q : QName) (items : List Attr)
    (ms' : List Markup) : Markup.treeList (ms ++ [.element q items ms']) =
      Markup.treeList ms ++ [Markup.tree (.element q items ms')] := by
  -- a text is merged with the text behind it only, and an element at the end is none
  have hcons : ∀ (t : Tree) (ts : List Tree), consNode t (ts ++ [Markup.tree (.element q items ms')]) =
      consNode t ts ++ [Markup.tree (.element q items ms')] := by
    intro t ts
    rw [Markup.tree]
    cases t with
    | text s =>
      cases ts with
      | nil => cases s <;> rfl
      | cons t' ts =>
        cases t' with
        | text s' => rfl
        | _ => cases s <;> rfl
    | _ => rfl
  induction ms with
  | nil => rw [List.nil_append, treeList_element]; rfl
  | cons m ms ih => rw [List.cons_append, Markup.treeList, ih, hcons, Markup.treeList]

/-! ## The constants of the writer -/

/-- The name of a call is a qualified name. -/
def legalName (qname : Str) : Bool :=
  decide (qnameOf qname).Ok && decide (qname = qnameText (qnameOf qname).pre (qnameOf qname).loc)

/-- What a call takes from the program is legal, whatever values it is given. -/
def legalCall : XmlCall → Bool
  | .start qname => legalName qname
  | .ns pre uri => decide (DeclOk (pre, uri))
  | .attr qname _ _ => legalName qname && decide (qname ≠ xmlnsPre)
  | .leaf qname _ _ => legalName qname
  | .text _ _ => true
  | .endElement => true

private theorem legalName_spec {qname : Str} (h : legalName qname = true) :
    ∃ q : QName, q.Ok ∧ qname = qnameText q.pre q.loc := by
  rw [legalName, Bool.and_eq_true, decide_eq_true_eq, decide_eq_true_eq] at h
  exact ⟨_, h⟩

/-- A name that the check admits is the text of a qualified name, and `xmlns` is no attribute. -/
theorem legal_of_legalCall {c : XmlCall} (h : legalCall c = true) : c.Legal := by
  cases c with
  | start qname => exact legalName_spec h
  | ns pre uri => exact (of_decide_eq_true h : DeclOk (pre, uri))
  | attr qname value field =>
    rw [legalCall, Bool.and_eq_true, decide_eq_true_eq] at h
    obtain ⟨q, hq, rfl⟩ := legalName_spec h.1
    refine ⟨q, hq, fun hx => h.2 ?_, rfl⟩
    rw [hx.1, hx.2]
    rfl
  | text value field => trivial
  | leaf qname value field => exact legalName_spec h
  | endElement => trivial

/-- One evaluation decides the legality of a writer's constants. -/
theorem legal_of_all {calls : List XmlCall} (h : calls.all legalCall = true) :
    ∀ c ∈ calls, c.Legal :=
  fun c hc => legal_of_legalCall (List.all_eq_true.mp h c hc)

/-- The value of an optional attribute does not matter to its legality. -/
theorem legal_optionalAttr {qname : Str} (h : legalCall (.attr qname [] []) = true) (field : Str)
    (value : Option Str) : (optionalAttr qname field value).all legalCall = true := by
  cases value with
  | none => rfl
  | some v => rw [optionalAttr, Option.toList_some, List.map_singleton, List.all_cons, List.all_nil,
      Bool.and_true]; exact h

/-- A writer that held nothing is the writer itself. -/
theorem rebased_self {out : XmlOut} (h : out.segments = []) : out.rebased [] [] = out := by
  rw [XmlOut.rebased, List.nil_append, ← h]

end Asx
