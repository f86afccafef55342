import Asx.ForStd.Ascii
import Asx.ForStd.Trim
import Asx.Native.XmlOut
import Asx.Spec.C14nFaithful
import Asx.Xml.Markup

/-!
# What the XML writer was told

Calls of the writer describe markup: elements with what they were given, and text. The writer
holds a buffer instead, in which start tags stay open until something follows them. The two are
run side by side; the buffer is always the text of what has been described, and the checks of
the writer make every prefix of it resolve.

## Key results
- `Simulates.run`: a run of the writer writes what the calls describe
- `wellFormed_tree`: what was described is well-formed, once nothing is given twice
-/

namespace Asx

open Xml

/-! ## Descriptions -/

/-- A name as it is given: a prefix before the first colon, or none. -/
def qnameOf (qname : Str) : QName :=
  match Str.splitOnce ':' qname with
  | some (pre, loc) => ⟨pre, loc⟩
  | none => ⟨[], qname⟩

/-- An element that calls have opened, as far as it is described. -/
structure OpenElement where
  name : QName
  items : List Attr
  content : List Markup

/-- What calls describe: the open elements, innermost first, and what stands outside them. -/
structure Description where
  opened : List OpenElement
  nodes : List Markup

namespace Description

/-- Nothing yet. -/
def empty : Description := ⟨[], []⟩

/-- An element opens. -/
def start (d : Description) (qname : Str) : Description :=
  { d with opened := ⟨qnameOf qname, [], []⟩ :: d.opened }

/-- The innermost open element is given an attribute or a declaration. -/
def give (d : Description) (item : Attr) : Option Description :=
  match d.opened with
  | e :: rest => some { d with opened := { e with items := e.items ++ [item] } :: rest }
  | [] => none

/-- A node follows, in the innermost open element or outside of all. -/
def add (d : Description) (m : Markup) : Description :=
  match d.opened with
  | e :: rest => { d with opened := { e with content := e.content ++ [m] } :: rest }
  | [] => { d with nodes := d.nodes ++ [m] }

/-- The innermost open element ends. -/
def endElement (d : Description) : Option Description :=
  match d.opened with
  | e :: rest => some (add { d with opened := rest } (.element e.name e.items e.content))
  | [] => none

/-- What a call adds. -/
def call (d : Description) : XmlCall → Option Description
  | .start qname => some (d.start qname)
  | .ns pre uri => d.give (declAttr (pre, uri))
  | .attr qname value _ => d.give ⟨qnameOf qname, value⟩
  | .text value _ => some (d.add (.text value))
  | .leaf qname value _ => ((d.start qname).add (.text value)).endElement
  | .endElement => d.endElement

/-- What some calls add. -/
def run (d : Description) (calls : List XmlCall) : Option Description := calls.foldlM call d

end Description

/-- The markup that calls describe which close all they open. -/
def describe (calls : List XmlCall) : Option (List Markup) :=
  (Description.empty.run calls).bind fun d => if d.opened.isEmpty then some d.nodes else none

/-- The names and URIs of a call, which are constants of the program, are legal. -/
def XmlCall.Legal : XmlCall → Prop
  | .start qname => ∃ q : QName, q.Ok ∧ qname = qnameText q.pre q.loc
  | .ns pre uri => DeclOk (pre, uri)
  | .attr qname _ _ => ∃ q : QName, q.Ok ∧ ¬ (q.pre = [] ∧ q.loc = xmlnsPre) ∧
      qname = qnameText q.pre q.loc
  | .text _ _ => True
  | .leaf qname _ _ => ∃ q : QName, q.Ok ∧ qname = qnameText q.pre q.loc
  | .endElement => True

/-! ## Names -/

private theorem splitOnce_eq_none {s : Str} (h : ':' ∉ s) : Str.splitOnce ':' s = none := by
  induction s with
  | nil => rfl
  | cons c s ih =>
    rw [List.mem_cons, not_or] at h
    simp [Str.splitOnce, Ne.symm h.1, ih h.2]

/-- A qualified name is split at the colon behind its prefix, which holds none. -/
theorem splitOnce_qnameText {q : QName} (hq : q.IsName) :
    Str.splitOnce ':' (qnameText q.pre q.loc) =
      if q.pre = [] then none else some (q.pre, q.loc) := by
  by_cases hpre : q.pre = []
  · simp only [qnameText, hpre, if_true]
    exact splitOnce_eq_none (colon_notMem_of_isNCName hq.2)
  · simp only [qnameText, hpre, if_false]
    exact Str.splitOnce_append (colon_notMem_of_isNCName (hq.1.resolve_left hpre)) q.loc

/-- The writer reads a qualified name back from its text. -/
theorem qnameOf_qnameText {q : QName} (hq : q.IsName) : qnameOf (qnameText q.pre q.loc) = q := by
  rw [qnameOf, splitOnce_qnameText hq]
  by_cases hpre : q.pre = []
  · simp only [hpre, if_true, qnameText]
    rw [← hpre]
  · simp only [hpre, if_false]

theorem prefixOf_qnameText {q : QName} (hq : q.IsName) :
    prefixOf (qnameText q.pre q.loc) = if q.pre = [] then none else some q.pre := by
  rw [prefixOf, splitOnce_qnameText hq]
  split <;> rfl

/-! ## Values -/

private theorem isChar_of_printable {c : Char} (h : 0x20 ≤ c.toNat) (h' : c.toNat < 0x7F) :
    isChar c = true := by
  simp only [isChar, inRanges, List.any_cons, Bool.or_eq_true, Bool.and_eq_true, decide_eq_true_eq]
  omega

/-- A test of bytes that only ASCII passes is a test of characters. -/
private theorem all_chars_of_all_bytes {value : Str} {f : UInt8 → Bool}
    (hf : ∀ b, f b = true → b.toNat < 0x7F) (h : (Str.utf8 value).all f = true) :
    ∀ c ∈ value, f (.ofNat c.toNat) = true ∧ (UInt8.ofNat c.toNat).toNat = c.toNat := by
  have hall := List.all_eq_true.mp h
  obtain ⟨hchars, hmap⟩ := Str.utf8_eq_map fun b hb => Nat.lt_succ_of_lt (hf b (hall b hb))
  intro c hc
  have hmem : UInt8.ofNat c.toNat ∈ Str.utf8 value := by
    rw [hmap]
    exact List.mem_map_of_mem hc
  refine ⟨hall _ hmem, ?_⟩
  have hlt := hchars c hc
  rw [UInt8.toNat_ofNat']
  omega

private theorem flatMap_eq_self {esc : Char → Str} {value : Str} (h : ∀ c ∈ value, esc c = [c]) :
    value.flatMap esc = value := by
  induction value with
  | nil => rfl
  | cons c value ih =>
    rw [List.flatMap_cons, h c List.mem_cons_self, ih fun d hd => h d (List.mem_cons_of_mem _ hd)]
    rfl

/-- Plain text is legal and is escaped to itself. -/
theorem plainText_spec {value : Str} (h : plainText value = true) :
    AllChars value ∧ escapeText value = value := by
  have hchars := all_chars_of_all_bytes (by
    intro b hb
    simp only [Bool.and_eq_true, decide_eq_true_eq] at hb
    exact UInt8.lt_iff_toNat_lt.mp hb.1.1.1.2) h
  simp only [Bool.and_eq_true, decide_eq_true_eq, bne_iff_ne, UInt8.le_iff_toNat_le,
    UInt8.lt_iff_toNat_lt] at hchars
  refine ⟨fun c hc => ?_, flatMap_eq_self fun c hc => ?_⟩
  · obtain ⟨⟨⟨⟨⟨hle, hlt⟩, -⟩, -⟩, -⟩, hnat⟩ := hchars c hc
    rw [hnat] at hle hlt
    exact isChar_of_printable hle hlt
  · obtain ⟨⟨⟨⟨⟨hle, -⟩, hlt⟩, hgt⟩, hamp⟩, hnat⟩ := hchars c hc
    rw [hnat] at hle
    simp only [escapeTextChar]
    split
    · exact absurd (by decide) hlt
    · exact absurd (by decide) hgt
    · exact absurd (by decide) hamp
    · exact absurd hle (by decide)
    · rfl

/-- A plain attribute value is legal and is escaped to itself. -/
theorem plainAttr_spec {value : Str} (h : plainAttr value = true) :
    AllChars value ∧ escapeAttrValue value = value := by
  have hchars := all_chars_of_all_bytes (by
    intro b hb
    simp only [Bool.and_eq_true, decide_eq_true_eq] at hb
    exact UInt8.lt_iff_toNat_lt.mp hb.1.1.1.2) h
  simp only [Bool.and_eq_true, decide_eq_true_eq, bne_iff_ne, UInt8.le_iff_toNat_le,
    UInt8.lt_iff_toNat_lt] at hchars
  refine ⟨fun c hc => ?_, flatMap_eq_self fun c hc => ?_⟩
  · obtain ⟨⟨⟨⟨⟨hle, hlt⟩, -⟩, -⟩, -⟩, hnat⟩ := hchars c hc
    rw [hnat] at hle hlt
    exact isChar_of_printable hle hlt
  · obtain ⟨⟨⟨⟨⟨hle, -⟩, hlt⟩, hamp⟩, hquot⟩, hnat⟩ := hchars c hc
    rw [hnat] at hle
    simp only [escapeAttrChar]
    split
    · exact absurd (by decide) hamp
    · exact absurd (by decide) hlt
    · exact absurd (by decide) hquot
    · exact absurd hle (by decide)
    · exact absurd hle (by decide)
    · exact absurd hle (by decide)
    · rfl

/-- `check_chars` admits only the characters of XML. -/
theorem allChars_of_checkChars {value field : Str} (h : checkChars value field = .ok ()) :
    AllChars value := by
  intro c hc
  unfold checkChars at h
  split at h
  · rename_i hfind
    simpa using List.find?_eq_none.mp hfind c hc
  · cases h

/-- What the writer lets through is legal. -/
theorem allChars_of_checkUnlessPlain {plain : Bool} {value field : Str}
    (hplain : plain = true → AllChars value) (h : checkUnlessPlain plain value field = .ok ()) :
    AllChars value := by
  cases plain with
  | true => exact hplain rfl
  | false => exact allChars_of_checkChars h

/-- Text is written escaped, on the fast path too. -/
theorem written_text (value : Str) :
    (if plainText value then value else escapeText value) = escapeText value := by
  split
  · exact (plainText_spec ‹_›).2.symm
  · rfl

/-- A plain value escapes to itself, so the shortcut of the writer changes nothing. -/
theorem written_attr (value : Str) :
    (if plainAttr value then value else escapeAttrValue value) = escapeAttrValue value := by
  split
  · exact (plainAttr_spec ‹_›).2.symm
  · rfl

/-! ## What a run keeps -/

/-- What an element can be given: a legal declaration, or an attribute that is none. -/
def ItemOk (a : Attr) : Prop :=
  (∃ d, DeclOk d ∧ a = declAttr d) ∨
    (a.name.Ok ∧ ¬ (a.name.pre = [] ∧ a.name.loc = xmlnsPre) ∧ AllChars a.value)

/-- The prefixes that items declare. -/
def declaredBy (items : List Attr) : List Str := (declsOf items).map Prod.fst

/-- A prefix that resolves where these are declared. -/
def Known (scope : List Str) (pre : Str) : Prop := pre = [] ∨ pre = xmlPre ∨ pre ∈ scope

/-- What a start tag was given: legal items, and attributes whose prefixes resolve. -/
def ItemsMade (scope : List Str) (items : List Attr) : Prop :=
  (∀ a ∈ items, ItemOk a) ∧ ∀ a ∈ attrsOf items, Known (declaredBy items ++ scope) a.name.pre

mutual

/-- Markup as a run leaves it, under elements that declare these prefixes. -/
def Made (scope : List Str) : Markup → Prop
  | .element q items ms =>
    q.Ok ∧ Known (declaredBy items ++ scope) q.pre ∧ ItemsMade scope items ∧
      MadeList (declaredBy items ++ scope) ms
  | .text s => AllChars s

/-- A list of markup as a run leaves it. -/
def MadeList (scope : List Str) : List Markup → Prop
  | [] => True
  | m :: ms => Made scope m ∧ MadeList scope ms

end

theorem madeList_append {scope : List Str} {ms ms' : List Markup} :
    MadeList scope (ms ++ ms') ↔ MadeList scope ms ∧ MadeList scope ms' := by
  induction ms with
  | nil => simp [MadeList]
  | cons m ms ih => simp [MadeList, ih, and_assoc]

/-- The prefixes that open elements declare. -/
def scopeOf : List OpenElement → List Str
  | [] => []
  | e :: rest => declaredBy e.items ++ scopeOf rest

/-- Open elements as a run leaves them; the prefix of an element is checked when it ends. -/
def OpenMade : List OpenElement → Prop
  | [] => True
  | e :: rest => e.name.Ok ∧ ItemsMade (scopeOf rest) e.items ∧ MadeList (scopeOf (e :: rest)) e.content ∧
      OpenMade rest

section

variable (selfClose : Bool)

/-- The text of markup as the writer escapes it. -/
def printed (ms : List Markup) : Str := Markup.printList textEscape attrEscape selfClose ms

/-- The text of a start tag up to its last character. -/
def startText (e : OpenElement) : Str :=
  '<' :: qnameText e.name.pre e.name.loc ++ e.items.flatMap (Xml.writeAttr attrEscape)

/-- The text of open elements whose start tags are closed. -/
def closedText : List OpenElement → Str
  | [] => []
  | e :: rest => closedText rest ++ (startText e ++ '>' :: printed selfClose e.content)

/-- The text of open elements; the innermost start tag is open while nothing follows it. -/
def openText : List OpenElement → Str
  | [] => []
  | e :: rest => closedText selfClose rest ++
      (startText e ++ if e.content.isEmpty then [] else '>' :: printed selfClose e.content)

end

/-- Whether the innermost start tag is open. -/
def Description.tagOpen (d : Description) : Bool :=
  match d.opened with
  | [] => false
  | e :: _ => e.content.isEmpty

/-- An open element as the writer keeps it. -/
def OpenElement.kept (e : OpenElement) : XmlOpen :=
  ⟨qnameText e.name.pre e.name.loc, declaredBy e.items⟩

private theorem declsOf_append (items items' : List Attr) :
    declsOf (items ++ items') = declsOf items ++ declsOf items' := by
  simp [declsOf]

private theorem attrsOf_append (items items' : List Attr) :
    attrsOf (items ++ items') = attrsOf items ++ attrsOf items' := by
  simp [attrsOf]

private theorem declsOf_attr {a : Attr} (h : declOf a = none) : declsOf [a] = [] := by
  simp [declsOf, h]

private theorem declsOf_declAttr {b : Str × Str} (h : DeclOk b) : declsOf [declAttr b] = [b] := by
  have hne : b ≠ (xmlPre, xmlNs) := by
    intro heq
    exact h.2.1 (by rw [heq])
  simp [declsOf, hne]

/-- A prefix that resolves still does where more are declared. -/
private theorem Known.mono {scope scope' : List Str} {pre : Str} (h : Known scope pre)
    (hsub : scope ⊆ scope') : Known scope' pre := by
  obtain h | h | h := h
  · exact .inl h
  · exact .inr (.inl h)
  · exact .inr (.inr (hsub h))

/-- A start tag that is given one item more. -/
private theorem itemsMade_append {scope : List Str} {items : List Attr} {item : Attr}
    (h : ItemsMade scope items) (hitem : ItemOk item)
    (hknown : declOf item = none → Known (declaredBy items ++ scope) item.name.pre) :
    ItemsMade scope (items ++ [item]) := by
  have hsub : declaredBy items ++ scope ⊆ declaredBy (items ++ [item]) ++ scope := by
    simp only [declaredBy, declsOf_append, List.map_append, List.append_assoc]
    intro p hp
    simp only [List.mem_append] at hp ⊢
    exact hp.imp_right .inr
  refine ⟨fun a ha => ?_, fun a ha => ?_⟩
  · cases List.mem_append.mp ha with
    | inl hmem => exact h.1 a hmem
    | inr hmem =>
      obtain rfl := List.mem_singleton.mp hmem
      exact hitem
  · rw [attrsOf_append, List.mem_append] at ha
    cases ha with
    | inl hmem => exact (h.2 a hmem).mono hsub
    | inr hmem =>
      obtain ⟨hmem, hnone⟩ := List.mem_filter.mp hmem
      obtain rfl := List.mem_singleton.mp hmem
      exact (hknown (Option.isNone_iff_eq_none.mp hnone)).mono hsub

/-- The writer's state stands for what was described. -/
structure Simulates (form : EmptyForm) (out : XmlOut) (d : Description) : Prop where
  emptyForm : out.emptyForm = form
  buf : out.buf = printed (form == .selfClosing) d.nodes ++
    openText (form == .selfClosing) d.opened
  stack : out.stack = d.opened.map OpenElement.kept
  tagOpen : out.tagOpen = d.tagOpen
  segments : out.segments = []
  openMade : OpenMade d.opened
  made : MadeList [] d.nodes

namespace Simulates

variable {form : EmptyForm} {out out' : XmlOut} {d : Description}

/-- A new writer stands for the empty description. -/
theorem withForm (form : EmptyForm) : Simulates form (.withForm form) .empty where
  emptyForm := rfl
  buf := rfl
  stack := rfl
  tagOpen := rfl
  segments := rfl
  openMade := trivial
  made := trivial

/-- Closing the start tag completes the text of the open elements. -/
theorem closeStartTag (h : Simulates form out d) :
    out.closeStartTag = { out with
      buf := printed (form == .selfClosing) d.nodes ++
        closedText (form == .selfClosing) d.opened
      tagOpen := false } := by
  have hbuf := h.buf
  have htag := h.tagOpen
  rw [XmlOut.closeStartTag]
  cases hopened : d.opened with
  | nil =>
    simp only [Description.tagOpen, hopened] at htag
    simp only [hopened, openText] at hbuf
    rw [htag, if_neg Bool.false_ne_true, closedText, ← hbuf, ← htag]
  | cons e rest =>
    simp only [Description.tagOpen, hopened] at htag
    simp only [hopened, openText] at hbuf
    rw [htag]
    cases hempty : e.content.isEmpty with
    | true =>
      simp only [hempty, if_true, List.append_nil] at hbuf
      rw [if_pos rfl, hbuf, closedText, List.isEmpty_iff.mp hempty]
      simp [printed, Markup.printList]
    | false =>
      simp only [hempty, Bool.false_eq_true, if_false] at hbuf
      rw [if_neg Bool.false_ne_true, closedText, ← hbuf]
      rw [hempty] at htag
      rw [← htag]

/-- `start` opens the element in the text and in the description. -/
theorem start (h : Simulates form out d) {q : QName} (hq : q.Ok)
    (hcall : out.start (qnameText q.pre q.loc) = .ok out') :
    Simulates form out' (d.start (qnameText q.pre q.loc)) := by
  simp only [XmlOut.start, h.closeStartTag, Except.ok.injEq] at hcall
  subst hcall
  have hitems : ItemsMade (scopeOf d.opened) [] := by
    refine ⟨fun a ha => ?_, fun a ha => ?_⟩
    · cases ha
    · cases ha
  refine ⟨h.emptyForm, ?_, ?_, rfl, h.segments, ?_, h.made⟩
  · simp [Description.start, openText, startText, qnameOf_qnameText hq.1]
  · simp [Description.start, OpenElement.kept, qnameOf_qnameText hq.1, h.stack, declaredBy, declsOf]
  · rw [Description.start, OpenMade, qnameOf_qnameText hq.1]
    exact ⟨hq, hitems, trivial, h.openMade⟩

/-- The open start tag is given an item. -/
private theorem give (h : Simulates form out d) (hopen : out.tagOpen = true) {item : Attr}
    (hitem : ItemOk item) (hknown : declOf item = none → Known (scopeOf d.opened) item.name.pre) :
    ∃ d', d.give item = some d' ∧ Simulates form { out with
      buf := out.buf ++ Xml.writeAttr attrEscape item
      stack := d'.opened.map OpenElement.kept } d' := by
  have htag := h.tagOpen
  have hmade := h.openMade
  have hbuf := h.buf
  rw [hopen, Description.tagOpen] at htag
  cases hopened : d.opened with
  | nil =>
    rw [hopened] at htag
    cases htag
  | cons e rest =>
    rw [hopened] at htag hmade hbuf hknown
    have hempty : e.content.isEmpty = true := htag.symm
    rw [OpenMade] at hmade
    obtain ⟨hname, hitems, -, hrest⟩ := hmade
    have hitems' := itemsMade_append hitems hitem hknown
    simp only [openText, hempty, if_true, List.append_nil] at hbuf
    simp only [Description.give, hopened, Option.some.injEq, exists_eq_left']
    refine ⟨h.emptyForm, ?_, rfl, ?_, h.segments, ?_, ?_⟩
    · simp [openText, startText, hempty, hbuf]
    · simp [Description.tagOpen, hempty, hopen]
    · rw [OpenMade]
      refine ⟨hname, hitems', ?_, hrest⟩
      rw [List.isEmpty_iff.mp hempty]
      trivial
    · exact h.made

/-- `ns` that succeeds gives the open element its declaration. -/
theorem ns (h : Simulates form out d) {pre uri : Str} (hdecl : DeclOk (pre, uri))
    (hcall : out.ns pre uri = .ok out') :
    ∃ d', d.give (declAttr (pre, uri)) = some d' ∧ Simulates form out' d' := by
  simp only [XmlOut.ns, Except.bind_eq_ok, Except.rejectIf_eq_ok, Except.pure_eq_ok] at hcall
  obtain ⟨_, hopen, hcall⟩ := hcall
  have hopen : out.tagOpen = true := by simpa using hopen
  obtain ⟨d', hgive, hsim⟩ := h.give hopen (.inl ⟨_, hdecl, rfl⟩) (by simp)
  refine ⟨d', hgive, ?_⟩
  convert hsim using 1
  rw [← hcall]
  have hstack := h.stack
  cases hopened : d.opened with
  | nil => simp [Description.give, hopened] at hgive
  | cons e rest =>
    simp only [Description.give, hopened, Option.some.injEq] at hgive
    rw [hopened] at hstack
    simp only [← hgive, hstack, List.map_cons, OpenElement.kept, declaredBy, declsOf_append,
      declsOf_declAttr hdecl, List.map_append, List.map_nil, XmlOut.mk.injEq, and_true]
    have hquote : "=\"".toList = ['=', '"'] := rfl
    rw [← writeDecl_eq, writeDecl, hquote]
    simp only [List.append_assoc]

/-- The prefix of a name that passes the check is known. -/
private theorem known_of_prefixInScope (h : Simulates form out d) {pre : Str}
    (hscope : out.prefixInScope pre = true) : Known (scopeOf d.opened) pre := by
  rw [XmlOut.prefixInScope, h.stack, Bool.or_eq_true, decide_eq_true_eq, List.any_eq_true] at hscope
  cases hscope with
  | inl hxml => exact .inr (.inl hxml)
  | inr hmem =>
    obtain ⟨kept, hkept, hcontains⟩ := hmem
    obtain ⟨e, he, rfl⟩ := List.mem_map.mp hkept
    refine .inr (.inr ?_)
    have hdeclared : pre ∈ declaredBy e.items := by simpa [OpenElement.kept] using hcontains
    clear h hkept hcontains
    generalize d.opened = opened at he
    induction opened with
    | nil => cases he
    | cons f rest ih =>
      rw [scopeOf, List.mem_append]
      cases List.mem_cons.mp he with
      | inl heq => exact .inl (heq ▸ hdeclared)
      | inr hmem => exact .inr (ih hmem)

/-- `attr` that succeeds gives the open element its attribute. -/
theorem attr (h : Simulates form out d) {q : QName} {value field : Str} (hq : q.Ok)
    (hxmlns : ¬ (q.pre = [] ∧ q.loc = xmlnsPre))
    (hcall : out.attr (qnameText q.pre q.loc) value field = .ok out') :
    ∃ d', d.give ⟨q, value⟩ = some d' ∧ Simulates form out' d' := by
  simp only [XmlOut.attr, Except.bind_eq_ok, Except.rejectIf_eq_ok, Except.pure_eq_ok] at hcall
  obtain ⟨_, hopen, _, hchars, _, hprefix, hcall⟩ := hcall
  have hopen : out.tagOpen = true := by simpa using hopen
  have hvalue := allChars_of_checkUnlessPlain (fun hp => (plainAttr_spec hp).1) hchars
  have hknown : Known (scopeOf d.opened) q.pre := by
    rw [XmlOut.checkPrefix, prefixOf_qnameText hq.1] at hprefix
    by_cases hpre : q.pre = []
    · exact .inl hpre
    · simp only [hpre, if_false, Except.rejectIf_eq_ok] at hprefix
      exact h.known_of_prefixInScope (by simpa using hprefix)
  have hitem : ItemOk ⟨q, value⟩ := .inr ⟨hq, hxmlns, hvalue⟩
  obtain ⟨d', hgive, hsim⟩ := h.give hopen hitem fun _ => hknown
  refine ⟨d', hgive, ?_⟩
  convert hsim using 1
  rw [← hcall, written_attr]
  have hstack := h.stack
  cases hopened : d.opened with
  | nil => simp [Description.give, hopened] at hgive
  | cons e rest =>
    simp only [Description.give, hopened, Option.some.injEq] at hgive
    rw [hopened] at hstack
    have hnone : declOf ⟨q, value⟩ = none := declOf_eq_none hq hxmlns
    simp only [← hgive, hstack, List.map_cons, OpenElement.kept, declaredBy, declsOf_append,
      declsOf_attr hnone, List.append_nil]
    simp [Xml.writeAttr, escapeAttrValue, attrEscape]

/-- A node follows what was described. -/
theorem add (h : Simulates form out d) {m : Markup} (hm : Made (scopeOf d.opened) m) :
    Simulates form { out with
      buf := printed (form == .selfClosing) d.nodes ++
        closedText (form == .selfClosing) d.opened ++
        printed (form == .selfClosing) [m]
      tagOpen := false } (d.add m) := by
  have hmade := h.openMade
  cases hopened : d.opened with
  | nil =>
    rw [hopened] at hm
    refine ⟨h.emptyForm, ?_, ?_, ?_, h.segments, ?_, ?_⟩
    · simp [Description.add, hopened, closedText, openText, printed, Markup.printList_append]
    · simp [Description.add, hopened, h.stack]
    · simp [Description.add, hopened, Description.tagOpen]
    · simp only [Description.add, hopened, OpenMade]
    · simp only [Description.add, hopened, madeList_append]
      exact ⟨h.made, hm, trivial⟩
  | cons e rest =>
    rw [hopened, OpenMade] at hmade
    rw [hopened] at hm
    refine ⟨h.emptyForm, ?_, ?_, ?_, h.segments, ?_, ?_⟩
    · simp [Description.add, hopened, closedText, openText, startText, printed, Markup.printList_append]
    · simp [Description.add, hopened, h.stack, OpenElement.kept]
    · simp [Description.add, hopened, Description.tagOpen]
    · simp only [Description.add, hopened, OpenMade, madeList_append]
      exact ⟨hmade.1, hmade.2.1, ⟨hmade.2.2.1, hm, trivial⟩, hmade.2.2.2⟩
    · simpa only [Description.add, hopened] using h.made

/-- `text` that succeeds adds the text, closing the start tag first. -/
theorem text (h : Simulates form out d) {value field : Str} (hcall : out.text value field = .ok out') :
    Simulates form out' (d.add (.text value)) := by
  simp only [XmlOut.text, Except.bind_eq_ok, Except.rejectIf_eq_ok, Except.pure_eq_ok] at hcall
  obtain ⟨_, -, _, hchars, hcall⟩ := hcall
  have hvalue := allChars_of_checkUnlessPlain (fun hp => (plainText_spec hp).1) hchars
  have hadd := h.add (m := .text value) (by rw [Made]; exact hvalue)
  convert hadd using 1
  rw [← hcall, h.closeStartTag, written_text]
  simp [printed, Markup.printList, Markup.print, escapeText, textEscape]

/-- What the writer holds of an element before its end tag. -/
private theorem buf_of_open (h : Simulates form out d) {e : OpenElement} {rest : List OpenElement}
    (hopened : d.opened = e :: rest) :
    out.tagOpen = e.content.isEmpty ∧
      out.buf = printed (form == .selfClosing) d.nodes ++
        closedText (form == .selfClosing) rest ++ (startText e ++
        if e.content.isEmpty then [] else '>' :: printed (form == .selfClosing) e.content) := by
  have hbuf := h.buf
  have htag := h.tagOpen
  rw [hopened, openText] at hbuf
  rw [Description.tagOpen, hopened] at htag
  exact ⟨htag, by rw [hbuf, List.append_assoc]⟩

/-- The text of an element, from its start tag to its end. -/
private theorem printed_ended (selfClose : Bool) (e : OpenElement) :
    printed selfClose [.element e.name e.items e.content] =
      startText e ++ ((if e.content.isEmpty then [] else '>' :: printed selfClose e.content) ++
        if e.content.isEmpty then
          if selfClose then ['/', '>']
          else '>' :: '<' :: '/' :: qnameText e.name.pre e.name.loc ++ ['>']
        else '<' :: '/' :: qnameText e.name.pre e.name.loc ++ ['>']) := by
  cases hcontent : e.content with
  | nil => cases selfClose <;> simp [printed, Markup.printList, Markup.print, startText]
  | cons m ms => simp [printed, Markup.printList, Markup.print, startText]

/-- `end` that succeeds closes the open element, whose prefix resolves. -/
theorem endElement (h : Simulates form out d) (hcall : out.endElement = .ok out') :
    ∃ d', d.endElement = some d' ∧ Simulates form out' d' := by
  cases hopened : d.opened with
  | nil =>
    rw [XmlOut.endElement, h.stack, hopened] at hcall
    cases hcall
  | cons e rest =>
    have hmade := h.openMade
    rw [hopened, OpenMade] at hmade
    obtain ⟨hname, hitems, hcontent, hrest⟩ := hmade
    obtain ⟨htag, hbuf⟩ := h.buf_of_open hopened
    have hstack := h.stack
    rw [hopened, List.map_cons] at hstack
    -- Without the innermost element the state stands for what is around it.
    have hcut : Simulates form { out with
        buf := printed (form == .selfClosing) d.nodes ++
          openText (form == .selfClosing) rest
        stack := rest.map OpenElement.kept
        tagOpen := Description.tagOpen { d with opened := rest } } { d with opened := rest } :=
      ⟨h.emptyForm, rfl, rfl, rfl, h.segments, hrest, h.made⟩
    simp only [Description.endElement, hopened, Option.some.injEq, exists_eq_left']
    simp only [XmlOut.endElement, hstack, OpenElement.kept, prefixOf_qnameText hname.1] at hcall
    split at hcall
    · cases hcall
    · rename_i hprefix
      have hknown : Known (declaredBy e.items ++ scopeOf rest) e.name.pre := by
        by_cases hpre : e.name.pre = []
        · exact .inl hpre
        · simp only [hpre, if_false, Option.filter_eq_none_iff] at hprefix
          have hok := hprefix _ rfl
          by_cases hown : e.name.pre ∈ declaredBy e.items
          · exact .inr (.inr (List.mem_append_left _ hown))
          · refine (hcut.known_of_prefixInScope ?_).mono (List.subset_append_right _ _)
            simpa [hown, XmlOut.prefixInScope, or_iff_not_imp_left] using hok
      have hadd := hcut.add (m := .element e.name e.items e.content) (by
        rw [Made]
        exact ⟨hname, hknown, hitems, hcontent⟩)
      convert hadd using 1
      have htext := printed_ended (form == .selfClosing) e
      rw [htag] at hcall
      cases hempty : e.content.isEmpty with
      | true =>
        simp only [hempty, if_true, List.append_nil, List.nil_append] at hbuf hcall htext
        rw [h.emptyForm] at hcall
        cases form with
        | selfClosing =>
          rw [← Except.ok.inj hcall]
          simp only [hbuf, htext]
          simp [h.emptyForm]
        | startEnd =>
          rw [← Except.ok.inj hcall]
          simp only [hbuf, htext]
          simp [h.emptyForm]
      | false =>
        simp only [hempty, Bool.false_eq_true, if_false, Except.ok.injEq] at hbuf hcall htext
        rw [← hcall]
        simp [hbuf, htext]

/-- A call of the writer adds what it describes. -/
theorem call (h : Simulates form out d) {c : XmlCall} (hlegal : c.Legal) (hcall : out.call c = .ok out') :
    ∃ d', d.call c = some d' ∧ Simulates form out' d' := by
  cases c with
  | start qname =>
    obtain ⟨q, hq, rfl⟩ := hlegal
    exact ⟨_, rfl, h.start hq hcall⟩
  | ns pre uri => exact h.ns hlegal hcall
  | attr qname value field =>
    obtain ⟨q, hq, hxmlns, rfl⟩ := hlegal
    simp only [Description.call, qnameOf_qnameText hq.1]
    exact h.attr hq hxmlns hcall
  | text value field => exact ⟨_, rfl, h.text hcall⟩
  | leaf qname value field =>
    obtain ⟨q, hq, rfl⟩ := hlegal
    simp only [XmlOut.call, XmlOut.leaf, Except.bind_eq_ok] at hcall
    obtain ⟨out₁, hstart, out₂, htext, hend⟩ := hcall
    exact ((h.start hq hstart).text htext).endElement hend
  | endElement => exact h.endElement hcall

/-- A run of the writer writes what its calls describe. -/
theorem run (h : Simulates form out d) {calls : List XmlCall} (hlegal : ∀ c ∈ calls, c.Legal)
    (hrun : out.run calls = .ok out') : ∃ d', d.run calls = some d' ∧ Simulates form out' d' := by
  induction calls generalizing out d with
  | nil =>
    obtain rfl : out = out' := Except.ok.inj hrun
    exact ⟨d, rfl, h⟩
  | cons c calls ih =>
    simp only [XmlOut.run, List.foldlM_cons, Except.bind_eq_ok] at hrun
    obtain ⟨out₁, hcall, hrun⟩ := hrun
    obtain ⟨d₁, hd₁, hsim⟩ := h.call (hlegal c List.mem_cons_self) hcall
    obtain ⟨d', hd', hsim'⟩ := ih hsim (fun c hc => hlegal c (List.mem_cons_of_mem _ hc)) hrun
    refine ⟨d', ?_, hsim'⟩
    simp only [Description.run, List.foldlM_cons, hd₁, Option.bind_eq_bind, Option.bind_some]
    exact hd'

end Simulates

/-! ## Well-formedness -/

theorem ItemOk.legible {a : Attr} (h : ItemOk a) : a.name.IsName ∧ AllChars a.value := by
  cases h with
  | inl hdecl =>
    obtain ⟨b, hb, rfl⟩ := hdecl
    exact ⟨isName_declAttr hb, hb.2.2.2⟩
  | inr hattr => exact ⟨hattr.1.1, hattr.2.2⟩

theorem ItemsMade.declOk {scope : List Str} {items : List Attr} (h : ItemsMade scope items) :
    ∀ b ∈ declsOf items, DeclOk b := by
  intro b hb
  obtain ⟨a, ha, hdecl⟩ := List.mem_filterMap.mp (List.mem_filter.mp hb).1
  cases h.1 a ha with
  | inl hitem =>
    obtain ⟨b', hb', rfl⟩ := hitem
    rw [declOf_declAttr] at hdecl
    exact Option.some.inj hdecl ▸ hb'
  | inr hitem =>
    rw [declOf_eq_none hitem.1 hitem.2.1] at hdecl
    cases hdecl

/-- What a run leaves can be read. -/
theorem legible_of_made :
    (∀ m : Markup, ∀ scope, Made scope m → m.Legible) ∧
    (∀ ms : List Markup, ∀ scope, MadeList scope ms → Markup.LegibleList ms) := by
  refine Markup.induction ?_ ?_ ?_ ?_
  · intro q items ms ih scope h
    rw [Made] at h
    rw [Markup.Legible]
    exact ⟨h.1.1, fun a ha => (h.2.2.1.1 a ha).legible, ih _ h.2.2.2⟩
  · intro s scope h
    rw [Made] at h
    rw [Markup.Legible]
    exact h
  · intro scope _
    trivial
  · intro m ms ihm ihms scope h
    rw [MadeList] at h
    rw [Markup.LegibleList]
    exact ⟨ihm scope h.1, ihms scope h.2⟩

/-- No prefix is declared twice on an element, and no attribute is given twice. -/
def NothingTwice (chain : List Tree) (_ : QName) (items : List Attr) : Prop :=
  (declaredBy items).Nodup ∧ ((attrsOf items).map (expandedName chain)).Nodup

/-- Each of the prefixes has a binding. -/
def InScope (scope : List Str) (chain : List Tree) : Prop := ∀ p ∈ scope, (inScope chain p).isSome

private theorem lookup_isSome {l : List (Str × Str)} {p : Str} (h : p ∈ l.map Prod.fst) :
    (l.lookup p).isSome := by
  obtain ⟨b, hb, rfl⟩ := List.mem_map.mp h
  rw [Option.isSome_iff_ne_none]
  intro hnone
  have hne := List.lookup_eq_none_iff.mp hnone b hb
  simp at hne

/-- Inside an element its own declarations are in scope as well. -/
private theorem InScope.child {scope : List Str} {up : List Tree} (h : InScope scope up)
    (q : QName) (items : List Attr) (ms : List Markup) :
    InScope (declaredBy items ++ scope) (Markup.tree (.element q items ms) :: up) := by
  intro p hp
  rw [inScope_cons, Option.isSome_or, Bool.or_eq_true]
  cases List.mem_append.mp hp with
  | inl hown => exact .inl (by rw [Markup.tree]; exact lookup_isSome hown)
  | inr hmem => exact .inr (h p hmem)

/-- A known prefix resolves. -/
private theorem bound_of_known {scope : List Str} {chain : List Tree} (hs : ScopeOk chain)
    (hscope : InScope scope chain) {q : QName} (h : Known scope q.pre) : Bound chain q := by
  by_cases hnil : q.pre = []
  · exact .inl hnil
  refine .inr ?_
  by_cases hxml : q.pre = xmlPre
  · simp [resolve, hxml]
  · have hmem : q.pre ∈ scope := (h.resolve_left hnil).resolve_left hxml
    obtain ⟨u, hu⟩ := Option.isSome_iff_exists.mp (hscope _ hmem)
    have hne : u ≠ [] := ((declOk_of_inScope hs hu).1.resolve_left hnil).2.2.2
    cases u with
    | nil => exact absurd rfl hne
    | cons c cs => simp [resolve, hxml, hu, nsOfUri]

/-- What a run leaves is well-formed, when nothing is given twice. -/
theorem wellFormed_tree :
    (∀ m : Markup, ∀ scope up, Made scope m → ScopeOk up → InScope scope up →
      m.EachTag NothingTwice up → WellFormed up m.tree) ∧
    (∀ ms : List Markup, ∀ scope up, MadeList scope ms → ScopeOk up → InScope scope up →
      Markup.EachTagList NothingTwice up ms → WellFormedList up (Markup.treeList ms)) := by
  refine Markup.induction ?_ ?_ ?_ ?_
  · intro q items ms ih scope up hmade hs hscope htwice
    rw [Made] at hmade
    rw [Markup.EachTag] at htwice
    obtain ⟨hname, hknown, hitems, hms⟩ := hmade
    have hscope' := hscope.child q items ms
    have hs' : ScopeOk (Markup.tree (.element q items ms) :: up) := by
      intro t ht
      cases List.mem_cons.mp ht with
      | inl heq =>
        rw [heq, Markup.tree]
        exact ⟨hitems.declOk, htwice.1.1⟩
      | inr hmem => exact hs t hmem
    have hchildren := ih _ _ hms hs' hscope' htwice.2
    rw [Markup.tree] at hs' hscope' hchildren htwice ⊢
    rw [WellFormed]
    -- the prefixes of an element resolve in the scope that it opens itself
    refine ⟨⟨hname, bound_of_known hs' hscope' hknown, hitems.declOk, htwice.1.1, fun a ha => ?_,
      htwice.1.2⟩, hchildren⟩
    obtain ⟨hmem, hnone⟩ := List.mem_filter.mp ha
    cases hitems.1 a hmem with
    | inl hdecl =>
      obtain ⟨b, -, rfl⟩ := hdecl
      rw [declOf_declAttr] at hnone
      cases hnone
    | inr hattr =>
      exact ⟨hattr.1, hattr.2.1, bound_of_known hs' hscope' (hitems.2 a ha), hattr.2.2⟩
  · intro s scope up hmade _ _ _
    rw [Made] at hmade
    rw [Markup.tree, WellFormed]
    exact hmade
  · intro scope up _ _ _ _
    trivial
  · intro m ms ihm ihms scope up hmade hs hscope htwice
    rw [MadeList] at hmade
    rw [Markup.EachTagList] at htwice
    rw [Markup.treeList]
    exact wellFormedList_consNode (ihm scope up hmade.1 hs hscope htwice.1)
      (ihms scope up hmade.2 hs hscope htwice.2)

/-- A document declares nothing. -/
theorem scopeOk_root (cs : List Tree) : ScopeOk [.root cs] := by
  intro t ht
  rw [List.mem_singleton.mp ht]
  exact ⟨by simp [Tree.decls], by simp [Tree.decls]⟩

/-- The text of a finished writer parses as the tree that it was told of, also after an XML
    declaration. -/
theorem Simulates.parse {form : EmptyForm} {out : XmlOut} {d : Description} {q : QName}
    {items : List Attr} {ms : List Markup} (hsim : Simulates form out d) (hopened : d.opened = [])
    (hnodes : d.nodes = [.element q items ms])
    (htwice : Markup.EachTag NothingTwice [.root [Markup.tree (.element q items ms)]]
      (.element q items ms)) {lead : Str} (hlead : lead = [] ∨ lead = Markup.xmlDeclaration) :
    out.buf = printed (form == .selfClosing) [.element q items ms] ∧
      ∃ h, Xml.parse (lead ++ out.buf) = some ⟨[Markup.tree (.element q items ms)], h⟩ := by
  have hmade := hsim.made
  have hbuf := hsim.buf
  rw [hnodes, MadeList] at hmade
  rw [hopened, hnodes, openText, List.append_nil] at hbuf
  refine ⟨hbuf, ?_⟩
  have hwf := wellFormed_tree.1 _ [] _ hmade.1 (scopeOk_root _) (by intro p hp; cases hp) htwice
  obtain ⟨h, hparse⟩ := @Markup.parse_print textEscape attrEscape (form == .selfClosing) q items ms
    (legible_of_made.1 _ [] hmade.1) lead hlead hwf
  refine ⟨h, ?_⟩
  rw [hbuf, printed, Markup.printList, Markup.printList, List.append_nil]
  exact hparse

/-- The text of a finished writer parses as the tree that its calls describe. -/
theorem parse_of_run {form : EmptyForm} {calls : List XmlCall} {out : XmlOut} {doc : XmlDoc}
    {q : QName} {items : List Attr} {ms : List Markup} (hlegal : ∀ c ∈ calls, c.Legal)
    (hrun : (XmlOut.withForm form).run calls = .ok out) (hfinish : out.finish = .ok doc)
    (hroot : describe calls = some [.element q items ms])
    (htwice : Markup.EachTag NothingTwice [.root [Markup.tree (.element q items ms)]]
      (.element q items ms)) :
    doc.intoString = .ok (printed (form == .selfClosing) [.element q items ms]) ∧
      ∃ h, Xml.parse (printed (form == .selfClosing) [.element q items ms]) =
        some ⟨[Markup.tree (.element q items ms)], h⟩ := by
  obtain ⟨d, hd, hsim⟩ := (Simulates.withForm form).run hlegal hrun
  obtain ⟨hopened, hnodes⟩ : d.opened = [] ∧ d.nodes = [.element q items ms] := by
    simp only [describe, hd, Option.bind_some, Option.ite_none_right_eq_some, List.isEmpty_iff,
      Option.some.injEq] at hroot
    exact hroot
  obtain ⟨hbuf, hparse⟩ := hsim.parse hopened hnodes htwice (.inl rfl)
  have hstack := hsim.stack
  rw [hopened, List.map_nil] at hstack
  simp only [XmlOut.finish, hstack, hsim.segments, Except.ok.injEq] at hfinish
  refine ⟨?_, ?_⟩
  · rw [← hfinish, XmlDoc.intoString, hbuf]
    simp only [List.nil_append, List.length_nil, List.replicate_zero, List.any_nil, XmlDoc.joined,
      List.append_nil]
    rfl
  · rw [← hbuf]
    exact hparse

end Asx
