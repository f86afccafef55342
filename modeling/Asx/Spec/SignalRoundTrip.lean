import Asx.Spec.SignalFrame
import Asx.Spec.Prescan

/-!
# Receipts on the wire

A receipt is written as calls of the XML writer and read by the signal parser of the other side.
What the parser finds by name in the tree of its envelope is what was written.

Key results:
- `parse_receipt`: the envelope of any receipt is read as its message info and its references
- `generated_receipt_read_back`: what `generate_receipt_with_nri` writes
- `signed_receipt_read_back`: what `draft_receipt` drafts and `finish_signal` finishes
-/

namespace Asx

open Xml XmlCall

/-! ## Receipts -/

/-- A reference of a receipt, as it is written. -/
def nriReferenceMarkup (r : As4NriReference) : Markup :=
  .element ⟨.lit "ds", .lit "Reference"⟩ [⟨⟨[], .lit "URI"⟩, r.uri⟩]
    [.element ⟨.lit "ds", .lit "DigestMethod"⟩ [⟨⟨[], .lit "Algorithm"⟩, r.digestMethodUri⟩] [],
      .element ⟨.lit "ds", .lit "DigestValue"⟩ [] [.text r.digestValueB64]]

/-- What a reference holds. -/
def nriReferenceChildren (r : As4NriReference) : List Tree :=
  [.element ⟨.lit "ds", .lit "DigestMethod"⟩ [] [⟨⟨[], .lit "Algorithm"⟩, r.digestMethodUri⟩] [],
    .element ⟨.lit "ds", .lit "DigestValue"⟩ [] [] (Markup.treeList [.text r.digestValueB64])]

theorem tree_nriReferenceMarkup (r : As4NriReference) : (nriReferenceMarkup r).tree =
    .element ⟨.lit "ds", .lit "Reference"⟩ [] [⟨⟨[], .lit "URI"⟩, r.uri⟩] (nriReferenceChildren r) :=
  rfl

/-- The part of the receipt around it. -/
def nriPartMarkup (r : As4NriReference) : Markup :=
  .element ⟨.lit "ebbpsig", .lit "MessagePartNRInformation"⟩ [] [nriReferenceMarkup r]

/-- `ebbpsig:NonRepudiationInformation`. -/
def nriMarkup (nriRefs : List As4NriReference) : Markup :=
  .element ⟨.lit "ebbpsig", .lit "NonRepudiationInformation"⟩ [] (nriRefs.map nriPartMarkup)

/-- `eb:Receipt`. -/
def receiptMarkup (nriRefs : List As4NriReference) : Markup :=
  .element (ebName (.lit "Receipt")) [] [nriMarkup nriRefs]

/-- The calls for a receipt write it. -/
theorem writes_receipt (nriRefs : List As4NriReference) :
    Writes (writeReceipt nriRefs) [receiptMarkup nriRefs] := by
  intro q items content rest nodes
  have hpart : ∀ r, Writes (writeNriReference r) [nriPartMarkup r] := fun r _ _ _ _ _ => rfl
  simp only [writeReceipt, List.cons_append, List.nil_append, Description.run_start,
    (Writes.map hpart nriRefs).run, Description.run_endElement, Description.run_nil]
  rfl

/-- They are legal, whatever references they are given. -/
theorem legal_writeReceipt (nriRefs : List As4NriReference) :
    (writeReceipt nriRefs).all legalCall = true := by
  rw [writeReceipt, List.all_append, List.all_append, Bool.and_eq_true, Bool.and_eq_true]
  refine ⟨⟨rfl, ?_⟩, rfl⟩
  rw [List.all_flatMap, List.all_eq_true]
  exact fun r _ => rfl

/-- A receipt gives nothing twice. -/
theorem givenOnce_receiptMarkup (nriRefs : List As4NriReference) :
    GivenOnce (receiptMarkup nriRefs) := by
  have hempty : (declaredBy []).Nodup ∧ ((attrsOf []).map fun a => a.name.loc).Nodup :=
    ⟨List.nodup_nil, List.nodup_nil⟩
  refine ⟨hempty, ⟨hempty, givenOnceList_map fun r => ?_⟩, trivial⟩
  exact ⟨hempty, ⟨⟨List.nodup_nil, List.nodup_singleton _⟩,
    ⟨⟨List.nodup_nil, List.nodup_singleton _⟩, trivial⟩, ⟨hempty, trivial, trivial⟩, trivial⟩, trivial⟩

section

variable {ρ : Str → Option Str}

/-- The tree of `ebbpsig:NonRepudiationInformation`. -/
theorem tree_nriMarkup (nriRefs : List As4NriReference) :
    (nriMarkup nriRefs).tree = .element ⟨.lit "ebbpsig", .lit "NonRepudiationInformation"⟩ [] []
      (nriRefs.map fun r => (nriPartMarkup r).tree) := by
  have helements : ∀ r, ∃ q items ms, nriPartMarkup r = .element q items ms := fun r => ⟨_, _, _, rfl⟩
  rw [nriMarkup, Markup.tree, treeList_map helements]
  rfl

theorem undeclaring_nriPart (r : As4NriReference) : Undeclaring (nriPartMarkup r).tree := by
  have hvalue : ∀ v : Str, UndeclaringList (Markup.treeList [.text v]) := by
    intro v
    cases v with
    | nil => trivial
    | cons c cs => exact ⟨trivial, trivial⟩
  exact ⟨rfl, ⟨rfl, ⟨rfl, trivial⟩, ⟨rfl, hvalue r.digestValueB64⟩, trivial⟩, trivial⟩

/-- It declares nothing of its own. -/
theorem undeclaring_receipt (nriRefs : List As4NriReference) :
    Undeclaring (receiptMarkup nriRefs).tree := by
  rw [receiptMarkup, Markup.tree, nriMarkup, treeList_element, ← nriMarkup, tree_nriMarkup]
  exact ⟨rfl, ⟨rfl, undeclaringList_map undeclaring_nriPart⟩, trivial⟩

/-- Under an element of another name, the elements of a name are those of its children. -/
theorem named_of_ne {ns loc : Str} {q : QName} (h : ¬ (ρ q.pre = some ns ∧ q.loc = loc))
    (ds : List (Str × Str)) (as : List Attr) (cs : List Tree) :
    named ρ ns loc (.element q ds as cs) = namedList ρ ns loc cs := by
  rw [named, if_neg h, List.nil_append]

private theorem named_value (ns loc v : Str) :
    namedList ρ ns loc (Markup.treeList [.text v]) = [] := by
  cases v <;> rfl

/-- A part holds one element of each of its names. -/
theorem named_nriPart {ns loc : Str}
    (hpart : ¬ (ρ (.lit "ebbpsig") = some ns ∧ .lit "MessagePartNRInformation" = loc))
    (hmethod : ¬ (ρ (.lit "ds") = some ns ∧ .lit "DigestMethod" = loc))
    (hvalue : ¬ (ρ (.lit "ds") = some ns ∧ .lit "DigestValue" = loc)) (r : As4NriReference) :
    named ρ ns loc (nriPartMarkup r).tree =
      if ρ (.lit "ds") = some ns ∧ .lit "Reference" = loc then [(nriReferenceMarkup r).tree]
      else [] := by
  have hchildren : namedList ρ ns loc (nriReferenceChildren r) = [] := by
    rw [nriReferenceChildren, namedList, namedList, named_of_ne hmethod, named_of_ne hvalue,
      named_value]
    rfl
  have htree : (nriPartMarkup r).tree = .element ⟨.lit "ebbpsig", .lit "MessagePartNRInformation"⟩
      [] [] [(nriReferenceMarkup r).tree] := rfl
  rw [htree, named_of_ne hpart, namedList, namedList, List.append_nil, tree_nriReferenceMarkup, named,
    hchildren, List.append_nil]

/-- Nothing in the information of a receipt is of another vocabulary. -/
theorem named_nriMarkup_other {ns : Str} (hebbp : ρ (.lit "ebbpsig") ≠ some ns)
    (hds : ρ (.lit "ds") ≠ some ns) (loc : Str) (nriRefs : List As4NriReference) :
    named ρ ns loc (nriMarkup nriRefs).tree = [] := by
  rw [tree_nriMarkup, named_of_ne fun h => hebbp h.1, namedList_map]
  refine List.flatMap_eq_nil_iff.mpr fun r _ => ?_
  rw [named_nriPart (fun h => hebbp h.1) (fun h => hds h.1) fun h => hds h.1, if_neg fun h => hds h.1]

/-- A reference as it is read: each field trimmed, and nothing if one of them is blank. -/
def trimmedReference (r : As4NriReference) : Option As4NriReference := do
  let uri ← nonBlank r.uri
  let method ← nonBlank r.digestMethodUri
  let value ← nonBlank r.digestValueB64
  some ⟨uri, method, value⟩

/-- A reference that was written is read trimmed, or left out when a field is blank. -/
theorem nriReference?_eq (hds : ρ (.lit "ds") = some Ns.ds) {n : Node} (hn : Settled ρ n)
    {r : As4NriReference} (htree : n.tree = (nriReferenceMarkup r).tree) :
    nriReference? n = trimmedReference r := by
  have hfirst : n.attribute? (.lit "URI") = some r.uri :=
    attribute?_head (htree.trans (tree_nriReferenceMarkup r))
  rw [lit_eq_toList] at hfirst
  have huri : signalAttribute n "URI" = nonBlank r.uri := signalAttribute_eq hfirst
  -- the two children that are read
  have hmethod := hn.find? Ns.ds "DigestMethod"
  have hvalue := hn.find? Ns.ds "DigestValue"
  rw [htree, tree_nriReferenceMarkup, nriReferenceChildren, named, namedList, namedList, namedList,
    named, named, named_value, namedList] at hmethod hvalue
  rw [lit_eq_toList] at hds
  simp only [hds, lit_eq_toList, String.toList_inj, String.reduceEq, and_false, if_false, and_self,
    if_true, List.nil_append, List.append_nil, List.head?_cons] at hmethod hvalue
  obtain ⟨m, hm, hmtree⟩ := Option.map_eq_some_iff.mp hmethod
  obtain ⟨v, hv, hvtree⟩ := Option.map_eq_some_iff.mp hvalue
  have hm : n.descendants.find? (isDsElement · "DigestMethod") = some m := hm
  have hv : n.descendants.find? (isDsElement · "DigestValue") = some v := hv
  have halgorithm : signalAttribute m "Algorithm" = nonBlank r.digestMethodUri :=
    signalAttribute_eq (attribute?_head hmtree)
  have htext : elementText v = nonBlank r.digestValueB64 := by
    have hleaf := flatten_texts_leaf ⟨.lit "ds", .lit "DigestValue"⟩ [] r.digestValueB64
    rw [elementText_eq, hvtree]
    exact congrArg nonBlank hleaf
  rw [nriReference?, huri, hm, hv, Option.bind_some, Option.bind_some, halgorithm, htext]
  rfl

/-- So are all of a receipt. -/
theorem map_nriReference? (hds : ρ (.lit "ds") = some Ns.ds) {nodes : List Node}
    (hs : ∀ m ∈ nodes, Settled ρ m) {nriRefs : List As4NriReference}
    (h : nodes.map Node.tree = nriRefs.map fun r => (nriReferenceMarkup r).tree) :
    nodes.map nriReference? = nriRefs.map trimmedReference := by
  induction nodes generalizing nriRefs with
  | nil =>
    rw [List.map_nil, eq_comm, List.map_eq_nil_iff] at h
    rw [h]
    rfl
  | cons n nodes ih =>
    cases nriRefs with
    | nil => cases h
    | cons r nriRefs =>
      rw [List.map_cons, List.map_cons, List.cons.injEq] at h
      rw [List.map_cons, List.map_cons, nriReference?_eq hds (hs n List.mem_cons_self) h.1,
        ih (fun m hm => hs m (List.mem_cons_of_mem _ hm)) h.2]

/-- The references of nodes that read like these, in their order; the limit is compared with the
    complete references before each node. -/
theorem addNriReferences_eq (session : SessionContext) (stage : Str) {nodes : List Node}
    {nriRefs : List As4NriReference} (h : nodes.map nriReference? = nriRefs.map trimmedReference)
    (refs : List As4NriReference) :
    nodes.foldlM (addNriReference session stage) refs =
      if nriRefs = [] ∨
          refs.length + (nriRefs.dropLast.filterMap trimmedReference).length < maxSignalNriReferences
      then .ok (refs ++ nriRefs.filterMap trimmedReference)
      else .error (signalError session stage .parseFailed
        ("AS4 receipt NonRepudiationInformation exceeds the MessagePartNRInformation limit (" ++
          showNat maxSignalNriReferences ++ ")")) := by
  induction nodes generalizing nriRefs refs with
  | nil =>
    rw [List.map_nil, eq_comm, List.map_eq_nil_iff] at h
    rw [h, if_pos (.inl rfl), List.filterMap_nil, List.append_nil]
    rfl
  | cons n nodes ih =>
    cases nriRefs with
    | nil => cases h
    | cons r nriRefs =>
      rw [List.map_cons, List.map_cons, List.cons.injEq] at h
      rw [List.foldlM_cons, addNriReference, h.1]
      by_cases hfull : refs.length ≥ maxSignalNriReferences
      · rw [Except.rejectIf, if_pos hfull, if_neg]
        · rfl
        · simp only [reduceCtorEq, false_or, not_lt]
          omega
      · rw [Except.rejectIf, if_neg hfull]
        refine (ih h.2 (refs ++ (trimmedReference r).toList)).trans ?_
        have hkept : refs ++ (trimmedReference r).toList ++ nriRefs.filterMap trimmedReference =
            refs ++ (r :: nriRefs).filterMap trimmedReference := by
          rw [List.append_assoc, List.filterMap_cons]
          cases trimmedReference r <;> rfl
        rw [hkept]
        -- the last reference is not counted, here or one step later
        cases hrest : nriRefs with
        | nil =>
          rw [if_pos (.inl rfl), if_pos (.inr (by simpa using hfull))]
        | cons r' rest =>
          have hcount : (refs ++ (trimmedReference r).toList).length +
              ((r' :: rest).dropLast.filterMap trimmedReference).length =
              refs.length + ((r :: r' :: rest).dropLast.filterMap trimmedReference).length := by
            rw [List.dropLast_cons_cons, List.filterMap_cons, List.length_append]
            cases trimmedReference r with
            | none => simp
            | some kept =>
              simp only [Option.toList_some, List.length_cons, List.length_nil]
              omega
          simp only [hcount, reduceCtorEq, false_or]

/-- An `eb:Receipt` is read as its references. -/
theorem readReceipt_eq (hebbp : ρ (.lit "ebbpsig") = some Ns.ebbpSignals) {nriRefs : List As4NriReference}
    (hds : nriRefs ≠ [] → ρ (.lit "ds") = some Ns.ds) (hother : ρ (.lit "ds") ≠ some Ns.ebms3)
    {n : Node} (hn : Settled ρ n) (htree : n.tree = (receiptMarkup nriRefs).tree)
    (session : SessionContext) (stage : Str) (out : ParsedAs4SignalEnvelope)
    (hout : out.nriReferences = []) :
    readReceipt session stage out n =
      if (nriRefs.dropLast.filterMap trimmedReference).length < maxSignalNriReferences then
        .ok { out with
          hasReceipt := true
          hasNonRepudiationInfo := true
          nriReferences := nriRefs.filterMap trimmedReference }
      else .error (signalError session stage .parseFailed
        ("AS4 receipt NonRepudiationInformation exceeds the MessagePartNRInformation limit (" ++
          showNat maxSignalNriReferences ++ ")")) := by
  have htree : n.tree = .element (ebName (.lit "Receipt")) [] [] [(nriMarkup nriRefs).tree] := by
    rw [htree, receiptMarkup, Markup.tree, nriMarkup, treeList_element]
    rfl
  have hebbpNe : ρ (.lit "ebbpsig") ≠ some Ns.ebms3 := by
    rw [hebbp]
    exact of_decide_eq_true rfl
  -- one `NonRepudiationInformation`, and none of the ebMS3 vocabulary
  have hnone : n.descendants.filter (isEb · "NonRepudiationInformation") = [] := by
    refine hn.eq_nil_of_named ?_
    rw [htree, named_of_ne (fun h => by simpa [ebName, lit_eq_toList] using h.2), namedList,
      named_nriMarkup_other hebbpNe hother, namedList, List.append_nil]
  obtain ⟨nri, hone, hnriTree, hsettled⟩ := hn.exists_of_named Ns.ebbpSignals
    "NonRepudiationInformation" (t := (nriMarkup nriRefs).tree) (by
      have hparts : ∀ r, named ρ Ns.ebbpSignals "NonRepudiationInformation" (nriPartMarkup r).tree =
          [] := by
        intro r
        rw [named_nriPart] <;> simp [lit_eq_toList]
      rw [htree, named_of_ne (fun h => by simpa [ebName, lit_eq_toList] using h.2), namedList,
        namedList, List.append_nil, tree_nriMarkup, named, namedList_map,
        List.flatMap_eq_nil_iff.mpr fun r _ => hparts r, List.append_nil, if_pos ⟨hebbp, rfl⟩])
  have hnodes : nriNodes n = [nri] := by
    rw [nriNodes, ← hone]
    refine List.filter_congr fun m hm => ?_
    have hneg := List.filter_eq_nil_iff.mp hnone m hm
    rw [Bool.not_eq_true] at hneg
    rw [hneg, Bool.or_false]
  -- its references, one for each that was written
  have hmap : (nri.descendants.filter (isDsElement · "Reference")).map nriReference? =
      nriRefs.map trimmedReference := by
    have hnamed := hsettled.named Ns.ds "Reference"
    rw [hnriTree, tree_nriMarkup,
      named_of_ne (fun h => by simpa [lit_eq_toList] using h.2), namedList_map] at hnamed
    by_cases hnil : nriRefs = []
    · rw [hnil, List.flatMap_nil, List.map_eq_nil_iff] at hnamed
      have hnone : nri.descendants.filter (isDsElement · "Reference") = [] := hnamed
      rw [hnone, hnil]
      rfl
    · have hpart : ∀ r, named ρ Ns.ds "Reference" (nriPartMarkup r).tree =
          [(nriReferenceMarkup r).tree] := by
        intro r
        rw [named_nriPart, if_pos ⟨hds hnil, lit_eq_toList _ _⟩] <;> simp [lit_eq_toList]
      rw [funext hpart, ← List.map_eq_flatMap] at hnamed
      exact map_nriReference? (hds hnil)
        (fun m hm => hsettled.descendant (List.mem_of_mem_filter hm)) hnamed
  have hfold := addNriReferences_eq session stage hmap []
  rw [readReceipt]
  simp only [hnodes, List.flatMap_cons, List.flatMap_nil, List.append_nil, hout, hfold,
    List.length_nil, Nat.zero_add, List.nil_append]
  by_cases hfew : (nriRefs.dropLast.filterMap trimmedReference).length < maxSignalNriReferences
  · rw [if_pos (.inr hfew), if_pos hfew]
    simp [bind, Except.bind, pure, Except.pure]
  · rw [if_neg, if_neg hfew]
    · rfl
    · rintro (rfl | h)
      · exact hfew (of_decide_eq_true rfl)
      · exact hfew h

end

/-- What the parser gives for a receipt. -/
def receiptAsRead (spec : SignalEnvelope) (hasSignature : Bool) (nriRefs : List As4NriReference)
    (session : SessionContext) (stage : Str) : Result ParsedAs4SignalEnvelope :=
  if (nriRefs.dropLast.filterMap trimmedReference).length < maxSignalNriReferences then
    .ok { hasSignalMessage := true
          hasReceipt := true
          hasNonRepudiationInfo := true
          hasSignature
          messageId := nonBlank spec.messageId
          refToMessageId := spec.refToMessageId.bind nonBlank
          timestamp := nonBlank spec.timestamp
          nriReferences := nriRefs.filterMap trimmedReference }
  else .error (signalError session stage .parseFailed
    ("AS4 receipt NonRepudiationInformation exceeds the MessagePartNRInformation limit (" ++
      showNat maxSignalNriReferences ++ ")"))

/-- The envelope of a receipt is read as its message info and its references. -/
theorem parse_receipt {spec : SignalEnvelope} (h : spec.Sound)
    (hother : ∀ n ∈ spec.namespaces, n.2 ≠ Ns.ebms3)
    (hebbp : spec.means (.lit "ebbpsig") = some Ns.ebbpSignals) {nriRefs : List As4NriReference}
    (hds : nriRefs ≠ [] → spec.means (.lit "ds") = some Ns.ds) {security : List Markup}
    (hsecurity : ForeignList (.lit "eb") Ns.ebms3 (Markup.treeList security)) {doc : Document}
    (hdoc : doc.children = [(spec.envelope security [receiptMarkup nriRefs]).tree])
    (session : SessionContext) (stage : Str) :
    parseAs4SignalEnvelope doc session stage = receiptAsRead spec
      (doc.descendants.any (isDsElement · "Signature")) nriRefs session stage := by
  have heb := spec.means_eb
  have hdsNe : spec.means (.lit "ds") ≠ some Ns.ebms3 :=
    SignalEnvelope.means_ne hother (of_decide_eq_true rfl)
  have hebbpNe : spec.means (.lit "ebbpsig") ≠ some Ns.ebms3 :=
    SignalEnvelope.means_ne hother (of_decide_eq_true rfl)
  -- of the ebMS3 vocabulary the body holds the `eb:Receipt`
  have hnamed : ∀ loc, namedList spec.means Ns.ebms3 loc (Markup.treeList [receiptMarkup nriRefs]) =
      if .lit "Receipt" = loc then [(receiptMarkup nriRefs).tree] else [] := by
    intro loc
    rw [receiptMarkup, treeList_element, namedList, treeList_nil, namedList, named_eb heb, nriMarkup,
      treeList_element, ← nriMarkup, namedList, named_nriMarkup_other hebbpNe hdsNe, treeList_nil,
      namedList, List.append_nil, List.append_nil, List.append_nil]
  have hbody : BodyReads spec.means [receiptMarkup nriRefs] := by
    refine ⟨?_, ?_, ?_, ?_⟩
    · exact ⟨undeclaring_receipt nriRefs, trivial⟩
    · rw [hnamed, if_neg (by simp [lit_eq_toList])]
    · rw [hnamed, if_neg (by simp [lit_eq_toList])]
    · rw [hnamed, if_neg (by simp [lit_eq_toList])]
  obtain ⟨signal, htree, hsettled, hparse⟩ := SignalEnvelope.parse_frame h hother hsecurity hbody
    hdoc session stage
  have hsignal : ∀ loc, named spec.means Ns.ebms3 loc signal.tree =
      (if .lit "SignalMessage" = loc then [signal.tree] else []) ++
        (named spec.means Ns.ebms3 loc spec.messageInfo.tree ++
          if .lit "Receipt" = loc then [(receiptMarkup nriRefs).tree] else []) := by
    intro loc
    rw [htree, SignalEnvelope.signalMessage, named_eb heb, SignalEnvelope.messageInfo,
      treeList_element, namedList, hnamed]
  obtain ⟨receipt, hone, hreceiptTree, hreceipt⟩ := hsettled.exists_of_named Ns.ebms3 "Receipt"
    (t := (receiptMarkup nriRefs).tree) (by
      rw [hsignal, spec.named_messageInfo heb]
      simp [lit_eq_toList])
  have herrors : ebDescendants signal "Error" = [] := hsettled.eq_nil_of_named (by
    rw [hsignal, spec.named_messageInfo heb]
    simp [lit_eq_toList])
  have hreceipts : ebDescendants signal "Receipt" = [receipt] := hone
  rw [hparse, hreceipts, herrors, List.foldlM_cons,
    readReceipt_eq hebbp hds hdsNe hreceipt hreceiptTree session stage _ rfl, receiptAsRead]
  by_cases hfew : (nriRefs.dropLast.filterMap trimmedReference).length < maxSignalNriReferences
  · rw [if_pos hfew]
    rfl
  · rw [if_neg hfew]
    rfl

/-! ## Receipts on the wire -/

private theorem declOk_of_mem {namespaces : List (Str × Str)}
    (h : namespaces.all (fun n => decide (DeclOk n)) = true) : ∀ n ∈ namespaces, DeclOk n :=
  fun n hn => of_decide_eq_true (List.all_eq_true.mp h n hn)

/-- For every receipt that is generated without a signature: the bytes are a text that parses, and
    the signal parser gives the ids and the references that were written, trimmed, without those
    that have a blank field. Only when 256 complete references come before the last one it fails. -/
theorem generated_receipt_read_back (session : SessionContext) (now : SystemTime)
    (messageId refToMessageId : Str) (nriRefs : List As4NriReference) (bytes : Bytes)
    (h : generateReceiptWithNri session now messageId refToMessageId nriRefs = .ok bytes) :
    ∃ text doc, bytes = Str.utf8 text ∧ parse text = some doc ∧
      ∀ reader stage, parseAs4SignalEnvelope doc reader stage =
        if (nriRefs.dropLast.filterMap trimmedReference).length < 256 then
          .ok { hasSignalMessage := true
                hasReceipt := true
                hasNonRepudiationInfo := true
                hasSignature := doc.descendants.any (isDsElement · "Signature")
                messageId := some (Str.trim messageId)
                refToMessageId := some (Str.trim refToMessageId)
                timestamp := nonBlank (formatRfc3339Secs now)
                nriReferences := nriRefs.filterMap trimmedReference }
        else .error (signalError reader stage .parseFailed
          ("AS4 receipt NonRepudiationInformation exceeds the MessagePartNRInformation limit (" ++
            showNat 256 ++ ")")) := by
  simp only [generateReceiptWithNri, validateReceiptSignalIds, Except.bind_eq_ok,
    Except.rejectIf_eq_ok, Except.pure_eq_ok] at h
  obtain ⟨_, ⟨_, hid, href⟩, written, hwrite, text, htext, rfl⟩ := h
  -- a receipt without references has no use for the namespace of signatures
  let spec : SignalEnvelope :=
    { namespaces := if nriRefs = [] then [(.lit "ebbpsig", Ns.ebbpSignals)]
        else [(.lit "ebbpsig", Ns.ebbpSignals), (.lit "ds", Ns.ds)]
      reserveSecurity := false, messagingId := none, bodyId := none
      timestamp := formatRfc3339Secs now, messageId, refToMessageId := some refToMessageId }
  have hnamespaces : spec.namespaces = [(.lit "ebbpsig", Ns.ebbpSignals)] ∨
      spec.namespaces = [(.lit "ebbpsig", Ns.ebbpSignals), (.lit "ds", Ns.ds)] := by
    by_cases hnil : nriRefs = []
    · exact .inl (if_pos hnil)
    · exact .inr (if_neg hnil)
  have hsound : spec.Sound := by
    cases hnamespaces with
    | inl heq => exact ⟨by rw [heq]; exact declOk_of_mem rfl, by rw [heq]; decide⟩
    | inr heq => exact ⟨by rw [heq]; exact declOk_of_mem rfl, by rw [heq]; decide⟩
  have hother : ∀ n ∈ spec.namespaces, n.2 ≠ Ns.ebms3 := by
    cases hnamespaces with
    | inl heq => rw [heq]; decide
    | inr heq => rw [heq]; decide
  have hebbp : spec.means (.lit "ebbpsig") = some Ns.ebbpSignals := by
    rw [SignalEnvelope.means]
    cases hnamespaces with
    | inl heq => rw [heq]; rfl
    | inr heq => rw [heq]; rfl
  have hds : nriRefs ≠ [] → spec.means (.lit "ds") = some Ns.ds := by
    intro hne
    have heq : spec.namespaces = [(.lit "ebbpsig", Ns.ebbpSignals), (.lit "ds", Ns.ds)] := if_neg hne
    rw [SignalEnvelope.means, heq]
    rfl
  obtain ⟨text', ok, hstring, hparse⟩ := SignalEnvelope.parse_writeSignal hsound
    (writes_receipt nriRefs) (legal_writeReceipt nriRefs)
    ⟨givenOnce_receiptMarkup nriRefs, trivial⟩ rfl hwrite
  rw [htext, Except.ok.injEq] at hstring
  subst hstring
  refine ⟨text, _, rfl, hparse, fun reader stage => ?_⟩
  have hnone : ForeignList (.lit "eb") Ns.ebms3 (Markup.treeList []) := trivial
  rw [parse_receipt hsound hother hebbp hds hnone rfl reader stage, receiptAsRead]
  have hid : nonBlank messageId = some (Str.trim messageId) := if_neg hid
  have href : nonBlank refToMessageId = some (Str.trim refToMessageId) := if_neg href
  have hids : nonBlank spec.messageId = some (Str.trim messageId) ∧
      spec.refToMessageId.bind nonBlank = some (Str.trim refToMessageId) := ⟨hid, href⟩
  rw [hids.1, hids.2]
  rfl

/-- References as a caller may give them: one with white space around its fields, one without a
    URI, and one as it is read. -/
def looseReferences : List As4NriReference :=
  [⟨" cid:a\n", " sha ", "AA==\t"⟩, ⟨" ", "sha", "AA=="⟩, ⟨"#m", "sha", "AQ=="⟩]

/-- The receipt for several references is read back. -/
theorem generated_receipt_read_back_several :
    ∃ bytes text doc, generateReceiptWithNri ⟨"session", "s", true⟩ 0 "rec@x" "msg@x"
        looseReferences = .ok bytes ∧
      bytes = Str.utf8 text ∧ parse text = some doc ∧
      parseAs4SignalEnvelope doc ⟨"session", "s", true⟩ "read" = .ok
        { hasSignalMessage := true
          hasReceipt := true
          hasNonRepudiationInfo := true
          hasSignature := doc.descendants.any (isDsElement · "Signature")
          messageId := some "rec@x"
          refToMessageId := some "msg@x"
          timestamp := nonBlank (formatRfc3339Secs 0)
          nriReferences := [⟨"cid:a", "sha", "AA=="⟩, ⟨"#m", "sha", "AQ=="⟩] } := by
  have hok : (generateReceiptWithNri ⟨"session", "s", true⟩ 0 "rec@x" "msg@x"
      looseReferences).isOk = true := by decide +kernel
  cases hbytes : generateReceiptWithNri ⟨"session", "s", true⟩ 0 "rec@x" "msg@x"
      looseReferences with
  | error e =>
    rw [hbytes] at hok
    cases hok
  | ok bytes =>
    obtain ⟨text, doc, htext, hdoc, hread⟩ := generated_receipt_read_back _ _ _ _ _ _ hbytes
    refine ⟨bytes, text, doc, rfl, htext, hdoc, ?_⟩
    rw [hread]
    rfl

/-- The bytes of a signed receipt parse, and the receipt is read as it was drafted. -/
theorem parse_signedReceipt {roxmltree : Roxmltree} {digests : Digests} {now : SystemTime}
    {messageId refToMessageId : Str} {nriRefs : List As4NriReference}
    {algorithm : SignatureAlgorithm} {draft : ReceiptDraft}
    (h : draftReceipt roxmltree digests now messageId refToMessageId nriRefs algorithm = .ok draft)
    {header : Markup}
    (hmade : Made [.lit "S12", .lit "eb", .lit "ebbpsig", .lit "wsse", .lit "wsu", .lit "ds"] header)
    (honce : GivenOnce header) (hforeign : Foreign (.lit "eb") Ns.ebms3 header.tree) {bytes : Bytes}
    (hfinish : finishSignal draft (printed true [header]) = .ok bytes) :
    ∃ text doc, bytes = Str.utf8 text ∧ parse text = some doc ∧
      ∀ reader stage, parseAs4SignalEnvelope doc reader stage =
        receiptAsRead (signedReceiptEnvelope now messageId refToMessageId)
          (doc.descendants.any (isDsElement · "Signature")) nriRefs reader stage := by
  simp only [draftReceipt, Except.bind_eq_ok, Except.okOr_eq_ok, Except.pure_eq_ok] at h
  obtain ⟨written, hwrite, slot, hslot, prepared, -, rfl⟩ := h
  simp only [finishSignal, Except.bind_eq_ok, Except.pure_eq_ok] at hfinish
  obtain ⟨doc, hfill, text, htext, rfl⟩ := hfinish
  have hsound : (signedReceiptEnvelope now messageId refToMessageId).Sound := by
    refine ⟨declOk_of_mem rfl, ?_⟩
    show [Str.lit "S12", .lit "eb", .lit "ebbpsig", .lit "wsse", .lit "wsu", .lit "ds"].Nodup
    decide
  have hother : ∀ n ∈ (signedReceiptEnvelope now messageId refToMessageId).namespaces,
      n.2 ≠ Ns.ebms3 := by
    show ∀ n ∈ [(Str.lit "ebbpsig", Ns.ebbpSignals), (.lit "wsse", Ns.wsse), (.lit "wsu", Ns.wsu),
      (.lit "ds", Ns.ds)], n.2 ≠ Ns.ebms3
    decide
  -- the slot is the first of the document
  rw [SignalEnvelope.slot_of_writeSignal hsound rfl hwrite, Option.some.injEq] at hslot
  subst hslot
  obtain ⟨text', ok, hstring, hparse⟩ := SignalEnvelope.parse_filledSignal hsound
    (writes_receipt nriRefs) (legal_writeReceipt nriRefs)
    ⟨givenOnce_receiptMarkup nriRefs, trivial⟩ rfl hwrite hmade honce hfill
  rw [htext, Except.ok.injEq] at hstring
  subst hstring
  refine ⟨text, _, rfl, hparse, fun reader stage => ?_⟩
  have hsecurity : ForeignList (.lit "eb") Ns.ebms3 (Markup.treeList [header]) := by
    cases header with
    | element q items ms =>
      rw [treeList_element, treeList_nil]
      exact ⟨hforeign, trivial⟩
    | text s =>
      cases s with
      | nil => exact trivial
      | cons c cs => exact ⟨trivial, trivial⟩
  exact parse_receipt hsound hother rfl (fun _ => rfl) hsecurity rfl reader stage

/-- For every receipt that is drafted for signing, whatever header is put into its slot: the bytes
    parse, and the signal parser gives the ids and the references that were drafted. The header has
    no `eb:` names and gives no other prefix the namespace of ebMS3. -/
theorem signed_receipt_read_back (roxmltree : Roxmltree) (digests : Digests) (now : SystemTime)
    (messageId refToMessageId : Str) (nriRefs : List As4NriReference)
    (algorithm : SignatureAlgorithm) (draft : ReceiptDraft)
    (h : draftReceipt roxmltree digests now messageId refToMessageId nriRefs algorithm = .ok draft)
    (header : Markup)
    (hmade : Made [.lit "S12", .lit "eb", .lit "ebbpsig", .lit "wsse", .lit "wsu", .lit "ds"] header)
    (honce : GivenOnce header) (hforeign : Foreign (.lit "eb") Ns.ebms3 header.tree) (bytes : Bytes)
    (hfinish : finishSignal draft (printed true [header]) = .ok bytes) :
    ∃ text doc, bytes = Str.utf8 text ∧ parse text = some doc ∧
      ∀ reader stage, parseAs4SignalEnvelope doc reader stage =
        if (nriRefs.dropLast.filterMap trimmedReference).length < 256 then
          .ok { hasSignalMessage := true
                hasReceipt := true
                hasNonRepudiationInfo := true
                hasSignature := doc.descendants.any (isDsElement · "Signature")
                messageId := nonBlank messageId
                refToMessageId := nonBlank refToMessageId
                timestamp := nonBlank (formatRfc3339Secs now)
                nriReferences := nriRefs.filterMap trimmedReference }
        else .error (signalError reader stage .parseFailed
          ("AS4 receipt NonRepudiationInformation exceeds the MessagePartNRInformation limit (" ++
            showNat 256 ++ ")")) := by
  obtain ⟨text, doc, htext, hparse, hread⟩ := parse_signedReceipt h hmade honce hforeign hfinish
  exact ⟨text, doc, htext, hparse, hread⟩

/-- A `wsse:Security` with nothing in it. -/
def emptySecurity : Markup :=
  .element ⟨.lit "wsse", .lit "Security"⟩ [⟨⟨.lit "S12", .lit "mustUnderstand"⟩, .lit "true"⟩] []

theorem made_emptySecurity : Made [.lit "S12", .lit "eb", .lit "ebbpsig", .lit "wsse", .lit "wsu",
    .lit "ds"] emptySecurity := by
  refine ⟨by decide, .inr (.inr (by decide)), ⟨fun a ha => ?_, ?_⟩, trivial⟩
  · rw [List.mem_singleton] at ha
    subst ha
    exact .inr ⟨by decide, by decide, by decide⟩
  · show ∀ a ∈ attrsOf [⟨⟨.lit "S12", .lit "mustUnderstand"⟩, .lit "true"⟩], a.name.pre = [] ∨
      a.name.pre = xmlPre ∨ a.name.pre ∈ [Str.lit "S12", .lit "eb", .lit "ebbpsig", .lit "wsse",
        .lit "wsu", .lit "ds"]
    decide

theorem foreign_emptySecurity : Foreign (.lit "eb") Ns.ebms3 emptySecurity.tree := by
  rw [emptySecurity, Markup.tree]
  exact ⟨by decide, by decide, trivial⟩

/-- A reference of a message. -/
def exampleReference : As4NriReference :=
  ⟨.lit "#m", .lit "http://www.w3.org/2001/04/xmlenc#sha256",
    .lit "IYuHPBbVadW3xZLmxMBKv8vPed9sxDZ5Lr3vgzHAduY="⟩

/-- A receipt that is drafted and finished with that header, as an evaluation finds. -/
theorem exists_finished_of_isOk {nriRefs : List As4NriReference}
    (hok : ((draftReceipt roxmltreeReads (fun _ _ => []) 0 (.lit "r@x") (.lit "m@x")
      nriRefs .rsaSha256).bind (finishSignal · (printed true [emptySecurity]))).isOk = true) :
    ∃ draft bytes, draftReceipt roxmltreeReads (fun _ _ => []) 0 (.lit "r@x") (.lit "m@x")
        nriRefs .rsaSha256 = .ok draft ∧
      finishSignal draft (printed true [emptySecurity]) = .ok bytes := by
  cases hdraft : draftReceipt roxmltreeReads (fun _ _ => []) 0 (.lit "r@x") (.lit "m@x")
      nriRefs .rsaSha256 with
  | error e =>
    rw [hdraft] at hok
    cases hok
  | ok draft =>
    rw [hdraft, Except.bind] at hok
    cases hfinish : finishSignal draft (printed true [emptySecurity]) with
    | error e =>
      rw [hfinish] at hok
      cases hok
    | ok bytes => exact ⟨draft, bytes, rfl, hfinish⟩

/-- A receipt for it is drafted and finished. -/
theorem exists_finished_example :
    ∃ draft bytes, draftReceipt roxmltreeReads (fun _ _ => []) 0 (.lit "r@x") (.lit "m@x")
        [exampleReference] .rsaSha256 = .ok draft ∧
      finishSignal draft (printed true [emptySecurity]) = .ok bytes :=
  exists_finished_of_isOk (by
    simp only [draftReceipt, writeSignal, prepareEnvelopeSignature, prepareSignedInfo,
      writeSignedInfo, XmlOut.run_eq_runOnto]
    decide +kernel)

theorem givenOnce_emptySecurity : GivenOnce emptySecurity :=
  ⟨⟨List.nodup_nil, List.nodup_singleton _⟩, trivial⟩

/-- A receipt for several references is read back from under that header. -/
theorem signed_receipt_read_back_several :
    ∃ draft bytes text doc, draftReceipt roxmltreeReads (fun _ _ => []) 0 (.lit "r@x") (.lit "m@x")
        looseReferences .rsaSha256 = .ok draft ∧
      finishSignal draft (printed true [emptySecurity]) = .ok bytes ∧
      bytes = Str.utf8 text ∧ parse text = some doc ∧
      parseAs4SignalEnvelope doc ⟨"session", "s", true⟩ "read" = .ok
        { hasSignalMessage := true
          hasReceipt := true
          hasNonRepudiationInfo := true
          hasSignature := doc.descendants.any (isDsElement · "Signature")
          messageId := some (.lit "r@x")
          refToMessageId := some (.lit "m@x")
          timestamp := nonBlank (formatRfc3339Secs 0)
          nriReferences := [⟨"cid:a", "sha", "AA=="⟩, ⟨"#m", "sha", "AQ=="⟩] } := by
  obtain ⟨draft, bytes, hdraft, hfinish⟩ := @exists_finished_of_isOk looseReferences (by
    simp only [draftReceipt, writeSignal, prepareEnvelopeSignature, prepareSignedInfo,
      writeSignedInfo, XmlOut.run_eq_runOnto]
    decide +kernel)
  obtain ⟨text, doc, htext, hdoc, hread⟩ := signed_receipt_read_back _ _ _ _ _ _ _ _ hdraft
    emptySecurity made_emptySecurity givenOnce_emptySecurity foreign_emptySecurity _ hfinish
  refine ⟨draft, bytes, text, doc, hdraft, hfinish, htext, hdoc, ?_⟩
  rw [hread]
  rfl

end Asx
