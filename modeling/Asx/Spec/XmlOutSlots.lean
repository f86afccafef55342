import Mathlib.Data.List.Range
import Mathlib.Data.List.Perm.Basic
import Asx.Spec.XmlOutPieces

/-!
# Slots of the writer

A caller that signs reserves positions while it writes and fills them when it has signed. Here a
program of the writer is a list of calls and holes, each hole with the text that is put there
later. It is run twice: with a slot for every hole, and with the text of the hole written as a
fragment in its place.

Key results:
- `reserved_inPlace`: the two runs differ in nothing but what stands in the holes
- `fillAll_eq_ok`: which fills succeed, and what they leave
- `filled_text_iff`: filled in any order, the document has the text written in place
- `signed_text_iff`: the text that is signed is the one with nothing in the holes
-/

namespace Asx

/-- A step of a program of the writer. -/
inductive WriterStep where
  | call (c : XmlCall)
  | hole (text : Str)
deriving DecidableEq, Repr

namespace WriterStep

/-- The step with a slot for a hole. -/
def reserve (out : XmlOut) : WriterStep → Result XmlOut
  | call c => out.call c
  | hole _ => .ok out.slot.1

/-- The step with the text of a hole in its place. -/
def inPlace (out : XmlOut) : WriterStep → Result XmlOut
  | call c => out.call c
  | hole text => out.fragment text

/-- The text of a hole. -/
def hole? : WriterStep → Option Str
  | call _ => none
  | hole text => some text

/-- The step with nothing in a hole. -/
def blank : WriterStep → WriterStep
  | call c => call c
  | hole _ => hole []

end WriterStep

open WriterStep

/-- The document of a program whose holes are slots, with empty elements in this form. -/
def reserved (form : EmptyForm) (program : List WriterStep) : Result XmlDoc := do
  let out ← program.foldlM reserve (.withForm form)
  out.finish

/-- The text of a program whose holes are written in place, with empty elements in this form. -/
def textInPlace (form : EmptyForm) (program : List WriterStep) : Result Str := do
  let out ← program.foldlM inPlace (.withForm form)
  let doc ← out.finish
  doc.intoString

/-- The slots are filled in this order. -/
def fillAll (texts : List Str) (order : List Nat) (doc : XmlDoc) : Result XmlDoc :=
  order.foldlM (fun doc i => doc.fill i (texts.getD i [])) doc

/-! ## Two runs of a program -/

/-- A segment more, and what is in the slot behind it. -/
theorem joined_append (segments : List Str) (slots : List (Option Str)) (last : Str) :
    XmlDoc.joined (segments ++ [last]) slots =
      XmlDoc.joined segments slots ++ last ++ (slots[segments.length]?.join).getD [] := by
  induction segments generalizing slots with
  | nil =>
    cases slots with
    | nil => simp [XmlDoc.joined]
    | cons slot slots => simp [XmlDoc.joined]
  | cons segment segments ih =>
    cases slots with
    | nil => simp [XmlDoc.joined, ih]
    | cons slot slots => simp [XmlDoc.joined, ih]

/-- The two runs differ in nothing but what stands in the holes. -/
theorem reserved_inPlace (texts : List Str) (program : List WriterStep) (o : XmlOut)
    (segments : List Str)
    (htexts : ∀ i t, (program.filterMap hole?)[i]? = some t → texts[segments.length + i]? = some t) :
    (∀ out, program.foldlM reserve (o.rebased [] segments) = .ok out →
      ∃ (o' : XmlOut) (segments' : List Str), out = o'.rebased [] segments' ∧
        segments'.length = segments.length + (program.filterMap hole?).length ∧
        program.foldlM inPlace (o.rebased (XmlDoc.joined segments (texts.map some)) []) =
          .ok (o'.rebased (XmlDoc.joined segments' (texts.map some)) [])) ∧
    ∀ e, program.foldlM reserve (o.rebased [] segments) = .error e →
      program.foldlM inPlace (o.rebased (XmlDoc.joined segments (texts.map some)) []) = .error e := by
  induction program generalizing o segments with
  | nil =>
    constructor
    · intro out h
      cases h
      exact ⟨o, segments, rfl, rfl, rfl⟩
    · intro e h
      cases h
  | cons s program ih =>
    simp only [List.foldlM_cons]
    cases s with
    | call c =>
      rw [reserve, inPlace, XmlOut.rebased_call, XmlOut.rebased_call]
      cases hcall : o.call c with
      | error e =>
        constructor
        · intro out h
          cases h
        · intro e' h
          cases h
          rfl
      | ok o' => exact ih o' segments htexts
    | hole t =>
      -- the slot closes a segment; in place its text follows what was written
      let o' : XmlOut := { o.closeStartTag with buf := [] }
      let segments' := segments ++ [o.closeStartTag.buf]
      have hslot : reserve (o.rebased [] segments) (.hole t) = .ok (o'.rebased [] segments') := by
        rw [reserve, XmlOut.slot, XmlOut.rebased_closeStartTag]
        rfl
      have htext : texts[segments.length]? = some t := htexts 0 t rfl
      have hplace : inPlace (o.rebased (XmlDoc.joined segments (texts.map some)) []) (.hole t) =
          .ok (o'.rebased (XmlDoc.joined segments' (texts.map some)) []) := by
        rw [inPlace, XmlOut.fragment, XmlOut.rebased_closeStartTag]
        simp [XmlOut.rebased, o', segments', joined_append, htext]
      have hlength : segments'.length = segments.length + 1 := List.length_append
      obtain ⟨hok, herror⟩ := ih o' segments' (fun i u hu => by
        have h := htexts (i + 1) u hu
        rw [hlength, Nat.add_assoc, Nat.add_comm 1 i]
        exact h)
      rw [hslot, hplace]
      constructor
      · intro out h
        obtain ⟨o'', segments'', hout, hlen, hrun⟩ := hok out h
        refine ⟨o'', segments'', hout, ?_, hrun⟩
        rw [hlen, hlength]
        show _ = _ + (List.length (t :: program.filterMap hole?))
        rw [List.length_cons]
        omega
      · exact herror

/-! ## Filling -/

theorem fill_eq_ok {doc doc' : XmlDoc} {i : Nat} {text : Str} :
    doc.fill i text = .ok doc' ↔
      doc.slots[i]? = some none ∧ { doc with slots := doc.slots.set i (some text) } = doc' := by
  rw [XmlDoc.fill]
  cases hslot : doc.slots[i]? with
  | none => simp
  | some slot =>
    cases slot with
    | none => simp
    | some filled => simp

/-- The slots after fills in this order. -/
def slotsAfter (texts : List Str) (order : List Nat) (slots : List (Option Str)) :
    List (Option Str) :=
  order.foldl (fun slots i => slots.set i (some (texts.getD i []))) slots

/-- Fills succeed exactly when they name different slots that are empty. -/
theorem fillAll_eq_ok (texts : List Str) {order : List Nat} {doc doc' : XmlDoc} :
    fillAll texts order doc = .ok doc' ↔
      order.Nodup ∧ (∀ i ∈ order, doc.slots[i]? = some none) ∧
        { doc with slots := slotsAfter texts order doc.slots } = doc' := by
  induction order generalizing doc with
  | nil => simp [fillAll, slotsAfter, pure, Except.pure]
  | cons i order ih =>
    rw [fillAll, List.foldlM_cons, Except.bind_eq_ok]
    constructor
    · intro h
      obtain ⟨doc₁, hfill, hrest⟩ := h
      rw [fill_eq_ok] at hfill
      obtain ⟨hempty, rfl⟩ := hfill
      obtain ⟨hnodup, hall, rfl⟩ := ih.mp hrest
      -- a slot that is still empty is another one
      have hother : ∀ j ∈ order, j ≠ i ∧ doc.slots[j]? = some none := by
        intro j hj
        have hj := hall j hj
        by_cases hne : i = j
        · subst hne
          rw [List.getElem?_set_self (List.getElem?_eq_some_iff.mp hempty).1] at hj
          cases hj
        · rw [List.getElem?_set_ne hne] at hj
          exact ⟨fun heq => hne heq.symm, hj⟩
      refine ⟨List.nodup_cons.mpr ⟨fun hi => (hother i hi).1 rfl, hnodup⟩, fun j hj => ?_, rfl⟩
      cases List.mem_cons.mp hj with
      | inl heq => exact heq ▸ hempty
      | inr hj => exact (hother j hj).2
    · intro h
      obtain ⟨hnodup, hall, hdoc⟩ := h
      obtain ⟨hi, hnodup⟩ := List.nodup_cons.mp hnodup
      refine ⟨_, fill_eq_ok.mpr ⟨hall i List.mem_cons_self, rfl⟩, ?_⟩
      apply ih.mpr
      refine ⟨hnodup, fun j hj => ?_, hdoc⟩
      have hne : i ≠ j := fun heq => hi (heq ▸ hj)
      rw [List.getElem?_set_ne hne]
      exact hall j (List.mem_cons_of_mem _ hj)

theorem length_slotsAfter (texts : List Str) (order : List Nat) (slots : List (Option Str)) :
    (slotsAfter texts order slots).length = slots.length := by
  induction order generalizing slots with
  | nil => rfl
  | cons i order ih =>
    rw [slotsAfter, List.foldl_cons, ← slotsAfter, ih, List.length_set]

theorem getElem?_slotsAfter (texts : List Str) (order : List Nat) (slots : List (Option Str))
    {j : Nat} (hj : j < slots.length) :
    (slotsAfter texts order slots)[j]? =
      if j ∈ order then some (some (texts.getD j [])) else slots[j]? := by
  induction order generalizing slots with
  | nil => rfl
  | cons i order ih =>
    rw [slotsAfter, List.foldl_cons, ← slotsAfter, ih _ (by rw [List.length_set]; exact hj)]
    by_cases hmem : j ∈ order
    · rw [if_pos hmem, if_pos (List.mem_cons_of_mem _ hmem)]
    · rw [if_neg hmem]
      by_cases heq : i = j
      · subst heq
        rw [List.getElem?_set_self hj, if_pos List.mem_cons_self]
      · have hnot : ¬ j ∈ i :: order := by
          rw [List.mem_cons, not_or]
          exact ⟨fun h => heq h.symm, hmem⟩
        rw [List.getElem?_set_ne heq, if_neg hnot]

/-- Fills of fresh slots leave none empty exactly when they name every slot once. -/
theorem fillAll_complete (texts : List Str) {order : List Nat} {segments : List Str} {text : Str} :
    (fillAll texts order ⟨segments, List.replicate texts.length none⟩ >>= XmlDoc.intoString) =
        .ok text ↔
      order.Perm (List.range texts.length) ∧
        XmlDoc.joined segments (texts.map some) = text := by
  have hfresh : ∀ i, (List.replicate texts.length (none : Option Str))[i]? = some none ↔
      i < texts.length := by
    intro i
    rw [List.getElem?_replicate]
    by_cases hi : i < texts.length
    · simp [hi]
    · simp [hi]
  have hslot : ∀ {j : Nat}, j < texts.length →
      (slotsAfter texts order (List.replicate texts.length none))[j]? =
        if j ∈ order then some (some (texts.getD j [])) else some none := by
    intro j hj
    rw [getElem?_slotsAfter _ _ _ (by rw [List.length_replicate]; exact hj), (hfresh j).mpr hj]
  simp only [Except.bind_eq_ok, fillAll_eq_ok, XmlDoc.intoString, Except.rejectIf_eq_ok,
    Except.pure_eq_ok]
  constructor
  -- no index twice, none out of range and no slot left: a permutation of the indices
  · intro h
    obtain ⟨doc, ⟨hnodup, hall, rfl⟩, _, hfull, htext⟩ := h
    have hmem : ∀ j, j < texts.length → j ∈ order := by
      intro j hj
      by_contra hnot
      apply hfull
      have hj := hslot hj
      rw [if_neg hnot] at hj
      exact List.any_eq_true.mpr ⟨none, List.mem_of_getElem? hj, rfl⟩
    have hperm : order.Perm (List.range texts.length) := by
      apply (List.perm_ext_iff_of_nodup hnodup List.nodup_range).mpr
      intro j
      rw [List.mem_range]
      exact ⟨fun hj => (hfresh j).mp (hall j hj), hmem j⟩
    refine ⟨hperm, ?_⟩
    rw [← htext]
    congr 1
    apply List.ext_getElem?
    intro j
    by_cases hj : j < texts.length
    · rw [hslot hj, if_pos (hmem j hj)]
      simp [List.getElem?_eq_getElem hj]
    · rw [List.getElem?_eq_none (by rw [List.length_map]; omega), List.getElem?_eq_none]
      rw [length_slotsAfter, List.length_replicate]
      omega
  · intro h
    obtain ⟨hperm, htext⟩ := h
    have hmem : ∀ j, j ∈ order ↔ j < texts.length := by
      intro j
      rw [hperm.mem_iff, List.mem_range]
    have hslots : slotsAfter texts order (List.replicate texts.length none) = texts.map some := by
      apply List.ext_getElem?
      intro j
      by_cases hj : j < texts.length
      · rw [hslot hj, if_pos ((hmem j).mpr hj)]
        simp [List.getElem?_eq_getElem hj]
      · rw [List.getElem?_eq_none (by rw [length_slotsAfter, List.length_replicate]; omega),
          List.getElem?_eq_none]
        rw [List.length_map]
        omega
    refine ⟨_, ⟨hperm.nodup_iff.mpr List.nodup_range, fun i hi => ?_, rfl⟩, (), ?_, ?_⟩
    · exact (hfresh i).mpr ((hmem i).mp hi)
    · rw [hslots]
      simp
    · rw [hslots]
      exact htext

/-- Either a program is written both ways, in the same pieces, or neither way. -/
theorem reserved_or_not (form : EmptyForm) (program : List WriterStep) :
    (∃ segments last, segments.length = (program.filterMap hole?).length ∧
      reserved form program = .ok ⟨segments ++ [last],
        List.replicate (program.filterMap hole?).length none⟩ ∧
      textInPlace form program =
        .ok (XmlDoc.joined segments ((program.filterMap hole?).map some) ++ last)) ∨
    ∃ e e', reserved form program = .error e ∧ textInPlace form program = .error e' := by
  let texts := program.filterMap hole?
  obtain ⟨hok, herror⟩ := reserved_inPlace texts program (XmlOut.withForm form) [] (fun i t h => by
    rw [List.length_nil, Nat.zero_add]
    exact h)
  have hnew : (XmlOut.withForm form).rebased [] [] = .withForm form := rfl
  have hnew' : (XmlOut.withForm form).rebased (XmlDoc.joined [] (texts.map some)) [] =
    .withForm form := rfl
  rw [hnew, hnew'] at hok herror
  cases hrun : program.foldlM reserve (.withForm form) with
  | error e =>
    refine .inr ⟨e, e, ?_, ?_⟩
    · rw [reserved, hrun]
      rfl
    · rw [textInPlace, herror e hrun]
      rfl
  | ok out =>
    obtain ⟨o, segments, rfl, hlength, hplace⟩ := hok out hrun
    rw [List.length_nil, Nat.zero_add] at hlength
    cases hstack : o.stack with
    | cons top rest =>
      -- an element is open: neither run finishes
      refine .inr ⟨xmlMisuse ("finish() with `" ++ top.qname ++ "` still open"),
        xmlMisuse ("finish() with `" ++ top.qname ++ "` still open"), ?_, ?_⟩
      · rw [reserved, hrun]
        simp [XmlOut.finish, XmlOut.rebased, hstack, bind, Except.bind]
      · rw [textInPlace, hplace]
        simp [XmlOut.finish, XmlOut.rebased, hstack, bind, Except.bind]
    | nil =>
      refine .inl ⟨segments, o.buf, hlength, ?_, ?_⟩
      · rw [reserved, hrun]
        simp [XmlOut.finish, XmlOut.rebased, hstack, bind, Except.bind, hlength]
      · rw [textInPlace, hplace]
        simp [XmlOut.finish, XmlOut.rebased, hstack, bind, Except.bind, XmlDoc.intoString,
          XmlDoc.joined, Except.rejectIf, pure, Except.pure, texts]

/-- For every program of the writer, in either form, and every order of fills: the document has a text exactly when
    every slot is filled once and the program can be written, and then the text is the one with
    each hole written in its place. -/
theorem filled_text_iff (form : EmptyForm) (program : List WriterStep) (order : List Nat) (text : Str) :
    (do
      let doc ← reserved form program
      let doc ← fillAll (program.filterMap hole?) order doc
      doc.intoString) = .ok text ↔
      order.Perm (List.range (program.filterMap hole?).length) ∧ textInPlace form program = .ok text := by
  cases reserved_or_not form program with
  | inr h =>
    obtain ⟨e, e', hreserved, hwritten⟩ := h
    simp [hreserved, hwritten, bind, Except.bind]
  | inl h =>
    obtain ⟨segments, last, hlength, hreserved, hwritten⟩ := h
    have hlast : XmlDoc.joined (segments ++ [last]) ((program.filterMap hole?).map some) =
        XmlDoc.joined segments ((program.filterMap hole?).map some) ++ last := by
      rw [joined_append, List.getElem?_eq_none (by rw [List.length_map, hlength])]
      simp
    rw [hreserved, hwritten]
    show (fillAll _ order ⟨segments ++ [last], List.replicate _ none⟩ >>= XmlDoc.intoString) =
      .ok text ↔ _
    rw [fillAll_complete, hlast, Except.ok.injEq]

/-! ## The text that is signed -/

theorem holes_blank (program : List WriterStep) :
    (program.map blank).filterMap hole? =
      List.replicate (program.filterMap hole?).length [] := by
  induction program with
  | nil => rfl
  | cons s program ih =>
    cases s with
    | call c => exact ih
    | hole t =>
      show [] :: (program.map blank).filterMap hole? = _
      rw [ih]
      rfl

/-- What is put into a hole does not matter before the slots are filled. -/
theorem reserved_blank (form : EmptyForm) (program : List WriterStep) :
    reserved form (program.map blank) = reserved form program := by
  have hstep : ∀ out s, reserve out (blank s) = reserve out s := by
    intro out s
    cases s <;> rfl
  rw [reserved, reserved, List.foldlM_map]
  congr 1
  exact congrArg (fun f => program.foldlM f (XmlOut.withForm form))
    (funext fun out => funext (hstep out))

theorem joined_empty (segments : List Str) (n : Nat) :
    XmlDoc.joined segments (List.replicate n none) =
      XmlDoc.joined segments ((List.replicate n ([] : Str)).map some) := by
  induction segments generalizing n with
  | nil => cases n <;> rfl
  | cons segment segments ih =>
    cases n with
    | zero => rfl
    | succ n =>
      simp only [List.replicate_succ, List.map_cons, XmlDoc.joined, Option.getD_none,
        Option.getD_some]
      rw [ih]

/-- For every program of the writer, in either form: the text that is signed before any slot is filled is the text
    of the same calls with nothing in the holes, so that it does not depend on what is put there. -/
theorem signed_text_iff (form : EmptyForm) (program : List WriterStep) (text : Str) :
    (reserved form program).map XmlDoc.textWithEmptySlots = .ok text ↔
      textInPlace form (program.map blank) = .ok text := by
  rw [← reserved_blank]
  cases reserved_or_not form (program.map blank) with
  | inr h =>
    obtain ⟨e, e', hreserved, hwritten⟩ := h
    simp [hreserved, hwritten, Except.map]
  | inl h =>
    obtain ⟨segments, last, hlength, hreserved, hwritten⟩ := h
    rw [hreserved, hwritten, Except.map]
    rw [holes_blank, List.length_replicate] at hlength
    have hlast : XmlDoc.textWithEmptySlots ⟨segments ++ [last],
        List.replicate ((program.map blank).filterMap hole?).length none⟩ =
        XmlDoc.joined segments (((program.map blank).filterMap hole?).map some) ++ last := by
      rw [XmlDoc.textWithEmptySlots, joined_empty, joined_append, holes_blank,
        List.length_replicate, List.getElem?_eq_none (by simp [hlength])]
      simp
    rw [hlast]

end Asx
