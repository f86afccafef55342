import Asx.Native.C14n

/-!
# What a start tag renders

Lookup-level descriptions of the namespace maps that `writeStartTag` builds. Proofs
about the serializer use these lemmas and never unfold the folds behind them.

## Key results
- `get_mergeInclusivePrefixes`: a `PrefixList` token adds the binding in scope, unless
  the prefix is utilized already
- `get_extend_nsEmitted`: the rendered context below an element
- `elementSourcePrefix_eq_pre`, `attributeSourcePrefix_eq_pre`: when a name is written
  with the prefix it has in the source
-/

namespace Asx

open Xml

/-! ## Names -/

private theorem beforeLast_append_of_some {c : Char} (s t : Str) {r : Str}
    (h : Str.beforeLast c t = some r) : Str.beforeLast c (s ++ t) = some (s ++ r) := by
  induction s with
  | nil => exact h
  | cons x xs ih => simp [Str.beforeLast, ih]

/-- In `pre:rest` the part before the last colon starts with `pre`. -/
private theorem beforeLast_colon (pre rest : Str) :
    ∃ r, Str.beforeLast ':' (pre ++ ':' :: rest) = some (pre ++ r) := by
  cases hr : Str.beforeLast ':' rest with
  | none =>
    refine ⟨[], beforeLast_append_of_some pre (':' :: rest) ?_⟩
    simp [Str.beforeLast, hr]
  | some r =>
    exact ⟨':' :: r, beforeLast_append_of_some pre (':' :: rest) (by simp [Str.beforeLast, hr])⟩

/-- A prefixed attribute is never written without a prefix. -/
theorem attributeSourcePrefix_ne_nil {q : QName} (h : q.pre ≠ []) :
    attributeSourcePrefix q ≠ [] := by
  obtain ⟨r, hr⟩ := beforeLast_colon q.pre q.loc
  simp [attributeSourcePrefix, qnameText, h, hr]

/-- An attribute is written with the prefix it has. -/
theorem attributeSourcePrefix_eq_pre {q : QName} (h : ':' ∉ q.loc) :
    attributeSourcePrefix q = q.pre := by
  simp only [attributeSourcePrefix, qnameText]
  split
  · rename_i hp
    simp [Str.beforeLast_eq_none h, hp]
  · simp [Str.beforeLast_append_cons q.pre h]

/-- A character that does not end the name in `elementSourcePrefix`. -/
def nameContinues (c : Char) : Bool := !(Str.isWhitespace c || c == '>' || c == '/')

private theorem takeWhile_append_of_all {p : Char → Bool} {s : Str} (t : Str)
    (h : ∀ c ∈ s, p c = true) : (s ++ t).takeWhile p = s ++ t.takeWhile p := by
  induction s with
  | nil => rfl
  | cons c s ih =>
    rw [List.cons_append, List.takeWhile_cons, if_pos (h c List.mem_cons_self),
      ih fun d hd => h d (List.mem_cons_of_mem _ hd), List.cons_append]

/-- A prefix without a delimiter is read in full. -/
private theorem elementSourcePrefix_of_continues {q : QName} (hp : q.pre ≠ [])
    (h : ∀ c ∈ q.pre, nameContinues c = true) :
    elementSourcePrefix q =
      (Str.beforeLast ':' (q.pre ++ ':' :: q.loc.takeWhile nameContinues)).getD [] := by
  have hc : nameContinues ':' = true := by decide
  have htake := takeWhile_append_of_all (':' :: q.loc) h
  rw [List.takeWhile_cons, if_pos hc] at htake
  simp only [elementSourcePrefix, qnameText, if_neg hp]
  exact congrArg (fun s => (Str.beforeLast ':' s).getD []) htake

/-- An element whose prefix has no delimiter is written with the prefix it has. -/
theorem elementSourcePrefix_eq_pre {q : QName} (hl : ':' ∉ q.loc)
    (h : ∀ c ∈ q.pre, nameContinues c = true) : elementSourcePrefix q = q.pre := by
  have hl' : ':' ∉ q.loc.takeWhile nameContinues :=
    fun hm => hl ((List.takeWhile_prefix _).subset hm)
  by_cases hp : q.pre = []
  · have hnone : Str.beforeLast ':' (q.loc.takeWhile nameContinues) = none :=
      Str.beforeLast_eq_none hl'
    simp only [elementSourcePrefix, qnameText, hp]
    exact congrArg (Option.getD · []) hnone
  · rw [elementSourcePrefix_of_continues hp h, Str.beforeLast_append_cons q.pre hl']
    rfl

/-! ## The utilized namespaces -/

/-- Attributes never utilize the default namespace. -/
theorem get_nil_utilizedAttrs (chain : List Tree) (attrs : List Attr) (utilized : NsMap) :
    (utilizedAttrs chain attrs utilized).get [] = utilized.get [] := by
  induction attrs generalizing utilized with
  | nil => rfl
  | cons a attrs ih =>
    simp only [utilizedAttrs, List.foldl_cons] at ih ⊢
    rw [ih]
    split
    · split
      · rfl
      · -- only a prefixed attribute has a namespace
        rename_i uri hres hxml
        have hp : a.name.pre ≠ [] := by
          intro hp
          simp [resolveAttr, hp] at hres
        simp [Ne.symm (attributeSourcePrefix_ne_nil hp)]
    · rfl

/-- What the tokens of a `PrefixList` contribute for a prefix. -/
def tokenBinding (chain : List Tree) (tokens : List Str) (pre : Str) : Option Str :=
  if pre ∈ tokens.map tokenPrefix then (inScope chain pre).filter (· ≠ xmlNs) else none

/-- A `PrefixList` token adds the binding in scope for a prefix not utilized yet. -/
theorem get_mergeInclusivePrefixes (chain : List Tree) (tokens : List Str) (utilized : NsMap)
    (pre : Str) :
    (mergeInclusivePrefixes chain tokens utilized).get pre =
      (utilized.get pre).or (tokenBinding chain tokens pre) := by
  induction tokens generalizing utilized with
  | nil => simp [mergeInclusivePrefixes, tokenBinding]
  | cons token tokens ih =>
    have hfold : mergeInclusivePrefixes chain (token :: tokens) utilized =
        mergeInclusivePrefixes chain tokens (mergeInclusivePrefixes chain [token] utilized) := rfl
    have hone : (mergeInclusivePrefixes chain [token] utilized).get pre =
        (utilized.get pre).or
          (if pre = tokenPrefix token then (inScope chain pre).filter (· ≠ xmlNs) else none) := by
      simp only [mergeInclusivePrefixes, List.foldl_cons, List.foldl_nil]
      by_cases hp : pre = tokenPrefix token
      · subst hp
        cases hs : inScope chain (tokenPrefix token) with
        | none => simp
        | some uri =>
          by_cases hx : uri = xmlNs
          · simp [hx, Option.filter_some]
          · cases hg : utilized.get (tokenPrefix token) <;> simp [hx, hg, Option.filter_some]
      · cases hs : inScope chain (tokenPrefix token) with
        | none => simp [hp]
        | some uri =>
          by_cases hx : uri = xmlNs
          · simp [hx, hp]
          · simp [hx, hp]
    rw [hfold, ih, hone]
    simp only [tokenBinding, List.map_cons, List.mem_cons]
    by_cases hp : pre = tokenPrefix token
    · by_cases hm : pre ∈ tokens.map tokenPrefix
      · rw [if_pos hp, if_pos hm, if_pos (Or.inl hp)]
        cases utilized.get pre <;> cases (inScope chain pre).filter (· ≠ xmlNs) <;> rfl
      · rw [if_pos hp, if_neg hm, if_pos (Or.inl hp)]
        cases utilized.get pre <;> cases (inScope chain pre).filter (· ≠ xmlNs) <;> rfl
    · by_cases hm : pre ∈ tokens.map tokenPrefix
      · rw [if_neg hp, if_pos hm, if_pos (Or.inr hm)]
        cases utilized.get pre <;> rfl
      · rw [if_neg hp, if_neg hm, if_neg (not_or.mpr ⟨hp, hm⟩)]
        cases utilized.get pre <;> rfl

/-! ## The rendered context -/

/-- Emitted declarations are listed by strictly increasing prefix. -/
theorem nsEmitted_sorted (parentNs utilized : NsMap) :
    (nsEmitted parentNs utilized).Pairwise (fun a b => a.1 < b.1) :=
  utilized.sorted.filter _

/-- The emitted declaration of a prefix, if any. -/
theorem lookup_nsEmitted (parentNs utilized : NsMap) (pre : Str) :
    (nsEmitted parentNs utilized).lookup pre =
      (utilized.get pre).filter (fun uri => shouldEmit parentNs (pre, uri)) :=
  utilized.lookup_filter _ pre

/-- The rendered context below an element: what it emitted, else what was rendered. -/
theorem get_extend_nsEmitted (parentNs utilized : NsMap) (pre : Str) :
    (parentNs.extend (nsEmitted parentNs utilized)).get pre =
      ((utilized.get pre).filter (fun uri => shouldEmit parentNs (pre, uri))).or
        (parentNs.get pre) := by
  rw [OrdMap.get_extend _ (nsEmitted_sorted parentNs utilized), lookup_nsEmitted]

/-- Without a rendered default namespace no `xmlns=""` is written. -/
theorem shouldEmit_empty_default {parentNs : NsMap} (h : nsOfUri (parentNs.get []) = none) :
    shouldEmit parentNs ([], []) = false := by
  cases hg : parentNs.get [] with
  | none => simp [shouldEmit, hg]
  | some uri =>
    cases uri with
    | nil => simp [shouldEmit, hg]
    | cons c cs => simp [hg, nsOfUri] at h

end Asx
