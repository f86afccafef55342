import Mathlib.Data.List.Induction

/-!
# Runs of partial step functions

A run is the fold of a step function over a list of actions; a step that is not possible ends
it. What one step preserves holds after every run.
-/

namespace Option

variable {σ α : Type*} {f : σ → α → Option σ} {P : σ → Prop} {l : List α} {s t : σ}

theorem foldlM_invariant (h : l.foldlM f s = some t) (hs : P s)
    (step : ∀ s a s', a ∈ l → f s a = some s' → P s → P s') : P t := by
  induction l generalizing s with
  | nil => exact Option.some.inj h ▸ hs
  | cons a l ih =>
    rw [List.foldlM_cons, Option.bind_eq_bind, Option.bind_eq_some_iff] at h
    obtain ⟨s', hs', h⟩ := h
    exact ih h (step s a s' List.mem_cons_self hs' hs)
      fun b c b' hc => step b c b' (List.mem_cons_of_mem a hc)

/-- The same, for what is said over the actions so far. -/
theorem foldlM_history {Q : List α → σ → Prop} (h : l.foldlM f s = some t) (hs : Q [] s)
    (step : ∀ past a u v, past ++ [a] <+: l → past.foldlM f s = some u → f u a = some v →
      Q past u → Q (past ++ [a]) v) : Q l t := by
  induction l using List.reverseRecOn generalizing t with
  | nil => exact Option.some.inj h ▸ hs
  | append_singleton l a ih =>
    rw [List.foldlM_append, Option.bind_eq_bind, Option.bind_eq_some_iff] at h
    obtain ⟨u, hu, h⟩ := h
    have ha : f u a = some t := by simpa using h
    refine step l a u t (List.prefix_refl _) hu ha (ih hu ?_)
    exact fun past b v v' hpast => step past b v v' (hpast.trans (List.prefix_append _ _))

end Option
