import Mathlib.Logic.Function.Basic

/-!
# Fallible computations in a monad

`ExceptT ε m` where most of the steps have no effect: they are `MonadExcept.ofExcept`, and such steps
next to each other are one.
-/

namespace ExceptT

variable {ε α β : Type} {m : Type → Type} [Monad m] [LawfulMonad m]

/-- A computation that starts with a step without effects. -/
theorem run_ofExcept_bind (r : Except ε α) (f : α → ExceptT ε m β) :
    (MonadExcept.ofExcept r >>= f : ExceptT ε m β).run =
      match r with
      | .ok a => (f a).run
      | .error e => pure (.error e) := by
  cases r with
  | ok a => simp [MonadExcept.ofExcept]
  | error e => simp [MonadExcept.ofExcept]

/-- A computation that goes on without effects. -/
theorem run_bind_ofExcept (x : ExceptT ε m α) (f : α → Except ε β) :
    (x >>= fun a => MonadExcept.ofExcept (f a) : ExceptT ε m β).run =
      (fun r => r >>= f) <$> x.run := by
  rw [ExceptT.run_bind, map_eq_pure_bind]
  refine congrArg _ (funext fun r => ?_)
  cases r with
  | error e => rfl
  | ok a =>
    dsimp only [bind, Except.bind]
    cases f a with
    | ok b => rfl
    | error e => rfl

theorem ofExcept_ok_bind (a : α) (f : α → ExceptT ε m β) :
    (MonadExcept.ofExcept (.ok a) >>= f : ExceptT ε m β) = f a := by
  apply ExceptT.ext
  rw [run_ofExcept_bind]

theorem ofExcept_error_bind (e : ε) (f : α → ExceptT ε m β) :
    (MonadExcept.ofExcept (.error e) >>= f : ExceptT ε m β) = MonadExcept.ofExcept (.error e) := by
  apply ExceptT.ext
  rw [run_ofExcept_bind]
  rfl

/-- Two steps without effects are one. -/
theorem ofExcept_bind_ofExcept (r : Except ε α) (f : α → Except ε β) :
    (MonadExcept.ofExcept r >>= fun a => MonadExcept.ofExcept (f a) : ExceptT ε m β) =
      MonadExcept.ofExcept (r >>= f) := by
  apply ExceptT.ext
  rw [run_ofExcept_bind]
  cases r with
  | ok a => rfl
  | error e => rfl

theorem ofExcept_bind_pure (r : Except ε α) (f : α → β) :
    (MonadExcept.ofExcept r >>= fun a => pure (f a) : ExceptT ε m β) =
      MonadExcept.ofExcept (r >>= fun a => pure (f a)) :=
  ofExcept_bind_ofExcept r fun a => .ok (f a)

theorem adapt_ofExcept {ε' : Type} (g : ε → ε') (r : Except ε α) :
    ExceptT.adapt g (MonadExcept.ofExcept r : ExceptT ε m α) =
      MonadExcept.ofExcept (r.mapError g) := by
  apply ExceptT.ext
  rw [ExceptT.run_adapt]
  cases r with
  | ok a => exact map_pure _ _
  | error e => exact map_pure _ _

end ExceptT
