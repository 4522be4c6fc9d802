import Mathlib.Data.Option.Basic

/-! # Fallible Computations

    Peeling lemmas for `Except` and folds in `Option`: how a sequence of fallible
    steps evaluates and what its success says about each step.
-/

namespace Codify.Framework

universe u v

variable {ε ε' : Type u} {α β : Type v}

@[simp] theorem ok_bind (a : α) (f : α → Except ε β) : (Except.ok a >>= f) = f a := rfl

@[simp] theorem error_bind (e : ε) (f : α → Except ε β) :
    ((Except.error e : Except ε α) >>= f) = .error e := rfl

@[simp] theorem mapError_ok (g : ε → ε') (a : α) :
    (Except.ok a : Except ε α).mapError g = .ok a := rfl

@[simp] theorem mapError_error (g : ε → ε') (e : ε) :
    (Except.error e : Except ε α).mapError g = .error (g e) := rfl

@[simp] theorem pure_eq_ok (a : α) : (pure a : Except ε α) = .ok a := rfl

@[simp] theorem throw_eq_error (e : ε) : (throw e : Except ε α) = .error e := rfl

theorem bind_eq_ok_iff {x : Except ε α} {f : α → Except ε β} {b : β} :
    (x >>= f) = .ok b ↔ ∃ a, x = .ok a ∧ f a = .ok b := by
  cases x with
  | error e => simp
  | ok a => simp

theorem mapError_eq_ok_iff {x : Except ε α} {g : ε → ε'} {a : α} :
    x.mapError g = .ok a ↔ x = .ok a := by
  cases x with
  | error e => simp
  | ok b => simp

/-- A fold whose steps fail or not whatever the state is succeeds when no step fails. -/
theorem foldlM_isSome {α σ : Type} {f : σ → α → Option σ} {ok : α → Bool}
    (hf : ∀ s a, (f s a).isSome = ok a) (l : List α) (s : σ) :
    (l.foldlM f s).isSome ↔ ∀ a ∈ l, ok a := by
  induction l generalizing s with
  | nil => simp
  | cons a rest ih =>
    cases hfa : f s a with
    | none =>
      have hok : ok a = false := by rw [← hf s a, hfa]; rfl
      simp [hfa, hok]
    | some t =>
      have hok : ok a = true := by rw [← hf s a, hfa]; rfl
      simp [hfa, hok, ih t]

end Codify.Framework
