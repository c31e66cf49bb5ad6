import Mathlib.Logic.Basic

set_option autoImplicit false

/-!
# Chains of fallible steps

Equations for `Except` computations written with `do`, which peel the steps apart one at a time.

## Main definitions

* `Stop` — why a computation ended without a value.

## Main results

* `Except.bind_eq_ok` — a chain succeeds exactly when its first step does and the rest does on the
  value of that step.
* `List.foldlM_invariant` — what each step of a loop preserves holds at its end.
-/

/-- Why a computation ended without a value: it returned an error, or it panicked. -/
inductive Stop (ε : Type)
  | err (e : ε)
  | panic
  deriving DecidableEq

/-- **What holds at first and is preserved by every step holds at the end of a loop.** -/
theorem List.foldlM_invariant {σ α : Type} {step : σ → α → Option σ} {P : σ → Prop} {l : List α}
    {s s' : σ} (h : l.foldlM step s = some s') (hs : P s)
    (hstep : ∀ s₁ a s₂, P s₁ → step s₁ a = some s₂ → P s₂) : P s' := by
  induction l generalizing s with
  | nil =>
    obtain rfl := Option.some.inj h
    exact hs
  | cons a l ih =>
    rw [List.foldlM_cons] at h
    obtain ⟨s₁, hnext, hrest⟩ := Option.bind_eq_some_iff.mp h
    exact ih hrest (hstep _ _ _ hs hnext)

namespace Except

variable {ε α β : Type}

@[simp] lemma ok_bind (a : α) (f : α → Except ε β) : (Except.ok a >>= f) = f a := rfl

@[simp] lemma error_bind (e : ε) (f : α → Except ε β) : (Except.error e >>= f) = .error e := rfl

lemma bind_eq_ok {x : Except ε α} {f : α → Except ε β} {b : β} :
    (x >>= f) = .ok b ↔ ∃ a, x = .ok a ∧ f a = .ok b := by
  cases x with
  | error e => simp
  | ok a => simp

lemma unit_bind_eq_ok {x : Except ε Unit} {f : Unit → Except ε β} {b : β} :
    (x >>= f) = .ok b ↔ x = .ok () ∧ f () = .ok b := by
  cases x with
  | error e => simp
  | ok a => simp

lemma forM_eq_ok_iff {l : List α} {f : α → Except ε Unit} :
    forM l f = .ok () ↔ ∀ a ∈ l, f a = .ok () := by
  induction l with
  | nil => simp [pure, Except.pure]
  | cons a l ih =>
    rw [List.forM_cons, unit_bind_eq_ok, ih]
    simp

end Except
