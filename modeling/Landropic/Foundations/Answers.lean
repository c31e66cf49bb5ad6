import Landropic.Foundations.Proc

set_option autoImplicit false

/-!
# Processes with a deterministic environment

A process on its own, where an environment with a state of its own answers each action with an
input, or leaves the process waiting for ever.

## Main definitions

* `Proc.answered` — how a process ends, if it does, and in which state it leaves the environment.

## Main results

* `Proc.answered_bind`, `Proc.answered_attempt`, `Proc.answered_atom` — the rules of composition.
-/

namespace Proc

variable {σ ι ℓ ε ε' α β δ : Type}

/-- Run a process to its end, while the environment answers its actions. The process waits for ever
where an action is not ready or not answered. -/
def answered (answer : ℓ → δ → Option (ι × δ)) :
    Proc σ ι ℓ ε α → σ → δ → Option (Except ε α × σ × δ)
  | ret r, s, d => some (r, s, d)
  | act label ready eff next, s, d =>
    if ready s = true then
      (answer label d).bind fun p => answered answer (next p.1 s) (eff p.1 s) p.2
    else none

variable {answer : ℓ → δ → Option (ι × δ)} {s : σ} {d : δ}

@[simp] lemma answered_ret (r : Except ε α) :
    answered answer (ret r : Proc σ ι ℓ ε α) s d = some (r, s, d) := rfl

@[simp] lemma answered_pure (a : α) :
    answered answer (pure a : Proc σ ι ℓ ε α) s d = some (.ok a, s, d) := rfl

@[simp] lemma answered_fail (e : ε) :
    answered answer (fail e : Proc σ ι ℓ ε α) s d = some (.error e, s, d) := rfl

lemma answered_atom (label : ℓ) (f : ι → σ → Except ε α × σ) :
    answered answer (atom label f) s d =
      (answer label d).map fun p => ((f p.1 s).1, (f p.1 s).2, p.2) := by
  show (answer label d).bind (fun p => some ((f p.1 s).1, (f p.1 s).2, p.2)) = _
  cases answer label d <;> rfl

/-- **A process that goes on with another one.** -/
theorem answered_bind (t : Proc σ ι ℓ ε α) (k : α → Proc σ ι ℓ ε β) :
    answered answer (t >>= k) s d = (answered answer t s d).bind fun r =>
      match r with
      | (.ok a, s', d') => answered answer (k a) s' d'
      | (.error e, s', d') => some (.error e, s', d') := by
  induction t generalizing s d with
  | ret r =>
    cases r with
    | ok a => rfl
    | error e => rfl
  | act label ready eff next ih =>
    show (if ready s = true then
      (answer label d).bind fun p => answered answer (next p.1 s >>= k) (eff p.1 s) p.2
      else none) = _
    rw [answered]
    split
    · simp only [ih, Option.bind_assoc]
    · rfl

lemma answered_attempt (t : Proc σ ι ℓ ε α) :
    answered answer (t.attempt : Proc σ ι ℓ ε' (Except ε α)) s d =
      (answered answer t s d).map fun r => (.ok r.1, r.2) := by
  induction t generalizing s d with
  | ret r => rfl
  | act label ready eff next ih =>
    rw [attempt, answered, answered]
    split
    · simp only [ih, Option.map_bind]
      rfl
    · rfl

end Proc
