import Landropic.Foundations.Crashes
import Landropic.Foundations.Pool

set_option autoImplicit false

/-!
# Observed processes

An observer remembers what the actions of a process have done. It sees the label of each action, its
input and the state before it, and has no effect on the process.

## Main definitions

* `Proc.observe` — a process with an observer.
* `Crashable.observe` — a component whose calls are observed; a crash is not forgotten either.
* `Pool.observe` — a pool whose tasks are observed.

## Main results

* `Proc.step_observe` — a step of an observed process is one of the process, which is remembered.
* `Proc.Throughout.observe_bind` — the rule of composition.
* `Pool.step_observe` — the same of a pool.
-/

namespace Proc

variable {σ γ ι ℓ ε α : Type}

/-- A process that is observed. -/
def observe (f : ℓ → ι → σ → γ → γ) : Proc σ ι ℓ ε α → Proc (σ × γ) ι ℓ ε α
  | ret r => ret r
  | act label ready eff next =>
    act label (fun x => ready x.1) (fun i x => (eff i x.1, f label i x.1 x.2))
      fun i x => (next i x.1).observe f

variable {f : ℓ → ι → σ → γ → γ} {t : Proc σ ι ℓ ε α} {t' : Proc (σ × γ) ι ℓ ε α}
  {x x' : σ × γ} {i : ι}

@[simp] lemma observe_ret (r : Except ε α) : (ret r : Proc σ ι ℓ ε α).observe f = ret r := rfl

@[simp] lemma head_observe : (t.observe f).head = t.head := by
  cases t with
  | ret r => rfl
  | act label ready eff next => rfl

/-- **A step of an observed process** is a step of the process, and is remembered. -/
theorem step_observe (h : Step (t.observe f) x i t' x') :
    ∃ label next, t.head = some label ∧ t' = next.observe f ∧ Step t x.1 i next x'.1 ∧
      x'.2 = f label i x.1 x.2 := by
  cases t with
  | ret r => cases h
  | act label ready eff next =>
    cases h with
    | act hready => exact ⟨label, _, rfl, rfl, .act hready, rfl⟩

lemma observe_bind {β : Type} (t : Proc σ ι ℓ ε α) (k : α → Proc σ ι ℓ ε β) :
    (t >>= k).observe f = t.observe f >>= fun a => (k a).observe f := by
  induction t with
  | ret r =>
    cases r with
    | ok a => rfl
    | error e => rfl
  | act label ready eff next ih =>
    exact congrArg (act label _ _) (funext fun i => funext fun x => ih i x.1)

/-- **Composition** of observed processes. -/
theorem Throughout.observe_bind {β : Type} {P : ℓ → σ × γ → Prop}
    {Q : Except ε β → σ × γ → Prop} {k : α → Proc σ ι ℓ ε β}
    (h : Throughout P (fun r x => match r with
      | .ok a => Throughout P Q ((k a).observe f) x
      | .error e => Q (.error e) x) (t.observe f) x) :
    Throughout P Q ((t >>= k).observe f) x := by
  rw [Proc.observe_bind]
  exact .bind h

/-- A single action that is observed. -/
lemma Throughout.observe_atom {P : ℓ → σ × γ → Prop} {Q : Except ε α → σ × γ → Prop} {label : ℓ}
    {eff : ι → σ → Except ε α × σ} (hP : P label x)
    (hQ : ∀ i, Q (eff i x.1).1 ((eff i x.1).2, f label i x.1 x.2)) :
    Throughout P Q ((Proc.atom label eff).observe f) x := ⟨hP, fun _ => hQ⟩

end Proc

namespace Crashable

variable {κ σ γ ι ℓ ε α : Type}

/-- A component whose calls are observed. What is remembered survives a crash. -/
def observe (C : Crashable κ σ ι ℓ ε α) (f : κ → ℓ → ι → σ → γ → γ) :
    Crashable κ (σ × γ) ι ℓ ε α where
  code c := (C.code c).observe (f c)
  crash label kept x := (C.crash label kept x.1, x.2)

/-- Nothing else is remembered of the calls. -/
def History.trivial : History κ ε α Unit := ⟨fun _ past => past, fun _ _ past => past⟩

/-- A component between two calls. -/
def Machine.idle (s : σ) : Machine κ σ Unit ι ℓ ε α := ⟨s, (), none⟩

end Crashable

namespace Pool

variable {τ σ γ ι ℓ ε α : Type}

/-- A pool whose tasks are observed. -/
def observe (P : Pool τ σ ι ℓ ε α) (f : ℓ → ι → σ → γ → γ) (g : γ) :
    Pool τ (σ × γ) ι ℓ ε α :=
  ⟨(P.state, g), fun t => (P.task t).observe f⟩

variable [DecidableEq τ] {P : Pool τ σ ι ℓ ε α} {f : ℓ → ι → σ → γ → γ} {g : γ} {t : τ} {i : ι}
  {P' : Pool τ (σ × γ) ι ℓ ε α}

/-- **A step of an observed pool** is a step of the pool, and is remembered. -/
theorem step_observe (h : Step (P.observe f g) t i P') :
    ∃ label Q, (P.task t).head = some label ∧ Step P t i Q ∧
      P' = Q.observe f (f label i P.state g) := by
  cases h with
  | @mk next x h =>
    obtain ⟨label, next, hhead, rfl, hstep, hremembered⟩ := Proc.step_observe h
    refine ⟨label, ⟨x.1, Function.update P.task t next⟩, hhead, .mk hstep, ?_⟩
    obtain ⟨s, g'⟩ := x
    obtain rfl : g' = f label i P.state g := hremembered
    refine congrArg (Pool.mk (s, f label i P.state g)) (funext fun u => ?_)
    by_cases hu : u = t
    · subst hu
      simp
    · simp [Function.update_of_ne hu, observe]

end Pool
