import Landropic.Foundations.Proc
import Landropic.Foundations.Runs

set_option autoImplicit false

/-!
# Pools of tasks

Any number of processes on one state, whose actions interleave in every order.

## Main definitions

* `Pool` — a state and the tasks on it.
* `Pool.withTask` — a pool with a task replaced.
* `Pool.Step`, `Pool.advance` — one task takes its next action, as a relation and as a function.
* `Pool.Run` — runs all of whose steps meet a condition.
* `Pool.exec` — the run of a given list of actions.

## Main results

* `Pool.wp_step`, `Pool.outline_step` — the rule of rely and guarantee: if what each task does is
  among what the others allow, every step of the pool leaves every task its specification.
* `Pool.Run.invariant` — what holds at first and is preserved by every step holds along a run.
-/

/-- Tasks that share a state. -/
structure Pool (τ σ ι ℓ ε α : Type) where
  state : σ
  task : τ → Proc σ ι ℓ ε α

namespace Pool

variable {τ σ ι ℓ ε α : Type} [DecidableEq τ]

/-- Replace a task. -/
def withTask (P : Pool τ σ ι ℓ ε α) (t : τ) (p : Proc σ ι ℓ ε α) : Pool τ σ ι ℓ ε α :=
  { P with task := Function.update P.task t p }

@[simp] lemma task_withTask_self (P : Pool τ σ ι ℓ ε α) (t : τ) (p : Proc σ ι ℓ ε α) :
    (P.withTask t p).task t = p := Function.update_self ..

lemma task_withTask_of_ne (P : Pool τ σ ι ℓ ε α) {t u : τ} (p : Proc σ ι ℓ ε α) (h : u ≠ t) :
    (P.withTask t p).task u = P.task u := Function.update_of_ne h ..

/-- One task takes its next action. -/
inductive Step (P : Pool τ σ ι ℓ ε α) (t : τ) (i : ι) : Pool τ σ ι ℓ ε α → Prop
  | mk {next : Proc σ ι ℓ ε α} {state : σ} : Proc.Step (P.task t) P.state i next state →
      Step P t i ⟨state, Function.update P.task t next⟩

/-- The pool after the next action of a task, if that is ready. -/
def advance (P : Pool τ σ ι ℓ ε α) (t : τ) (i : ι) : Option (Pool τ σ ι ℓ ε α) :=
  match P.task t with
  | .ret _ => none
  | .act _ ready eff next =>
    if ready P.state = true then
      some ⟨eff i P.state, Function.update P.task t (next i P.state)⟩
    else none

/-- Runs whose steps all meet a condition on the pool before the step, the task and its input. -/
def Run (C : Pool τ σ ι ℓ ε α → τ → ι → Prop) : Pool τ σ ι ℓ ε α → Pool τ σ ι ℓ ε α → Prop :=
  Runs.Run (fun P (e : τ × ι) => P.advance e.1 e.2) fun P e => C P e.1 e.2

variable {P P' : Pool τ σ ι ℓ ε α} {t u : τ} {i : ι}

lemma Step.task_of_ne (h : Step P t i P') (hne : u ≠ t) : P'.task u = P.task u := by
  cases h with
  | mk h => exact Function.update_of_ne hne _ _

lemma Step.proc (h : Step P t i P') :
    Proc.Step (P.task t) P.state i (P'.task t) P'.state := by
  cases h with
  | mk h => simpa using h

lemma Step.ne_ret (h : Step P t i P') (r : Except ε α) : P.task t ≠ .ret r := by
  intro hr
  have hproc := h.proc
  rw [hr] at hproc
  cases hproc

lemma step_of_advance (h : P.advance t i = some P') : Step P t i P' := by
  unfold advance at h
  split at h
  · cases h
  · next label ready eff next htask =>
    split at h
    · next hready =>
      obtain rfl := Option.some.inj h
      apply Step.mk
      rw [htask]
      exact .act hready
    · cases h

lemma advance_of_step (h : Step P t i P') : P.advance t i = some P' := by
  cases h with
  | mk h =>
    unfold advance
    cases h' : P.task t with
    | ret r =>
      rw [h'] at h
      cases h
    | act label ready eff next =>
      rw [h'] at h
      cases h with
      | act hready => exact if_pos hready

/-- **What holds at first and is preserved by every step holds along a run.** -/
theorem Run.invariant {C : Pool τ σ ι ℓ ε α → τ → ι → Prop} {I : Pool τ σ ι ℓ ε α → Prop}
    (hrun : Run C P P') (h : I P)
    (hstep : ∀ {P P' : Pool τ σ ι ℓ ε α} {t i}, I P → C P t i → Step P t i P' → I P') : I P' :=
  Runs.Run.invariant hrun h fun _ hI hC hnext => hstep hI hC (step_of_advance hnext)

/-- Take the given actions one after the other, as long as they are ready and meet a condition. -/
def exec (C : Pool τ σ ι ℓ ε α → τ → ι → Prop) [∀ P t i, Decidable (C P t i)]
    (actions : List (τ × ι)) : Pool τ σ ι ℓ ε α → Option (Pool τ σ ι ℓ ε α) :=
  Runs.exec (fun P e => P.advance e.1 e.2) (fun P e => C P e.1 e.2) actions

lemma run_of_exec {C : Pool τ σ ι ℓ ε α → τ → ι → Prop} [∀ P t i, Decidable (C P t i)]
    {actions : List (τ × ι)} (h : exec C actions P = some P') : Run C P P' := Runs.run_of_exec h

/-- A task that returns on its own can do so in a pool. -/
lemma exists_of_returns {J : Pool τ σ ι ℓ ε α → Prop}
    (hJ : ∀ {P P' : Pool τ σ ι ℓ ε α} {i}, J P → Step P t i P' → J P') {A : ι → Prop}
    {p : Proc σ ι ℓ ε α} {s s' : σ} {r : Except ε α} (hrun : Proc.Returns A p s r s') (h : J P)
    (htask : P.task t = p) (hstate : P.state = s) :
    ∃ P', J P' ∧ P'.state = s' ∧ P'.task t = .ret r := by
  induction hrun generalizing P with
  | ret => exact ⟨P, h, hstate, htask⟩
  | @act label ready eff next s s' r i hready _ _ ih =>
    have hstep : Proc.Step (P.task t) P.state i (next i s) (eff i s) := by
      rw [htask, hstate]
      exact .act hready
    exact ih (hJ h (.mk hstep)) (Function.update_self ..) rfl

/-- A task that returns on its own is returned in some run. -/
lemma run_of_returns {A : ι → Prop} {r : Except ε α} {s' : σ}
    (hrun : Proc.Returns A (P.task t) P.state r s') :
    ∃ P', Run (fun _ _ _ => True) P P' ∧ P'.state = s' ∧ P'.task t = .ret r :=
  exists_of_returns (J := Run (fun _ _ _ => True) P)
    (fun {_ _ i} h hstep => h.tail ⟨(t, i), trivial, advance_of_step hstep⟩) hrun .refl rfl rfl

lemma forall_withTask {J : τ → Proc σ ι ℓ ε α → Prop} {p : Proc σ ι ℓ ε α}
    (h : ∀ u, J u (P.task u)) (hp : J t p) : ∀ u, J u ((P.withTask t p).task u) := by
  intro u
  by_cases hu : u = t
  · subst hu
    rwa [task_withTask_self]
  · rw [task_withTask_of_ne P p hu]
    exact h u

/-- **The rule of rely and guarantee.** If the task moves as its specification says, and what it
then guarantees is what each other task allows, every task keeps its specification. -/
theorem wp_step {S : τ → Proc.Spec σ ι ℓ} {Q : τ → Except ε α → σ → Prop}
    (h : ∀ u, Proc.wp (S u) (Q u) (P.task u) P.state) (hstep : Step P t i P')
    (hinput : ∀ l, (P.task t).head = some l → (S t).input l P.state i)
    (henv : ∀ u ≠ t, ∀ l, (P.task t).head = some l → (S t).guar l P.state P'.state →
      (S u).env (P.task u).head P.state P'.state)
    (hstable : ∀ u r s s', (S u).env none s s' → Q u r s → Q u r s') :
    ∀ u, Proc.wp (S u) (Q u) (P'.task u) P'.state := by
  obtain ⟨⟨l, hl, hguar⟩, hnext⟩ := Proc.wp_step (h t) hstep.proc hinput
  intro u
  by_cases hu : u = t
  · subst hu
    exact hnext
  · rw [hstep.task_of_ne hu]
    refine Proc.wp_of_env (h u) (fun r hr hQ => ?_) (henv u hu l hl hguar)
    have henv' := henv u hu l hl hguar
    rw [hr] at henv'
    exact hstable u r _ _ henv' hQ

/-- The rule of rely and guarantee, for proof outlines. -/
theorem outline_step {S : τ → Proc.Spec σ ι ℓ} {R : τ → ℓ → σ → Prop}
    {Q : τ → Except ε α → σ → Prop}
    (h : ∀ u, Proc.Outline (S u) (R u) (Q u) (P.task u) P.state) (hstep : Step P t i P')
    (hinput : ∀ l, (P.task t).head = some l → (S t).input l P.state i)
    (henv : ∀ u ≠ t, ∀ l, (P.task t).head = some l → (S t).guar l P.state P'.state →
      (S u).env (P.task u).head P.state P'.state)
    (hstable : ∀ u r s s', (S u).env none s s' → Q u r s → Q u r s') :
    ∀ u, Proc.Outline (S u) (R u) (Q u) (P'.task u) P'.state := by
  obtain ⟨⟨l, hl, hguar⟩, hnext⟩ := (h t).step hstep.proc hinput
  intro u
  by_cases hu : u = t
  · subst hu
    exact hnext
  · have henv' := henv u hu l hl hguar
    rw [hstep.task_of_ne hu]
    refine (h u).of_env (fun r hr hQ => ?_) henv'
    rw [hr] at henv'
    exact hstable u r _ _ henv' hQ

end Pool
