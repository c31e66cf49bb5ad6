import Mathlib.Logic.Relation

set_option autoImplicit false

/-!
# Runs of a transition system

A transition system takes events, each of which leads from a state to at most one other.

## Main definitions

* `Runs.Run` — runs all of whose steps meet a condition.
* `Runs.exec` — the run of a given list of events.
* `Runs.Inevitable` — every run that goes on as long as it can comes to such a state.

## Main results

* `Runs.Run.invariant` — what holds at first and is preserved by every step holds along a run.
* `Runs.run_iff_run_of_next`, `Runs.run_iff_run` — two conditions that agree where an invariant
  holds have the same runs.
* `Runs.run_of_exec` — what is executed is a run.
* `Runs.Inevitable.exists_run` — what is inevitable is reached.
-/

namespace Runs

variable {σ ε : Type} {next : σ → ε → Option σ} {C : σ → ε → Prop} {s s' : σ}

/-- Runs whose steps all meet a condition on the state before the step and the event. -/
def Run (next : σ → ε → Option σ) (C : σ → ε → Prop) : σ → σ → Prop :=
  Relation.ReflTransGen fun s s' => ∃ e, C s e ∧ next s e = some s'

/-- **What holds at first and is preserved by every step holds along a run.** -/
theorem Run.invariant {I : σ → Prop} (hrun : Run next C s s') (h : I s)
    (hstep : ∀ {s₁ e s₂}, Run next C s s₁ → I s₁ → C s₁ e → next s₁ e = some s₂ → I s₂) : I s' := by
  induction hrun with
  | refl => exact h
  | tail hrun hlast ih =>
    obtain ⟨e, hC, hnext⟩ := hlast
    exact hstep hrun ih hC hnext

/-- Where an invariant holds, a run that meets one condition meets another that follows from it for
the steps that are possible. -/
theorem Run.strengthen {I : σ → Prop} {D : σ → ε → Prop} (hrun : Run next C s s') (h : I s)
    (himp : ∀ {s₁ e s₂}, I s₁ → next s₁ e = some s₂ → C s₁ e → D s₁ e)
    (hstep : ∀ {s₁ e s₂}, I s₁ → C s₁ e → next s₁ e = some s₂ → I s₂) :
    Run next D s s' ∧ I s' := by
  induction hrun with
  | refl => exact ⟨.refl, h⟩
  | tail _ hlast ih =>
    obtain ⟨hrun, hlastI⟩ := ih
    obtain ⟨e, hC, hnext⟩ := hlast
    exact ⟨hrun.tail ⟨e, himp hlastI hnext hC, hnext⟩, hstep hlastI hC hnext⟩

/-- **Two conditions that agree where an invariant holds**, on the steps that are possible, have the
same runs, and the invariant holds along them, if a step that meets them keeps it. -/
theorem run_iff_run_of_next {I : σ → Prop} {D : σ → ε → Prop} (h : I s)
    (hagree : ∀ {s₁ e s₂}, I s₁ → next s₁ e = some s₂ → (C s₁ e ↔ D s₁ e))
    (hstep : ∀ {s₁ e s₂}, I s₁ → C s₁ e → next s₁ e = some s₂ → I s₂) :
    (Run next C s s' ↔ Run next D s s') ∧ (Run next D s s' → I s') := by
  have hto (hrun : Run next C s s') :=
    hrun.strengthen h (fun hI hnext => (hagree hI hnext).mp) hstep
  have hfrom (hrun : Run next D s s') := hrun.strengthen h
    (fun hI hnext => (hagree hI hnext).mpr) fun hI hD hnext =>
      hstep hI ((hagree hI hnext).mpr hD) hnext
  exact ⟨⟨fun hrun => (hto hrun).1, fun hrun => (hfrom hrun).1⟩, fun hrun => (hfrom hrun).2⟩

/-- **Two conditions that agree where an invariant holds** have the same runs, and the invariant
holds along them, if a step that meets them keeps it. -/
theorem run_iff_run {I : σ → Prop} {D : σ → ε → Prop} (h : I s)
    (hagree : ∀ {s₁ e}, I s₁ → (C s₁ e ↔ D s₁ e))
    (hstep : ∀ {s₁ e s₂}, I s₁ → C s₁ e → next s₁ e = some s₂ → I s₂) :
    (Run next C s s' ↔ Run next D s s') ∧ (Run next D s s' → I s') :=
  run_iff_run_of_next h (fun hI _ => hagree hI) hstep

lemma Run.step {e : ε} (hC : C s e) (hnext : next s e = some s') : Run next C s s' :=
  Relation.ReflTransGen.single ⟨e, hC, hnext⟩

/-- Take the given events one after the other, as long as they are possible and meet a condition. -/
def exec (next : σ → ε → Option σ) (C : σ → ε → Prop) [∀ s e, Decidable (C s e)] :
    List ε → σ → Option σ
  | [], s => some s
  | e :: rest, s => if C s e then (next s e).bind (exec next C rest) else none

/-- **What is executed is a run.** -/
theorem run_of_exec [∀ s e, Decidable (C s e)] {events : List ε}
    (h : exec next C events s = some s') : Run next C s s' := by
  induction events generalizing s with
  | nil =>
    obtain rfl := Option.some.inj h
    exact .refl
  | cons e rest ih =>
    rw [exec] at h
    split at h
    · next hC =>
      obtain ⟨s₁, hnext, hrest⟩ := Option.bind_eq_some_iff.mp h
      exact Relation.ReflTransGen.head ⟨e, hC, hnext⟩ (ih hrest)
    · cases h

lemma run_of_exec_of_forall {events : List ε}
    (h : exec next (fun _ _ => True) events s = some s') (hC : ∀ e ∈ events, ∀ s, C s e) :
    Run next C s s' := by
  induction events generalizing s with
  | nil =>
    obtain rfl := Option.some.inj h
    exact .refl
  | cons e rest ih =>
    rw [exec, if_pos trivial] at h
    obtain ⟨s₁, hnext, hrest⟩ := Option.bind_eq_some_iff.mp h
    have hlast := ih hrest fun e' he' => hC e' (List.mem_cons_of_mem e he')
    exact Relation.ReflTransGen.head ⟨e, hC e List.mem_cons_self s, hnext⟩ hlast

/-! ## What cannot be avoided -/

/-- Every run that goes on as long as it can comes to a state with `D`. -/
inductive Inevitable (next : σ → ε → Option σ) (D : σ → Prop) : σ → Prop
  /-- It is such a state. -/
  | here {s : σ} : D s → Inevitable next D s
  /-- There is a next step, and every one leads to where it is inevitable. -/
  | step {s : σ} : (∃ e s', next s e = some s') →
      (∀ e s', next s e = some s' → Inevitable next D s') → Inevitable next D s

variable {D : σ → Prop}

/-- **What is inevitable is reached** in some run. -/
theorem Inevitable.exists_run (h : Inevitable next D s) :
    ∃ s', Run next (fun _ _ => True) s s' ∧ D s' := by
  induction h with
  | here hD => exact ⟨_, .refl, hD⟩
  | step hsome hnext ih =>
    obtain ⟨e, s₁, he⟩ := hsome
    obtain ⟨s', hrun, hD⟩ := ih e s₁ he
    exact ⟨s', .head ⟨e, trivial, he⟩ hrun, hD⟩

end Runs
