import Landropic.Foundations.Proc
import Landropic.Foundations.Runs

set_option autoImplicit false

/-!
# Components that crash

A component takes one call after another, and each call is a process. A crash may come at any
moment, also in the middle of an action, and ends the call; what it leaves depends on that action
and on how far it got.

## Main definitions

* `Proc.Throughout` — what holds whenever a process is about to take an action.
* `Crashable` — the processes of the calls, and what a crash leaves.
* `Crashable.History` — what is to be remembered of the calls beside the state.
* `Crashable.Machine`, `Crashable.next` — a component at some moment, and its events.
* `Crashable.Condition`, `Crashable.Run` — which calls and crashes may come, and the runs with
  these.

## Main results

* `Proc.Throughout.bind` — the rule of composition.
* `Crashable.run_of_exec_whole` — a call that may come and is executed is a run.
* `Crashable.Run.holds` — what every call achieves and every crash leaves holds along a run.
* `Crashable.Run.idle` — an invariant of the calls and the crashes that may come holds whenever no
  call is running.
-/

/-- A component with calls `κ`. -/
structure Crashable (κ σ ι ℓ ε α : Type) where
  code : κ → Proc σ ι ℓ ε α
  /-- What is left by a crash during an action, or between two calls; the number says how far the
  action got. -/
  crash : Option ℓ → ℕ → σ → σ

/-! ## The moments of a process -/

namespace Proc

variable {σ ι ℓ ε ε' α β : Type}

/-- As the process runs on its own, `P` holds of every action and the state it is taken in, and `Q`
of how it ends. -/
def Throughout (P : ℓ → σ → Prop) (Q : Except ε α → σ → Prop) : Proc σ ι ℓ ε α → σ → Prop
  | ret r, s => Q r s
  | act label ready eff next, s =>
    P label s ∧ (ready s = true → ∀ i, Throughout P Q (next i s) (eff i s))

variable {P : ℓ → σ → Prop} {s : σ}
variable {t : Proc σ ι ℓ ε α}

lemma Throughout.mono {Q Q' : Except ε α → σ → Prop} (h : Throughout P Q t s)
    (hQ : ∀ r s, Q r s → Q' r s) : Throughout P Q' t s := by
  induction t generalizing s with
  | ret r => exact hQ r s h
  | act label ready eff next ih => exact ⟨h.1, fun hready i => ih i s (h.2 hready i)⟩

/-- **Composition**: the first process leads to where its continuation starts, or fails. -/
theorem Throughout.bind {Q : Except ε β → σ → Prop} {k : α → Proc σ ι ℓ ε β}
    (h : Throughout P (fun r s => match r with
      | .ok a => Throughout P Q (k a) s
      | .error e => Q (.error e) s) t s) : Throughout P Q (t >>= k) s := by
  induction t generalizing s with
  | ret r =>
    cases r with
    | ok a => exact h
    | error e => exact h
  | act label ready eff next ih => exact ⟨h.1, fun hready i => ih i s (h.2 hready i)⟩

lemma Throughout.attempt {Q : Except ε' (Except ε α) → σ → Prop}
    (h : Throughout P (fun r s => Q (.ok r) s) t s) :
    Throughout P Q (t.attempt : Proc σ ι ℓ ε' _) s := by
  induction t generalizing s with
  | ret r => exact h
  | act label ready eff next ih => exact ⟨h.1, fun hready i => ih i s (h.2 hready i)⟩

/-- A single action. -/
lemma Throughout.atom {Q : Except ε α → σ → Prop} {label : ℓ} {f : ι → σ → Except ε α × σ}
    (hP : P label s) (hQ : ∀ i, Q (f i s).1 (f i s).2) : Throughout P Q (Proc.atom label f) s :=
  ⟨hP, fun _ => hQ⟩

lemma Throughout.of_returns {A : ι → Prop} {Q : Except ε α → σ → Prop} {s' : σ} {r : Except ε α}
    (h : Throughout P Q t s) (hreturns : Returns A t s r s') : Q r s' := by
  induction hreturns with
  | ret => exact h
  | act hready _ _ ih => exact ih (h.2 hready _)

end Proc

namespace Crashable

/-- What is remembered of the calls: something as each begins, and something as it ends. -/
structure History (κ ε α γ : Type) where
  began : κ → γ → γ
  ended : κ → Except ε α → γ → γ

/-- A component at some moment. -/
structure Machine (κ σ γ ι ℓ ε α : Type) where
  state : σ
  /-- What is remembered. -/
  past : γ
  running : Option (κ × Proc σ ι ℓ ε α)

/-- What can happen. -/
inductive Event (κ ι : Type)
  | call (c : κ)
  /-- The running call takes its next action. -/
  | act (i : ι)
  /-- The running call returns. -/
  | finish
  | crash (kept : ℕ)

/-- Which calls and crashes may come. -/
structure Condition (κ σ γ ℓ : Type) where
  call : κ → σ → γ → Prop
  crash : Option ℓ → ℕ → σ → γ → Prop

variable {κ σ γ ι ℓ ε α : Type}

/-- Every call and crash may come. -/
def Condition.any : Condition κ σ γ ℓ := ⟨fun _ _ _ => True, fun _ _ _ _ => True⟩

/-- The label of the action that comes next. -/
def Machine.head (m : Machine κ σ γ ι ℓ ε α) : Option ℓ := m.running.bind fun call => call.2.head

/-- The effect of an event. -/
def next (C : Crashable κ σ ι ℓ ε α) (H : History κ ε α γ) (m : Machine κ σ γ ι ℓ ε α) :
    Event κ ι → Option (Machine κ σ γ ι ℓ ε α)
  | .call c =>
    match m.running with
    | none => some ⟨m.state, H.began c m.past, some (c, C.code c)⟩
    | some _ => none
  | .act i =>
    match m.running with
    | some (c, .act _ ready eff next) =>
      if ready m.state = true then some ⟨eff i m.state, m.past, some (c, next i m.state)⟩ else none
    | _ => none
  | .finish =>
    match m.running with
    | some (c, .ret r) => some ⟨m.state, H.ended c r m.past, none⟩
    | _ => none
  | .crash kept => some ⟨C.crash m.head kept m.state, m.past, none⟩

/-- An event that may come. -/
def Condition.Meets (K : Condition κ σ γ ℓ) (m : Machine κ σ γ ι ℓ ε α) : Event κ ι → Prop
  | .call c => K.call c m.state m.past
  | .crash kept => K.crash m.head kept m.state m.past
  | _ => True

lemma Condition.any_meets (m : Machine κ σ γ ι ℓ ε α) (e : Event κ ι) :
    Condition.any.Meets m e := by
  cases e <;> trivial

/-- The runs in which only such calls and crashes come. -/
def Run (C : Crashable κ σ ι ℓ ε α) (H : History κ ε α γ) (K : Condition κ σ γ ℓ) :
    Machine κ σ γ ι ℓ ε α → Machine κ σ γ ι ℓ ε α → Prop :=
  Runs.Run (C.next H) K.Meets

variable {C : Crashable κ σ ι ℓ ε α} {H : History κ ε α γ} {K : Condition κ σ γ ℓ}
  {m m' : Machine κ σ γ ι ℓ ε α}

/-- A call from its beginning to its end, alone. -/
def Event.whole {κ ι : Type} (c : κ) (inputs : List ι) : List (Event κ ι) :=
  .call c :: inputs.map .act ++ [.finish]

/-- **A call that may come is a run**, as it is executed. -/
theorem run_of_exec_whole {c : κ} {inputs : List ι} (hc : K.call c m.state m.past)
    (h : Runs.exec (C.next H) (fun _ _ => True) (Event.whole c inputs) m = some m') :
    Run C H K m m' := by
  rw [Event.whole, List.cons_append, Runs.exec, if_pos trivial] at h
  obtain ⟨m₁, hnext, hrest⟩ := Option.bind_eq_some_iff.mp h
  refine .head ⟨.call c, hc, hnext⟩ (Runs.run_of_exec_of_forall hrest fun e he _ => ?_)
  rcases List.mem_append.mp he with hact | hfinish
  · obtain ⟨i, -, rfl⟩ := List.mem_map.mp hact
    trivial
  · obtain rfl := List.mem_singleton.mp hfinish
    trivial

/-! ## What holds along a run -/

variable (H) in
/-- Between calls `I` holds; while a call runs, `P` holds of every action and the state it is taken
in, and `I` will hold once the call has returned. -/
def Holds (I : σ → γ → Prop) (P : γ → Option ℓ → σ → Prop) (m : Machine κ σ γ ι ℓ ε α) : Prop :=
  match m.running with
  | none => I m.state m.past
  | some (c, t) => Proc.Throughout (fun l => P m.past (some l))
      (fun r s => I s (H.ended c r m.past) ∧ P m.past none s) t m.state

variable {I : σ → γ → Prop} {P : γ → Option ℓ → σ → Prop}

lemma Holds.head (h : Holds H I P m) (hidle : ∀ s past, I s past → P past none s) :
    P m.past m.head m.state := by
  obtain ⟨s, past, running⟩ := m
  cases running with
  | none => exact hidle s past h
  | some call =>
    obtain ⟨c, t⟩ := call
    cases t with
    | ret r => exact h.2
    | act label ready eff rest => exact h.1

/-- Every event keeps what the calls achieve and a crash leaves. -/
lemma Holds.next {e : Event κ ι} (h : Holds H I P m)
    (hcall : ∀ c s past, I s past → K.call c s past →
      Proc.Throughout (fun l => P (H.began c past) (some l))
        (fun r s => I s (H.ended c r (H.began c past)) ∧ P (H.began c past) none s) (C.code c) s)
    (hidle : ∀ s past, I s past → P past none s)
    (hcrash : ∀ label kept s past, P past label s → K.crash label kept s past →
      I (C.crash label kept s) past) (hmeets : K.Meets m e) (hnext : C.next H m e = some m') :
    Holds H I P m' := by
  have hhead := h.head hidle
  obtain ⟨s, past, running⟩ := m
  cases e with
  | call c =>
    cases running with
    | some call => cases hnext
    | none =>
      obtain rfl := Option.some.inj hnext
      exact hcall c s past h hmeets
  | act i =>
    cases running with
    | none => cases hnext
    | some call =>
      obtain ⟨c, t⟩ := call
      cases t with
      | ret r => cases hnext
      | act label ready eff rest =>
        simp only [Crashable.next, Option.ite_none_right_eq_some] at hnext
        obtain ⟨hready, hm⟩ := hnext
        obtain rfl := Option.some.inj hm
        exact h.2 hready i
  | finish =>
    cases running with
    | none => cases hnext
    | some call =>
      obtain ⟨c, t⟩ := call
      cases t with
      | act label ready eff rest => cases hnext
      | ret r =>
        obtain rfl := Option.some.inj hnext
        exact h.1
  | crash kept =>
    obtain rfl := Option.some.inj hnext
    exact hcrash _ kept s past hhead hmeets

/-- **What the calls achieve and a crash leaves holds along a run.** -/
theorem Run.holds (hrun : Run C H K m m') (hstart : m.running = none) (h : I m.state m.past)
    (hcall : ∀ c s past, I s past → K.call c s past →
      Proc.Throughout (fun l => P (H.began c past) (some l))
        (fun r s => I s (H.ended c r (H.began c past)) ∧ P (H.began c past) none s) (C.code c) s)
    (hidle : ∀ s past, I s past → P past none s)
    (hcrash : ∀ label kept s past, P past label s → K.crash label kept s past →
      I (C.crash label kept s) past) : Holds H I P m' := by
  refine Runs.Run.invariant hrun ?_ fun _ hI hmeets hnext =>
    hI.next hcall hidle hcrash hmeets hnext
  rw [Holds, hstart]
  exact h

variable (C K) in
/-- A crash that may come during this action leaves `I`. -/
def Withstands (I : σ → γ → Prop) (past : γ) (label : Option ℓ) (s : σ) : Prop :=
  ∀ kept, K.crash label kept s past → I (C.crash label kept s) past

/-- **What every call achieves, and every crash leaves, holds whenever no call is running.** -/
theorem Run.idle (hrun : Run C H K m m') (hstart : m.running = none) (h : I m.state m.past)
    (hcall : ∀ c s past, I s past → K.call c s past →
      Proc.Throughout (fun l => C.Withstands K I (H.began c past) (some l))
        (fun r s => I s (H.ended c r (H.began c past)) ∧ C.Withstands K I (H.began c past) none s)
        (C.code c) s) (hidle : ∀ s past, I s past → C.Withstands K I past none s)
    (hend : m'.running = none) : I m'.state m'.past := by
  have hholds := hrun.holds hstart h hcall hidle fun _ kept _ _ hP hcrash => hP kept hcrash
  rw [Holds, hend] at hholds
  exact hholds

end Crashable
