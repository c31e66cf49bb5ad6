import Mathlib.Tactic.Common

set_option autoImplicit false

/-!
# Processes made of atomic actions

A process is a finite tree of atomic actions on a shared state. Between two of its actions other
processes may act. Each action has a label that says what it is about to do, waits until it is
ready, and takes an input from the environment that decides how it turns out.

## Main definitions

* `Proc` — processes, a monad; `Proc.act` is one action, `Proc.ret` the end.
* `Proc.attempt`, `Proc.mapErr` — the handling of errors.
* `Proc.zoom` — a process on a part of a state.
* `Proc.Returns`, `Proc.Reaches` — the runs of a process on its own, whole or cut off.
* `Proc.Keeps` — every action keeps an invariant, from any state in which it holds.
* `Proc.Guarantees` — what every action does, from any state.
* `Proc.Follows` — the labels of the actions come in an order that an automaton accepts.
* `Proc.Tracks` — the same for an automaton that sees how the actions change the state.
* `Proc.Spec`, `Proc.wp` — what a process achieves while other processes interfere.
* `Proc.Outline` — the same, with an assertion before every action.

## Main results

* `Proc.Keeps.bind`, `Proc.Follows.bind`, `Proc.Tracks.bind`, `Proc.wp_bind` — the rules of
  composition.
* `Proc.wp_of_env`, `Proc.wp_step` — what is left of a specification after a step of another
  process, and after a step of its own.
* `Proc.ensures_of_wp` — what the runs of a process on its own ensure.

## Design

The specification of a process says, by the label of the action the process is about to take, how
others may change the state (`env`), which inputs the action may get (`input`) and how it changes
the state itself (`guar`). A process alone is the case where others change nothing.
-/

/-- A process over states `σ` with inputs `ι`, labels `ℓ`, errors `ε` and results `α`. -/
inductive Proc (σ ι ℓ ε α : Type) : Type
  /-- The process has ended. -/
  | ret (r : Except ε α)
  /-- The next action, when it is ready, changes the state and leaves a process. -/
  | act (label : ℓ) (ready : σ → Bool) (eff : ι → σ → σ) (next : ι → σ → Proc σ ι ℓ ε α)

namespace Proc

section Basic

variable {σ ι ℓ ε ε' α β : Type}

/-- Sequential composition. -/
def bind (t : Proc σ ι ℓ ε α) (k : α → Proc σ ι ℓ ε β) : Proc σ ι ℓ ε β :=
  match t with
  | ret (.ok a) => k a
  | ret (.error e) => ret (.error e)
  | act label ready eff next => act label ready eff fun i s => (next i s).bind k

instance : Monad (Proc σ ι ℓ ε) where
  pure a := ret (.ok a)
  bind := bind

/-- End with an error. -/
def fail (e : ε) : Proc σ ι ℓ ε α := ret (.error e)

/-- End with a result. -/
def ofExcept (r : Except ε α) : Proc σ ι ℓ ε α := ret r

/-- Run a process and hand its outcome on, an error included. -/
def attempt (t : Proc σ ι ℓ ε α) : Proc σ ι ℓ ε' (Except ε α) :=
  match t with
  | ret r => ret (.ok r)
  | act label ready eff next => act label ready eff fun i s => (next i s).attempt

/-- Turn the error of a process into another one. -/
def mapErr (f : ε → ε') (t : Proc σ ι ℓ ε α) : Proc σ ι ℓ ε' α :=
  match t with
  | ret (.ok a) => ret (.ok a)
  | ret (.error e) => ret (.error (f e))
  | act label ready eff next => act label ready eff fun i s => (next i s).mapErr f

/-- A process on a part of a state, which takes a part of each input. -/
def zoom {σ' ι' ℓ' : Type} (get : σ' → σ) (set : σ → σ' → σ') (input : ι' → ι) (rename : ℓ → ℓ')
    (t : Proc σ ι ℓ ε α) : Proc σ' ι' ℓ' ε α :=
  match t with
  | ret r => ret r
  | act label ready eff next =>
    act (rename label) (fun s => ready (get s)) (fun i s => set (eff (input i) (get s)) s)
      fun i s => (next (input i) (get s)).zoom get set input rename

/-- A single action that is always ready. -/
def atom (label : ℓ) (f : ι → σ → Except ε α × σ) : Proc σ ι ℓ ε α :=
  act label (fun _ => true) (fun i s => (f i s).2) fun i s => ret (f i s).1

/-- The label of the next action. -/
def head : Proc σ ι ℓ ε α → Option ℓ
  | ret _ => none
  | act label _ _ _ => some label

lemma pure_eq (a : α) : (pure a : Proc σ ι ℓ ε α) = ret (.ok a) := rfl

@[simp] lemma ret_ok_bind (a : α) (k : α → Proc σ ι ℓ ε β) :
    ((ret (.ok a) : Proc σ ι ℓ ε α) >>= k) = k a := rfl

@[simp] lemma pure_bind' (a : α) (k : α → Proc σ ι ℓ ε β) :
    ((pure a : Proc σ ι ℓ ε α) >>= k) = k a := rfl

@[simp] lemma fail_bind (e : ε) (k : α → Proc σ ι ℓ ε β) :
    ((fail e : Proc σ ι ℓ ε α) >>= k) = ret (.error e) := rfl

@[simp] lemma ret_error_bind (e : ε) (k : α → Proc σ ι ℓ ε β) :
    ((ret (.error e) : Proc σ ι ℓ ε α) >>= k) = ret (.error e) := rfl

@[simp] lemma ofExcept_ok_bind (a : α) (k : α → Proc σ ι ℓ ε β) :
    ((ofExcept (.ok a) : Proc σ ι ℓ ε α) >>= k) = k a := rfl

lemma bind_assoc' {γ : Type} (t : Proc σ ι ℓ ε α) (f : α → Proc σ ι ℓ ε β)
    (g : β → Proc σ ι ℓ ε γ) : (t >>= f) >>= g = t >>= fun a => f a >>= g := by
  induction t with
  | ret r =>
    cases r with
    | ok a => rfl
    | error e => rfl
  | act label ready eff next ih =>
    exact congrArg (act label ready eff) (funext fun i => funext fun s => ih i s)

lemma mapErr_bind (f : ε → ε') (t : Proc σ ι ℓ ε α) (k : α → Proc σ ι ℓ ε β) :
    (t >>= k).mapErr f = t.mapErr f >>= fun a => (k a).mapErr f := by
  induction t with
  | ret r =>
    cases r with
    | ok a => rfl
    | error e => rfl
  | act label ready eff next ih =>
    show act label ready eff (fun i s => (next i s >>= k).mapErr f) = _
    simp only [ih]
    rfl

lemma mapErr_mapErr {ε'' : Type} (f : ε → ε') (g : ε' → ε'') (t : Proc σ ι ℓ ε α) :
    (t.mapErr f).mapErr g = t.mapErr (g ∘ f) := by
  induction t with
  | ret r =>
    cases r with
    | ok a => rfl
    | error e => rfl
  | act label ready eff next ih =>
    simp only [mapErr, ih]

section Zoom

variable {σ' ι' ℓ' : Type} (get : σ' → σ) (set : σ → σ' → σ') (input : ι' → ι) (rename : ℓ → ℓ')

lemma zoom_bind (t : Proc σ ι ℓ ε α) (k : α → Proc σ ι ℓ ε β) :
    (t >>= k).zoom get set input rename =
      t.zoom get set input rename >>= fun a => (k a).zoom get set input rename := by
  induction t with
  | ret r =>
    cases r with
    | ok a => rfl
    | error e => rfl
  | act label ready eff next ih =>
    exact congrArg (act _ _ _) (funext fun i => funext fun s => ih (input i) (get s))

lemma zoom_atom (label : ℓ) (f : ι → σ → Except ε α × σ) :
    (atom label f).zoom get set input rename =
      atom (rename label) fun i s => ((f (input i) (get s)).1, set (f (input i) (get s)).2 s) := rfl

end Zoom

end Basic

/-! ## Runs of a process on its own -/

section Runs

variable {σ ι ℓ ε α : Type}
variable {β : Type} {A : ι → Prop} {t t' : Proc σ ι ℓ ε α} {k : α → Proc σ ι ℓ ε β} {s s' s'' : σ}
  {a : α} {r : Except ε α} {i : ι}

/-- The process runs from one state to another and returns, every input being one of `A`. -/
inductive Returns (A : ι → Prop) : Proc σ ι ℓ ε α → σ → Except ε α → σ → Prop
  | ret {r : Except ε α} {s : σ} : Returns A (ret r) s r s
  | act {label : ℓ} {ready : σ → Bool} {eff : ι → σ → σ} {next : ι → σ → Proc σ ι ℓ ε α} {s s' : σ}
      {r : Except ε α} {i : ι} : ready s = true → A i → Returns A (next i s) (eff i s) r s' →
      Returns A (act label ready eff next) s r s'

/-- Run the process with the same input for every action, for so many actions at most. -/
def runWith (i : ι) : ℕ → Proc σ ι ℓ ε α → σ → Option (Except ε α × σ)
  | _, ret r, s => some (r, s)
  | 0, act _ _ _ _, _ => none
  | n + 1, act _ ready eff next, s =>
    if ready s = true then runWith i n (next i s) (eff i s) else none

lemma returns_of_runWith {n : ℕ} (h : runWith i n t s = some (r, s')) (hi : A i) :
    Returns A t s r s' := by
  induction n generalizing t s with
  | zero =>
    cases t with
    | ret r =>
      obtain ⟨rfl, rfl⟩ := Prod.mk.inj (Option.some.inj h)
      exact .ret
    | act label ready eff next => cases h
  | succ n ih =>
    cases t with
    | ret r =>
      obtain ⟨rfl, rfl⟩ := Prod.mk.inj (Option.some.inj h)
      exact .ret
    | act label ready eff next =>
      rw [runWith] at h
      split at h
      · next hready => exact .act hready hi (ih h)
      · cases h

/-- The process runs for some of its actions, every input being one of `A`. -/
inductive Reaches (A : ι → Prop) : Proc σ ι ℓ ε α → σ → Proc σ ι ℓ ε α → σ → Prop
  | refl {t : Proc σ ι ℓ ε α} {s : σ} : Reaches A t s t s
  | act {label : ℓ} {ready : σ → Bool} {eff : ι → σ → σ} {next : ι → σ → Proc σ ι ℓ ε α} {s s' : σ}
      {t' : Proc σ ι ℓ ε α} {i : ι} : ready s = true → A i →
      Reaches A (next i s) (eff i s) t' s' → Reaches A (act label ready eff next) s t' s'

lemma Returns.reaches (h : Returns A t s r s') : Reaches A t s (.ret r) s' := by
  induction h with
  | ret => exact .refl
  | act hready hi _ ih => exact .act hready hi ih

lemma Reaches.trans {t₁ t₂ : Proc σ ι ℓ ε α} (h : Reaches A t s t₁ s')
    (h' : Reaches A t₁ s' t₂ s'') : Reaches A t s t₂ s'' := by
  induction h with
  | refl => exact h'
  | act hready hi _ ih => exact .act hready hi (ih h')

lemma Reaches.bind {t' : Proc σ ι ℓ ε α} (k : α → Proc σ ι ℓ ε β) (h : Reaches A t s t' s') :
    Reaches A (t >>= k) s (t' >>= k) s' := by
  induction h with
  | refl => exact .refl
  | act hready hi _ ih => exact .act hready hi ih

lemma Returns.bind {r : Except ε β} (h : Returns A t s (.ok a) s') (hk : Returns A (k a) s' r s'') :
    Returns A (t >>= k) s r s'' := by
  induction t generalizing s with
  | ret r =>
    cases h
    exact hk
  | act label ready eff next ih =>
    cases h with
    | act hready hi hrest => exact .act hready hi (ih _ _ hrest)

lemma Returns.reaches_bind {t' : Proc σ ι ℓ ε β} (h : Returns A t s (.ok a) s')
    (hk : Reaches A (k a) s' t' s'') : Reaches A (t >>= k) s t' s'' := by
  induction t generalizing s with
  | ret r =>
    cases h
    exact hk
  | act label ready eff next ih =>
    cases h with
    | act hready hi hrest => exact .act hready hi (ih _ _ hrest)

/-- A process that starts with a single action, and goes on with what that has led to. -/
lemma Reaches.atom_bind {label : ℓ} {f : ι → σ → Except ε α × σ} {t' : Proc σ ι ℓ ε β} (hi : A i)
    (hok : (f i s).1 = .ok a) (h : Reaches A (k a) (f i s).2 t' s') :
    Reaches A (atom label f >>= k) s t' s' := by
  refine Reaches.act rfl hi ?_
  show Reaches A ((ret (f i s).1 : Proc σ ι ℓ ε α) >>= k) (f i s).2 t' s'
  rwa [hok, ret_ok_bind]

/-- How a process that starts with a single action runs. -/
lemma Reaches.of_atom_bind {label : ℓ} {f : ι → σ → Except ε α × σ} {t' : Proc σ ι ℓ ε β}
    (h : Reaches A (atom label f >>= k) s t' s') :
    t' = (atom label f >>= k) ∨
      ∃ i, Reaches A ((ret (f i s).1 : Proc σ ι ℓ ε α) >>= k) (f i s).2 t' s' := by
  change Reaches A (Proc.act label (fun _ => true) (fun i s => (f i s).2)
    fun i s => (ret (f i s).1 : Proc σ ι ℓ ε α) >>= k) s t' s' at h
  cases h with
  | refl => exact .inl rfl
  | act _ _ h => exact .inr ⟨_, h⟩

/-- One action of a process. -/
inductive Step : Proc σ ι ℓ ε α → σ → ι → Proc σ ι ℓ ε α → σ → Prop
  | act {label : ℓ} {ready : σ → Bool} {eff : ι → σ → σ} {next : ι → σ → Proc σ ι ℓ ε α} {s : σ}
      {i : ι} : ready s = true → Step (act label ready eff next) s i (next i s) (eff i s)

end Runs

/-! ## Invariants -/

section Keeps

variable {σ ι ℓ ε ε' α β : Type} {I : σ → Prop}
variable {Q : Except ε α → Prop} {t t' : Proc σ ι ℓ ε α} {k : α → Proc σ ι ℓ ε β} {f : ε → ε'}
  {s s' : σ}

/-- From every state in which `I` holds every action of the process leads to such a state, and the
process ends with an outcome in `Q`. Other processes that keep `I` may act in between. -/
def Keeps (I : σ → Prop) (Q : Except ε α → Prop) : Proc σ ι ℓ ε α → Prop
  | ret r => Q r
  | act _ ready eff next => ∀ i s, I s → ready s = true → I (eff i s) ∧ Keeps I Q (next i s)

lemma Keeps.mono {Q' : Except ε α → Prop} (h : Keeps I Q t) (hQ : ∀ r, Q r → Q' r) :
    Keeps I Q' t := by
  induction t with
  | ret r => exact hQ r h
  | act label ready eff next ih =>
    intro i s hs hready
    obtain ⟨hI, hnext⟩ := h i s hs hready
    exact ⟨hI, ih i s hnext⟩

/-- **Composition keeps an invariant.** -/
theorem Keeps.bind {Q' : Except ε β → Prop} (h : Keeps I Q t)
    (herr : ∀ e, Q (.error e) → Q' (.error e)) (hk : ∀ a, Q (.ok a) → Keeps I Q' (k a)) :
    Keeps I Q' (t >>= k) := by
  induction t with
  | ret r =>
    cases r with
    | error e => exact herr e h
    | ok a => exact hk a h
  | act label ready eff next ih =>
    intro i s hs hready
    obtain ⟨hI, hnext⟩ := h i s hs hready
    exact ⟨hI, ih i s hnext⟩

lemma Keeps.attempt (h : Keeps I Q t) :
    Keeps I (fun r => ∀ o, r = .ok o → Q o) (t.attempt : Proc σ ι ℓ ε' (Except ε α)) := by
  induction t with
  | ret r =>
    intro o ho
    obtain rfl := Except.ok.inj ho
    exact h
  | act label ready eff next ih =>
    intro i s hs hready
    obtain ⟨hI, hnext⟩ := h i s hs hready
    exact ⟨hI, ih i s hnext⟩

lemma Keeps.mapErr {Q' : Except ε' α → Prop} (h : Keeps I Q t) (hok : ∀ a, Q (.ok a) → Q' (.ok a))
    (herr : ∀ e, Q (.error e) → Q' (.error (f e))) : Keeps I Q' (t.mapErr f) := by
  induction t with
  | ret r =>
    cases r with
    | error e => exact herr e h
    | ok a => exact hok a h
  | act label ready eff next ih =>
    intro i s hs hready
    obtain ⟨hI, hnext⟩ := h i s hs hready
    exact ⟨hI, ih i s hnext⟩

lemma Keeps.atom {label : ℓ} {f : ι → σ → Except ε α × σ}
    (h : ∀ i s, I s → I (f i s).2 ∧ Q (f i s).1) : Keeps I Q (Proc.atom label f) :=
  fun i s hs _ => h i s hs

lemma Keeps.step {i : ι} (h : Keeps I Q t) (hstep : Step t s i t' s') (hs : I s) :
    I s' ∧ Keeps I Q t' := by
  cases hstep with
  | act hready => exact h _ _ hs hready

lemma Keeps.of_returns {A : ι → Prop} {r : Except ε α} (h : Keeps I Q t) (hrun : Returns A t s r s')
    (hs : I s) : Q r := by
  induction hrun with
  | ret => exact h
  | act hready _ _ ih =>
    obtain ⟨hI, hnext⟩ := h _ _ hs hready
    exact ih hnext hI

end Keeps

/-! ## What every action does -/

section Guarantees

variable {σ ι ℓ ε ε' α β : Type} {G : ℓ → σ → σ → Prop}
variable {Q : Except ε α → Prop} {t t' : Proc σ ι ℓ ε α} {k : α → Proc σ ι ℓ ε β} {f : ε → ε'}

/-- Every action of the process, from any state, changes the state as `G` says, and the process ends
with an outcome in `Q`. -/
def Guarantees (G : ℓ → σ → σ → Prop) (Q : Except ε α → Prop) : Proc σ ι ℓ ε α → Prop
  | ret r => Q r
  | act label ready eff next => ∀ i s, ready s = true →
    G label s (eff i s) ∧ Guarantees G Q (next i s)

lemma Guarantees.mono {G' : ℓ → σ → σ → Prop} {Q' : Except ε α → Prop} (h : Guarantees G Q t)
    (hG : ∀ l s s', G l s s' → G' l s s') (hQ : ∀ r, Q r → Q' r) : Guarantees G' Q' t := by
  induction t with
  | ret r => exact hQ r h
  | act label ready eff next ih =>
    intro i s hready
    obtain ⟨hguar, hnext⟩ := h i s hready
    exact ⟨hG _ _ _ hguar, ih i s hnext⟩

/-- **Composition guarantees** what its parts do. -/
theorem Guarantees.bind {Q' : Except ε β → Prop} (h : Guarantees G Q t)
    (herr : ∀ e, Q (.error e) → Q' (.error e)) (hk : ∀ a, Q (.ok a) → Guarantees G Q' (k a)) :
    Guarantees G Q' (t >>= k) := by
  induction t with
  | ret r =>
    cases r with
    | error e => exact herr e h
    | ok a => exact hk a h
  | act label ready eff next ih =>
    intro i s hready
    obtain ⟨hguar, hnext⟩ := h i s hready
    exact ⟨hguar, ih i s hnext⟩

lemma Guarantees.attempt {Q' : Except ε' (Except ε α) → Prop} (h : Guarantees G Q t)
    (hQ : ∀ r, Q r → Q' (.ok r)) : Guarantees G Q' (t.attempt : Proc σ ι ℓ ε' (Except ε α)) := by
  induction t with
  | ret r => exact hQ r h
  | act label ready eff next ih =>
    intro i s hready
    obtain ⟨hguar, hnext⟩ := h i s hready
    exact ⟨hguar, ih i s hnext⟩

lemma Guarantees.mapErr {Q' : Except ε' α → Prop} (h : Guarantees G Q t)
    (hok : ∀ a, Q (.ok a) → Q' (.ok a)) (herr : ∀ e, Q (.error e) → Q' (.error (f e))) :
    Guarantees G Q' (t.mapErr f) := by
  induction t with
  | ret r =>
    cases r with
    | error e => exact herr e h
    | ok a => exact hok a h
  | act label ready eff next ih =>
    intro i s hready
    obtain ⟨hguar, hnext⟩ := h i s hready
    exact ⟨hguar, ih i s hnext⟩

lemma Guarantees.atom {label : ℓ} {f : ι → σ → Except ε α × σ}
    (h : ∀ i s, G label s (f i s).2 ∧ Q (f i s).1) : Guarantees G Q (Proc.atom label f) :=
  fun i s _ => h i s

lemma Guarantees.step {s s' : σ} {i : ι} (h : Guarantees G Q t) (hstep : Step t s i t' s') :
    (∃ l, t.head = some l ∧ G l s s') ∧ Guarantees G Q t' := by
  cases hstep with
  | @act label _ _ _ _ _ hready =>
    obtain ⟨hguar, hnext⟩ := h _ _ hready
    exact ⟨⟨label, rfl, hguar⟩, hnext⟩

lemma guarantees_true (t : Proc σ ι ℓ ε α) :
    Guarantees (fun _ _ _ => True) (fun _ => True) t := by
  induction t with
  | ret r => exact trivial
  | act label ready eff next ih => exact fun i s _ => ⟨trivial, ih i s⟩

lemma Guarantees.keeps {I : σ → Prop} (h : Guarantees G Q t)
    (hI : ∀ l s s', G l s s' → I s → I s') : Keeps I Q t := by
  induction t with
  | ret r => exact h
  | act label ready eff next ih =>
    intro i s hs hready
    obtain ⟨hguar, hnext⟩ := h i s hready
    exact ⟨hI _ _ _ hguar hs, ih i s hnext⟩

end Guarantees

/-! ## The order of actions -/

section Follows

variable {σ ι ℓ ε ε' α β τ : Type} {δ : τ → ℓ → τ → Prop}
variable {Q : Except ε α → τ → Prop} {b : τ} {t t' : Proc σ ι ℓ ε α}

/-- The labels of the actions of a process follow an automaton with the transitions `δ`, from a
state of it to one that goes with the outcome. -/
def Follows (δ : τ → ℓ → τ → Prop) (Q : Except ε α → τ → Prop) : τ → Proc σ ι ℓ ε α → Prop
  | b, ret r => Q r b
  | b, act label _ _ next => ∃ b', δ b label b' ∧ ∀ i s, Follows δ Q b' (next i s)

lemma Follows.mono {Q' : Except ε α → τ → Prop} (h : Follows δ Q b t) (hQ : ∀ r b, Q r b → Q' r b) :
    Follows δ Q' b t := by
  induction t generalizing b with
  | ret r => exact hQ r b h
  | act label ready eff next ih =>
    obtain ⟨b', hδ, hnext⟩ := h
    exact ⟨b', hδ, fun i s => ih i s (hnext i s)⟩

/-- **Composition follows an automaton** if its parts do, one from where the other has ended. -/
theorem Follows.bind {Q : Except ε β → τ → Prop} {k : α → Proc σ ι ℓ ε β}
    (h : Follows δ (fun r b => match r with
      | .ok a => Follows δ Q b (k a)
      | .error e => Q (.error e) b) b t) : Follows δ Q b (t >>= k) := by
  induction t generalizing b with
  | ret r =>
    cases r with
    | ok a => exact h
    | error e => exact h
  | act label ready eff next ih =>
    obtain ⟨b', hδ, hnext⟩ := h
    exact ⟨b', hδ, fun i s => ih i s (hnext i s)⟩

lemma Follows.attempt {Q : Except ε' (Except ε α) → τ → Prop}
    (h : Follows δ (fun r b => Q (.ok r) b) b t) : Follows δ Q b (t.attempt : Proc σ ι ℓ ε' _) := by
  induction t generalizing b with
  | ret r => exact h
  | act label ready eff next ih =>
    obtain ⟨b', hδ, hnext⟩ := h
    exact ⟨b', hδ, fun i s => ih i s (hnext i s)⟩

lemma Follows.mapErr {Q : Except ε' α → τ → Prop} {f : ε → ε'}
    (h : Follows δ (fun r b => Q (r.mapError f) b) b t) : Follows δ Q b (t.mapErr f) := by
  induction t generalizing b with
  | ret r =>
    cases r with
    | ok a => exact h
    | error e => exact h
  | act label ready eff next ih =>
    obtain ⟨b', hδ, hnext⟩ := h
    exact ⟨b', hδ, fun i s => ih i s (hnext i s)⟩

lemma Follows.atom {c : τ} {label : ℓ} {f : ι → σ → Except ε α × σ} (hδ : δ b label c)
    (h : ∀ r, Q r c) :
    Follows δ Q b (Proc.atom label f) := ⟨c, hδ, fun _ _ => h _⟩

lemma Follows.step {s s' : σ} {i : ι} (h : Follows δ Q b t) (hstep : Step t s i t' s') :
    ∃ l b', t.head = some l ∧ δ b l b' ∧ Follows δ Q b' t' := by
  cases hstep with
  | @act label _ _ _ _ _ _ =>
    obtain ⟨b', hδ, hnext⟩ := h
    exact ⟨label, b', rfl, hδ, hnext _ _⟩

lemma Follows.of_head {l : ℓ} (h : Follows δ Q b t) (hl : t.head = some l) : ∃ b', δ b l b' := by
  cases t with
  | ret r => cases hl
  | act label ready eff next =>
    obtain ⟨b', hδ, -⟩ := h
    exact ⟨b', Option.some.inj hl ▸ hδ⟩

end Follows

section Tracks

variable {σ ι ℓ ε ε' α β τ : Type} {M : τ → ℓ → σ → σ → τ → Prop}
variable {Q : Except ε α → τ → Prop} {b : τ} {t t' : Proc σ ι ℓ ε α} {k : α → Proc σ ι ℓ ε β}
  {label : ℓ} {f : ι → σ → Except ε α × σ} {s s' : σ} {i : ι}

/-- The actions of a process move an automaton that sees their labels and what they do, from a state
of it to one that goes with the outcome. -/
def Tracks (M : τ → ℓ → σ → σ → τ → Prop) (Q : Except ε α → τ → Prop) : τ → Proc σ ι ℓ ε α → Prop
  | b, ret r => Q r b
  | b, act label ready eff next => ∀ i s, ready s = true →
    ∃ b', M b label s (eff i s) b' ∧ Tracks M Q b' (next i s)

lemma Tracks.mono {Q' : Except ε α → τ → Prop} (h : Tracks M Q b t) (hQ : ∀ r b, Q r b → Q' r b) :
    Tracks M Q' b t := by
  induction t generalizing b with
  | ret r => exact hQ r b h
  | act label ready eff next ih =>
    intro i s hready
    obtain ⟨b', hM, hnext⟩ := h i s hready
    exact ⟨b', hM, ih i s hnext⟩

/-- **Composition moves an automaton** if its parts do, one from where the other has ended. -/
theorem Tracks.bind {Q : Except ε β → τ → Prop} (h : Tracks M (fun r b => match r with
      | .ok a => Tracks M Q b (k a)
      | .error e => Q (.error e) b) b t) : Tracks M Q b (t >>= k) := by
  induction t generalizing b with
  | ret r =>
    cases r with
    | ok a => exact h
    | error e => exact h
  | act label ready eff next ih =>
    intro i s hready
    obtain ⟨b', hM, hnext⟩ := h i s hready
    exact ⟨b', hM, ih i s hnext⟩

lemma Tracks.attempt {Q : Except ε' (Except ε α) → τ → Prop}
    (h : Tracks M (fun r b => Q (.ok r) b) b t) : Tracks M Q b (t.attempt : Proc σ ι ℓ ε' _) := by
  induction t generalizing b with
  | ret r => exact h
  | act label ready eff next ih =>
    intro i s hready
    obtain ⟨b', hM, hnext⟩ := h i s hready
    exact ⟨b', hM, ih i s hnext⟩

/-- Actions on which the automaton stays where it is. -/
lemma Guarantees.tracks {G : ℓ → σ → σ → Prop} {R : Except ε α → Prop} (h : Guarantees G R t)
    (hM : ∀ l s s', G l s s' → M b l s s' b) : Tracks M (fun _ b' => b' = b) b t := by
  induction t with
  | ret r => rfl
  | act label ready eff next ih =>
    intro i s hready
    obtain ⟨hG, hnext⟩ := h i s hready
    exact ⟨b, hM _ _ _ hG, ih i s hnext⟩

lemma Tracks.atom (h : ∀ i s, ∃ b', M b label s (f i s).2 b' ∧ Q (f i s).1 b') :
    Tracks M Q b (Proc.atom label f) :=
  fun i s _ => h i s

lemma Tracks.step (h : Tracks M Q b t) (hstep : Step t s i t' s') :
    ∃ l b', t.head = some l ∧ M b l s s' b' ∧ Tracks M Q b' t' := by
  cases hstep with
  | @act label _ _ _ _ _ hready =>
    obtain ⟨b', hM, hnext⟩ := h _ _ hready
    exact ⟨label, b', rfl, hM, hnext⟩

/-- Every action of the process is ready in some state. -/
def Enabled : Proc σ ι ℓ ε α → Prop
  | ret _ => True
  | act _ ready _ next => (∃ s, ready s = true) ∧ ∀ i s, Enabled (next i s)

lemma Enabled.bind (h : Enabled t) (hk : ∀ a, Enabled (k a)) : Enabled (t >>= k) := by
  induction t with
  | ret r =>
    cases r with
    | ok a => exact hk a
    | error e => trivial
  | act label ready eff next ih => exact ⟨h.1, fun i s => ih i s (h.2 i s)⟩

lemma Enabled.atom [Nonempty σ] : Enabled (Proc.atom label f) :=
  ⟨⟨Classical.arbitrary σ, rfl⟩, fun _ _ => trivial⟩

lemma Enabled.step (h : Enabled t) (hstep : Step t s i t' s') : Enabled t' := by
  cases hstep with
  | act _ => exact h.2 _ _

lemma Tracks.of_head [Nonempty ι] {l : ℓ} (h : Tracks M Q b t) (ht : Enabled t)
    (hl : t.head = some l) : ∃ s s' b', M b l s s' b' := by
  cases t with
  | ret r => cases hl
  | act label ready eff next =>
    obtain ⟨⟨s, hready⟩, -⟩ := ht
    obtain ⟨b', hM, -⟩ := h (Classical.arbitrary ι) s hready
    exact ⟨s, _, b', Option.some.inj hl ▸ hM⟩

end Tracks

/-! ## Specifications under interference -/

/-- What is assumed of the other processes and of the inputs, and what is guaranteed to the others.
-/
structure Spec (σ ι ℓ : Type) where
  /-- What others may do while the process is about to take an action, or has ended. -/
  env : Option ℓ → σ → σ → Prop
  env_refl : ∀ l s, env l s s
  env_trans : ∀ {l s s' s''}, env l s s' → env l s' s'' → env l s s''
  /-- The inputs an action may get. -/
  input : ℓ → σ → ι → Prop
  /-- What an action does to the state. -/
  guar : ℓ → σ → σ → Prop
  /-- Whether actions must be ready whenever they are due. -/
  progress : Prop

namespace Spec

variable {σ ι ℓ : Type}

/-- A process on its own, with inputs in `A`. -/
def alone (ℓ : Type) (A : ι → Prop) : Spec σ ι ℓ where
  env _ s s' := s = s'
  env_refl _ _ := rfl
  env_trans := Eq.trans
  input _ _ := A
  guar _ _ _ := True
  progress := True

/-- A process on its own that may have to wait forever. -/
def mayBlock (ℓ : Type) (A : ι → Prop) : Spec σ ι ℓ := { alone ℓ A with progress := False }

end Spec

section WP

variable {σ ι ℓ ε ε' α β : Type} (S : Spec σ ι ℓ)
variable {A : ι → Prop} {I : σ → Prop} {Q : Except ε α → σ → Prop} {t t' : Proc σ ι ℓ ε α}
  {s s' : σ}

/-- From this state, whatever the other processes do within `S.env`, every action of the process
does what `S.guar` says, and it ends with an outcome and in a state that satisfy `Q`. -/
def wp (Q : Except ε α → σ → Prop) : Proc σ ι ℓ ε α → σ → Prop
  | ret r, s => Q r s
  | act label ready eff next, s => ∀ s', S.env (some label) s s' →
      (S.progress → ready s' = true) ∧
        (ready s' = true → ∀ i, S.input label s' i →
          S.guar label s' (eff i s') ∧ wp Q (next i s') (eff i s'))

variable {S}

/-- **A step of another process** leaves the specification, if the outcome of a process that has
ended is stable. -/
theorem wp_of_env (h : wp S Q t s) (hQ : ∀ r, t = ret r → Q r s → Q r s')
    (henv : S.env t.head s s') : wp S Q t s' := by
  cases t with
  | ret r => exact hQ r rfl h
  | act label ready eff next => exact fun s'' h' => h s'' (S.env_trans henv h')

/-- **A step of the process** does what it guarantees, and leaves the specification of the rest. -/
theorem wp_step {i : ι} (h : wp S Q t s) (hstep : Step t s i t' s')
    (hinput : ∀ l, t.head = some l → S.input l s i) :
    (∃ l, t.head = some l ∧ S.guar l s s') ∧ wp S Q t' s' := by
  cases hstep with
  | @act label _ _ _ _ _ hready =>
    obtain ⟨hguar, hnext⟩ := (h s (S.env_refl _ s)).2 hready i (hinput label rfl)
    exact ⟨⟨label, rfl, hguar⟩, hnext⟩

lemma wp_mono {Q' : Except ε α → σ → Prop} (h : wp S Q t s) (hQ : ∀ r s, Q r s → Q' r s) :
    wp S Q' t s := by
  induction t generalizing s with
  | ret r => exact hQ r s h
  | act label ready eff next ih =>
    intro s' henv
    obtain ⟨hready, hnext⟩ := h s' henv
    exact ⟨hready, fun hr i hi => ⟨(hnext hr i hi).1, ih i s' (hnext hr i hi).2⟩⟩

/-- A single action. -/
lemma wp_atom {label : ℓ} {f : ι → σ → Except ε α × σ}
    (h : ∀ s', S.env (some label) s s' → ∀ i, S.input label s' i →
      S.guar label s' (f i s').2 ∧ Q (f i s').1 (f i s').2) : wp S Q (atom label f) s :=
  fun s' henv => ⟨fun _ => rfl, fun _ i hi => h s' henv i hi⟩

/-- A specification that assumes less serves where more is known. -/
lemma wp_weaken {S' : Spec σ ι ℓ} (h : wp S Q t s) (henv : ∀ l s s', S'.env l s s' → S.env l s s')
    (hinput : ∀ l s i, S'.input l s i → S.input l s i)
    (hguar : ∀ l s s', S.guar l s s' → S'.guar l s s') (hprogress : S'.progress → S.progress) :
    wp S' Q t s := by
  induction t generalizing s with
  | ret r => exact h
  | act label ready eff next ih =>
    intro s' henv'
    obtain ⟨hready, hnext⟩ := h s' (henv _ _ _ henv')
    refine ⟨fun hp => hready (hprogress hp), fun hr i hi => ?_⟩
    obtain ⟨hg, hw⟩ := hnext hr i (hinput _ _ _ hi)
    exact ⟨hguar _ _ _ hg, ih i s' hw⟩

/-- **The frame rule**: what neither the others nor the process itself can break still holds, after
every action and at the end. -/
theorem wp_frame_guar (h : wp S Q t s) (hs : I s) (henv : ∀ l s s', S.env l s s' → I s → I s')
    (hguar : ∀ l s s', S.guar l s s' → I s → I s') :
    wp { S with guar := fun l s s' => S.guar l s s' ∧ I s' } (fun r s => Q r s ∧ I s) t s := by
  induction t generalizing s with
  | ret r => exact ⟨h, hs⟩
  | act label ready eff next ih =>
    intro s' hs'
    obtain ⟨hready, hnext⟩ := h s' hs'
    refine ⟨hready, fun hr i hi => ?_⟩
    obtain ⟨hg, hw⟩ := hnext hr i hi
    have hI := hguar _ _ _ hg (henv _ _ _ hs' hs)
    exact ⟨⟨hg, hI⟩, ih i s' hw hI⟩

lemma wp_frame (h : wp S Q t s) (hs : I s) (henv : ∀ l s s', S.env l s s' → I s → I s')
    (hguar : ∀ l s s', S.guar l s s' → I s → I s') : wp S (fun r s => Q r s ∧ I s) t s :=
  wp_weaken (wp_frame_guar h hs henv hguar) (fun _ _ _ => id) (fun _ _ _ => id)
    (fun _ _ _ hg => hg.1) id

/-- **Composition**: the first process must lead to where its continuation starts, or fail. -/
theorem wp_bind {Q : Except ε β → σ → Prop} {k : α → Proc σ ι ℓ ε β}
    (h : wp S (fun r s => match r with
      | .ok a => wp S Q (k a) s
      | .error e => Q (.error e) s) t s) : wp S Q (t >>= k) s := by
  induction t generalizing s with
  | ret r =>
    cases r with
    | ok a => exact h
    | error e => exact h
  | act label ready eff next ih =>
    intro s' henv
    obtain ⟨hready, hnext⟩ := h s' henv
    exact ⟨hready, fun hr i hi => ⟨(hnext hr i hi).1, ih i s' (hnext hr i hi).2⟩⟩

lemma wp_attempt {Q : Except ε' (Except ε α) → σ → Prop} (h : wp S (fun r s => Q (.ok r) s) t s) :
    wp S Q (t.attempt : Proc σ ι ℓ ε' _) s := by
  induction t generalizing s with
  | ret r => exact h
  | act label ready eff next ih =>
    intro s' henv
    obtain ⟨hready, hnext⟩ := h s' henv
    exact ⟨hready, fun hr i hi => ⟨(hnext hr i hi).1, ih i s' (hnext hr i hi).2⟩⟩

lemma wp_mapErr {Q : Except ε' α → σ → Prop} {f : ε → ε'}
    (h : wp S (fun r s => Q (r.mapError f) s) t s) : wp S Q (t.mapErr f) s := by
  induction t generalizing s with
  | ret r =>
    cases r with
    | ok a => exact h
    | error e => exact h
  | act label ready eff next ih =>
    intro s' henv
    obtain ⟨hready, hnext⟩ := h s' henv
    exact ⟨hready, fun hr i hi => ⟨(hnext hr i hi).1, ih i s' (hnext hr i hi).2⟩⟩

/-- A specification by other labels. -/
def Spec.relabel {ℓ' : Type} (f : ℓ → ℓ') (S : Spec σ ι ℓ') : Spec σ ι ℓ where
  env l := S.env (l.map f)
  env_refl _ := S.env_refl _
  env_trans := S.env_trans
  input l := S.input (f l)
  guar l := S.guar (f l)
  progress := S.progress

lemma wp_relabel {ℓ' : Type} {f : ℓ → ℓ'} {S : Spec σ ι ℓ'} (h : wp (S.relabel f) Q t s) :
    wp S Q (t.zoom id (fun s _ => s) id f) s := by
  induction t generalizing s with
  | ret r => exact h
  | act label ready eff next ih =>
    intro s' henv
    obtain ⟨hready, hnext⟩ := h s' henv
    exact ⟨hready, fun hr i hi => ⟨(hnext hr i hi).1, ih i s' (hnext hr i hi).2⟩⟩

/-- **What every action does gives a specification**: it is enough that an invariant survives what
others may do before an action and then what the action does, and that this is guaranteed. -/
theorem Guarantees.wp {G : ℓ → σ → σ → Prop} {Q : Except ε α → Prop} (h : Guarantees G Q t)
    (hs : I s) (hprogress : ¬ S.progress)
    (hstep : ∀ l s s' s'', I s → S.env (some l) s s' → G l s' s'' → S.guar l s' s'' ∧ I s'') :
    Proc.wp S (fun r s => Q r ∧ I s) t s := by
  induction t generalizing s with
  | ret r => exact ⟨h, hs⟩
  | act label ready eff next ih =>
    intro s' henv
    refine ⟨fun hp => absurd hp hprogress, fun hr i _ => ?_⟩
    obtain ⟨hG, hnext⟩ := h i s' hr
    obtain ⟨hguar, hI⟩ := hstep label s s' _ hs henv hG
    exact ⟨hguar, ih i s' hnext hI⟩

/-- **What every action does** can be added to what a specification guarantees. -/
theorem wp_of_guarantees {G : ℓ → σ → σ → Prop} {Q' : Except ε α → Prop} (h : wp S Q t s)
    (h' : Guarantees G Q' t) :
    wp { S with guar := fun l s s' => S.guar l s s' ∧ G l s s' } (fun r s => Q r s ∧ Q' r) t s := by
  induction t generalizing s with
  | ret r => exact ⟨h, h'⟩
  | act label ready eff next ih =>
    intro s' henv
    obtain ⟨hready, hnext⟩ := h s' henv
    refine ⟨hready, fun hr i hi => ?_⟩
    obtain ⟨hguar, hrest⟩ := hnext hr i hi
    obtain ⟨hG, hrest'⟩ := h' i s' hr
    exact ⟨⟨hguar, hG⟩, ih i s' hrest hrest'⟩

/-- **Partial correctness**: a run of a process on its own ends as specified. -/
theorem post_of_returns_mayBlock {r : Except ε α} (hrun : Returns A t s r s')
    (h : wp (.mayBlock ℓ A) Q t s) : Q r s' := by
  induction hrun with
  | ret => exact h
  | act hready hi _ ih => exact ih ((h _ rfl).2 hready _ hi).2

lemma wp_mayBlock (h : wp (.alone ℓ A) Q t s) : wp (.mayBlock ℓ A) Q t s :=
  wp_weaken h (fun _ _ _ => id) (fun _ _ _ => id) (fun _ _ _ => id) False.elim

lemma post_of_returns {r : Except ε α} (hrun : Returns A t s r s') (h : wp (.alone ℓ A) Q t s) :
    Q r s' :=
  post_of_returns_mayBlock hrun (wp_mayBlock h)

/-- **Total correctness**: with some input to give, a process on its own returns, as specified. -/
theorem exists_returns (hA : ∃ i, A i) (h : wp (.alone ℓ A) Q t s) :
    ∃ r s', Returns A t s r s' ∧ Q r s' := by
  obtain ⟨i, hi⟩ := hA
  induction t generalizing s with
  | ret r => exact ⟨r, s, .ret, h⟩
  | act label ready eff next ih =>
    obtain ⟨hready, hnext⟩ := h s rfl
    obtain ⟨r, s', hrun, hQ⟩ := ih i s (hnext (hready trivial) i hi).2
    exact ⟨r, s', .act (hready trivial) hi hrun, hQ⟩

/-- Every run of the process on its own, with inputs in `A`, ends as specified, and there is one. -/
def Ensures (A : ι → Prop) (Q : Except ε α → σ → Prop) (t : Proc σ ι ℓ ε α) (s : σ) : Prop :=
  (∀ r s', Returns A t s r s' → Q r s') ∧ ∃ r s', Returns A t s r s'

/-- The rules for a process on its own give what its runs ensure. -/
theorem ensures_of_wp (hA : ∃ i, A i) (h : wp (.alone ℓ A) Q t s) : Ensures A Q t s := by
  obtain ⟨r, s', hrun, -⟩ := exists_returns hA h
  exact ⟨fun r s' hrun => post_of_returns hrun h, r, s', hrun⟩

end WP

/-! ## Proof outlines -/

section Outline

variable {σ ι ℓ ε ε' α β : Type} (S : Spec σ ι ℓ) (R : ℓ → σ → Prop)
variable {Q : Except ε α → σ → Prop} {t t' : Proc σ ι ℓ ε α} {s s' : σ}

/-- As `Proc.wp`, and whenever an action is due, the state is as `R` says. -/
def Outline (Q : Except ε α → σ → Prop) : Proc σ ι ℓ ε α → σ → Prop
  | ret r, s => Q r s
  | act label ready eff next, s => ∀ s', S.env (some label) s s' → R label s' ∧
      (ready s' = true → ∀ i, S.input label s' i →
        S.guar label s' (eff i s') ∧ Outline Q (next i s') (eff i s'))

variable {S R}

lemma Outline.holds {l : ℓ} (h : Outline S R Q t s) (hl : t.head = some l) : R l s := by
  cases t with
  | ret r => cases hl
  | act label ready eff next => exact Option.some.inj hl ▸ (h s (S.env_refl _ s)).1

/-- **A step of another process** leaves the outline, if the outcome of a process that has ended is
stable. -/
theorem Outline.of_env (h : Outline S R Q t s) (hQ : ∀ r, t = ret r → Q r s → Q r s')
    (henv : S.env t.head s s') : Outline S R Q t s' := by
  cases t with
  | ret r => exact hQ r rfl h
  | act label ready eff next => exact fun s'' h' => h s'' (S.env_trans henv h')

/-- **A step of the process** does what it guarantees, and leaves the outline of the rest. -/
theorem Outline.step {i : ι} (h : Outline S R Q t s) (hstep : Step t s i t' s')
    (hinput : ∀ l, t.head = some l → S.input l s i) :
    (∃ l, t.head = some l ∧ S.guar l s s') ∧ Outline S R Q t' s' := by
  cases hstep with
  | @act label _ _ _ _ _ hready =>
    obtain ⟨hguar, hnext⟩ := (h s (S.env_refl _ s)).2 hready i (hinput label rfl)
    exact ⟨⟨label, rfl, hguar⟩, hnext⟩

lemma Outline.mono {Q' : Except ε α → σ → Prop} (h : Outline S R Q t s)
    (hQ : ∀ r s, Q r s → Q' r s) : Outline S R Q' t s := by
  induction t generalizing s with
  | ret r => exact hQ r s h
  | act label ready eff next ih =>
    intro s' henv
    obtain ⟨hR, hnext⟩ := h s' henv
    exact ⟨hR, fun hr i hi => ⟨(hnext hr i hi).1, ih i s' (hnext hr i hi).2⟩⟩

/-- A single action. -/
lemma Outline.atom {label : ℓ} {f : ι → σ → Except ε α × σ}
    (h : ∀ s', S.env (some label) s s' → R label s' ∧ ∀ i, S.input label s' i →
      S.guar label s' (f i s').2 ∧ Q (f i s').1 (f i s').2) : Outline S R Q (Proc.atom label f) s :=
  fun s' henv => ⟨(h s' henv).1, fun _ i hi => (h s' henv).2 i hi⟩

/-- **Composition**: the first process must lead to where its continuation starts, or fail. -/
theorem Outline.bind {Q : Except ε β → σ → Prop} {k : α → Proc σ ι ℓ ε β}
    (h : Outline S R (fun r s => match r with
      | .ok a => Outline S R Q (k a) s
      | .error e => Q (.error e) s) t s) : Outline S R Q (t >>= k) s := by
  induction t generalizing s with
  | ret r =>
    cases r with
    | ok a => exact h
    | error e => exact h
  | act label ready eff next ih =>
    intro s' henv
    obtain ⟨hR, hnext⟩ := h s' henv
    exact ⟨hR, fun hr i hi => ⟨(hnext hr i hi).1, ih i s' (hnext hr i hi).2⟩⟩

lemma Outline.attempt {Q : Except ε' (Except ε α) → σ → Prop}
    (h : Outline S R (fun r s => Q (.ok r) s) t s) :
    Outline S R Q (t.attempt : Proc σ ι ℓ ε' _) s := by
  induction t generalizing s with
  | ret r => exact h
  | act label ready eff next ih =>
    intro s' henv
    obtain ⟨hR, hnext⟩ := h s' henv
    exact ⟨hR, fun hr i hi => ⟨(hnext hr i hi).1, ih i s' (hnext hr i hi).2⟩⟩

/-- A process whose labels are renamed. -/
lemma Outline.relabel {ℓ' : Type} {f : ℓ → ℓ'} {S : Spec σ ι ℓ'} {R : ℓ' → σ → Prop}
    (h : Outline (S.relabel f) (fun l => R (f l)) Q t s) :
    Outline S R Q (t.zoom id (fun s _ => s) id f) s := by
  induction t generalizing s with
  | ret r => exact h
  | act label ready eff next ih =>
    intro s' henv
    obtain ⟨hR, hnext⟩ := h s' henv
    exact ⟨hR, fun hr i hi => ⟨(hnext hr i hi).1, ih i s' (hnext hr i hi).2⟩⟩

end Outline

end Proc
