import Mathlib.Algebra.GroupWithZero.Nat
import Mathlib.Algebra.Order.BigOperators.Group.List
import Landropic.Foundations.Runs

set_option autoImplicit false

/-!
# Two parties that exchange messages

Two deterministic parties answer each message they get with messages to the other one, over two
lossless channels that keep the order. What a party has become only depends on the messages it got,
and not on when they came.

## Main definitions

* `Duplex` — two parties and what is under way between them.
* `Duplex.deliver` — the delivery of a message.
* `Duplex.feed` — a party that gets a list of messages, and all its answers.
* `Duplex.History` — the messages that two parties got in a run.

## Main results

* `Duplex.history_of_run` — every run is explained by the messages each party got.
* `Duplex.exists_quiet` — messages whose answers weigh less than they do run out.
-/

/-- Two parties and the messages under way between them, the oldest ones first. -/
structure Duplex (S M : Type) where
  left : S
  right : S
  toLeft : List M
  toRight : List M

namespace Duplex

variable {S M E : Type}

/-- No message is under way. -/
def Quiet (x : Duplex S M) : Prop := x.toLeft = [] ∧ x.toRight = []

/-- The two parties. -/
inductive Side
  | left | right
  deriving DecidableEq

/-- The other party. -/
def Side.other : Side → Side
  | left => right
  | right => left

@[simp] lemma Side.other_other (side : Side) : side.other.other = side := by cases side <;> rfl

lemma Side.other_ne (side : Side) : side.other ≠ side := by cases side <;> decide

lemma Side.eq_or_eq_other (side u : Side) : u = side ∨ u = side.other := by
  cases side <;> cases u <;> decide

section Deliver

variable (step : E → S → M → S × List M)

/-- Deliver the oldest message to a party, which takes a label from outside, and send its answers
to the other one. -/
def deliver (x : Duplex S M) : Side × E → Option (Duplex S M)
  | (.left, e) =>
    match x.toLeft with
    | [] => none
    | m :: rest => some
      { left := (step e x.left m).1
        right := x.right
        toLeft := rest
        toRight := x.toRight ++ (step e x.left m).2 }
  | (.right, e) =>
    match x.toRight with
    | [] => none
    | m :: rest => some
      { left := x.left
        right := (step e x.right m).1
        toLeft := x.toLeft ++ (step e x.right m).2
        toRight := rest }

/-- A party that gets a list of messages, and all its answers. -/
def feed : List (E × M) → S → S × List M
  | [], s => (s, [])
  | (e, m) :: rest, s =>
    ((feed rest (step e s m).1).1, (step e s m).2 ++ (feed rest (step e s m).1).2)

end Deliver

variable {step : E → S → M → S × List M} {C : E → Prop} {P Q : M → Prop} {x₀ x x' : Duplex S M}

/-- **What a delivery does**: a party gets the oldest message on its way to it, and its answers go
to the other party. -/
lemma deliver_cases {side : Side} {e : E} (h : deliver step x (side, e) = some x') :
    (∃ m rest, side = .left ∧ x.toLeft = m :: rest ∧
      x' = ⟨(step e x.left m).1, x.right, rest, x.toRight ++ (step e x.left m).2⟩) ∨
    (∃ m rest, side = .right ∧ x.toRight = m :: rest ∧
      x' = ⟨x.left, (step e x.right m).1, x.toLeft ++ (step e x.right m).2, rest⟩) := by
  cases side with
  | left =>
    rw [deliver] at h
    cases hto : x.toLeft with
    | nil => simp [hto] at h
    | cons m rest =>
      rw [hto] at h
      exact .inl ⟨m, rest, rfl, rfl, (Option.some.inj h).symm⟩
  | right =>
    rw [deliver] at h
    cases hto : x.toRight with
    | nil => simp [hto] at h
    | cons m rest =>
      rw [hto] at h
      exact .inr ⟨m, rest, rfl, rfl, (Option.some.inj h).symm⟩

@[simp] lemma feed_nil (s : S) : feed step [] s = (s, []) := rfl

lemma feed_append (l l' : List (E × M)) (s : S) : feed step (l ++ l') s =
    ((feed step l' (feed step l s).1).1,
      (feed step l s).2 ++ (feed step l' (feed step l s).1).2) := by
  induction l generalizing s with
  | nil => rfl
  | cons c rest ih => simp [feed, ih]

lemma forall_mem_feed (hclosed : ∀ e s m, C e → P m → ∀ m' ∈ (step e s m).2, Q m')
    {l : List (E × M)} (hl : ∀ c ∈ l, C c.1 ∧ P c.2) (s : S) : ∀ m ∈ (feed step l s).2, Q m := by
  induction l generalizing s with
  | nil => simp
  | cons c rest ih =>
    intro m hm
    rcases List.mem_append.mp hm with hm | hm
    · have hc := hl c List.mem_cons_self
      exact hclosed c.1 s c.2 hc.1 hc.2 m hm
    · exact ih (fun c' hc' => hl c' (List.mem_cons_of_mem c hc')) _ m hm

/-- **The messages two parties got**: each party is what they have made of it, and they came in the
order in which they were sent. -/
structure History (step : E → S → M → S × List M) (x₀ x : Duplex S M)
    (gotLeft gotRight : List (E × M)) : Prop where
  left_eq : (feed step gotLeft x₀.left).1 = x.left
  right_eq : (feed step gotRight x₀.right).1 = x.right
  toLeft_eq : x₀.toLeft ++ (feed step gotRight x₀.right).2 = gotLeft.map Prod.snd ++ x.toLeft
  toRight_eq : x₀.toRight ++ (feed step gotLeft x₀.left).2 = gotRight.map Prod.snd ++ x.toRight

/-- A delivery adds a message to the history of the party that gets it. -/
lemma History.deliver {gotLeft gotRight : List (E × M)} (h : History step x₀ x gotLeft gotRight)
    {side : Side} {e : E} (hnext : deliver step x (side, e) = some x') :
    ∃ m, (m ∈ x.toLeft ∨ m ∈ x.toRight) ∧
      History step x₀ x' (gotLeft ++ if side = .left then [(e, m)] else [])
      (gotRight ++ if side = .right then [(e, m)] else []) := by
  obtain ⟨m, rest, rfl, hto, rfl⟩ | ⟨m, rest, rfl, hto, rfl⟩ := deliver_cases hnext
  · refine ⟨m, .inl (by simp [hto]), ?_, ?_, ?_, ?_⟩
    · simp [feed_append, feed, h.left_eq]
    · simpa using h.right_eq
    · simpa [hto] using h.toLeft_eq
    · simp [feed_append, feed, h.left_eq, ← List.append_assoc, h.toRight_eq]
  · refine ⟨m, .inr (by simp [hto]), ?_, ?_, ?_, ?_⟩
    · simpa using h.left_eq
    · simp [feed_append, feed, h.right_eq]
    · simp [feed_append, feed, h.right_eq, ← List.append_assoc, h.toLeft_eq]
    · simpa [hto] using h.toRight_eq

/-- All messages under way are of one kind. -/
def All (P : M → Prop) (x : Duplex S M) : Prop := (∀ m ∈ x.toLeft, P m) ∧ ∀ m ∈ x.toRight, P m

/-- A delivery keeps the kind of the messages, if the answers are of the kind of what they
answer. -/
lemma All.deliver (h : All P x) (hclosed : ∀ e s m, C e → P m → ∀ m' ∈ (step e s m).2, P m')
    {d : Side × E} (hC : C d.2) (hnext : deliver step x d = some x') : All P x' := by
  obtain ⟨side, e⟩ := d
  obtain ⟨m, rest, rfl, hto, rfl⟩ | ⟨m, rest, rfl, hto, rfl⟩ := deliver_cases hnext
  · have hm : P m := h.1 m (by simp [hto])
    refine ⟨fun m' hm' => h.1 m' (by simp [hto, hm']), fun m' hm' => ?_⟩
    rcases List.mem_append.mp hm' with hm' | hm'
    · exact h.2 m' hm'
    · exact hclosed e x.left m hC hm m' hm'
  · have hm : P m := h.2 m (by simp [hto])
    refine ⟨fun m' hm' => ?_, fun m' hm' => h.2 m' (by simp [hto, hm'])⟩
    rcases List.mem_append.mp hm' with hm' | hm'
    · exact h.1 m' hm'
    · exact hclosed e x.right m hC hm m' hm'

/-- Along a run all messages are of one kind, those that were delivered included. -/
theorem all_of_run (hclosed : ∀ e s m, C e → P m → ∀ m' ∈ (step e s m).2, P m') (h : All P x₀)
    (hrun : Runs.Run (deliver step) (fun _ d => C d.2) x₀ x) : All P x :=
  hrun.invariant h fun {_ _ _} _ h₁ hC hnext => h₁.deliver hclosed hC hnext

/-- **Every run is explained by the messages each party got**, all of one kind, if the answers are
of the kind of what they answer.

**Proof sketch.** Induction on the run; each delivery adds a message to one history. -/
theorem history_of_run (hclosed : ∀ e s m, C e → P m → ∀ m' ∈ (step e s m).2, P m') (h : All P x₀)
    (hrun : Runs.Run (deliver step) (fun _ d => C d.2) x₀ x) :
    ∃ gotLeft gotRight, (∀ c ∈ gotLeft, C c.1 ∧ P c.2) ∧ (∀ c ∈ gotRight, C c.1 ∧ P c.2) ∧
      History step x₀ x gotLeft gotRight := by
  refine hrun.invariant (I := fun y => ∃ gotLeft gotRight, (∀ c ∈ gotLeft, C c.1 ∧ P c.2) ∧
    (∀ c ∈ gotRight, C c.1 ∧ P c.2) ∧ History step x₀ y gotLeft gotRight) ?_ ?_
  · exact ⟨[], [], by simp, by simp, rfl, rfl, by simp, by simp⟩
  · rintro x₁ ⟨side, e⟩ x₂ hrun₁ ⟨gotLeft, gotRight, hl, hr, hhistory⟩ hC hnext
    obtain ⟨m, hm, hhistory'⟩ := hhistory.deliver hnext
    have hall := all_of_run hclosed h hrun₁
    have hP : P m := hm.elim (hall.1 m) (hall.2 m)
    have hadd : ∀ (got : List (E × M)) (here : Prop) [Decidable here],
        (∀ c ∈ got, C c.1 ∧ P c.2) →
        ∀ c ∈ got ++ if here then [(e, m)] else [], C c.1 ∧ P c.2 := by
      intro got here _ hgot c hc
      rcases List.mem_append.mp hc with hc | hc
      · exact hgot c hc
      · split_ifs at hc
        · obtain rfl := List.mem_singleton.mp hc
          exact ⟨hC, hP⟩
        · cases hc
    exact ⟨_, _, hadd gotLeft _ hl, hadd gotRight _ hr, hhistory'⟩

section Quiet

variable (weight : M → ℕ)

/-- The weight of all messages under way. -/
def load (x : Duplex S M) : ℕ := (x.toLeft.map weight).sum + (x.toRight.map weight).sum

/-- A delivery makes the messages under way lighter. -/
lemma load_deliver (h : All P x)
    (hlight : ∀ e s m, C e → P m → (((step e s m).2).map weight).sum < weight m)
    {d : Side × E} (hC : C d.2) (hnext : deliver step x d = some x') :
    load weight x' < load weight x := by
  obtain ⟨side, e⟩ := d
  obtain ⟨m, rest, rfl, hto, rfl⟩ | ⟨m, rest, rfl, hto, rfl⟩ := deliver_cases hnext
  · have hlt := hlight e x.left m hC (h.1 m (by simp [hto]))
    simp only [load, hto, List.map_append, List.map_cons, List.sum_append, List.sum_cons]
    omega
  · have hlt := hlight e x.right m hC (h.2 m (by simp [hto]))
    simp only [load, hto, List.map_append, List.map_cons, List.sum_append, List.sum_cons]
    omega

lemma exists_deliver (step : E → S → M → S × List M) (h : ¬ x.Quiet) (e : E) :
    ∃ side x', deliver step x (side, e) = some x' := by
  cases hleft : x.toLeft with
  | cons m rest =>
    refine ⟨.left, ?_⟩
    simp [Duplex.deliver, hleft]
  | nil =>
    cases hright : x.toRight with
    | cons m rest =>
      refine ⟨.right, ?_⟩
      simp [Duplex.deliver, hright]
    | nil => exact absurd ⟨hleft, hright⟩ h

/-- **Messages whose answers weigh less than they do run out**: every state leads to one in which no
message is under way.

**Proof sketch.** Strong induction on the weight of the messages under way, which every delivery
makes smaller. -/
theorem exists_quiet (hclosed : ∀ e s m, C e → P m → ∀ m' ∈ (step e s m).2, P m')
    (hlight : ∀ e s m, C e → P m → (((step e s m).2).map weight).sum < weight m)
    {e : E} (he : C e) (h : All P x) :
    ∃ x', Runs.Run (Duplex.deliver step) (fun _ d => C d.2) x x' ∧ x'.Quiet := by
  induction hload : load weight x using Nat.strong_induction_on generalizing x with
  | _ n ih =>
    by_cases hquiet : x.Quiet
    · exact ⟨x, .refl, hquiet⟩
    · obtain ⟨side, x₁, hnext⟩ := exists_deliver step hquiet e
      have hlt := load_deliver weight h hlight (d := (side, e)) he hnext
      obtain ⟨x', hrun, hquiet'⟩ := ih _ (hload ▸ hlt)
        (h.deliver hclosed (d := (side, e)) he hnext) rfl
      exact ⟨x', Relation.ReflTransGen.head ⟨(side, e), he, hnext⟩ hrun, hquiet'⟩

end Quiet

end Duplex
