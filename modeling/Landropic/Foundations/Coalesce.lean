import Mathlib.Data.List.Induction

set_option autoImplicit false

/-!
# Keeping the last event of each key

Events have keys, and wait in a buffer that holds one event for each key: an event replaces the one
of its key that is still waiting. From time to time some of the events that wait are let out, in any
order. An event may have an effect on a cell, which is then what the last such event leaves there.

## Main definitions

* `Coalesce.lastEffect` — the effect of a list of events on the cell.
* `Coalesce.LastOf` — an event is the last one of its key.
* `Coalesce.Quiet` — the last events of all keys have no effect on the cell.
* `Coalesce.Emits` — what a buffer lets out of the events that enter it, until it is empty.
* `Coalesce.Stable` — what keeps the effect of a sequence the same, however it is let out.

## Main results

* `Coalesce.Emits.lastEffect_eq` — the effect of a stable sequence is that of what is let out.
-/

namespace Coalesce

variable {ε K V : Type} (key : ε → K) (effect : ε → Option V)

/-! ## Effects -/

/-- The last effect of some events. -/
def lastEffect (events : List ε) : Option V := (events.filterMap effect).getLast?

variable {effect} in
@[simp] lemma lastEffect_nil : lastEffect effect [] = none := rfl

@[simp] lemma lastEffect_singleton (event : ε) : lastEffect effect [event] = effect event := by
  cases h : effect event with
  | none => simp [lastEffect, h]
  | some v => simp [lastEffect, h]

lemma lastEffect_append (events more : List ε) :
    lastEffect effect (events ++ more) =
      (lastEffect effect more).or (lastEffect effect events) := by
  rw [lastEffect, List.filterMap_append, List.getLast?_append]
  rfl

lemma lastEffect_eq_none_iff {events : List ε} :
    lastEffect effect events = none ↔ ∀ event ∈ events, effect event = none := by
  rw [lastEffect, List.getLast?_eq_none_iff, List.filterMap_eq_nil_iff]

lemma exists_of_lastEffect {events : List ε} {v : V} (h : lastEffect effect events = some v) :
    ∃ event ∈ events, effect event = some v :=
  List.mem_filterMap.mp (List.mem_of_getLast? h)

/-! ## The last event of a key -/

/-- An event is the last one of its key. -/
def LastOf (events : List ε) (event : ε) : Prop :=
  ∃ before after, events = before ++ event :: after ∧ ∀ other ∈ after, key other ≠ key event

section LastOf

variable {key} {events : List ε} {event other : ε}

lemma LastOf.mem (h : LastOf key events event) : event ∈ events := by
  obtain ⟨before, after, rfl, -⟩ := h
  exact List.mem_append_right _ List.mem_cons_self

lemma lastOf_concat : LastOf key (events ++ [other]) event ↔
    event = other ∨ key other ≠ key event ∧ LastOf key events event := by
  constructor
  · rintro ⟨before, after, heq, hafter⟩
    induction after using List.reverseRecOn with
    | nil =>
      obtain ⟨-, h⟩ := List.append_inj' heq rfl
      exact .inl (List.cons.inj h).1.symm
    | append_singleton after last =>
      rw [← List.cons_append, ← List.append_assoc] at heq
      obtain ⟨rfl, h⟩ := List.append_inj' heq rfl
      obtain rfl := (List.cons.inj h).1
      exact .inr ⟨hafter _ (List.mem_append_right _ List.mem_cons_self), before, after, rfl,
        fun x hx => hafter x (List.mem_append_left _ hx)⟩
  · rintro (rfl | ⟨hne, before, after, rfl, hafter⟩)
    · exact ⟨events, [], rfl, nofun⟩
    · refine ⟨before, after ++ [other], by simp, fun x hx => ?_⟩
      obtain hx | hx := List.mem_append.mp hx
      · exact hafter x hx
      · rwa [List.mem_singleton.mp hx]

lemma lastOf_cons : LastOf key (other :: events) event ↔
    LastOf key events event ∨ event = other ∧ ∀ x ∈ events, key x ≠ key other := by
  constructor
  · rintro ⟨before, after, heq, hafter⟩
    cases before with
    | nil =>
      obtain ⟨rfl, rfl⟩ := List.cons.inj heq
      exact .inr ⟨rfl, hafter⟩
    | cons x before =>
      obtain ⟨rfl, rfl⟩ := List.cons.inj heq
      exact .inl ⟨before, after, rfl, hafter⟩
  · rintro (⟨before, after, rfl, hafter⟩ | ⟨rfl, hafter⟩)
    · exact ⟨other :: before, after, rfl, hafter⟩
    · exact ⟨[], events, rfl, hafter⟩

/-- The last events of all keys have no effect. -/
def Quiet (key : ε → K) (effect : ε → Option V) (events : List ε) : Prop :=
  ∀ event, LastOf key events event → effect event = none

variable {effect}

lemma quiet_nil : Quiet key effect [] := fun _ h => absurd h.mem List.not_mem_nil

lemma quiet_cons : Quiet key effect (other :: events) ↔
    Quiet key effect events ∧ ((∀ x ∈ events, key x ≠ key other) → effect other = none) := by
  constructor
  · intro h
    exact ⟨fun event hlast => h event (lastOf_cons.mpr (.inl hlast)),
      fun hkeys => h other (lastOf_cons.mpr (.inr ⟨rfl, hkeys⟩))⟩
  · rintro ⟨hquiet, hother⟩ event hlast
    obtain hlast | ⟨rfl, hkeys⟩ := lastOf_cons.mp hlast
    · exact hquiet event hlast
    · exact hother hkeys

end LastOf

/-! ## Buffers -/

section Emits

variable [DecidableEq K]

/-- What a buffer lets out of the events that enter it, until it is empty. -/
inductive Emits : (K → Option ε) → List ε → List ε → Prop
  /-- The buffer is empty. -/
  | done {pending : K → Option ε} (h : ∀ k, pending k = none) : Emits pending [] []
  /-- An event enters the buffer. -/
  | add {pending : K → Option ε} {event : ε} {events emitted : List ε}
      (h : Emits (Function.update pending (key event) (some event)) events emitted) :
      Emits pending (event :: events) emitted
  /-- Some events are let out. -/
  | emit {pending pending' : K → Option ε} {ready events emitted : List ε}
      (hready : ∀ event ∈ ready, pending (key event) = some event)
      (hgone : ∀ event ∈ ready, pending' (key event) = none)
      (hkept : ∀ k, (∀ event ∈ ready, key event ≠ k) → pending' k = pending k)
      (h : Emits pending' events emitted) : Emits pending events (ready ++ emitted)

variable {key} {effect} {pending : K → Option ε} {events emitted : List ε}

/-- **An event that waits is let out** if no event of its key enters the buffer. -/
lemma Emits.mem_of_pending (h : Emits key pending events emitted) {k : K} {event : ε}
    (hpending : pending k = some event) (hkeys : ∀ other ∈ events, key other ≠ k) :
    event ∈ emitted := by
  induction h with
  | done hempty =>
    rw [hempty k] at hpending
    cases hpending
  | add _ ih =>
    have hne := hkeys _ List.mem_cons_self
    refine ih ?_ fun other hother => hkeys other (List.mem_cons_of_mem _ hother)
    rw [Function.update_of_ne (Ne.symm hne)]
    exact hpending
  | emit hready hgone hkept hrest ih =>
    next ready events emitted =>
    by_cases hmem : ∃ other ∈ ready, key other = k
    · obtain ⟨other, hother, rfl⟩ := hmem
      rw [hready other hother] at hpending
      exact List.mem_append_left _ (Option.some.inj hpending ▸ hother)
    · have hpending' := (hkept k fun other hother hk => hmem ⟨other, hother, hk⟩).trans hpending
      exact List.mem_append_right _ (ih hpending' hkeys)

/-- What keeps the effect of a sequence the same, however it is let out: wherever the sequence is
cut so that the rest of it is quiet, the last events of all keys before the cut have no other effect
than the whole sequence, and if there are none before the cut, it has none. -/
def Stable (key : ε → K) (effect : ε → Option V) (initial : V) (events : List ε) : Prop :=
  ∀ before after, events = before ++ after → Quiet key effect after →
    (∀ event, LastOf key before event →
      ∀ v, effect event = some v → v = (lastEffect effect events).getD initial) ∧
    (before = [] → initial = (lastEffect effect events).getD initial)

/-- What is let out of the rest of a stable sequence has its effect, or the rest is quiet.

**Proof sketch.** By induction on what happens to the buffer, which holds last events of what has
entered it. If what is let out later has no effect, then the rest is quiet: an event that is the
last of its key is let out. So the events that are let out now are before a cut. -/
lemma Emits.lastEffect_of_stable {initial : V} (before : List ε)
    (hstable : Stable key effect initial (before ++ events))
    (hpending : ∀ k event, pending k = some event → key event = k ∧ LastOf key before event)
    (h : Emits key pending events emitted) :
    (∀ v, lastEffect effect emitted = some v →
      v = (lastEffect effect (before ++ events)).getD initial) ∧
    (lastEffect effect emitted = none → Quiet key effect events) := by
  induction h generalizing before with
  | done _ => exact ⟨nofun, fun _ => quiet_nil⟩
  | add hrest ih =>
    next event events emitted =>
    have hsplit : before ++ event :: events = (before ++ [event]) ++ events := by simp
    rw [hsplit] at hstable ⊢
    obtain ⟨hsome, hquiet⟩ := ih _ hstable fun k other hother => by
      by_cases hk : k = key event
      · subst hk
        rw [Function.update_self] at hother
        obtain rfl := Option.some.inj hother
        exact ⟨rfl, lastOf_concat.mpr (.inl rfl)⟩
      · rw [Function.update_of_ne hk] at hother
        obtain ⟨rfl, hlast⟩ := hpending k other hother
        exact ⟨rfl, lastOf_concat.mpr (.inr ⟨Ne.symm hk, hlast⟩)⟩
    refine ⟨hsome, fun hnone => quiet_cons.mpr ⟨hquiet hnone, fun hkeys => ?_⟩⟩
    exact (lastEffect_eq_none_iff effect).mp hnone event
      (hrest.mem_of_pending (Function.update_self ..) hkeys)
  | emit hready hgone hkept hrest ih =>
    next ready events emitted =>
    obtain ⟨hsome, hquiet⟩ := ih before hstable fun k other hother => by
      refine hpending k other ((hkept k fun event hevent hk => ?_).symm.trans hother)
      rw [← hk, hgone event hevent] at hother
      cases hother
    rw [lastEffect_append]
    cases hlater : lastEffect effect emitted with
    | some v => exact ⟨fun v' hv' => hsome v' (hlater.trans hv'), nofun⟩
    | none =>
      refine ⟨fun v hv => ?_, fun _ => hquiet hlater⟩
      obtain ⟨event, hevent, heffect⟩ := exists_of_lastEffect effect hv
      exact (hstable before events rfl (hquiet hlater)).1 event
        (hpending _ event (hready event hevent)).2 v heffect

/-- **The effect of a stable sequence** is that of what a buffer lets out of it. -/
theorem Emits.lastEffect_eq {initial : V} (hstable : Stable key effect initial events)
    (h : Emits key (fun _ => none) events emitted) :
    (lastEffect effect emitted).getD initial = (lastEffect effect events).getD initial := by
  have hempty : ∀ (k : K) (event : ε), (none : Option ε) = some event →
      key event = k ∧ LastOf key [] event := by
    intro k event hnone
    cases hnone
  obtain ⟨hsome, hquiet⟩ := h.lastEffect_of_stable [] hstable hempty
  cases hemitted : lastEffect effect emitted with
  | some v => exact hsome v hemitted
  | none => exact (hstable [] events rfl (hquiet hemitted)).2 rfl

end Emits

end Coalesce
