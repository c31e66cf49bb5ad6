import Mathlib.Algebra.BigOperators.Group.List.Basic
import Mathlib.Algebra.GroupWithZero.Nat
import Mathlib.Data.List.Nodup
import Landropic.Foundations.Runs

set_option autoImplicit false

/-!
# Flow control

A flow controller hands out its capacity. A call that finds less capacity than a threshold waits in
a queue, and any call polls until there is enough for it. Whoever holds the controller excludes the
other calls, and a permit that is dropped only adds its size to the capacity.

## Main definitions

* `FlowController`, `FlowState` — a controller, and its calls and permits.
* `FlowState.next` — one step of the calls, or the drop of a permit.
* `FlowState.Conserved`, `FlowState.Unwedged` — nothing is lost, and nobody waits in vain.
* `FlowState.Unhindered` — the steps after which nobody waits in vain.

## Main results

* `FlowState.moves_of_next` — what each step does.
* `FlowState.wedged_of_hindered` — a hindered step leads to a wedge.
* `FlowState.unwedged_of_run` — every run conserves the capacity, and in runs of unhindered steps
  nobody waits in vain.

## Design

The controller is behind a fair lock that is only taken for writing, which a call holds until it has
its permit. Nobody notifies the waiters, so nothing is ever sent to a call in the queue.
-/

namespace Landropic

/-- Flow controller for managing stream bandwidth. -/
structure FlowController (τ : Type) where
  windowSize : UInt64
  availableCapacity : UInt64
  /-- The share of the window below which calls are held back. -/
  threshold : UInt64
  waiters : List τ
  deriving DecidableEq

namespace FlowController

variable {τ : Type}

/-- A controller all of whose capacity is available. -/
def idle (windowSize threshold : UInt64) : FlowController τ where
  windowSize := windowSize
  availableCapacity := windowSize
  threshold := threshold
  waiters := []

/-- A new controller. -/
def new (windowSize : UInt64) (backpressureThreshold : Float32) : FlowController τ :=
  idle windowSize (windowSize.toFloat32 * backpressureThreshold).toUInt64

end FlowController

/-- Where a call stands that holds the controller. -/
inductive FlowStage
  /-- Check if we need to apply backpressure. -/
  | check
  /-- Wait for capacity to become available. -/
  | wait
  /-- Load the capacity. -/
  | load
  /-- Try to acquire capacity, which has been loaded. -/
  | acquire (current : UInt64)
  /-- Not enough capacity, wait and load it again. -/
  | sleep
  deriving DecidableEq

/-- A controller, the call that holds it, those that wait for its lock, and the permits that have
not been dropped. -/
structure FlowState (τ : Type) where
  controller : FlowController τ
  holder : Option ((τ × UInt64) × FlowStage)
  queue : List (τ × UInt64)
  permits : List UInt64
  deriving DecidableEq

/-- What happens next. -/
inductive FlowEvent (τ : Type)
  /-- A task asks for capacity. -/
  | call (task : τ) (size : UInt64)
  /-- The first in the queue takes the controller. -/
  | enter
  /-- The call that holds the controller goes on. -/
  | advance
  /-- A permit is dropped. -/
  | drop (size : UInt64)

namespace FlowState

variable {τ : Type} [DecidableEq τ]

/-- The calls that have no permit yet, in the order in which they hold the controller. -/
def pending (S : FlowState τ) : List (τ × UInt64) := (S.holder.map Prod.fst).toList ++ S.queue

/-- The next action of a call that holds the controller. -/
def acquireCapacity (S : FlowState τ) (call : τ × UInt64) : FlowStage → Option (FlowState τ)
  | .check =>
    if S.controller.availableCapacity < S.controller.threshold then
      some { S with
        controller := { S.controller with waiters := S.controller.waiters ++ [call.1] }
        holder := some (call, .wait) }
    else some { S with holder := some (call, .load) }
  | .wait => none
  | .load => some { S with holder := some (call, .acquire S.controller.availableCapacity) }
  | .acquire current =>
    if current < call.2 then some { S with holder := some (call, .sleep) }
    else if S.controller.availableCapacity = current then
      some { S with
        controller := { S.controller with availableCapacity := current - call.2 }
        holder := none
        permits := call.2 :: S.permits }
    else some { S with holder := some (call, .acquire S.controller.availableCapacity) }
  | .sleep => some { S with holder := some (call, .acquire S.controller.availableCapacity) }

/-- The state after an event, if that is possible. A task that waits makes no other call. -/
def next (S : FlowState τ) : FlowEvent τ → Option (FlowState τ)
  | .call task size =>
    if task ∈ S.pending.map Prod.fst then none
    else some { S with queue := S.queue ++ [(task, size)] }
  | .enter =>
    match S.holder, S.queue with
    | none, call :: rest => some { S with holder := some (call, .check), queue := rest }
    | _, _ => none
  | .advance =>
    match S.holder with
    | none => none
    | some (call, stage) => S.acquireCapacity call stage
  | .drop size =>
    if size ∈ S.permits then
      some { S with
        controller := { S.controller with
          availableCapacity := S.controller.availableCapacity + size }
        permits := S.permits.erase size }
    else none

/-- A controller that nobody uses. -/
def unused (controller : FlowController τ) : FlowState τ := ⟨controller, none, [], []⟩

/-- Runs all of whose steps meet a condition. -/
abbrev Run (C : FlowState τ → FlowEvent τ → Prop) : FlowState τ → FlowState τ → Prop :=
  Runs.Run next C

/-- Any run. -/
abbrev Reach : FlowState τ → FlowState τ → Prop := Run fun _ _ => True

/-! ## What is promised -/

omit [DecidableEq τ] in
/-- **The capacity is conserved**: what is available and what the permits hold make the window. -/
def Conserved (S : FlowState τ) : Prop :=
  S.controller.availableCapacity.toNat + (S.permits.map UInt64.toNat).sum =
    S.controller.windowSize.toNat

/-- **Nobody waits in vain**: when all permits have been dropped, every call for no more than the
window can still get its permit. -/
def Unwedged (S : FlowState τ) : Prop :=
  S.permits = [] → ∀ call ∈ S.pending, call.2 ≤ S.controller.windowSize →
    ∃ S', Reach S S' ∧ call.1 ∉ S'.pending.map Prod.fst

/-- The steps after which nobody waits in vain. A call for no more than the window is made when the
threshold is within the window and no call for more is ahead of it, and it finds the capacity at the
threshold. -/
def Unhindered (S : FlowState τ) : FlowEvent τ → Prop
  | .call _ size => size ≤ S.controller.windowSize →
      S.controller.threshold ≤ S.controller.windowSize ∧
        ∀ call ∈ S.pending, call.2 ≤ S.controller.windowSize
  | .advance => ∀ holder ∈ S.holder, holder.2 = .check →
      holder.1.2 ≤ S.controller.windowSize →
        S.controller.threshold ≤ S.controller.availableCapacity
  | _ => True

/-! ## The capacity -/

section Steps

variable {S S' : FlowState τ} {event : FlowEvent τ} {call : τ × UInt64} {stage : FlowStage}
  {size : UInt64}

omit [DecidableEq τ] in
lemma pending_of_holder (h : S.holder = some (call, stage)) : S.pending = call :: S.queue := by
  simp [pending, h]

/-- **What a step does.** -/
inductive Moves (S : FlowState τ) : FlowEvent τ → FlowState τ → Prop
  | call {task : τ} {size : UInt64} : task ∉ S.pending.map Prod.fst →
      Moves S (.call task size) { S with queue := S.queue ++ [(task, size)] }
  | enter {call : τ × UInt64} {rest : List (τ × UInt64)} : S.holder = none →
      S.queue = call :: rest →
      Moves S .enter { S with holder := some (call, .check), queue := rest }
  /-- A call moves on. It comes to wait when it finds too little capacity. -/
  | advance {call : τ × UInt64} {stage stage' : FlowStage} {waiters : List τ} :
      S.holder = some (call, stage) → stage ≠ .wait →
      (stage' = .wait ↔
        stage = .check ∧ S.controller.availableCapacity < S.controller.threshold) →
      Moves S .advance { S with
        controller := { S.controller with waiters := waiters }
        holder := some (call, stage') }
  /-- A call gets its permit. -/
  | permit {call : τ × UInt64} :
      S.holder = some (call, .acquire S.controller.availableCapacity) →
      call.2 ≤ S.controller.availableCapacity →
      Moves S .advance { S with
        controller := { S.controller with
          availableCapacity := S.controller.availableCapacity - call.2 }
        holder := none
        permits := call.2 :: S.permits }
  | drop {size : UInt64} : size ∈ S.permits →
      Moves S (.drop size) { S with
        controller := { S.controller with
          availableCapacity := S.controller.availableCapacity + size }
        permits := S.permits.erase size }

omit [DecidableEq τ] in
lemma moves_of_acquireCapacity (hholder : S.holder = some (call, stage))
    (h : S.acquireCapacity call stage = some S') : Moves S .advance S' := by
  cases stage with
  | check =>
    rw [acquireCapacity] at h
    split at h
    · next hlow =>
      obtain rfl := Option.some.inj h
      exact .advance hholder nofun (iff_of_true rfl ⟨rfl, hlow⟩)
    · next hlow =>
      obtain rfl := Option.some.inj h
      exact .advance hholder nofun (iff_of_false nofun fun h => hlow h.2)
  | wait => cases h
  | load =>
    obtain rfl := Option.some.inj h
    exact .advance hholder nofun (iff_of_false nofun nofun)
  | acquire current =>
    rw [acquireCapacity] at h
    split at h
    · obtain rfl := Option.some.inj h
      exact .advance hholder nofun (iff_of_false nofun nofun)
    · next hsize =>
      split at h
      · next hcurrent =>
        subst hcurrent
        obtain rfl := Option.some.inj h
        exact .permit hholder (UInt64.not_lt.mp hsize)
      · obtain rfl := Option.some.inj h
        exact .advance hholder nofun (iff_of_false nofun nofun)
  | sleep =>
    obtain rfl := Option.some.inj h
    exact .advance hholder nofun (iff_of_false nofun nofun)

/-- Every step is one of these. -/
theorem moves_of_next (h : S.next event = some S') : Moves S event S' := by
  cases event with
  | call task size =>
    rw [FlowState.next] at h
    split at h
    · cases h
    · next hfresh =>
      obtain rfl := Option.some.inj h
      exact .call hfresh
  | enter =>
    rw [FlowState.next] at h
    split at h
    · next call rest hholder hqueue =>
      obtain rfl := Option.some.inj h
      exact .enter hholder hqueue
    · cases h
  | advance =>
    rw [FlowState.next] at h
    split at h
    · cases h
    · next hholder => exact moves_of_acquireCapacity hholder h
  | drop size =>
    rw [FlowState.next] at h
    split at h
    · next hmem =>
      obtain rfl := Option.some.inj h
      exact .drop hmem
    · cases h

omit [DecidableEq τ] in
lemma Conserved.take (h : S.Conserved) (hsize : size ≤ S.controller.availableCapacity)
    (holder : Option ((τ × UInt64) × FlowStage)) : Conserved { S with
      controller := { S.controller with
        availableCapacity := S.controller.availableCapacity - size }
      holder := holder
      permits := size :: S.permits } := by
  have hle := UInt64.le_iff_toNat_le.mp hsize
  unfold Conserved at h ⊢
  simp only [List.map_cons, List.sum_cons, UInt64.toNat_sub_of_le _ _ hsize]
  omega

omit [DecidableEq τ] in
lemma Conserved.give (h : S.Conserved) (hmem : size ∈ S.permits) : Conserved { S with
    controller := { S.controller with
      availableCapacity := S.controller.availableCapacity + size }
    permits := S.permits.erase size } := by
  have hsum : (S.permits.map UInt64.toNat).sum =
      size.toNat + ((S.permits.erase size).map UInt64.toNat).sum := by
    rw [((List.perm_cons_erase hmem).map UInt64.toNat).sum_eq, List.map_cons, List.sum_cons]
  have hbound := S.controller.windowSize.toNat_lt
  unfold Conserved at h
  rw [hsum] at h
  show (S.controller.availableCapacity + size).toNat +
    ((S.permits.erase size).map UInt64.toNat).sum = S.controller.windowSize.toNat
  rw [UInt64.toNat_add, Nat.mod_eq_of_lt (by omega)]
  omega

omit [DecidableEq τ] in
/-- **Every step conserves the capacity.** -/
theorem Conserved.step (h : S.Conserved) (hmove : Moves S event S') : S'.Conserved := by
  cases hmove with
  | call _ => exact h
  | enter _ _ => exact h
  | advance _ _ _ => exact h
  | permit _ hsize => exact h.take hsize none
  | drop hmem => exact h.give hmem

/-- **Every run conserves the capacity.** -/
theorem conserved_of_run {C : FlowState τ → FlowEvent τ → Prop} (hrun : Run C S S')
    (h : S.Conserved) : S'.Conserved :=
  hrun.invariant h fun _ hI _ hnext => hI.step (moves_of_next hnext)

end Steps

/-! ## Nobody waits in vain -/

/-- All of the capacity is available. -/
def full (windowSize threshold : UInt64) (waiters : List τ)
    (holder : Option ((τ × UInt64) × FlowStage)) (queue : List (τ × UInt64)) : FlowState τ :=
  ⟨⟨windowSize, windowSize, threshold, waiters⟩, holder, queue, []⟩

section Service

variable {S S' : FlowState τ} {event : FlowEvent τ} {call : τ × UInt64} {stage : FlowStage}
  {windowSize threshold : UInt64} {waiters : List τ} {queue rest : List (τ × UInt64)}

lemma Reach.of_next (event : FlowEvent τ) (hnext : S.next event = some S') : Reach S S' :=
  Runs.Run.step trivial hnext

omit [DecidableEq τ] in
lemma Conserved.eq_full (h : S.Conserved) (hpermits : S.permits = []) :
    S = full S.controller.windowSize S.controller.threshold S.controller.waiters S.holder
      S.queue := by
  have havailable : S.controller.availableCapacity = S.controller.windowSize := by
    rw [Conserved, hpermits] at h
    exact UInt64.toNat_inj.mp h
  obtain ⟨⟨windowSize, availableCapacity, threshold, waiters⟩, holder, queue, permits⟩ := S
  dsimp only at hpermits havailable
  subst hpermits havailable
  rfl

lemma reach_of_acquire (hsize : call.2 ≤ windowSize) :
    Reach (full windowSize threshold waiters (some (call, .acquire windowSize)) queue)
      (full windowSize threshold waiters none queue) := by
  have hpermit : (full windowSize threshold waiters (some (call, .acquire windowSize)) queue).next
      .advance = some ⟨⟨windowSize, windowSize - call.2, threshold, waiters⟩, none, queue,
        [call.2]⟩ := by
    simp [next, acquireCapacity, full, UInt64.not_lt.mpr hsize]
  refine (Reach.of_next _ hpermit).trans (Reach.of_next (.drop call.2) ?_)
  simp [next, full]

/-- **A call that holds the controller** and does not wait in the queue gets its permit. -/
lemma reach_of_holder (hsize : call.2 ≤ windowSize) (hthreshold : threshold ≤ windowSize)
    (hstage : stage ≠ .wait) :
    Reach (full windowSize threshold waiters (some (call, stage)) queue)
      (full windowSize threshold waiters none queue) := by
  have hload : Reach (full windowSize threshold waiters (some (call, .load)) queue)
      (full windowSize threshold waiters none queue) :=
    (Reach.of_next .advance rfl).trans (reach_of_acquire hsize)
  have hsleep : Reach (full windowSize threshold waiters (some (call, .sleep)) queue)
      (full windowSize threshold waiters none queue) :=
    (Reach.of_next .advance rfl).trans (reach_of_acquire hsize)
  cases stage with
  | check =>
    refine (Reach.of_next .advance ?_).trans hload
    simp [next, acquireCapacity, full, UInt64.not_lt.mpr hthreshold]
  | wait => exact absurd rfl hstage
  | load => exact hload
  | acquire current =>
    by_cases hlow : current < call.2
    · refine (Reach.of_next .advance ?_).trans hsleep
      simp [next, acquireCapacity, full, hlow]
    · by_cases heq : current = windowSize
      · subst heq
        exact reach_of_acquire hsize
      · refine (Reach.of_next .advance ?_).trans (reach_of_acquire hsize)
        simp [next, acquireCapacity, full, hlow, Ne.symm heq]
  | sleep => exact hsleep

/-- **Those in the queue get their permits** one after the other. -/
lemma reach_of_queue (hthreshold : threshold ≤ windowSize)
    (hsizes : ∀ call ∈ queue, call.2 ≤ windowSize) :
    Reach (full windowSize threshold waiters none (queue ++ rest))
      (full windowSize threshold waiters none rest) := by
  induction queue with
  | nil => exact .refl
  | cons call queue ih =>
    refine (Reach.of_next .enter rfl).trans ?_
    refine (reach_of_holder (hsizes call List.mem_cons_self) hthreshold (by simp)).trans ?_
    exact ih fun c hc => hsizes c (List.mem_cons_of_mem _ hc)

/-- The calls that are pending after unhindered steps: each comes from another task, what is ahead
of a call for no more than the window is for no more either, and no such call waits in the queue. -/
structure Orderly (S : FlowState τ) : Prop where
  nodup : (S.pending.map Prod.fst).Nodup
  ahead : S.pending.Pairwise fun c d =>
    d.2 ≤ S.controller.windowSize → c.2 ≤ S.controller.windowSize
  threshold : ∀ call ∈ S.pending, call.2 ≤ S.controller.windowSize →
    S.controller.threshold ≤ S.controller.windowSize
  entered : ∀ {call}, S.holder = some (call, .wait) → ¬ call.2 ≤ S.controller.windowSize

omit [DecidableEq τ] in
/-- **Unhindered steps leave the calls in order.** -/
theorem Orderly.step (h : S.Orderly) (hunhindered : Unhindered S event)
    (hmove : Moves S event S') : S'.Orderly := by
  cases hmove with
  | @call task size hfresh =>
    have hpending : pending { S with queue := S.queue ++ [(task, size)] } =
        S.pending ++ [(task, size)] := (List.append_assoc _ _ _).symm
    refine ⟨?_, ?_, ?_, h.entered⟩
    · rw [hpending, List.map_append]
      refine List.nodup_append.mpr ⟨h.nodup, List.nodup_singleton _, fun a ha b hb hab => ?_⟩
      obtain rfl := List.mem_singleton.mp hb
      exact hfresh (hab ▸ ha)
    · rw [hpending]
      refine List.pairwise_append.mpr ⟨h.ahead, List.pairwise_singleton _ _, fun c hc d hd => ?_⟩
      obtain rfl := List.mem_singleton.mp hd
      exact fun hsize => (hunhindered hsize).2 c hc
    · rw [hpending]
      intro c hc hsize
      obtain hc | hc := List.mem_append.mp hc
      · exact h.threshold c hc hsize
      · obtain rfl := List.mem_singleton.mp hc
        exact (hunhindered hsize).1
  | @enter call rest hholder hqueue =>
    have hpending : pending { S with holder := some (call, .check), queue := rest } =
        S.pending := by
      simp [pending, hholder, hqueue]
    refine ⟨?_, ?_, ?_, fun {_} h => by cases h⟩
    · rw [hpending]
      exact h.nodup
    · rw [hpending]
      exact h.ahead
    · rw [hpending]
      exact h.threshold
  | @advance call stage stage' waiters hholder _ hwait =>
    have hpending : pending { S with
        controller := { S.controller with waiters := waiters }
        holder := some (call, stage') } = S.pending := (pending_of_holder hholder).symm
    refine ⟨?_, ?_, ?_, fun {c} hc hsize => ?_⟩
    · rw [hpending]
      exact h.nodup
    · rw [hpending]
      exact h.ahead
    · rw [hpending]
      exact h.threshold
    · obtain ⟨rfl, rfl⟩ := Prod.mk.inj (Option.some.inj hc)
      obtain ⟨rfl, hlow⟩ := hwait.mp rfl
      exact absurd hlow (UInt64.not_lt.mpr (hunhindered _ hholder rfl hsize))
  | permit hholder _ =>
    have hnodup := h.nodup
    have hahead := h.ahead
    have hthreshold := h.threshold
    rw [pending_of_holder hholder] at hnodup hahead hthreshold
    exact ⟨hnodup.of_cons, hahead.of_cons,
      fun c hc => hthreshold c (List.mem_cons_of_mem _ hc), fun {_} h => by cases h⟩
  | drop _ => exact ⟨h.nodup, h.ahead, h.threshold, h.entered⟩

omit [DecidableEq τ] in
lemma Orderly.ahead_of_mem (h : S.Orderly) {served : List (τ × UInt64)}
    (hpending : S.pending = served ++ call :: rest) (hsize : call.2 ≤ S.controller.windowSize) :
    (∀ c ∈ served ++ [call], c.2 ≤ S.controller.windowSize) ∧ call.1 ∉ rest.map Prod.fst := by
  have hahead := h.ahead
  have hnodup := h.nodup
  rw [hpending] at hahead hnodup
  refine ⟨fun c hc => ?_, fun hmem => ?_⟩
  · obtain hc | hc := List.mem_append.mp hc
    · exact (List.pairwise_append.mp hahead).2.2 c hc call List.mem_cons_self hsize
    · obtain rfl := List.mem_singleton.mp hc
      exact hsize
  · rw [List.map_append, List.map_cons] at hnodup
    exact (List.nodup_cons.mp (List.nodup_append.mp hnodup).2.1).1 hmem

/-- **Nobody waits in vain** in a state that conserves the capacity and whose calls are in order. -/
theorem Orderly.unwedged (h : S.Orderly) (hconserved : S.Conserved) : S.Unwedged := by
  intro hpermits call hcall hsize
  obtain ⟨served, rest, hpending⟩ := List.append_of_mem hcall
  obtain ⟨hserved, hgone⟩ := h.ahead_of_mem hpending hsize
  have hthreshold := h.threshold call hcall hsize
  refine ⟨full S.controller.windowSize S.controller.threshold S.controller.waiters none rest, ?_,
    hgone⟩
  rw [hconserved.eq_full hpermits]
  cases hholder : S.holder with
  | none =>
    have hqueue : S.queue = (served ++ [call]) ++ rest := by
      simpa [pending, hholder] using hpending
    rw [hqueue]
    exact reach_of_queue hthreshold hserved
  | some holder =>
    -- the call that holds the controller is the first of them
    obtain ⟨first, stage⟩ := holder
    have hcons : (served ++ [call]) ++ rest = first :: S.queue := by
      simpa [pending, hholder] using hpending.symm
    obtain ⟨more, hmore⟩ : ∃ more, served ++ [call] = first :: more := by
      cases served with
      | nil => exact ⟨[], by rw [(List.cons.inj hcons).1]; rfl⟩
      | cons c served => exact ⟨served ++ [call], by rw [← (List.cons.inj hcons).1]; rfl⟩
    rw [hmore] at hcons hserved
    rw [← (List.cons.inj hcons).2]
    have hfirst := hserved first List.mem_cons_self
    refine (reach_of_holder hfirst hthreshold fun heq => ?_).trans
      (reach_of_queue hthreshold fun c hc => hserved c (List.mem_cons_of_mem _ hc))
    rw [heq] at hholder
    exact h.entered hholder hfirst

end Service

/-! ## What hinders a call wedges the controller -/

section Hindered

variable {S S' : FlowState τ} {event : FlowEvent τ} {call : τ × UInt64}

lemma reach_dropAll : ∃ S', Reach S S' ∧ S'.permits = [] ∧ S'.holder = S.holder ∧
    S'.queue = S.queue ∧ S'.controller.windowSize = S.controller.windowSize := by
  generalize hpermits : S.permits = permits
  induction permits generalizing S with
  | nil => exact ⟨S, .refl, hpermits, rfl, rfl, rfl⟩
  | cons size permits ih =>
    have hnext : S.next (.drop size) = some { S with
        controller := { S.controller with
          availableCapacity := S.controller.availableCapacity + size }
        permits := permits } := by
      simp [next, hpermits]
    obtain ⟨S', hrun, hS'⟩ := ih (S := { S with
        controller := { S.controller with
          availableCapacity := S.controller.availableCapacity + size }
        permits := permits }) rfl
    exact ⟨S', (Reach.of_next _ hnext).trans hrun, hS'⟩

/-- **A state wedges** when a call for no more than the window is pending for good. -/
lemma wedged_of_forall_pending (call : τ × UInt64) (hsize : call.2 ≤ S.controller.windowSize)
    (hforever : ∀ S', Reach S S' → call ∈ S'.pending) : ∃ S', Reach S S' ∧ ¬ S'.Unwedged := by
  obtain ⟨S₁, hrun, hpermits, hholder, hqueue, hwindow⟩ := reach_dropAll (S := S)
  refine ⟨S₁, hrun, fun h => ?_⟩
  obtain ⟨S₂, hrun', hgone⟩ := h hpermits call (hforever S₁ hrun) (by rwa [hwindow])
  exact hgone (List.mem_map_of_mem (hforever S₂ (hrun.trans hrun')))

lemma forall_pending {I : FlowState τ → Prop} (h : I S)
    (hstep : ∀ {S event S'}, I S → Moves S event S' → I S')
    (hpending : ∀ {S}, I S → call ∈ S.pending) : ∀ S', Reach S S' → call ∈ S'.pending :=
  fun _ hrun => hpending (hrun.invariant h fun _ hI _ hnext => hstep hI (moves_of_next hnext))

lemma forall_pending_of_wait (h : S.holder = some (call, .wait)) :
    ∀ S', Reach S S' → call ∈ S'.pending := by
  refine forall_pending (I := fun S => S.holder = some (call, .wait)) h
    (fun {S event S'} hI hmove => ?_) fun {S} hI => ?_
  · cases hmove with
    | call _ => exact hI
    | enter hholder _ =>
      rw [hholder] at hI
      cases hI
    | advance hholder hstage _ =>
      rw [hholder] at hI
      exact absurd (Prod.mk.inj (Option.some.inj hI)).2 hstage
    | permit hholder _ =>
      rw [hholder] at hI
      cases hI
    | drop _ => exact hI
  · rw [pending_of_holder hI]
    exact List.mem_cons_self

omit [DecidableEq τ] in
lemma Conserved.available_le (h : S.Conserved) :
    S.controller.availableCapacity ≤ S.controller.windowSize := by
  unfold Conserved at h
  exact UInt64.le_iff_toNat_le.mpr (by omega)

lemma forall_pending_of_threshold (hconserved : S.Conserved)
    (hlow : S.controller.windowSize < S.controller.threshold) (h : call ∈ S.queue) :
    ∀ S', Reach S S' → call ∈ S'.pending := by
  refine forall_pending (I := fun S => S.Conserved ∧
    S.controller.windowSize < S.controller.threshold ∧ (call ∈ S.queue ∨
      ∃ stage, S.holder = some (call, stage) ∧ (stage = .check ∨ stage = .wait)))
    ⟨hconserved, hlow, .inl h⟩ (fun {S event S'} hI hmove => ?_) fun {S} hI => ?_
  · obtain ⟨hconserved, hlow, hcall⟩ := hI
    cases hmove with
    | call _ => exact ⟨hconserved, hlow, hcall.imp_left fun hmem => List.mem_append_left _ hmem⟩
    | enter hholder hqueue =>
      obtain hmem | ⟨_, hholder', -⟩ := hcall
      · rw [hqueue] at hmem
        obtain rfl | hmem := List.mem_cons.mp hmem
        · exact ⟨hconserved, hlow, .inr ⟨_, rfl, .inl rfl⟩⟩
        · exact ⟨hconserved, hlow, .inl hmem⟩
      · rw [hholder] at hholder'
        cases hholder'
    | advance hholder hstage hwait =>
      obtain hmem | ⟨_, hholder', hwhere⟩ := hcall
      · exact ⟨hconserved, hlow, .inl hmem⟩
      · obtain ⟨rfl, rfl⟩ := Prod.mk.inj (Option.some.inj (hholder.symm.trans hholder'))
        have havailable := UInt64.lt_of_le_of_lt hconserved.available_le hlow
        exact ⟨hconserved, hlow, .inr ⟨_, rfl, .inr
          (hwait.mpr ⟨hwhere.resolve_right hstage, havailable⟩)⟩⟩
    | permit hholder hsize =>
      obtain hmem | ⟨_, hholder', hwhere⟩ := hcall
      · exact ⟨hconserved.take hsize none, hlow, .inl hmem⟩
      · obtain ⟨rfl, rfl⟩ := Prod.mk.inj (Option.some.inj (hholder.symm.trans hholder'))
        obtain hcheck | hwait := hwhere
        · cases hcheck
        · cases hwait
    | drop hmem => exact ⟨hconserved.give hmem, hlow, hcall⟩
  · obtain ⟨-, -, hqueue | ⟨stage, hholder, -⟩⟩ := hI
    · exact List.mem_append_right _ hqueue
    · rw [pending_of_holder hholder]
      exact List.mem_cons_self

lemma forall_pending_of_large {large : τ × UInt64} (ahead behind : List (τ × UInt64))
    (hconserved : S.Conserved) (hlarge : S.controller.windowSize < large.2)
    (h : S.pending = ahead ++ large :: behind) (hmem : call ∈ behind) :
    ∀ S', Reach S S' → call ∈ S'.pending := by
  refine forall_pending (I := fun S => S.Conserved ∧ S.controller.windowSize < large.2 ∧
    ∃ ahead behind, S.pending = ahead ++ large :: behind ∧ call ∈ behind)
    ⟨hconserved, hlarge, _, _, h, hmem⟩ (fun {S event S'} hI hmove => ?_) fun {S} hI => ?_
  · obtain ⟨hconserved, hlarge, ahead, behind, hpending, hmem⟩ := hI
    cases hmove with
    | @call task size _ =>
      refine ⟨hconserved, hlarge, ahead, behind ++ [(task, size)], ?_, List.mem_append_left _ hmem⟩
      rw [← List.cons_append, ← List.append_assoc, ← hpending]
      exact (List.append_assoc _ _ _).symm
    | enter hholder hqueue =>
      refine ⟨hconserved, hlarge, ahead, behind, ?_, hmem⟩
      rw [← hpending]
      simp [pending, hholder, hqueue]
    | advance hholder _ _ =>
      refine ⟨hconserved, hlarge, ahead, behind, ?_, hmem⟩
      rw [← hpending]
      exact (pending_of_holder hholder).symm
    | @permit first hholder hsize =>
      -- the call that gets its permit is ahead of the large one
      rw [pending_of_holder hholder] at hpending
      cases ahead with
      | nil =>
        obtain ⟨rfl, -⟩ := List.cons.inj hpending
        exact absurd (UInt64.le_trans hsize hconserved.available_le) (UInt64.not_le.mpr hlarge)
      | cons c ahead =>
        exact ⟨hconserved.take hsize none, hlarge, ahead, behind, (List.cons.inj hpending).2, hmem⟩
    | drop hmem' => exact ⟨hconserved.give hmem', hlarge, ahead, behind, hpending, hmem⟩
  · obtain ⟨-, -, ahead, behind, hpending, hmem⟩ := hI
    rw [hpending]
    exact List.mem_append_right _ (List.mem_cons_of_mem _ hmem)

/-- **A step that is hindered leads to a wedge**: when the permits are dropped, some call for no
more than the window waits in vain. -/
theorem wedged_of_hindered (hconserved : S.Conserved) (hnext : S.next event = some S')
    (h : ¬ Unhindered S event) : ∃ S'', Reach S' S'' ∧ ¬ S''.Unwedged := by
  have hmove := moves_of_next hnext
  have hconserved' := hconserved.step hmove
  cases hmove with
  | @call task size hfresh =>
    obtain ⟨hsize, hbad⟩ := Classical.not_imp.mp h
    refine wedged_of_forall_pending (task, size) hsize ?_
    by_cases hthreshold : S.controller.threshold ≤ S.controller.windowSize
    · obtain ⟨large, hmem, hlarge⟩ : ∃ large ∈ S.pending, ¬ large.2 ≤ S.controller.windowSize := by
        by_contra hnone
        refine hbad ⟨hthreshold, fun c hc => ?_⟩
        by_contra hlarge
        exact hnone ⟨c, hc, hlarge⟩
      obtain ⟨ahead, behind, hpending⟩ := List.append_of_mem hmem
      refine forall_pending_of_large ahead (behind ++ [(task, size)]) hconserved'
        (UInt64.not_le.mp hlarge) ?_ (List.mem_append_right _ List.mem_cons_self)
      rw [← List.cons_append, ← List.append_assoc, ← hpending]
      exact (List.append_assoc _ _ _).symm
    · exact forall_pending_of_threshold hconserved' (UInt64.not_le.mp hthreshold)
        (List.mem_append_right _ List.mem_cons_self)
  | enter hholder hqueue => exact absurd trivial h
  | @advance call stage stage' waiters hholder hstage hwait =>
    have hlow : stage = .check ∧ call.2 ≤ S.controller.windowSize ∧
        S.controller.availableCapacity < S.controller.threshold := by
      by_contra hnot
      refine h fun holder hmem hcheck hsize => ?_
      obtain rfl := Option.some.inj (hholder.symm.trans hmem)
      by_contra hlow
      exact hnot ⟨hcheck, hsize, UInt64.not_le.mp hlow⟩
    obtain ⟨hcheck, hsize, hlow⟩ := hlow
    refine wedged_of_forall_pending call hsize (forall_pending_of_wait ?_)
    rw [hwait.mpr ⟨hcheck, hlow⟩]
  | permit hholder hsize =>
    refine absurd (fun holder hmem hcheck => ?_) h
    obtain rfl := Option.some.inj (hholder.symm.trans hmem)
    cases hcheck
  | drop hmem => exact absurd trivial h

end Hindered

/-- **Flow control conserves its capacity**, and it does not wedge in runs of unhindered steps. A
step that is hindered leads to a wedge.

**Proof sketch.** Along a run of unhindered steps no call for more than the window is ahead of one
for no more, and none of the latter waits in the queue for a message. When all permits have been
dropped, the whole window is available, so the calls up to any of the latter get their permits one
after the other. -/
theorem unwedged_of_run {S : FlowState τ} {windowSize threshold : UInt64} :
    (Run (fun _ _ => True) (unused (.idle windowSize threshold)) S → S.Conserved) ∧
    (Run Unhindered (unused (.idle windowSize threshold)) S → S.Unwedged ∧
      ∀ event S', S.next event = some S' → ¬ Unhindered S event →
        ∃ S'', Reach S' S'' ∧ ¬ S''.Unwedged) := by
  have hidle : Conserved (unused (.idle windowSize threshold) : FlowState τ) := rfl
  refine ⟨fun hrun => conserved_of_run hrun hidle, fun hrun => ?_⟩
  have hconserved := conserved_of_run hrun hidle
  have horderly : S.Orderly := by
    refine hrun.invariant (I := Orderly) ⟨List.nodup_nil, List.Pairwise.nil, fun _ hmem => ?_,
      fun {_} hholder => ?_⟩ fun _ hI hC hnext => hI.step hC (moves_of_next hnext)
    · cases hmem
    · cases hholder
  exact ⟨horderly.unwedged hconserved, fun _ _ => wedged_of_hindered hconserved⟩

/-! ## The second of two calls -/

instance (S : FlowState τ) (event : FlowEvent τ) : Decidable (Unhindered S event) :=
  match event with
  | .call _ size => inferInstanceAs (Decidable (size ≤ S.controller.windowSize → _))
  | .advance => inferInstanceAs (Decidable (∀ holder ∈ S.holder, _))
  | .enter => inferInstanceAs (Decidable True)
  | .drop _ => inferInstanceAs (Decidable True)

/-- A call that gets its permit, or waits. -/
def request (task : Fin 2) (size : UInt64) : List (FlowEvent (Fin 2)) :=
  [.call task size, .enter, .advance, .advance, .advance]

/-- A call after two permits have been dropped. -/
theorem unwedged_of_run_twoPermits : ∃ S : FlowState (Fin 2),
    Run Unhindered (unused (.idle 1000 800)) S ∧ S.pending = [(0, 300)] ∧ S.permits = [] ∧
      S.Conserved ∧ S.Unwedged := by
  have hexec : (Runs.exec next Unhindered
      (request 0 100 ++ request 1 100 ++ [.drop 100, .drop 100, .call 0 300])
      (unused (.idle 1000 800))).map (fun S => (S.pending, S.permits)) =
        some ([((0 : Fin 2), 300)], []) := by
    decide +kernel
  obtain ⟨S, hS, hfacts⟩ := Option.map_eq_some_iff.mp hexec
  obtain ⟨hpending, hpermits⟩ := Prod.mk.inj hfacts
  have hrun := Runs.run_of_exec hS
  have hany := Runs.Run.strengthen hrun trivial (fun _ _ _ => trivial) fun _ _ _ => trivial
  exact ⟨S, hrun, hpending, hpermits, unwedged_of_run.1 hany.1, (unwedged_of_run.2 hrun).1⟩

/-- **The second of two calls wedges** the controller, though the permit of the first is dropped. -/
theorem not_unwedged_twoCalls : ¬ ∀ S : FlowState (Fin 2),
    Run (fun _ _ => True) (unused (.idle 1000 800)) S → S.Conserved ∧ S.Unwedged := by
  have hexec : (Runs.exec next (fun _ _ => True)
      (request 0 300 ++ [.call 1 400, .enter, .advance, .drop 300])
      (unused (.idle 1000 800))).map (fun S => (S.holder, S.permits, S.controller.windowSize)) =
        some (some (((1 : Fin 2), 400), .wait), [], 1000) := by
    decide +kernel
  intro h
  obtain ⟨S, hS, hfacts⟩ := Option.map_eq_some_iff.mp hexec
  simp only [Prod.mk.injEq] at hfacts
  obtain ⟨hholder, hpermits, hwindow⟩ := hfacts
  obtain ⟨-, hunwedged⟩ := h S (Runs.run_of_exec hS)
  have hmem : ((1 : Fin 2), (400 : UInt64)) ∈ S.pending := by simp [pending, hholder]
  obtain ⟨S', hrun, hgone⟩ := hunwedged hpermits _ hmem (by rw [hwindow]; decide)
  exact hgone (List.mem_map_of_mem (forall_pending_of_wait hholder S' hrun))

end FlowState

end Landropic
