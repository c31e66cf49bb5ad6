import Landropic.Foundations.Answers
import Landropic.Sync.Orchestrator

set_option autoImplicit false

/-!
# The limit and the priorities of transfers

The scheduler counts the transfers in flight, and does not know which they are. So a transfer that
is completed twice makes room for one too many. A request that is scheduled again has the new
priority only, also if that is the lower one.

## Main definitions

* `TransferScheduler.Ledger` — what has been scheduled, handed out and completed.
* `TransferScheduler.Respects` — the limit and the priorities are respected.
* `TransferScheduler.Careful` — the calls after which they stay so.
* `SyncOrchestrator.Dispatch.next` — the calls of an orchestrator one after another.

## Main results

* `TransferScheduler.careful_iff` — after any other call they need not stay so.
* `SyncOrchestrator.Dispatch.respects_of_run` — the same of an orchestrator.

## Design

A call of an orchestrator runs to its end before the next one comes. Its effect on the scheduler is
that of one call of the scheduler, so what is proved of the scheduler is carried over.
-/

namespace Landropic

namespace TransferScheduler

/-! ## What a scheduler is asked to do -/

/-- What has become of the requests of a scheduler. -/
structure Ledger where
  /-- Every request that was scheduled, with the priority it was scheduled with. -/
  scheduled : List (TransferRequest × TransferPriority)
  /-- What was handed out and is not completed. -/
  inFlight : List TransferRequest
  /-- What was handed out and has not been scheduled since. -/
  handedOut : Finset TransferRequest

namespace Ledger

/-- Nothing has been scheduled. -/
def empty : Ledger := ⟨[], [], ∅⟩

variable (ledger : Ledger)

/-- A request is scheduled. -/
def schedule (request : TransferRequest) (priority : TransferPriority) : Ledger :=
  { ledger with
    scheduled := (request, priority) :: ledger.scheduled
    handedOut := ledger.handedOut.erase request }

/-- A request is handed out, if there is one. -/
def handOut : Option TransferRequest → Ledger
  | none => ledger
  | some request => { ledger with
      inFlight := request :: ledger.inFlight
      handedOut := insert request ledger.handedOut }

/-- A transfer is of a chunk from a peer. -/
def IsOf (peerId chunkHash : Text) (request : TransferRequest) : Prop :=
  request.peerId = peerId ∧ request.chunkHash = chunkHash

instance (peerId chunkHash : Text) (request : TransferRequest) :
    Decidable (IsOf peerId chunkHash request) := inferInstanceAs (Decidable (_ ∧ _))

/-- A transfer of a chunk from a peer is completed, if there is one in flight. -/
def complete (peerId chunkHash : Text) : Ledger :=
  { ledger with inFlight := ledger.inFlight.eraseP fun request => IsOf peerId chunkHash request }

end Ledger

/-- A scheduler, and what has become of its requests. -/
structure Tracked where
  scheduler : TransferScheduler
  ledger : Ledger

/-- A call of a scheduler. -/
inductive Call
  | schedule (request : TransferRequest) (priority : TransferPriority)
  | nextTransfer (order : IterOrder TransferRequest)
  | completeTransfer (peerId chunkHash : Text)

namespace Tracked

/-- A scheduler without transfers. -/
def new (maxConcurrent : ℕ) : Tracked := ⟨.new maxConcurrent, .empty⟩

/-- What a call does. -/
def step (v : Tracked) : Call → Tracked
  | .schedule request priority =>
    ⟨v.scheduler.schedule request priority, v.ledger.schedule request priority⟩
  | .nextTransfer order =>
    ⟨(v.scheduler.nextTransfer order).2, v.ledger.handOut (v.scheduler.nextTransfer order).1⟩
  | .completeTransfer peerId chunkHash =>
    ⟨v.scheduler.completeTransfer, v.ledger.complete peerId chunkHash⟩

/-- Every call returns. -/
def next (v : Tracked) (call : Call) : Option Tracked := some (v.step call)

end Tracked

/-- **The limit and the priorities are respected**: no more transfers are in flight than there may
be; and whatever is handed out next is queued with the highest priority with which any queued
request was ever scheduled, and was scheduled since it was last handed out. -/
structure Respects (v : Tracked) : Prop where
  limit : v.ledger.inFlight.length ≤ v.scheduler.maxConcurrent
  highest : ∀ order request, (v.scheduler.nextTransfer order).1 = some request →
    ∃ priority, v.scheduler.queue.lookup request = some priority ∧
      (request, priority) ∈ v.ledger.scheduled ∧
      ∀ other ∈ v.scheduler.queue, ∀ priority', (other, priority') ∈ v.ledger.scheduled →
        priority'.toNat ≤ priority.toNat
  once : ∀ order request, (v.scheduler.nextTransfer order).1 = some request →
    request ∉ v.ledger.handedOut

/-- **A careful call**: a request is scheduled with no lower priority than it ever was, unless
nothing is ever handed out; and what is completed is in flight, unless nothing is. -/
def Careful (v : Tracked) : Call → Prop
  | .schedule request priority => 0 < v.scheduler.maxConcurrent →
      ∀ priority', (request, priority') ∈ v.ledger.scheduled → priority'.toNat ≤ priority.toNat
  | .nextTransfer _ => True
  | .completeTransfer peerId chunkHash =>
    v.ledger.inFlight = [] ∨ ∃ request ∈ v.ledger.inFlight, Ledger.IsOf peerId chunkHash request

lemma toNat_le_critical (priority : TransferPriority) :
    priority.toNat ≤ TransferPriority.critical.toNat := by
  cases priority <;> decide

instance (v : Tracked) (call : Call) : Decidable (Careful v call) :=
  match call with
  | .schedule request priority =>
    decidable_of_iff (0 < v.scheduler.maxConcurrent → ∀ entry ∈ v.ledger.scheduled,
        entry.1 = request → entry.2.toNat ≤ priority.toNat)
      ⟨fun h hpos _ hmem => h hpos _ hmem rfl,
        fun h hpos _ hmem heq => h hpos _ (heq ▸ hmem)⟩
  | .nextTransfer _ => inferInstanceAs (Decidable True)
  | .completeTransfer _ _ => inferInstanceAs (Decidable (_ ∨ _))

/-! ## What is handed out -/

section Scheduler

variable {scheduler : TransferScheduler} {order : IterOrder TransferRequest}
  {request : TransferRequest}

lemma lookup_of_top (h : scheduler.top order = some request) :
    ∃ priority, scheduler.queue.lookup request = some priority ∧
      ∀ other priority', scheduler.queue.lookup other = some priority' →
        priority'.toNat ≤ priority.toNat := by
  obtain ⟨⟨request, priority⟩, hfind, rfl⟩ := Option.map_eq_some_iff.mp h
  have hmax : ∀ other ∈ order.entries scheduler.queue, other.2.toNat ≤ priority.toNat := by
    simpa using List.find?_some hfind
  refine ⟨priority, order.mem_entries.mp (List.mem_of_find?_eq_some hfind), ?_⟩
  intro other priority' hother
  exact hmax (other, priority') (order.mem_entries.mpr hother)

lemma exists_top (order : IterOrder TransferRequest) (h : request ∈ scheduler.queue) :
    ∃ first, scheduler.top order = some first := by
  obtain ⟨priority, hlookup⟩ := Finmap.mem_iff.mp h
  have hmem : (request, priority) ∈ (order.entries scheduler.queue).toFinset :=
    List.mem_toFinset.mpr (order.mem_entries.mpr hlookup)
  obtain ⟨first, hfirst, hmax⟩ :=
    Finset.exists_max_image _ (fun entry => entry.2.toNat) ⟨_, hmem⟩
  have hsome : ((order.entries scheduler.queue).find? fun entry =>
      ∀ other ∈ order.entries scheduler.queue, other.2.toNat ≤ entry.2.toNat).isSome = true := by
    refine List.find?_isSome.mpr ⟨first, List.mem_toFinset.mp hfirst, decide_eq_true ?_⟩
    intro other hother
    exact hmax other (List.mem_toFinset.mpr hother)
  obtain ⟨entry, hentry⟩ := Option.isSome_iff_exists.mp hsome
  exact ⟨entry.1, by rw [top, hentry, Option.map_some]⟩

/-- **Nothing is handed out, or what is on top.** -/
lemma nextTransfer_cases (scheduler : TransferScheduler) (order : IterOrder TransferRequest) :
    scheduler.nextTransfer order = (none, scheduler) ∨
    ∃ request, scheduler.activeTransfers < scheduler.maxConcurrent ∧
      scheduler.top order = some request ∧
      scheduler.nextTransfer order = (some request, { scheduler with
        queue := scheduler.queue.erase request
        activeTransfers := scheduler.activeTransfers + 1 }) := by
  unfold nextTransfer
  by_cases hfull : scheduler.activeTransfers ≥ scheduler.maxConcurrent
  · rw [if_pos hfull]
    exact .inl rfl
  · rw [if_neg hfull]
    cases htop : scheduler.top order with
    | none => exact .inl rfl
    | some request => exact .inr ⟨request, not_le.mp hfull, rfl, rfl⟩

lemma nextTransfer_of_top (hroom : scheduler.activeTransfers < scheduler.maxConcurrent)
    (htop : scheduler.top order = some request) :
    scheduler.nextTransfer order = (some request, { scheduler with
      queue := scheduler.queue.erase request
      activeTransfers := scheduler.activeTransfers + 1 }) := by
  unfold nextTransfer
  rw [if_neg (not_le.mpr hroom), htop]

variable (scheduler)

@[simp] lemma activeTransfers_completeTransfer :
    scheduler.completeTransfer.activeTransfers = scheduler.activeTransfers - 1 := by
  unfold completeTransfer
  split
  · rfl
  · omega

@[simp] lemma queue_completeTransfer : scheduler.completeTransfer.queue = scheduler.queue := by
  unfold completeTransfer
  split <;> rfl

@[simp] lemma maxConcurrent_completeTransfer :
    scheduler.completeTransfer.maxConcurrent = scheduler.maxConcurrent := by
  unfold completeTransfer
  split <;> rfl

end Scheduler

/-! ## Careful calls -/

/-- The transfers in flight are counted, each queued request has the highest priority with which it
was ever scheduled, and none was handed out since. -/
structure Sound (v : Tracked) : Prop where
  active : v.scheduler.activeTransfers = v.ledger.inFlight.length
  limit : v.ledger.inFlight.length ≤ v.scheduler.maxConcurrent
  scheduled : ∀ request priority, v.scheduler.queue.lookup request = some priority →
    (request, priority) ∈ v.ledger.scheduled
  highest : 0 < v.scheduler.maxConcurrent → ∀ request priority,
    v.scheduler.queue.lookup request = some priority →
      ∀ priority', (request, priority') ∈ v.ledger.scheduled → priority'.toNat ≤ priority.toNat
  notHandedOut : ∀ request ∈ v.scheduler.queue, request ∉ v.ledger.handedOut

section Careful

variable {v v' : Tracked} {call : Call}

lemma sound_new (maxConcurrent : ℕ) : Sound (.new maxConcurrent) where
  active := rfl
  limit := Nat.zero_le _
  scheduled _ _ h := by cases h
  highest _ _ _ h := by cases h
  notHandedOut _ _ h := absurd h (Finset.notMem_empty _)

lemma Sound.respects (h : Sound v) : Respects v := by
  have hnext : ∀ order request, (v.scheduler.nextTransfer order).1 = some request →
      v.scheduler.activeTransfers < v.scheduler.maxConcurrent ∧
        v.scheduler.top order = some request := by
    intro order request hrequest
    rcases v.scheduler.nextTransfer_cases order with hnone | ⟨first, hroom, htop, hfirst⟩
    · rw [hnone] at hrequest
      cases hrequest
    · rw [hfirst] at hrequest
      exact ⟨hroom, htop.trans hrequest⟩
  refine ⟨h.limit, fun order request hrequest => ?_, fun order request hrequest => ?_⟩
  · obtain ⟨hroom, htop⟩ := hnext order request hrequest
    obtain ⟨priority, hlookup, hmax⟩ := lookup_of_top htop
    refine ⟨priority, hlookup, h.scheduled _ _ hlookup, fun other hother priority' hscheduled => ?_⟩
    obtain ⟨current, hcurrent⟩ := Finmap.mem_iff.mp hother
    exact (h.highest (by omega) _ _ hcurrent _ hscheduled).trans (hmax _ _ hcurrent)
  · obtain ⟨-, htop⟩ := hnext order request hrequest
    obtain ⟨priority, hlookup, -⟩ := lookup_of_top htop
    exact h.notHandedOut _ (Finmap.mem_iff.mpr ⟨priority, hlookup⟩)

lemma length_complete {ledger : Ledger} {peerId chunkHash : Text} {request : TransferRequest}
    (hmem : request ∈ ledger.inFlight) (hof : Ledger.IsOf peerId chunkHash request) :
    (ledger.complete peerId chunkHash).inFlight.length + 1 = ledger.inFlight.length := by
  rw [Ledger.complete, List.length_eraseP_of_mem hmem (decide_eq_true hof)]
  exact Nat.sub_add_cancel (List.length_pos_of_mem hmem)

lemma Sound.schedule {request : TransferRequest} {priority : TransferPriority} (h : Sound v)
    (hcareful : Careful v (.schedule request priority)) :
    Sound (v.step (.schedule request priority)) where
  active := h.active
  limit := h.limit
  scheduled other current hcurrent := by
    simp only [Tracked.step, TransferScheduler.schedule, Ledger.schedule] at hcurrent ⊢
    obtain ⟨rfl, rfl⟩ | ⟨-, hcurrent⟩ := HashMap.lookup_insert_cases hcurrent
    · exact List.mem_cons_self
    · exact List.mem_cons_of_mem _ (h.scheduled _ _ hcurrent)
  highest hpos other current hcurrent priority' hscheduled := by
    simp only [Tracked.step, TransferScheduler.schedule, Ledger.schedule] at hcurrent hscheduled
    obtain ⟨rfl, rfl⟩ | ⟨hother, hcurrent⟩ := HashMap.lookup_insert_cases hcurrent
    · rcases List.mem_cons.mp hscheduled with heq | hscheduled
      · rw [(Prod.mk.inj heq).2]
      · exact hcareful hpos _ hscheduled
    · rcases List.mem_cons.mp hscheduled with heq | hscheduled
      · exact absurd (Prod.mk.inj heq).1 hother
      · exact h.highest hpos _ _ hcurrent _ hscheduled
  notHandedOut other hother := by
    simp only [Tracked.step, TransferScheduler.schedule, Ledger.schedule, Finmap.mem_insert,
      Finset.mem_erase] at hother ⊢
    rcases hother with rfl | hother
    · exact fun hmem => hmem.1 rfl
    · exact fun hmem => h.notHandedOut _ hother hmem.2

lemma Sound.nextTransfer (h : Sound v) (order : IterOrder TransferRequest) :
    Sound (v.step (.nextTransfer order)) := by
  rcases v.scheduler.nextTransfer_cases order with hnone | ⟨request, hroom, -, hsome⟩
  · rw [Tracked.step, hnone]
    exact h
  · rw [Tracked.step, hsome]
    exact
      { active := by simp [Ledger.handOut, h.active]
        limit := by
          have hactive := h.active
          simp only [Ledger.handOut, List.length_cons]
          omega
        scheduled := fun other priority hlookup =>
          h.scheduled _ _ (HashMap.of_lookup_erase hlookup).2
        highest := fun hpos other priority hlookup =>
          h.highest hpos _ _ (HashMap.of_lookup_erase hlookup).2
        notHandedOut := fun other hother hmem => by
          obtain ⟨priority, hlookup⟩ := Finmap.mem_iff.mp hother
          obtain ⟨hother, hlookup⟩ := HashMap.of_lookup_erase hlookup
          rcases Finset.mem_insert.mp hmem with heq | hmem
          · exact hother heq
          · exact h.notHandedOut _ (Finmap.mem_iff.mpr ⟨priority, hlookup⟩) hmem }

lemma Sound.completeTransfer {peerId chunkHash : Text} (h : Sound v)
    (hcareful : Careful v (.completeTransfer peerId chunkHash)) :
    Sound (v.step (.completeTransfer peerId chunkHash)) := by
  have hqueue := v.scheduler.queue_completeTransfer
  have hmax := v.scheduler.maxConcurrent_completeTransfer
  have hactive := h.active
  have hlimit := h.limit
  have hlength : (v.ledger.complete peerId chunkHash).inFlight.length =
      v.ledger.inFlight.length - 1 := by
    rcases hcareful with hnil | ⟨request, hmem, hof⟩
    · simp [Ledger.complete, hnil]
    · have hone := length_complete hmem hof
      omega
  exact
    { active := by
        simp only [Tracked.step, hlength, activeTransfers_completeTransfer]
        omega
      limit := by
        simp only [Tracked.step, hlength, maxConcurrent_completeTransfer]
        omega
      scheduled := fun request priority hlookup => h.scheduled _ _ (hqueue ▸ hlookup)
      highest := fun hpos request priority hlookup =>
        h.highest (hmax ▸ hpos) _ _ (hqueue ▸ hlookup)
      notHandedOut := fun request hmem => h.notHandedOut _ (hqueue ▸ hmem) }

/-- **A careful call** keeps the transfers counted and the priorities the highest. -/
theorem Sound.step (h : Sound v) (hcareful : Careful v call) : Sound (v.step call) := by
  cases call with
  | schedule request priority => exact h.schedule hcareful
  | nextTransfer order => exact h.nextTransfer order
  | completeTransfer peerId chunkHash => exact h.completeTransfer hcareful

/-- **In every run of careful calls** the limit and the priorities are respected. -/
theorem Sound.of_run (h : Sound v) (hrun : Runs.Run Tracked.next Careful v v') : Sound v' :=
  hrun.invariant h fun {v₁ call v₂} _ hsound hcareful hnext => by
    obtain rfl := Option.some.inj hnext
    exact hsound.step hcareful

end Careful

/-! ## Careless calls -/

section Careless

variable {v : Tracked} {call : Call}

lemma run_cons {v' : Tracked} (call : Call) (hcareful : Careful v call)
    (hrun : Runs.Run Tracked.next Careful (v.step call) v') : Runs.Run Tracked.next Careful v v' :=
  .head ⟨call, hcareful, rfl⟩ hrun

/-- What is on top is handed out. -/
lemma step_nextTransfer {order : IterOrder TransferRequest} {first : TransferRequest}
    (hroom : v.scheduler.activeTransfers < v.scheduler.maxConcurrent)
    (htop : v.scheduler.top order = some first) :
    v.step (.nextTransfer order) =
      ⟨{ v.scheduler with
          queue := v.scheduler.queue.erase first
          activeTransfers := v.scheduler.activeTransfers + 1 },
        v.ledger.handOut (some first)⟩ := by
  rw [Tracked.step, nextTransfer_of_top hroom htop]

/-- The transfer that was handed out last is completed. -/
lemma step_completeTransfer {first : TransferRequest} {rest : List TransferRequest}
    (hflight : v.ledger.inFlight = first :: rest)
    (hpos : 0 < v.scheduler.activeTransfers) :
    Careful v (.completeTransfer first.peerId first.chunkHash) ∧
    v.step (.completeTransfer first.peerId first.chunkHash) =
      ⟨{ v.scheduler with activeTransfers := v.scheduler.activeTransfers - 1 },
        { v.ledger with inFlight := rest }⟩ := by
  have hof : Ledger.IsOf first.peerId first.chunkHash first := ⟨rfl, rfl⟩
  have herase : ((first :: rest).eraseP fun request =>
      decide (Ledger.IsOf first.peerId first.chunkHash request)) = rest :=
    List.eraseP_cons_of_pos (decide_eq_true hof)
  constructor
  · exact Or.inr ⟨first, hflight ▸ List.mem_cons_self, hof⟩
  · rw [Tracked.step, completeTransfer, if_pos hpos, Ledger.complete, hflight, herase]

/-- **If fewer transfers are counted than are in flight** then too many may be in flight at last.

**Proof sketch.** Transfers are scheduled and handed out until no more are. -/
lemma exists_overfull (order : IterOrder TransferRequest) (request : TransferRequest)
    (hcounted : v.scheduler.activeTransfers < v.ledger.inFlight.length)
    (hle : v.scheduler.activeTransfers ≤ v.scheduler.maxConcurrent) :
    ∃ v', Runs.Run Tracked.next Careful v v' ∧ ¬ Respects v' := by
  obtain ⟨room, hroom⟩ := Nat.exists_eq_add_of_le hle
  induction room generalizing v with
  | zero =>
    refine ⟨v, .refl, fun hrespects => ?_⟩
    have hlimit := hrespects.limit
    omega
  | succ room ih =>
    have hqueued : request ∈ (v.step (.schedule request .critical)).scheduler.queue :=
      Finmap.mem_insert.mpr (.inl rfl)
    obtain ⟨first, htop⟩ := exists_top order hqueued
    have hless : (v.step (.schedule request .critical)).scheduler.activeTransfers <
        (v.step (.schedule request .critical)).scheduler.maxConcurrent := by
      show v.scheduler.activeTransfers < v.scheduler.maxConcurrent
      omega
    have hstep := step_nextTransfer hless htop
    have hcareful : Careful v (.schedule request .critical) :=
      fun _ priority _ => toNat_le_critical priority
    have hagain : ∃ v', Runs.Run Tracked.next Careful
        ((v.step (.schedule request .critical)).step (.nextTransfer order)) v' ∧ ¬ Respects v' := by
      rw [hstep]
      apply ih
      · show v.scheduler.activeTransfers + 1 < v.ledger.inFlight.length + 1
        omega
      · show v.scheduler.activeTransfers + 1 ≤ v.scheduler.maxConcurrent
        omega
      · show v.scheduler.maxConcurrent = v.scheduler.activeTransfers + 1 + room
        omega
    obtain ⟨v', hrun, hnot⟩ := hagain
    exact ⟨v', run_cons _ hcareful (run_cons (.nextTransfer order) trivial hrun), hnot⟩

/-- **If a queued request has a lower priority than it once had** then the priorities may not be
respected at last.

**Proof sketch.** As long as the priorities are respected another request is handed out. It is
completed at once, and there are fewer requests in the queue. -/
lemma exists_outOfOrder (order : IterOrder TransferRequest) {request : TransferRequest}
    {priority priority' : TransferPriority}
    (hroom : v.scheduler.activeTransfers < v.scheduler.maxConcurrent)
    (hlookup : v.scheduler.queue.lookup request = some priority)
    (hscheduled : (request, priority') ∈ v.ledger.scheduled)
    (hlower : priority.toNat < priority'.toNat) :
    ∃ v', Runs.Run Tracked.next Careful v v' ∧ ¬ Respects v' := by
  induction hcard : v.scheduler.queue.keys.card using Nat.strong_induction_on generalizing v with
  | h card ih =>
    by_cases hrespects : Respects v
    · have hqueued : request ∈ v.scheduler.queue := Finmap.mem_iff.mpr ⟨priority, hlookup⟩
      obtain ⟨first, htop⟩ := exists_top order hqueued
      obtain ⟨current, hcurrent, -, hhighest⟩ := hrespects.highest order first (by
        rw [nextTransfer_of_top hroom htop])
      have hle := hhighest request hqueued priority' hscheduled
      have hne : request ≠ first := by
        rintro rfl
        rw [hlookup, Option.some.injEq] at hcurrent
        subst hcurrent
        omega
      have hfirst : first ∈ v.scheduler.queue.keys :=
        Finmap.mem_keys.mpr (Finmap.mem_iff.mpr ⟨current, hcurrent⟩)
      have hhand := step_nextTransfer hroom htop
      have hflight : (v.step (.nextTransfer order)).ledger.inFlight =
          first :: v.ledger.inFlight := by
        rw [hhand]
        rfl
      obtain ⟨hcareful, hdone⟩ := step_completeTransfer hflight (by
        rw [hhand]
        exact Nat.succ_pos _)
      have hagain : ∃ v', Runs.Run Tracked.next Careful
          ((v.step (.nextTransfer order)).step
            (.completeTransfer first.peerId first.chunkHash)) v' ∧ ¬ Respects v' := by
        rw [hdone, hhand]
        refine ih _ ?_ ?_ ?_ hscheduled rfl
        · show (v.scheduler.queue.erase first).keys.card < card
          rw [Finmap.keys_erase, ← hcard]
          exact Finset.card_erase_lt_of_mem hfirst
        · exact hroom
        · exact (Finmap.lookup_erase_ne hne).trans hlookup
      obtain ⟨v', hrun, hnot⟩ := hagain
      exact ⟨v', run_cons (.nextTransfer order) trivial (run_cons _ hcareful hrun), hnot⟩
    · exact ⟨v, .refl, hrespects⟩

/-- **After a careless call** the limit or the priorities may not be respected at last. -/
lemma exists_of_not_careful (order : IterOrder TransferRequest) (request₀ : TransferRequest)
    (h : Sound v) (hcareless : ¬ Careful v call) :
    ∃ v', Runs.Run Tracked.next Careful (v.step call) v' ∧ ¬ Respects v' := by
  have hactive := h.active
  have hlimit := h.limit
  cases call with
  | nextTransfer order => exact absurd trivial hcareless
  | completeTransfer peerId chunkHash =>
    rw [Careful] at hcareless
    push Not at hcareless
    obtain ⟨hsome, hnone⟩ := hcareless
    have hpos := List.length_pos_iff.mpr hsome
    have hkept : (v.ledger.complete peerId chunkHash).inFlight = v.ledger.inFlight :=
      List.eraseP_of_forall_not fun request hmem => by simpa using hnone request hmem
    refine exists_overfull order request₀ ?_ ?_
    · simp only [Tracked.step, activeTransfers_completeTransfer, hkept]
      omega
    · simp only [Tracked.step, activeTransfers_completeTransfer, maxConcurrent_completeTransfer]
      omega
  | schedule request priority =>
    rw [Careful] at hcareless
    push Not at hcareless
    obtain ⟨hpos, priority', hscheduled, hlower⟩ := hcareless
    have hlookup : (v.step (.schedule request priority)).scheduler.queue.lookup request =
        some priority := Finmap.lookup_insert _
    have hscheduled' : (request, priority') ∈
        (v.step (.schedule request priority)).ledger.scheduled := List.mem_cons_of_mem _ hscheduled
    by_cases hroom : v.scheduler.activeTransfers < v.scheduler.maxConcurrent
    · exact exists_outOfOrder order hroom hlookup hscheduled' hlower
    · -- as many transfers are in flight as may be, so one is completed first
      obtain ⟨first, rest, hflight⟩ := List.exists_cons_of_length_pos
        (show 0 < v.ledger.inFlight.length by omega)
      have hflight' : (v.step (.schedule request priority)).ledger.inFlight = first :: rest :=
        hflight
      obtain ⟨hcareful, hdone⟩ := step_completeTransfer hflight'
        (show 0 < v.scheduler.activeTransfers by omega)
      have hagain : ∃ v', Runs.Run Tracked.next Careful ((v.step (.schedule request priority)).step
          (.completeTransfer first.peerId first.chunkHash)) v' ∧ ¬ Respects v' := by
        rw [hdone]
        refine exists_outOfOrder order ?_ hlookup hscheduled' hlower
        show v.scheduler.activeTransfers - 1 < v.scheduler.maxConcurrent
        omega
      obtain ⟨v', hrun, hnot⟩ := hagain
      exact ⟨v', run_cons _ hcareful hrun, hnot⟩

/-- **The careful calls are those after which the limit and the priorities stay respected**, as long
as further calls are careful. -/
theorem careful_iff (order : IterOrder TransferRequest) (request₀ : TransferRequest)
    (h : Sound v) : Careful v call ↔
      ∀ v', Runs.Run Tracked.next Careful (v.step call) v' → Respects v' := by
  constructor
  · intro hcareful v' hrun
    exact ((h.step hcareful).of_run hrun).respects
  · intro hall
    by_contra hcareless
    obtain ⟨v', hrun, hnot⟩ := exists_of_not_careful order request₀ h hcareless
    exact hnot (hall v' hrun)

end Careless

end TransferScheduler

namespace SyncOrchestrator

open Proc TransferScheduler

/-! ## The calls of an orchestrator -/

/-- A call of an orchestrator about transfers. -/
inductive TransferCall
  | scheduleTransfer (databaseError : Option String) (peerId filePath chunkHash : Text)
      (size : UInt64) (priority : TransferPriority)
  | nextTransfer
  | completeTransfer (peerId chunkHash : Text) (bytes : UInt64)

/-- What the actions of a call take from outside, one after another. -/
abbrev Inputs := ℕ → SyncInput

/-- The next action takes the next input. -/
def draw (_ : SyncOp) (inputs : Inputs) : Option (SyncInput × Inputs) :=
  some (inputs 0, fun n => inputs (n + 1))

/-- An orchestrator, and what has become of its requests. -/
structure Dispatch where
  orchestrator : SyncOrchestrator
  ledger : Ledger

namespace Dispatch

/-- An orchestrator over a database, whose scheduler is empty. -/
def new (env : SyncDatabase.Env) (maxConcurrentTransfers : ℕ) (database : SyncDatabase) :
    Dispatch :=
  ⟨.new env maxConcurrentTransfers database, .empty⟩

/-- A call that runs to its end, if it does. -/
def next (env : SyncDatabase.Env) (x : Dispatch) : TransferCall × Inputs → Option Dispatch
  | (.scheduleTransfer databaseError peerId filePath chunkHash size priority, inputs) =>
    (answered draw (scheduleTransfer env databaseError peerId filePath chunkHash size priority)
      x.orchestrator inputs).map fun result =>
        ⟨result.2.1, x.ledger.schedule ⟨peerId, chunkHash, filePath, size⟩ priority⟩
  | (.nextTransfer, inputs) =>
    (answered draw nextTransfer x.orchestrator inputs).map fun result =>
      ⟨result.2.1, x.ledger.handOut (result.1.toOption.getD none)⟩
  | (.completeTransfer peerId chunkHash bytes, inputs) =>
    (answered draw (completeTransfer peerId chunkHash bytes) x.orchestrator inputs).map
      fun result => ⟨result.2.1, x.ledger.complete peerId chunkHash⟩

/-- The scheduler of the orchestrator. -/
def view (x : Dispatch) : Tracked := ⟨x.orchestrator.scheduler, x.ledger⟩

/-- What a call asks the scheduler to do. -/
def asks : TransferCall × Inputs → Call
  | (.scheduleTransfer _ peerId filePath chunkHash size priority, _) =>
    .schedule ⟨peerId, chunkHash, filePath, size⟩ priority
  | (.nextTransfer, inputs) => .nextTransfer (inputs 0).order
  | (.completeTransfer peerId chunkHash _, _) => .completeTransfer peerId chunkHash

/-- A call of an orchestrator is careful if that of its scheduler is. -/
def IsCareful (x : Dispatch) (e : TransferCall × Inputs) : Prop := Careful x.view (asks e)

/-- No call holds a lock that the calls about transfers wait for. -/
structure Unlocked (s : SyncOrchestrator) : Prop where
  schedulerLock : s.schedulerLock = .free
  peerLock : s.peerLock = .free

variable {env : SyncDatabase.Env} {x x' : Dispatch} {e : TransferCall × Inputs}

section Answered

variable {s : SyncOrchestrator} {inputs : Inputs}

/-- An action that waits for a lock. -/
lemma answered_locked {α : Type} {op : SyncOp} {ready : SyncOrchestrator → Bool}
    {f : SyncInput → SyncOrchestrator → Except SyncError α × SyncOrchestrator} :
    answered draw (locked op ready f) s inputs =
      if ready s = true then
        some ((f (inputs 0) s).1, (f (inputs 0) s).2, fun n => inputs (n + 1))
      else none := rfl

lemma canWrite_free : LockCount.free.canWrite = true := rfl

/-- A request that is scheduled is queued, whatever the database answers. -/
lemma answered_scheduleTransfer (env : SyncDatabase.Env) (inputs : Inputs)
    (databaseError : Option String) (peerId filePath chunkHash : Text) (size : UInt64)
    (priority : TransferPriority) (hfree : Unlocked s) :
    ∃ result s' rest,
      answered draw (scheduleTransfer env databaseError peerId filePath chunkHash size priority) s
        inputs = some (result, s', rest) ∧ Unlocked s' ∧
      s'.scheduler = s.scheduler.schedule ⟨peerId, chunkHash, filePath, size⟩ priority := by
  have hlock := hfree.schedulerLock
  rw [scheduleTransfer, answered_bind, answered_locked, if_pos (by rw [hlock, canWrite_free]),
    Option.bind_some]
  simp only [answered_atom, draw, Option.map_some]
  cases addPending env databaseError (inputs (0 + 1)).created
      ⟨peerId, chunkHash, filePath, size⟩ priority s.database with
  | error err => exact ⟨_, _, _, rfl, ⟨by simp [hlock, LockCount.free], hfree.peerLock⟩, rfl⟩
  | ok database => exact ⟨_, _, _, rfl, ⟨by simp [hlock, LockCount.free], hfree.peerLock⟩, rfl⟩

lemma answered_nextTransfer (inputs : Inputs) (hfree : Unlocked s) :
    ∃ s' rest, answered draw nextTransfer s inputs =
        some (.ok (s.scheduler.nextTransfer (inputs 0).order).1, s', rest) ∧ Unlocked s' ∧
      s'.scheduler = (s.scheduler.nextTransfer (inputs 0).order).2 := by
  have hlock := hfree.schedulerLock
  rw [nextTransfer, answered_locked, if_pos (by rw [hlock, canWrite_free])]
  exact ⟨_, _, rfl, ⟨hlock, hfree.peerLock⟩, rfl⟩

lemma answered_completeTransfer (inputs : Inputs) (peerId chunkHash : Text) (bytes : UInt64)
    (hfree : Unlocked s) :
    ∃ result s' rest, answered draw (completeTransfer peerId chunkHash bytes) s inputs =
        some (result, s', rest) ∧ Unlocked s' ∧ s'.scheduler = s.scheduler.completeTransfer := by
  have hlock := hfree.schedulerLock
  have hpeer := hfree.peerLock
  rw [completeTransfer, answered_bind, answered_locked, if_pos (by rw [hlock, canWrite_free]),
    Option.bind_some]
  dsimp only
  rw [answered_bind, answered_locked, if_pos (by rw [hpeer, canWrite_free]), Option.bind_some]
  have hcount : ∀ t : SyncOrchestrator, ∀ rest, t.schedulerLock = .free → t.peerLock = .free →
      t.scheduler = s.scheduler.completeTransfer →
      ∃ result s' rest', answered draw (countCompleted peerId bytes) t rest =
        some (result, s', rest') ∧ Unlocked s' ∧
          s'.scheduler = s.scheduler.completeTransfer := by
    intro t rest hscheduler hpeers hcompleted
    rw [countCompleted, answered_atom]
    dsimp only [draw, Option.map_some]
    cases t.progress.lookup peerId with
    | none => exact ⟨_, _, _, rfl, ⟨hscheduler, hpeers⟩, hcompleted⟩
    | some progress => exact ⟨_, _, _, rfl, ⟨hscheduler, hpeers⟩, hcompleted⟩
  dsimp only
  cases s.peerStates.lookup peerId with
  | none => exact hcount _ _ hlock hpeer rfl
  | some peer => exact hcount _ _ hlock hpeer rfl

end Answered

/-- **Every call returns**, and does to the scheduler what it asks for. -/
theorem exists_next (env : SyncDatabase.Env) (hfree : Unlocked x.orchestrator)
    (e : TransferCall × Inputs) :
    ∃ x', next env x e = some x' ∧ Unlocked x'.orchestrator ∧ x'.view = x.view.step (asks e) := by
  obtain ⟨c, inputs⟩ := e
  cases c with
  | scheduleTransfer databaseError peerId filePath chunkHash size priority =>
    obtain ⟨result, s', rest, hend, hfree', hscheduler⟩ :=
      answered_scheduleTransfer env inputs databaseError peerId filePath chunkHash size priority
        hfree
    exact ⟨_, by rw [next, hend, Option.map_some], hfree', by rw [view, hscheduler]; rfl⟩
  | nextTransfer =>
    obtain ⟨s', rest, hend, hfree', hscheduler⟩ := answered_nextTransfer inputs hfree
    exact ⟨_, by rw [next, hend, Option.map_some], hfree', by rw [view, hscheduler]; rfl⟩
  | completeTransfer peerId chunkHash bytes =>
    obtain ⟨result, s', rest, hend, hfree', hscheduler⟩ :=
      answered_completeTransfer inputs peerId chunkHash bytes hfree
    exact ⟨_, by rw [next, hend, Option.map_some], hfree', by rw [view, hscheduler]; rfl⟩

lemma exists_asks (call : Call) : ∃ e, asks e = call := by
  cases call with
  | schedule request priority =>
    exact ⟨(.scheduleTransfer none request.peerId request.filePath request.chunkHash request.size
      priority, fun _ => midnight), rfl⟩
  | nextTransfer order => exact ⟨(.nextTransfer, fun _ => { midnight with order := order }), rfl⟩
  | completeTransfer peerId chunkHash =>
    exact ⟨(.completeTransfer peerId chunkHash 0, fun _ => midnight), rfl⟩

/-- **A run of an orchestrator is one of its scheduler.** -/
lemma run_view (hfree : Unlocked x.orchestrator) (hrun : Runs.Run (next env) IsCareful x x') :
    Runs.Run Tracked.next Careful x.view x'.view ∧ Unlocked x'.orchestrator := by
  induction hrun with
  | refl => exact ⟨.refl, hfree⟩
  | tail _ hlast ih =>
    obtain ⟨hrun, hfree⟩ := ih
    obtain ⟨e, hcareful, hnext⟩ := hlast
    obtain ⟨x₂, hx₂, hfree₂, hview⟩ := exists_next env hfree e
    obtain rfl := Option.some.inj (hx₂.symm.trans hnext)
    exact ⟨hrun.tail ⟨asks e, hcareful, by rw [hview]; rfl⟩, hfree₂⟩

/-- **A run of the scheduler is one of an orchestrator.** -/
lemma exists_run_of_view (env : SyncDatabase.Env) {v : Tracked} (hfree : Unlocked x.orchestrator)
    (hrun : Runs.Run Tracked.next Careful x.view v) :
    ∃ x', Runs.Run (next env) IsCareful x x' ∧ x'.view = v ∧ Unlocked x'.orchestrator := by
  induction hrun with
  | refl => exact ⟨x, .refl, rfl, hfree⟩
  | tail _ hlast ih =>
    obtain ⟨x₁, hrun, rfl, hfree₁⟩ := ih
    obtain ⟨call, hcareful, hnext⟩ := hlast
    obtain rfl := Option.some.inj hnext
    obtain ⟨e, rfl⟩ := exists_asks call
    obtain ⟨x₂, hx₂, hfree₂, hview⟩ := exists_next env hfree₁ e
    exact ⟨x₂, hrun.tail ⟨e, hcareful, hx₂⟩, hview, hfree₂⟩

/-- **When the limit and the priorities are respected**: they are in every run of careful calls. And
every call that comes next returns, and is careful exactly if they stay respected after it, as long
as further calls are careful.

**Proof sketch.** Careful calls keep the transfers counted and each queued request at its highest
priority. After a transfer is completed that is not in flight, one too many can be handed out; and
after a request is scheduled with a lower priority, there comes a time when it is handed out itself,
or another one with a lower priority than it once had. -/
theorem respects_of_run (env : SyncDatabase.Env) (maxConcurrentTransfers : ℕ)
    (database : SyncDatabase) {x : Dispatch}
    (hrun : Runs.Run (next env) IsCareful (new env maxConcurrentTransfers database) x) :
    Respects x.view ∧ ∀ e, ∃ x', next env x e = some x' ∧
      (IsCareful x e ↔ ∀ x'', Runs.Run (next env) IsCareful x' x'' → Respects x''.view) := by
  obtain ⟨hview, hfree⟩ := run_view ⟨rfl, rfl⟩ hrun
  have hsound := (sound_new maxConcurrentTransfers).of_run hview
  refine ⟨hsound.respects, fun e => ?_⟩
  obtain ⟨x', hnext, hfree', hstep⟩ := exists_next env hfree e
  refine ⟨x', hnext, ?_⟩
  rw [IsCareful, careful_iff midnight.order ⟨[], [], [], 0⟩ hsound, ← hstep]
  constructor
  · intro hall x'' hrun'
    exact hall _ (run_view hfree' hrun').1
  · intro hall v hrun'
    obtain ⟨x'', hrun'', rfl, -⟩ := exists_run_of_view env hfree' hrun'
    exact hall x'' hrun''

instance (x : Dispatch) (e : TransferCall × Inputs) : Decidable (IsCareful x e) :=
  inferInstanceAs (Decidable (Careful _ _))

/-! ## Retries -/

/-- A call that schedules the chunk of a file. -/
private def scheduling (file : Text) (priority : TransferPriority) : TransferCall × Inputs :=
  (.scheduleTransfer none ['a'] file ['c'] 1 priority, fun _ => midnight)

/-- A call for the next transfer. -/
private def asking : TransferCall × Inputs := (.nextTransfer, fun _ => midnight)

/-- A call that completes a chunk. -/
private def completing (chunk : Text) : TransferCall × Inputs :=
  (.completeTransfer ['a'] chunk 1, fun _ => midnight)

/-- The request for the chunk of a file. -/
private def requestOf (file : Text) : TransferRequest := ⟨['a'], ['c'], file, 1⟩

/-- A request is scheduled again with a higher priority, handed out and completed. -/
theorem respects_of_run_retry : ∃ x,
    Runs.Run (next (SyncDatabase.sampleEnv true)) IsCareful
      (new (SyncDatabase.sampleEnv true) 1 .empty) x ∧
    x.ledger.inFlight = [] ∧ (Respects x.view ∧
      ∀ e, ∃ x', next (SyncDatabase.sampleEnv true) x e = some x' ∧ (IsCareful x e ↔
        ∀ x'', Runs.Run (next (SyncDatabase.sampleEnv true)) IsCareful x' x'' →
          Respects x''.view)) := by
  have hexec : (Runs.exec (next (SyncDatabase.sampleEnv true)) IsCareful
      [scheduling ['f'] .normal, scheduling ['f'] .high, asking, completing ['c']]
      (new (SyncDatabase.sampleEnv true) 1 .empty)).map (fun x => x.ledger.inFlight) =
        some [] := by decide +kernel
  obtain ⟨x, hx, hend⟩ := Option.map_eq_some_iff.mp hexec
  exact ⟨x, Runs.run_of_exec hx, hend, respects_of_run _ _ _ (Runs.run_of_exec hx)⟩

/-- **The limit and the priorities need not be respected**: two transfers are in flight where only
one may be, after a chunk is completed that is not in flight; and a request of normal priority is
handed out while another is queued that was once critical. -/
theorem exists_overrun_and_outOfOrder :
    (∃ x, Runs.Run (next (SyncDatabase.sampleEnv true)) (fun _ _ => True)
        (new (SyncDatabase.sampleEnv true) 1 .empty) x ∧
      x.orchestrator.scheduler.maxConcurrent = 1 ∧
      x.ledger.inFlight = [requestOf ['g'], requestOf ['f']]) ∧
    ∃ x, Runs.Run (next (SyncDatabase.sampleEnv true)) (fun _ _ => True)
        (new (SyncDatabase.sampleEnv true) 1 .empty) x ∧
      (∀ order, (x.orchestrator.scheduler.nextTransfer order).1 = some (requestOf ['g'])) ∧
      x.orchestrator.scheduler.queue.lookup (requestOf ['g']) = some .normal ∧
      requestOf ['f'] ∈ x.orchestrator.scheduler.queue ∧
      (requestOf ['f'], .critical) ∈ x.ledger.scheduled := by
  constructor
  · have hexec : (Runs.exec (next (SyncDatabase.sampleEnv true)) (fun _ _ => True)
        [scheduling ['f'] .normal, asking, completing ['d'], scheduling ['g'] .normal, asking]
        (new (SyncDatabase.sampleEnv true) 1 .empty)).map
          (fun x => (x.orchestrator.scheduler.maxConcurrent, x.ledger.inFlight)) =
        some (1, [requestOf ['g'], requestOf ['f']]) := by decide +kernel
    obtain ⟨x, hx, hend⟩ := Option.map_eq_some_iff.mp hexec
    simp only [Prod.mk.injEq] at hend
    exact ⟨x, Runs.run_of_exec hx, hend⟩
  · have hexec : (Runs.exec (next (SyncDatabase.sampleEnv true)) (fun _ _ => True)
        [scheduling ['f'] .critical, scheduling ['g'] .normal, scheduling ['f'] .low]
        (new (SyncDatabase.sampleEnv true) 1 .empty)).map (fun x =>
          (x.orchestrator.scheduler.queue.keys,
            x.orchestrator.scheduler.queue.lookup (requestOf ['f']),
            x.orchestrator.scheduler.queue.lookup (requestOf ['g']),
            decide (x.orchestrator.scheduler.activeTransfers <
              x.orchestrator.scheduler.maxConcurrent),
            decide ((requestOf ['f'], TransferPriority.critical) ∈ x.ledger.scheduled))) =
        some ({requestOf ['f'], requestOf ['g']}, some .low, some .normal, true, true) := by
      decide +kernel
    obtain ⟨x, hx, hend⟩ := Option.map_eq_some_iff.mp hexec
    simp only [Prod.mk.injEq, decide_eq_true_eq] at hend
    obtain ⟨hkeys, hlow, hnormal, hroom, hscheduled⟩ := hend
    have hg : requestOf ['g'] ∈ x.orchestrator.scheduler.queue := Finmap.mem_iff.mpr ⟨_, hnormal⟩
    refine ⟨x, Runs.run_of_exec hx, fun order => ?_, hnormal, Finmap.mem_iff.mpr ⟨_, hlow⟩,
      hscheduled⟩
    obtain ⟨first, htop⟩ := exists_top order hg
    obtain ⟨priority, hfirst, hhighest⟩ := lookup_of_top htop
    have hmem : first ∈ x.orchestrator.scheduler.queue.keys :=
      Finmap.mem_keys.mpr (Finmap.mem_iff.mpr ⟨_, hfirst⟩)
    rw [nextTransfer_of_top hroom htop]
    rw [hkeys, Finset.mem_insert, Finset.mem_singleton] at hmem
    rcases hmem with rfl | rfl
    · -- the other request has a higher priority
      rw [hlow, Option.some.injEq] at hfirst
      subst hfirst
      exact absurd (hhighest _ _ hnormal) (by decide)
    · rfl

end Dispatch

end SyncOrchestrator

end Landropic
