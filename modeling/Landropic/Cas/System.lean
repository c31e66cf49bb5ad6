import Landropic.Cas.Recover
import Landropic.Cas.Streaming
import Landropic.Foundations.Pool

set_option autoImplicit false

/-!
# A content store at work

A caller makes one call after another, and the batched writes that its calls have given to the
runtime run beside them, each starting whenever the runtime gets to it. A batched write that fails
does not stop the others, so that they may still be at work when the call that waits for them has
returned.

## Main definitions

* `Cas.Call`, `Cas.Reply` — the calls of a store and what they return.
* `Cas.ContentStore.serve` — the task of a call.
* `Cas.System` — a store at work, with the log of its calls.
* `Cas.ContentStore.next` — what an event leads to.
* `Cas.ContentStore.Run` — runs all of whose steps meet a condition.

## Main results

* `Cas.ContentStore.Run.invariant` — what holds along a run: it has to be preserved when a call is
  made, when a batched write starts, when a task acts and when a call returns.
* `Cas.ContentStore.run_of_reaches` — what a task can do on its own it can do in a system.
-/

namespace Landropic.Cas

/-- The calls of a store. -/
inductive Call
  | write (data : Bytes)
  | writeBatch (chunks : List (Bytes × Option ContentHash))
  | flushBatch
  | writeStream (reader : Reader) (expectedHash : Option ContentHash)
  | startResumableWrite (expectedHash : Option ContentHash) (totalSize : Option ℕ)
  | continueResumableWrite (transfer : PartialTransfer) (reader : Reader)
  | completeResumableWrite (transfer : PartialTransfer)
  | read (hash : ContentHash)
  | prefetch (hashes : List ContentHash)
  | clearCache
  | delete (hash : ContentHash)
  /-- Recover, visiting the entries of directories in some order, for so many turns at most. -/
  | recover (order : IterOrder FilePath) (fuel : ℕ)

/-- What a call returns. -/
inductive Reply
  | done
  | object (ref : ObjectRef)
  | objects (refs : List ObjectRef)
  | transfer (transfer : PartialTransfer)
  | data (data : Bytes)
  | recovered (stats : RecoveryStats)

/-- A store at work. -/
structure System where
  /-- The call at work, under `none`, and the batched writes under their numbers. -/
  pool : Pool (Option ℕ) StoreState Io Op CasError Reply
  /-- The call at work. -/
  call : Option Call
  /-- The batched writes that have started, and what they were given. -/
  started : List (ℕ × ContentHash × Bytes)
  /-- The calls that have returned, in order, and what they returned. -/
  log : List (Call × Except CasError Reply)

/-- What can happen next. -/
inductive Event
  /-- The caller makes a call. -/
  | call (call : Call)
  /-- The runtime starts a batched write. -/
  | start (job : ℕ)
  /-- A task takes its next action. -/
  | act (task : Option ℕ) (input : Io)

/-- The transfers that were handed out. -/
def transfers (log : List (Call × Except CasError Reply)) : List PartialTransfer :=
  log.filterMap fun entry => match entry.2 with
    | .ok (.transfer transfer) => some transfer
    | _ => none

/-- A caller continues and completes only transfers that were handed out. -/
def Call.Allowed (log : List (Call × Except CasError Reply)) : Call → Prop
  | .continueResumableWrite transfer _ => transfer ∈ transfers log
  | .completeResumableWrite transfer => transfer ∈ transfers log
  | _ => True

instance (log : List (Call × Except CasError Reply)) (call : Call) :
    Decidable (call.Allowed log) := by
  cases call <;> unfold Call.Allowed <;> infer_instance

namespace ContentStore

variable (store : ContentStore)

/-- The task of a call. -/
def serve : Call → Task CasError Reply
  | .write data => do
    let ref ← store.write data
    pure (.object ref)
  | .writeBatch chunks => do
    let refs ← store.writeBatch chunks
    pure (.objects refs)
  | .flushBatch => do
    flushBatch
    pure .done
  | .writeStream reader expectedHash => do
    let ref ← store.writeStream reader expectedHash
    pure (.object ref)
  | .startResumableWrite expectedHash totalSize => do
    let transfer ← store.startResumableWrite expectedHash totalSize
    pure (.transfer transfer)
  | .continueResumableWrite transfer reader => do
    let transfer ← store.continueResumableWrite transfer reader
    pure (.transfer transfer)
  | .completeResumableWrite transfer => do
    let ref ← store.completeResumableWrite transfer
    pure (.object ref)
  | .read hash => do
    let data ← store.read hash
    pure (.data data)
  | .prefetch hashes => do
    store.prefetch hashes
    pure .done
  | .clearCache => do
    clearCache
    pure .done
  | .delete hash => do
    store.delete hash
    pure .done
  | .recover order fuel => do
    let stats ← store.recover order fuel
    pure (.recovered stats)

/-- The task of a batched write, which returns nothing but what it leaves for the call that waits
for it. -/
def serveJob (job : ℕ) (hash : ContentHash) (data : Bytes) : Task CasError Reply := do
  store.runBatchedWrite job hash data
  pure .done

/-- A store that was just opened, before any call. -/
def system (fs : Fs) (now : ℕ) : System where
  pool := ⟨store.opened fs now, fun _ => pure .done⟩
  call := none
  started := []
  log := []

end ContentStore

namespace System

variable (S : System)

/-- The call at work returns. -/
def returned (call : Call) (r : Except CasError Reply) : System :=
  { S with call := none, log := S.log ++ [(call, r)] }

/-- The call at work returns if its task has ended. -/
def settle : System :=
  match S.call, S.pool.task none with
  | some call, .ret r => S.returned call r
  | _, _ => S

/-- A call is made. -/
def called (store : ContentStore) (call : Call) : System :=
  { S with pool := S.pool.withTask none (store.serve call), call := some call }

/-- A batched write starts. -/
def startedJob (store : ContentStore) (job : ℕ) (hash : ContentHash) (data : Bytes) : System :=
  { S with
    pool := S.pool.withTask (some job) (store.serveJob job hash data)
    started := (job, hash, data) :: S.started }

end System

namespace ContentStore

variable (store : ContentStore)

/-- What an event leads to, if it can happen. -/
def next (S : System) : Event → Option System
  | .call call =>
    if S.call.isNone ∧ call.Allowed S.log then some (S.called store call).settle else none
  | .start job =>
    match S.pool.state.spawned[job]? with
    | some (hash, data) =>
      if job ∈ S.started.map Prod.fst then none else some (S.startedJob store job hash data)
    | none => none
  | .act t i => (S.pool.advance t i).map fun P => System.settle { S with pool := P }

/-- Runs whose steps all meet a condition on the system before the step and the event. -/
def Run (C : System → Event → Prop) : System → System → Prop := Runs.Run store.next C

variable {store} {S₀ S : System}

/-- **What holds along a run** has to be preserved when a call is made, when a batched write starts,
when a task acts and when a call returns, in the states that can be reached. -/
theorem Run.invariant {C : System → Event → Prop} {I : System → Prop} (hrun : store.Run C S₀ S)
    (h : I S₀)
    (hcall : ∀ {S call}, store.Run C S₀ S → I S → C S (.call call) → S.call = none →
      call.Allowed S.log → I (S.called store call))
    (hstart : ∀ {S job hash data}, store.Run C S₀ S → I S → C S (.start job) →
      S.pool.state.spawned[job]? = some (hash, data) → job ∉ S.started.map Prod.fst →
      I (S.startedJob store job hash data))
    (hact : ∀ {S t i P}, store.Run C S₀ S → I S → C S (.act t i) → S.pool.Step t i P →
      I { S with pool := P })
    (hreturn : ∀ {S call r}, I S → S.call = some call → S.pool.task none = .ret r →
      I (S.returned call r)) : I S := by
  have hsettle : ∀ S : System, I S → I S.settle := by
    intro S hS
    unfold System.settle
    split
    · next call r hc hr => exact hreturn hS hc hr
    · exact hS
  refine Runs.Run.invariant hrun h ?_
  intro S e S' hreach hS hC hnext
  cases e with
  | call call =>
    rw [next] at hnext
    split at hnext
    · next hok =>
      obtain rfl := Option.some.inj hnext
      exact hsettle _ (hcall hreach hS hC (Option.isNone_iff_eq_none.mp hok.1) hok.2)
    · cases hnext
  | start job =>
    rw [next] at hnext
    split at hnext
    · next hash data hspawned =>
      split at hnext
      · cases hnext
      · next hnew =>
        obtain rfl := Option.some.inj hnext
        exact hstart hreach hS hC hspawned hnew
    · cases hnext
  | act t i =>
    obtain ⟨P, hadvance, rfl⟩ := Option.map_eq_some_iff.mp hnext
    exact hsettle _ (hact hreach hS hC (Pool.step_of_advance hadvance))

/-! ## A task on its own in a system -/

section OnItsOwn

variable {C : System → Event → Prop} {t : Option ℕ} {p : Task CasError Reply} {s : StoreState}
  {call : Call} {r : Except CasError Reply}

lemma settle_eq_self (h : S.call = none ∨ ∀ r, S.pool.task none ≠ .ret r) : S.settle = S := by
  unfold System.settle
  split
  · next call r hcall hr =>
    rcases h with hnone | hbusy
    · cases hcall.symm.trans hnone
    · exact absurd hr (hbusy r)
  · rfl

lemma settle_of_ret (hcall : S.call = some call) (hr : S.pool.task none = .ret r) :
    S.settle = S.returned call r := by
  unfold System.settle
  rw [hcall, hr]

variable (store) in
/-- **What a task can do on its own** it can do in a system, as long as its actions are allowed. -/
theorem run_of_reaches {A : Io → Prop} (hA : ∀ S i, A i → C S (.act t i))
    (hset : S.call = none ∨ ∀ r, S.pool.task none ≠ .ret r)
    (h : Proc.Reaches A (S.pool.task t) S.pool.state p s) :
    store.Run C S (System.settle { S with pool := ⟨s, Function.update S.pool.task t p⟩ }) := by
  generalize htask : S.pool.task t = p₀ at h
  generalize hstate : S.pool.state = s₀ at h
  induction h generalizing S with
  | refl =>
    subst htask hstate
    rw [Function.update_eq_self]
    exact (settle_eq_self hset).symm ▸ .refl
  | @act label ready eff next s p' s' i hready hi hrest ih =>
    subst hstate
    set S₁ : System := { S with pool := ⟨eff i S.pool.state,
      Function.update S.pool.task t (next i S.pool.state)⟩ } with hS₁
    have hnext : store.next S (.act t i) = some S₁.settle := by
      simp only [ContentStore.next, Pool.advance, htask, hready, if_true, Option.map_some, hS₁]
    have htask₁ : S₁.pool.task t = next i S.pool.state := Function.update_self ..
    have hupdate : ∀ q, Function.update S₁.pool.task t q = Function.update S.pool.task t q :=
      fun q => Function.update_idem ..
    by_cases hset₁ : S₁.call = none ∨ ∀ r, S₁.pool.task none ≠ .ret r
    · have hrun := ih hset₁ htask₁ rfl
      rw [hupdate] at hrun
      exact .head ⟨_, hA S i hi, hnext.trans (congrArg some (settle_eq_self hset₁))⟩ hrun
    · -- the call at work has ended with this action, so that it is the task
      obtain ⟨hsome, hends⟩ := not_or.mp hset₁
      obtain ⟨r, hr⟩ := not_forall_not.mp hends
      by_cases ht : t = none
      · subst ht
        rw [htask₁] at hr
        rw [hr] at hrest hS₁
        cases hrest
        rw [← hS₁]
        exact Runs.Run.step (hA S i hi) hnext
      · have hsame : S₁.pool.task none = S.pool.task none :=
          Function.update_of_ne (fun h => ht h.symm) ..
        exact absurd (hsame.symm.trans hr) (hset.resolve_left hsome r)

variable (store) in
/-- A call that returns on its own can return in a system. -/
lemma run_of_returns {A : Io → Prop} (hA : ∀ S i, A i → C S (.act none i))
    (hcall : S.call = some call) (hbusy : ∀ r, S.pool.task none ≠ .ret r)
    (h : Proc.Returns A (S.pool.task none) S.pool.state r s) :
    store.Run C S (System.returned
      { S with pool := ⟨s, Function.update S.pool.task none (.ret r)⟩ } call r) := by
  have hrun := store.run_of_reaches hA (.inr hbusy) h.reaches
  set S' : System := { S with pool := ⟨s, Function.update S.pool.task none (.ret r)⟩ }
  have hr : S'.pool.task none = .ret r := Function.update_self none (.ret r) S.pool.task
  have hcall' : S'.call = some call := hcall
  rwa [settle_of_ret hcall' hr] at hrun

end OnItsOwn

end ContentStore

end Landropic.Cas
