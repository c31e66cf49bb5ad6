import Landropic.Cas.Frames

set_option autoImplicit false

/-!
# What the tasks do to the cache

An action of a call or of a batched write may mark a chunk as just used, clear the cache, or put a
chunk into it. What holds of the cache along every run follows from these steps.

## Main definitions

* `Cas.ContentStore.CacheStep` — what an action does to the cache.
* `Cas.ContentStore.CacheSafe` — tasks all of whose actions do no more.

## Main results

* `Cas.ContentStore.guarantees_serve`, `guarantees_serveJob` — calls and batched writes are such
  tasks.
* `Cas.ContentStore.cacheSafe_of_run` — and so are all tasks of a run.
-/

namespace Landropic.Cas

open Proc

namespace ContentStore

variable (store : ContentStore)

/-- What an action does to the cache: it may mark a chunk as just used, clear the cache, or put a
chunk into it, which is what the action is about then. -/
inductive CacheStep (op : Op) (s s' : StoreState) : Prop
  | same : s'.cache = s.cache → s'.cacheStuck = s.cacheStuck → CacheStep op s s'
  | promote (hash : ContentHash) : s' = { s with cache :=
      { s.cache with chunks := s.cache.chunks.promote hash } } → CacheStep op s s'
  | clear : s' = { s with cache := .new } → CacheStep op s s'
  | put (hash : ContentHash) (data : Bytes) : op = .cachePut hash data →
      s' = (match s.cache.insert store.config.cacheConfig hash (.new data) with
        | some cache => { s with cache := cache }
        | none => { s with cacheStuck := true }) → CacheStep op s s'

/-- Every action of a task does no more than that to the cache. -/
abbrev CacheSafe {ε α : Type} (t : Task ε α) : Prop :=
  Guarantees store.CacheStep (fun _ => True) t

variable {store} {ε α β : Type} {hash : ContentHash} {data : Bytes} {s s' : StoreState} {op : Op}
variable {t : Task ε α}

lemma CacheSafe.bind {k : α → Task ε β} (h : store.CacheSafe t) (hk : ∀ a, store.CacheSafe (k a)) :
    store.CacheSafe (t >>= k) :=
  Guarantees.bind h (fun _ _ => trivial) fun a _ => hk a

lemma CacheSafe.attempt {ε' : Type} (h : store.CacheSafe t) :
    store.CacheSafe (t.attempt : Task ε' (Except ε α)) := Guarantees.attempt h fun _ _ => trivial

lemma Calm.cacheStep (h : store.Calm s s') : store.CacheStep op s s' := by
  obtain ⟨fs, pending, rfl⟩ := h.memory
  exact .same rfl rfl

lemma Calmly.cacheSafe {Q : Except ε α → Prop} (h : store.Calmly Q t) :
    store.CacheSafe t := Guarantees.mono h (fun _ _ _ => Calm.cacheStep) fun _ _ => trivial

lemma Batchwise.cacheSafe (h : Batchwise t) : store.CacheSafe t := by
  refine Guarantees.mono h ?_ fun _ _ => trivial
  rintro _ s _ ⟨batch, spawned, permits, rfl⟩
  exact .same rfl rfl

lemma Indexwise.cacheSafe (h : store.Indexwise t) : store.CacheSafe t := by
  refine Guarantees.mono h ?_ fun _ _ => trivial
  rintro _ s s' (hcalm | ⟨index, rfl⟩)
  · exact hcalm.cacheStep
  · exact .same rfl rfl

lemma cacheSafe_cacheGet : store.CacheSafe (cacheGet hash : Task ε (Option Bytes)) :=
  fun _ _ _ => ⟨.promote hash rfl, trivial⟩

lemma cacheSafe_contains :
    store.CacheSafe (withCache fun cache => (cache.chunks.contains hash, cache) : Task ε Bool) :=
  fun _ _ _ => ⟨.same rfl rfl, trivial⟩

lemma cacheSafe_clearCache : store.CacheSafe clearCache := fun _ _ _ => ⟨.clear rfl, trivial⟩

variable (store hash data) in
lemma cacheSafe_cachePut : store.CacheSafe (store.cachePut hash data : Task ε Unit) := by
  intro i s _
  refine ⟨.put hash data rfl rfl, ?_⟩
  dsimp only
  split
  · trivial
  · exact fun _ _ _ => ⟨.same rfl rfl, trivial⟩

variable (store hash) in
lemma cacheSafe_read : store.CacheSafe (store.read hash) := by
  unfold read
  split
  · trivial
  · refine cacheSafe_cacheGet.bind fun found => ?_
    split
    · trivial
    · refine (store.calmly_readPacked hash).cacheSafe.bind fun packed => ?_
      split
      · trivial
      · refine (store.calmly_readIndividual hash).cacheSafe.bind fun data => ?_
        exact (store.cacheSafe_cachePut hash data).bind fun _ => trivial

variable (store) in
lemma cacheSafe_prefetch (hashes : List ContentHash) : store.CacheSafe (store.prefetch hashes) := by
  have hall : ∀ hashes, store.CacheSafe (store.prefetchAll hashes) := by
    intro hashes
    induction hashes with
    | nil => trivial
    | cons hash rest ih =>
      refine cacheSafe_contains.bind fun found => ?_
      split
      · exact ih
      · exact (store.cacheSafe_read hash).attempt.bind fun _ => ih
  unfold prefetch
  split
  · exact hall hashes
  · trivial

variable (store) in
lemma cacheSafe_delete (hash : ContentHash) : store.CacheSafe (store.delete hash) := by
  refine calmly_pathExists.cacheSafe.bind fun found => ?_
  split
  · refine Guarantees.mapErr (Q := fun _ => True) (Guarantees.atom fun i s => ?_)
      (fun _ _ => trivial) fun _ _ => trivial
    cases i with
    | fail => exact ⟨.same rfl rfl, trivial⟩
    | ok n => exact ⟨.same rfl rfl, trivial⟩
  · trivial

/-- **What the actions of a call** do to the cache. -/
theorem guarantees_serve {log : List (Call × Except CasError Reply)}
    (hlog : ∀ transfer ∈ transfers log, store.HandsOut transfer) {call : Call}
    (hcall : call.Allowed log) : store.CacheSafe (store.serve call) := by
  cases call with
  | write data => exact (store.indexwise_write data).cacheSafe.bind fun _ => trivial
  | writeBatch chunks => exact (store.batchwise_writeBatch chunks).cacheSafe.bind fun _ => trivial
  | flushBatch => exact batchwise_flushBatch.cacheSafe.bind fun _ => trivial
  | writeStream reader expected =>
    exact (store.indexwise_writeStream reader expected).cacheSafe.bind fun _ => trivial
  | startResumableWrite expected size =>
    exact (store.calmly_startResumableWrite expected size).cacheSafe.bind fun _ => trivial
  | continueResumableWrite transfer reader =>
    exact (store.calmly_continueResumableWrite transfer reader).cacheSafe.bind fun _ => trivial
  | completeResumableWrite transfer =>
    exact (indexwise_completeResumableWrite (hlog transfer hcall)).cacheSafe.bind fun _ => trivial
  | read hash => exact (store.cacheSafe_read hash).bind fun _ => trivial
  | prefetch hashes => exact (store.cacheSafe_prefetch hashes).bind fun _ => trivial
  | clearCache => exact cacheSafe_clearCache.bind fun _ => trivial
  | delete hash => exact (store.cacheSafe_delete hash).bind fun _ => trivial
  | recover order fuel => exact (store.calmly_recover order fuel).cacheSafe.bind fun _ => trivial

/-- **What the actions of a batched write** do to the cache. -/
theorem guarantees_serveJob (job : ℕ) (hash : ContentHash) (data : Bytes) :
    store.CacheSafe (store.serveJob job hash data) := by
  have hwrite : store.CacheSafe (store.writeIndividualOptimized data hash) := by
    refine calmly_pathExists.cacheSafe.bind fun found => ?_
    split
    · trivial
    · refine CacheSafe.bind trivial fun stored => ?_
      refine (store.calmly_createShardDir hash).cacheSafe.bind fun _ => ?_
      refine (store.calmly_writeAtomic hash stored).cacheSafe.bind fun _ => ?_
      refine (store.cacheSafe_cachePut hash data).bind fun _ => ?_
      exact CacheSafe.bind (Guarantees.atom fun _ _ => ⟨.same rfl rfl, trivial⟩) fun _ => trivial
  refine CacheSafe.bind ?_ fun _ => trivial
  refine hwrite.attempt.bind fun r => ?_
  exact Guarantees.atom fun _ _ => ⟨.same rfl rfl, trivial⟩

/-- **In every run** all tasks are such tasks. -/
theorem cacheSafe_of_run {C : System → Event → Prop} {fs : Fs} {now : ℕ} {S : System}
    (hrun : store.Run C (store.system fs now) S) (t : Option ℕ) :
    store.CacheSafe (S.pool.task t) := by
  refine hrun.invariant (I := fun S => ∀ t, store.CacheSafe (S.pool.task t)) (fun _ => trivial)
    ?_ ?_ ?_ (fun hS _ _ => hS) t
  · intro S call hreach hS _ _ hallowed t
    show store.CacheSafe ((S.pool.withTask none (store.serve call)).task t)
    by_cases ht : t = none
    · subst ht
      rw [Pool.task_withTask_self]
      exact guarantees_serve (handsOut_of_run hreach) hallowed
    · rw [Pool.task_withTask_of_ne _ _ ht]
      exact hS t
  · intro S job hash data _ hS _ _ _ t
    show store.CacheSafe ((S.pool.withTask (some job) (store.serveJob job hash data)).task t)
    by_cases ht : t = some job
    · subst ht
      rw [Pool.task_withTask_self]
      exact guarantees_serveJob job hash data
    · rw [Pool.task_withTask_of_ne _ _ ht]
      exact hS t
  · intro S t i P _ hS _ hstep u
    show store.CacheSafe (P.task u)
    by_cases hu : u = t
    · subst hu
      exact ((hS u).step hstep.proc).2
    · rw [hstep.task_of_ne hu]
      exact hS u

end ContentStore

end Landropic.Cas
