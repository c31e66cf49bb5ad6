import Landropic.Cas.Flushed

set_option autoImplicit false

/-!
# Whether a batch comes to be flushed

A batch with one byte string is written and flushed while nothing else goes on. The flush waits for
a permit, and then for the batched write, which waits for the cache: without a permit, or with a
cache that is never free again, it does not return.

## Main definitions

* `Cas.batchReply` — what the batch and its flush return together.
* `Cas.ContentStore.Stopped` — no batched write can start.
* `Cas.ContentStore.Storable` — the data can be stored and put into the cache.

## Main results

* `Cas.ContentStore.stopped_of_run` — without permits no batched write starts.
* `Cas.ContentStore.flushed_of_batchReply` — what is there when both calls have returned.
* `Cas.ContentStore.exists_run_putAndFlush` — both calls can return if the data can be stored.
-/

namespace Landropic.Cas

open Proc

/-- What a batch of one byte string and its flush return together. -/
def batchReply : List (Call × Except CasError Reply) → Option (Except CasError ObjectRef)
  | [(_, .error e)] => some (.error e)
  | [(_, .ok (.objects [ref])), (_, r)] => some (r.map fun _ => ref)
  | _ => none

namespace ContentStore

variable {store : ContentStore} {data : Bytes} {s : StoreState}
  {good : ContentHash → Bytes → Prop} {hash : ContentHash} {ε α : Type}

lemma wp_alone_of_writer {Q : Except ε α → StoreState → Prop} {t : Task ε α}
    (h : wp (store.writerSpec good hash False) Q t s) : wp (.alone Op noFault) Q t s := by
  refine wp_weaken h ?_ (fun _ _ _ hi hfail => hi hfail) (fun _ _ _ _ => trivial) id
  rintro l s s' rfl
  exact Spec.env_refl _ _ _

/-! ## A batch without permits -/

/-- No batched write can start. -/
def Stopped (s : StoreState) : Prop := s.permits = 0 ∧ s.spawned = []

lemma keeps_stopped_atom {op : Op} {f : Io → StoreState → Except ε α × StoreState}
    (h : ∀ i s, (f i s).2.permits = s.permits ∧ (f i s).2.spawned = s.spawned) :
    Keeps Stopped (fun _ => True) (Proc.atom op f) :=
  Keeps.atom fun i s hs => ⟨⟨(h i s).1.trans hs.1, (h i s).2.trans hs.2⟩, trivial⟩

lemma Keeps.andThen {β : Type} {t : Task ε α} {k : α → Task ε β}
    (h : Keeps Stopped (fun _ => True) t) (hk : ∀ a, Keeps Stopped (fun _ => True) (k a)) :
    Keeps Stopped (fun _ => True) (t >>= k) :=
  Keeps.bind h (fun _ _ => trivial) fun a _ => hk a

lemma keeps_stopped_flushBatchInternal : Keeps Stopped (fun _ => True) flushBatchInternal := by
  refine Keeps.andThen (keeps_stopped_atom fun _ _ => ⟨rfl, rfl⟩) fun pending => ?_
  cases pending with
  | nil => exact trivial
  | cons chunk rest =>
    -- there is no permit to wait for
    intro i s hs hready
    have hpermit : 0 < s.permits := by simpa using hready
    exact absurd hs.1 hpermit.ne'

lemma keeps_stopped_flushBatch : Keeps Stopped (fun _ => True) flushBatch := by
  refine Keeps.andThen (keeps_stopped_atom fun _ _ => ⟨rfl, rfl⟩) fun isEmpty => ?_
  split
  · exact trivial
  · exact keeps_stopped_flushBatchInternal

variable (store) in
lemma keeps_stopped_writeBatch (chunks : List (Bytes × Option ContentHash)) :
    Keeps Stopped (fun _ => True) (store.writeBatch chunks) := by
  have hqueueAll : Keeps Stopped (fun _ => True) (store.queueAll chunks) := by
    induction chunks with
    | nil => exact trivial
    | cons chunk rest ih =>
      rw [queueAll]
      split
      · exact trivial
      · refine Keeps.andThen (Keeps.andThen (keeps_stopped_atom fun _ _ => ⟨rfl, rfl⟩)
          fun found => ?_) fun _ => Keeps.andThen ih fun _ => trivial
        split
        · exact trivial
        · exact Keeps.andThen (keeps_stopped_atom fun _ _ => ⟨rfl, rfl⟩) fun _ => trivial
  refine Keeps.andThen hqueueAll fun refs => ?_
  refine Keeps.andThen (keeps_stopped_atom fun _ _ => ⟨rfl, rfl⟩) fun flush => ?_
  split
  · exact Keeps.andThen keeps_stopped_flushBatchInternal fun _ => trivial
  · exact trivial

/-- **Without permits** no batched write is given to the runtime. -/
theorem stopped_of_run {S : System} (hs : Stopped s)
    (hrun : store.Run (PutAndFlush data) s.atRest S) : Stopped S.pool.state := by
  refine And.left (hrun.invariant (I := fun S => Stopped S.pool.state ∧
    Keeps Stopped (fun _ => True) (S.pool.task none) ∧
      ∀ job, ∃ r, S.pool.task (some job) = .ret r) ⟨hs, trivial, fun _ => ⟨_, rfl⟩⟩ ?_ ?_ ?_ ?_)
  · rintro S call - ⟨hstopped, -, hjobs⟩ hC - -
    refine ⟨hstopped, ?_, fun job => ?_⟩
    · rw [show (S.called store call).pool.task none = store.serve call from
        Pool.task_withTask_self ..]
      cases call with
      | writeBatch chunks =>
        exact Keeps.andThen (store.keeps_stopped_writeBatch chunks) fun _ => trivial
      | flushBatch => exact Keeps.andThen keeps_stopped_flushBatch fun _ => trivial
      | _ => exact hC.elim
    · rw [show (S.called store call).pool.task (some job) = S.pool.task (some job) from
        Pool.task_withTask_of_ne _ _ (by simp)]
      exact hjobs job
  · rintro S job hash data' - ⟨hstopped, -⟩ - hspawned -
    simp [hstopped.2] at hspawned
  · rintro S (_ | job) i P - ⟨hstopped, hcall, hjobs⟩ - hstep
    · obtain ⟨hstopped', hcall'⟩ := hcall.step hstep.proc hstopped
      refine ⟨hstopped', hcall', fun job => ?_⟩
      obtain ⟨r, hr⟩ := hjobs job
      exact ⟨r, (hstep.task_of_ne (by simp)).trans hr⟩
    · obtain ⟨r, hr⟩ := hjobs job
      exact absurd hr (hstep.ne_ret r)
  · rintro S call r ⟨hstopped, hcall, hjobs⟩ - -
    exact ⟨hstopped, hcall, hjobs⟩

/-! ## What a batch that is flushed leaves -/

lemma storedForm_of_none (h : store.config.compression = .none) :
    store.storedForm data = .ok data := by
  simp [storedForm, compressData, h, Except.map]

/-- **A batch that was flushed** has returned what the index had, or the reference of the data. -/
lemma flushed_of_batchReply {S : System} {r : Except CasError ObjectRef}
    (hcompression : store.config.compression = .none) (hsize : data.length ≤ MAX_OBJECT_SIZE)
    (hs : store.Fresh s) (hrun : store.Run (PutAndFlush data) s.atRest S) (hidle : S.call = none)
    (hreply : batchReply S.log = some r) :
    r = .ok (store.promisedRef s data) ∧ store.AllDone s data S.pool.state := by
  have hrefused : ¬ store.Refused data := by
    rintro (⟨e, he⟩ | ⟨e, he⟩)
    · rw [validateObjectSize_eq_ok_iff.mpr hsize] at he
      cases he
    · rw [storedForm_of_none hcompression] at he
      cases he
  have h := progressed_of_run hs hrun hidle
  unfold batchReply at hreply
  split at hreply
  · next hlog =>
    rw [hlog] at h
    exact absurd h hrefused
  · next ref call' r' hlog =>
    rw [hlog] at h
    cases r' with
    | error e => exact absurd h hrefused
    | ok reply =>
      obtain ⟨hobjects, hdone⟩ := h
      obtain rfl := Option.some.inj hreply
      rw [Reply.objects.injEq, List.cons.injEq] at hobjects
      exact ⟨congrArg Except.ok hobjects.1, hdone⟩
  · cases hreply

/-! ## A batch that can be flushed -/

lemma wp_alone_of_calmly {Q : Except ε α → StoreState → Prop} {t : Task ε α}
    (h : wp (.alone Op noFault) Q t s) (hcalm : store.Calmly (fun _ => True) t) :
    wp (.alone Op noFault)
      (fun r s' => Q r s' ∧ ∃ fs n, s' = { s with fs := fs, pendingSyncs := n }) t s := by
  have hguar : wp { Spec.alone Op noFault with guar := fun _ => store.Calm } Q t s :=
    wp_weaken (wp_mono (wp_of_guarantees h hcalm) fun _ _ hr => hr.1) (fun _ _ _ => id)
      (fun _ _ _ => id) (fun _ _ _ hg => hg.2) id
  refine wp_weaken (wp_frame hguar ⟨s.fs, s.pendingSyncs, rfl⟩ ?_ ?_) (fun _ _ _ => id)
    (fun _ _ _ => id) (fun _ _ _ _ => trivial) id
  · rintro l s₁ s₂ rfl h₁
    exact h₁
  · rintro l s₁ s₂ hcalm ⟨fs, n, rfl⟩
    obtain ⟨fs', n', rfl⟩ := hcalm.memory
    exact ⟨fs', n', rfl⟩

variable (store data) in
/-- The data can be stored and put into the cache, unless its object has a file. -/
structure Storable (s : StoreState) : Prop where
  compression : store.config.compression = .none
  tidy : store.Tidy (fun _ _ => True) s.fs
  room : store.Stored s (store.blake3 data) ∨ s.cacheStuck = false ∧
    (s.cache.insert store.config.cacheConfig (store.blake3 data) (.new data)).isSome = true

/-- **The batched write** succeeds, and leaves the batch alone. -/
lemma wp_alone_serveJob (h : store.Storable data s) :
    wp (.alone Op noFault) (fun _ s' => s'.batchWriter = s.batchWriter ∧
        ∃ ref, s'.results 0 = some (.ok ref)) (store.serveJob 0 (store.blake3 data) data) s := by
  have hwrite : wp (.alone Op noFault) (fun r s' => s'.batchWriter = s.batchWriter ∧
      ∃ ref, r = .ok ref) (store.writeIndividualOptimized data (store.blake3 data)) s := by
    refine wp_bind (wp_alone_pathExists ?_)
    dsimp only
    split
    · exact ⟨rfl, _, rfl⟩
    · next hmissing =>
      obtain ⟨hfree, hroom⟩ := h.room.resolve_left fun hstored =>
        hmissing (pathExists_of_stored hstored)
      obtain ⟨cache, hcache⟩ := Option.isSome_iff_exists.mp hroom
      rw [storedForm_of_none h.compression, ofExcept_ok_bind]
      refine wp_bind (wp_mono (wp_alone_of_calmly (wp_alone_of_writer (wp_createShardDir h.tidy))
        (store.calmly_createShardDir _)) ?_)
      rintro (e | u) s₁ ⟨⟨htidy₁, hdir⟩, fs₁, n₁, rfl⟩
      · exact hdir.elim
      refine wp_bind (wp_mono (wp_alone_of_calmly (wp_alone_of_writer
        (wp_writeAtomic htidy₁ hdir trivial)) (store.calmly_writeAtomic _ data)) ?_)
      rintro (e | u) s₂ ⟨⟨-, -, hdone⟩, fs₂, n₂, rfl⟩
      · exact hdone.elim
      refine wp_bind ?_
      rintro s₃ rfl
      refine ⟨fun _ => by simp [hfree], fun _ i _ => ⟨trivial, ?_⟩⟩
      simp only [hcache]
      exact wp_bind (wp_alone_modify ⟨rfl, _, rfl⟩)
  refine wp_bind (wp_bind (wp_attempt (wp_mono hwrite ?_)))
  rintro _ s₁ ⟨hbatch, ref, rfl⟩
  exact wp_alone_modify ⟨hbatch, ref, by simp⟩

lemma wp_alone_flushBatchInternal (h : s.batchWriter.pending = []) :
    wp (.alone Op noFault) (fun r s' => r = .ok () ∧ s'.batchWriter.pending = [])
      flushBatchInternal s := by
  refine wp_bind (wp_alone_modify ?_)
  rw [h]
  exact ⟨rfl, rfl⟩

lemma wp_alone_flushBatch (h : s.batchWriter.pending = []) :
    wp (.alone Op noFault) (fun r s' => r = .ok () ∧ s'.batchWriter.pending = []) flushBatch s := by
  refine wp_bind (wp_alone_modify ?_)
  rw [h]
  exact ⟨rfl, h⟩

/-- The state after a byte string was queued. -/
def withQueued (s : StoreState) (hash : ContentHash) (data : Bytes) : StoreState :=
  { s with batchWriter := { s.batchWriter with
    pending := s.batchWriter.pending ++ [(hash, data)]
    totalSize := s.batchWriter.totalSize + data.length } }

/-- The batch is queued, or is known to the dedup index. -/
lemma wp_alone_queueAll (hsize : data.length ≤ MAX_OBJECT_SIZE) :
    wp (.alone Op noFault) (fun r s' => r = .ok [store.promisedRef s data] ∧
        s' = match s.dedupIndex.lookup (store.blake3 data) with
          | some _ => s
          | none => withQueued s (store.blake3 data) data)
      (store.queueAll [(data, none)]) s := by
  rw [queueAll, validateObjectSize_eq_ok_iff.mpr hsize]
  refine wp_bind (wp_bind (wp_alone_modify ?_))
  unfold promisedRef
  dsimp only [Option.getD]
  cases hlookup : s.dedupIndex.lookup (store.blake3 data) with
  | some ref => exact ⟨rfl, rfl⟩
  | none => exact wp_bind (wp_alone_modify ⟨rfl, rfl⟩)

section Flush

variable {S : System} {call : Call} {reply : Reply} {k : Unit → Task CasError Reply}

lemma putAndFlush_act {t : Option ℕ} : ∀ S i, noFault i → PutAndFlush data S (.act t i) :=
  fun _ _ hi => hi

variable (data) in
/-- The data was given to the runtime, and the call waits for it. -/
def waiting (s : StoreState) (hash : ContentHash) : StoreState :=
  { s with
    batchWriter := { s.batchWriter with pending := [] }
    permits := s.permits - 1
    spawned := s.spawned ++ [(hash, data)] }

/-- What is left of a flush that waits for the batched write. -/
def awaitFirst (k : Unit → Task CasError Reply) : Task CasError Reply :=
  (awaitAll [0] >>= fun _ => resetBatch) >>= k

lemma awaitFirst_ne_ret (r : Except CasError Reply) : awaitFirst k ≠ .ret r := by
  rintro ⟨⟩

lemma flush_ne_ret (r : Except CasError Reply) : flushBatchInternal >>= k ≠ .ret r := by
  rintro ⟨⟩

lemma reaches_awaitFirst (hpermit : 0 < s.permits) (hspawned : s.spawned = [])
    (hpending : s.batchWriter.pending = [(hash, data)]) :
    Reaches noFault (flushBatchInternal >>= k) s (awaitFirst k) (waiting data s hash) := by
  have hok : noFault (.ok 0) := by simp [noFault]
  refine Reaches.act rfl hok ?_
  show Reaches noFault ((if s.batchWriter.pending.isEmpty then pure () else
    spawnAll s.batchWriter.pending >>= fun jobs => awaitAll jobs >>= fun _ => resetBatch) >>= k)
    { s with batchWriter := { s.batchWriter with pending := [] } } _ _
  rw [hpending]
  refine Reaches.act (by simpa using hpermit) hok (Reaches.act rfl hok ?_)
  show Reaches noFault ((awaitAll [s.spawned.length] >>= fun _ => resetBatch) >>= k)
    (waiting data s hash) _ (waiting data s hash)
  rw [hspawned]
  exact .refl

lemma wp_alone_awaitFirst {ref : ObjectRef} (hk : k () = .ret (.ok reply))
    (href : s.results 0 = some (.ok ref)) :
    wp (.alone Op noFault) (fun r s' => r = .ok reply ∧
      s'.batchWriter.pending = s.batchWriter.pending) (awaitFirst k) s := by
  refine wp_bind (wp_bind (wp_bind ?_))
  rintro s' rfl
  refine ⟨fun _ => by simp [href], fun _ i _ => ⟨trivial, ?_⟩⟩
  simp only [href, Option.getD_some]
  refine wp_bind (wp_ask ?_)
  rintro s' now rfl
  refine ⟨trivial, wp_alone_modify ?_⟩
  dsimp only
  rw [hk]
  exact ⟨rfl, rfl⟩

/-- **A call that flushes the batch** returns: it gives the batched write to the runtime, which runs
it to its end. -/
lemma exists_run_flush (hcall : S.call = some call) (hstarted : S.started = [])
    (htask : S.pool.task none = flushBatchInternal >>= k) (hk : k () = .ret (.ok reply))
    (hs : store.Storable data S.pool.state) (hpermit : 0 < S.pool.state.permits)
    (hspawned : S.pool.state.spawned = [])
    (hpending : S.pool.state.batchWriter.pending = [(store.blake3 data, data)]) :
    ∃ S', store.Run (PutAndFlush data) S S' ∧ S'.call = none ∧
      S'.log = S.log ++ [(call, .ok reply)] ∧ S'.pool.state.batchWriter.pending = [] := by
  -- the call waits for the batched write
  have hrun₁ := store.run_of_reaches (C := PutAndFlush data) putAndFlush_act
    (.inr (htask ▸ flush_ne_ret)) (htask ▸ reaches_awaitFirst hpermit hspawned hpending)
  set S₁ : System := { S with pool := ⟨waiting data S.pool.state (store.blake3 data),
    Function.update S.pool.task none (awaitFirst k)⟩ } with hS₁
  have htask₁ : S₁.pool.task none = awaitFirst k := Function.update_self none _ S.pool.task
  rw [settle_eq_self (.inr (htask₁ ▸ awaitFirst_ne_ret))] at hrun₁
  -- the batched write starts, and runs to its end
  have hstart : store.next S₁ (.start 0) =
      some (S₁.startedJob store 0 (store.blake3 data) data) := by
    simp [ContentStore.next, hS₁, waiting, hspawned, hstarted]
  set S₂ := S₁.startedJob store 0 (store.blake3 data) data with hS₂
  have hjob : S₂.pool.task (some 0) = store.serveJob 0 (store.blake3 data) data :=
    Pool.task_withTask_self ..
  have htask₂ : S₂.pool.task none = awaitFirst k :=
    (Pool.task_withTask_of_ne _ _ (by simp)).trans htask₁
  have hstorable : store.Storable data S₂.pool.state := ⟨hs.compression, hs.tidy, hs.room⟩
  obtain ⟨r, s₂, hreturns, hbatch, ref, href⟩ :=
    exists_returns exists_noFault (wp_alone_serveJob hstorable)
  have hrun₂ := store.run_of_reaches (C := PutAndFlush data) (S := S₂) (t := some 0)
    putAndFlush_act (.inr (htask₂ ▸ awaitFirst_ne_ret)) (hjob ▸ hreturns.reaches)
  set S₃ : System := { S₂ with pool := ⟨s₂, Function.update S₂.pool.task (some 0) (.ret r)⟩ }
    with hS₃
  have htask₃ : S₃.pool.task none = awaitFirst k :=
    (Function.update_of_ne (Option.some_ne_none 0).symm (.ret r) _).trans htask₂
  rw [settle_eq_self (.inr (htask₃ ▸ awaitFirst_ne_ret))] at hrun₂
  -- the call returns
  obtain ⟨r', s₃, hreturns₃, rfl, hend⟩ :=
    exists_returns exists_noFault (wp_alone_awaitFirst hk href)
  have hrun₃ := store.run_of_returns (C := PutAndFlush data) (S := S₃) putAndFlush_act hcall
    (htask₃ ▸ awaitFirst_ne_ret) (htask₃ ▸ hreturns₃)
  refine ⟨_, (hrun₁.tail ⟨.start 0, trivial, hstart⟩).trans (hrun₂.trans hrun₃), rfl, rfl, ?_⟩
  show s₃.batchWriter.pending = []
  rw [hend, hbatch]
  rfl

/-- A call that returns on its own, made by a caller that waits for none. -/
lemma exists_run_call {r : Except CasError Reply} {s' : StoreState} (hidle : S.call = none)
    (hC : PutAndFlush data S (.call call)) (hallowed : call.Allowed S.log)
    (hbusy : ∀ r, store.serve call ≠ .ret r)
    (hreturns : Returns noFault (store.serve call) S.pool.state r s') :
    ∃ S', store.Run (PutAndFlush data) S S' ∧ S'.call = none ∧ S'.log = S.log ++ [(call, r)] ∧
      S'.started = S.started ∧ S'.pool.state = s' := by
  have htask : (S.called store call).pool.task none = store.serve call :=
    Pool.task_withTask_self ..
  have hnext : store.next S (.call call) = some (S.called store call) := by
    rw [ContentStore.next, if_pos ⟨by rw [hidle]; rfl, hallowed⟩,
      settle_eq_self (.inr (htask ▸ hbusy))]
  have hrun := store.run_of_returns (C := PutAndFlush data) (S := S.called store call)
    putAndFlush_act rfl (htask ▸ hbusy) (htask ▸ hreturns)
  exact ⟨_, .head ⟨_, hC, hnext⟩ hrun, rfl, rfl, rfl, rfl⟩

/-- A call that comes to flush the batch, made by a caller that waits for none. -/
lemma exists_run_call_flush {s' : StoreState} (hidle : S.call = none) (hstarted : S.started = [])
    (hC : PutAndFlush data S (.call call)) (hallowed : call.Allowed S.log)
    (hbusy : ∀ r, store.serve call ≠ .ret r)
    (hreaches : Reaches noFault (store.serve call) S.pool.state (flushBatchInternal >>= k) s')
    (hk : k () = .ret (.ok reply)) (hs : store.Storable data s') (hpermit : 0 < s'.permits)
    (hspawned : s'.spawned = [])
    (hpending : s'.batchWriter.pending = [(store.blake3 data, data)]) :
    ∃ S', store.Run (PutAndFlush data) S S' ∧ S'.call = none ∧
      S'.log = S.log ++ [(call, .ok reply)] ∧ S'.pool.state.batchWriter.pending = [] := by
  have htask : (S.called store call).pool.task none = store.serve call :=
    Pool.task_withTask_self ..
  have hnext : store.next S (.call call) = some (S.called store call) := by
    rw [ContentStore.next, if_pos ⟨by rw [hidle]; rfl, hallowed⟩,
      settle_eq_self (.inr (htask ▸ hbusy))]
  have hrun := store.run_of_reaches (C := PutAndFlush data) (S := S.called store call)
    putAndFlush_act (.inr (htask ▸ hbusy)) (htask ▸ hreaches)
  set S₁ : System := { S.called store call with pool :=
    ⟨s', Function.update (S.called store call).pool.task none (flushBatchInternal >>= k)⟩ }
  have htask₁ : S₁.pool.task none = flushBatchInternal >>= k :=
    Function.update_self none _ (S.called store call).pool.task
  rw [settle_eq_self (.inr (htask₁ ▸ flush_ne_ret))] at hrun
  have hcall₁ : S₁.call = some call := rfl
  obtain ⟨S', hrun', hidle', hlog', hend⟩ :=
    exists_run_flush hcall₁ hstarted htask₁ hk hs hpermit hspawned hpending
  exact ⟨S', (Relation.ReflTransGen.head ⟨_, hC, hnext⟩ hrun).trans hrun', hidle', hlog', hend⟩

lemma writeBatch_ne_ret (hsize : data.length ≤ MAX_OBJECT_SIZE) (r : Except CasError Reply) :
    store.serve (.writeBatch [(data, none)]) ≠ .ret r := by
  have hqueueAll : ∀ r, store.queueAll [(data, none)] ≠ .ret r := by
    rw [queueAll, validateObjectSize_eq_ok_iff.mpr hsize]
    rintro r ⟨⟩
  unfold serve writeBatch
  dsimp only
  generalize store.queueAll [(data, none)] = t at hqueueAll ⊢
  cases t with
  | ret r => exact absurd rfl (hqueueAll r)
  | act label ready eff next => rintro ⟨⟩

lemma flushBatch_ne_ret (r : Except CasError Reply) : store.serve .flushBatch ≠ .ret r := by
  rintro ⟨⟩

/-- What the batch returns. -/
abbrev batched (store : ContentStore) (s : StoreState) (data : Bytes) :
    Call × Except CasError Reply :=
  (.writeBatch [(data, none)], .ok (.objects [store.promisedRef s data]))

lemma putAndFlush_writeBatch : PutAndFlush data s.atRest (.call (.writeBatch [(data, none)])) :=
  ⟨rfl, rfl⟩

lemma putAndFlush_flushBatch (hlog : S.log = [store.batched s data]) :
    PutAndFlush data S (.call .flushBatch) := by
  rw [PutAndFlush, hlog]
  rfl

/-- A flush of an empty batch returns on its own. -/
lemma exists_run_flushBatch (hrun : store.Run (PutAndFlush data) s.atRest S) (hidle : S.call = none)
    (hlog : S.log = [store.batched s data]) (hpending : S.pool.state.batchWriter.pending = []) :
    ∃ S' r, store.Run (PutAndFlush data) s.atRest S' ∧ S'.call = none ∧
      S'.log = [store.batched s data, (.flushBatch, r)] := by
  have hwp : wp (.alone Op noFault) (fun _ _ => True) (store.serve .flushBatch) S.pool.state :=
    wp_bind (wp_mono (wp_alone_flushBatch hpending) (by rintro _ s' ⟨rfl, -⟩; trivial))
  obtain ⟨r, s', hreturns, -⟩ := exists_returns exists_noFault hwp
  obtain ⟨S', hrun', hidle', hlog', -⟩ := exists_run_call hidle (putAndFlush_flushBatch hlog)
    trivial flushBatch_ne_ret hreturns
  exact ⟨S', r, hrun.trans hrun', hidle', by rw [hlog', hlog]; rfl⟩

/-- A batch whose data the dedup index knows returns on its own. -/
lemma exists_returns_writeBatch (hpending : s.batchWriter.pending = [])
    (hqueued : Returns noFault (store.queueAll [(data, none)]) s
      (.ok [store.promisedRef s data]) s) :
    ∃ s', Returns noFault (store.serve (.writeBatch [(data, none)])) s
      (.ok (.objects [store.promisedRef s data])) s' ∧ s'.batchWriter.pending = [] := by
  have hrest : wp (.alone Op noFault) (fun r s' => r = .ok [store.promisedRef s data] ∧
      s'.batchWriter.pending = []) (shouldFlush >>= fun flush => if flush = true then do
        flushBatchInternal
        pure [store.promisedRef s data]
      else pure [store.promisedRef s data]) s := by
    refine wp_bind (wp_atom ?_)
    rintro s' rfl i -
    refine ⟨trivial, ?_⟩
    dsimp only
    generalize s.batchWriter.shouldFlush _ = flush
    cases flush with
    | true =>
      refine wp_bind (wp_mono (wp_alone_flushBatchInternal hpending) ?_)
      rintro _ s₂ ⟨rfl, hempty⟩
      exact ⟨rfl, hempty⟩
    | false => exact ⟨rfl, hpending⟩
  obtain ⟨_, s', hreturns, rfl, hempty⟩ := exists_returns exists_noFault hrest
  exact ⟨s', (hqueued.bind hreturns).bind .ret, hempty⟩

section Queued

variable {s₁ : StoreState}

/-- The data was queued, and the batch is flushed by the first call. -/
lemma reaches_writeBatch (hqueued : Returns noFault (store.queueAll [(data, none)]) s
      (.ok [store.promisedRef s data]) s₁) (hnow : s₁.batchWriter.shouldFlush 0 = true) :
    Reaches noFault (store.serve (.writeBatch [(data, none)])) s
      (flushBatchInternal >>= fun _ => pure (.objects [store.promisedRef s data])) s₁ := by
  show Reaches noFault ((store.queueAll [(data, none)] >>= fun results =>
    shouldFlush >>= fun flush => if flush = true then do
      flushBatchInternal
      pure results
    else pure results) >>= fun refs => pure (Reply.objects refs)) s _ s₁
  rw [bind_assoc']
  refine hqueued.reaches_bind (Reaches.act rfl (by simp [noFault] : noFault (.ok 0)) ?_)
  show Reaches noFault ((if s₁.batchWriter.shouldFlush 0 = true then
      flushBatchInternal >>= fun _ => pure [store.promisedRef s data]
    else pure [store.promisedRef s data]) >>= fun refs => pure (Reply.objects refs)) s₁ _ s₁
  rw [hnow, if_pos rfl, bind_assoc']
  exact .refl

/-- The data was queued, and the batch is left for the second call. -/
lemma returns_writeBatch (hqueued : Returns noFault (store.queueAll [(data, none)]) s
      (.ok [store.promisedRef s data]) s₁) (hnow : s₁.batchWriter.shouldFlush 0 = false) :
    Returns noFault (store.serve (.writeBatch [(data, none)])) s
      (.ok (.objects [store.promisedRef s data])) s₁ := by
  refine (hqueued.bind (Returns.act rfl (by simp [noFault] : noFault (.ok 0)) ?_)).bind .ret
  show Returns noFault (if s₁.batchWriter.shouldFlush 0 = true then
      flushBatchInternal >>= fun _ => pure [store.promisedRef s data]
    else pure [store.promisedRef s data]) s₁ _ s₁
  rw [hnow]
  exact .ret

lemma reaches_flushBatch (hpending : s₁.batchWriter.pending = [(hash, data)]) :
    Reaches noFault (store.serve .flushBatch) s₁
      (flushBatchInternal >>= fun _ => pure .done) s₁ := by
  refine Reaches.act rfl (by simp [noFault] : noFault (.ok 0)) ?_
  show Reaches noFault ((if s₁.batchWriter.pending.isEmpty = true then pure () else
    flushBatchInternal) >>= fun _ => pure Reply.done) s₁ _ s₁
  rw [hpending]
  exact .refl

/-- **A batch whose data was queued** is flushed by the first call, or by the second. -/
lemma exists_run_of_queued (hqueued : Returns noFault (store.queueAll [(data, none)]) s
      (.ok [store.promisedRef s data]) s₁) (hsize : data.length ≤ MAX_OBJECT_SIZE)
    (hs : store.Storable data s₁) (hpermit : 0 < s₁.permits) (hspawned : s₁.spawned = [])
    (hpending : s₁.batchWriter.pending = [(store.blake3 data, data)]) :
    ∃ S r, store.Run (PutAndFlush data) s.atRest S ∧ S.call = none ∧
      S.log = [store.batched s data, (.flushBatch, r)] := by
  cases hnow : s₁.batchWriter.shouldFlush 0 with
  | true =>
    obtain ⟨S₁, hrun, hidle, hlog, hend⟩ := exists_run_call_flush rfl rfl putAndFlush_writeBatch
      trivial (writeBatch_ne_ret hsize) (reaches_writeBatch hqueued hnow) rfl hs hpermit hspawned
      hpending
    exact exists_run_flushBatch hrun hidle hlog hend
  | false =>
    obtain ⟨S₁, hrun, hidle, hlog, hstarted, hstate⟩ := exists_run_call rfl putAndFlush_writeBatch
      trivial (writeBatch_ne_ret hsize) (returns_writeBatch hqueued hnow)
    have hreaches := @reaches_flushBatch store data _ s₁ hpending
    rw [← hstate] at hreaches
    obtain ⟨S, hrun', hidle', hlog', -⟩ := exists_run_call_flush hidle hstarted
      (putAndFlush_flushBatch hlog) trivial flushBatch_ne_ret hreaches rfl (hstate ▸ hs)
      (hstate ▸ hpermit) (hstate ▸ hspawned) (hstate ▸ hpending)
    exact ⟨S, _, hrun.trans hrun', hidle', by rw [hlog', hlog]; rfl⟩

end Queued

/-- **A batch with data that can be stored** can be written and flushed. -/
theorem exists_run_putAndFlush (hsize : data.length ≤ MAX_OBJECT_SIZE) (hfresh : store.Fresh s)
    (hroom : s.dedupIndex.lookup (store.blake3 data) = none →
      0 < s.permits ∧ store.Storable data s) :
    ∃ S r, store.Run (PutAndFlush data) s.atRest S ∧ S.call = none ∧
      S.log = [(.writeBatch [(data, none)], .ok (.objects [store.promisedRef s data])),
        (.flushBatch, r)] := by
  obtain ⟨_, s₁, hqueued, rfl, hs₁⟩ :=
    exists_returns exists_noFault (@wp_alone_queueAll store data s hsize)
  cases hlookup : s.dedupIndex.lookup (store.blake3 data) with
  | some ref =>
    rw [hlookup] at hs₁
    subst hs₁
    obtain ⟨s₂, hreturns, hpending⟩ := exists_returns_writeBatch hfresh.pending hqueued
    obtain ⟨S₁, hrun, hidle, hlog, -, hstate⟩ := exists_run_call rfl putAndFlush_writeBatch trivial
      (writeBatch_ne_ret hsize) hreturns
    exact exists_run_flushBatch hrun hidle hlog (hstate ▸ hpending)
  | none =>
    rw [hlookup] at hs₁
    obtain ⟨hpermit, hstorable⟩ := hroom hlookup
    have hpending : s₁.batchWriter.pending = [(store.blake3 data, data)] := by
      rw [hs₁]
      show s.batchWriter.pending ++ _ = _
      rw [hfresh.pending, List.nil_append]
    have hstorable₁ : store.Storable data s₁ := by
      subst hs₁
      exact ⟨hstorable.compression, hstorable.tidy, hstorable.room⟩
    refine exists_run_of_queued hqueued hsize hstorable₁ ?_ ?_ hpending
    · subst hs₁
      exact hpermit
    · subst hs₁
      exact hfresh.spawned

end Flush

end ContentStore

end Landropic.Cas
