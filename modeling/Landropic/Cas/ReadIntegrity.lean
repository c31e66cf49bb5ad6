import Landropic.Cas.CacheSteps

set_option autoImplicit false

/-!
# The integrity of what is read

A read returns what the cache holds without a look at its hash, so that what it returns is right
only if everything that was put into the cache was. Reads from the disk and from packfiles are
checked; a batched write puts into the cache what it was given under the hash it was given.

## Main definitions

* `Cas.ContentStore.CacheSound` — what the cache holds has its hash.
* `Cas.ContentStore.Vouched` — the steps of batched writes after which it still has.

## Main results

* `Cas.ContentStore.keeps_serve` — no call puts anything wrong into the cache.
* `Cas.ContentStore.blake3_of_read` — what is read has its hash.
-/

namespace Landropic.Cas

open Proc

/-- What an action puts into the cache, and under which hash. -/
def Op.cached : Op → Option (ContentHash × Bytes)
  | .cachePut hash data => some (hash, data)
  | _ => none

namespace ContentStore

variable (store : ContentStore)

/-- What the cache holds has the hash it is held under. -/
def CacheSound (s : StoreState) : Prop :=
  ∀ hash chunk, (hash, chunk) ∈ s.cache.chunks.entries → store.blake3 chunk.data = hash

/-- What is read has the hash it is read under. -/
def Answers (call : Call) (r : Except CasError Reply) : Prop :=
  ∀ hash data, call = .read hash → r = .ok (.data data) → store.blake3 data = hash

/-- What reads have returned, and under which hashes. -/
def reads (log : List (Call × Except CasError Reply)) : List (ContentHash × Bytes) :=
  log.filterMap fun entry => match entry with
    | (.read hash, .ok (.data data)) => some (hash, data)
    | _ => none

variable {store} {ε α : Type} {hash : ContentHash} {data : Bytes}

lemma mem_of_mem_reads {log : List (Call × Except CasError Reply)} (h : (hash, data) ∈ reads log) :
    (.read hash, .ok (.data data)) ∈ log := by
  obtain ⟨⟨call, r⟩, hmem, hentry⟩ := List.mem_filterMap.mp h
  split at hentry
  · next heq =>
    obtain ⟨rfl, rfl⟩ := Prod.mk.inj heq
    obtain ⟨rfl, rfl⟩ := Prod.mk.inj (Option.some.inj hentry)
    exact hmem
  · cases hentry

/-! ## What keeps the cache sound -/

section Keeps

lemma Calm.cacheSound {s s' : StoreState} (h : store.Calm s s') (hs : store.CacheSound s) :
    store.CacheSound s' := by
  obtain ⟨fs, pending, rfl⟩ := h.memory
  exact hs

lemma Calmly.keeps {Q : Except ε α → Prop} {t : Task ε α} (h : store.Calmly Q t) :
    Keeps store.CacheSound Q t := Guarantees.keeps h fun _ _ _ => Calm.cacheSound

lemma Batchwise.keeps {t : Task ε α} (h : Batchwise t) :
    Keeps store.CacheSound (fun _ => True) t := by
  apply Guarantees.keeps h
  rintro _ s _ ⟨batch, spawned, permits, rfl⟩ hs
  exact hs

lemma Indexwise.keeps {t : Task ε α} (h : store.Indexwise t) :
    Keeps store.CacheSound (fun _ => True) t := by
  apply Guarantees.keeps h
  rintro _ s s' (hcalm | ⟨index, rfl⟩) hs
  · exact hcalm.cacheSound hs
  · exact hs

lemma keeps_cacheGet : Keeps store.CacheSound
    (fun r => ∀ data, r = .ok (some data) → store.blake3 data = hash)
    (cacheGet hash : Task ε (Option Bytes)) := by
  intro i s hs _
  constructor
  · exact fun other chunk h => hs other chunk (LruCache.mem_promote h)
  · intro data hdata
    obtain ⟨chunk, hchunk, rfl⟩ := Option.map_eq_some_iff.mp (Except.ok.inj hdata)
    exact hs hash chunk (LruCache.mem_of_lookup hchunk)

lemma CacheSound.insert {s : StoreState} (hs : store.CacheSound s) (h : store.blake3 data = hash) :
    store.CacheSound (match s.cache.insert store.config.cacheConfig hash (.new data) with
      | some cache => { s with cache := cache }
      | none => { s with cacheStuck := true }) := by
  split
  · next cache hinsert =>
    intro other chunk hmem
    rcases ChunkCache.mem_insert hinsert hmem with heq | hold
    · obtain ⟨rfl, rfl⟩ := Prod.mk.inj heq
      exact h
    · exact hs other chunk hold
  · exact hs

lemma keeps_cachePut (h : store.blake3 data = hash) :
    Keeps store.CacheSound (fun _ => True) (store.cachePut hash data : Task ε Unit) := by
  intro i s hs _
  refine ⟨hs.insert h, ?_⟩
  dsimp only
  split
  · trivial
  · exact fun i s hs _ => ⟨hs, trivial⟩

variable (store hash) in
/-- **Reading** puts only what it has checked into the cache. -/
theorem keeps_read : Keeps store.CacheSound
    (fun r => ∀ data, r = .ok data → store.blake3 data = hash) (store.read hash) := by
  unfold read
  split
  · rintro data ⟨⟩
  · refine Keeps.bind keeps_cacheGet (by rintro e - data ⟨⟩) fun found hfound => ?_
    split
    · rintro data ⟨⟩
      exact hfound _ rfl
    · refine Keeps.bind (store.calmly_readPacked hash).keeps (by rintro e - data ⟨⟩) ?_
      intro packed hpacked
      split
      · rintro data ⟨⟩
        exact hpacked _ rfl
      · refine Keeps.bind (store.calmly_readIndividual hash).keeps (by rintro e - data ⟨⟩) ?_
        intro data hdata
        refine Keeps.bind (keeps_cachePut (hdata data rfl)) (by rintro e - data ⟨⟩) fun _ _ => ?_
        rintro _ ⟨⟩
        exact hdata data rfl

variable (store) in
lemma keeps_prefetch (hashes : List ContentHash) :
    Keeps store.CacheSound (fun _ => True) (store.prefetch hashes) := by
  have hall : ∀ hashes, Keeps store.CacheSound (fun _ => True) (store.prefetchAll hashes) := by
    intro hashes
    induction hashes with
    | nil => trivial
    | cons hash rest ih =>
      refine Keeps.bind (Q := fun _ => True) (fun i s hs _ => ⟨hs, trivial⟩) (fun _ _ => trivial) ?_
      intro found _
      split
      · exact ih
      · exact Keeps.bind (Keeps.attempt (store.keeps_read hash)) (fun _ _ => trivial) fun _ _ => ih
  unfold prefetch
  split
  · exact hall hashes
  · trivial

variable (store) in
lemma keeps_delete (hash : ContentHash) :
    Keeps store.CacheSound (fun _ => True) (store.delete hash) := by
  refine Keeps.bind (Calmly.keeps calmly_pathExists) (fun _ _ => trivial) fun found _ => ?_
  split
  · refine Keeps.mapErr (Q := fun _ => True) (Keeps.atom fun i s hs => ?_) (fun _ _ => trivial)
      fun _ _ => trivial
    cases i with
    | fail => exact ⟨hs, trivial⟩
    | ok n => exact ⟨hs, trivial⟩
  · trivial

/-- **No call** puts anything wrong into the cache, and a read returns data with its hash. -/
theorem keeps_serve {log : List (Call × Except CasError Reply)}
    (hlog : ∀ transfer ∈ transfers log, store.HandsOut transfer) {call : Call}
    (hcall : call.Allowed log) :
    Keeps store.CacheSound (store.Answers call) (store.serve call) := by
  have hother : ∀ {α : Type} {Q : Except CasError α → Prop} {t : Task CasError α} {f : α → Reply},
      Keeps store.CacheSound Q t → (∀ hash, call ≠ .read hash) →
      Keeps store.CacheSound (store.Answers call) (do
        let a ← t
        pure (f a)) := by
    intro α Q t f ht hne
    exact Keeps.bind ht (fun _ _ hash _ heq => absurd heq (hne hash))
      fun _ _ hash _ heq => absurd heq (hne hash)
  cases call with
  | read hash =>
    refine Keeps.bind (store.keeps_read hash) (by rintro e - hash' data - ⟨⟩) fun data hdata => ?_
    rintro hash' _ ⟨⟩ ⟨⟩
    exact hdata data rfl
  | write data => exact hother (store.indexwise_write data).keeps (by simp)
  | writeBatch chunks => exact hother (store.batchwise_writeBatch chunks).keeps (by simp)
  | flushBatch => exact hother (f := fun _ => .done) batchwise_flushBatch.keeps (by simp)
  | writeStream reader expected =>
    exact hother (store.indexwise_writeStream reader expected).keeps (by simp)
  | startResumableWrite expected size =>
    exact hother (store.calmly_startResumableWrite expected size).keeps (by simp)
  | continueResumableWrite transfer reader =>
    exact hother (store.calmly_continueResumableWrite transfer reader).keeps (by simp)
  | completeResumableWrite transfer =>
    exact hother (indexwise_completeResumableWrite (hlog transfer hcall)).keeps (by simp)
  | prefetch hashes => exact hother (f := fun _ => .done) (store.keeps_prefetch hashes) (by simp)
  | clearCache =>
    refine hother (f := fun _ => .done) (Q := fun _ => True) (t := clearCache) ?_ (by simp)
    exact fun i s hs _ => ⟨by rintro hash chunk ⟨⟩, trivial⟩
  | delete hash => exact hother (f := fun _ => .done) (store.keeps_delete hash) (by simp)
  | recover order fuel => exact hother (store.calmly_recover order fuel).keeps (by simp)

end Keeps

/-! ## Runs -/

section Runs

variable (store) in
/-- A batched write puts data into the cache only under its hash. -/
def Vouched (S : System) : Event → Prop
  | .act (some job) _ => ∀ put ∈ (S.pool.task (some job)).head.bind Op.cached,
      store.blake3 put.2 = put.1
  | _ => True

instance (S : System) (e : Event) : Decidable (store.Vouched S e) :=
  match e with
  | .act (some _) _ => inferInstanceAs (Decidable (∀ _ ∈ Option.bind _ _, _ = _))
  | .act none _ => isTrue trivial
  | .call _ => isTrue trivial
  | .start _ => isTrue trivial

variable (store) in
/-- What holds in every state: the cache is sound, the call keeps it so, and what was read is right.
-/
structure Integral (S : System) : Prop where
  cache : store.CacheSound S.pool.state
  call : Keeps store.CacheSound (fun r => ∀ call, S.call = some call → store.Answers call r)
    (S.pool.task none)
  log : ∀ entry ∈ S.log, store.Answers entry.1 entry.2

variable {S : System} {s s' : StoreState} {op : Op}

/-- **One action** keeps the cache sound if what it puts there, if it does, has its hash. -/
lemma CacheSound.step (h : store.CacheSound s) (hstep : store.CacheStep op s s')
    (hput : ∀ hash data, op = .cachePut hash data → store.blake3 data = hash) :
    store.CacheSound s' := by
  cases hstep with
  | same hcache =>
    rw [CacheSound, hcache]
    exact h
  | promote hash hs' =>
    subst hs'
    exact fun other chunk hmem => h other chunk (LruCache.mem_promote hmem)
  | clear hs' =>
    subst hs'
    rintro hash chunk ⟨⟩
  | put hash data hop hs' =>
    subst hs'
    exact h.insert (hput hash data hop)

/-- **In every run** whose steps are vouched for the cache stays sound. -/
theorem integral_of_run {fs : Fs} {now : ℕ}
    (hrun : store.Run store.Vouched (store.system fs now) S) : store.Integral S := by
  refine hrun.invariant ?_ ?_ ?_ ?_ ?_
  · exact ⟨by rintro hash chunk ⟨⟩, by rintro call ⟨⟩, by rintro entry ⟨⟩⟩
  · intro S call hreach hS _ _ hallowed
    refine ⟨hS.cache, ?_, hS.log⟩
    show Keeps _ _ ((S.pool.withTask none (store.serve call)).task none)
    rw [Pool.task_withTask_self]
    refine (keeps_serve (handsOut_of_run hreach) hallowed).mono fun r hr call' hcall' => ?_
    obtain rfl := Option.some.inj hcall'
    exact hr
  · intro S job hash data _ hS _ _ _
    refine ⟨hS.cache, ?_, hS.log⟩
    show Keeps _ _ ((S.pool.withTask (some job) _).task none)
    rw [Pool.task_withTask_of_ne _ _ (by simp)]
    exact hS.call
  · intro S t i P hreach hS hC hstep
    cases t with
    | none =>
      obtain ⟨hcache, hrest⟩ := hS.call.step hstep.proc hS.cache
      exact ⟨hcache, hrest, hS.log⟩
    | some job =>
      obtain ⟨⟨op, hhead, hcache⟩, -⟩ := (cacheSafe_of_run hreach (some job)).step hstep.proc
      refine ⟨hS.cache.step hcache fun hash data hop => ?_, ?_, hS.log⟩
      · rw [Vouched, hhead, hop] at hC
        exact hC (hash, data) rfl
      · show Keeps _ _ (P.task none)
        rw [hstep.task_of_ne (by simp)]
        exact hS.call
  · intro S call r hS hcall hr
    have hreply := hS.call
    rw [hr] at hreply
    refine ⟨hS.cache, ?_, fun entry hentry => ?_⟩
    · show Keeps _ _ (S.pool.task none)
      rw [hr]
      rintro call ⟨⟩
    · rcases List.mem_append.mp hentry with hold | hnew
      · exact hS.log entry hold
      · obtain rfl := List.mem_singleton.mp hnew
        exact hreply call hcall

variable (store) in
/-- **The integrity of what is read.** Whatever disk a store is opened on, and whatever is called:
in a run in which every batched write that puts its data into the cache was given the hash of it,
every read returns data with the hash it asked for.

**Proof sketch.** What a read returns comes from the disk or a packfile, where it was checked, or
from the cache. Reads put into the cache what they have checked. A batched write puts its data into
the cache under the hash that the caller gave it, unless the object exists or an action fails. -/
theorem blake3_of_read (fs : Fs) (now : ℕ)
    (hrun : store.Run store.Vouched (store.system fs now) S) :
    ∀ read ∈ reads S.log, store.blake3 read.2 = read.1 := by
  rintro ⟨hash, data⟩ hread
  exact (integral_of_run hrun).log _ (mem_of_mem_reads hread) hash data rfl rfl

/-- A byte is written in a batch, flushed and read from the cache. -/
private def flushedRead (expected : Option ContentHash) (hash : ContentHash) : List Event :=
  .call (.writeBatch [([1], expected)]) :: List.replicate 3 (.act none (.ok 0)) ++
    .call .flushBatch :: List.replicate 4 (.act none (.ok 0)) ++
    .start 0 :: List.replicate 10 (.act (some 0) (.ok 0)) ++ List.replicate 3 (.act none (.ok 0)) ++
    [.call (.read hash), .act none (.ok 0)]

/-- A read of what was flushed under its own hash. -/
theorem blake3_of_read_flushed : ∃ S,
    Runs.exec (default .blake3Sample .identity).next (default .blake3Sample .identity).Vouched
      (flushedRead none (.blake3Sample [1])) ((default .blake3Sample .identity).system .empty 0) =
        some S ∧
      reads S.log = [(.blake3Sample [1], [1])] ∧
      ∀ read ∈ reads S.log, (default .blake3Sample .identity).blake3 read.2 = read.1 := by
  have hexec : (Runs.exec (default .blake3Sample .identity).next
      (default .blake3Sample .identity).Vouched (flushedRead none (.blake3Sample [1]))
      ((default .blake3Sample .identity).system .empty 0)).map (fun S => reads S.log) =
        some [(.blake3Sample [1], [1])] := by decide +kernel
  obtain ⟨S, hS, hreads⟩ := Option.map_eq_some_iff.mp hexec
  exact ⟨S, hS, hreads, blake3_of_read _ .empty 0 (Runs.run_of_exec hS)⟩

/-- A read of what was flushed under a hash that a caller made up, which is served from the cache.
-/
theorem not_forall_blake3_of_read : ¬ ∀ (store : ContentStore) (fs : Fs) (now : ℕ) (S : System),
    store.config.compression = .none → store.Run (fun _ _ => True) (store.system fs now) S →
    ∀ read ∈ reads S.log, store.blake3 read.2 = read.1 := by
  intro h
  have hexec : (Runs.exec (default .blake3Sample .identity).next (fun _ _ => True)
      (flushedRead (some (.fill 1)) (.fill 1))
      ((default .blake3Sample .identity).system .empty 0)).map (fun S => reads S.log) =
        some [(.fill 1, [1])] := by decide +kernel
  obtain ⟨S, hS, hreads⟩ := Option.map_eq_some_iff.mp hexec
  have hhash := h _ .empty 0 S rfl (Runs.run_of_exec hS) (.fill 1, [1]) (by simp [hreads])
  revert hhash
  decide

end Runs

end ContentStore

end Landropic.Cas
