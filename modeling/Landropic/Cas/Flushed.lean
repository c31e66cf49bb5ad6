import Landropic.Cas.Batches

set_option autoImplicit false

/-!
# One byte string written in a batch and flushed

A store at rest, with nothing in its batch, is given one byte string in a batch, and the batch is
flushed. There is at most one batched write, so that nothing but the calls goes on beside it, and
what it leaves on the disk and in the cache is known exactly.

## Main definitions

* `Cas.ContentStore.PutAndFlush` — the steps of such a run.
* `Cas.ContentStore.Flushed` — what is there after the flush.
* `Cas.ContentStore.Standing`, `Cas.ContentStore.Progressed` — what is there between the actions of
  the calls, and between the calls.

## Main results

* `Cas.ContentStore.wp_solo_serveJob` — what the batched write leaves.
* `Cas.ContentStore.wp_solo_serve` — what the calls leave.
* `Cas.ContentStore.progressed_of_run` — what is there when no call is at work.
-/

namespace Landropic.Cas

open Proc

/-- A store at rest in some state. -/
def StoreState.atRest (s : StoreState) : System where
  pool := ⟨s, fun _ => pure .done⟩
  call := none
  started := []
  log := []

namespace ContentStore

variable (store : ContentStore) (first : StoreState) (data : Bytes)

/-- A batch with one byte string is written, and if it was, the batch is flushed; nothing fails. -/
def PutAndFlush (S : System) : Event → Prop
  | .call (.writeBatch chunks) => chunks = [(data, none)] ∧ S.log.length = 0
  | .call .flushBatch => S.log.map (fun entry => entry.2.isOk) = [true]
  | .call _ => False
  | .start _ => True
  | .act _ i => i ≠ .fail

instance (S : System) : ∀ e, Decidable (PutAndFlush data S e)
  | .call (.writeBatch chunks) =>
    inferInstanceAs (Decidable (chunks = [(data, none)] ∧ S.log.length = 0))
  | .call .flushBatch =>
    inferInstanceAs (Decidable (S.log.map (fun entry => entry.2.isOk) = [true]))
  | .call (.write _) | .call (.writeStream _ _) | .call (.startResumableWrite _ _)
  | .call (.continueResumableWrite _ _) | .call (.completeResumableWrite _) | .call (.read _)
  | .call (.prefetch _) | .call .clearCache | .call (.delete _) | .call (.recover _ _) =>
    isFalse id
  | .start _ => isTrue trivial
  | .act _ i => inferInstanceAs (Decidable (i ≠ .fail))

/-- A store that has nothing in its batch and has given nothing to the runtime. -/
structure Fresh : Prop where
  pending : first.batchWriter.pending = []
  spawned : first.spawned = []
  results : first.results = fun _ => none
  tidy : store.Tidy (fun _ _ => True) first.fs

/-- The object of the data has not changed, and neither has the cache. -/
structure Unchanged (hash : ContentHash) (s : StoreState) : Prop where
  object : s.fs.content (store.objectPath hash) = first.fs.content (store.objectPath hash)
  cache : s.cache = first.cache
  stuck : s.cacheStuck = first.cacheStuck

/-- The stored form of the data is the object, and the data was put into the cache. -/
structure Cached (hash : ContentHash) (s : StoreState) : Prop where
  missing : first.dedupIndex.lookup hash = none ∧ first.fs.content (store.objectPath hash) = none
  object : ∃ stored, store.storedForm data = .ok stored ∧
    s.fs.content (store.objectPath hash) = some stored
  cache : first.cache.insert store.config.cacheConfig hash (.new data) = some s.cache
  free : first.cacheStuck = false
  stuck : s.cacheStuck = false

/-- What is there after the flush: what was there before, if the object was known or there, and else
the stored form of the data, which is in the cache then. -/
structure Flushed (s : StoreState) : Prop where
  tidy : store.Tidy (fun _ _ => True) s.fs
  state : store.Cached first data (store.blake3 data) s ∨
    store.Unchanged first (store.blake3 data) s ∧
      (first.dedupIndex.lookup (store.blake3 data) ≠ none ∨
        first.fs.content (store.objectPath (store.blake3 data)) ≠ none)

/-- What the batched write returned is so: it fails only if the compression does. -/
def Reported (s : StoreState) : Prop :=
  ∀ r, s.results 0 = some r → match r with
    | .ok _ => store.Flushed first data s
    | .error _ => ∃ e, store.storedForm data = .error e

/-- The specification of the batched write: nothing but the calls goes on beside it. -/
def soloJobSpec : Spec StoreState Io Op where
  env _ := OnBatch
  env_refl _ := .refl
  env_trans := by
    rintro - s s' s'' ⟨_, _, _, rfl⟩ ⟨_, _, _, rfl⟩
    exact ⟨_, _, _, rfl⟩
  input _ _ i := i ≠ .fail
  guar _ s s' := s'.batchWriter = s.batchWriter ∧ s'.spawned = s.spawned ∧
    (∀ r, s.results 0 = some r → s'.results 0 = some r) ∧ store.Reported first data s'
  progress := False

/-- The specification of the calls: nothing goes on beside them before a write was given to the
runtime. -/
def soloCallSpec : Spec StoreState Io Op where
  env _ s s' := s'.batchWriter = s.batchWriter ∧ s'.spawned = s.spawned ∧
    (s.spawned = [] → s' = s) ∧ (∀ r, s.results 0 = some r → s'.results 0 = some r) ∧
      (store.Reported first data s → store.Reported first data s')
  env_refl _ _ := ⟨rfl, rfl, fun _ => rfl, fun _ => id, id⟩
  env_trans h h' := ⟨h'.1.trans h.1, h'.2.1.trans h.2.1, fun hnone =>
    (h'.2.2.1 (h.2.1.trans hnone)).trans (h.2.2.1 hnone), fun r => h'.2.2.2.1 r ∘ h.2.2.2.1 r,
    h'.2.2.2.2 ∘ h.2.2.2.2⟩
  input _ _ _ := True
  guar _ s s' := OnBatch s s' ∧
    (s'.spawned = s.spawned ∨ s'.spawned = [(store.blake3 data, data)] ∧
      first.dedupIndex.lookup (store.blake3 data) = none)
  progress := False

variable {store first data} {ε α : Type} {s s' : StoreState} {hash : ContentHash}

lemma Flushed.of_onBatch (h : store.Flushed first data s) (hs : OnBatch s s') :
    store.Flushed first data s' := by
  obtain ⟨batch, spawned, permits, rfl⟩ := hs
  refine ⟨h.tidy, h.state.imp (fun h => ?_) fun h => ?_⟩
  · exact ⟨h.missing, h.object, h.cache, h.free, h.stuck⟩
  · exact ⟨⟨h.1.object, h.1.cache, h.1.stuck⟩, h.2⟩

lemma Reported.of_onBatch (h : store.Reported first data s) (hs : OnBatch s s') :
    store.Reported first data s' := by
  intro r hr
  have hresults : s'.results = s.results := by
    obtain ⟨batch, spawned, permits, rfl⟩ := hs
    rfl
  have hr' := h r (hresults ▸ hr)
  cases r with
  | ok ref => exact hr'.of_onBatch hs
  | error e => exact hr'

/-! ## The batched write -/

section Job

/-- What the batched write has in memory until it puts its data into the cache. -/
structure Unwritten (first s : StoreState) : Prop where
  cache : s.cache = first.cache
  stuck : s.cacheStuck = first.cacheStuck
  results : s.results 0 = none

lemma Unwritten.of_onBatch (h : Unwritten first s) (hs : OnBatch s s') : Unwritten first s' := by
  obtain ⟨batch, spawned, permits, rfl⟩ := hs
  exact ⟨h.cache, h.stuck, h.results⟩

lemma Unwritten.of_calm (h : Unwritten first s) (hs : store.Calm s s') : Unwritten first s' := by
  obtain ⟨fs, pending, rfl⟩ := hs.memory
  exact ⟨h.cache, h.stuck, h.results⟩

lemma reported_of_none (h : s.results 0 = none) : store.Reported first data s :=
  fun r hr => by simp [h] at hr

/-- A part of an atomic write, as a part of the batched write. -/
lemma wp_solo_of_writer {Q : Except ε α → StoreState → Prop} {t : Task ε α}
    (h : wp (store.writerSpec (fun _ _ => True) hash False) Q t s)
    (hcalm : store.Calmly (fun _ => True) t) (hs : Unwritten first s) :
    wp (store.soloJobSpec first data) (fun r s => Q r s ∧ Unwritten first s) t s := by
  have hjob : wp { store.soloJobSpec first data with guar := fun _ => store.Calm } Q t s := by
    refine wp_weaken (wp_mono (wp_of_guarantees h hcalm) fun _ _ hr => hr.1) ?_
      (fun _ _ _ hi hfail => hi hfail) (fun _ _ _ hg => hg.2) False.elim
    rintro l s s' ⟨batch, spawned, permits, rfl⟩
    exact (store.writerSpec (fun _ _ => True) hash False).env_refl l s
  refine wp_weaken (wp_frame_guar hjob hs (fun _ _ _ henv h => h.of_onBatch henv)
    fun _ _ _ hguar h => h.of_calm hguar) (fun _ _ _ => id) (fun _ _ _ => id) ?_ id
  rintro op s s' ⟨hcalm, hs'⟩
  obtain ⟨fs, pending, rfl⟩ := hcalm.memory
  exact ⟨rfl, rfl, fun _ => id, reported_of_none hs'.results⟩

/-- The batched write has stored its data and put it into the cache. -/
structure Filed (store : ContentStore) (first : StoreState) (data : Bytes) (s : StoreState) :
    Prop where
  tidy : store.Tidy (fun _ _ => True) s.fs
  cached : store.Cached first data (store.blake3 data) s
  results : s.results 0 = none

lemma Filed.of_onBatch (h : store.Filed first data s) (hs : OnBatch s s') :
    store.Filed first data s' := by
  obtain ⟨batch, spawned, permits, rfl⟩ := hs
  obtain ⟨htidy, h, hresults⟩ := h
  exact ⟨htidy, ⟨h.missing, h.object, h.cache, h.free, h.stuck⟩, hresults⟩

/-- The data is put into the cache, if this ends. -/
lemma wp_solo_cachePut {stored : Bytes}
    (hmissing : first.dedupIndex.lookup (store.blake3 data) = none ∧
      first.fs.content (store.objectPath (store.blake3 data)) = none)
    (hform : store.storedForm data = .ok stored) (htidy : store.Tidy (fun _ _ => True) s.fs)
    (hdone : s.fs.content (store.objectPath (store.blake3 data)) = some stored)
    (hs : Unwritten first s) :
    wp (store.soloJobSpec first data) (fun r s => r = .ok () ∧ store.Filed first data s)
      (store.cachePut (store.blake3 data) data : Task ε Unit) s := by
  rintro s₁ ⟨batch, spawned, permits, rfl⟩
  refine ⟨False.elim, fun hready i _ => ?_⟩
  have hfree : s.cacheStuck = false := by simpa using hready
  dsimp only
  cases hput : s.cache.insert store.config.cacheConfig (store.blake3 data) (.new data) with
  | some cache =>
    refine ⟨⟨rfl, rfl, fun _ => id, reported_of_none hs.results⟩, rfl, htidy, ?_, hs.results⟩
    exact ⟨hmissing, ⟨stored, hform, hdone⟩, hs.cache ▸ hput, hs.stuck ▸ hfree, hfree⟩
  | none =>
    refine ⟨⟨rfl, rfl, fun _ => id, reported_of_none hs.results⟩, ?_⟩
    -- the eviction does not end, so that the cache is never free again
    rintro s₂ ⟨batch, spawned, permits, rfl⟩
    exact ⟨False.elim, fun hready => by simp at hready⟩

/-- What the batched write returns is so. -/
lemma wp_writeIndividualOptimized_solo (hfirst : store.Fresh first)
    (hindex : first.dedupIndex.lookup (store.blake3 data) = none) (hs : OnBatch first s) :
    wp (store.soloJobSpec first data) (fun r s => s.results 0 = none ∧ match r with
        | .ok _ => store.Flushed first data s
        | .error _ => ∃ e, store.storedForm data = .error e)
      (store.writeIndividualOptimized data (store.blake3 data)) s := by
  refine wp_bind (wp_pathExists (fun s' _ hi => absurd rfl hi) fun s₁ n henv _ => ?_)
  obtain ⟨_, _, _, rfl⟩ := (store.soloJobSpec first data).env_trans (l := none) hs henv
  have hnone : first.results 0 = none := by simp [hfirst.results]
  refine ⟨⟨rfl, rfl, fun _ => id, reported_of_none hnone⟩, ?_⟩
  dsimp only
  split
  · next hexists =>
    obtain ⟨content, hcontent⟩ := stored_of_pathExists hfirst.tidy hexists
    refine ⟨hnone, hfirst.tidy, .inr ⟨⟨rfl, rfl, rfl⟩, .inr ?_⟩⟩
    simp [hcontent]
  · next hmissing =>
    have hcontent : first.fs.content (store.objectPath (store.blake3 data)) = none := by
      by_contra hsome
      obtain ⟨content, hcontent⟩ := Option.ne_none_iff_exists'.mp hsome
      exact hmissing (pathExists_of_stored ⟨content, hcontent⟩)
    cases hform : store.storedForm data with
    | error e => exact ⟨hnone, e, rfl⟩
    | ok stored =>
      rw [ofExcept_ok_bind]
      refine wp_bind (wp_mono (wp_solo_of_writer (wp_createShardDir hfirst.tidy)
        (store.calmly_createShardDir _) ⟨rfl, rfl, hnone⟩) ?_)
      rintro (e | u) s₂ ⟨⟨htidy₂, hdir⟩, hs₂⟩
      · exact hdir.elim
      refine wp_bind (wp_mono (wp_solo_of_writer (wp_writeAtomic htidy₂ hdir trivial)
        (store.calmly_writeAtomic _ stored) hs₂) ?_)
      rintro (e | u) s₃ ⟨⟨htidy₃, -, hdone⟩, hs₃⟩
      · exact hdone.elim
      refine wp_bind (wp_mono (wp_solo_cachePut ⟨hindex, hcontent⟩ hform htidy₃ hdone hs₃) ?_)
      rintro _ s₄ ⟨rfl, hs₄⟩
      refine wp_bind (wp_modify fun s₅ henv => ?_)
      obtain ⟨htidy₅, hcached, hresults⟩ := hs₄.of_onBatch henv
      refine ⟨⟨rfl, rfl, fun _ => id, reported_of_none hresults⟩, hresults, htidy₅, .inl ?_⟩
      exact ⟨hcached.missing, hcached.object, hcached.cache, hcached.free, hcached.stuck⟩

/-- **The batched write** returns what is so. -/
theorem wp_solo_serveJob (hfirst : store.Fresh first)
    (hindex : first.dedupIndex.lookup (store.blake3 data) = none) (hs : OnBatch first s) :
    wp (store.soloJobSpec first data) (fun _ _ => True)
      (store.serveJob 0 (store.blake3 data) data) s := by
  refine wp_bind (wp_bind (wp_attempt (wp_mono
    (wp_writeIndividualOptimized_solo hfirst hindex hs) ?_)))
  rintro r s ⟨hnone, hr⟩
  refine wp_modify fun s' henv => ⟨⟨rfl, rfl, fun r' hr' => ?_, fun r' hr' => ?_⟩, trivial⟩
  · obtain ⟨batch, spawned, permits, rfl⟩ := henv
    simp [hnone] at hr'
  obtain rfl : r = r' := by simpa using hr'
  cases r with
  | error e => exact hr
  | ok ref =>
    obtain ⟨htidy, hstate⟩ := hr.of_onBatch henv
    refine ⟨htidy, hstate.imp (fun h => ?_) fun h => ?_⟩
    · exact ⟨h.missing, h.object, h.cache, h.free, h.stuck⟩
    · exact ⟨⟨h.1.object, h.1.cache, h.1.stuck⟩, h.2⟩

end Job

/-! ## The calls -/

section Calls

/-- What the batch and the runtime have, between the actions of the calls. -/
structure Standing (store : ContentStore) (first : StoreState) (data : Bytes)
    (pending spawned : List (ContentHash × Bytes)) (s : StoreState) : Prop where
  pending_eq : s.batchWriter.pending = pending
  spawned_eq : s.spawned = spawned
  reported : store.Reported first data s
  alone : spawned = [] → OnBatch first s

/-- The batched write has returned a reference. -/
def Succeeded (s : StoreState) : Prop := ∃ ref, s.results 0 = some (.ok ref)

/-- Nothing is left to be done: the dedup index had the object, or the batched write has stored it.
-/
def AllDone (store : ContentStore) (first : StoreState) (data : Bytes) (s : StoreState) : Prop :=
  first.dedupIndex.lookup (store.blake3 data) ≠ none ∧ store.Standing first data [] [] s ∨
    first.dedupIndex.lookup (store.blake3 data) = none ∧
      store.Standing first data [] [(store.blake3 data, data)] s ∧ Succeeded s

/-- The data waits in the batch. -/
def Queued (store : ContentStore) (first : StoreState) (data : Bytes) (s : StoreState) : Prop :=
  first.dedupIndex.lookup (store.blake3 data) = none ∧
    store.Standing first data [(store.blake3 data, data)] [] s

variable (store data) in
/-- The data is not to be stored: it is too large, or its compression fails. -/
def Refused : Prop :=
  (∃ e, validateObjectSize data.length = .error e) ∨ ∃ e, store.storedForm data = .error e

variable (store first data) in
/-- The reference that the batch returns. -/
def promisedRef : ObjectRef :=
  (first.dedupIndex.lookup (store.blake3 data)).getD ⟨store.blake3 data, data.length⟩

variable (store first data) in
/-- What is there when no call is at work. -/
def Progressed (log : List (Call × Except CasError Reply)) (s : StoreState) : Prop :=
  match log with
  | [] => store.Standing first data [] [] s
  | [(_, .ok reply)] => reply = .objects [store.promisedRef first data] ∧
    (store.Queued first data s ∨ store.AllDone first data s)
  | [(_, .ok reply), (_, .ok _)] => reply = .objects [store.promisedRef first data] ∧
    store.AllDone first data s
  | _ => store.Refused data

variable {pending spawned : List (ContentHash × Bytes)}

lemma Standing.of_env {l : Option Op} (h : store.Standing first data pending spawned s)
    (henv : (store.soloCallSpec first data).env l s s') :
    store.Standing first data pending spawned s' :=
  ⟨henv.1 ▸ h.pending_eq, henv.2.1 ▸ h.spawned_eq, henv.2.2.2.2 h.reported,
    fun hnone => (henv.2.2.1 (h.spawned_eq.trans hnone)).symm ▸ h.alone hnone⟩

lemma AllDone.of_env {l : Option Op} (h : store.AllDone first data s)
    (henv : (store.soloCallSpec first data).env l s s') : store.AllDone first data s' := by
  refine h.imp (And.imp_right fun hs => hs.of_env henv) (And.imp_right fun hs => ?_)
  obtain ⟨hs, ref, href⟩ := hs
  exact ⟨hs.of_env henv, ref, henv.2.2.2.1 _ href⟩

/-- **When nothing is left to be done** the data is there. -/
lemma AllDone.flushed (h : store.AllDone first data s) (hfirst : store.Fresh first) :
    store.Flushed first data s := by
  rcases h with ⟨hindex, hs⟩ | ⟨-, hs, ref, href⟩
  · refine Flushed.of_onBatch ?_ (hs.alone rfl)
    exact ⟨hfirst.tidy, .inr ⟨⟨rfl, rfl, rfl⟩, .inl hindex⟩⟩
  · exact hs.reported _ href

lemma Progressed.of_env {log : List (Call × Except CasError Reply)} {l : Option Op}
    (h : store.Progressed first data log s) (henv : (store.soloCallSpec first data).env l s s') :
    store.Progressed first data log s' := by
  unfold Progressed at h ⊢
  split at h
  · exact h.of_env henv
  · exact ⟨h.1, h.2.imp (And.imp_right fun hs => hs.of_env henv) fun hs => hs.of_env henv⟩
  · exact ⟨h.1, h.2.of_env henv⟩
  · exact h

/-- An action of a call that leaves the state as it is. -/
lemma wp_solo_still {op : Op} {f : Io → StoreState → Except ε α × StoreState}
    {Q : Except ε α → StoreState → Prop} (hf : ∀ i s, (f i s).2 = s)
    (h : ∀ i s', (store.soloCallSpec first data).env (some op) s s' → Q (f i s').1 s') :
    wp (store.soloCallSpec first data) Q (Proc.atom op f) s := by
  refine wp_atom fun s' henv i _ => ?_
  rw [hf]
  exact ⟨⟨.refl s', .inl rfl⟩, h i s' henv⟩

lemma Standing.withBatch {pending' : List (ContentHash × Bytes)}
    (h : store.Standing first data pending spawned s) {batch : BatchWriter}
    (hbatch : batch.pending = pending') :
    store.Standing first data pending' spawned { s with batchWriter := batch } where
  pending_eq := hbatch
  spawned_eq := h.spawned_eq
  reported := h.reported.of_onBatch ⟨_, _, _, rfl⟩
  alone hnone := by
    obtain ⟨batch, spawned, permits, rfl⟩ := h.alone hnone
    exact ⟨_, _, _, rfl⟩

/-- The data is given to the runtime. -/
lemma wp_solo_spawnAll (hindex : first.dedupIndex.lookup (store.blake3 data) = none)
    (hs : store.Standing first data [] [] s) :
    wp (store.soloCallSpec first data) (fun r s => r = .ok [0] ∧
        store.Standing first data [] [(store.blake3 data, data)] s)
      (spawnAll [(store.blake3 data, data)] : Task ε (List ℕ)) s := by
  refine wp_bind fun s₁ henv => ⟨False.elim, fun _ i _ => ?_⟩
  have hs₁ := hs.of_env henv
  refine ⟨⟨⟨_, _, _, rfl⟩, .inl rfl⟩, ?_⟩
  refine wp_bind (wp_modify fun s₂ henv₂ => ?_)
  have hbatch : OnBatch s₁ { s₁ with permits := s₁.permits - 1 } := ⟨_, _, _, rfl⟩
  have hs₂ : store.Standing first data [] [] s₂ := by
    refine Standing.of_env (s := { s₁ with permits := s₁.permits - 1 }) ?_ henv₂
    exact ⟨hs₁.pending_eq, hs₁.spawned_eq, hs₁.reported.of_onBatch hbatch, fun hnone =>
      (store.soloJobSpec first data).env_trans (l := none) (hs₁.alone hnone) hbatch⟩
  have hspawn : s₂.spawned ++ [(store.blake3 data, data)] = [(store.blake3 data, data)] := by
    rw [hs₂.spawned_eq, List.nil_append]
  refine ⟨⟨⟨_, _, _, rfl⟩, .inr ⟨hspawn, hindex⟩⟩, by simp [hs₂.spawned_eq], hs₂.pending_eq, hspawn,
    ?_,
    by rintro ⟨⟩⟩
  exact hs₂.reported.of_onBatch ⟨_, _, _, rfl⟩

lemma wp_solo_awaitAll (hs : store.Standing first data pending spawned s) :
    wp (store.soloCallSpec first data) (fun r s => match r with
        | .ok _ => store.Standing first data pending spawned s ∧ Succeeded s
        | .error _ => ∃ e, store.storedForm data = .error e) (awaitAll [0]) s := by
  refine wp_bind fun s₁ henv => ⟨False.elim, fun hready i _ => ?_⟩
  have hs₁ := hs.of_env henv
  refine ⟨⟨.refl s₁, .inl rfl⟩, ?_⟩
  obtain ⟨r, hr⟩ := Option.isSome_iff_exists.mp hready
  have hreported := hs₁.reported r hr
  simp only [hr, Option.getD_some]
  cases r with
  | error e => exact hreported
  | ok ref => exact ⟨hs₁, ref, hr⟩

/-- **Flushing the batch** leaves nothing to be done, unless the compression fails. -/
lemma wp_solo_flushBatchInternal (hs : store.Queued first data s ∨ store.AllDone first data s) :
    wp (store.soloCallSpec first data) (fun r s => match r with
        | .ok _ => store.AllDone first data s
        | .error _ => ∃ e, store.storedForm data = .error e) flushBatchInternal s := by
  refine wp_bind (wp_modify fun s₁ henv => ⟨⟨⟨_, _, _, rfl⟩, .inl rfl⟩, ?_⟩)
  rcases hs with ⟨hindex, hs⟩ | hdone
  · have hs₁ := hs.of_env henv
    dsimp only
    rw [hs₁.pending_eq]
    refine wp_bind (wp_mono (wp_solo_spawnAll hindex (hs₁.withBatch rfl)) ?_)
    rintro _ s₂ ⟨rfl, hs₂⟩
    refine wp_bind (wp_mono (wp_solo_awaitAll hs₂) ?_)
    rintro (e | u) s₃ hs₃
    · exact hs₃
    · refine wp_bind (wp_solo_still (fun _ _ => rfl) fun i s₄ henv₄ => wp_modify fun s₅ henv₅ => ?_)
      obtain ⟨hs₃, ref, href⟩ := hs₃
      have hs₅ := (hs₃.of_env henv₄).of_env henv₅
      exact ⟨⟨⟨_, _, _, rfl⟩, .inl rfl⟩, .inr ⟨hindex, hs₅.withBatch hs₅.pending_eq, ref,
        henv₅.2.2.2.1 _ (henv₄.2.2.2.1 _ href)⟩⟩
  · have hdone₁ := hdone.of_env henv
    have hnothing : s₁.batchWriter.pending = [] := by
      rcases hdone₁ with ⟨-, hs⟩ | ⟨-, hs, -⟩
      · exact hs.pending_eq
      · exact hs.pending_eq
    dsimp only
    rw [hnothing]
    exact hdone₁.imp (And.imp_right fun hs => hs.withBatch rfl)
      (And.imp_right (And.imp_left fun hs => hs.withBatch rfl))

lemma wp_solo_flushBatch (hs : store.Queued first data s ∨ store.AllDone first data s) :
    wp (store.soloCallSpec first data) (fun r s => match r with
        | .ok _ => store.AllDone first data s
        | .error _ => ∃ e, store.storedForm data = .error e) flushBatch s := by
  refine wp_bind (wp_solo_still (fun _ _ => rfl) fun i s₁ henv => ?_)
  dsimp only
  rcases hs with ⟨hindex, hs⟩ | hdone
  · have hs₁ := hs.of_env henv
    rw [hs₁.pending_eq]
    exact wp_solo_flushBatchInternal (.inl ⟨hindex, hs₁⟩)
  · have hdone₁ := hdone.of_env henv
    split
    · exact hdone₁
    · exact wp_solo_flushBatchInternal (.inr hdone₁)

lemma wp_solo_queue (hs : store.Standing first data [] [] s) :
    wp (store.soloCallSpec first data) (fun r s => r = .ok (store.promisedRef first data) ∧
        (store.Queued first data s ∨ store.AllDone first data s))
      (queue (store.blake3 data) data) s := by
  refine wp_bind (wp_solo_still (fun _ _ => rfl) fun i s₁ henv => ?_)
  have hs₁ := hs.of_env henv
  have hindex : s₁.dedupIndex = first.dedupIndex := by
    obtain ⟨batch, spawned, permits, rfl⟩ := hs₁.alone rfl
    rfl
  dsimp only
  rw [hindex]
  split
  · next ref hlookup =>
    exact ⟨by rw [promisedRef, hlookup]; rfl, .inr (.inl ⟨by simp [hlookup], hs₁⟩)⟩
  · next hlookup =>
    refine wp_bind (wp_modify fun s₂ henv₂ => ?_)
    have hs₂ := hs₁.of_env henv₂
    refine ⟨⟨⟨_, _, _, rfl⟩, .inl rfl⟩, by rw [promisedRef, hlookup]; rfl,
      .inl ⟨hlookup, hs₂.withBatch ?_⟩⟩
    rw [hs₂.pending_eq, List.nil_append]

/-- **Writing the batch** queues the data or stores it, unless it is refused. -/
lemma wp_solo_writeBatch (hs : store.Standing first data [] [] s) :
    wp (store.soloCallSpec first data) (fun r s => match r with
        | .ok refs => refs = [store.promisedRef first data] ∧
          (store.Queued first data s ∨ store.AllDone first data s)
        | .error _ => store.Refused data) (store.writeBatch [(data, none)]) s := by
  have hqueueAll : wp (store.soloCallSpec first data) (fun r s => match r with
        | .ok refs => refs = [store.promisedRef first data] ∧
          (store.Queued first data s ∨ store.AllDone first data s)
        | .error _ => store.Refused data) (store.queueAll [(data, none)]) s := by
    rw [queueAll]
    split
    · next e he => exact .inl ⟨e, he⟩
    · refine wp_bind (wp_mono (wp_solo_queue hs) ?_)
      rintro _ s₁ ⟨rfl, hs₁⟩
      exact ⟨rfl, hs₁⟩
  refine wp_bind (wp_mono hqueueAll ?_)
  rintro (e | refs) s₁ hs₁
  · exact hs₁
  obtain ⟨rfl, hs₁⟩ := hs₁
  refine wp_bind (wp_solo_still (fun _ _ => rfl) fun i s₂ henv => ?_)
  have hs₂ := hs₁.imp (And.imp_right fun hs => hs.of_env henv) fun hs => AllDone.of_env hs henv
  dsimp only
  generalize s₂.batchWriter.shouldFlush _ = flush
  cases flush with
  | false => exact ⟨rfl, hs₂⟩
  | true =>
    refine wp_bind (wp_mono (wp_solo_flushBatchInternal hs₂) ?_)
    rintro (e | u) s₃ hs₃
    · exact .inr hs₃
    · exact ⟨rfl, .inr hs₃⟩

/-- **What a call leaves**, whatever the batched write does. -/
theorem wp_solo_serve {S : System} {call : Call} (hcall : PutAndFlush data S (.call call))
    (hs : store.Progressed first data S.log s) :
    wp (store.soloCallSpec first data)
      (fun r s => store.Progressed first data (S.log ++ [(call, r)]) s) (store.serve call) s := by
  cases call with
  | writeBatch chunks =>
    obtain ⟨rfl, hlog⟩ := hcall
    rw [List.length_eq_zero_iff.mp hlog] at hs ⊢
    refine wp_bind (wp_mono (wp_solo_writeBatch hs) ?_)
    rintro (e | refs) s₁ hs₁
    · exact hs₁
    · obtain ⟨rfl, hs₁⟩ := hs₁
      exact ⟨rfl, hs₁⟩
  | flushBatch =>
    obtain ⟨⟨call, r⟩, hlog, hok⟩ := List.map_eq_singleton_iff.mp hcall
    rw [hlog] at hs ⊢
    cases r with
    | error e => cases hok
    | ok reply =>
      obtain ⟨rfl, hs⟩ := hs
      refine wp_bind (wp_mono (wp_solo_flushBatch hs) ?_)
      rintro (e | u) s₁ hs₁
      · exact .inr hs₁
      · exact ⟨rfl, hs₁⟩
  | _ => exact hcall.elim

end Calls

/-! ## Runs -/

section Runs

/-- What holds in every state of such a run. -/
structure Solo (store : ContentStore) (first : StoreState) (data : Bytes) (S : System) : Prop where
  /-- Until the batched write starts the store is as it was, but for the batch. -/
  fresh : S.started = [] → OnBatch first S.pool.state
  spawned : S.pool.state.spawned = [] ∨ S.pool.state.spawned = [(store.blake3 data, data)] ∧
    first.dedupIndex.lookup (store.blake3 data) = none
  started : ∀ e ∈ S.started, e.1 = 0 ∧ S.pool.state.spawned ≠ []
  call : wp (store.soloCallSpec first data) (fun r s => ∀ call, S.call = some call →
    store.Progressed first data (S.log ++ [(call, r)]) s) (S.pool.task none) S.pool.state
  idle : S.call = none → store.Progressed first data S.log S.pool.state
  quiet : S.call = none → ∃ r, S.pool.task none = .ret r
  job : ∀ job, (∃ r, S.pool.task (some job) = .ret r) ∨ job = 0 ∧ S.started ≠ [] ∧
    wp (store.soloJobSpec first data) (fun _ _ => True) (S.pool.task (some job)) S.pool.state

variable {S : System} {P : Pool (Option ℕ) StoreState Io Op CasError Reply}

lemma Solo.call_step (h : store.Solo first data S) {i : Io} (hstep : S.pool.Step none i P) :
    store.Solo first data { S with pool := P } := by
  obtain ⟨⟨op, -, hbatch, hspawned⟩, hrest⟩ := Proc.wp_step h.call hstep.proc fun _ _ => trivial
  have hjob : ∀ job, P.task (some job) = S.pool.task (some job) :=
    fun job => hstep.task_of_ne (by simp)
  have hbusy : S.call = none → False := by
    intro hnone
    obtain ⟨r, hr⟩ := h.quiet hnone
    exact hstep.ne_ret _ hr
  refine ⟨fun hnone => ?_, ?_, fun e he => ⟨(h.started e he).1, ?_⟩, hrest,
    fun hnone => (hbusy hnone).elim, fun hnone => (hbusy hnone).elim, fun job => ?_⟩
  · exact (store.soloJobSpec first data).env_trans (l := none) (h.fresh hnone) hbatch
  · rcases hspawned with hsame | hnew
    · show P.state.spawned = _ ∨ P.state.spawned = _ ∧ _
      rw [hsame]
      exact h.spawned
    · exact .inr hnew
  · show P.state.spawned ≠ []
    rcases hspawned with hsame | ⟨hnew, -⟩
    · rw [hsame]
      exact (h.started e he).2
    · simp [hnew]
  · show (∃ r, P.task (some job) = _) ∨ _ ∧ _ ∧ wp _ _ (P.task (some job)) P.state
    rw [hjob]
    refine (h.job job).imp_right ?_
    rintro ⟨rfl, hstarted, hwp⟩
    exact ⟨rfl, hstarted, wp_of_env hwp (fun _ _ _ => trivial) hbatch⟩

lemma Solo.job_step (h : store.Solo first data S) {job : ℕ} {i : Io} (hi : i ≠ .fail)
    (hstep : S.pool.Step (some job) i P) : store.Solo first data { S with pool := P } := by
  have hnone : P.task none = S.pool.task none := hstep.task_of_ne (by simp)
  rcases h.job job with ⟨r, hr⟩ | ⟨rfl, hstarted, hwp⟩
  · exact absurd hr (hstep.ne_ret r)
  obtain ⟨⟨op, -, hbatch, hspawned, hresults, hreported⟩, hrest⟩ :=
    Proc.wp_step hwp hstep.proc fun _ _ => hi
  have hgiven : S.pool.state.spawned ≠ [] := by
    obtain ⟨e, he⟩ := List.exists_mem_of_ne_nil _ hstarted
    exact (h.started e he).2
  have henv : ∀ l, (store.soloCallSpec first data).env l S.pool.state P.state :=
    fun l => ⟨hbatch, hspawned, fun hno => absurd hno hgiven, hresults, fun _ => hreported⟩
  refine ⟨fun hno => absurd hno hstarted, ?_, fun e he => ⟨(h.started e he).1, ?_⟩, ?_,
    fun hidle => (h.idle hidle).of_env (henv none), fun hidle => ?_, fun other => ?_⟩
  · show P.state.spawned = _ ∨ P.state.spawned = _ ∧ _
    rw [hspawned]
    exact h.spawned
  · show P.state.spawned ≠ []
    rw [hspawned]
    exact hgiven
  · show wp _ _ (P.task none) P.state
    rw [hnone]
    exact wp_of_env h.call (fun r _ hr call hcall => (hr call hcall).of_env (henv none)) (henv _)
  · show ∃ r, P.task none = _
    rw [hnone]
    exact h.quiet hidle
  · by_cases ho : other = 0
    · subst ho
      exact .inr ⟨rfl, hstarted, hrest⟩
    · left
      show ∃ r, P.task (some other) = _
      rw [hstep.task_of_ne fun heq => ho (Option.some.inj heq)]
      exact (h.job other).resolve_right fun hr => ho hr.1

/-- **In every run** in which one byte string is written in a batch and flushed, what the calls
leave is known. -/
theorem solo_of_run (hfirst : store.Fresh first)
    (hrun : store.Run (PutAndFlush data) first.atRest S) : store.Solo first data S := by
  refine hrun.invariant ?_ ?_ ?_ ?_ ?_
  · have hnone : first.results 0 = none := by simp [hfirst.results]
    exact ⟨fun _ => .refl first, .inl hfirst.spawned, by rintro e ⟨⟩, by rintro call ⟨⟩, fun _ =>
      ⟨hfirst.pending, hfirst.spawned, reported_of_none hnone, fun _ => .refl first⟩,
      fun _ => ⟨_, rfl⟩, fun _ => .inl ⟨_, rfl⟩⟩
  · intro S call _ hS hC hnone _
    refine ⟨hS.fresh, hS.spawned, hS.started, ?_, by rintro ⟨⟩, by rintro ⟨⟩, fun job => ?_⟩
    · rw [show (S.called store call).pool.task none = store.serve call from
        Pool.task_withTask_self ..]
      refine wp_mono (wp_solo_serve hC (hS.idle hnone)) fun r s hr call' hcall => ?_
      obtain rfl := Option.some.inj hcall
      exact hr
    · rw [show (S.called store call).pool.task (some job) = S.pool.task (some job) from
        Pool.task_withTask_of_ne _ _ (by simp)]
      exact hS.job job
  · intro S job hash data' _ hS _ hspawned hnew
    obtain ⟨hgiven, hindex⟩ := hS.spawned.resolve_left fun hno => by simp [hno] at hspawned
    obtain ⟨rfl, hx⟩ : job = 0 ∧ (store.blake3 data, data) = (hash, data') := by
      simpa [hgiven, List.getElem?_singleton] using hspawned
    obtain ⟨rfl, rfl⟩ := Prod.mk.inj hx
    have hfresh : S.started = [] := by
      by_contra hsome
      obtain ⟨e, he⟩ := List.exists_mem_of_ne_nil _ hsome
      exact hnew (List.mem_map.mpr ⟨e, he, (hS.started e he).1⟩)
    have hnone : (S.startedJob store 0 (store.blake3 data) data).pool.task none =
      S.pool.task none := Pool.task_withTask_of_ne _ _ (by simp)
    refine ⟨by rintro ⟨⟩, hS.spawned, fun e he => ?_, ?_, hS.idle, ?_, fun job => ?_⟩
    · have hnonempty : S.pool.state.spawned ≠ [] := by simp [hgiven]
      rcases List.mem_cons.mp he with rfl | hold
      · exact ⟨rfl, hnonempty⟩
      · exact hS.started e hold
    · rw [hnone]
      exact hS.call
    · rw [hnone]
      exact hS.quiet
    · by_cases ho : job = 0
      · subst ho
        refine .inr ⟨rfl, by rintro ⟨⟩, ?_⟩
        rw [show (S.startedJob store 0 (store.blake3 data) data).pool.task (some 0) =
          store.serveJob 0 (store.blake3 data) data from Pool.task_withTask_self ..]
        exact wp_solo_serveJob hfirst hindex (hS.fresh hfresh)
      · left
        rw [show (S.startedJob store 0 (store.blake3 data) data).pool.task (some job) =
          S.pool.task (some job) from Pool.task_withTask_of_ne _ _ (by simpa using ho)]
        exact (hS.job job).resolve_right fun hr => ho hr.1
  · intro S t i P _ hS hC hstep
    cases t with
    | none => exact hS.call_step hstep
    | some job => exact hS.job_step hC hstep
  · intro S call r hS hcall hr
    have hret : (S.returned call r).pool.task none = .ret r := hr
    have hdone := hS.call
    rw [hr] at hdone
    refine ⟨hS.fresh, hS.spawned, hS.started, ?_, fun _ => hdone call hcall, fun _ => ⟨r, hr⟩,
      hS.job⟩
    rw [hret]
    rintro call' ⟨⟩

/-- **What is there between the calls.** -/
theorem progressed_of_run (hfirst : store.Fresh first)
    (hrun : store.Run (PutAndFlush data) first.atRest S) (hidle : S.call = none) :
    store.Progressed first data S.log S.pool.state := (solo_of_run hfirst hrun).idle hidle

lemma log_of_isOk {log : List (Call × Except CasError Reply)}
    (h : log.map (fun entry => entry.2.isOk) = [true, true]) :
    ∃ c₁ r₁ c₂ r₂, log = [(c₁, .ok r₁), (c₂, .ok r₂)] := by
  have hok : ∀ r : Except CasError Reply, r.isOk = true → ∃ reply, r = .ok reply := by
    intro r hr
    cases r with
    | error e => cases hr
    | ok reply => exact ⟨reply, rfl⟩
  obtain ⟨⟨c₁, r₁⟩, rest, rfl, hr₁, hrest⟩ := List.map_eq_cons_iff.mp h
  obtain ⟨⟨c₂, r₂⟩, rfl, hr₂⟩ := List.map_eq_singleton_iff.mp hrest
  obtain ⟨reply₁, rfl⟩ := hok _ hr₁
  obtain ⟨reply₂, rfl⟩ := hok _ hr₂
  exact ⟨c₁, reply₁, c₂, reply₂, rfl⟩

/-- **What is there after the flush.** -/
theorem flushed_of_run (hfirst : store.Fresh first)
    (hrun : store.Run (PutAndFlush data) first.atRest S) (hidle : S.call = none)
    (hok : S.log.map (fun entry => entry.2.isOk) = [true, true]) :
    store.Flushed first data S.pool.state := by
  have h := progressed_of_run hfirst hrun hidle
  obtain ⟨c₁, r₁, c₂, r₂, hlog⟩ := log_of_isOk hok
  rw [hlog] at h
  exact h.2.flushed hfirst

end Runs

end ContentStore

end Landropic.Cas
