import Landropic.Cas.System
import Landropic.Cas.Writers

set_option autoImplicit false

/-!
# What the actions of tasks leave alone

Most actions of a store concern one part of its state: the disk, the cache or the batch. Those that
concern the disk leave every object that is there where it is, except for the deletion of an
object.

## Main definitions

* `Cas.ContentStore.Calm` — nothing but the disk changes, and no object disappears.
* `Cas.ContentStore.Calmly` — tasks all of whose actions are of that kind.
* `Cas.OnCache`, `Cas.OnBatch` — nothing but the cache, or the batch and what the runtime is given,
  changes.

## Main results

* `Cas.ContentStore.calmly_writeIndividual`, `Cas.ContentStore.calmly_continueResumableWrite`,
  `Cas.ContentStore.calmly_recover` and so on — tasks that only concern the disk.
* `Cas.ContentStore.batchwise_flushBatch` — flushing only concerns the batch; what the batched
  writes do is theirs.
-/

namespace Landropic.Cas

open Proc

namespace ContentStore

variable (store : ContentStore)

/-- Nothing but the disk changes, and the count of the syncs to come, and no object disappears. -/
structure Calm (s s' : StoreState) : Prop where
  memory : ∃ fs pending, s' = { s with fs := fs, pendingSyncs := pending }
  object : ∀ hash, s.fs.pathExists (store.objectPath hash) = true →
    s'.fs.pathExists (store.objectPath hash) = true

/-- Every action only concerns the disk, and the task ends with an outcome in `Q`. -/
abbrev Calmly {ε α : Type} (Q : Except ε α → Prop) (t : Task ε α) : Prop :=
  Guarantees (fun _ => store.Calm) Q t

variable {store} {ε α β : Type} {hash : ContentHash} {p q : FilePath}

lemma Calm.refl (s : StoreState) : store.Calm s s := ⟨⟨s.fs, s.pendingSyncs, rfl⟩, fun _ h => h⟩

/-- A path that is none of an object. -/
def NoObject (store : ContentStore) (p : FilePath) : Prop := ∀ hash, p ≠ store.objectPath hash

lemma noObject_of_length (h : p.length ≠ store.rootPath.length + 4) : store.NoObject p := by
  rintro hash rfl
  exact h (store.length_objectPath hash)

lemma noObject_of_dot {name : Text} {dir : FilePath} (h : '.' ∈ name) :
    store.NoObject (name :: dir) := by
  intro hash heq
  rw [objectPath, List.cons.injEq] at heq
  exact dot_notMem_name hash (heq.1 ▸ h)

lemma noObject_objectTemp : store.NoObject (store.objectTemp hash) :=
  fun _ => objectTemp_ne_objectPath

/-! ## Single actions -/

lemma Calmly.bind {Q : Except ε β → Prop} {t : Task ε α} {k : α → Task ε β}
    (h : store.Calmly (fun _ => True) t) (herr : ∀ e, Q (.error e))
    (hk : ∀ a, store.Calmly Q (k a)) : store.Calmly Q (t >>= k) :=
  Guarantees.bind h (fun e _ => herr e) fun a _ => hk a

variable {op : Op}

lemma calmly_disk {f : Fs → Except IoError α × Fs}
    (h : ∀ fs hash, fs.pathExists (store.objectPath hash) = true →
      (f fs).2.pathExists (store.objectPath hash) = true) :
    store.Calmly (fun _ => True) (disk op f) := by
  apply Guarantees.atom
  intro i s
  refine ⟨?_, trivial⟩
  cases i with
  | fail => exact .refl s
  | ok n => exact ⟨⟨(f s.fs).2, s.pendingSyncs, rfl⟩, h s.fs⟩

lemma calmly_look {f : Fs → Except IoError α} :
    store.Calmly (fun _ => True) (look op f) := calmly_disk fun _ _ h => h

lemma calmly_createDirAll : store.Calmly (fun _ => True) (disk op (Fs.createDirAll p)) :=
  calmly_disk fun _ _ => Fs.pathExists_createDirAll

lemma calmly_create : store.Calmly (fun _ => True) (disk op (Fs.create p)) :=
  calmly_disk fun _ _ => Fs.pathExists_create

lemma calmly_rename (hp : store.NoObject p) :
    store.Calmly (fun _ => True) (disk op (Fs.rename p q)) :=
  calmly_disk fun _ hash => Fs.pathExists_rename (hp hash).symm

lemma calmly_removeFile (hp : store.NoObject p) :
    store.Calmly (fun _ => True) (disk op (Fs.removeFile p)) :=
  calmly_disk fun _ hash => Fs.pathExists_removeFile (hp hash).symm

lemma calmly_pathExists : store.Calmly (fun _ => True) (pathExists p : Task ε Bool) :=
  Guarantees.atom fun _ s => ⟨.refl s, trivial⟩

lemma calmly_ask : store.Calmly (fun _ => True) (ask op : Task ε ℕ) :=
  Guarantees.atom fun _ s => ⟨.refl s, trivial⟩

lemma calmly_mapErr {ε' : Type} {f : ε → ε'} {t : Task ε α} (h : store.Calmly (fun _ => True) t) :
    store.Calmly (fun _ => True) (t.mapErr f) :=
  Guarantees.mapErr h (fun _ _ => trivial) fun _ _ => trivial

lemma calmly_attempt {ε' : Type} {t : Task ε α} (h : store.Calmly (fun _ => True) t) :
    store.Calmly (fun _ => True) (t.attempt : Task ε' (Except ε α)) :=
  Guarantees.attempt h fun _ _ => trivial

/-! ## Atomic writes -/

lemma calmly_writeAll {p : FilePath} {ino : ℕ} {pos : Option ℕ} (data : Bytes) :
    store.Calmly (fun _ => True) (writeAll p ino pos data) := by
  induction data generalizing pos with
  | nil => trivial
  | cons b rest ih =>
    refine Calmly.bind (calmly_disk fun fs hash h => ?_) (fun _ => trivial) fun _ => ih
    cases pos with
    | none => exact h
    | some n => exact h

variable (store) in
lemma calmly_countPendingSync : store.Calmly (fun _ => True) store.countPendingSync := by
  unfold countPendingSync
  split
  · refine Calmly.bind (Guarantees.atom fun _ s => ⟨⟨⟨s.fs, _, rfl⟩, fun _ h => h⟩, trivial⟩)
      (fun _ => trivial) fun pending => ?_
    split
    · exact Guarantees.atom fun _ s => ⟨⟨⟨s.fs, _, rfl⟩, fun _ h => h⟩, trivial⟩
    · trivial
  · trivial

variable (store) in
lemma calmly_fsyncParent (dir : FilePath) :
    store.Calmly (fun _ => True) (store.fsyncParent dir) := by
  unfold fsyncParent
  split
  · exact calmly_mapErr (calmly_mapErr calmly_look)
  · trivial

lemma calmly_writeAtomic_end (dir : FilePath) : store.Calmly (fun _ => True) (do
    store.fsyncParent dir
    store.countPendingSync) :=
  Calmly.bind (store.calmly_fsyncParent dir) (fun _ => trivial) fun _ =>
    store.calmly_countPendingSync

lemma calmly_renameTemp (hp : store.NoObject p) :
    store.Calmly (fun _ => True) (renameTemp p q) := by
  refine Calmly.bind (calmly_attempt (calmly_rename hp)) (fun _ => trivial) fun r => ?_
  cases r with
  | ok u => trivial
  | error e =>
    exact Calmly.bind (calmly_attempt (calmly_removeFile hp)) (fun _ => trivial) fun _ => trivial

variable (store) in
lemma calmly_fsyncTemp (p : FilePath) : store.Calmly (fun _ => True) (store.fsyncTemp p) := by
  unfold fsyncTemp
  split
  · exact calmly_mapErr calmly_look
  · trivial

variable (store) in
lemma calmly_createShardDir (hash : ContentHash) :
    store.Calmly (fun _ => True) (store.createShardDir hash) := calmly_mapErr calmly_createDirAll

variable (store) in
lemma calmly_writeAtomic (hash : ContentHash) (data : Bytes) :
    store.Calmly (fun _ => True) (store.writeAtomic (store.objectPath hash) data) := by
  refine Calmly.bind (calmly_mapErr calmly_create) (fun _ => trivial) fun i => ?_
  refine Calmly.bind (calmly_mapErr (calmly_writeAll data)) (fun _ => trivial) fun _ => ?_
  refine Calmly.bind (store.calmly_fsyncTemp _) (fun _ => trivial) fun _ => ?_
  refine Calmly.bind (calmly_renameTemp noObject_objectTemp) (fun _ => trivial) fun _ => ?_
  exact calmly_writeAtomic_end _

variable (store) in
/-- Writing an individual file only concerns the disk. -/
theorem calmly_writeIndividual (data : Bytes) (hash : ContentHash) :
    store.Calmly (fun _ => True) (store.writeIndividual data hash) := by
  refine Calmly.bind (store.calmly_createShardDir hash) (fun _ => trivial) fun _ => ?_
  exact Calmly.bind (store.calmly_writeAtomic hash data) (fun _ => trivial) fun _ => trivial

variable (store) in
lemma calmly_readPacked (hash : ContentHash) :
    store.Calmly (fun r => ∀ data, r = .ok (some data) → store.blake3 data = hash)
      (store.readPacked hash : Task ε (Option Bytes)) := by
  unfold readPacked
  split
  · refine Guarantees.atom fun i s => ⟨.refl s, fun data h => ?_⟩
    cases i with
    | fail => cases h
    | ok n => exact store.packs.blake3_of_readPacked (Except.ok.inj h)
  · rintro data ⟨⟩

variable (store) in
lemma calmly_existsObject (hash : ContentHash) :
    store.Calmly (fun _ => True) (store.existsObject hash : Task ε Bool) := by
  refine Calmly.bind calmly_pathExists (fun _ => trivial) fun found => ?_
  split
  · trivial
  · exact Guarantees.bind (store.calmly_readPacked hash) (fun _ _ => trivial) fun _ _ => trivial

/-! ## Streamed writes -/

lemma noObject_temp (name : Text) : store.NoObject (name :: store.tempDir) :=
  noObject_of_length (by simp [tempDir])

variable (store) in
lemma calmly_createTempDir : store.Calmly (fun _ => True) store.createTempDir :=
  calmly_mapErr calmly_createDirAll

variable (store) in
lemma calmly_streamFrom (reader : Reader) (p : FilePath) (ino : ℕ) (pos : Option ℕ) :
    store.Calmly (fun _ => True) (store.streamFrom reader p ino pos) := by
  have hcopy : ∀ (blocks : List Bytes) (pos : Option ℕ) (buf : Bytes),
      store.Calmly (fun _ => True) (store.copyBlocks p ino pos buf blocks) := by
    intro blocks
    induction blocks with
    | nil => exact fun _ _ => trivial
    | cons block rest ih =>
      exact fun pos buf => Calmly.bind (calmly_writeAll _) (fun _ => trivial) fun _ => ih _ _
  refine Calmly.bind (calmly_mapErr (hcopy _ _ _)) (fun _ => trivial) fun out => ?_
  dsimp only
  split
  · trivial
  · exact calmly_mapErr (calmly_writeAll _)

lemma calmly_discard (hp : store.NoObject p) {e : CasError} :
    store.Calmly (fun r => ∃ e, r = .error e) (discard p e : Task CasError α) :=
  Calmly.bind (calmly_attempt (calmly_removeFile hp)) (fun e => ⟨e, rfl⟩) fun _ => ⟨e, rfl⟩

lemma calmly_verifyHash (hp : store.NoObject p) {expected : Option ContentHash}
    {computed : ContentHash} : store.Calmly (fun _ => True) (verifyHash p expected computed) := by
  unfold verifyHash
  split
  · split
    · exact Guarantees.mono (calmly_discard hp) (fun _ _ _ h => h) fun _ _ => trivial
    · trivial
  · trivial

lemma calmly_verifySize (hp : store.NoObject p) {totalSize : Option ℕ} {size : ℕ} :
    store.Calmly (fun _ => True) (verifySize p totalSize size) := by
  unfold verifySize
  split
  · split
    · exact Guarantees.mono (calmly_discard hp) (fun _ _ _ h => h) fun _ _ => trivial
    · trivial
  · trivial

variable (store) in
lemma calmly_fsyncStream (p : FilePath) : store.Calmly (fun _ => True) (store.fsyncStream p) := by
  unfold fsyncStream
  split
  · exact calmly_mapErr calmly_look
  · trivial

variable (store) in
/-- The transfers a store hands out have their files in the directory of the streamed writes. -/
def HandsOut (transfer : PartialTransfer) : Prop :=
  ∃ name, transfer.tempPath = name :: store.tempDir

variable (store) in
/-- Starting a resumable write only concerns the disk. -/
theorem calmly_startResumableWrite (expectedHash : Option ContentHash) (totalSize : Option ℕ) :
    store.Calmly (fun r => ∀ transfer, r = .ok transfer → store.HandsOut transfer)
      (store.startResumableWrite expectedHash totalSize) := by
  refine Calmly.bind calmly_ask (by rintro e transfer ⟨⟩) fun id => ?_
  refine Calmly.bind store.calmly_createTempDir (by rintro e transfer ⟨⟩) fun _ => ?_
  refine Calmly.bind calmly_ask (by rintro e transfer ⟨⟩) fun now => ?_
  rintro transfer ⟨⟩
  exact ⟨_, rfl⟩

variable (store) in
/-- Continuing a resumable write only concerns the disk. -/
theorem calmly_continueResumableWrite (transfer : PartialTransfer) (reader : Reader) :
    store.Calmly (fun r => ∀ transfer', r = .ok transfer' →
      transfer'.tempPath = transfer.tempPath) (store.continueResumableWrite transfer reader) := by
  have hopen : store.Calmly (fun _ => True) (openPartial transfer) := by
    unfold openPartial
    split
    · exact Calmly.bind (calmly_mapErr calmly_create) (fun _ => trivial) fun _ => trivial
    · exact Calmly.bind (calmly_mapErr calmly_look) (fun _ => trivial) fun _ => trivial
  have hrestore : store.Calmly (fun _ => True) (restoreHasher transfer) := by
    unfold restoreHasher
    split
    · exact Calmly.bind (calmly_mapErr calmly_look) (fun _ => trivial) fun _ => trivial
    · trivial
  refine Calmly.bind calmly_ask (by rintro e transfer ⟨⟩) fun now => ?_
  split
  · rintro transfer ⟨⟩
  · refine Calmly.bind hopen (by rintro e transfer ⟨⟩) fun out => ?_
    refine Calmly.bind hrestore (by rintro e transfer ⟨⟩) fun _ => ?_
    refine Calmly.bind (store.calmly_streamFrom _ _ _ _) (by rintro e transfer ⟨⟩) fun _ => ?_
    rintro transfer' ⟨⟩
    rfl

/-! ## Reading and recovering -/

variable (store) in
lemma calmly_readIndividual (hash : ContentHash) :
    store.Calmly (fun r => ∀ data, r = .ok data → store.blake3 data = hash)
      (store.readIndividual hash) := by
  refine Calmly.bind calmly_pathExists (by rintro e data ⟨⟩) fun found => ?_
  split
  · refine Calmly.bind (calmly_mapErr calmly_look) (by rintro e data ⟨⟩) fun len => ?_
    split
    · rintro data ⟨⟩
    · refine Calmly.bind (calmly_mapErr calmly_look) (by rintro e data ⟨⟩) fun data => ?_
      split
      · rintro data ⟨⟩
      · split
        · rintro data ⟨⟩
        · next hhash =>
          rintro data ⟨⟩
          exact not_not.mp hhash
  · rintro data ⟨⟩

lemma calmly_cleanUp (hp : store.NoObject p) (stats : RecoveryStats) :
    store.Calmly (fun _ => True) (cleanUp p stats) :=
  Calmly.bind (calmly_attempt (calmly_removeFile hp)) (fun _ => trivial) fun _ => trivial

lemma calmly_completeRecovery (hp : store.NoObject p) (stats : RecoveryStats) :
    store.Calmly (fun _ => True) (store.completeRecovery p q stats) := by
  refine Calmly.bind (calmly_attempt (calmly_rename hp)) (fun _ => trivial) fun r => ?_
  cases r with
  | ok u =>
    dsimp only
    split
    · exact Calmly.bind (calmly_attempt (calmly_mapErr calmly_look)) (fun _ => trivial)
        fun _ => trivial
    · trivial
  | error e =>
    exact Calmly.bind (calmly_attempt (calmly_removeFile hp)) (fun _ => trivial) fun _ => trivial

variable (store) in
lemma calmly_recoverTempFile (p : FilePath) (stats : RecoveryStats) :
    store.Calmly (fun _ => True) (store.recoverTempFile p stats) := by
  unfold recoverTempFile
  split
  · trivial
  · next name dir =>
    split
    · trivial
    · next htmp =>
      have hp : store.NoObject (name :: dir) := by
        refine noObject_of_dot ((not_not.mp htmp).subset ?_)
        decide
      refine Calmly.bind calmly_pathExists (fun _ => trivial) fun found => ?_
      split
      · refine Calmly.bind (calmly_attempt (calmly_removeFile hp)) (fun _ => trivial) fun r => ?_
        cases r with
        | ok u => trivial
        | error e => trivial
      · refine Calmly.bind (calmly_attempt calmly_look) (fun _ => trivial) fun r => ?_
        cases r with
        | error e => exact calmly_cleanUp hp stats
        | ok data =>
          dsimp only
          split
          · exact calmly_completeRecovery hp stats
          · exact calmly_cleanUp hp stats

variable (store) in
lemma calmly_recoverWalk (order : IterOrder FilePath) (fuel : ℕ) (stack entries : List FilePath)
    (stats : RecoveryStats) :
    store.Calmly (fun _ => True) (store.recoverWalk order fuel stack entries stats) := by
  fun_induction recoverWalk store order fuel stack entries stats with
  | case1 => exact fun _ _ hready => by cases hready
  | case2 => trivial
  | case3 fuel dir stack stats ih₁ ih₂ =>
    refine Calmly.bind (calmly_attempt calmly_look) (fun _ => trivial) fun r => ?_
    cases r with
    | ok entries => exact ih₁ entries
    | error e => exact ih₂ e
  | case4 fuel stack entry entries stats ih₁ ih₂ ih₃ ih₄ =>
    refine Calmly.bind (calmly_attempt calmly_look) (fun _ => trivial) fun r => ?_
    cases r with
    | error e => exact ih₁ e
    | ok u =>
      refine Calmly.bind (Guarantees.atom fun _ s => ⟨.refl s, trivial⟩) (fun _ => trivial)
        fun isDir => ?_
      split
      · exact ih₂
      · split
        · refine Calmly.bind (Calmly.bind (calmly_attempt (store.calmly_recoverTempFile _ _))
            (fun _ => trivial) fun r => ?_) (fun _ => trivial) fun stats => ih₃ stats
          cases r with
          | ok stats => trivial
          | error e => trivial
        · exact ih₄

variable (store) in
/-- **A recovery only concerns the disk**, and removes no object. -/
theorem calmly_recover (order : IterOrder FilePath) (fuel : ℕ) :
    store.Calmly (fun _ => True) (store.recover order fuel) := by
  refine Calmly.bind calmly_pathExists (fun _ => trivial) fun found => ?_
  split
  · exact store.calmly_recoverWalk order fuel _ _ _
  · trivial

end ContentStore

/-! ## Actions in memory -/

/-- Nothing but the dedup index changes. -/
def OnIndex (s s' : StoreState) : Prop := ∃ index, s' = { s with dedupIndex := index }

/-- Nothing but the cache changes. -/
def OnCache (s s' : StoreState) : Prop :=
  ∃ cache stuck, s' = { s with cache := cache, cacheStuck := stuck }

/-- Nothing but the batch and what the runtime is given changes. -/
def OnBatch (s s' : StoreState) : Prop :=
  ∃ batch spawned permits,
    s' = { s with batchWriter := batch, spawned := spawned, permits := permits }

lemma OnBatch.refl (s : StoreState) : OnBatch s s := ⟨_, _, _, rfl⟩

namespace ContentStore

variable {store : ContentStore} {ε α β : Type} {p : FilePath}

/-- Every action only concerns the batch. -/
abbrev Batchwise (t : Task ε α) : Prop := Guarantees (fun _ => OnBatch) (fun _ => True) t

variable {t : Task ε α}

lemma Batchwise.bind {k : α → Task ε β} (h : Batchwise t) (hk : ∀ a, Batchwise (k a)) :
    Batchwise (t >>= k) :=
  Guarantees.bind h (fun _ _ => trivial) fun a _ => hk a

lemma batchwise_atom {op : Op} {f : Io → StoreState → Except ε α × StoreState}
    (h : ∀ i s, OnBatch s (f i s).2) : Batchwise (Proc.atom op f) :=
  Guarantees.atom fun i s => ⟨h i s, trivial⟩

lemma batchwise_flushBatchInternal : Batchwise flushBatchInternal := by
  have hspawn : ∀ pending : List (ContentHash × Bytes),
      Batchwise (spawnAll pending : Task CasError (List ℕ)) := by
    intro pending
    induction pending with
    | nil => trivial
    | cons e rest ih =>
      refine Batchwise.bind (fun _ s _ => ⟨⟨_, _, _, rfl⟩, trivial⟩) fun _ => ?_
      refine Batchwise.bind (batchwise_atom fun _ s => ⟨_, _, _, rfl⟩) fun job => ?_
      exact ih.bind fun _ => trivial
  have hawait : ∀ jobs : List ℕ, Batchwise (awaitAll jobs) := by
    intro jobs
    induction jobs with
    | nil => trivial
    | cons job rest ih => exact Batchwise.bind (fun _ s _ => ⟨.refl s, trivial⟩) fun _ => ih
  refine Batchwise.bind (batchwise_atom fun _ s => ⟨_, _, _, rfl⟩) fun pending => ?_
  split
  · trivial
  · refine (hspawn _).bind fun jobs => (hawait jobs).bind fun _ => ?_
    refine Batchwise.bind (batchwise_atom fun _ s => .refl s) fun now => ?_
    exact batchwise_atom fun _ s => ⟨_, _, _, rfl⟩

/-- **Flushing the batch** only concerns the batch: what the batched writes do is theirs. -/
theorem batchwise_flushBatch : Batchwise flushBatch := by
  refine Batchwise.bind (batchwise_atom fun _ s => .refl s) fun isEmpty => ?_
  split
  · trivial
  · exact batchwise_flushBatchInternal

variable (store) in
/-- Writing a batch only concerns the batch. -/
theorem batchwise_writeBatch (chunks : List (Bytes × Option ContentHash)) :
    Batchwise (store.writeBatch chunks) := by
  have hqueue : ∀ chunks, Batchwise (store.queueAll chunks) := by
    intro chunks
    induction chunks with
    | nil => trivial
    | cons chunk rest ih =>
      rw [queueAll]
      split
      · trivial
      · refine Batchwise.bind ?_ fun ref => ih.bind fun _ => trivial
        refine Batchwise.bind (batchwise_atom fun _ s => .refl s) fun found => ?_
        split
        · trivial
        · exact Batchwise.bind (batchwise_atom fun _ s => ⟨_, _, _, rfl⟩) fun _ => trivial
  refine (hqueue chunks).bind fun refs => ?_
  refine Batchwise.bind (batchwise_atom fun _ s => .refl s) fun flush => ?_
  split
  · exact batchwise_flushBatchInternal.bind fun _ => trivial
  · trivial

variable (store) in
/-- Every action concerns the disk or the cache, and no object disappears. -/
abbrev Cachewise (t : Task ε α) : Prop :=
  Guarantees (fun _ s s' => store.Calm s s' ∨ OnCache s s') (fun _ => True) t

lemma Cachewise.bind {k : α → Task ε β} (h : store.Cachewise t) (hk : ∀ a, store.Cachewise (k a)) :
    store.Cachewise (t >>= k) :=
  Guarantees.bind h (fun _ _ => trivial) fun a _ => hk a

lemma Calmly.cachewise {Q : Except ε α → Prop} (h : store.Calmly Q t) :
    store.Cachewise t := Guarantees.mono h (fun _ _ _ => .inl) fun _ _ => trivial

lemma cachewise_withCache {f : ChunkCache → α × ChunkCache} :
    store.Cachewise (withCache f : Task ε α) :=
  fun _ s _ => ⟨.inr ⟨(f s.cache).2, s.cacheStuck, rfl⟩, trivial⟩

variable (store) in
lemma onCache_cachePut (hash : ContentHash) (data : Bytes) :
    Guarantees (fun op s s' => OnCache s s' ∧ (op = .cachePut hash data ∨ op = .cache))
      (fun r => ∃ u, r = .ok u) (store.cachePut hash data : Task ε Unit) := by
  intro i s _
  dsimp only
  split
  · exact ⟨⟨⟨_, _, rfl⟩, .inl rfl⟩, _, rfl⟩
  · exact ⟨⟨⟨_, _, rfl⟩, .inl rfl⟩, fun _ s _ =>
      ⟨⟨⟨s.cache, s.cacheStuck, rfl⟩, .inr rfl⟩, _, rfl⟩⟩

variable (store) in
lemma cachewise_cachePut (hash : ContentHash) (data : Bytes) :
    store.Cachewise (store.cachePut hash data : Task ε Unit) :=
  Guarantees.mono (store.onCache_cachePut hash data) (fun _ _ _ h => .inr h.1) fun _ _ => trivial

variable (store) in
/-- Reading concerns the disk and the cache. -/
theorem cachewise_read (hash : ContentHash) : store.Cachewise (store.read hash) := by
  unfold read
  split
  · trivial
  · refine cachewise_withCache.bind fun found => ?_
    split
    · trivial
    · refine (store.calmly_readPacked hash).cachewise.bind fun packed => ?_
      split
      · trivial
      · refine (store.calmly_readIndividual hash).cachewise.bind fun data => ?_
        exact (store.cachewise_cachePut hash data).bind fun _ => trivial

variable (store) in
/-- Prefetching concerns the disk and the cache. -/
theorem cachewise_prefetch (hashes : List ContentHash) :
    store.Cachewise (store.prefetch hashes) := by
  have hall : ∀ hashes, store.Cachewise (store.prefetchAll hashes) := by
    intro hashes
    induction hashes with
    | nil => trivial
    | cons hash rest ih =>
      refine cachewise_withCache.bind fun found => ?_
      split
      · exact ih
      · refine Cachewise.bind ?_ fun _ => ih
        exact Guarantees.attempt (store.cachewise_read hash) fun _ _ => trivial
  unfold prefetch
  split
  · exact hall hashes
  · trivial

/-! ## Writes that enter their object into the dedup index -/

variable (store) in
/-- Every action concerns the disk or the dedup index, and no object disappears. -/
abbrev Indexwise (t : Task ε α) : Prop :=
  Guarantees (fun _ s s' => store.Calm s s' ∨ OnIndex s s') (fun _ => True) t

lemma Indexwise.bind {k : α → Task ε β} (h : store.Indexwise t) (hk : ∀ a, store.Indexwise (k a)) :
    store.Indexwise (t >>= k) :=
  Guarantees.bind h (fun _ _ => trivial) fun a _ => hk a

lemma Calmly.indexwise {Q : Except ε α → Prop} (h : store.Calmly Q t) :
    store.Indexwise t := Guarantees.mono h (fun _ _ _ => .inl) fun _ _ => trivial

lemma indexwise_dedupInsert {ref : ObjectRef} :
    store.Indexwise (dedupInsert ref : Task ε Unit) :=
  Guarantees.atom fun _ _ => ⟨.inr ⟨_, rfl⟩, trivial⟩

variable (store) in
/-- Writing an object concerns the disk and the dedup index. -/
theorem indexwise_write (data : Bytes) : store.Indexwise (store.write data) := by
  have hnew : ∀ hash, store.Indexwise (store.writeNew data hash) := by
    intro hash
    refine (store.calmly_existsObject hash).indexwise.bind fun found => ?_
    split
    · exact indexwise_dedupInsert.bind fun _ => trivial
    · split
      · exact (store.calmly_writeIndividual data hash).indexwise
      · exact (store.calmly_writeIndividual data hash).indexwise
  unfold write
  split
  · trivial
  · refine Indexwise.bind (Guarantees.atom fun _ s => ⟨.inl (.refl s), trivial⟩) fun found => ?_
    split
    · trivial
    · exact hnew _

lemma indexwise_moveIntoPlace (hp : store.NoObject p) {hash : ContentHash} {size : ℕ} :
    store.Indexwise (store.moveIntoPlace p hash size) := by
  refine calmly_pathExists.indexwise.bind fun found => ?_
  split
  · exact (calmly_mapErr (calmly_removeFile hp)).indexwise.bind fun _ =>
      indexwise_dedupInsert.bind fun _ => trivial
  · exact (store.calmly_createShardDir hash).indexwise.bind fun _ =>
      (calmly_mapErr (calmly_rename hp)).indexwise.bind fun _ =>
        indexwise_dedupInsert.bind fun _ => trivial

variable (store) in
/-- A streamed write concerns the disk and the dedup index. -/
theorem indexwise_writeStream (reader : Reader) (expectedHash : Option ContentHash) :
    store.Indexwise (store.writeStream reader expectedHash) := by
  refine calmly_ask.indexwise.bind fun id => ?_
  refine store.calmly_createTempDir.indexwise.bind fun _ => ?_
  refine (calmly_mapErr calmly_create).indexwise.bind fun ino => ?_
  refine (store.calmly_streamFrom reader _ ino _).indexwise.bind fun _ => ?_
  refine (store.calmly_fsyncStream _).indexwise.bind fun _ => ?_
  refine (calmly_verifyHash (noObject_temp _)).indexwise.bind fun _ => ?_
  exact indexwise_moveIntoPlace (noObject_temp _)

/-- Completing a resumable write concerns the disk and the dedup index. -/
theorem indexwise_completeResumableWrite {transfer : PartialTransfer}
    (h : store.HandsOut transfer) : store.Indexwise (store.completeResumableWrite transfer) := by
  obtain ⟨name, hname⟩ := h
  have hp : store.NoObject transfer.tempPath := hname ▸ noObject_temp name
  refine calmly_ask.indexwise.bind fun now => ?_
  split
  · exact (calmly_discard hp).indexwise
  · refine calmly_pathExists.indexwise.bind fun found => ?_
    split
    · refine (calmly_mapErr calmly_look).indexwise.bind fun data => ?_
      refine (calmly_verifyHash hp).indexwise.bind fun _ => ?_
      refine (calmly_verifySize hp).indexwise.bind fun _ => ?_
      exact indexwise_moveIntoPlace hp
    · trivial

/-! ## The transfers that are handed out -/

/-- What a call returns, when the transfers handed out before have their files where they belong. -/
lemma handsOut_of_serve {log : List (Call × Except CasError Reply)}
    (hlog : ∀ transfer ∈ transfers log, store.HandsOut transfer) {call : Call}
    (hcall : call.Allowed log) : Guarantees (fun _ _ _ => True)
      (fun r => ∀ transfer, r = .ok (.transfer transfer) → store.HandsOut transfer)
      (store.serve call) := by
  have hother : ∀ {α : Type} (t : Task CasError α) (f : α → Reply),
      (∀ a transfer, f a ≠ .transfer transfer) → Guarantees (fun _ _ _ => True)
        (fun r => ∀ transfer, r = .ok (.transfer transfer) → store.HandsOut transfer) (do
          let a ← t
          pure (f a)) := by
    intro α t f hf
    refine Guarantees.bind (guarantees_true t) (by rintro e - transfer ⟨⟩) ?_
    intro a _ transfer h
    exact absurd (Except.ok.inj h) (hf a transfer)
  cases call with
  | startResumableWrite expectedHash totalSize =>
    refine Guarantees.bind (Guarantees.mono
      (store.calmly_startResumableWrite expectedHash totalSize)
      (fun _ _ _ _ => trivial) fun _ h => h) (by rintro e - transfer ⟨⟩) ?_
    rintro transfer h _ ⟨⟩
    exact h _ rfl
  | continueResumableWrite transfer reader =>
    refine Guarantees.bind (Guarantees.mono (store.calmly_continueResumableWrite transfer reader)
      (fun _ _ _ _ => trivial) fun _ h => h) (by rintro e - transfer ⟨⟩) ?_
    rintro transfer' h _ ⟨⟩
    obtain ⟨name, hname⟩ := hlog transfer hcall
    exact ⟨name, (h _ rfl).trans hname⟩
  | write data => exact hother _ _ (by rintro a transfer ⟨⟩)
  | writeBatch chunks => exact hother _ _ (by rintro a transfer ⟨⟩)
  | flushBatch => exact hother _ (fun _ => .done) (by rintro a transfer ⟨⟩)
  | writeStream reader expectedHash => exact hother _ _ (by rintro a transfer ⟨⟩)
  | completeResumableWrite transfer => exact hother _ _ (by rintro a transfer ⟨⟩)
  | read hash => exact hother _ _ (by rintro a transfer ⟨⟩)
  | prefetch hashes => exact hother _ (fun _ => .done) (by rintro a transfer ⟨⟩)
  | clearCache => exact hother _ (fun _ => .done) (by rintro a transfer ⟨⟩)
  | delete hash => exact hother _ (fun _ => .done) (by rintro a transfer ⟨⟩)
  | recover order fuel => exact hother _ _ (by rintro a transfer ⟨⟩)

/-- **The transfers that are handed out** have their files in the directory of the streamed
writes. -/
theorem handsOut_of_run {C : System → Event → Prop} {fs : Fs} {now : ℕ} {S : System}
    (hrun : store.Run C (store.system fs now) S) :
    ∀ transfer ∈ transfers S.log, store.HandsOut transfer := by
  have h := hrun.invariant (I := fun S => (∀ transfer ∈ transfers S.log, store.HandsOut transfer) ∧
    Guarantees (fun _ _ _ => True) (fun r => ∀ transfer, S.call.isSome = true →
      r = .ok (.transfer transfer) → store.HandsOut transfer) (S.pool.task none)) ?_ ?_ ?_ ?_ ?_
  · exact h.1
  · exact ⟨by rintro transfer ⟨⟩, by rintro transfer ⟨⟩⟩
  · intro S call _ hS _ _ hallowed
    refine ⟨hS.1, ?_⟩
    show Guarantees _ _ ((S.pool.withTask none (store.serve call)).task none)
    rw [Pool.task_withTask_self]
    exact Guarantees.mono (handsOut_of_serve hS.1 hallowed) (fun _ _ _ h => h)
      fun r h transfer _ => h transfer
  · intro S job hash data _ hS _ _ _
    refine ⟨hS.1, ?_⟩
    show Guarantees _ _ ((S.pool.withTask (some job) _).task none)
    rw [Pool.task_withTask_of_ne _ _ (by simp)]
    exact hS.2
  · intro S t i P _ hS _ hstep
    refine ⟨hS.1, ?_⟩
    by_cases ht : none = t
    · subst ht
      exact (hS.2.step hstep.proc).2
    · show Guarantees _ _ (P.task none)
      rw [hstep.task_of_ne ht]
      exact hS.2
  · intro S call r hS hcall hr
    have hreply := hS.2
    rw [hr] at hreply
    refine ⟨fun transfer htransfer => ?_, ?_⟩
    · rw [System.returned, transfers, List.filterMap_append, List.mem_append] at htransfer
      rcases htransfer with hold | hnew
      · exact hS.1 transfer hold
      · cases r with
        | error e => cases hnew
        | ok reply =>
          cases reply with
          | transfer t =>
            obtain rfl := List.mem_singleton.mp hnew
            exact hreply transfer (by simp [hcall]) rfl
          | _ => cases hnew
    · show Guarantees _ _ (S.pool.task none)
      rw [hr]
      rintro transfer ⟨⟩

end ContentStore

end Landropic.Cas
