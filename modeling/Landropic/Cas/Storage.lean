import Landropic.Cas.WriteAtomic

set_option autoImplicit false

/-!
# The operations of a content store

Writing single objects and batches of them, reading through the cache, and deleting. A batched
write is a task of its own: flushing the batch gives the pending writes to the runtime and waits for
them in order, and returns at the first one that failed, while the others go on.

## Main definitions

* `Cas.ContentStore.write`, `Cas.ContentStore.writeBatch`, `Cas.ContentStore.flushBatch` — the write
  paths.
* `Cas.ContentStore.runBatchedWrite` — the task of a batched write.
* `Cas.ContentStore.read`, `Cas.ContentStore.prefetch`, `Cas.ContentStore.clearCache`,
  `Cas.ContentStore.delete`.

## Design

The lock of the batch is held by the one call at work, and batched writes do not take it, so it is
left out. The lock of the cache can be held forever, by an eviction that does not end.
-/

namespace Landropic.Cas

namespace ContentStore

variable (store : ContentStore) {ε α : Type}

/-! ## The cache, the dedup index and the packfiles -/

/-- An action under the lock of the cache. -/
def withCache (f : ChunkCache → α × ChunkCache) : Task ε α :=
  .act .cache (fun s => !s.cacheStuck) (fun _ s => { s with cache := (f s.cache).2 })
    fun _ s => .ret (.ok (f s.cache).1)

/-- Look a chunk up in the cache, and mark it as just used. -/
def cacheGet (hash : ContentHash) : Task ε (Option Bytes) :=
  withCache fun cache => ((cache.chunks.lookup hash).map CachedChunk.data,
    { cache with chunks := cache.chunks.promote hash })

/-- Put a chunk into the cache. A task whose eviction does not end keeps the lock. -/
def cachePut (hash : ContentHash) (data : Bytes) : Task ε Unit :=
  .act (.cachePut hash data) (fun s => !s.cacheStuck)
    (fun _ s => match s.cache.insert store.config.cacheConfig hash (.new data) with
      | some cache => { s with cache := cache }
      | none => { s with cacheStuck := true })
    fun _ s => match s.cache.insert store.config.cacheConfig hash (.new data) with
      | some _ => .ret (.ok ())
      | none => withCache fun cache => ((), cache)

/-- Look a hash up in the dedup index. -/
def dedupGet (hash : ContentHash) : Task ε (Option ObjectRef) :=
  modify .dedupIndex fun s => (s.dedupIndex.lookup hash, s)

/-- Enter an object into the dedup index. -/
def dedupInsert (ref : ObjectRef) : Task ε Unit :=
  modify .dedupIndex fun s => ((), { s with dedupIndex := s.dedupIndex.insert ref.hash ref })

/-- Read an object from the packfiles, if they are enabled. -/
def readPacked (hash : ContentHash) : Task ε (Option Bytes) :=
  if store.config.enablePackfiles then
    .atom .packs fun i s => (.ok (match i with
      | .ok _ => store.packs.readPacked hash
      | .fail => none), s)
  else pure none

/-- Check if an object exists in the store (both individual files and packfiles). -/
def existsObject (hash : ContentHash) : Task ε Bool := do
  if ← pathExists (store.objectPath hash) then pure true
  else
    let packed ← store.readPacked hash
    pure packed.isSome

/-! ## Writing single objects -/

/-- Ensure the shard directories of an object exist. -/
def createShardDir (hash : ContentHash) : Task CasError Unit :=
  (disk (.createDirAll (store.shardDir hash)) (Fs.createDirAll (store.shardDir hash))).mapErr .io

/-- Write data as individual file. -/
def writeIndividual (data : Bytes) (hash : ContentHash) : Task CasError ObjectRef := do
  store.createShardDir hash
  store.writeAtomic (store.objectPath hash) data
  pure ⟨hash, data.length⟩

/-- Write data using packfile storage: for now, fall back to individual storage. -/
def writeWithPacking (data : Bytes) (hash : ContentHash) : Task CasError ObjectRef :=
  store.writeIndividual data hash

/-- Determine if an object should be stored in a packfile. -/
def shouldPack (size : ℕ) : Bool := size ≤ store.config.packThreshold

/-- Write an object that the dedup index does not have. -/
def writeNew (data : Bytes) (hash : ContentHash) : Task CasError ObjectRef := do
  if ← store.existsObject hash then
    dedupInsert ⟨hash, data.length⟩
    pure ⟨hash, data.length⟩
  else if store.config.enablePackfiles && store.shouldPack data.length then
    store.writeWithPacking data hash
  else store.writeIndividual data hash

/-- Write an object to the content store. -/
def write (data : Bytes) : Task CasError ObjectRef :=
  match validateObjectSize data.length with
  | .error e => .fail (.invalidOperation s!"Object validation failed: {e.display}")
  | .ok () => do
    match ← dedupGet (store.blake3 data) with
    | some ref => pure ref
    | none => store.writeNew data (store.blake3 data)

/-! ## Batched writes -/

/-- Optimized individual write with compression support. -/
def writeIndividualOptimized (data : Bytes) (hash : ContentHash) : Task CasError ObjectRef := do
  if ← pathExists (store.objectPath hash) then pure ⟨hash, data.length⟩
  else
    let stored ← .ofExcept (store.storedForm data)
    store.createShardDir hash
    store.writeAtomic (store.objectPath hash) stored
    store.cachePut hash data
    dedupInsert ⟨hash, data.length⟩
    pure ⟨hash, data.length⟩

/-- End a batched write: give its permit back and leave what it returned. -/
def finish (job : ℕ) (r : Except CasError ObjectRef) : Task CasError Unit :=
  modify (.finish job) fun s => ((), { s with
    results := Function.update s.results job (some r), permits := s.permits + 1 })

/-- The task of a batched write. -/
def runBatchedWrite (job : ℕ) (hash : ContentHash) (data : Bytes) : Task CasError Unit := do
  let r ← (store.writeIndividualOptimized data hash).attempt
  finish job r

/-- Take all pending writes out of the batch. -/
def drainPending : Task ε (List (ContentHash × Bytes)) :=
  modify .batchWriter fun s => (s.batchWriter.pending,
    { s with batchWriter := { s.batchWriter with pending := [] } })

/-- Wait for a permit to run a batched write. -/
def acquirePermit : Task ε Unit :=
  .act .acquire (fun s => 0 < s.permits) (fun _ s => { s with permits := s.permits - 1 })
    fun _ _ => .ret (.ok ())

/-- Give a batched write to the runtime. -/
def spawn (hash : ContentHash) (data : Bytes) : Task ε ℕ :=
  modify .spawn fun s =>
    (s.spawned.length, { s with spawned := s.spawned ++ [(hash, data)] })

/-- Give the pending writes to the runtime, each as soon as it has a permit. -/
def spawnAll : List (ContentHash × Bytes) → Task ε (List ℕ)
  | [] => pure []
  | (hash, data) :: rest => do
    acquirePermit
    let job ← spawn hash data
    let jobs ← spawnAll rest
    pure (job :: jobs)

/-- Wait for a batched write. -/
def awaitJob (job : ℕ) : Task CasError ObjectRef :=
  .act (.await job) (fun s => (s.results job).isSome) (fun _ s => s)
    fun _ s => .ret ((s.results job).getD (.error (.internal "Batch write failed")))

/-- Wait for batched writes, in order, until one has failed. -/
def awaitAll : List ℕ → Task CasError Unit
  | [] => pure ()
  | job :: jobs => do
    let _ ← awaitJob job
    awaitAll jobs

/-- Note that the batch was flushed. -/
def resetBatch : Task CasError Unit := do
  let now ← ask .clock
  modify .batchWriter fun s =>
    ((), { s with batchWriter := { s.batchWriter with totalSize := 0, lastFlush := now } })

/-- Flush pending batch writes. -/
def flushBatchInternal : Task CasError Unit := do
  let pending ← drainPending
  if pending.isEmpty then pure ()
  else
    let jobs ← spawnAll pending
    awaitAll jobs
    resetBatch

/-- Flush pending batch writes, if there are any. -/
def flushBatch : Task CasError Unit := do
  let isEmpty ← modify .batchWriter fun s => (s.batchWriter.pending.isEmpty, s)
  if isEmpty then pure () else flushBatchInternal

/-- Add a write to the batch, unless the dedup index has the object. -/
def queue (hash : ContentHash) (data : Bytes) : Task CasError ObjectRef := do
  match ← dedupGet hash with
  | some ref => pure ref
  | none =>
    modify .batchWriter fun s => ((), { s with batchWriter := { s.batchWriter with
      pending := s.batchWriter.pending ++ [(hash, data)],
      totalSize := s.batchWriter.totalSize + data.length } })
    pure ⟨hash, data.length⟩

/-- Add writes to the batch. A hash that the caller gives is not checked. -/
def queueAll : List (Bytes × Option ContentHash) → Task CasError (List ObjectRef)
  | [] => pure []
  | (data, expectedHash) :: rest =>
    match validateObjectSize data.length with
    | .error e => .fail (.invalidOperation s!"Object validation failed: {e.display}")
    | .ok () => do
      let ref ← queue (expectedHash.getD (store.blake3 data)) data
      let refs ← queueAll rest
      pure (ref :: refs)

/-- Whether the batch is to be flushed by now. -/
def shouldFlush : Task CasError Bool :=
  .atom .clock fun i s => (.ok (s.batchWriter.shouldFlush (match i with
    | .ok now => now
    | .fail => 0)), s)

/-- Write multiple objects in a batch for improved performance. -/
def writeBatch (chunks : List (Bytes × Option ContentHash)) : Task CasError (List ObjectRef) := do
  let results ← store.queueAll chunks
  if ← shouldFlush then
    flushBatchInternal
    pure results
  else pure results

/-! ## Reading -/

/-- Read data from individual file storage. -/
def readIndividual (hash : ContentHash) : Task CasError Bytes := do
  let path := store.objectPath hash
  if ← pathExists path then
    let len ← (look (.metadata path) fun fs => (fs.readFile path).map List.length).mapErr .io
    if len = 0 then .fail (.corruptObject "Object file is empty")
    else
      let data ← (look (.read path) fun fs => fs.readFile path).mapErr .io
      if data.length ≠ len then .fail (.invalidObjectSize len data.length)
      else if store.blake3 data ≠ hash then .fail (.hashMismatch hash (store.blake3 data))
      else pure data
  else .fail (.objectNotFound hash)

/-- Read an object that is not in the cache. -/
def readUncached (hash : ContentHash) : Task CasError Bytes := do
  match ← store.readPacked hash with
  | some data => pure data
  | none =>
    let data ← store.readIndividual hash
    store.cachePut hash data
    pure data

/-- Read an object from the content store with caching. -/
def read (hash : ContentHash) : Task CasError Bytes :=
  match validateContentHash hash.toHex with
  | .error e => .fail (.invalidOperation s!"Hash validation failed: {e.display}")
  | .ok () => do
    match ← cacheGet hash with
    | some data => pure data
    | none => store.readUncached hash

/-- Read the objects that are not in the cache, errors notwithstanding. -/
def prefetchAll : List ContentHash → Task CasError Unit
  | [] => pure ()
  | hash :: rest => do
    if ← withCache fun cache => (cache.chunks.contains hash, cache) then prefetchAll rest
    else
      let _ ← (store.read hash).attempt
      prefetchAll rest

/-- Prefetch chunks into the cache. -/
def prefetch (hashes : List ContentHash) : Task CasError Unit :=
  if store.config.cacheConfig.prefetchEnabled then store.prefetchAll hashes else pure ()

/-- Clear the chunk cache. -/
def clearCache : Task CasError Unit := withCache fun _ => ((), .new)

/-! ## Deleting -/

/-- Delete an object from the store. -/
def delete (hash : ContentHash) : Task CasError Unit := do
  let path := store.objectPath hash
  if ← pathExists path then (disk (.removeFile path) (Fs.removeFile path)).mapErr .io
  else pure ()

end ContentStore

end Landropic.Cas
