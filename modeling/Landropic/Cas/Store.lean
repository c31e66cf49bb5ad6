import Landropic.Cas.Errors
import Landropic.Foundations.Lru

set_option autoImplicit false

/-!
# The content store: configuration, layout and state

Objects are stored at `{root}/objects/{shard1}/{shard2}/{rest}`, where the parts are the first two,
the next two and the other sixty characters of the hexadecimal hash. What the tasks of a store
share is its state: the disk, the chunk cache, the dedup index and the batch of pending writes.

## Main definitions

* `Cas.ContentStoreConfig` — the configuration.
* `Cas.ContentStore` — what is fixed about a store, the code it calls included.
* `Cas.ContentStore.objectPath` — where an object is stored.
* `Cas.ChunkCache`, `Cas.BatchWriter` — the chunk cache and the batch.
* `Cas.StoreState` — the state of a store.
* `Cas.ContentStore.compressData`.

## Main results

* `Cas.ContentStore.objectPath_injective` — different objects have different paths.
* `Cas.ChunkCache.mem_insert` — the cache holds only what was put into it.

## Design

BLAKE3, the compression libraries, the buffering of streamed writes and the packfiles are
parameters; a packfile reader checks the hash of what it returns.
-/

namespace Landropic.Cas

/-- Fsync policy for controlling write durability vs performance. -/
inductive FsyncPolicy
  | always
  | batch (size : UInt32)
  | async
  | never
  deriving DecidableEq

/-- Compression algorithm selection. -/
inductive CompressionType
  | none
  | lz4
  | zstd (level : ℤ)
  | snappy
  deriving DecidableEq

/-- Cache configuration for the content store. -/
structure CacheConfig where
  /-- Maximum number of cached chunks. -/
  maxChunks : ℕ
  /-- A cache for no chunk at all cannot be made. -/
  maxChunks_pos : 0 < maxChunks
  /-- Maximum total size of cached data. -/
  maxSizeBytes : ℕ
  /-- Prefetch related chunks. -/
  prefetchEnabled : Bool

/-- Configuration options for the content store. -/
structure ContentStoreConfig where
  fsyncPolicy : FsyncPolicy
  /-- Whether to attempt recovery of incomplete writes on startup. -/
  enableRecovery : Bool
  compression : CompressionType
  /-- Objects up to this size are to be packed. -/
  packThreshold : ℕ
  enablePackfiles : Bool
  cacheConfig : CacheConfig
  maxConcurrentOps : ℕ

/-- The default cache configuration. -/
def CacheConfig.default : CacheConfig where
  maxChunks := 10000
  maxChunks_pos := by decide
  maxSizeBytes := 512 * 1024 * 1024
  prefetchEnabled := true

/-- The default configuration. -/
def ContentStoreConfig.default : ContentStoreConfig where
  fsyncPolicy := .always
  enableRecovery := true
  compression := .none
  packThreshold := 64 * 1024
  enablePackfiles := false
  cacheConfig := .default
  maxConcurrentOps := 32

/-- Reference to an object in the content-addressed storage. -/
structure ObjectRef where
  hash : ContentHash
  /-- Size of the content in bytes. -/
  size : ℕ
  deriving DecidableEq

/-- The compression libraries; errors are given by their texts. -/
structure Codecs where
  lz4Compress : Bytes → Bytes
  lz4Decompress : Bytes → Except String Bytes
  zstdEncode : ℤ → Bytes → Except String Bytes
  zstdDecode : Bytes → Except String Bytes
  snapCompress : Bytes → Except String Bytes
  snapDecompress : Bytes → Except String Bytes
  lz4Decompress_lz4Compress : ∀ data, lz4Decompress (lz4Compress data) = .ok data
  zstdDecode_zstdEncode : ∀ {level data compressed},
    zstdEncode level data = .ok compressed → zstdDecode compressed = .ok data
  snapDecompress_snapCompress : ∀ {data compressed},
    snapCompress data = .ok compressed → snapDecompress compressed = .ok data

/-- Codecs that leave data as it is. -/
def Codecs.identity : Codecs where
  lz4Compress data := data
  lz4Decompress := .ok
  zstdEncode _ := .ok
  zstdDecode := .ok
  snapCompress := .ok
  snapDecompress := .ok
  lz4Decompress_lz4Compress _ := rfl
  zstdDecode_zstdEncode h := h.symm
  snapDecompress_snapCompress h := h.symm

/-- The packfiles of a store. -/
structure Packs (blake3 : Bytes → ContentHash) where
  /-- What is packed under a hash. -/
  readPacked : ContentHash → Option Bytes
  /-- The hash is checked on reading. -/
  blake3_of_readPacked : ∀ {hash data}, readPacked hash = some data → blake3 data = hash

/-- A store without packfiles. -/
def Packs.empty (blake3 : Bytes → ContentHash) : Packs blake3 where
  readPacked _ := none
  blake3_of_readPacked h := by cases h

/-- How a buffered writer passes on what is written to it. -/
structure BufWriter where
  /-- What goes to the file and what stays in the buffer, for a buffer and a block. -/
  write : Bytes → Bytes → Bytes × Bytes
  /-- Nothing is lost, and the order is kept. -/
  append_write : ∀ buf block, (write buf block).1 ++ (write buf block).2 = buf ++ block

/-- A writer with a buffer of the given capacity: a block that does not fit empties the buffer, and
one as long as the buffer is not buffered at all. -/
def BufWriter.withCapacity (capacity : ℕ) : BufWriter where
  write buf block :=
    if block.length ≥ capacity then (buf ++ block, [])
    else if buf.length + block.length > capacity then (buf, block)
    else ([], buf ++ block)
  append_write buf block := by
    split_ifs <;> simp

/-- What is fixed about a content store. -/
structure ContentStore where
  blake3 : Bytes → ContentHash
  codecs : Codecs
  packs : Packs blake3
  bufWriter : BufWriter
  rootPath : FilePath
  config : ContentStoreConfig

namespace ContentStore

/-- A store of the default configuration, with write buffers of 8 KiB. -/
def default (blake3 : Bytes → ContentHash) (codecs : Codecs) : ContentStore where
  blake3 := blake3
  codecs := codecs
  packs := .empty blake3
  bufWriter := .withCapacity (8 * 1024)
  rootPath := ["store".toList]
  config := .default

variable (store : ContentStore)

/-- The directory of the objects. -/
def objectsDir : FilePath := "objects".toList :: store.rootPath

/-- The directory an object is stored in. -/
def shardDir (hash : ContentHash) : FilePath :=
  (hash.toHex.drop 2).take 2 :: hash.toHex.take 2 :: store.objectsDir

/-- Get the path for an object with sharding. -/
def objectPath (hash : ContentHash) : FilePath := hash.toHex.drop 4 :: store.shardDir hash

/-- The directory of the streamed writes in progress. -/
def tempDir : FilePath := ".tmp".toList :: store.rootPath

/-- Check if file-level fsync should be performed based on policy. -/
def shouldFsyncFile : Bool :=
  match store.config.fsyncPolicy with
  | .always => true
  | .batch _ => true
  | .async => false
  | .never => false

/-- Check if directory-level fsync should be performed based on policy. -/
def shouldFsyncDirectory : Bool :=
  match store.config.fsyncPolicy with
  | .always => true
  | .batch _ => false
  | .async => false
  | .never => false

/-- Compress data using configured algorithm; the flag tells whether it was compressed. -/
def compressData (data : Bytes) : Except CasError (Bytes × Bool) :=
  match store.config.compression with
  | .none => .ok ([], false)
  | .lz4 => .ok (store.codecs.lz4Compress data, true)
  | .zstd level =>
    match store.codecs.zstdEncode level data with
    | .ok compressed => .ok (compressed, true)
    | .error e => .error (.internal s!"Compression failed: {e}")
  | .snappy =>
    match store.codecs.snapCompress data with
    | .ok compressed => .ok (compressed, true)
    | .error e => .error (.internal s!"Compression failed: {e}")

/-- The bytes a batched write stores for data, or the error of the compression. -/
def storedForm (data : Bytes) : Except CasError Bytes :=
  (store.compressData data).map fun r => if r.2 then r.1 else data

/-- **Different objects have different paths.** -/
theorem objectPath_injective : Function.Injective store.objectPath := by
  intro a b h
  simp only [objectPath, shardDir, List.cons.injEq, and_true] at h
  obtain ⟨h₄, h₂, h₀⟩ := h
  apply ContentHash.toHex_injective
  have hsplit : ∀ hash : ContentHash, hash.toHex =
      hash.toHex.take 2 ++ ((hash.toHex.drop 2).take 2 ++ hash.toHex.drop 4) := by
    intro hash
    calc hash.toHex
        = hash.toHex.take 2 ++ hash.toHex.drop 2 := (List.take_append_drop 2 _).symm
      _ = hash.toHex.take 2 ++ ((hash.toHex.drop 2).take 2 ++ (hash.toHex.drop 2).drop 2) := by
          rw [List.take_append_drop 2 (hash.toHex.drop 2)]
      _ = hash.toHex.take 2 ++ ((hash.toHex.drop 2).take 2 ++ hash.toHex.drop 4) := by
          rw [List.drop_drop]
  rw [hsplit a, hsplit b, h₀, h₂, h₄]

lemma dot_notMem_name (hash : ContentHash) : '.' ∉ hash.toHex.drop 4 :=
  fun h => Hex.notMem_encode (by decide) (List.mem_of_mem_drop h)

@[simp] lemma length_objectPath (hash : ContentHash) :
    (store.objectPath hash).length = store.rootPath.length + 4 := by
  simp [objectPath, shardDir, objectsDir]

@[simp] lemma length_shardDir (hash : ContentHash) :
    (store.shardDir hash).length = store.rootPath.length + 3 := by
  simp [shardDir, objectsDir]

end ContentStore

/-- Cached chunk data. -/
structure CachedChunk where
  data : Bytes
  size : ℕ

/-- A chunk in the cache. -/
def CachedChunk.new (data : Bytes) : CachedChunk := ⟨data, data.length⟩

/-- Chunk cache for hot data. -/
structure ChunkCache where
  chunks : LruCache ContentHash CachedChunk
  totalSize : ℕ

namespace ChunkCache

/-- An empty cache. -/
def new : ChunkCache := ⟨.empty, 0⟩

/-- Evict chunks until one of the given size fits; `none` if none is left to evict before it does,
so that the loop goes on forever. -/
def evict (maxSize size : ℕ) (cache : ChunkCache) : Option ChunkCache :=
  if cache.totalSize + size > maxSize then
    match _h : cache.chunks.popLru with
    | some ((_, evicted), rest) => evict maxSize size ⟨rest, cache.totalSize - evicted.size⟩
    | none => none
  else some cache
termination_by cache.chunks.length
decreasing_by exact LruCache.length_of_popLru (by assumption)

/-- Put a chunk into the cache, evicting others if necessary; `none` if this never ends. -/
def insert (config : CacheConfig) (cache : ChunkCache) (hash : ContentHash) (chunk : CachedChunk) :
    Option ChunkCache :=
  (cache.evict config.maxSizeBytes chunk.size).map fun cache =>
    ⟨cache.chunks.put config.maxChunks hash chunk, cache.totalSize + chunk.size⟩

variable {cache cache' : ChunkCache} {config : CacheConfig}

lemma mem_evict {maxSize size : ℕ} (h : cache.evict maxSize size = some cache')
    {e : ContentHash × CachedChunk} (he : e ∈ cache'.chunks.entries) :
    e ∈ cache.chunks.entries := by
  induction cache using evict.induct maxSize size with
  | case1 cache hover hash evicted rest hpop ih =>
    rw [evict, if_pos hover] at h
    split at h
    · next heq =>
      rw [hpop] at heq
      simp only [Option.some.injEq, Prod.mk.injEq] at heq
      obtain ⟨⟨-, rfl⟩, rfl⟩ := heq
      exact LruCache.mem_of_popLru hpop (ih h)
    · cases h
  | case2 cache hover hpop =>
    rw [evict, if_pos hover] at h
    split at h
    · next heq => rw [hpop] at heq; cases heq
    · cases h
  | case3 cache hfits =>
    rw [evict, if_neg hfits, Option.some.injEq] at h
    rw [h]
    exact he

/-- **The cache holds only what was put into it.** -/
theorem mem_insert {hash : ContentHash} {chunk : CachedChunk}
    (h : cache.insert config hash chunk = some cache') {e : ContentHash × CachedChunk}
    (he : e ∈ cache'.chunks.entries) : e = (hash, chunk) ∨ e ∈ cache.chunks.entries := by
  rw [insert, Option.map_eq_some_iff] at h
  obtain ⟨evicted, hevict, rfl⟩ := h
  exact (LruCache.mem_put he).imp_right (mem_evict hevict)

lemma lookup_insert {hash : ContentHash} {chunk : CachedChunk}
    (h : cache.insert config hash chunk = some cache') :
    cache'.chunks.lookup hash = some chunk := by
  rw [insert, Option.map_eq_some_iff] at h
  obtain ⟨evicted, -, rfl⟩ := h
  exact LruCache.lookup_put _ _ _ _

lemma evict_eq_none {maxSize size : ℕ} (cache : ChunkCache) (h : maxSize < size) :
    cache.evict maxSize size = none := by
  induction cache using evict.induct maxSize size with
  | case1 cache hover hash evicted rest hpop ih =>
    rw [evict, if_pos hover]
    split
    · next heq =>
      rw [hpop] at heq
      simp only [Option.some.injEq, Prod.mk.injEq] at heq
      obtain ⟨⟨-, rfl⟩, rfl⟩ := heq
      exact ih
    · rfl
  | case2 cache hover hpop =>
    rw [evict, if_pos hover]
    split
    · next heq => rw [hpop] at heq; cases heq
    · rfl
  | case3 cache hfits => omega

lemma exists_insert_new (hash : ContentHash) (chunk : CachedChunk)
    (h : chunk.size ≤ config.maxSizeBytes) :
    ∃ cache', new.insert config hash chunk = some cache' := by
  rw [insert, evict, if_neg (by simp only [new]; omega)]
  exact ⟨_, rfl⟩

end ChunkCache

/-- Batch write accumulator. -/
structure BatchWriter where
  pending : List (ContentHash × Bytes)
  totalSize : ℕ
  /-- When the batch was last flushed, in milliseconds. -/
  lastFlush : ℕ

/-- A new batch. -/
def BatchWriter.new (now : ℕ) : BatchWriter := ⟨[], 0, now⟩

/-- The batch is to be flushed. -/
def BatchWriter.shouldFlush (batch : BatchWriter) (now : ℕ) : Bool :=
  batch.pending.length ≥ 100 || batch.totalSize ≥ 10 * 1024 * 1024 || now - batch.lastFlush ≥ 100

/-- The state of a content store, and of the runtime that runs its batched writes. -/
structure StoreState where
  fs : Fs
  cache : ChunkCache
  /-- A task that will never end its eviction holds the lock of the cache. -/
  cacheStuck : Bool
  dedupIndex : HashMap ContentHash ObjectRef
  batchWriter : BatchWriter
  pendingSyncs : UInt32
  /-- How many more batched writes may run. -/
  permits : ℕ
  /-- The batched writes that were given to the runtime, in order. -/
  spawned : List (ContentHash × Bytes)
  /-- What the batched writes returned. -/
  results : ℕ → Option (Except CasError ObjectRef)

/-- The state of a store just opened on a disk. -/
def ContentStore.opened (store : ContentStore) (fs : Fs) (now : ℕ) : StoreState where
  fs := fs
  cache := .new
  cacheStuck := false
  dedupIndex := ∅
  batchWriter := .new now
  pendingSyncs := 0
  permits := store.config.maxConcurrentOps
  spawned := []
  results _ := none

end Landropic.Cas
