import Landropic.Cas.CacheSteps

set_option autoImplicit false

/-!
# The account of the chunk cache

The cache counts the bytes it holds in a number of its own. The loop that makes room for a chunk
evicts chunks until that number is small enough, and subtracts what it evicts. But a chunk that is
put into the cache can also take the place of another one, of the same hash or, in a cache that is
full, of the least recently used one, and then nothing is subtracted; and the loop never ends when
nothing is left to evict.

## Main definitions

* `Cas.ContentStore.CacheAccounts` — the number is right and within its bound, and no eviction goes
  on forever.
* `Cas.ChunkCache.Roomy` — putting a chunk into the cache drops nothing in silence.
* `Cas.ContentStore.PutsRoomily` — the steps that put no chunk into a cache which is not roomy for
  it.

## Main results

* `Cas.ChunkCache.balanced_insert_iff` — when the number is still right after a chunk was put into
  the cache.
* `Cas.ContentStore.accounts_of_run` — the number is right along every run of such steps.
-/

namespace Landropic.Cas

open Proc

namespace ChunkCache

/-! ## One cache -/

/-- The bytes of some chunks. -/
def sizeSum (entries : List (ContentHash × CachedChunk)) : ℕ :=
  (entries.map fun entry => entry.2.size).sum

/-- The loop that makes room for a chunk subtracts more than there is. -/
def underflows (maxSize size : ℕ) (cache : ChunkCache) : Bool :=
  if cache.totalSize + size > maxSize then
    match _h : cache.chunks.popLru with
    | some ((_, evicted), rest) =>
      decide (cache.totalSize < evicted.size) ||
        underflows maxSize size ⟨rest, cache.totalSize - evicted.size⟩
    | none => false
  else false
termination_by cache.chunks.length
decreasing_by exact LruCache.length_of_popLru (by assumption)

/-- The cache counts what it holds, and holds no more than it may. -/
structure Balanced (config : CacheConfig) (cache : ChunkCache) : Prop where
  totalSize : cache.totalSize = sizeSum cache.chunks.entries
  bound : cache.totalSize ≤ config.maxSizeBytes
  no_underflow : ∀ size, cache.underflows config.maxSizeBytes size = false

/-- A chunk can be put into the cache without anything being dropped in silence. -/
structure Roomy (config : CacheConfig) (cache : ChunkCache) (hash : ContentHash) (size : ℕ) :
    Prop where
  /-- The chunk is no larger than the cache. -/
  fits : size ≤ config.maxSizeBytes
  /-- A chunk of the same hash that there is room for beside it, with all that were used since, is
  empty. -/
  replaced : ∀ old rest, (hash, old) :: rest <:+ cache.chunks.entries →
    sizeSum ((hash, old) :: rest) + size ≤ config.maxSizeBytes → old.size = 0
  /-- So is the least recently used chunk if there is room for the new one in bytes, but as many
  chunks as allowed, none of them of this hash. -/
  dropped : ∀ first rest, cache.chunks.entries = first :: rest →
    hash ∉ cache.chunks.entries.map Prod.fst →
    sizeSum cache.chunks.entries + size ≤ config.maxSizeBytes →
    cache.chunks.length = config.maxChunks → first.2.size = 0

variable {config : CacheConfig} {cache cache' : ChunkCache} {hash : ContentHash} {size : ℕ}
  {entry : ContentHash × CachedChunk} {entries entries' : List (ContentHash × CachedChunk)}

instance : Decidable (Roomy config cache hash size) :=
  decidable_of_iff (size ≤ config.maxSizeBytes ∧
    (∀ tail ∈ cache.chunks.entries.tails, ∀ entry ∈ tail.head?, entry.1 = hash →
      sizeSum tail + size ≤ config.maxSizeBytes → entry.2.size = 0) ∧
    (∀ first ∈ cache.chunks.entries.head?, hash ∉ cache.chunks.entries.map Prod.fst →
      sizeSum cache.chunks.entries + size ≤ config.maxSizeBytes →
      cache.chunks.length = config.maxChunks → first.2.size = 0)) <| by
    constructor
    · rintro ⟨hfits, hreplaced, hdropped⟩
      refine ⟨hfits, fun old rest hrest => ?_, fun first rest hcons => ?_⟩
      · exact hreplaced _ ((List.mem_tails _ _).mpr hrest) (hash, old) rfl rfl
      · exact hdropped first (by rw [hcons]; rfl)
    · rintro ⟨hfits, hreplaced, hdropped⟩
      refine ⟨hfits, ?_, fun first hfirst => ?_⟩
      · rintro tail htail ⟨hash', old⟩ hold rfl hroom
        obtain ⟨rest, rfl⟩ := List.head?_eq_some_iff.mp hold
        exact hreplaced old rest ((List.mem_tails _ _).mp htail) hroom
      · obtain ⟨rest, hcons⟩ := List.head?_eq_some_iff.mp hfirst
        exact hdropped first rest hcons

@[simp] lemma sizeSum_nil : sizeSum [] = 0 := rfl

@[simp] lemma sizeSum_cons : sizeSum (entry :: entries) = entry.2.size + sizeSum entries :=
  List.sum_cons

@[simp] lemma sizeSum_append :
    sizeSum (entries ++ entries') = sizeSum entries + sizeSum entries' := by
  rw [sizeSum, List.map_append, List.sum_append]
  rfl

lemma sizeSum_of_perm (h : entries.Perm entries') : sizeSum entries = sizeSum entries' :=
  (h.map _).sum_eq

lemma sizeSum_le_of_suffix (h : entries <:+ entries') : sizeSum entries ≤ sizeSum entries' := by
  obtain ⟨front, rfl⟩ := h
  rw [sizeSum_append]
  exact Nat.le_add_left _ _

lemma underflows_eq_false (maxSize size : ℕ)
    (h : cache.totalSize = sizeSum cache.chunks.entries) :
    cache.underflows maxSize size = false := by
  induction cache using underflows.induct maxSize size with
  | case1 cache hover hash evicted rest hpop ih =>
    have hentries := LruCache.entries_of_popLru hpop
    have htotal : cache.totalSize = evicted.size + sizeSum rest.entries := by
      rw [h, hentries, sizeSum_cons]
    rw [underflows, if_pos hover]
    split
    · next heq =>
      rw [hpop] at heq
      simp only [Option.some.injEq, Prod.mk.injEq] at heq
      obtain ⟨⟨-, rfl⟩, rfl⟩ := heq
      rw [ih (by dsimp only; omega), Bool.or_false, decide_eq_false_iff_not]
      omega
    · rfl
  | case2 cache hover hpop =>
    rw [underflows, if_pos hover]
    split
    · next heq =>
      rw [hpop] at heq
      cases heq
    · rfl
  | case3 cache hfits => rw [underflows, if_neg hfits]

lemma balanced_iff : Balanced config cache ↔
    cache.totalSize = sizeSum cache.chunks.entries ∧ cache.totalSize ≤ config.maxSizeBytes :=
  ⟨fun h => ⟨h.totalSize, h.bound⟩, fun h => ⟨h.1, h.2, fun size => underflows_eq_false _ size h.1⟩⟩

/-- **The eviction loop** keeps the most recently used chunks that there is room for. -/
lemma exists_evict (hsize : size ≤ config.maxSizeBytes)
    (h : cache.totalSize = sizeSum cache.chunks.entries) :
    ∃ kept, cache.evict config.maxSizeBytes size = some kept ∧
      kept.totalSize = sizeSum kept.chunks.entries ∧
      kept.totalSize + size ≤ config.maxSizeBytes ∧
      kept.chunks.entries <:+ cache.chunks.entries ∧
      ∀ rest, rest <:+ cache.chunks.entries → sizeSum rest + size ≤ config.maxSizeBytes →
        rest <:+ kept.chunks.entries := by
  induction cache using evict.induct config.maxSizeBytes size with
  | case1 cache hover hash evicted room hpop ih =>
    have hentries := LruCache.entries_of_popLru hpop
    have htotal : cache.totalSize = evicted.size + sizeSum room.entries := by
      rw [h, hentries, sizeSum_cons]
    obtain ⟨kept, hevict, hkept, hroom, hsuffix, hlongest⟩ := ih (by dsimp only; omega)
    refine ⟨kept, ?_, hkept, hroom, ?_, fun rest hrest hfits => hlongest rest ?_ hfits⟩
    · rw [evict, if_pos hover]
      split
      · next heq =>
        rw [hpop] at heq
        simp only [Option.some.injEq, Prod.mk.injEq] at heq
        obtain ⟨⟨-, rfl⟩, rfl⟩ := heq
        exact hevict
      · next heq =>
        rw [hpop] at heq
        cases heq
    · rw [hentries]
      exact hsuffix.trans (List.suffix_cons _ _)
    · -- there is no room for all of them
      rw [hentries, List.suffix_cons_iff] at hrest
      refine hrest.resolve_left ?_
      rintro rfl
      rw [sizeSum_cons] at hfits
      dsimp only at hfits
      omega
  | case2 cache hover hpop =>
    have hnil := LruCache.entries_of_popLru_eq_none hpop
    rw [hnil, sizeSum_nil] at h
    omega
  | case3 cache hfits =>
    refine ⟨cache, by rw [evict, if_neg hfits], h, by omega, List.suffix_rfl,
      fun _ hrest _ => hrest⟩

/-- The number is right after a chunk was added exactly when what the chunk took the place of was
empty. -/
lemma sizeSum_put_iff {kept : LruCache ContentHash CachedChunk} {chunk : CachedChunk}
    (hlen : kept.length ≤ config.maxChunks) :
    sizeSum kept.entries + chunk.size = sizeSum (kept.put config.maxChunks hash chunk).entries ↔
      (∀ old, kept.lookup hash = some old → old.size = 0) ∧
        (kept.lookup hash = none → kept.length = config.maxChunks →
          ∀ first rest, kept.entries = first :: rest → first.2.size = 0) := by
  cases hlookup : kept.lookup hash with
  | some old =>
    have hsum : sizeSum kept.entries = old.size + sizeSum (kept.without hash).entries :=
      sizeSum_of_perm (LruCache.perm_without hlookup)
    rw [LruCache.entries_put_of_lookup hlookup, sizeSum_append, sizeSum_cons, sizeSum_nil, hsum]
    dsimp only
    constructor
    · intro h
      refine ⟨?_, nofun⟩
      rintro old' ⟨⟩
      omega
    · intro h
      have hold := h.1 old rfl
      omega
  | none =>
    by_cases hlt : kept.length < config.maxChunks
    · rw [LruCache.entries_put_of_lt hlookup hlt, sizeSum_append, sizeSum_cons, sizeSum_nil]
      exact iff_of_true rfl ⟨nofun, fun _ hfull => absurd hfull (by omega)⟩
    · obtain ⟨first, rest, hcons⟩ : ∃ first rest, kept.entries = first :: rest := by
        refine List.exists_cons_of_length_pos ?_
        exact lt_of_lt_of_le config.maxChunks_pos (not_lt.mp hlt)
      rw [LruCache.entries_put_of_full hlookup hlt hcons, hcons, sizeSum_append, sizeSum_cons,
        sizeSum_cons, sizeSum_nil]
      dsimp only
      constructor
      · intro h
        refine ⟨nofun, fun _ _ first' rest' hcons' => ?_⟩
        obtain ⟨rfl, rfl⟩ := List.cons.inj hcons'
        omega
      · intro h
        have hfirst := h.2 rfl (by omega) first rest rfl
        omega

/-- **When the account is still right** after a chunk was put into the cache: exactly when the cache
was roomy for it.

**Proof sketch.** The eviction loop ends exactly if the chunk is no larger than the cache, and then
keeps as many of the most recently used chunks as there is room for. Adding the chunk to them leaves
the number right if what it takes the place of is empty. -/
theorem balanced_insert_iff (h : Balanced config cache)
    (hlen : cache.chunks.length ≤ config.maxChunks) (chunk : CachedChunk) :
    (∃ cache', cache.insert config hash chunk = some cache' ∧ Balanced config cache') ↔
      Roomy config cache hash chunk.size := by
  by_cases hfits : chunk.size ≤ config.maxSizeBytes
  · obtain ⟨kept, hevict, hkept, hroom, hsuffix, hlongest⟩ := exists_evict hfits h.totalSize
    have hkeptLen : kept.chunks.length ≤ config.maxChunks := hsuffix.length_le.trans hlen
    have hinsert : cache.insert config hash chunk =
        some ⟨kept.chunks.put config.maxChunks hash chunk, kept.totalSize + chunk.size⟩ := by
      rw [insert, hevict, Option.map_some]
    rw [hinsert]
    simp only [Option.some.injEq, exists_eq_left', balanced_iff, hroom, and_true]
    rw [hkept, sizeSum_put_iff hkeptLen]
    constructor
    · rintro ⟨hreplaced, hdropped⟩
      refine ⟨hfits, fun old rest hrest hroom' => ?_, fun first rest hcons hnew hroom' hfull => ?_⟩
      · have hmem := (hlongest _ hrest hroom').subset List.mem_cons_self
        exact hreplaced old (LruCache.lookup_of_mem hmem)
      · -- all chunks are kept
        have heq : cache.chunks.entries = kept.chunks.entries :=
          (hlongest _ List.suffix_rfl hroom').eq_of_length_le hsuffix.length_le
        refine hdropped (LruCache.lookup_eq_none_iff.mpr (heq ▸ hnew)) ?_ first rest (heq ▸ hcons)
        rw [← hfull, LruCache.length, LruCache.length, heq]
    · intro hroomy
      refine ⟨fun old hold => ?_, fun hnone hfull first rest hcons => ?_⟩
      · obtain ⟨front, rest, hsplit⟩ := List.append_of_mem (LruCache.mem_of_lookup hold)
        have hrest : (hash, old) :: rest <:+ kept.chunks.entries := ⟨front, hsplit.symm⟩
        have hle := sizeSum_le_of_suffix hrest
        exact hroomy.replaced old rest (hrest.trans hsuffix) (by omega)
      · have heq : kept.chunks.entries = cache.chunks.entries :=
          hsuffix.eq_of_length_le (hlen.trans hfull.ge)
        have hnew := LruCache.lookup_eq_none_iff.mp hnone
        rw [heq] at hcons hnew hkept
        refine hroomy.dropped first rest hcons hnew (by omega) ?_
        rw [← hfull, LruCache.length, LruCache.length, heq]
  · rw [insert, evict_eq_none _ (not_le.mp hfits)]
    refine iff_of_false ?_ fun hroomy => hfits hroomy.fits
    rintro ⟨_, ⟨⟩, -⟩

lemma length_evict_le {maxSize : ℕ} (h : cache.evict maxSize size = some cache') :
    cache'.chunks.length ≤ cache.chunks.length := by
  have hnodup : cache'.chunks.entries.Nodup := cache'.chunks.nodup_keys.of_map _
  exact (hnodup.subperm fun entry hentry => mem_evict h hentry).length_le

lemma length_insert_le {chunk : CachedChunk} (hlen : cache.chunks.length ≤ config.maxChunks)
    (h : cache.insert config hash chunk = some cache') :
    cache'.chunks.length ≤ config.maxChunks := by
  rw [insert, Option.map_eq_some_iff] at h
  obtain ⟨kept, hevict, rfl⟩ := h
  exact LruCache.length_put_le config.maxChunks_pos ((length_evict_le hevict).trans hlen) chunk

end ChunkCache

namespace ContentStore

variable (store : ContentStore)

/-- The cache counts what it holds, and no eviction goes on forever. -/
structure CacheAccounts (s : StoreState) : Prop where
  free : s.cacheStuck = false
  balanced : s.cache.Balanced store.config.cacheConfig

variable {store} {s s' : StoreState} {op : Op}

/-! ## Runs -/

section Runs

variable (store) in
/-- A task puts a chunk into the cache only if the cache is roomy for it. -/
def PutsRoomily (S : System) : Event → Prop
  | .act t _ => match (S.pool.task t).head with
    | some (.cachePut hash data) =>
      S.pool.state.cache.Roomy store.config.cacheConfig hash data.length
    | _ => True
  | _ => True

instance (S : System) (e : Event) : Decidable (store.PutsRoomily S e) := by
  unfold PutsRoomily
  split
  · split <;> infer_instance
  · infer_instance

/-- **One action** keeps the account right if the cache is roomy for the chunk it puts there, if it
does. -/
theorem CacheAccounts.step (h : store.CacheAccounts s)
    (hlen : s.cache.chunks.length ≤ store.config.cacheConfig.maxChunks)
    (hstep : store.CacheStep op s s')
    (hroomy : ∀ hash data, op = .cachePut hash data →
      s.cache.Roomy store.config.cacheConfig hash data.length) :
    store.CacheAccounts s' ∧ s'.cache.chunks.length ≤ store.config.cacheConfig.maxChunks := by
  cases hstep with
  | same hcache hstuck =>
    rw [hcache]
    exact ⟨⟨hstuck.trans h.free, hcache ▸ h.balanced⟩, hlen⟩
  | promote hash hs' =>
    subst hs'
    have hperm := s.cache.chunks.perm_promote hash
    refine ⟨⟨h.free, ChunkCache.balanced_iff.mpr ⟨?_, h.balanced.bound⟩⟩, ?_⟩
    · exact h.balanced.totalSize.trans (ChunkCache.sizeSum_of_perm hperm).symm
    · exact hperm.length_eq.trans_le hlen
  | clear hs' =>
    subst hs'
    exact ⟨⟨h.free, ChunkCache.balanced_iff.mpr ⟨rfl, Nat.zero_le _⟩⟩, Nat.zero_le _⟩
  | put hash data hop hs' =>
    obtain ⟨cache, hinsert, hbalanced⟩ :=
      (ChunkCache.balanced_insert_iff h.balanced hlen (.new data)).mpr (hroomy hash data hop)
    rw [hinsert] at hs'
    subst hs'
    exact ⟨⟨h.free, hbalanced⟩, ChunkCache.length_insert_le hlen hinsert⟩

variable {S : System}

variable (store) in
/-- **The cache accounts for itself** along every run in which no chunk is put into a cache that is
not roomy for it, whatever disk the store is opened on and whatever is called: its number is that of
the bytes it holds, which are no more than allowed, and no eviction subtracts more than there is or
goes on forever.

**Proof sketch.** Reads and prefetches mark chunks as used, which moves them, and put chunks into
the cache, as batched writes do; clearing the cache empties it; nothing else touches it. So it is
enough to look at one chunk that is put there (`ChunkCache.balanced_insert_iff`). -/
theorem accounts_of_run (fs : Fs) (now : ℕ)
    (hrun : store.Run store.PutsRoomily (store.system fs now) S) :
    store.CacheAccounts S.pool.state := by
  refine And.left (hrun.invariant (I := fun S => store.CacheAccounts S.pool.state ∧
    S.pool.state.cache.chunks.length ≤ store.config.cacheConfig.maxChunks) ?_
    (fun _ hS _ _ _ => hS) (fun _ hS _ _ _ => hS) ?_ fun hS _ _ => hS)
  · exact ⟨⟨rfl, ChunkCache.balanced_iff.mpr ⟨rfl, Nat.zero_le _⟩⟩, Nat.zero_le _⟩
  · intro S t i P hreach hS hC hstep
    obtain ⟨⟨op, hhead, hcache⟩, -⟩ := (cacheSafe_of_run hreach t).step hstep.proc
    refine hS.1.step hS.2 hcache fun hash data hop => ?_
    rw [PutsRoomily, hhead, hop] at hC
    exact hC

/-- Chunks are written in a batch and flushed, and each of them is put into the cache. -/
private def flushedChunks (chunks : List Bytes) : List Event :=
  .call (.writeBatch (chunks.map fun chunk => (chunk, none))) ::
    List.replicate (2 * chunks.length + 1) (.act none (.ok 0)) ++
    .call .flushBatch :: List.replicate (2 * chunks.length + 2) (.act none (.ok 0)) ++
    (List.range chunks.length).flatMap fun job =>
      .start job :: List.replicate 8 (.act (some job) (.ok 0))

/-- A store whose cache may hold one chunk and some bytes. -/
private def smallCache (maxSizeBytes : ℕ) : ContentStore :=
  let store := default .blake3Sample .identity
  { store with config := { store.config with cacheConfig :=
    { maxChunks := 1, maxChunks_pos := by decide, maxSizeBytes, prefetchEnabled := true } } }

/-- A byte for which another one has to leave the cache. -/
theorem accounts_of_run_evicted : ∃ S,
    Runs.exec (smallCache 1).next (smallCache 1).PutsRoomily (flushedChunks [[1], [2]])
      ((smallCache 1).system .empty 0) = some S ∧
    S.pool.state.cache.chunks.entries.map Prod.fst = [ContentHash.blake3Sample [2]] ∧
    (smallCache 1).CacheAccounts S.pool.state := by
  have hexec : (Runs.exec (smallCache 1).next (smallCache 1).PutsRoomily (flushedChunks [[1], [2]])
      ((smallCache 1).system .empty 0)).map
        (fun S => S.pool.state.cache.chunks.entries.map Prod.fst) =
      some [ContentHash.blake3Sample [2]] := by decide +kernel
  obtain ⟨S, hS, hentries⟩ := Option.map_eq_some_iff.mp hexec
  exact ⟨S, hS, hentries, accounts_of_run _ .empty 0 (Runs.run_of_exec hS)⟩

/-- The calls that use the cache. -/
def CachedCalls (_ : System) : Event → Prop
  | .call (.read _) => True
  | .call (.writeBatch _) => True
  | .call .flushBatch => True
  | .call (.prefetch _) => True
  | .call .clearCache => True
  | .call _ => False
  | _ => True

instance (S : System) : (e : Event) → Decidable (CachedCalls S e)
  | .call (.read _) | .call (.writeBatch _) | .call .flushBatch | .call (.prefetch _)
  | .call .clearCache | .start _ | .act _ _ => inferInstanceAs (Decidable True)
  | .call (.write _) | .call (.writeStream _ _) | .call (.startResumableWrite _ _)
  | .call (.continueResumableWrite _ _) | .call (.completeResumableWrite _) | .call (.delete _)
  | .call (.recover _ _) => inferInstanceAs (Decidable False)

/-- A byte takes the place of another one in a cache for one chunk, which then counts two. -/
theorem not_forall_accounts : ¬ ∀ (store : ContentStore) (fs : Fs) (now : ℕ) (S : System),
    store.Run CachedCalls (store.system fs now) S → store.CacheAccounts S.pool.state := by
  intro h
  have hexec : (Runs.exec (smallCache 2).next CachedCalls (flushedChunks [[1], [2]])
      ((smallCache 2).system .empty 0)).map (fun S => (S.pool.state.cache.totalSize,
        ChunkCache.sizeSum S.pool.state.cache.chunks.entries)) = some (2, 1) := by decide +kernel
  obtain ⟨S, hS, hsizes⟩ := Option.map_eq_some_iff.mp hexec
  obtain ⟨htotal, hsum⟩ := Prod.mk.inj hsizes
  have htotalSize := (h _ .empty 0 S (Runs.run_of_exec hS)).balanced.totalSize
  omega

end Runs

end ContentStore

end Landropic.Cas
