import Landropic.Cas.Flushed
import Landropic.Cas.Reads

set_option autoImplicit false

/-!
# Compression of batched writes

A batched write compresses what it stores, and a read takes the file of an object as it is. As long
as the data is in the cache nobody notices; when the cache was cleared, or the store was opened
anew, a read sees the compressed bytes.

## Main definitions

* `Cas.ContentStore.Transparent` — the data is read back, from the cache, after the cache was
  cleared and after the store was opened anew.
* `Cas.ContentStore.StoredAsIs` — what is stored is the data itself.

## Main results

* `Cas.ContentStore.transparent_iff` — batched writes are transparent if and only if the data is
  stored as it is.
-/

namespace Landropic.Cas

open Proc

namespace ContentStore

variable (store : ContentStore) (data : Bytes)

/-- The data is read back right now, after the cache was cleared, and after the store was opened
anew with enough turns for its recovery. -/
structure Transparent (s : StoreState) : Prop where
  cached : Ensures noFault (fun r _ => r = .ok data) (store.read (store.blake3 data)) s
  cleared : Ensures noFault (fun r _ => r = .ok data) (do
    clearCache
    store.read (store.blake3 data)) s
  reopened : ∀ order now, ∃ enough, ∀ fuel ≥ enough, Ensures noFault (fun r _ => r = .ok data) (do
    store.prepare order fuel
    store.read (store.blake3 data)) (store.opened s.fs now)

/-- What is stored for the data on a disk is the data itself: it is what was packed, or else the
data fits into the cache, and its file was there or the compression leaves it as it is. -/
def StoredAsIs (fs : Fs) : Prop :=
  match store.packed (store.blake3 data) with
  | some packed => packed = data
  | none => data.length ≤ store.config.cacheConfig.maxSizeBytes ∧
    (fs.content (store.objectPath (store.blake3 data)) = some data ∨
      fs.content (store.objectPath (store.blake3 data)) = none ∧ store.storedForm data = .ok data)

variable {store data} {s : StoreState} {fs : Fs} {now : ℕ} {S : System}

/-- The data is what is found where nothing is cached. -/
def HasData (store : ContentStore) (data : Bytes) (fs : Fs) : Prop :=
  match store.packed (store.blake3 data) with
  | some packed => packed = data
  | none => data.length ≤ store.config.cacheConfig.maxSizeBytes ∧
    fs.content (store.objectPath (store.blake3 data)) = some data

lemma ensures_read_new_iff (hne : data ≠ []) (hcache : s.cache = .new)
    (hfree : s.cacheStuck = false) :
    Ensures noFault (fun r _ => r = .ok data) (store.read (store.blake3 data)) s ↔
      store.HasData data s.fs := by
  have hlookup : s.cache.chunks.lookup (store.blake3 data) = none := by rw [hcache]; rfl
  rw [ensures_read_iff, found, Takes, hlookup, HasData]
  cases hpacked : store.packed (store.blake3 data) with
  | some packed => simp [hfree]
  | none =>
    simp only [hfree, true_and, intact_eq_some, hne, ne_eq, not_false_eq_true, and_true,
      forall_const]
    rw [and_comm]
    refine and_congr_left fun _ => ⟨fun hput => ?_, fun hle => ?_⟩
    · by_contra hlt
      rw [ChunkCache.insert, ChunkCache.evict_eq_none _
        (by simpa [CachedChunk.new] using hlt)] at hput
      cases hput
    · obtain ⟨cache, hput⟩ := ChunkCache.exists_insert_new (store.blake3 data) (.new data) hle
      rw [hcache, hput]
      rfl

lemma Flushed.hasData_iff (h : store.Flushed (store.opened fs now) data s) :
    store.HasData data s.fs ↔ store.StoredAsIs data fs := by
  unfold HasData StoredAsIs
  split
  · exact Iff.rfl
  · refine and_congr_right fun _ => ?_
    rcases h.state with hcached | ⟨hsame, hold⟩
    · obtain ⟨stored, hform, hstored⟩ := hcached.object
      have hmissing : fs.content (store.objectPath (store.blake3 data)) = none := hcached.missing.2
      rw [hstored, hmissing, hform]
      simp
    · have hold : fs.content (store.objectPath (store.blake3 data)) ≠ none :=
        hold.resolve_left fun hindex => hindex rfl
      rw [show s.fs.content _ = fs.content _ from hsame.object]
      exact ⟨.inl, fun h => h.resolve_right fun hnone => hold hnone.1⟩

lemma Flushed.ensures_read (hne : data ≠ []) (h : store.Flushed (store.opened fs now) data s)
    (hdisk : store.HasData data s.fs) :
    Ensures noFault (fun r _ => r = .ok data) (store.read (store.blake3 data)) s := by
  rcases h.state with hcached | ⟨hsame, -⟩
  · have hlookup := ChunkCache.lookup_insert hcached.cache
    rw [ensures_read_iff, found, Takes, hlookup]
    exact ⟨hcached.stuck, rfl, by rintro ⟨⟩⟩
  · exact (ensures_read_new_iff hne hsame.cache hsame.stuck).mpr hdisk

lemma hasData_of_transparent (hne : data ≠ []) (h : store.Transparent data s) :
    store.HasData data s.fs := by
  obtain ⟨hall, r, s', hrun⟩ := h.cleared
  obtain rfl := hall r s' hrun
  have hread := post_of_returns_mayBlock hrun (wp_bind (wp_mayBlock_withCache fun _ =>
    store.wp_read_mayBlock (store.blake3 data) { s with cache := .new })) data rfl
  exact (ensures_read_new_iff (s := { s with cache := .new }) hne rfl hread.1).mp
    ((store.ensures_read_iff ..).mpr hread)

variable (store data) in
/-- **Compression is transparent only where it does nothing.** A store was opened on a disk in
order, data that is not empty was written in a batch, and the batch was flushed, both without fault.
Then the data is read back from the cache, after the cache was cleared and after the store was
opened anew, if and only if it was stored as it is: its file was there before, or its stored form is
the data itself.

**Proof sketch.** The batched write puts the stored form of the data into the file and the data into
the cache. A read that does not find the object in the cache compares the hash of the file with that
of the object and returns the contents of the file, which nothing decompresses. -/
theorem transparent_iff (hne : data ≠ []) (fs : Fs) (now : ℕ)
    (htidy : store.Tidy (fun _ _ => True) fs)
    (hrun : store.Run (PutAndFlush data) (store.system fs now) S) (hidle : S.call = none)
    (hok : S.log.map (fun entry => entry.2.isOk) = [true, true]) :
    store.Transparent data S.pool.state ↔ store.StoredAsIs data fs := by
  have hfresh : store.Fresh (store.opened fs now) := ⟨rfl, rfl, rfl, htidy⟩
  have hflushed := flushed_of_run hfresh hrun hidle hok
  have hfree : S.pool.state.cacheStuck = false := by
    rcases hflushed.state with hcached | ⟨hsame, -⟩
    · exact hcached.stuck
    · exact hsame.stuck
  rw [← hflushed.hasData_iff]
  refine ⟨hasData_of_transparent hne, fun h => ⟨hflushed.ensures_read hne h, ?_, fun order now =>
    ⟨2 * (store.withDirs S.pool.state.fs).nodes.keys.card, fun fuel hfuel => ?_⟩⟩⟩
  · refine ensures_of_wp exists_noFault (wp_bind (wp_alone_withCache hfree ?_))
    obtain ⟨-, hfound, htakes⟩ := (store.ensures_read_iff ..).mp
      ((ensures_read_new_iff (s := { S.pool.state with cache := .new }) hne rfl hfree).mpr h)
    exact wp_read hfree hfound htakes
  · refine ensures_of_wp exists_noFault (wp_bind (wp_mono
      (wp_prepare (s := store.opened S.pool.state.fs now) order hflushed.tidy hfuel) ?_))
    rintro _ _ ⟨rfl, fs', rfl, hcontent⟩
    have hdisk : store.HasData data fs' := by
      unfold HasData at h ⊢
      split at h
      · exact h
      · exact ⟨h.1, hcontent _ _ h.2⟩
    obtain ⟨-, hfound, htakes⟩ := (store.ensures_read_iff ..).mp
      ((ensures_read_new_iff (s := { store.opened S.pool.state.fs now with fs := fs' }) hne rfl
        rfl).mpr hdisk)
    exact wp_read rfl hfound htakes

/-- A byte is written in a batch, which is flushed; the batched write takes some actions. -/
private def putAndFlush (actions : ℕ) : List Event :=
  .call (.writeBatch [([1], none)]) :: List.replicate 3 (.act none (.ok 0)) ++
    .call .flushBatch :: List.replicate 4 (.act none (.ok 0)) ++
    .start 0 :: List.replicate actions (.act (some 0) (.ok 0)) ++
      List.replicate 3 (.act none (.ok 0))

/-- A byte is written in a batch without compression, and flushed. -/
theorem transparent_iff_flushed : ∃ S,
    Runs.exec (default .blake3Sample .identity).next (PutAndFlush [1]) (putAndFlush 10)
      ((default .blake3Sample .identity).system .empty 0) = some S ∧
      ((default .blake3Sample .identity).Transparent [1] S.pool.state ↔
        (default .blake3Sample .identity).StoredAsIs [1] .empty) := by
  have hexec : (Runs.exec (default .blake3Sample .identity).next (PutAndFlush [1]) (putAndFlush 10)
      ((default .blake3Sample .identity).system .empty 0)).map (fun S =>
        (S.call.isNone, S.log.map fun entry => entry.2.isOk)) = some (true, [true, true]) := by
    decide +kernel
  obtain ⟨S, hS, hend⟩ := Option.map_eq_some_iff.mp hexec
  obtain ⟨hidle, hok⟩ := Prod.mk.inj hend
  exact ⟨S, hS, transparent_iff _ [1] (by simp) .empty 0 tidy_empty (Runs.run_of_exec hS)
    (Option.isNone_iff_eq_none.mp hidle) hok⟩

/-! ## A codec that makes one run of literals -/

/-- The bytes that give the length of a run of literals, beyond what the token has of it. -/
def literalLength (n : ℕ) : Bytes := List.replicate (n / 255) 255 ++ [UInt8.ofNat (n % 255)]

/-- A block of literals, after the length of the data: what the LZ4 library makes of data without
repetitions. -/
def toLiterals (data : Bytes) : Bytes :=
  leBytes 4 data.length ++
    ((if data.length < 15 then [UInt8.ofNat (16 * data.length)]
      else 240 :: literalLength (data.length - 15)) ++ data)

/-- The data of a block of literals. -/
def ofLiterals (block : Bytes) : Except String Bytes :=
  match block.drop 4 with
  | [] => .error "expected another byte"
  | token :: rest =>
    if token < 240 then .ok rest else .ok ((rest.dropWhile fun b => b = 255).drop 1)

lemma ofLiterals_toLiterals (data : Bytes) : ofLiterals (toLiterals data) = .ok data := by
  unfold ofLiterals toLiterals
  rw [List.drop_left' (length_leBytes 4 data.length)]
  split
  · next h => split at h <;> simp at h
  · next token rest h =>
    split at h
    · next hshort =>
      obtain ⟨rfl, rfl⟩ := List.cons.inj h
      have htoken : UInt8.ofNat (16 * data.length) < 240 := by
        have hlt : 16 * data.length < 240 := by omega
        rw [UInt8.lt_iff_toNat_lt, UInt8.toNat_ofNat_of_lt' (hlt.trans (by decide))]
        exact hlt
      rw [if_pos htoken]
      rfl
    · next hlong =>
      obtain ⟨rfl, rfl⟩ := List.cons.inj h
      have hlast : UInt8.ofNat ((data.length - 15) % 255) ≠ 255 := by
        intro heq
        have hlt : (data.length - 15) % 255 < 255 := Nat.mod_lt _ (by decide)
        have hnat := congrArg UInt8.toNat heq
        rw [UInt8.toNat_ofNat_of_lt' (hlt.trans (by decide))] at hnat
        exact hlt.ne hnat
      rw [if_neg (by decide)]
      show Except.ok (List.drop 1 (List.dropWhile _ ((_ ++ [_]) ++ data))) = _
      rw [List.append_assoc, List.dropWhile_append_of_pos
        fun b hb => by simp [List.eq_of_mem_replicate hb]]
      rw [List.singleton_append, List.dropWhile_cons_of_neg (by simpa using hlast)]
      rfl

/-- Codecs that leave data as it is, but for LZ4, which makes one run of literals. -/
def literalCodecs : Codecs :=
  { Codecs.identity with
    lz4Compress := toLiterals
    lz4Decompress := ofLiterals
    lz4Decompress_lz4Compress := ofLiterals_toLiterals }

/-- A store of the default configuration with another compression. -/
def compressing (compression : CompressionType) : ContentStore :=
  { default .blake3Sample literalCodecs with
    config := { ContentStoreConfig.default with compression := compression } }

/-- A byte is written in a batch with LZ4, which is flushed; the file of the object has the
compressed byte, so that the byte cannot be read back after the cache was cleared. -/
theorem not_forall_transparent : ¬ ∀ (store : ContentStore) (data : Bytes) (now : ℕ) (S : System),
    data ≠ [] → data.length ≤ MAX_OBJECT_SIZE →
    store.Run (PutAndFlush data) (store.system .empty now) S → S.call = none →
    S.log.map (fun entry => entry.2.isOk) = [true, true] →
    store.Transparent data S.pool.state := by
  intro h
  have hexec : (Runs.exec (compressing .lz4).next (PutAndFlush [1]) (putAndFlush 15)
      ((compressing .lz4).system .empty 0)).map (fun S =>
        (S.call.isNone, S.log.map fun entry => entry.2.isOk, S.pool.state.fs.content
          ((compressing .lz4).objectPath (.blake3Sample [1])))) =
      some (true, [true, true], some [1, 0, 0, 0, 16, 1]) := by decide +kernel
  obtain ⟨S, hS, hend⟩ := Option.map_eq_some_iff.mp hexec
  simp only [Prod.mk.injEq] at hend
  obtain ⟨hidle, hok, hcontent⟩ := hend
  have hdata := hasData_of_transparent (by simp) (h _ [1] 0 S (by simp) (by decide)
    (Runs.run_of_exec hS) (Option.isNone_iff_eq_none.mp hidle) hok)
  have hstored := hdata.2
  cases hcontent.symm.trans hstored

end ContentStore

end Landropic.Cas
