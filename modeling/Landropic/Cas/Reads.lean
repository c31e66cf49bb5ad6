import Landropic.Cas.CrashRecovery
import Landropic.Cas.DedupIndex

set_option autoImplicit false

/-!
# What a read returns

A read on its own whose actions do not fail: what it returns depends on the cache, on what is packed
and on the file of the object, in this order. An object that was read from its file is put into the
cache, which may never end.

## Main definitions

* `Cas.ContentStore.intact` — what the file of an object has, if it can be read.
* `Cas.ContentStore.found` — what a read finds.
* `Cas.ContentStore.Takes` — the cache can take what a read has found.

## Main results

* `Cas.ContentStore.ensures_read_iff` — what a read returns.
* `Cas.ContentStore.wp_prepare` — opening a store leaves the objects on its disk.
-/

namespace Landropic.Cas

open Proc

namespace ContentStore

variable (store : ContentStore)

/-- What the file of an object has, if it is intact: it has contents, and they have the hash. -/
def intact (fs : Fs) (hash : ContentHash) : Option Bytes :=
  (fs.content (store.objectPath hash)).filter fun data => data ≠ [] ∧ store.blake3 data = hash

/-- What a read finds: in the cache, in the packfiles, or in the file of the object. -/
def found (s : StoreState) (hash : ContentHash) : Option Bytes :=
  match s.cache.chunks.lookup hash with
  | some chunk => some chunk.data
  | none =>
    match store.packed hash with
    | some data => some data
    | none => store.intact s.fs hash

/-- What a read has found in the file of an object can be put into the cache. -/
def Takes (s : StoreState) (hash : ContentHash) (data : Bytes) : Prop :=
  s.cache.chunks.lookup hash = none → store.packed hash = none →
    (s.cache.insert store.config.cacheConfig hash (.new data)).isSome = true

variable {store} {ε α : Type} {hash : ContentHash} {data : Bytes} {s : StoreState}

/-! ## Parts of a read -/

lemma wp_alone_withCache {Q : Except ε α → StoreState → Prop} {f : ChunkCache → α × ChunkCache}
    (hfree : s.cacheStuck = false)
    (h : Q (.ok (f s.cache).1) { s with cache := (f s.cache).2 }) :
    wp (.alone Op noFault) Q (withCache f) s := by
  rintro s' rfl
  exact ⟨fun _ => by simp [hfree], fun _ i _ => ⟨trivial, h⟩⟩

lemma wp_mayBlock_withCache {Q : Except ε α → StoreState → Prop} {f : ChunkCache → α × ChunkCache}
    (h : s.cacheStuck = false → Q (.ok (f s.cache).1) { s with cache := (f s.cache).2 }) :
    wp (.mayBlock Op noFault) Q (withCache f) s := by
  rintro s' rfl
  exact ⟨False.elim, fun hready i _ => ⟨trivial, h (by simpa using hready)⟩⟩

lemma wp_alone_readPacked {Q : Except ε (Option Bytes) → StoreState → Prop}
    (h : Q (.ok (store.packed hash)) s) : wp (.alone Op noFault) Q (store.readPacked hash) s := by
  unfold readPacked
  unfold packed at h
  split
  · next henabled =>
    rw [if_pos henabled] at h
    refine wp_atom ?_
    rintro s' rfl i hi
    cases i with
    | fail => exact absurd rfl hi
    | ok n => exact ⟨trivial, h⟩
  · next hdisabled =>
    rw [if_neg hdisabled] at h
    exact h

lemma wp_alone_cachePut {Q : Except ε Unit → StoreState → Prop} {cache : ChunkCache}
    (hfree : s.cacheStuck = false)
    (hput : s.cache.insert store.config.cacheConfig hash (.new data) = some cache)
    (h : Q (.ok ()) { s with cache := cache }) :
    wp (.alone Op noFault) Q (store.cachePut hash data) s := by
  rintro s' rfl
  refine ⟨fun _ => by simp [hfree], fun _ i _ => ?_⟩
  dsimp only
  rw [hput]
  exact ⟨trivial, h⟩

lemma intact_eq_some {fs : Fs} : store.intact fs hash = some data ↔
    fs.content (store.objectPath hash) = some data ∧ data ≠ [] ∧ store.blake3 data = hash := by
  simp [intact, Option.filter_eq_some_iff]

lemma wp_mayBlock_cachePut {Q : Except ε Unit → StoreState → Prop}
    (h : (s.cache.insert store.config.cacheConfig hash (.new data)).isSome = true →
      ∀ s', Q (.ok ()) s') : wp (.mayBlock Op noFault) Q (store.cachePut hash data) s := by
  rintro _ rfl
  refine ⟨False.elim, fun _ i _ => ⟨trivial, ?_⟩⟩
  dsimp only
  cases hput : s.cache.insert store.config.cacheConfig hash (.new data) with
  | some cache => exact h (by rw [hput]; rfl) _
  | none =>
    -- the eviction does not end, and the lock is never given back
    rintro _ rfl
    exact ⟨False.elim, fun hready => by simp at hready⟩

lemma wp_readIndividual (hash : ContentHash) (s : StoreState) :
    wp (.alone Op noFault) (fun r s' => s' = s ∧ r.toOption = store.intact s.fs hash)
      (store.readIndividual hash) s := by
  refine wp_bind (wp_alone_pathExists ?_)
  cases hread : s.fs.readFile (store.objectPath hash) with
  | error e =>
    have hintact : store.intact s.fs hash = none := by
      rw [Option.eq_none_iff_forall_ne_some]
      intro data hdata
      rw [intact_eq_some, ← Fs.readFile_eq_ok, hread] at hdata
      cases hdata.1
    dsimp only
    rw [hintact]
    split
    · refine wp_bind (wp_mapErr (wp_alone_look ?_))
      rw [hread]
      exact ⟨rfl, rfl⟩
    · exact ⟨rfl, rfl⟩
  | ok data =>
    have hcontent := Fs.readFile_eq_ok.mp hread
    obtain ⟨i, hi, -⟩ := Fs.content_eq_some.mp hcontent
    have hintact : store.intact s.fs hash =
        if data ≠ [] ∧ store.blake3 data = hash then some data else none := by
      simp [intact, hcontent, Option.filter_some]
    rw [hintact]
    dsimp only
    rw [if_pos (Fs.pathExists_of_lookup hi)]
    refine wp_bind (wp_mapErr (wp_alone_look ?_))
    rw [hread]
    show wp _ _ (if data.length = 0 then _ else _) s
    by_cases hempty : data.length = 0
    · rw [if_pos hempty, if_neg fun h => h.1 (List.length_eq_zero_iff.mp hempty)]
      exact ⟨rfl, rfl⟩
    · rw [if_neg hempty]
      refine wp_bind (wp_mapErr (wp_alone_look ?_))
      rw [hread]
      show wp _ _ (if data.length ≠ data.length then _ else _) s
      rw [if_neg (not_not.mpr rfl : ¬ data.length ≠ data.length)]
      by_cases hhash : store.blake3 data = hash
      · rw [if_neg (not_not.mpr hhash), if_pos ⟨fun h => hempty (by simp [h]), hhash⟩]
        exact ⟨rfl, rfl⟩
      · rw [if_pos hhash, if_neg fun h => hhash h.2]
        exact ⟨rfl, rfl⟩

/-! ## Reads -/

/-- **What is found is returned**, if it can be put into the cache. -/
theorem wp_read (hfree : s.cacheStuck = false) (hfound : store.found s hash = some data)
    (htakes : store.Takes s hash data) :
    wp (.alone Op noFault) (fun r _ => r = .ok data) (store.read hash) s := by
  unfold read
  rw [validateContentHash_toHex]
  refine wp_bind (wp_alone_withCache hfree ?_)
  unfold found at hfound
  cases hlookup : s.cache.chunks.lookup hash with
  | some chunk =>
    rw [hlookup] at hfound
    exact congrArg Except.ok (Option.some.inj hfound)
  | none =>
    rw [LruCache.promote_of_lookup_eq_none hlookup]
    rw [hlookup] at hfound
    refine wp_bind (wp_alone_readPacked ?_)
    cases hpacked : store.packed hash with
    | some packed =>
      rw [hpacked] at hfound
      exact congrArg Except.ok (Option.some.inj hfound)
    | none =>
      rw [hpacked] at hfound
      obtain ⟨cache, hput⟩ := Option.isSome_iff_exists.mp (htakes hlookup hpacked)
      refine wp_bind (wp_mono (store.wp_readIndividual hash s) ?_)
      rintro r s₁ ⟨hs₁, hr⟩
      rw [show store.intact s.fs hash = some data from hfound] at hr
      rw [hs₁]
      cases r with
      | error e => cases hr
      | ok data' =>
        obtain rfl := Option.some.inj hr
        exact wp_bind (wp_alone_cachePut hfree hput rfl)

/-- **Only what is found is returned**, and only if it can be put into the cache. -/
theorem wp_read_mayBlock (hash : ContentHash) (s : StoreState) :
    wp (.mayBlock Op noFault) (fun r _ => ∀ data, r = .ok data →
      s.cacheStuck = false ∧ store.found s hash = some data ∧ store.Takes s hash data)
      (store.read hash) s := by
  unfold read
  rw [validateContentHash_toHex]
  refine wp_bind (wp_mayBlock_withCache fun hfree => ?_)
  unfold found Takes
  cases hlookup : s.cache.chunks.lookup hash with
  | some chunk =>
    rintro data ⟨⟩
    exact ⟨hfree, rfl, by rintro ⟨⟩⟩
  | none =>
    rw [LruCache.promote_of_lookup_eq_none hlookup]
    refine wp_bind (wp_mayBlock (wp_alone_readPacked ?_))
    cases hpacked : store.packed hash with
    | some packed =>
      rintro data ⟨⟩
      exact ⟨hfree, rfl, by rintro - ⟨⟩⟩
    | none =>
      refine wp_bind (wp_mono (wp_mayBlock (store.wp_readIndividual hash s)) ?_)
      rintro r s₁ ⟨hs₁, hr⟩
      rw [hs₁]
      cases r with
      | error e => rintro data ⟨⟩
      | ok data =>
        refine wp_bind (wp_mayBlock_cachePut fun hput s₂ => ?_)
        rintro data' ⟨⟩
        exact ⟨hfree, hr.symm, fun _ _ => hput⟩

variable (store hash data s) in
/-- **What a read returns**: it returns data if and only if the data is found, and the cache can
take it. -/
theorem ensures_read_iff : Ensures noFault (fun r _ => r = .ok data) (store.read hash) s ↔
    s.cacheStuck = false ∧ store.found s hash = some data ∧ store.Takes s hash data := by
  constructor
  · rintro ⟨hall, r, s', hrun⟩
    obtain rfl := hall r s' hrun
    exact post_of_returns_mayBlock hrun (store.wp_read_mayBlock hash s) data rfl
  · rintro ⟨hfree, hfound, htakes⟩
    exact ensures_of_wp exists_noFault (wp_read hfree hfound htakes)

/-! ## Opening a store -/

/-- The directories that are created, and the disk after that. -/
def withDirs (store : ContentStore) (fs : Fs) : Fs :=
  (Fs.createDirAll store.objectsDir (Fs.createDirAll store.rootPath fs).2).2

/-- **Opening a store** on a disk in order succeeds, and leaves the objects on it. -/
theorem wp_prepare {good : ContentHash → Bytes → Prop} (order : IterOrder FilePath) {fuel : ℕ}
    (htidy : store.Tidy good s.fs) (hfuel : 2 * (store.withDirs s.fs).nodes.keys.card ≤ fuel) :
    wp (.alone Op noFault) (fun r s' => r = .ok () ∧ ∃ fs', s' = { s with fs := fs' } ∧
        ∀ hash data, s.fs.content (store.objectPath hash) = some data →
          fs'.content (store.objectPath hash) = some data) (store.prepare order fuel) s := by
  have hobjects : ∀ {p}, p <:+ store.objectsDir → p <:+ store.shardDir (store.blake3 []) :=
    fun hp => hp.trans ⟨[_, _], rfl⟩
  have hroot : ∀ {p}, p <:+ store.rootPath → p <:+ store.objectsDir :=
    fun hp => hp.trans (List.suffix_cons _ _)
  have hadds := Fs.addsDirs_createDirAll store.rootPath s.fs
  have hadds' := Fs.addsDirs_createDirAll store.objectsDir (Fs.createDirAll store.rootPath s.fs).2
  refine wp_bind (wp_mapErr (wp_alone_disk fun r fs₁ heq => ?_))
  obtain ⟨hok, -⟩ := Fs.createDirAll_ok fun p hp => htidy.not_file (hobjects (hroot hp))
  rw [heq] at hok hadds hadds'
  obtain rfl := hok
  refine wp_bind (wp_mapErr (wp_alone_disk fun r fs₂ heq' => ?_))
  have hno : ∀ p, p <:+ store.objectsDir → ∀ i, fs₁.nodes.lookup p ≠ some (.file i) :=
    fun p hp i hi => htidy.not_file (hobjects hp) i (hadds.lookup_file.mp hi)
  obtain ⟨hok, -⟩ := Fs.createDirAll_ok hno
  change Fs.createDirAll store.objectsDir fs₁ = _ at heq'
  rw [heq'] at hok hadds'
  obtain rfl := hok
  have hcontent : ∀ q, fs₂.content q = s.fs.content q := fun q =>
    (Fs.content_addsDirs hadds' q).trans (Fs.content_addsDirs hadds q)
  show wp _ _ (if store.config.enableRecovery = true then _ else _) _
  split
  · have hdirs : store.withDirs s.fs = fs₂ := by rw [withDirs, heq, heq']
    rw [hdirs] at hfuel
    refine wp_bind (wp_mono (store.wp_recover order { s with fs := fs₂ } hfuel) ?_)
    rintro _ _ ⟨stats, fs₃, rfl, rfl, hdata, hlookup, -⟩
    exact ⟨rfl, fs₃, rfl, fun hash data h =>
      content_of_recovered hdata hlookup ((hcontent _).trans h)⟩
  · exact ⟨rfl, fs₂, rfl, fun hash data h => (hcontent _).trans h⟩

end ContentStore

end Landropic.Cas
