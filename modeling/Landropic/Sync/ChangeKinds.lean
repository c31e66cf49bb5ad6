import Landropic.Sync.DiffAgreement

set_option autoImplicit false

/-!
# What the changes of a diff are made of

The kinds of the changes, the chunks they require and how they are counted. With the chunks a diff
requires, those in the cache and those of its source the target can be rebuilt. A change of content
that requires no chunk and keeps the size of the file counts as one of the metadata.

## Main definitions

* `DiffStats.count` — the number of changes of a kind.
* `DiffComputer.Sufficient` — a diff says all that is needed to rebuild its target, and its numbers
  are those of its changes.
* `DiffComputer.Recognizable` — a change of content can be told from the sizes and chunks.

## Main results

* `DiffComputer.sufficient_of_computeDiff` — every diff is sufficient.
* `DiffComputer.modifies_all_iff` — when all changes of content count as such.
-/

namespace Landropic

/-- The number of changes of a kind. -/
def DiffStats.count (stats : DiffStats) : ChangeType → ℕ
  | .added => stats.filesAdded
  | .modified => stats.filesModified
  | .deleted => stats.filesDeleted
  | .metadataOnly => stats.filesMetadataOnly

namespace DiffComputer

variable {dc : DiffComputer} {blake3 : Bytes → ContentHash} {overflowChecks : Bool}
  {orders : DiffOrders} {source target : Manifest} {diff : DiffResult}

/-! ## The books of the loops -/

/-- The chunks that some changes require. -/
def chunksOf (changes : List FileChange) : Finset Text :=
  (changes.flatMap FileChange.requiredChunks).toFinset

lemma mem_chunksOf {changes : List FileChange} {hash : Text} :
    hash ∈ chunksOf changes ↔ ∃ c ∈ changes, hash ∈ c.requiredChunks := by
  simp [chunksOf]

lemma chunksOf_concat (changes : List FileChange) (c : FileChange) :
    chunksOf (changes ++ [c]) = chunksOf changes ∪ c.requiredChunks.toFinset := by
  simp [chunksOf, List.toFinset_append]

/-- The chunks and the counters are those of the changes. -/
structure DiffAcc.Balanced (acc : DiffAcc) : Prop where
  requiredChunks : acc.requiredChunks = chunksOf acc.changes
  count : ∀ kind, acc.stats.count kind = acc.changes.countP fun c => c.changeType = kind

/-- One more change is entered into the books. -/
lemma DiffAcc.Balanced.concat {acc acc' : DiffAcc} (h : acc.Balanced) {c : FileChange}
    (hchanges : acc'.changes = acc.changes ++ [c])
    (hchunks : acc'.requiredChunks = acc.requiredChunks ∪ c.requiredChunks.toFinset)
    (hcount : ∀ kind, acc'.stats.count kind =
      acc.stats.count kind + if c.changeType = kind then 1 else 0) : acc'.Balanced where
  requiredChunks := by rw [hchunks, hchanges, chunksOf_concat, h.requiredChunks]
  count kind := by
    rw [hcount, hchanges, List.countP_append, h.count]
    simp [List.countP_cons]

lemma balanced_visitTarget {sourceMap : HashMap Text ManifestEntry} {acc acc' : DiffAcc}
    {file : Text × ManifestEntry}
    (h : dc.visitTarget overflowChecks sourceMap acc file = some acc') (hacc : acc.Balanced) :
    acc'.Balanced := by
  obtain ⟨path, targetEntry⟩ := file
  simp only [visitTarget] at h
  cases hlookup : sourceMap.lookup path with
  | none =>
    simp only [hlookup, Option.bind_eq_bind, Option.bind_eq_some_iff] at h
    obtain ⟨bytes, -, h⟩ := h
    rw [← Option.some.inj h]
    exact hacc.concat rfl rfl fun kind => by cases kind <;> rfl
  | some own =>
    simp only [hlookup] at h
    split_ifs at h with hcontent hmeta
    · rw [← Option.some.inj h]
      exact hacc.concat rfl (by simp) fun kind => by cases kind <;> rfl
    · simp only [Option.bind_eq_bind, Option.bind_eq_some_iff] at h
      obtain ⟨bytes, -, h⟩ := h
      rw [← Option.some.inj h]
      exact hacc.concat rfl rfl fun kind => by cases kind <;> rfl
    · rwa [← Option.some.inj h]

lemma balanced_visitSource {targetMap : HashMap Text ManifestEntry} {acc acc' : DiffAcc}
    {file : Text × ManifestEntry} (h : visitSource overflowChecks targetMap acc file = some acc')
    (hacc : acc.Balanced) : acc'.Balanced := by
  simp only [visitSource] at h
  split_ifs at h with hmem
  · rwa [← Option.some.inj h]
  · simp only [Option.bind_eq_bind, Option.bind_eq_some_iff] at h
    obtain ⟨bytes, -, h⟩ := h
    rw [← Option.some.inj h]
    exact hacc.concat rfl (by simp) fun kind => by cases kind <;> rfl

/-! ## Diffs suffice -/

/-- **A diff suffices to rebuild its target** from its source and the cache, asks for nothing that
is held, and its numbers are those of its changes. -/
structure Sufficient (cache : Finset Text) (source target : Manifest) (diff : DiffResult) :
    Prop where
  /-- Every file of the target has a change, or the source has its content. -/
  finds : ∀ path entry, target.fileMap.lookup path = some entry →
    (∃ c ∈ diff.changes, c.path = path ∧ c.targetEntry = some entry) ∨
      ∃ own, source.fileMap.lookup path = some own ∧ own.contentHash = entry.contentHash
  /-- Every chunk of a file that is there after a change is required or held. -/
  covers : ∀ c ∈ diff.changes, c.changeType ≠ .deleted →
    ∃ entry ∈ target.files, c.targetEntry = some entry ∧ entry.path = c.path ∧
      ∀ hash ∈ entry.chunkHashes, hash ∈ diff.requiredChunks ∨ hash ∈ cache ∨
        ∃ own ∈ source.files, own.path = c.path ∧ hash ∈ own.chunkHashes
  /-- No chunk is required that is in the cache. -/
  notHeld : Disjoint diff.requiredChunks cache
  /-- The chunks are those of the changes. -/
  union : ∀ hash, hash ∈ diff.requiredChunks ↔ ∃ c ∈ diff.changes, hash ∈ c.requiredChunks
  uniqueChunks : diff.stats.uniqueChunks = (chunksOf diff.changes).card
  totalChunks : diff.stats.totalChunks = (diff.changes.map fun c => c.requiredChunks.length).sum
  filesAdded : diff.stats.filesAdded = diff.changes.countP fun c => c.changeType = .added
  filesModified : diff.stats.filesModified = diff.changes.countP fun c => c.changeType = .modified
  filesDeleted : diff.stats.filesDeleted = diff.changes.countP fun c => c.changeType = .deleted
  filesMetadataOnly :
    diff.stats.filesMetadataOnly = diff.changes.countP fun c => c.changeType = .metadataOnly
  totalTransferSize :
    diff.totalTransferSize = (diff.changes.map FileChange.transferSize).sum
  /-- The size of a transfer is that of the chunks of a change. -/
  transferSize : ∀ c ∈ diff.changes, c.transferSize = calculateTransferSize c.requiredChunks

/-- What the loops leave, and what becomes of it. -/
lemma exists_acc (h : dc.computeDiff blake3 overflowChecks orders source target = some diff) :
    ∃ acc : DiffAcc, acc.Balanced ∧ diff.changes.Perm acc.changes ∧
      diff.requiredChunks = acc.requiredChunks ∧
      (∀ kind, diff.stats.count kind = acc.stats.count kind) ∧
      diff.stats.uniqueChunks = acc.requiredChunks.card ∧
      diff.stats.totalChunks = (acc.changes.map fun c => c.requiredChunks.length).sum ∧
      diff.totalTransferSize = (acc.changes.map FileChange.transferSize).sum := by
  simp only [computeDiff, Option.bind_eq_bind, Option.bind_eq_some_iff] at h
  obtain ⟨acc₁, htarget, acc₂, hsource, h⟩ := h
  have hempty : DiffAcc.Balanced ⟨[], ∅, .default⟩ :=
    ⟨rfl, fun kind => by cases kind <;> rfl⟩
  have h₁ := List.foldlM_invariant htarget hempty fun _ _ _ hacc hvisit =>
    balanced_visitTarget hvisit hacc
  have h₂ := List.foldlM_invariant hsource h₁ fun _ _ _ hacc hvisit =>
    balanced_visitSource hvisit hacc
  rw [← Option.some.inj h]
  exact ⟨acc₂, h₂, List.mergeSort_perm _ _, rfl, fun kind => by cases kind <;> rfl, rfl, rfl, rfl⟩

lemma mem_requiredChunks_contentChange (path : Text) (own : ManifestEntry) {entry : ManifestEntry}
    {hash : Text} (hmem : hash ∈ entry.chunkHashes) :
    hash ∈ (dc.contentChange path own entry).requiredChunks ∨ hash ∈ dc.chunkCache ∨
      hash ∈ own.chunkHashes := by
  by_cases hcache : hash ∈ dc.chunkCache
  · exact .inr (.inl hcache)
  by_cases hown : hash ∈ own.chunkHashes
  · exact .inr (.inr hown)
  have hrequired : hash ∈ dc.computeChunkDiff own entry := by
    simp [computeChunkDiff, hmem, hown, hcache]
  unfold contentChange
  split_ifs with hmeta
  · rw [hmeta.1] at hrequired
    cases hrequired
  · exact .inl hrequired

/-- **Every diff is sufficient.** For all manifests and every cache, in all orders in which the hash
maps may be visited, the chunks that a diff requires, those in the cache and those of the source
rebuild the target, and the numbers of the diff are those of its changes.

**Proof sketch.** Each step of the two loops enters at most one change, with its chunks and into the
counter of its kind; the order in which the changes are sorted at the end does not matter to any of
the numbers. The filters drop a chunk only if it is in the cache or in the source entry. -/
theorem sufficient_of_computeDiff
    (h : dc.computeDiff blake3 overflowChecks orders source target = some diff) :
    Sufficient dc.chunkCache source target diff := by
  obtain ⟨acc, hacc, hperm, hchunks, hcount, hunique, htotal, hsize⟩ := exists_acc h
  have hsame : chunksOf diff.changes = chunksOf acc.changes := by
    ext hash
    simp only [mem_chunksOf, hperm.mem_iff]
  have hunion : diff.requiredChunks = chunksOf diff.changes := by
    rw [hchunks, hacc.requiredChunks, hsame]
  have hkind : ∀ kind, diff.stats.count kind =
      diff.changes.countP fun c => c.changeType = kind := by
    intro kind
    rw [hcount, hacc.count, hperm.countP_eq]
  refine
    { finds := fun path entry hlookup => ?_
      covers := fun c hc hkept => ?_
      notHeld := ?_
      union := fun hash => by rw [hunion, mem_chunksOf]
      uniqueChunks := by rw [hunique, ← hchunks, hunion]
      totalChunks := by rw [htotal, (hperm.map _).sum_eq]
      filesAdded := hkind .added
      filesModified := hkind .modified
      filesDeleted := hkind .deleted
      filesMetadataOnly := hkind .metadataOnly
      totalTransferSize := by rw [hsize, (hperm.map _).sum_eq]
      transferSize := fun c hc => ?_ }
  · by_cases hnew : path ∈ source.fileMap
    · obtain ⟨own, hown⟩ := Finmap.mem_iff.mp hnew
      by_cases hcontent : own.contentHash = entry.contentHash
      · exact .inr ⟨own, hown, hcontent⟩
      · exact .inl ⟨_, (mem_changes h).mpr (.inr (.inl ⟨path, own, entry, hlookup, hown, hcontent,
          rfl⟩)), path_contentChange .., targetEntry_contentChange ..⟩
    · exact .inl ⟨_, (mem_changes h).mpr (.inl ⟨path, entry, hlookup, hnew, rfl⟩), rfl, rfl⟩
  · have hmem : ∀ hash ∈ c.requiredChunks, hash ∈ diff.requiredChunks := by
      intro hash hhash
      rw [hunion, mem_chunksOf]
      exact ⟨c, hc, hhash⟩
    rcases (mem_changes h).mp hc with ⟨path, e, hlookup, -, rfl⟩ |
      ⟨path, own, e, hlookup, hown, -, rfl⟩ | ⟨path, own, -, -, rfl⟩
    · obtain ⟨hfile, hpath⟩ := Manifest.path_of_lookup_fileMap hlookup
      refine ⟨e, hfile, rfl, hpath, fun hash hhash => ?_⟩
      by_cases hcache : hash ∈ dc.chunkCache
      · exact .inr (.inl hcache)
      · exact .inl (hmem hash (by simp [addedChange, findRequiredChunks, hhash, hcache]))
    · obtain ⟨hfile, hpath⟩ := Manifest.path_of_lookup_fileMap hlookup
      obtain ⟨hfile', hpath'⟩ := Manifest.path_of_lookup_fileMap hown
      refine ⟨e, hfile, targetEntry_contentChange .., by rw [path_contentChange, hpath],
        fun hash hhash => ?_⟩
      rcases mem_requiredChunks_contentChange path own hhash with hin | hcache | hin
      · exact .inl (hmem hash hin)
      · exact .inr (.inl hcache)
      · exact .inr (.inr ⟨own, hfile', by rw [path_contentChange, hpath'], hin⟩)
    · exact absurd rfl hkept
  · rw [Finset.disjoint_left]
    intro hash hrequired
    exact ((mem_requiredChunks h).mp hrequired).1
  · rcases (mem_changes h).mp hc with ⟨path, e, -, -, rfl⟩ | ⟨path, own, e, -, -, -, rfl⟩ |
      ⟨path, own, -, -, rfl⟩
    · rfl
    · unfold contentChange
      split_ifs
      · exact (Nat.zero_mul _).symm
      · rfl
    · exact (Nat.zero_mul _).symm

/-! ## Changes of content -/

/-- The changes have one that modifies the file with a path. -/
def Modifies (changes : List FileChange) (path : Text) : Prop :=
  ∃ c ∈ changes, c.changeType = .modified ∧ c.path = path

/-- A file has different content in two manifests, as their maps have it. -/
structure ContentDiffers (source target : Manifest) (path : Text) (own entry : ManifestEntry) :
    Prop where
  source : source.fileMap.lookup path = some own
  target : target.fileMap.lookup path = some entry
  content : own.contentHash ≠ entry.contentHash

/-- A change of content can be told from the sizes, or from a chunk that is neither in the old
version nor in the cache. -/
def Recognizable (cache : Finset Text) (own entry : ManifestEntry) : Prop :=
  own.size ≠ entry.size ∨ ∃ hash ∈ entry.chunkHashes, hash ∉ own.chunkHashes ∧ hash ∉ cache

lemma changeType_contentChange_eq_modified_iff (path : Text) {own entry : ManifestEntry} :
    (dc.contentChange path own entry).changeType = .modified ↔
      Recognizable dc.chunkCache own entry := by
  have hchunks : dc.computeChunkDiff own entry = [] ↔
      ¬ ∃ hash ∈ entry.chunkHashes, hash ∉ own.chunkHashes ∧ hash ∉ dc.chunkCache := by
    simp [computeChunkDiff, List.filter_eq_nil_iff]
  unfold contentChange Recognizable
  split_ifs with hmeta
  · refine iff_of_false (by simp) ?_
    rintro (hsize | hchunk)
    · exact hsize hmeta.2
    · exact hchunks.mp hmeta.1 hchunk
  · refine iff_of_true rfl ?_
    rw [hchunks, not_and_or, not_not] at hmeta
    exact hmeta.symm

/-- **A change of content counts as such if it is recognizable**, and else as one of the
metadata. -/
theorem modifies_iff (h : dc.computeDiff blake3 overflowChecks orders source target = some diff)
    {path : Text} {own entry : ManifestEntry}
    (hdiffers : ContentDiffers source target path own entry) :
    Modifies diff.changes path ↔ Recognizable dc.chunkCache own entry := by
  have hchange : dc.contentChange path own entry ∈ diff.changes :=
    (mem_changes h).mpr
      (.inr (.inl ⟨path, own, entry, hdiffers.target, hdiffers.source, hdiffers.content, rfl⟩))
  rw [← changeType_contentChange_eq_modified_iff path]
  constructor
  · rintro ⟨c, hc, htype, hpath⟩
    -- a path occurs in one change only
    obtain rfl : c = dc.contentChange path own entry :=
      List.inj_on_of_nodup_map (nodup_changes h) hc hchange
        (hpath.trans (path_contentChange path own entry).symm)
    exact htype
  · intro htype
    exact ⟨_, hchange, htype, path_contentChange path own entry⟩

/-- **All changes of content count as such exactly if all of them are recognizable.** A file that
keeps its size and whose new chunks are all in its old version or in the cache counts as changed in
its metadata only.

**Proof sketch.** A file whose content differs has one change, whose kind is inferred from the
chunks it requires and from the sizes. -/
theorem modifies_all_iff
    (h : dc.computeDiff blake3 overflowChecks orders source target = some diff) :
    (∀ path own entry, ContentDiffers source target path own entry →
      Modifies diff.changes path) ↔
    ∀ path own entry, ContentDiffers source target path own entry →
      Recognizable dc.chunkCache own entry :=
  forall_congr' fun _ => forall_congr' fun _ => forall_congr' fun _ =>
    forall_congr' fun hdiffers => modifies_iff h hdiffers

section Examples

/-- A folder with one version of the file `a`. -/
private def folderWith (contentHash : Text) (chunkHashes : List Text) : Manifest :=
  { folderId := "folder".toList
    version := 1
    files := [⟨"a".toList, 1024, ⟨0, 0⟩, contentHash, chunkHashes, none⟩]
    createdAt := ⟨0, 0⟩
    manifestHash := none }

private lemma lookup_folderWith {contentHash path : Text} {chunkHashes : List Text}
    {e : ManifestEntry} (h : (folderWith contentHash chunkHashes).fileMap.lookup path = some e) :
    path = "a".toList ∧ e = ⟨"a".toList, 1024, ⟨0, 0⟩, contentHash, chunkHashes, none⟩ := by
  obtain ⟨hmem, rfl⟩ := Manifest.path_of_lookup_fileMap h
  obtain rfl := List.mem_singleton.mp hmem
  exact ⟨rfl, rfl⟩

private lemma contentDiffers_folderWith {contentHash contentHash' : Text}
    {chunkHashes chunkHashes' : List Text} (hne : contentHash ≠ contentHash') :
    ContentDiffers (folderWith contentHash chunkHashes) (folderWith contentHash' chunkHashes')
      "a".toList ⟨"a".toList, 1024, ⟨0, 0⟩, contentHash, chunkHashes, none⟩
      ⟨"a".toList, 1024, ⟨0, 0⟩, contentHash', chunkHashes', none⟩ :=
  ⟨Finmap.lookup_insert ∅, Finmap.lookup_insert ∅, hne⟩

/-- A file with a new chunk. -/
theorem sufficient_newChunk : ∃ diff,
    (DiffComputer.new ∅).computeDiff .blake3Sample false ⟨.sorted _, .sorted _, .sorted _⟩
      (folderWith "01".toList ["aa".toList]) (folderWith "02".toList ["aa".toList, "bb".toList]) =
        some diff ∧
    Sufficient ∅ (folderWith "01".toList ["aa".toList])
      (folderWith "02".toList ["aa".toList, "bb".toList]) diff := by
  obtain ⟨diff, h⟩ := exists_computeDiff (.new ∅) .blake3Sample
    ⟨.sorted _, .sorted _, .sorted _⟩ (folderWith "01".toList ["aa".toList])
    (folderWith "02".toList ["aa".toList, "bb".toList])
  exact ⟨diff, h, sufficient_of_computeDiff h⟩

/-- A file with a new chunk counts as modified. -/
theorem modifies_all_newChunk : ∃ diff,
    (DiffComputer.new ∅).computeDiff .blake3Sample false ⟨.sorted _, .sorted _, .sorted _⟩
      (folderWith "01".toList ["aa".toList]) (folderWith "02".toList ["aa".toList, "bb".toList]) =
        some diff ∧ Modifies diff.changes "a".toList := by
  obtain ⟨diff, h⟩ := exists_computeDiff (.new ∅) .blake3Sample
    ⟨.sorted _, .sorted _, .sorted _⟩ (folderWith "01".toList ["aa".toList])
    (folderWith "02".toList ["aa".toList, "bb".toList])
  refine ⟨diff, h, (modifies_all_iff h).mpr ?_ _ _ _ (contentDiffers_folderWith (by decide))⟩
  intro path own entry hdiffers
  obtain ⟨-, rfl⟩ := lookup_folderWith hdiffers.source
  obtain ⟨-, rfl⟩ := lookup_folderWith hdiffers.target
  exact .inr ⟨"bb".toList, by decide, by decide, by decide⟩

/-- **A file whose chunks change places counts as changed in its metadata only.** -/
theorem not_forall_modifies :
    ¬ ∀ (dc : DiffComputer) (blake3 : Bytes → ContentHash) (overflowChecks : Bool)
      (orders : DiffOrders) (source target : Manifest) (diff : DiffResult),
      dc.computeDiff blake3 overflowChecks orders source target = some diff →
      ∀ path own entry, ContentDiffers source target path own entry →
        Modifies diff.changes path := by
  intro hall
  obtain ⟨diff, h⟩ := exists_computeDiff (.new ∅) .blake3Sample
    ⟨.sorted _, .sorted _, .sorted _⟩ (folderWith "01".toList ["aa".toList, "bb".toList])
    (folderWith "02".toList ["bb".toList, "aa".toList])
  have hdiffers : ContentDiffers (folderWith "01".toList ["aa".toList, "bb".toList])
      (folderWith "02".toList ["bb".toList, "aa".toList]) _ _ _ :=
    contentDiffers_folderWith (by decide)
  rcases (modifies_iff h hdiffers).mp (hall _ _ _ _ _ _ _ h _ _ _ hdiffers) with
    hsize | ⟨hash, hmem, hown, -⟩
  · exact hsize rfl
  · revert hash
    decide

end Examples

end DiffComputer

end Landropic
