import Landropic.Index.Identity
import Landropic.Sync.Diff

set_option autoImplicit false

/-!
# Proofs that differ from run to run

The proof that comes with the diff of large manifests has the hash of each top-level folder of the
target. The folders are visited in the order of a hash map, and the files of a folder in the order
in which the manifest lists them. So the same files can give different proofs.

## Main definitions

* `DiffComputer.Reproducible` — all diffs of the same files have the same proof.
* `DiffComputer.OneFolder` — the folders cannot be told apart by what is hashed of them.
* `DiffComputer.Stable` — no order matters to the proof.

## Main results

* `DiffComputer.reproducible_iff` — when proofs are reproducible.
-/

namespace Landropic

namespace DiffComputer

/-- What is hashed of a folder. -/
def folderBytes (files : List ManifestEntry) : Bytes :=
  files.flatMap fun f => f.path.utf8 ++ leBytes 8 f.size.toNat ++ f.contentHash.utf8

/-- The files of a top-level folder. -/
def folder (m : Manifest) (key : Text) : List ManifestEntry :=
  m.files.filter fun f => subtreeKey f.path = key

/-- The top-level folders of a manifest. -/
def folderKeys (m : Manifest) : Finset Text :=
  (m.files.map fun f => subtreeKey f.path).toFinset

/-- A manifest has the same files as another one, in another order. -/
def Reordered (m m' : Manifest) : Prop := m'.files.Perm m.files

/-- **Proofs are reproducible**: the diffs of two manifests, and of manifests with the same files in
another order, have the same proof, in all orders in which the hash maps may be visited. -/
def Reproducible (dc : DiffComputer) (blake3 : Bytes → ContentHash) (source target : Manifest) :
    Prop :=
  ∀ (overflowChecks overflowChecks' : Bool) (orders orders' : DiffOrders)
    (source' target' : Manifest) (diff diff' : DiffResult),
    Reordered source source' → Reordered target target' →
    dc.computeDiff blake3 overflowChecks orders source target = some diff →
    dc.computeDiff blake3 overflowChecks' orders' source' target' = some diff' →
    diff.merkleProof = diff'.merkleProof

/-- What may be hashed of the folders of a manifest. -/
def FolderBytes (m : Manifest) : Set Bytes :=
  {bytes | ∃ key ∈ folderKeys m, ∃ files : List ManifestEntry,
    files.Perm (folder m key) ∧ folderBytes files = bytes}

/-- **The folders cannot be told apart by what is hashed of them**, in whatever order their files
are listed. A manifest with one file has one folder, with one order of its files. -/
def OneFolder (m : Manifest) : Prop := (FolderBytes m).Subsingleton

/-- **No order matters to the proof**: the hashes of the manifests are the same in every order of
the files, so that there is no proof; or they always differ, the order of the files does not matter
to the hash of the target, and its folders cannot be told apart. -/
def Stable (blake3 : Bytes → ContentHash) (source target : Manifest) : Prop :=
  (∀ source' target', Reordered source source' → Reordered target target' →
    source'.calculateHash blake3 = target'.calculateHash blake3) ∨
  ((∀ source' target', Reordered source source' → Reordered target target' →
    source'.calculateHash blake3 ≠ target'.calculateHash blake3) ∧
  (∀ target', Reordered target target' →
    target'.calculateHash blake3 = target.calculateHash blake3) ∧ OneFolder target)

section Proofs

variable {dc : DiffComputer} {blake3 : Bytes → ContentHash} {overflowChecks : Bool}
  {orders : DiffOrders} {order : IterOrder Text} {source target m m' : Manifest}
  {diff : DiffResult}

lemma Reordered.refl (m : Manifest) : Reordered m m := List.Perm.refl _

lemma Reordered.folderKeys_eq (h : Reordered m m') : folderKeys m' = folderKeys m := by
  ext key
  simp only [folderKeys, List.mem_toFinset]
  exact (h.map _).mem_iff

lemma Reordered.folder_perm (h : Reordered m m') (key : Text) :
    (folder m' key).Perm (folder m key) := h.filter _

lemma computeSubtreeHashes_eq : computeSubtreeHashes blake3 order m =
    (order.iter (folderKeys m)).map fun key => (blake3 (folderBytes (folder m key))).asBytes := rfl

/-- The proof of a diff is computed from the two manifests. -/
lemma merkleProof_of_computeDiff
    (h : dc.computeDiff blake3 overflowChecks orders source target = some diff) :
    diff.merkleProof =
      if dc.enableMerkleProofs then dc.computeMerkleProof blake3 orders.subtrees source target
      else none := by
  simp only [computeDiff, Option.bind_eq_bind, Option.bind_eq_some_iff] at h
  obtain ⟨_, -, _, -, h⟩ := h
  rw [← Option.some.inj h]
  rfl

/-- The proof of large manifests. -/
lemma computeMerkleProof_of_large
    (hlarge : 100 ≤ source.files.length ∨ 100 ≤ target.files.length) :
    dc.computeMerkleProof blake3 order source target =
      if source.calculateHash blake3 = target.calculateHash blake3 then none
      else some ⟨(target.calculateHash blake3).asBytes, computeSubtreeHashes blake3 order target,
        dc.calculateTreeDepth target.files.length⟩ := by
  have hsmall : ¬ (source.files.length < 100 ∧ target.files.length < 100) := by omega
  rw [computeMerkleProof, if_neg hsmall]

lemma Reordered.large {source' target' : Manifest} (hsource : Reordered source source')
    (htarget : Reordered target target')
    (hlarge : 100 ≤ source.files.length ∨ 100 ≤ target.files.length) :
    100 ≤ source'.files.length ∨ 100 ≤ target'.files.length := by
  rwa [hsource.length_eq, htarget.length_eq]

/-- Reproducible proofs, as they are computed. -/
lemma reproducible_iff_computeMerkleProof (chunkCache : Finset Text) :
    Reproducible (.new chunkCache) blake3 source target ↔
      ∀ order order' source' target', Reordered source source' → Reordered target target' →
        (DiffComputer.new chunkCache).computeMerkleProof blake3 order source target =
          (DiffComputer.new chunkCache).computeMerkleProof blake3 order' source' target' := by
  constructor
  · intro h order order' source' target' hsource htarget
    obtain ⟨diff, hdiff⟩ := exists_computeDiff (.new chunkCache) blake3 ⟨order, order, order⟩
      source target
    obtain ⟨diff', hdiff'⟩ := exists_computeDiff (.new chunkCache) blake3 ⟨order', order', order'⟩
      source' target'
    have hsame := h _ _ _ _ _ _ _ _ hsource htarget hdiff hdiff'
    rwa [merkleProof_of_computeDiff hdiff, merkleProof_of_computeDiff hdiff'] at hsame
  · intro h _ _ orders orders' source' target' diff diff' hsource htarget hdiff hdiff'
    rw [merkleProof_of_computeDiff hdiff, merkleProof_of_computeDiff hdiff',
      h orders.subtrees orders'.subtrees source' target' hsource htarget]

lemma exists_reordered {key : Text} {files : List ManifestEntry}
    (hfiles : files.Perm (folder m key)) :
    ∃ m', Reordered m m' ∧ folder m' key = files := by
  refine ⟨{ m with files := files ++ m.files.filter fun f => ¬ subtreeKey f.path = key }, ?_, ?_⟩
  · refine (hfiles.append_right _).trans ?_
    simpa [folder] using List.filter_append_perm (fun f => decide (subtreeKey f.path = key)) m.files
  · have hall : ∀ f ∈ files, decide (subtreeKey f.path = key) = true := by
      intro f hf
      exact (List.mem_filter.mp (hfiles.subset hf)).2
    simp only [folder, List.filter_append, List.filter_filter]
    rw [List.filter_eq_self.mpr hall, List.filter_eq_nil_iff.mpr (by simp), List.append_nil]

lemma exists_computeSubtreeHashes_eq_cons (blake3 : Bytes → ContentHash) {key : Text}
    (hkey : key ∈ folderKeys m) :
    ∃ order : IterOrder Text, ∃ rest, computeSubtreeHashes blake3 order m =
      (blake3 (folderBytes (folder m key))).asBytes :: rest := by
  obtain ⟨order, horder⟩ := IterOrder.exists_iter_cons key
  obtain ⟨rest, hrest⟩ := horder _ hkey
  refine ⟨order, rest.map fun key => (blake3 (folderBytes (folder m key))).asBytes, ?_⟩
  rw [computeSubtreeHashes_eq, hrest, List.map_cons]

/-- **All folders of a target with a reproducible proof have the same hash**, in every order of
their files.

**Proof sketch.** Whatever folder is visited first, and in whatever order its files are listed, the
proof begins with the same hash. -/
lemma hash_eq_of_reproducible {chunkCache : Finset Text}
    (hlarge : 100 ≤ source.files.length ∨ 100 ≤ target.files.length)
    (h : Reproducible (.new chunkCache) blake3 source target)
    (hne : source.calculateHash blake3 ≠ target.calculateHash blake3) {x y : Bytes}
    (hx : x ∈ FolderBytes target) (hy : y ∈ FolderBytes target) : blake3 x = blake3 y := by
  rw [reproducible_iff_computeMerkleProof] at h
  have hfirst : ∀ order, ∀ z ∈ FolderBytes target, ∃ rest,
      computeSubtreeHashes blake3 order target = (blake3 z).asBytes :: rest := by
    rintro order z ⟨key, hkey, files, hfiles, rfl⟩
    obtain ⟨target', htarget, rfl⟩ := exists_reordered hfiles
    obtain ⟨order', rest, hrest⟩ :=
      exists_computeSubtreeHashes_eq_cons blake3 (htarget.folderKeys_eq ▸ hkey)
    have hsame := h order order' source target' (.refl source) htarget
    rw [computeMerkleProof_of_large hlarge, if_neg hne,
      computeMerkleProof_of_large ((Reordered.refl source).large htarget hlarge)] at hsame
    split_ifs at hsame
    rw [Option.some.injEq, MerkleProof.mk.injEq] at hsame
    exact ⟨rest, hsame.2.1.trans hrest⟩
  obtain ⟨rest, hrest⟩ := hfirst (.sorted Text) x hx
  obtain ⟨rest', hrest'⟩ := hfirst (.sorted Text) y hy
  rw [hrest] at hrest'
  exact ContentHash.ext (List.cons.inj hrest').1

/-- **Proofs are reproducible only if no order matters**, if the hash function has no collisions
among the folders. -/
lemma stable_of_reproducible {chunkCache : Finset Text}
    (hcoll : Set.InjOn blake3 (FolderBytes target))
    (hlarge : 100 ≤ source.files.length ∨ 100 ≤ target.files.length)
    (h : Reproducible (.new chunkCache) blake3 source target) : Stable blake3 source target := by
  have hproof := (reproducible_iff_computeMerkleProof chunkCache).mp h (.sorted Text) (.sorted Text)
  by_cases heq : source.calculateHash blake3 = target.calculateHash blake3
  · left
    intro source' target' hsource htarget
    have hsame := hproof source' target' hsource htarget
    rw [computeMerkleProof_of_large hlarge, if_pos heq,
      computeMerkleProof_of_large (hsource.large htarget hlarge)] at hsame
    by_contra hne
    rw [if_neg hne] at hsame
    cases hsame
  · right
    have hsome : ∀ source' target', Reordered source source' → Reordered target target' →
        source'.calculateHash blake3 ≠ target'.calculateHash blake3 ∧
          target'.calculateHash blake3 = target.calculateHash blake3 := by
      intro source' target' hsource htarget
      have hsame := hproof source' target' hsource htarget
      rw [computeMerkleProof_of_large hlarge, if_neg heq,
        computeMerkleProof_of_large (hsource.large htarget hlarge)] at hsame
      split_ifs at hsame with hne
      rw [Option.some.injEq, MerkleProof.mk.injEq] at hsame
      exact ⟨hne, ContentHash.ext hsame.1.symm⟩
    refine ⟨fun source' target' hsource htarget => (hsome source' target' hsource htarget).1,
      fun target' htarget => (hsome source target' (.refl source) htarget).2, ?_⟩
    intro x hx y hy
    exact hcoll hx hy (hash_eq_of_reproducible hlarge h heq hx hy)

lemma OneFolder.computeSubtreeHashes_eq (h : OneFolder target) {target' : Manifest}
    (htarget : Reordered target target') (order order' : IterOrder Text) :
    computeSubtreeHashes blake3 order target = computeSubtreeHashes blake3 order' target' := by
  have hmem : ∀ key ∈ folderKeys target, folderBytes (folder target' key) ∈ FolderBytes target :=
    fun key hkey => ⟨key, hkey, _, htarget.folder_perm key, rfl⟩
  have hmem' : ∀ key ∈ folderKeys target, folderBytes (folder target key) ∈ FolderBytes target :=
    fun key hkey => ⟨key, hkey, _, .refl _, rfl⟩
  rcases (folderKeys target).eq_empty_or_nonempty with hempty | ⟨first, hfirst⟩
  · have hnone : ∀ order : IterOrder Text, order.iter ∅ = [] := by
      intro order
      exact List.eq_nil_iff_forall_not_mem.mpr fun key hkey => by simpa using order.mem_iter.mp hkey
    rw [DiffComputer.computeSubtreeHashes_eq, DiffComputer.computeSubtreeHashes_eq,
      htarget.folderKeys_eq, hempty, hnone, hnone]
    rfl
  · -- both lists repeat the hash of the first folder
    have hall : ∀ (order : IterOrder Text) (m : Manifest),
        folderKeys m = folderKeys target →
        (∀ key ∈ folderKeys target, folderBytes (folder m key) ∈ FolderBytes target) →
        computeSubtreeHashes blake3 order m = List.replicate (folderKeys target).card
          (blake3 (folderBytes (folder target first))).asBytes := by
      intro order m hkeys hm
      rw [DiffComputer.computeSubtreeHashes_eq, hkeys, List.eq_replicate_iff, List.length_map,
        order.length_iter]
      refine ⟨rfl, fun hash hhash => ?_⟩
      obtain ⟨key, hkey, rfl⟩ := List.mem_map.mp hhash
      rw [h (hm key (order.mem_iter.mp hkey)) (hmem' first hfirst)]
    rw [hall order target rfl hmem', hall order' target' htarget.folderKeys_eq hmem]

lemma reproducible_of_stable (chunkCache : Finset Text)
    (hlarge : 100 ≤ source.files.length ∨ 100 ≤ target.files.length)
    (h : Stable blake3 source target) : Reproducible (.new chunkCache) blake3 source target := by
  rw [reproducible_iff_computeMerkleProof]
  intro order order' source' target' hsource htarget
  rw [computeMerkleProof_of_large hlarge,
    computeMerkleProof_of_large (hsource.large htarget hlarge)]
  rcases h with heq | ⟨hne, hroot, hfolder⟩
  · rw [if_pos (heq source target (.refl source) (.refl target)),
      if_pos (heq source' target' hsource htarget)]
  · rw [if_neg (hne source target (.refl source) (.refl target)),
      if_neg (hne source' target' hsource htarget), hroot target' htarget,
      hfolder.computeSubtreeHashes_eq htarget order order', htarget.length_eq]

/-- **When proofs are reproducible**: exactly if no order matters, for manifests that are large
enough for a proof, and a hash function without collisions among the folders of the target.

**Proof sketch.** The list of hashes begins with that of the folder that is visited first, in the
order in which its files are listed, and any folder may be the first and its files in any order. So
all of these must have the same hash. -/
theorem reproducible_iff (chunkCache : Finset Text)
    (hcoll : Set.InjOn blake3 (FolderBytes target))
    (hlarge : 100 ≤ source.files.length ∨ 100 ≤ target.files.length) :
    Reproducible (.new chunkCache) blake3 source target ↔ Stable blake3 source target :=
  ⟨stable_of_reproducible hcoll hlarge, reproducible_of_stable chunkCache hlarge⟩

end Proofs

section Examples

/-- A folder with some files. -/
private def folderOf (files : List ManifestEntry) : Manifest :=
  { folderId := "folder".toList
    version := 1
    files := files
    createdAt := ⟨0, 0⟩
    manifestHash := none }

/-- A file at the top of a folder. -/
private def fileAt (path : Text) : ManifestEntry := ⟨path, 1, ⟨0, 0⟩, "01".toList, [], none⟩

/-- A hundred files at the top of a folder. -/
private def hundredFiles : Manifest :=
  folderOf ((List.range 100).map fun i =>
    fileAt [Char.ofNat (48 + i / 10), Char.ofNat (48 + i % 10)])

private lemma pairwise_hundredFiles :
    (hundredFiles.files.map ManifestEntry.path).Pairwise (· < ·) :=
  List.isChain_iff_pairwise.mp (by decide +kernel)

private lemma take_calculateHash_hundredFiles :
    (hundredFiles.calculateHash ContentHash.blake3).asBytes.take 4 = [241, 227, 60, 130] := by
  have hsorted : hundredFiles.sortedFiles = hundredFiles.files :=
    List.mergeSort_of_pairwise ((List.pairwise_map.mp pairwise_hundredFiles).imp
      fun hlt => decide_eq_true hlt.le)
  rw [Manifest.calculateHash, hsorted]
  decide +kernel

/-- A file, or two. -/
private def oneOrTwo (two : Bool) : Manifest :=
  folderOf (fileAt "a".toList :: if two then [fileAt "b".toList] else [])

private lemma calculateHash_ne (two : Bool) :
    hundredFiles.calculateHash ContentHash.blake3 ≠
      (oneOrTwo two).calculateHash ContentHash.blake3 := by
  intro heq
  have hbytes := take_calculateHash_hundredFiles
  have hsorted : (oneOrTwo two).sortedFiles = (oneOrTwo two).files :=
    List.mergeSort_of_pairwise (by cases two <;> decide)
  rw [heq, Manifest.calculateHash, hsorted] at hbytes
  revert hbytes
  cases two <;> decide +kernel

private lemma folderBytes_oneOrTwo {two : Bool} {bytes : Bytes}
    (h : bytes ∈ FolderBytes (oneOrTwo two)) :
    bytes = folderBytes [fileAt "a".toList] ∨
      two = true ∧ bytes = folderBytes [fileAt "b".toList] := by
  obtain ⟨key, hkey, files, hfiles, rfl⟩ := h
  cases two with
  | false =>
    obtain rfl : key = "a".toList := List.mem_singleton.mp (List.mem_toFinset.mp hkey)
    exact .inl (congrArg _ (List.perm_singleton.mp hfiles))
  | true =>
    obtain rfl | rfl : key = "a".toList ∨ key = "b".toList :=
      List.mem_pair.mp (List.mem_toFinset.mp hkey)
    · exact .inl (congrArg _ (List.perm_singleton.mp hfiles))
    · exact .inr ⟨rfl, congrArg _ (List.perm_singleton.mp hfiles)⟩

private lemma injOn_oneOrTwo (two : Bool) :
    Set.InjOn ContentHash.blake3 (FolderBytes (oneOrTwo two)) := by
  have hne : ContentHash.blake3 (folderBytes [fileAt "a".toList]) ≠
      ContentHash.blake3 (folderBytes [fileAt "b".toList]) := by decide +kernel
  intro x hx y hy heq
  rcases folderBytes_oneOrTwo hx with rfl | ⟨-, rfl⟩ <;>
    rcases folderBytes_oneOrTwo hy with rfl | ⟨-, rfl⟩
  · rfl
  · exact absurd heq hne
  · exact absurd heq hne.symm
  · rfl

/-- Next to a hundred files the proof of one file is reproducible, and that of two is not. -/
theorem reproducible_oneOrTwo :
    Reproducible (.new ∅) ContentHash.blake3 hundredFiles (oneOrTwo false) ∧
      ¬ Reproducible (.new ∅) ContentHash.blake3 hundredFiles (oneOrTwo true) := by
  have hlarge (two : Bool) :
      100 ≤ hundredFiles.files.length ∨ 100 ≤ (oneOrTwo two).files.length :=
    .inl (by simp [hundredFiles, folderOf])
  have hreordered {m m' : Manifest} (hnodup : (m.files.map ManifestEntry.path).Nodup)
      (h : Reordered m m') :
      m'.calculateHash ContentHash.blake3 = m.calculateHash ContentHash.blake3 :=
    Manifest.calculateHash_eq_of_sortedFiles (Manifest.sortedFiles_eq_of_perm hnodup h)
  constructor
  · refine (reproducible_iff ∅ (injOn_oneOrTwo false) (hlarge false)).mpr
      (.inr ⟨fun source' target' hsource htarget => ?_, fun target' => hreordered (by decide), ?_⟩)
    · rw [hreordered (pairwise_hundredFiles.imp ne_of_lt) hsource, hreordered (by decide) htarget]
      exact calculateHash_ne false
    · intro x hx y hy
      obtain rfl : x = _ := (folderBytes_oneOrTwo hx).resolve_right fun h => by cases h.1
      exact ((folderBytes_oneOrTwo hy).resolve_right fun h => by cases h.1).symm
  · intro h
    rcases (reproducible_iff ∅ (injOn_oneOrTwo true) (hlarge true)).mp h with heq | ⟨-, -, hone⟩
    · exact calculateHash_ne true (heq _ _ (.refl _) (.refl _))
    · have hsame : folderBytes [fileAt "a".toList] = folderBytes [fileAt "b".toList] :=
        hone ⟨"a".toList, by decide, _, .refl _, rfl⟩ ⟨"b".toList, by decide, _, .refl _, rfl⟩
      revert hsame
      decide +kernel

/-- **The proof of a hundred files depends on the order in which a hash map visits them.** -/
theorem not_reproducible_hundredFiles :
    ¬ Reproducible (.new ∅) ContentHash.blake3 (folderOf []) hundredFiles := by
  intro hall
  have hlarge : 100 ≤ (folderOf []).files.length ∨ 100 ≤ hundredFiles.files.length :=
    .inr (by simp [hundredFiles, folderOf])
  have hne : (folderOf []).calculateHash ContentHash.blake3 ≠
      hundredFiles.calculateHash ContentHash.blake3 := by
    intro heq
    have hbytes := take_calculateHash_hundredFiles
    rw [← heq, Manifest.calculateHash, Manifest.sortedFiles, folderOf, List.mergeSort_nil] at hbytes
    revert hbytes
    decide +kernel
  have hbytes : ∀ key ∈ folderKeys hundredFiles,
      folderBytes (folder hundredFiles key) ∈ FolderBytes hundredFiles :=
    fun key hkey => ⟨key, hkey, _, .refl _, rfl⟩
  have heq := hash_eq_of_reproducible hlarge hall hne
    (hbytes "00".toList (by decide +kernel)) (hbytes "01".toList (by decide +kernel))
  revert heq
  decide +kernel

end Examples

end DiffComputer

end Landropic
