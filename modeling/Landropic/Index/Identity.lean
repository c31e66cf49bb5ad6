import Landropic.Foundations.MerkleTree
import Landropic.Index.Manifest

set_option autoImplicit false

/-!
# What the hash of a manifest identifies

The hash of a manifest is the root of a merkle tree whose leaves are its entries. It identifies the
entries as far as the bytes of a leaf do, and as far as no leaf can be taken for a tree: the fields
of an entry are written one after the other without marks between them, an absent mode is written as
zero and a hash that is not hexadecimal as zeros, and leaves are hashed like inner nodes.

## Main definitions

* `ManifestEntry.leafBytes` — the bytes of a leaf.
* `Manifest.Hashed` — the byte strings that are hashed for a manifest.
* `Manifest.Over` — the manifests over a set of entries, with distinct paths.
* `Manifest.NoTree` — no leaf is taken for a tree.

## Main results

* `Manifest.root_calculateHash` — the hash is the root of the tree.
* `Manifest.leafBytes_iff_of_calculateHash_eq` — manifests with the same hash have the same leaves.
* `Manifest.calculateHash_identifies_iff` — when the hash identifies the entries.
-/

namespace Landropic

open MerkleTree

namespace ManifestEntry

/-- The bytes of a leaf. -/
def leafBytes (file : ManifestEntry) : Bytes :=
  file.path.utf8 ++ leBytes 8 file.size.toNat ++ Manifest.hashBytes file.contentHash ++
    leBytes 4 (file.mode.getD 0).toNat ++
    leBytes 8 (file.modifiedAt.timestamp % 2 ^ 64).toNat ++
    file.chunkHashes.flatMap Manifest.hashBytes

/-- What identifies an entry: all its fields, of the time of modification the second. -/
def identity (file : ManifestEntry) :
    Text × UInt64 × Text × Option UInt32 × ℤ × List Text :=
  (file.path, file.size, file.contentHash, file.mode, file.modifiedAt.timestamp, file.chunkHashes)

lemma leafBytes_ne_nil (file : ManifestEntry) : file.leafBytes ≠ [] := by
  intro h
  have hlen := congrArg List.length h
  simp only [leafBytes, List.length_append, length_leBytes, List.length_nil] at hlen
  omega

end ManifestEntry

namespace Manifest

section Tree

variable (blake3 : Bytes → ContentHash)

/-- The hash of two neighbours. -/
def node (a b : Bytes) : Bytes := (blake3 (a ++ b)).asBytes

/-- The leaves of the tree. -/
def leaves (m : Manifest) : List Bytes := m.sortedFiles.map (hashFileEntry blake3)

/-- The byte strings that are hashed for a manifest: those of the leaves, those of the pairs on each
level, and no bytes for a manifest without files. -/
inductive Hashed (m : Manifest) : Bytes → Prop
  | empty (h : m.files = []) : Hashed m []
  | leaf {file : ManifestEntry} (h : file ∈ m.files) : Hashed m file.leafBytes
  | node {i : ℕ} {p : Bytes × Bytes}
      (hlevel : 1 < ((level (node blake3))^[i] (leaves blake3 m)).length)
    (hp : p ∈ pairs ((level (Manifest.node blake3))^[i] (leaves blake3 m))) : Hashed m (p.1 ++ p.2)

lemma hashPairs_eq_level (hashes : List Bytes) :
    hashPairs blake3 hashes = level (node blake3) hashes := by
  induction hashes using hashPairs.induct with
  | case1 => rfl
  | case2 a => rfl
  | case3 a b rest ih => simp [hashPairs, ih, level, pairs, node]

lemma exists_root_merkleRoot {fuel : ℕ} {hashes : List Bytes} (hne : hashes ≠ [])
    (hfuel : hashes.length ≤ fuel + 1) :
    ∃ height root, merkleRoot blake3 fuel hashes = [root] ∧
      Root (node blake3) hashes height root := by
  have hpos := List.length_pos_iff.mpr hne
  induction fuel generalizing hashes with
  | zero =>
    obtain ⟨root, rfl⟩ := List.length_eq_one_iff.mp (show hashes.length = 1 by omega)
    exact ⟨0, root, rfl, rfl, by simp⟩
  | succ fuel ih =>
    rw [merkleRoot]
    split_ifs with h
    · have hlen := length_level (node blake3) hashes
      rw [hashPairs_eq_level]
      have hpos' : 0 < (level (node blake3) hashes).length := by omega
      obtain ⟨height, root, hroot, htop, hbelow⟩ :=
        ih (List.length_pos_iff.mp hpos') (by omega) hpos'
      refine ⟨height + 1, root, hroot, htop, fun i hi => ?_⟩
      cases i with
      | zero => exact h
      | succ i => exact hbelow i (by omega)
    · obtain ⟨root, rfl⟩ := List.length_eq_one_iff.mp (show hashes.length = 1 by omega)
      exact ⟨0, root, rfl, rfl, by simp⟩

end Tree

section Root

variable {blake3 : Bytes → ContentHash} {m a b : Manifest}

lemma mem_sortedFiles {file : ManifestEntry} : file ∈ m.sortedFiles ↔ file ∈ m.files :=
  List.mem_mergeSort

lemma length_leaves : (leaves blake3 m).length = m.files.length := by
  simp [leaves, sortedFiles]

lemma mem_leaves {hash : Bytes} :
    hash ∈ leaves blake3 m ↔ ∃ file ∈ m.files, hash = (blake3 file.leafBytes).asBytes := by
  simp only [leaves, List.mem_map, mem_sortedFiles]
  exact exists_congr fun file => and_congr_right fun _ => eq_comm

/-- **The hash of a manifest with files is the root of its tree.** -/
theorem root_calculateHash (blake3 : Bytes → ContentHash) (hne : m.files ≠ []) :
    ∃ height, Root (node blake3) (leaves blake3 m) height (m.calculateHash blake3).asBytes := by
  have hpos := List.length_pos_iff.mpr hne
  have hleaves : leaves blake3 m ≠ [] := List.length_pos_iff.mp (by rwa [length_leaves])
  have hfuel : (leaves blake3 m).length ≤ m.files.length + 1 := by
    rw [length_leaves]
    omega
  obtain ⟨height, root, hroot, htree⟩ := exists_root_merkleRoot blake3 hleaves hfuel
  have hall : ∀ hash ∈ leaves blake3 m, hash.length = 32 := by
    intro hash hhash
    obtain ⟨file, -, rfl⟩ := mem_leaves.mp hhash
    exact ContentHash.length_asBytes _
  obtain ⟨root', hroot', hlen⟩ := exists_merkleRoot blake3 hleaves hall hfuel
  obtain rfl : root = root' := List.singleton_inj.mp (hroot.symm.trans hroot')
  refine ⟨height, ?_⟩
  have hhash : (m.calculateHash blake3).asBytes = root := by
    rw [calculateHash, show m.sortedFiles.map (hashFileEntry blake3) = leaves blake3 m from rfl,
      hroot]
    simp [hlen]
  rwa [hhash]

end Root

section Sorted

variable {blake3 : Bytes → ContentHash} {m a b : Manifest}

lemma pairwise_sortedFiles (m : Manifest) :
    m.sortedFiles.Pairwise fun x y => decide (x.path ≤ y.path) = true := by
  apply List.pairwise_mergeSort
  · intro x y z hxy hyz
    exact decide_eq_true ((of_decide_eq_true hxy).trans (of_decide_eq_true hyz))
  · intro x y
    simpa using le_total x.path y.path

lemma pairwise_lt_sortedFiles (hnodup : (m.files.map ManifestEntry.path).Nodup) :
    m.sortedFiles.Pairwise fun x y => x.path < y.path := by
  have hperm : (m.sortedFiles.map ManifestEntry.path).Perm (m.files.map ManifestEntry.path) :=
    (List.mergeSort_perm m.files _).map _
  have hne : m.sortedFiles.Pairwise fun x y => x.path ≠ y.path :=
    List.pairwise_map.mp (hperm.nodup_iff.mpr hnodup)
  refine ((pairwise_sortedFiles m).and hne).imp ?_
  intro x y h
  exact lt_of_le_of_ne (of_decide_eq_true h.1) h.2

/-- **The order of the files does not matter to the sorted files**, if their paths are distinct. -/
theorem sortedFiles_eq_of_perm (hnodup : (a.files.map ManifestEntry.path).Nodup)
    (hperm : b.files.Perm a.files) : b.sortedFiles = a.sortedFiles := by
  have hsorted : b.sortedFiles.Perm a.sortedFiles :=
    (List.mergeSort_perm _ _).trans (hperm.trans (List.mergeSort_perm _ _).symm)
  refine hsorted.eq_of_pairwise ?_ (pairwise_sortedFiles b) (pairwise_sortedFiles a)
  intro x y hx hy hxy hyx
  have hpath : x.path = y.path := le_antisymm (of_decide_eq_true hxy) (of_decide_eq_true hyx)
  exact List.inj_on_of_nodup_map hnodup (hperm.subset (mem_sortedFiles.mp hx))
    (mem_sortedFiles.mp hy) hpath

lemma calculateHash_eq_of_sortedFiles (h : b.sortedFiles = a.sortedFiles) :
    b.calculateHash blake3 = a.calculateHash blake3 := by
  have hlength : b.files.length = a.files.length := by
    have hlen := congrArg List.length h
    simpa [sortedFiles] using hlen
  rw [calculateHash, calculateHash, h, hlength]

/-- The manifest of the first files in the order of their paths. -/
def firstFiles (k : ℕ) (m : Manifest) : Manifest := { m with files := m.sortedFiles.take k }

lemma leaves_firstFiles (blake3 : Bytes → ContentHash) (k : ℕ) (m : Manifest) :
    leaves blake3 (firstFiles k m) = (leaves blake3 m).take k := by
  have hsorted := (pairwise_sortedFiles m).sublist (List.take_sublist k m.sortedFiles)
  rw [leaves, sortedFiles, firstFiles, List.mergeSort_of_pairwise hsorted, List.map_take, leaves]

end Sorted

/-! ## Manifests over a set of entries -/

/-- A manifest whose files are among some entries, with distinct paths. -/
structure Over (U : Set ManifestEntry) (m : Manifest) : Prop where
  mem : ∀ file ∈ m.files, file ∈ U
  nodup : (m.files.map ManifestEntry.path).Nodup

/-- The hash function has no collisions among what is hashed for the manifests over some entries. -/
def NoCollisions (blake3 : Bytes → ContentHash) (U : Set ManifestEntry) : Prop :=
  Set.InjOn blake3 {s | ∃ m, Over U m ∧ Hashed blake3 m s}

/-- **No leaf is taken for a tree**: the bytes of no entry are the two hashes below the root of a
manifest. -/
def NoTree (blake3 : Bytes → ContentHash) (U : Set ManifestEntry) : Prop :=
  ∀ file ∈ U, ∀ m, Over U m → ∀ i x y, (level (node blake3))^[i] (leaves blake3 m) = [x, y] →
    file.leafBytes ≠ x ++ y

section Over

variable {blake3 : Bytes → ContentHash} {U : Set ManifestEntry} {m a b : Manifest}

lemma Over.firstFiles (h : Over U m) (k : ℕ) : Over U (firstFiles k m) := by
  refine ⟨fun file hfile => h.mem file (mem_sortedFiles.mp (List.mem_of_mem_take hfile)), ?_⟩
  have hperm := (List.mergeSort_perm m.files fun x y => decide (x.path ≤ y.path)).map
    ManifestEntry.path
  exact (hperm.nodup_iff.mpr h.nodup).sublist ((List.take_sublist k m.sortedFiles).map _)

lemma length_of_mem_levels {i : ℕ} {hash : Bytes}
    (h : hash ∈ (level (node blake3))^[i] (leaves blake3 m)) : hash.length = 32 := by
  cases i with
  | zero =>
    obtain ⟨file, -, rfl⟩ := mem_leaves.mp h
    exact ContentHash.length_asBytes _
  | succ i =>
    rw [Function.iterate_succ_apply'] at h
    obtain ⟨p, -, rfl⟩ := List.mem_map.mp h
    exact ContentHash.length_asBytes _

/-- Pairs that are hashed for two manifests are equal if their hashes are. -/
lemma NoCollisions.pair_eq (hcoll : NoCollisions blake3 U) (ha : Over U a) (hb : Over U b)
    {i j : ℕ} {p q : Bytes × Bytes}
    (hi : 1 < ((level (node blake3))^[i] (leaves blake3 a)).length)
    (hj : 1 < ((level (node blake3))^[j] (leaves blake3 b)).length)
    (hp : p ∈ pairs ((level (node blake3))^[i] (leaves blake3 a)))
    (hq : q ∈ pairs ((level (node blake3))^[j] (leaves blake3 b)))
    (heq : node blake3 p.1 p.2 = node blake3 q.1 q.2) : p = q := by
  have hbytes : p.1 ++ p.2 = q.1 ++ q.2 :=
    hcoll ⟨a, ha, .node hi hp⟩ ⟨b, hb, .node hj hq⟩ (ContentHash.ext heq)
  have hlen : p.1.length = q.1.length := by
    rw [length_of_mem_levels (mem_of_mem_pairs hp).1, length_of_mem_levels (mem_of_mem_pairs hq).1]
  obtain ⟨h₁, h₂⟩ := List.append_inj hbytes hlen
  exact Prod.ext h₁ h₂

lemma exists_hashed (blake3 : Bytes → ContentHash) (ha : a.files ≠ []) :
    ∃ s, Hashed blake3 a s ∧ s ≠ [] ∧ a.calculateHash blake3 = blake3 s := by
  obtain ⟨height, htop, hbelow⟩ := root_calculateHash blake3 ha
  cases height with
  | zero =>
    have hmem : (a.calculateHash blake3).asBytes ∈ leaves blake3 a := by
      rw [Function.iterate_zero_apply] at htop
      simp [htop]
    obtain ⟨file, hfile, heq⟩ := mem_leaves.mp hmem
    exact ⟨_, .leaf hfile, file.leafBytes_ne_nil, ContentHash.ext heq⟩
  | succ i =>
    have hmem : (a.calculateHash blake3).asBytes ∈
        level (node blake3) ((level (node blake3))^[i] (leaves blake3 a)) := by
      rw [← Function.iterate_succ_apply' (level (node blake3)), htop]
      simp
    obtain ⟨p, hp, heq⟩ := List.mem_map.mp hmem
    refine ⟨_, .node (hbelow i (by omega)) hp, fun hnil => ?_, ContentHash.ext heq.symm⟩
    have hlen := congrArg List.length hnil
    have hlen' := length_of_mem_levels (mem_of_mem_pairs hp).1
    rw [List.length_append, List.length_nil] at hlen
    omega

lemma files_eq_nil_of_calculateHash_eq (hcoll : NoCollisions blake3 U) (ha : Over U a)
    (hb : Over U b) (heq : a.calculateHash blake3 = b.calculateHash blake3) (hnil : a.files = []) :
    b.files = [] := by
  by_contra hne
  obtain ⟨s, hs, hs', hhash⟩ := exists_hashed blake3 hne
  have hempty : a.calculateHash blake3 = blake3 [] := by
    simp [calculateHash, sortedFiles, hnil, merkleRoot]
  have hbytes : [] = s := hcoll ⟨a, ha, .empty hnil⟩ ⟨b, hb, hs⟩
    (hempty.symm.trans (heq.trans hhash))
  exact hs' hbytes.symm

/-- **Two manifests with the same hash have leaves at the same distance to the root**: the tree over
the first leaves of the other one would be taken for a leaf.

**Proof sketch.** Otherwise the leaves of one manifest are the elements of a level above the leaves
of the other one. The first element of that level is the root of the tree over some first files, and
a leaf has its bytes. -/
lemma heights_eq (hcoll : NoCollisions blake3 U) (hno : NoTree blake3 U) (ha : Over U a)
    (hb : Over U b) {height height' : ℕ} {root : Bytes}
    (hroot : Root (node blake3) (leaves blake3 a) height root)
    (hroot' : Root (node blake3) (leaves blake3 b) height' root) (hle : height ≤ height') :
    height = height' := by
  by_contra hne
  obtain ⟨d, hd⟩ : ∃ d, height' - height = d + 1 := ⟨height' - height - 1, by omega⟩
  have hmem := hroot.mem_iff hroot'
    (fun i hi j hj p hp q hq heq => hcoll.pair_eq ha hb (hroot.below i hi) (hroot'.below j hj) hp hq
      heq) hle
  have hlong := hroot'.below d (by omega)
  have hfirst := leaves_firstFiles blake3 (2 ^ (d + 1)) b
  obtain ⟨x, y, rest, hxy⟩ : ∃ x y rest, (level (node blake3))^[d] (leaves blake3 b) =
      x :: y :: rest := by
    match h : (level (node blake3))^[d] (leaves blake3 b) with
    | [] => simp [h] at hlong
    | [x] => simp [h] at hlong
    | x :: y :: rest => exact ⟨x, y, rest, rfl⟩
  have htwo : (level (node blake3))^[d] (leaves blake3 (firstFiles (2 ^ (d + 1)) b)) = [x, y] := by
    rw [hfirst, iterate_level_take (by omega), hxy, show d + 1 - d = 1 by omega]
    rfl
  have hin : node blake3 x y ∈ leaves blake3 a := by
    rw [hmem, hd, Function.iterate_succ_apply', hxy]
    simp [level, pairs]
  obtain ⟨file, hfile, heq⟩ := mem_leaves.mp hin
  have hhashed : Hashed blake3 (firstFiles (2 ^ (d + 1)) b) (x ++ y) :=
    .node (i := d) (p := (x, y)) (by simp [htwo]) (by simp [htwo, pairs])
  have hbytes : x ++ y = file.leafBytes :=
    hcoll ⟨_, hb.firstFiles _, hhashed⟩ ⟨a, ha, .leaf hfile⟩ (ContentHash.ext heq)
  exact hno file (ha.mem file hfile) _ (hb.firstFiles _) d x y htwo hbytes.symm

/-- **Manifests with the same hash have the same leaves.** -/
theorem leafBytes_iff_of_calculateHash_eq (hcoll : NoCollisions blake3 U) (hno : NoTree blake3 U)
    (ha : Over U a) (hb : Over U b) (heq : a.calculateHash blake3 = b.calculateHash blake3)
    (s : Bytes) :
    (∃ file ∈ a.files, file.leafBytes = s) ↔ ∃ file ∈ b.files, file.leafBytes = s := by
  by_cases hnil : a.files = []
  · simp [hnil, files_eq_nil_of_calculateHash_eq hcoll ha hb heq hnil]
  · have hnil' : b.files ≠ [] := fun h =>
      hnil (files_eq_nil_of_calculateHash_eq hcoll hb ha heq.symm h)
    obtain ⟨height, hroot⟩ := root_calculateHash blake3 hnil
    obtain ⟨height', hroot'⟩ := root_calculateHash blake3 hnil'
    rw [heq] at hroot
    have hheight : height = height' := by
      rcases le_total height height' with hle | hle
      · exact heights_eq hcoll hno ha hb hroot hroot' hle
      · exact (heights_eq hcoll hno hb ha hroot' hroot hle).symm
    have hmem := hroot.mem_iff hroot' (fun i hi j hj p hp q hq h =>
      hcoll.pair_eq ha hb (hroot.below i hi) (hroot'.below j hj) hp hq h) hheight.le
    rw [hheight, Nat.sub_self, Function.iterate_zero] at hmem
    constructor
    · rintro ⟨file, hfile, rfl⟩
      obtain ⟨file', hfile', hhash⟩ := mem_leaves.mp
        ((hmem _).mp (mem_leaves.mpr ⟨file, hfile, rfl⟩))
      exact ⟨file', hfile', hcoll ⟨b, hb, .leaf hfile'⟩ ⟨a, ha, .leaf hfile⟩
        (ContentHash.ext hhash.symm)⟩
    · rintro ⟨file, hfile, rfl⟩
      obtain ⟨file', hfile', hhash⟩ := mem_leaves.mp
        ((hmem _).mpr (mem_leaves.mpr ⟨file, hfile, rfl⟩))
      exact ⟨file', hfile', hcoll ⟨a, ha, .leaf hfile'⟩ ⟨b, hb, .leaf hfile⟩
        (ContentHash.ext hhash.symm)⟩

lemma length_le_one_of_path {path : Text} (hnodup : (m.files.map ManifestEntry.path).Nodup)
    (hpath : ∀ file ∈ m.files, file.path = path) : m.files.length ≤ 1 := by
  have hpaths : m.files.map ManifestEntry.path = List.replicate m.files.length path := by
    rw [List.eq_replicate_iff, List.length_map]
    refine ⟨rfl, fun p hp => ?_⟩
    obtain ⟨file, hfile, rfl⟩ := List.mem_map.mp hp
    exact hpath file hfile
  rw [hpaths, List.nodup_replicate] at hnodup
  exact hnodup

/-- The manifest with one file. -/
def ofFile (file : ManifestEntry) : Manifest :=
  { folderId := [], version := 1, files := [file], createdAt := ⟨0, 0⟩, manifestHash := none }

lemma Over.ofFile {file : ManifestEntry} (h : file ∈ U) : Over U (ofFile file) := by
  refine ⟨fun f hf => ?_, by simp [Manifest.ofFile]⟩
  obtain rfl := List.mem_singleton.mp hf
  exact h

lemma calculateHash_ofFile (file : ManifestEntry) :
    (ofFile file).calculateHash blake3 = blake3 file.leafBytes := by
  obtain ⟨height, htop, hbelow⟩ := root_calculateHash blake3 (m := ofFile file)
    (by simp [ofFile])
  have hleaves : leaves blake3 (ofFile file) = [(blake3 file.leafBytes).asBytes] := by
    simp [leaves, sortedFiles, ofFile, hashFileEntry, ManifestEntry.leafBytes]
  cases height with
  | zero =>
    rw [Function.iterate_zero_apply, hleaves] at htop
    exact (ContentHash.ext (List.singleton_inj.mp htop)).symm
  | succ i =>
    have hone := hbelow 0 (by omega)
    rw [Function.iterate_zero_apply, hleaves] at hone
    simp at hone

lemma calculateHash_of_two {i : ℕ} {x y : Bytes}
    (h : (level (node blake3))^[i] (leaves blake3 m) = [x, y]) :
    m.calculateHash blake3 = blake3 (x ++ y) ∧ 2 ≤ m.files.length := by
  have htwo : 2 ≤ m.files.length := by
    have hle := length_iterate_level_le (node blake3) i (leaves blake3 m)
    rwa [h, length_leaves] at hle
  obtain ⟨height, htop, hbelow⟩ := root_calculateHash blake3 (m := m)
    (List.length_pos_iff.mp (by omega))
  have hnext : (level (node blake3))^[i + 1] (leaves blake3 m) = [node blake3 x y] := by
    rw [Function.iterate_succ_apply', h]
    rfl
  have hheight : height = i + 1 := by
    have h₁ : ¬ i + 1 < height := fun hlt => by
      have hlong := hbelow (i + 1) hlt
      simp [hnext] at hlong
    have h₂ : ¬ height ≤ i := fun hle => by
      -- above the root a level has one element only
      have hle' := length_iterate_level_le (node blake3) (i - height)
        ((level (node blake3))^[height] (leaves blake3 m))
      rw [← Function.iterate_add_apply, Nat.sub_add_cancel hle, h, htop] at hle'
      simp at hle'
    omega
  rw [hheight, hnext] at htop
  exact ⟨ContentHash.ext (List.singleton_inj.mp htop).symm, htwo⟩

/-! ### Manifests over two entries -/

section Pair

variable {f g : ManifestEntry} {i : ℕ}

lemma sublist_of_over_pair (hlt : f.path < g.path) (h : Over {f, g} m) :
    m.sortedFiles.Sublist [f, g] := by
  have hsorted := pairwise_lt_sortedFiles h.nodup
  have hnodup : m.sortedFiles.Nodup := hsorted.imp fun hxy heq => hxy.ne (congrArg _ heq)
  have hsub : m.sortedFiles ⊆ [f, g] := fun file hfile => by
    rcases h.mem file (mem_sortedFiles.mp hfile) with rfl | rfl <;> simp
  have : Std.Antisymm fun x y : ManifestEntry => x.path < y.path :=
    ⟨fun x y hxy hyx => absurd hxy hyx.not_gt⟩
  exact List.sublist_of_subperm_of_pairwise (hnodup.subperm hsub) hsorted (by simpa using hlt)

lemma level_of_over_pair (hlt : f.path < g.path) (h : Over {f, g} m)
    (hlevel : 1 < ((level (node blake3))^[i] (leaves blake3 m)).length) :
    (level (node blake3))^[i] (leaves blake3 m) =
      [(blake3 f.leafBytes).asBytes, (blake3 g.leafBytes).asBytes] := by
  have htwo : 2 ≤ m.sortedFiles.length := by
    have hle := hlevel.trans_le (length_iterate_level_le _ _ _)
    rwa [leaves, List.length_map] at hle
  have hleaves : leaves blake3 m =
      [(blake3 f.leafBytes).asBytes, (blake3 g.leafBytes).asBytes] := by
    rw [leaves, (sublist_of_over_pair hlt h).eq_of_length_le htwo]
    rfl
  rw [hleaves] at hlevel ⊢
  cases i with
  | zero => rfl
  | succ i =>
    have hshort := length_iterate_level_le (node blake3) i (level (node blake3)
      [(blake3 f.leafBytes).asBytes, (blake3 g.leafBytes).asBytes])
    rw [length_level] at hshort
    rw [Function.iterate_succ_apply] at hlevel
    exact absurd (hlevel.trans_le hshort) (by simp)

lemma noCollisions_pair (hlt : f.path < g.path)
    (h : ([[], f.leafBytes, g.leafBytes,
      (blake3 f.leafBytes).asBytes ++ (blake3 g.leafBytes).asBytes].map blake3).Nodup) :
    NoCollisions blake3 {f, g} := by
  have hhashed : ∀ s, (∃ m, Over {f, g} m ∧ Hashed blake3 m s) → s ∈ [[], f.leafBytes, g.leafBytes,
      (blake3 f.leafBytes).asBytes ++ (blake3 g.leafBytes).asBytes] := by
    rintro s ⟨m, hm, hs⟩
    cases hs with
    | empty hnil => simp
    | leaf hmem => rcases hm.mem _ hmem with rfl | rfl <;> simp
    | node hlevel hp =>
      rw [level_of_over_pair hlt hm hlevel] at hp
      obtain rfl := List.mem_singleton.mp hp
      simp
  exact fun s hs s' hs' heq => List.inj_on_of_nodup_map h (hhashed s hs) (hhashed s' hs') heq

lemma noTree_pair (hlt : f.path < g.path) (h : ∀ file ∈ ({f, g} : Set ManifestEntry),
      file.leafBytes ≠ (blake3 f.leafBytes).asBytes ++ (blake3 g.leafBytes).asBytes) :
    NoTree blake3 {f, g} := by
  intro file hfile m hm i x y htwo
  have hpair := level_of_over_pair hlt hm (by rw [htwo]; exact Nat.one_lt_two)
  rw [htwo, List.cons.injEq, List.singleton_inj] at hpair
  rw [hpair.1, hpair.2]
  exact h file hfile

end Pair

variable (blake3 U) in
/-- **When the hash identifies the entries of a manifest.** Over some entries for whose manifests
the hash function has no collisions, manifests with the same hash have the same entries if and only
if entries with the same leaf bytes have the same fields, and no leaf is taken for a tree.

**Proof sketch.** Manifests with the same hash have the same leaves. Conversely entries with the
same leaf bytes are told apart by no hash of a manifest with one file, and a leaf that has the bytes
below a root makes such a manifest look like one with several files. -/
theorem calculateHash_identifies_iff (hcoll : NoCollisions blake3 U) :
    (∀ a b, Over U a → Over U b → a.calculateHash blake3 = b.calculateHash blake3 →
      ∀ fields, (∃ file ∈ a.files, file.identity = fields) ↔
        ∃ file ∈ b.files, file.identity = fields) ↔
    (∀ file ∈ U, ∀ file' ∈ U, file.leafBytes = file'.leafBytes →
      file.identity = file'.identity) ∧ NoTree blake3 U := by
  constructor
  · intro hall
    refine ⟨fun file hfile file' hfile' hbytes => ?_, fun file hfile m hm i x y htwo hbytes => ?_⟩
    · have heq : (ofFile file).calculateHash blake3 = (ofFile file').calculateHash blake3 := by
        rw [calculateHash_ofFile, calculateHash_ofFile, hbytes]
      obtain ⟨f, hf, hfields⟩ := (hall _ _ (.ofFile hfile) (.ofFile hfile') heq file.identity).mp
        ⟨file, List.mem_singleton_self file, rfl⟩
      obtain rfl := List.mem_singleton.mp hf
      exact hfields.symm
    · obtain ⟨hhash, hlen⟩ := calculateHash_of_two htwo
      have heq : (ofFile file).calculateHash blake3 = m.calculateHash blake3 := by
        rw [calculateHash_ofFile, hbytes, hhash]
      -- all files of the manifest would have the path of the one file
      have hpath : ∀ f ∈ m.files, f.path = file.path := by
        intro f hf
        obtain ⟨f', hf', hfields⟩ := (hall _ _ (.ofFile hfile) hm heq f.identity).mpr ⟨f, hf, rfl⟩
        obtain rfl := List.mem_singleton.mp hf'
        exact (congrArg Prod.fst hfields).symm
      have hone := length_le_one_of_path hm.nodup hpath
      omega
  · rintro ⟨hinj, hno⟩ a b ha hb heq fields
    have hleaf := leafBytes_iff_of_calculateHash_eq hcoll hno ha hb heq
    constructor
    · rintro ⟨file, hfile, rfl⟩
      obtain ⟨file', hfile', hbytes⟩ := (hleaf _).mp ⟨file, hfile, rfl⟩
      exact ⟨file', hfile', hinj file' (hb.mem _ hfile') file (ha.mem _ hfile) hbytes⟩
    · rintro ⟨file, hfile, rfl⟩
      obtain ⟨file', hfile', hbytes⟩ := (hleaf _).mpr ⟨file, hfile, rfl⟩
      exact ⟨file', hfile', hinj file' (ha.mem _ hfile') file (hb.mem _ hfile) hbytes⟩

end Over

section Examples

/-- A file whose chunks have the given hashes. -/
private def fileWith (chunkHashes : List Text) : ManifestEntry :=
  { path := "a".toList
    size := 2
    modifiedAt := ⟨0, 0⟩
    contentHash := "00".toList
    chunkHashes := chunkHashes
    mode := some 420 }

/-- An empty file of the beginning of time. -/
def emptyAt (path : Text) : ManifestEntry :=
  ⟨path, 0, ⟨0, 0⟩, (ContentHash.blake3Sample []).toHex, [], none⟩

lemma emptyAt_lt : (emptyAt "/a".toList).path < (emptyAt "/b".toList).path := by decide

lemma leafBytes_emptyAt_ne :
    (emptyAt "/a".toList).leafBytes ≠ (emptyAt "/b".toList).leafBytes := by
  decide +kernel

lemma noCollisions_sample :
    NoCollisions ContentHash.blake3 {emptyAt "/a".toList, emptyAt "/b".toList} :=
  noCollisions_pair emptyAt_lt (by decide +kernel)

lemma noTree_sample : NoTree ContentHash.blake3 {emptyAt "/a".toList, emptyAt "/b".toList} :=
  noTree_pair emptyAt_lt (by rintro _ (rfl | rfl) <;> decide +kernel)

/-- The hash identifies the manifests with none, one or both of two empty files. -/
theorem calculateHash_identifies_pair :
    NoCollisions ContentHash.blake3 {emptyAt "/a".toList, emptyAt "/b".toList} ∧
      ∀ a b, Over {emptyAt "/a".toList, emptyAt "/b".toList} a →
        Over {emptyAt "/a".toList, emptyAt "/b".toList} b →
        a.calculateHash ContentHash.blake3 = b.calculateHash ContentHash.blake3 →
        ∀ fields, (∃ file ∈ a.files, file.identity = fields) ↔
          ∃ file ∈ b.files, file.identity = fields := by
  refine ⟨noCollisions_sample,
    (calculateHash_identifies_iff _ _ noCollisions_sample).mpr ⟨?_, noTree_sample⟩⟩
  rintro _ (rfl | rfl) _ (rfl | rfl) hbytes
  · rfl
  · exact absurd hbytes leafBytes_emptyAt_ne
  · exact absurd hbytes.symm leafBytes_emptyAt_ne
  · rfl

/-- The hashes of the chunks of a file are written one after the other: two chunks `aa` and `bb`
look like one chunk `aabb`, for every hash function. -/
theorem not_exists_calculateHash_identifies :
    ¬ ∃ blake3 : Bytes → ContentHash, ∀ a b : Manifest,
      (a.files.map ManifestEntry.path).Nodup → (b.files.map ManifestEntry.path).Nodup →
      a.calculateHash blake3 = b.calculateHash blake3 →
      ∀ fields, (∃ file ∈ a.files, file.identity = fields) ↔
        ∃ file ∈ b.files, file.identity = fields := by
  rintro ⟨blake3, hall⟩
  have heq : (ofFile (fileWith ["aa".toList, "bb".toList])).calculateHash blake3 =
      (ofFile (fileWith ["aabb".toList])).calculateHash blake3 := by
    rw [calculateHash_ofFile, calculateHash_ofFile]
    exact congrArg blake3 (by decide)
  obtain ⟨file, hfile, hfields⟩ := (hall _ _ (by simp [ofFile]) (by simp [ofFile]) heq _).mp
    ⟨_, List.mem_singleton_self _, rfl⟩
  obtain rfl := List.mem_singleton.mp hfile
  have hchunks := congrArg (fun fields => fields.2.2.2.2.2) hfields
  exact absurd hchunks (by decide)

end Examples

end Manifest

end Landropic
