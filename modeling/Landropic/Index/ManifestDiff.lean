import Landropic.Index.Identity

set_option autoImplicit false

/-!
# Differences of manifests by file

The files that were added, modified and deleted between two manifests. A file counts as modified if
the hash of its content changes, while the hash of a manifest covers all fields of its entries; the
two only agree where the path and the hash of the content say as much as the bytes of a leaf.

## Main definitions

* `ManifestDiff`, `Manifest.diff` — the differences.
* `Manifest.applyDiff` — a manifest after they are applied.

## Main results

* `Manifest.mem_added`, `Manifest.mem_modified`, `Manifest.mem_deleted` — what the differences are.
* `Manifest.calculateHash_eq_of_shows` — manifests with the same leaves by path have the same
  hash.
* `Manifest.diff_agrees_iff` — when differences and hashes agree.
-/

namespace Landropic

/-- Difference between two manifests. -/
structure ManifestDiff where
  added : List ManifestEntry
  modified : List ManifestEntry
  deleted : List ManifestEntry
  deriving DecidableEq

/-- Check if there are any changes. -/
def ManifestDiff.hasChanges (d : ManifestDiff) : Bool :=
  !d.added.isEmpty || !d.modified.isEmpty || !d.deleted.isEmpty

namespace Manifest

/-- A file of the other manifest: it is added, modified or unchanged. -/
def visitOther (selfMap : HashMap Text ManifestEntry) (acc : ManifestDiff)
    (file : Text × ManifestEntry) : ManifestDiff :=
  match selfMap.lookup file.1 with
  | none => { acc with added := acc.added ++ [file.2] }
  | some selfFile =>
    if selfFile.contentHash ≠ file.2.contentHash then
      { acc with modified := acc.modified ++ [file.2] }
    else acc

/-- A file of this manifest: it is deleted if the other one does not have it. -/
def visitSelf (otherMap : HashMap Text ManifestEntry) (acc : ManifestDiff)
    (file : Text × ManifestEntry) : ManifestDiff :=
  if file.1 ∉ otherMap then { acc with deleted := acc.deleted ++ [file.2] } else acc

/-- Compare with another manifest to find differences. The orders are those in which the maps of the
other manifest and of this one are visited. -/
def diff (otherOrder selfOrder : IterOrder Text) (m other : Manifest) : ManifestDiff :=
  (selfOrder.entries m.fileMap).foldl (visitSelf other.fileMap)
    ((otherOrder.entries other.fileMap).foldl (visitOther m.fileMap) ⟨[], [], []⟩)

/-- The manifest after a difference is applied: without the files that are deleted or modified, and
with those that are modified or added. -/
def applyDiff (m : Manifest) (d : ManifestDiff) : Manifest :=
  { m with
    files := (m.files.filter fun f => f.path ∉ (d.deleted ++ d.modified).map ManifestEntry.path) ++
      (d.modified ++ d.added) }

section Diff

variable {otherOrder selfOrder : IterOrder Text} {m other : Manifest} {file : ManifestEntry}

/-- The loop over the other manifest collects the files that are new and those whose content
differs. -/
lemma foldl_visitOther (selfMap : HashMap Text ManifestEntry) (acc : ManifestDiff)
    (files : List (Text × ManifestEntry)) :
    files.foldl (visitOther selfMap) acc =
      { added := acc.added ++
          (files.filter fun f => selfMap.lookup f.1 = none).map Prod.snd
        modified := acc.modified ++ (files.filter fun f =>
          ∃ own ∈ selfMap.lookup f.1, own.contentHash ≠ f.2.contentHash).map Prod.snd
        deleted := acc.deleted } := by
  induction files generalizing acc with
  | nil => simp
  | cons f files ih =>
    rw [List.foldl_cons, ih]
    cases hlookup : selfMap.lookup f.1 with
    | none => simp [visitOther, hlookup]
    | some own =>
      by_cases hcontent : own.contentHash = f.2.contentHash
      · simp [visitOther, hlookup, hcontent]
      · simp [visitOther, hlookup, hcontent]

lemma foldl_visitSelf (otherMap : HashMap Text ManifestEntry) (acc : ManifestDiff)
    (files : List (Text × ManifestEntry)) :
    files.foldl (visitSelf otherMap) acc =
      { acc with deleted := acc.deleted ++
          (files.filter fun f => f.1 ∉ otherMap).map Prod.snd } := by
  induction files generalizing acc with
  | nil => simp
  | cons f files ih =>
    rw [List.foldl_cons, ih]
    by_cases hmem : f.1 ∈ otherMap
    · simp [visitSelf, hmem]
    · simp [visitSelf, hmem]

lemma mem_entries_filter {order : IterOrder Text} {p : Text × ManifestEntry → Bool} :
    file ∈ ((order.entries m.fileMap).filter p).map Prod.snd ↔
      m.fileMap.lookup file.path = some file ∧ p (file.path, file) = true := by
  simp only [List.mem_map, List.mem_filter, Prod.exists, order.mem_entries]
  constructor
  · rintro ⟨path, _, ⟨hlookup, hp⟩, rfl⟩
    obtain ⟨-, rfl⟩ := path_of_lookup_fileMap hlookup
    exact ⟨hlookup, hp⟩
  · rintro ⟨hlookup, hp⟩
    exact ⟨_, _, ⟨hlookup, hp⟩, rfl⟩

/-- **The added files** are those of the other manifest whose paths this one does not have. -/
theorem mem_added : file ∈ (m.diff otherOrder selfOrder other).added ↔
    other.fileMap.lookup file.path = some file ∧ file.path ∉ m.fileMap := by
  simp only [diff, foldl_visitSelf, foldl_visitOther, List.nil_append, mem_entries_filter,
    decide_eq_true_eq, Finmap.lookup_eq_none]

/-- **The modified files** are those of the other manifest that this one has with other content. -/
theorem mem_modified : file ∈ (m.diff otherOrder selfOrder other).modified ↔
    other.fileMap.lookup file.path = some file ∧
      ∃ own, m.fileMap.lookup file.path = some own ∧ own.contentHash ≠ file.contentHash := by
  simp only [diff, foldl_visitSelf, foldl_visitOther, List.nil_append, mem_entries_filter,
    decide_eq_true_eq, Option.mem_def]

/-- **The deleted files** are those of this manifest whose paths the other one does not have. -/
theorem mem_deleted : file ∈ (m.diff otherOrder selfOrder other).deleted ↔
    m.fileMap.lookup file.path = some file ∧ file.path ∉ other.fileMap := by
  simp only [diff, foldl_visitSelf, foldl_visitOther, List.nil_append, mem_entries_filter,
    decide_eq_true_eq]

lemma hasChanges_eq_false_iff {d : ManifestDiff} :
    d.hasChanges = false ↔ d.added = [] ∧ d.modified = [] ∧ d.deleted = [] := by
  simp [ManifestDiff.hasChanges, and_assoc]

end Diff

/-! ## Manifests that show the same files -/

section SameFiles

variable {blake3 : Bytes → ContentHash} {m a b : Manifest}

lemma lookup_fileMap_iff (hnodup : (m.files.map ManifestEntry.path).Nodup) {path : Text}
    {file : ManifestEntry} :
    m.fileMap.lookup path = some file ↔ file ∈ m.files ∧ file.path = path := by
  have hkeys : ((m.files.map fun f => (f.path, f)).map Prod.fst).Nodup := by
    rwa [List.map_map]
  rw [fileMap, HashMap.lookup_collect_iff hkeys, List.mem_map]
  constructor
  · rintro ⟨f, hf, heq⟩
    obtain ⟨rfl, rfl⟩ := Prod.mk.inj heq
    exact ⟨hf, rfl⟩
  · rintro ⟨hfile, rfl⟩
    exact ⟨file, hfile, rfl⟩

lemma mem_fileMap {path : Text} : path ∈ m.fileMap ↔ ∃ file ∈ m.files, file.path = path := by
  rw [fileMap, HashMap.mem_collect, List.map_map, List.mem_map]
  rfl

/-- Every file of one manifest has a counterpart in the other one, with the same path and the same
value of `f`. -/
def Shows {β : Type} (f : ManifestEntry → β) (a b : Manifest) : Prop :=
  ∀ file ∈ a.files, ∃ file' ∈ b.files, file'.path = file.path ∧ f file' = f file

lemma sorted_keys (m : Manifest) (hnodup : (m.files.map ManifestEntry.path).Nodup) :
    (m.sortedFiles.map fun f => (f.path, f.leafBytes)).Pairwise fun p q => p.1 < q.1 :=
  List.pairwise_map.mpr (pairwise_lt_sortedFiles hnodup)

/-- **Manifests with the same leaf bytes by path have the same hash.** -/
theorem calculateHash_eq_of_shows (ha : (a.files.map ManifestEntry.path).Nodup)
    (hb : (b.files.map ManifestEntry.path).Nodup) (hab : Shows ManifestEntry.leafBytes a b)
    (hba : Shows ManifestEntry.leafBytes b a) :
    a.calculateHash blake3 = b.calculateHash blake3 := by
  have hsub : ∀ {x y : Manifest}, Shows ManifestEntry.leafBytes x y → ∀ p,
      p ∈ (x.sortedFiles.map fun f => (f.path, f.leafBytes)) →
        p ∈ (y.sortedFiles.map fun f => (f.path, f.leafBytes)) := by
    intro x y h p hp
    obtain ⟨file, hfile, rfl⟩ := List.mem_map.mp hp
    obtain ⟨file', hfile', hpath, hbytes⟩ := h file (mem_sortedFiles.mp hfile)
    exact List.mem_map.mpr ⟨file', mem_sortedFiles.mpr hfile', Prod.ext hpath hbytes⟩
  have hnodup : ∀ x : Manifest, (x.files.map ManifestEntry.path).Nodup →
      (x.sortedFiles.map fun f => (f.path, f.leafBytes)).Nodup := fun x hx =>
    (sorted_keys x hx).imp fun h heq => absurd (congrArg Prod.fst heq) h.ne
  have hkeys : (a.sortedFiles.map fun f => (f.path, f.leafBytes)) =
      b.sortedFiles.map fun f => (f.path, f.leafBytes) := by
    refine List.Perm.eq_of_pairwise ?_ (sorted_keys a ha) (sorted_keys b hb)
      ((List.perm_ext_iff_of_nodup (hnodup a ha) (hnodup b hb)).mpr fun p =>
        ⟨hsub hab p, hsub hba p⟩)
    intro p q _ _ h h'
    exact absurd h' h.asymm
  have hhashes : a.sortedFiles.map (hashFileEntry blake3) =
      b.sortedFiles.map (hashFileEntry blake3) := by
    have hmap := congrArg (List.map fun p => (blake3 p.2).asBytes) hkeys
    rw [List.map_map, List.map_map] at hmap
    exact hmap
  have hlen : a.files.length = b.files.length := by
    have h := congrArg List.length hkeys
    simpa [sortedFiles] using h
  rw [calculateHash, calculateHash, hhashes, hlen]

variable {otherOrder selfOrder : IterOrder Text}

lemma shows_of_not_hasChanges (ha : (a.files.map ManifestEntry.path).Nodup)
    (hb : (b.files.map ManifestEntry.path).Nodup)
    (h : (a.diff otherOrder selfOrder b).hasChanges = false) :
    Shows ManifestEntry.contentHash a b ∧ Shows ManifestEntry.contentHash b a := by
  obtain ⟨hadded, hmodified, hdeleted⟩ := hasChanges_eq_false_iff.mp h
  have hsame : ∀ {file own : ManifestEntry}, file ∈ b.files → own ∈ a.files →
      own.path = file.path → own.contentHash = file.contentHash := by
    intro file own hfile hown hpath
    by_contra hne
    have hmem : file ∈ (a.diff otherOrder selfOrder b).modified :=
      mem_modified.mpr ⟨(lookup_fileMap_iff hb).mpr ⟨hfile, rfl⟩, own,
        (lookup_fileMap_iff ha).mpr ⟨hown, hpath⟩, hne⟩
    simp [hmodified] at hmem
  constructor
  · intro file hfile
    by_contra hnone
    have hmem : file ∈ (a.diff otherOrder selfOrder b).deleted := by
      refine mem_deleted.mpr ⟨(lookup_fileMap_iff ha).mpr ⟨hfile, rfl⟩, fun hin => hnone ?_⟩
      obtain ⟨file', hfile', hpath⟩ := mem_fileMap.mp hin
      exact ⟨file', hfile', hpath, (hsame hfile' hfile hpath.symm).symm⟩
    simp [hdeleted] at hmem
  · intro file hfile
    by_contra hnone
    have hmem : file ∈ (a.diff otherOrder selfOrder b).added := by
      refine mem_added.mpr ⟨(lookup_fileMap_iff hb).mpr ⟨hfile, rfl⟩, fun hin => hnone ?_⟩
      obtain ⟨own, hown, hpath⟩ := mem_fileMap.mp hin
      exact ⟨own, hown, hpath, hsame hfile hown hpath⟩
    simp [hadded] at hmem

lemma not_hasChanges_of_shows (ha : (a.files.map ManifestEntry.path).Nodup)
    (hb : (b.files.map ManifestEntry.path).Nodup) (hab : Shows ManifestEntry.contentHash a b)
    (hba : Shows ManifestEntry.contentHash b a) :
    (a.diff otherOrder selfOrder b).hasChanges = false := by
  rw [hasChanges_eq_false_iff]
  refine ⟨List.eq_nil_iff_forall_not_mem.mpr fun file hmem => ?_,
    List.eq_nil_iff_forall_not_mem.mpr fun file hmem => ?_,
    List.eq_nil_iff_forall_not_mem.mpr fun file hmem => ?_⟩
  · obtain ⟨hlookup, hnew⟩ := mem_added.mp hmem
    obtain ⟨own, hown, hpath, -⟩ := hba file ((lookup_fileMap_iff hb).mp hlookup).1
    exact hnew (mem_fileMap.mpr ⟨own, hown, hpath⟩)
  · obtain ⟨hlookup, own, hown, hne⟩ := mem_modified.mp hmem
    obtain ⟨own', hown', hpath, hcontent⟩ := hba file ((lookup_fileMap_iff hb).mp hlookup).1
    rw [(lookup_fileMap_iff ha).mpr ⟨hown', hpath⟩] at hown
    exact hne (Option.some.inj hown ▸ hcontent)
  · obtain ⟨hlookup, hgone⟩ := mem_deleted.mp hmem
    obtain ⟨file', hfile', hpath, -⟩ := hab file ((lookup_fileMap_iff ha).mp hlookup).1
    exact hgone (mem_fileMap.mpr ⟨file', hfile', hpath⟩)

lemma not_hasChanges_ofFile {file file' : ManifestEntry} (hpath : file.path = file'.path)
    (hcontent : file.contentHash = file'.contentHash) :
    ((ofFile file).diff otherOrder selfOrder (ofFile file')).hasChanges = false := by
  refine not_hasChanges_of_shows (by simp [ofFile]) (by simp [ofFile]) (fun f hf => ?_)
    fun f hf => ?_
  · obtain rfl := List.mem_singleton.mp hf
    exact ⟨file', List.mem_singleton_self file', hpath.symm, hcontent.symm⟩
  · obtain rfl := List.mem_singleton.mp hf
    exact ⟨file, List.mem_singleton_self file, hpath, hcontent⟩

end SameFiles

/-! ## Applying a difference -/

section Apply

variable {otherOrder selfOrder : IterOrder Text} {a b m : Manifest} {file : ManifestEntry}

lemma nodup_picked (order : IterOrder Text) (m : Manifest) (p : Text × ManifestEntry → Bool) :
    ((((order.entries m.fileMap).filter p).map Prod.snd).map ManifestEntry.path).Nodup := by
  have hpath : ∀ f ∈ (order.entries m.fileMap).filter p, f.2.path = f.1 := by
    intro f hf
    exact (path_of_lookup_fileMap (order.mem_entries.mp (List.mem_filter.mp hf).1)).2
  rw [List.map_map, List.map_congr_left (f := ManifestEntry.path ∘ Prod.snd) hpath]
  exact (order.nodup_fst_entries m.fileMap).sublist (List.filter_sublist.map _)

lemma nodup_added : ((a.diff otherOrder selfOrder b).added.map ManifestEntry.path).Nodup := by
  rw [diff, foldl_visitSelf, foldl_visitOther]
  exact nodup_picked otherOrder b _

lemma nodup_modified :
    ((a.diff otherOrder selfOrder b).modified.map ManifestEntry.path).Nodup := by
  rw [diff, foldl_visitSelf, foldl_visitOther]
  exact nodup_picked otherOrder b _

lemma mem_applyDiff {d : ManifestDiff} :
    file ∈ (m.applyDiff d).files ↔
      (file ∈ m.files ∧ file.path ∉ (d.deleted ++ d.modified).map ManifestEntry.path) ∨
        file ∈ d.modified ∨ file ∈ d.added := by
  simp [applyDiff]

lemma nodup_applyDiff (ha : (a.files.map ManifestEntry.path).Nodup) :
    (((a.applyDiff (a.diff otherOrder selfOrder b)).files).map ManifestEntry.path).Nodup := by
  simp only [applyDiff, List.map_append]
  refine List.Nodup.append (ha.sublist (List.filter_sublist.map _))
    (List.Nodup.append nodup_modified nodup_added ?_) ?_
  · -- a modified file has a counterpart in the first manifest, an added one has none
    intro path hmodified hadded
    obtain ⟨file, hfile, rfl⟩ := List.mem_map.mp hmodified
    obtain ⟨file', hfile', hpath⟩ := List.mem_map.mp hadded
    obtain ⟨-, own, hown, -⟩ := mem_modified.mp hfile
    exact (mem_added.mp hfile').2 (hpath ▸ Finmap.mem_iff.mpr ⟨own, hown⟩)
  · intro path hkept hnew
    obtain ⟨file, hfile, rfl⟩ := List.mem_map.mp hkept
    obtain ⟨hfile, hout⟩ := List.mem_filter.mp hfile
    rcases List.mem_append.mp hnew with hmodified | hadded
    · exact of_decide_eq_true hout (List.mem_append_right _ hmodified)
    · obtain ⟨file', hfile', hpath⟩ := List.mem_map.mp hadded
      exact (mem_added.mp hfile').2 (hpath ▸ mem_fileMap.mpr ⟨file, hfile, rfl⟩)

/-- **Applying the difference to one manifest gives the files of the other one**, by path and
content. -/
theorem shows_applyDiff (otherOrder selfOrder : IterOrder Text)
    (ha : (a.files.map ManifestEntry.path).Nodup)
    (hb : (b.files.map ManifestEntry.path).Nodup) :
    Shows ManifestEntry.contentHash (a.applyDiff (a.diff otherOrder selfOrder b)) b ∧
      Shows ManifestEntry.contentHash b (a.applyDiff (a.diff otherOrder selfOrder b)) := by
  constructor
  · intro file hfile
    rcases mem_applyDiff.mp hfile with ⟨hown, hkept⟩ | hmodified | hadded
    · rw [List.map_append, List.mem_append, not_or] at hkept
      have hin : file.path ∈ b.fileMap := by
        by_contra hgone
        exact hkept.1 (List.mem_map.mpr
          ⟨file, mem_deleted.mpr ⟨(lookup_fileMap_iff ha).mpr ⟨hown, rfl⟩, hgone⟩, rfl⟩)
      obtain ⟨file', hfile', hpath⟩ := mem_fileMap.mp hin
      refine ⟨file', hfile', hpath, ?_⟩
      by_contra hne
      exact hkept.2 (List.mem_map.mpr ⟨file', mem_modified.mpr
        ⟨(lookup_fileMap_iff hb).mpr ⟨hfile', rfl⟩, file,
          (lookup_fileMap_iff ha).mpr ⟨hown, hpath.symm⟩, fun h => hne h.symm⟩, hpath⟩)
    · exact ⟨file, ((lookup_fileMap_iff hb).mp (mem_modified.mp hmodified).1).1, rfl, rfl⟩
    · exact ⟨file, ((lookup_fileMap_iff hb).mp (mem_added.mp hadded).1).1, rfl, rfl⟩
  · intro file hfile
    have hlookup := (lookup_fileMap_iff hb).mpr ⟨hfile, rfl⟩
    by_cases hnew : file.path ∈ a.fileMap
    · obtain ⟨own, hown, hpath⟩ := mem_fileMap.mp hnew
      have hown' := (lookup_fileMap_iff ha).mpr ⟨hown, hpath⟩
      by_cases hcontent : own.contentHash = file.contentHash
      · refine ⟨own, mem_applyDiff.mpr (.inl ⟨hown, fun hout => ?_⟩), hpath, hcontent⟩
        obtain ⟨f, hf, hfpath⟩ := List.mem_map.mp hout
        rcases List.mem_append.mp hf with hdeleted | hmodified
        · exact (mem_deleted.mp hdeleted).2
            (mem_fileMap.mpr ⟨file, hfile, hpath.symm.trans hfpath.symm⟩)
        · obtain ⟨hf, own', hown'', hne⟩ := mem_modified.mp hmodified
          rw [hfpath, hpath, hlookup] at hf
          rw [hfpath, hpath, hown'] at hown''
          obtain rfl := Option.some.inj hf
          obtain rfl := Option.some.inj hown''
          exact hne hcontent
      · exact ⟨file, mem_applyDiff.mpr (.inr (.inl (mem_modified.mpr
          ⟨hlookup, own, hown', hcontent⟩))), rfl, rfl⟩
    · exact ⟨file, mem_applyDiff.mpr (.inr (.inr (mem_added.mpr ⟨hlookup, hnew⟩))), rfl, rfl⟩

end Apply

/-! ## When differences and hashes agree -/

section Agree

variable {blake3 : Bytes → ContentHash} {U : Set ManifestEntry} {a b : Manifest}

/-- The path and the hash of the content of a file say as much as the bytes of its leaf. -/
def SameIdentity (U : Set ManifestEntry) : Prop :=
  ∀ file ∈ U, ∀ file' ∈ U, file.leafBytes = file'.leafBytes ↔
    file.path = file'.path ∧ file.contentHash = file'.contentHash

lemma Shows.leafBytes (hU : SameIdentity U) (ha : ∀ file ∈ a.files, file ∈ U)
    (hb : ∀ file ∈ b.files, file ∈ U) (h : Shows ManifestEntry.contentHash a b) :
    Shows ManifestEntry.leafBytes a b := by
  intro file hfile
  obtain ⟨file', hfile', hpath, hcontent⟩ := h file hfile
  exact ⟨file', hfile', hpath, (hU file' (hb _ hfile') file (ha _ hfile)).mpr ⟨hpath, hcontent⟩⟩

lemma mem_of_mem_applyDiff {otherOrder selfOrder : IterOrder Text} (ha : Over U a) (hb : Over U b) :
    ∀ file ∈ (a.applyDiff (a.diff otherOrder selfOrder b)).files, file ∈ U := by
  intro file hfile
  rcases mem_applyDiff.mp hfile with ⟨hown, -⟩ | hmodified | hadded
  · exact ha.mem file hown
  · exact hb.mem file ((lookup_fileMap_iff hb.nodup).mp (mem_modified.mp hmodified).1).1
  · exact hb.mem file ((lookup_fileMap_iff hb.nodup).mp (mem_added.mp hadded).1).1

variable (blake3 U) in
/-- **When differences and hashes agree.** Over some entries for whose manifests the hash function
has no collisions, two manifests have no changes exactly if they have the same hash, and applying
the differences gives a manifest with the hash of the other one, if and only if the path and the
hash of the content of an entry say as much as the bytes of its leaf, and no leaf is taken for a
tree.

**Proof sketch.** The differences compare paths and hashes of contents, the hash the bytes of
leaves. Conversely manifests with one file tell apart what only one of the two sees, and a leaf with
the bytes below a root gives two manifests that have the same hash and different paths. -/
theorem diff_agrees_iff (hcoll : NoCollisions blake3 U) :
    (∀ a b, Over U a → Over U b → ∀ otherOrder selfOrder,
      ((a.diff otherOrder selfOrder b).hasChanges = false ↔
        a.calculateHash blake3 = b.calculateHash blake3) ∧
      (a.applyDiff (a.diff otherOrder selfOrder b)).calculateHash blake3 =
        b.calculateHash blake3) ↔
    SameIdentity U ∧ NoTree blake3 U := by
  constructor
  · intro hall
    refine ⟨fun file hfile file' hfile' => ?_, fun file hfile m hm i x y htwo hbytes => ?_⟩
    · have hone := (hall _ _ (.ofFile hfile) (.ofFile hfile') (.sorted Text) (.sorted Text)).1
      rw [calculateHash_ofFile, calculateHash_ofFile] at hone
      constructor
      · intro hbytes
        have hshows := (shows_of_not_hasChanges (Over.ofFile hfile).nodup (Over.ofFile hfile').nodup
          (hone.mpr (congrArg blake3 hbytes))).2
        obtain ⟨f, hf, hpath, hcontent⟩ := hshows file' (List.mem_singleton_self file')
        obtain rfl := List.mem_singleton.mp hf
        exact ⟨hpath, hcontent⟩
      · rintro ⟨hpath, hcontent⟩
        have heq := hone.mp (not_hasChanges_ofFile hpath hcontent)
        exact hcoll ⟨_, .ofFile hfile, .leaf (List.mem_singleton_self file)⟩
          ⟨_, .ofFile hfile', .leaf (List.mem_singleton_self file')⟩ heq
    · obtain ⟨hhash, hlen⟩ := calculateHash_of_two htwo
      have heq : m.calculateHash blake3 = (ofFile file).calculateHash blake3 := by
        rw [calculateHash_ofFile, hbytes, hhash]
      have hsame := (hall _ _ hm (.ofFile hfile) (.sorted Text) (.sorted Text)).1.mpr heq
      have hshows := (shows_of_not_hasChanges hm.nodup (Over.ofFile hfile).nodup hsame).1
      have hone := length_le_one_of_path hm.nodup fun f hf => by
        obtain ⟨f', hf', hpath, -⟩ := hshows f hf
        obtain rfl := List.mem_singleton.mp hf'
        exact hpath.symm
      omega
  · rintro ⟨hU, hno⟩ a b ha hb otherOrder selfOrder
    refine ⟨⟨fun hsame => ?_, fun heq => ?_⟩, ?_⟩
    · obtain ⟨hab, hba⟩ := shows_of_not_hasChanges ha.nodup hb.nodup hsame
      exact calculateHash_eq_of_shows ha.nodup hb.nodup (hab.leafBytes hU ha.mem hb.mem)
        (hba.leafBytes hU hb.mem ha.mem)
    · have hleaf := leafBytes_iff_of_calculateHash_eq hcoll hno ha hb heq
      refine not_hasChanges_of_shows ha.nodup hb.nodup (fun file hfile => ?_) fun file hfile => ?_
      · obtain ⟨file', hfile', hbytes⟩ := (hleaf _).mp ⟨file, hfile, rfl⟩
        obtain ⟨hpath, hcontent⟩ := (hU file' (hb.mem _ hfile') file (ha.mem _ hfile)).mp hbytes
        exact ⟨file', hfile', hpath, hcontent⟩
      · obtain ⟨file', hfile', hbytes⟩ := (hleaf _).mpr ⟨file, hfile, rfl⟩
        obtain ⟨hpath, hcontent⟩ := (hU file' (ha.mem _ hfile') file (hb.mem _ hfile)).mp hbytes
        exact ⟨file', hfile', hpath, hcontent⟩
    · obtain ⟨hab, hba⟩ := shows_applyDiff otherOrder selfOrder ha.nodup hb.nodup
      exact calculateHash_eq_of_shows (nodup_applyDiff ha.nodup) hb.nodup
        (hab.leafBytes hU (mem_of_mem_applyDiff ha hb) hb.mem)
        (hba.leafBytes hU hb.mem (mem_of_mem_applyDiff ha hb))

end Agree

section Examples

/-- A file with the given permissions. -/
private def fileOfMode (mode : UInt32) : ManifestEntry :=
  { path := "a".toList
    size := 0
    modifiedAt := ⟨0, 0⟩
    contentHash := "00".toList
    chunkHashes := []
    mode := some mode }

/-- For manifests with none, one or both of two empty files differences and hashes agree. -/
theorem diff_agrees_pair :
    NoCollisions ContentHash.blake3 {emptyAt "/a".toList, emptyAt "/b".toList} ∧
      ∀ a b, Over {emptyAt "/a".toList, emptyAt "/b".toList} a →
        Over {emptyAt "/a".toList, emptyAt "/b".toList} b → ∀ otherOrder selfOrder,
        ((a.diff otherOrder selfOrder b).hasChanges = false ↔
          a.calculateHash ContentHash.blake3 = b.calculateHash ContentHash.blake3) ∧
        (a.applyDiff (a.diff otherOrder selfOrder b)).calculateHash ContentHash.blake3 =
          b.calculateHash ContentHash.blake3 := by
  refine ⟨noCollisions_sample, (diff_agrees_iff _ _ noCollisions_sample).mpr ⟨?_, noTree_sample⟩⟩
  rintro _ (rfl | rfl) _ (rfl | rfl)
  · simp
  · exact iff_of_false leafBytes_emptyAt_ne (by decide)
  · exact iff_of_false leafBytes_emptyAt_ne.symm (by decide)
  · simp

/-- Only the permissions of a file change: the hash of the manifest does, the differences are
empty. -/
theorem not_exists_diff_agrees :
    ¬ ∃ blake3 : Bytes → ContentHash,
      blake3 (fileOfMode 420).leafBytes ≠ blake3 (fileOfMode 493).leafBytes ∧
      ∀ a b : Manifest, (a.files.map ManifestEntry.path).Nodup →
        (b.files.map ManifestEntry.path).Nodup → ∀ otherOrder selfOrder,
        ((a.diff otherOrder selfOrder b).hasChanges = false ↔
          a.calculateHash blake3 = b.calculateHash blake3) ∧
        (a.applyDiff (a.diff otherOrder selfOrder b)).calculateHash blake3 =
          b.calculateHash blake3 := by
  rintro ⟨blake3, hne, hall⟩
  have hone := (hall (ofFile (fileOfMode 420)) (ofFile (fileOfMode 493)) (by simp [ofFile])
    (by simp [ofFile]) (.sorted Text) (.sorted Text)).1
  rw [calculateHash_ofFile, calculateHash_ofFile] at hone
  exact hne (hone.mp (not_hasChanges_ofFile rfl rfl))

end Examples

end Manifest

end Landropic
