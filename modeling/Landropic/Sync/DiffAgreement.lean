import Landropic.Index.ManifestDiff
import Landropic.Sync.Diff

set_option autoImplicit false

/-!
# The two ways to compare manifests agree

The index and the sync engine each compare two manifests. Both build the maps of the files by path,
so they agree even where a manifest lists a path twice; the sync engine tells apart the files whose
content changes without new chunks.

## Main definitions

* `DiffComputer.targetChange`, `DiffComputer.sourceChange` — the change one file contributes.

## Main results

* `DiffComputer.mem_changes` — the changes of a diff.
* `DiffComputer.deletes_iff` — the files a diff deletes.
* `DiffComputer.diff_agrees_computeDiff` — the two agree.
-/

namespace Landropic

namespace DiffComputer

section Changes

variable {dc : DiffComputer} {blake3 : Bytes → ContentHash} {overflowChecks : Bool}
  {orders : DiffOrders} {source target : Manifest} {diff : DiffResult}

/-- The change of a file that the source does not have. -/
def addedChange (dc : DiffComputer) (path : Text) (targetEntry : ManifestEntry) : FileChange :=
  ⟨path, .added, none, some targetEntry, dc.findRequiredChunks targetEntry,
    calculateTransferSize (dc.findRequiredChunks targetEntry)⟩

/-- The change of a file whose content differs. -/
def contentChange (dc : DiffComputer) (path : Text) (sourceEntry targetEntry : ManifestEntry) :
    FileChange :=
  if dc.computeChunkDiff sourceEntry targetEntry = [] ∧ sourceEntry.size = targetEntry.size then
    ⟨path, .metadataOnly, some sourceEntry, some targetEntry, [], 0⟩
  else
    ⟨path, .modified, some sourceEntry, some targetEntry,
      dc.computeChunkDiff sourceEntry targetEntry,
      calculateTransferSize (dc.computeChunkDiff sourceEntry targetEntry)⟩

/-- The change of a file that the target does not have. -/
def deletedChange (path : Text) (sourceEntry : ManifestEntry) : FileChange :=
  ⟨path, .deleted, some sourceEntry, none, [], 0⟩

/-- The change of one file of the target. -/
def targetChange (dc : DiffComputer) (sourceMap : HashMap Text ManifestEntry)
    (file : Text × ManifestEntry) : Option FileChange :=
  match sourceMap.lookup file.1 with
  | none => some (dc.addedChange file.1 file.2)
  | some sourceEntry =>
    if sourceEntry.contentHash ≠ file.2.contentHash then
      some (dc.contentChange file.1 sourceEntry file.2)
    else none

/-- The change of one file of the source. -/
def sourceChange (targetMap : HashMap Text ManifestEntry) (file : Text × ManifestEntry) :
    Option FileChange :=
  if file.1 ∉ targetMap then some (deletedChange file.1 file.2) else none

@[simp] lemma path_addedChange (path : Text) (e : ManifestEntry) :
    (dc.addedChange path e).path = path := rfl

@[simp] lemma path_contentChange (path : Text) (e e' : ManifestEntry) :
    (dc.contentChange path e e').path = path := by
  unfold contentChange
  split_ifs <;> rfl

@[simp] lemma targetEntry_contentChange (path : Text) (e e' : ManifestEntry) :
    (dc.contentChange path e e').targetEntry = some e' := by
  unfold contentChange
  split_ifs <;> rfl

lemma changeType_contentChange (path : Text) (e e' : ManifestEntry) :
    (dc.contentChange path e e').changeType = .modified ∨
      (dc.contentChange path e e').changeType = .metadataOnly := by
  unfold contentChange
  split_ifs
  · exact .inr rfl
  · exact .inl rfl

lemma changes_visitTarget {sourceMap : HashMap Text ManifestEntry} {acc acc' : DiffAcc}
    {file : Text × ManifestEntry}
    (h : dc.visitTarget overflowChecks sourceMap acc file = some acc') :
    acc'.changes = acc.changes ++ (dc.targetChange sourceMap file).toList := by
  obtain ⟨path, targetEntry⟩ := file
  simp only [visitTarget] at h
  unfold targetChange
  cases hlookup : sourceMap.lookup path with
  | none =>
    simp only [hlookup, Option.bind_eq_bind, Option.bind_eq_some_iff] at h
    obtain ⟨bytes, -, h⟩ := h
    rw [← Option.some.inj h]
    rfl
  | some own =>
    simp only [hlookup] at h ⊢
    split_ifs at h with hcontent hmeta
    · rw [← Option.some.inj h, if_pos hcontent, contentChange, if_pos hmeta]
      rfl
    · simp only [Option.bind_eq_bind, Option.bind_eq_some_iff] at h
      obtain ⟨bytes, -, h⟩ := h
      rw [← Option.some.inj h, if_pos hcontent, contentChange, if_neg hmeta]
      rfl
    · rw [← Option.some.inj h, if_neg hcontent]
      simp

lemma changes_visitSource {targetMap : HashMap Text ManifestEntry} {acc acc' : DiffAcc}
    {file : Text × ManifestEntry} (h : visitSource overflowChecks targetMap acc file = some acc') :
    acc'.changes = acc.changes ++ (sourceChange targetMap file).toList := by
  simp only [visitSource] at h
  unfold sourceChange
  split_ifs at h with hmem
  · rw [← Option.some.inj h, if_neg (not_not.mpr hmem)]
    simp
  · simp only [Option.bind_eq_bind, Option.bind_eq_some_iff] at h
    obtain ⟨bytes, -, h⟩ := h
    rw [← Option.some.inj h, if_pos hmem]
    rfl

/-- A loop whose every step contributes a change at most collects them. -/
lemma changes_foldlM {step : DiffAcc → Text × ManifestEntry → Option DiffAcc}
    {change : Text × ManifestEntry → Option FileChange}
    (hstep : ∀ {acc acc' file}, step acc file = some acc' →
      acc'.changes = acc.changes ++ (change file).toList)
    {files : List (Text × ManifestEntry)} {acc acc' : DiffAcc}
    (h : files.foldlM step acc = some acc') :
    acc'.changes = acc.changes ++ files.filterMap change := by
  induction files generalizing acc with
  | nil =>
    rw [← Option.some.inj h]
    simp
  | cons file files ih =>
    simp only [List.foldlM_cons, Option.bind_eq_bind, Option.bind_eq_some_iff] at h
    obtain ⟨next, hnext, h⟩ := h
    rw [ih h, hstep hnext, List.append_assoc, List.filterMap_cons]
    cases change file <;> rfl

/-- **The changes of a diff**, up to their order: those of the files of the target, and those of the
files of the source. -/
theorem changes_perm (h : dc.computeDiff blake3 overflowChecks orders source target = some diff) :
    diff.changes.Perm
      ((orders.target.entries target.fileMap).filterMap (dc.targetChange source.fileMap) ++
        (orders.source.entries source.fileMap).filterMap (sourceChange target.fileMap)) := by
  simp only [computeDiff, Option.bind_eq_bind, Option.bind_eq_some_iff] at h
  obtain ⟨acc₁, htarget, acc₂, hsource, h⟩ := h
  have hchanges : diff.changes.Perm acc₂.changes := by
    rw [← Option.some.inj h]
    exact List.mergeSort_perm _ _
  have h₁ := changes_foldlM (fun hstep => changes_visitTarget hstep) htarget
  have h₂ := changes_foldlM (fun hstep => changes_visitSource hstep) hsource
  rw [h₂, h₁] at hchanges
  exact hchanges

/-- **What the changes of a diff are**: the files of the target that are new, those whose content
differs, and the files of the source that are gone. -/
theorem mem_changes (h : dc.computeDiff blake3 overflowChecks orders source target = some diff)
    {c : FileChange} : c ∈ diff.changes ↔
      (∃ path e, target.fileMap.lookup path = some e ∧ path ∉ source.fileMap ∧
        c = dc.addedChange path e) ∨
      (∃ path own e, target.fileMap.lookup path = some e ∧ source.fileMap.lookup path = some own ∧
        own.contentHash ≠ e.contentHash ∧ c = dc.contentChange path own e) ∨
      ∃ path own, source.fileMap.lookup path = some own ∧ path ∉ target.fileMap ∧
        c = deletedChange path own := by
  rw [(changes_perm h).mem_iff, List.mem_append, ← or_assoc]
  refine or_congr ?_ ?_
  · simp only [List.mem_filterMap, Prod.exists, orders.target.mem_entries, targetChange]
    constructor
    · rintro ⟨path, e, hlookup, hchange⟩
      cases hown : source.fileMap.lookup path with
      | none =>
        rw [hown] at hchange
        exact .inl ⟨path, e, hlookup, Finmap.lookup_eq_none.mp hown, (Option.some.inj hchange).symm⟩
      | some own =>
        rw [hown] at hchange
        dsimp only at hchange
        split_ifs at hchange with hcontent
        exact .inr ⟨path, own, e, hlookup, hown, hcontent, (Option.some.inj hchange).symm⟩
    · rintro (⟨path, e, hlookup, hnew, rfl⟩ | ⟨path, own, e, hlookup, hown, hcontent, rfl⟩)
      · exact ⟨path, e, hlookup, by rw [Finmap.lookup_eq_none.mpr hnew]⟩
      · exact ⟨path, e, hlookup, by simp [hown, hcontent]⟩
  · simp only [List.mem_filterMap, Prod.exists, orders.source.mem_entries, sourceChange]
    refine exists_congr fun path => exists_congr fun own => and_congr_right fun _ => ?_
    by_cases hmem : path ∈ target.fileMap
    · simp [hmem]
    · simp [hmem, eq_comm]

/-- **A diff deletes exactly the files of its source that its target does not have**, in any order
of iteration. -/
theorem deletes_iff (h : dc.computeDiff blake3 overflowChecks orders source target = some diff)
    {path : Text} : Deletes diff.changes path ↔ path ∈ source.fileMap ∧ path ∉ target.fileMap := by
  constructor
  · rintro ⟨c, hc, htype, rfl⟩
    rcases (mem_changes h).mp hc with ⟨path, e, -, -, rfl⟩ | ⟨path, own, e, -, -, -, rfl⟩ |
      ⟨path, own, hown, hgone, rfl⟩
    · cases htype
    · -- a file in both is not deleted
      have hkind : (dc.contentChange path own e).changeType = .modified ∨
          (dc.contentChange path own e).changeType = .metadataOnly :=
        changeType_contentChange path own e
      rcases hkind with hkind | hkind
      · cases hkind.symm.trans htype
      · cases hkind.symm.trans htype
    · exact ⟨Finmap.mem_iff.mpr ⟨own, hown⟩, hgone⟩
  · rintro ⟨hmem, hgone⟩
    obtain ⟨own, hown⟩ := Finmap.mem_iff.mp hmem
    exact ⟨_, (mem_changes h).mpr (.inr (.inr ⟨path, own, hown, hgone, rfl⟩)), rfl, rfl⟩

lemma map_path_sublist {change : Text × ManifestEntry → Option FileChange}
    (hpath : ∀ {file c}, change file = some c → c.path = file.1)
    (files : List (Text × ManifestEntry)) :
    ((files.filterMap change).map FileChange.path).Sublist (files.map Prod.fst) := by
  induction files with
  | nil => simp
  | cons file files ih =>
    rw [List.filterMap_cons, List.map_cons]
    cases hchange : change file with
    | none => exact ih.cons _
    | some c =>
      rw [List.map_cons, hpath hchange]
      exact ih.cons_cons _

/-- **No path occurs in two changes.** -/
theorem nodup_changes
    (h : dc.computeDiff blake3 overflowChecks orders source target = some diff) :
    (diff.changes.map FileChange.path).Nodup := by
  have htarget : ∀ {file c}, dc.targetChange source.fileMap file = some c → c.path = file.1 := by
    intro file c hchange
    unfold targetChange at hchange
    split at hchange
    · rw [← Option.some.inj hchange, path_addedChange]
    · split_ifs at hchange
      rw [← Option.some.inj hchange, path_contentChange]
  have hsource : ∀ {file c}, sourceChange target.fileMap file = some c →
      c.path = file.1 ∧ file.1 ∉ target.fileMap := by
    intro file c hchange
    unfold sourceChange at hchange
    split_ifs at hchange with hmem
    rw [← Option.some.inj hchange]
    exact ⟨rfl, hmem⟩
  rw [((changes_perm h).map _).nodup_iff, List.map_append]
  refine List.Nodup.append
    ((orders.target.nodup_fst_entries _).sublist (map_path_sublist htarget _))
    ((orders.source.nodup_fst_entries _).sublist (map_path_sublist (fun h => (hsource h).1) _)) ?_
  intro path hin hout
  obtain ⟨⟨key, e⟩, hentry, rfl⟩ := List.mem_map.mp ((map_path_sublist htarget _).subset hin)
  obtain ⟨c, hc, hpath⟩ := List.mem_map.mp hout
  obtain ⟨file, -, hchange⟩ := List.mem_filterMap.mp hc
  obtain ⟨hpath', hgone⟩ := hsource hchange
  refine hgone (Finmap.mem_iff.mpr ⟨e, ?_⟩)
  rw [← hpath', hpath]
  exact orders.target.mem_entries.mp hentry

end Changes

/-! ## Agreement -/

/-- The changes of a diff are the differences of the manifests: the added, modified and deleted
files are the same, and each of their paths occurs in exactly one change. -/
structure Agrees (diff : DiffResult) (d : ManifestDiff) : Prop where
  added : ∀ file, file ∈ d.added ↔
    ∃ c ∈ diff.changes, c.changeType = .added ∧ c.targetEntry = some file
  modified : ∀ file, file ∈ d.modified ↔
    ∃ c ∈ diff.changes, (c.changeType = .modified ∨ c.changeType = .metadataOnly) ∧
      c.targetEntry = some file
  deleted : ∀ file, file ∈ d.deleted ↔
    ∃ c ∈ diff.changes, c.changeType = .deleted ∧ c.sourceEntry = some file
  once : ∀ path, path ∈ (d.added ++ d.modified ++ d.deleted).map ManifestEntry.path ↔
    ∃! c, c ∈ diff.changes ∧ c.path = path

section Agreement

variable {dc : DiffComputer} {blake3 : Bytes → ContentHash} {overflowChecks : Bool}
  {orders : DiffOrders} {source target : Manifest} {diff : DiffResult}

/-- The paths of the changes are those of the differences. -/
lemma exists_change_iff (otherOrder selfOrder : IterOrder Text)
    (h : dc.computeDiff blake3 overflowChecks orders source target = some diff) (path : Text) :
    (∃ c ∈ diff.changes, c.path = path) ↔
      (∃ file ∈ (source.diff otherOrder selfOrder target).added, file.path = path) ∨
      (∃ file ∈ (source.diff otherOrder selfOrder target).modified, file.path = path) ∨
      ∃ file ∈ (source.diff otherOrder selfOrder target).deleted, file.path = path := by
  simp only [mem_changes h, Manifest.mem_added, Manifest.mem_modified, Manifest.mem_deleted]
  constructor
  · rintro ⟨c, ⟨_, e, hlookup, hnew, rfl⟩ | ⟨_, own, e, hlookup, hown, hcontent, rfl⟩ |
      ⟨_, own, hlookup, hgone, rfl⟩, rfl⟩
    · obtain ⟨-, rfl⟩ := Manifest.path_of_lookup_fileMap hlookup
      exact .inl ⟨e, ⟨hlookup, hnew⟩, rfl⟩
    · obtain ⟨-, rfl⟩ := Manifest.path_of_lookup_fileMap hlookup
      exact .inr (.inl ⟨e, ⟨hlookup, own, hown, hcontent⟩, by rw [path_contentChange]⟩)
    · obtain ⟨-, rfl⟩ := Manifest.path_of_lookup_fileMap hlookup
      exact .inr (.inr ⟨own, ⟨hlookup, hgone⟩, rfl⟩)
  · rintro (⟨e, ⟨hlookup, hnew⟩, rfl⟩ | ⟨e, ⟨hlookup, own, hown, hcontent⟩, rfl⟩ |
      ⟨own, ⟨hlookup, hgone⟩, rfl⟩)
    · exact ⟨_, .inl ⟨_, _, hlookup, hnew, rfl⟩, rfl⟩
    · exact ⟨_, .inr (.inl ⟨_, _, _, hlookup, hown, hcontent, rfl⟩), path_contentChange ..⟩
    · exact ⟨_, .inr (.inr ⟨_, _, hlookup, hgone, rfl⟩), rfl⟩

lemma agrees_of_computeDiff (otherOrder selfOrder : IterOrder Text)
    (h : dc.computeDiff blake3 overflowChecks orders source target = some diff) :
    Agrees diff (source.diff otherOrder selfOrder target) where
  added file := by
    rw [Manifest.mem_added]
    constructor
    · rintro ⟨hlookup, hnew⟩
      exact ⟨_, (mem_changes h).mpr (.inl ⟨_, _, hlookup, hnew, rfl⟩), rfl, rfl⟩
    · rintro ⟨c, hc, htype, hentry⟩
      rcases (mem_changes h).mp hc with ⟨path, e, hlookup, hnew, rfl⟩ |
        ⟨path, own, e, -, -, -, rfl⟩ | ⟨path, own, -, -, rfl⟩
      · obtain rfl := Option.some.inj hentry
        obtain ⟨-, rfl⟩ := Manifest.path_of_lookup_fileMap hlookup
        exact ⟨hlookup, hnew⟩
      · rcases dc.changeType_contentChange path own e with hmod | hmod <;> simp [hmod] at htype
      · cases htype
  modified file := by
    rw [Manifest.mem_modified]
    constructor
    · rintro ⟨hlookup, own, hown, hcontent⟩
      exact ⟨_, (mem_changes h).mpr (.inr (.inl ⟨_, _, _, hlookup, hown, hcontent, rfl⟩)),
        changeType_contentChange .., targetEntry_contentChange ..⟩
    · rintro ⟨c, hc, htype, hentry⟩
      rcases (mem_changes h).mp hc with ⟨path, e, -, -, rfl⟩ |
        ⟨path, own, e, hlookup, hown, hcontent, rfl⟩ | ⟨path, own, -, -, rfl⟩
      · simp [addedChange] at htype
      · rw [targetEntry_contentChange] at hentry
        obtain rfl := Option.some.inj hentry
        obtain ⟨-, rfl⟩ := Manifest.path_of_lookup_fileMap hlookup
        exact ⟨hlookup, own, hown, hcontent⟩
      · simp [deletedChange] at htype
  deleted file := by
    rw [Manifest.mem_deleted]
    constructor
    · rintro ⟨hlookup, hgone⟩
      exact ⟨_, (mem_changes h).mpr (.inr (.inr ⟨_, _, hlookup, hgone, rfl⟩)), rfl, rfl⟩
    · rintro ⟨c, hc, htype, hentry⟩
      rcases (mem_changes h).mp hc with ⟨path, e, -, -, rfl⟩ |
        ⟨path, own, e, -, -, -, rfl⟩ | ⟨path, own, hlookup, hgone, rfl⟩
      · cases htype
      · rcases dc.changeType_contentChange path own e with hmod | hmod <;> simp [hmod] at htype
      · obtain rfl := Option.some.inj hentry
        obtain ⟨-, rfl⟩ := Manifest.path_of_lookup_fileMap hlookup
        exact ⟨hlookup, hgone⟩
  once path := by
    have hpaths := exists_change_iff otherOrder selfOrder h path
    have hmem : path ∈ ((source.diff otherOrder selfOrder target).added ++
        (source.diff otherOrder selfOrder target).modified ++
        (source.diff otherOrder selfOrder target).deleted).map ManifestEntry.path ↔
        ∃ c ∈ diff.changes, c.path = path := by
      rw [hpaths]
      simp only [List.map_append, List.mem_append, List.mem_map, or_assoc]
    rw [hmem]
    constructor
    · rintro ⟨c, hc, hpath⟩
      exact ⟨c, ⟨hc, hpath⟩, fun c' hc' => List.inj_on_of_nodup_map (nodup_changes h) hc'.1 hc
        (hc'.2.trans hpath.symm)⟩
    · rintro ⟨c, hc, -⟩
      exact ⟨c, hc⟩

variable (dc blake3 orders source target) in
/-- **The two ways to compare manifests agree**, whatever the manifests list, whatever chunks are in
the cache and in whatever orders the maps are visited. A diff is only missing where a build with
overflow checks panics.

**Proof sketch.** Both look up the same maps. A change of content is of one of two types, and the
keys of a map are visited once. -/
theorem diff_agrees_computeDiff (otherOrder selfOrder : IterOrder Text) :
    (∃ diff, dc.computeDiff blake3 false orders source target = some diff) ∧
    ∀ overflowChecks diff, dc.computeDiff blake3 overflowChecks orders source target = some diff →
      Agrees diff (source.diff otherOrder selfOrder target) :=
  ⟨exists_computeDiff dc blake3 orders source target, fun _ _ h =>
    agrees_of_computeDiff otherOrder selfOrder h⟩

end Agreement

section Examples

/-- A manifest that lists a path twice. -/
private def listedTwice : Manifest :=
  { folderId := "folder".toList
    version := 1
    files := [⟨"a".toList, 1, ⟨0, 0⟩, "00".toList, ["01".toList], none⟩,
      ⟨"a".toList, 2, ⟨0, 0⟩, "02".toList, ["03".toList], none⟩]
    createdAt := ⟨0, 0⟩
    manifestHash := none }

/-- The two agree where a path is listed twice, by a manifest that replaces one without files. -/
theorem diff_agrees_computeDiff_listedTwice :
    ∃ diff, (DiffComputer.new ∅).computeDiff ContentHash.blake3Sample false
      ⟨.sorted Text, .sorted Text, .sorted Text⟩ (.new ⟨0, 0⟩ "folder".toList 1) listedTwice =
        some diff ∧
    Agrees diff ((Manifest.new ⟨0, 0⟩ "folder".toList 1).diff (.sorted Text) (.sorted Text)
      listedTwice) := by
  obtain ⟨⟨diff, h⟩, hall⟩ := diff_agrees_computeDiff (.new ∅) ContentHash.blake3Sample
    ⟨.sorted Text, .sorted Text, .sorted Text⟩ (.new ⟨0, 0⟩ "folder".toList 1) listedTwice
    (.sorted Text) (.sorted Text)
  exact ⟨diff, h, hall false diff h⟩

end Examples

end DiffComputer

end Landropic
