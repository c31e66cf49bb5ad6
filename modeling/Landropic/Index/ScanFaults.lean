import Landropic.Index.Rescans
import Landropic.Sync.DiffAgreement

set_option autoImplicit false

/-!
# Files that fail to be indexed

A run leaves a file out that fails, and a diff takes a file that is left out for a deleted one.

## Main definitions

* `FileIndexer.Present` — a regular file is in a folder, and it is not ignored.
* `FileIndexer.KeepsPresent` — no file that is present in two runs is deleted by the diff between
  them.
* `FileIndexer.StaysIndexed` — such a file is indexed in the second run if it was in the first one.

## Main results

* `FileIndexer.keepsPresent_iff` — the two are the same, in every sequence of runs.
-/

namespace Landropic

namespace FileIndexer

section Definitions

variable (ix : FileIndexer) (blake3 : Bytes → ContentHash) (json : ChunkListJson)

/-- A regular file is in a folder, where the walk sees it. -/
def Present (scan : Scan) (path : RelPath) : Prop :=
  ix.Listed scan.tree path ∧ ∃ data, scan.tree.lookup path = some (.file data)

/-- A diff between two manifests deletes the file with a path, whichever of the two diffs it is. -/
def DeletedBetween (m m' : Manifest) (path : Text) : Prop :=
  (∃ otherOrder selfOrder,
    path ∈ (m.diff otherOrder selfOrder m').deleted.map ManifestEntry.path) ∨
  ∃ (dc : DiffComputer) (overflowChecks : Bool) (orders : DiffOrders) (diff : DiffResult),
    dc.computeDiff blake3 overflowChecks orders m m' = some diff ∧
      DiffComputer.Deletes diff.changes path

/-- The database after some runs. -/
def afterRuns (db : Database) (scans : List Scan) : Database :=
  scans.foldl (fun db scan => (ix.indexFolder blake3 json scan db).2) db

/-- If two consecutive runs over a folder return manifests, no file that is present in both is
deleted between them. -/
def KeepsPresent (db : Database) (first second : Scan) : Prop :=
  ∀ m m', (ix.indexFolder blake3 json first db).1 = .ok m →
    (ix.indexFolder blake3 json second (ix.indexFolder blake3 json first db).2).1 = .ok m' →
    first.folderPath = second.folderPath → ∀ path, ix.Present first path → ix.Present second path →
      ¬ DeletedBetween blake3 m m' (pathText first path)

/-- If two consecutive runs over a folder return manifests, a file that is present in both and
indexed in the first is indexed in the second. -/
def StaysIndexed (db : Database) (first second : Scan) : Prop :=
  ∀ m m', (ix.indexFolder blake3 json first db).1 = .ok m →
    (ix.indexFolder blake3 json second (ix.indexFolder blake3 json first db).2).1 = .ok m' →
    first.folderPath = second.folderPath → ∀ path, ix.Present first path → ix.Present second path →
      ix.Shown first (pathText first path) → ix.Shown second (pathText first path)

end Definitions

section Runs

variable {ix : FileIndexer} {blake3 : Bytes → ContentHash} {json : ChunkListJson}
  {first second : Scan} {db : Database} {m m' : Manifest} {text : Text}

/-- **What is deleted between two manifests**, by either diff. -/
lemma deletedBetween_iff : DeletedBetween blake3 m m' text ↔
    (∃ entry ∈ m.files, entry.path = text) ∧ ¬ ∃ entry ∈ m'.files, entry.path = text := by
  rw [← Manifest.mem_fileMap, ← Manifest.mem_fileMap]
  constructor
  · rintro (⟨otherOrder, selfOrder, hmem⟩ | ⟨dc, overflowChecks, orders, diff, hdiff, hdeletes⟩)
    · obtain ⟨entry, hentry, rfl⟩ := List.mem_map.mp hmem
      obtain ⟨hlookup, hgone⟩ := Manifest.mem_deleted.mp hentry
      exact ⟨Finmap.mem_iff.mpr ⟨entry, hlookup⟩, hgone⟩
    · exact (DiffComputer.deletes_iff hdiff).mp hdeletes
  · rintro ⟨hmem, hgone⟩
    obtain ⟨entry, hlookup⟩ := Finmap.mem_iff.mp hmem
    obtain ⟨-, rfl⟩ := Manifest.path_of_lookup_fileMap hlookup
    refine .inl ⟨.sorted Text, .sorted Text, ?_⟩
    exact List.mem_map.mpr ⟨entry, Manifest.mem_deleted.mpr ⟨hlookup, hgone⟩, rfl⟩

/-- **Two consecutive runs.** A file that is present in both is deleted between them if it is
indexed in the first alone. -/
lemma keepsPresent_iff_staysIndexed : KeepsPresent ix blake3 json db first second ↔
    StaysIndexed ix blake3 json db first second := by
  refine forall₄_congr fun m m' hfirst hsecond => forall₄_congr fun _ path _ _ => ?_
  rw [deletedBetween_iff, (describes_of_ok hfirst).exists_path_iff,
    (describes_of_ok hsecond).exists_path_iff, not_and, not_not]

/-- **When no file that is present is deleted**, in a sequence of runs: if each file that is present
in two consecutive runs and indexed in the first of them is indexed in the second. -/
theorem keepsPresent_iff (ix : FileIndexer) (blake3 : Bytes → ContentHash) (json : ChunkListJson)
    (scans : List Scan) :
    (∀ before first second after, scans = before ++ first :: second :: after →
      KeepsPresent ix blake3 json (afterRuns ix blake3 json .empty before) first second) ↔
    ∀ before first second after, scans = before ++ first :: second :: after →
      StaysIndexed ix blake3 json (afterRuns ix blake3 json .empty before) first second :=
  forall₅_congr fun _ _ _ _ _ => keepsPresent_iff_staysIndexed

end Runs

/-! ## A file that cannot be read -/

/-- A run over `/` in which no file can be read. -/
def unreadable : Scan :=
  { Scan.over [47] emptyFile with fileFault := fun _ => some (0, .io "Permission denied") }

/-- **A file that cannot be read is deleted.** -/
theorem not_keepsPresent_unreadable : ∃ json : ChunkListJson, json.toText [] = "[]".toList ∧
    ¬ ∀ scans before first second after, scans = before ++ first :: second :: after →
      KeepsPresent .default pathSample json (afterRuns .default pathSample json .empty before) first
        second := by
  obtain ⟨json, hjson⟩ := ChunkListJson.exists_empty
  refine ⟨json, hjson, fun h => ?_⟩
  have hstays := keepsPresent_iff_staysIndexed.mp
    (h [Scan.over [47] emptyFile, unreadable] [] (Scan.over [47] emptyFile) unreadable [] rfl)
  have hroot : Text.toStringLossy [47] = ['/'] := by decide +kernel
  have hcounted : Counted .empty (pathToFolderId pathSample [47]) 0 := by
    intro version
    refine iff_of_false (fun hmem => ?_) (by omega)
    exact Finmap.notMem_empty (Database.mem_versions.mp hmem)
  -- the first run returns a manifest of version 1
  obtain ⟨m, db', hfirst, -, -, hcounted'⟩ := run_of_distinct json hroot hcounted (by decide)
    (Scan.clean_over [47] emptyFile) distinct_emptyFile
  -- and the second one of version 2, although it indexes nothing
  have hcanonical : unreadable.canonicalPath = .ok [47] := rfl
  obtain ⟨m', hfolder, hversion, -, hcases⟩ := indexFolder_cases .default pathSample json unreadable
    db' hcanonical fun _ _ => rfl
  rw [nextVersion_of_counted hroot hcounted' (by decide)] at hversion
  have hnew : Database.manifestKey m' ∉ db'.manifests := by
    rw [Database.manifestKey, ← Database.mem_versions, hfolder, hcounted', hversion,
      storedVersion_ofNat (by decide)]
    decide
  have hnothing : FileIndexer.default.Distinct unreadable := by
    intro _ _ hpath
    cases hpath.2.1
  obtain ⟨-, -, db'', row, hsecond, -⟩ | ⟨hnot, -⟩ := hcases
  swap
  · exact hnot ⟨hnew, hnothing⟩
  have hpresent : FileIndexer.default.Present (Scan.over [47] emptyFile) [[97]] :=
    ⟨listed_emptyFile.mpr rfl, _, Finmap.lookup_insert _⟩
  have hrun : (FileIndexer.default.indexFolder pathSample json (Scan.over [47] emptyFile)
      .empty).1 = .ok m := by rw [hfirst]
  have hrun' : (FileIndexer.default.indexFolder pathSample json unreadable
      (FileIndexer.default.indexFolder pathSample json (Scan.over [47] emptyFile) .empty).2).1 =
        .ok m' := by rw [hfirst, hsecond]
  obtain ⟨path, hpath, -⟩ :=
    hstays m m' hrun hrun' rfl [[97]] hpresent hpresent ⟨[[97]], indexed_emptyFile, rfl⟩
  cases hpath.2.1

end FileIndexer

end Landropic
