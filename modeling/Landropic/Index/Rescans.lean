import Landropic.Index.Indexer

set_option autoImplicit false

/-!
# Versions of a folder

A folder is indexed again and again. The version of a manifest is looked up under the path of the
folder, but manifests are saved under `/`.

## Main definitions

* `FileIndexer.CountsUp` — the versions of the manifests count up from one.

## Main results

* `FileIndexer.countsUp_iff` — when they do.
-/

namespace Landropic

namespace FileIndexer

/-- The runs that follow the first `k` ones return manifests whose versions count up, and the latest
version that is found after a run is that of its manifest. -/
def CountsUp (ix : FileIndexer) (blake3 : Bytes → ContentHash) (json : ChunkListJson)
    (canonicalPath : Bytes) : ℕ → Database → List Scan → Prop
  | _, _, [] => True
  | k, db, scan :: rest => ∃ m db', ix.indexFolder blake3 json scan db = (.ok m, db') ∧
      m.version.toNat = k + 1 ∧
      db'.getLatestManifestVersion (pathToFolderId blake3 canonicalPath)
        (Text.toStringLossy canonicalPath) = some m.version ∧
      CountsUp ix blake3 json canonicalPath (k + 1) db' rest

section Versions

variable {ix : FileIndexer} {blake3 : Bytes → ContentHash} {json : ChunkListJson}
  {canonicalPath : Bytes} {scan : Scan} {scans : List Scan} {db db' : Database} {k : ℕ}

lemma storedVersion_ofNat {n : ℕ} (h : n < 2 ^ 63) :
    Database.storedVersion (UInt64.ofNat n) = n := by
  have hn : (UInt64.ofNat n).toBitVec.toNat = n := by
    simp
    omega
  rw [Database.storedVersion, ← Int64.toInt_toBitVec]
  show (UInt64.ofNat n).toBitVec.toInt = n
  rw [BitVec.toInt_eq_toNat_of_lt (by rw [hn]; omega), hn]

/-- The manifests of a folder have the versions from one to `k`. -/
def Counted (db : Database) (folderId : Text) (k : ℕ) : Prop :=
  ∀ version : ℤ, version ∈ db.versions folderId ['/'] ↔ 1 ≤ version ∧ version ≤ k

lemma getLatestManifestVersion_of_counted {folderId : Text} (h : Counted db folderId k)
    (hk : k < 2 ^ 63) : (db.getLatestManifestVersion folderId ['/']).getD 0 = UInt64.ofNat k ∧
      (k ≠ 0 → db.getLatestManifestVersion folderId ['/'] = some (UInt64.ofNat k)) := by
  cases k with
  | zero =>
    have hnone : db.latestVersion folderId ['/'] = none := by
      rw [Database.latestVersion_eq_none_iff, Finset.eq_empty_iff_forall_notMem]
      intro version hversion
      obtain ⟨hone, hzero⟩ := (h version).mp hversion
      omega
    rw [Database.getLatestManifestVersion, hnone]
    exact ⟨rfl, fun hne => absurd rfl hne⟩
  | succ k =>
    have hsome : db.latestVersion folderId ['/'] =
        some (Database.storedVersion (UInt64.ofNat (k + 1))) := by
      rw [Database.latestVersion_eq_some_iff, storedVersion_ofNat hk]
      exact ⟨(h _).mpr ⟨by omega, le_refl _⟩, fun other hother => ((h other).mp hother).2⟩
    rw [Database.getLatestManifestVersion, hsome, Option.map_some,
      Database.readVersion_storedVersion]
    exact ⟨rfl, fun _ => rfl⟩

/-- The versions of a folder after a manifest has been saved. -/
lemma mem_versions_insert {m : Manifest} {row : ManifestRow}
    (h : db'.manifests = db.manifests.insert (Database.manifestKey m) row) {folderPath : Text}
    {version : ℤ} : version ∈ db'.versions m.folderId folderPath ↔
      (folderPath = ['/'] ∧ version = Database.storedVersion m.version) ∨
        version ∈ db.versions m.folderId folderPath := by
  rw [Database.mem_versions, h, Finmap.mem_insert, Database.mem_versions, Database.manifestKey]
  simp

/-- The manifest of a run over `/`, which has been indexed `k` times. -/
lemma nextVersion_of_counted (hroot : Text.toStringLossy canonicalPath = ['/'])
    (hcounted : Counted db (pathToFolderId blake3 canonicalPath) k) (hk : k < 2 ^ 63) :
    nextVersion blake3 db canonicalPath = UInt64.ofNat (k + 1) := by
  rw [nextVersion, hroot, (getLatestManifestVersion_of_counted hcounted hk).1, UInt64.ofNat_add]
  rfl

/-- **A run counts on** if the files it indexes have distinct paths. -/
lemma run_of_distinct (json : ChunkListJson) (hroot : Text.toStringLossy canonicalPath = ['/'])
    (hcounted : Counted db (pathToFolderId blake3 canonicalPath) k) (hk : k + 1 < 2 ^ 63)
    (hscan : scan.Clean canonicalPath) (hdistinct : ix.Distinct scan) :
    ∃ m db', ix.indexFolder blake3 json scan db = (.ok m, db') ∧ m.version.toNat = k + 1 ∧
      db'.getLatestManifestVersion (pathToFolderId blake3 canonicalPath)
        (Text.toStringLossy canonicalPath) = some m.version ∧
      Counted db' (pathToFolderId blake3 canonicalPath) (k + 1) := by
  obtain ⟨m, hfolder, hversion, -, hcases⟩ := indexFolder_cases ix blake3 json scan db
    hscan.canonicalPath fun dir _ => hscan.dirFault dir
  rw [nextVersion_of_counted hroot hcounted (Nat.lt_of_succ_lt hk)] at hversion
  have hstored : Database.storedVersion m.version = (k + 1 : ℕ) := by
    rw [hversion, storedVersion_ofNat hk]
  have hnew : Database.manifestKey m ∉ db.manifests := by
    rw [Database.manifestKey, ← Database.mem_versions, hfolder, hcounted, hstored]
    omega
  obtain ⟨-, -, db', row, hok, hinsert⟩ | ⟨hnot, -⟩ := hcases
  swap
  · exact absurd ⟨hnew, hdistinct⟩ hnot
  have hcounted' : Counted db' (pathToFolderId blake3 canonicalPath) (k + 1) := by
    intro version
    rw [← hfolder, mem_versions_insert hinsert, hfolder, hcounted, hstored]
    push_cast
    constructor
    · rintro (⟨-, rfl⟩ | ⟨hone, hle⟩) <;> omega
    · rintro ⟨hone, hle⟩
      by_cases hlast : version = k + 1
      · exact .inl ⟨rfl, hlast⟩
      · exact .inr ⟨hone, by omega⟩
  refine ⟨m, db', hok, ?_, ?_, hcounted'⟩
  · rw [hversion, UInt64.toNat_ofNat', Nat.mod_eq_of_lt (hk.trans (by decide))]
  · rw [hroot, (getLatestManifestVersion_of_counted hcounted' hk).2 (Nat.succ_ne_zero k), hversion]

/-- **A run that counts on** indexes files with distinct paths, and the version is not too large to
be the greatest with a sign. -/
lemma distinct_of_run (hroot : Text.toStringLossy canonicalPath = ['/'])
    (hcounted : Counted db (pathToFolderId blake3 canonicalPath) k) (hk : k < 2 ^ 63)
    (hscan : scan.Clean canonicalPath) {m : Manifest}
    (hrun : ix.indexFolder blake3 json scan db = (.ok m, db'))
    (hlatest : db'.getLatestManifestVersion (pathToFolderId blake3 canonicalPath)
      (Text.toStringLossy canonicalPath) = some m.version) :
    ix.Distinct scan ∧ k + 1 < 2 ^ 63 := by
  obtain ⟨m', hfolder, hversion, -, hcases⟩ := indexFolder_cases ix blake3 json scan db
    hscan.canonicalPath fun dir _ => hscan.dirFault dir
  rw [nextVersion_of_counted hroot hcounted hk] at hversion
  obtain ⟨-, hdistinct, db'', row, hok, hinsert⟩ | ⟨-, e, db'', herror, -⟩ := hcases
  swap
  · exact absurd (hrun.symm.trans herror) nofun
  obtain ⟨hm, rfl⟩ := Prod.mk.inj (hrun.symm.trans hok)
  obtain rfl := Except.ok.inj hm
  refine ⟨hdistinct, ?_⟩
  by_contra hlarge
  -- the version is stored as the least number, so that the one before it stays the latest
  obtain rfl : k = 2 ^ 63 - 1 := by omega
  have hstored : Database.storedVersion m.version = -2 ^ 63 := by
    rw [hversion]
    decide
  have hlast : db'.latestVersion (pathToFolderId blake3 canonicalPath) ['/'] =
      some (2 ^ 63 - 1 : ℤ) := by
    rw [Database.latestVersion_eq_some_iff]
    rw [← hfolder, mem_versions_insert hinsert]
    refine ⟨.inr ?_, fun other hother => ?_⟩
    · rw [hfolder, hcounted]
      norm_num
    · rw [mem_versions_insert hinsert, hfolder, hcounted, hstored] at hother
      obtain ⟨-, rfl⟩ | ⟨-, hle⟩ := hother
      · norm_num
      · simpa using hle
  rw [hroot, Database.getLatestManifestVersion, hlast, hversion, Option.map_some,
    Option.some_inj] at hlatest
  exact absurd hlatest (by decide)

/-- Runs over `/`, which has been indexed `k` times. -/
lemma countsUp_iff_of_counted (hroot : Text.toStringLossy canonicalPath = ['/'])
    (hcounted : Counted db (pathToFolderId blake3 canonicalPath) k) (hk : k < 2 ^ 63)
    (hscans : ∀ scan ∈ scans, scan.Clean canonicalPath) :
    CountsUp ix blake3 json canonicalPath k db scans ↔
      k + scans.length < 2 ^ 63 ∧ ∀ scan ∈ scans, ix.Distinct scan := by
  induction scans generalizing k db with
  | nil => exact iff_of_true trivial ⟨hk, nofun⟩
  | cons scan rest ih =>
    rw [List.forall_mem_cons] at hscans ⊢
    rw [List.length_cons]
    constructor
    · rintro ⟨m, db', hrun, hversion, hlatest, hrest⟩
      obtain ⟨hdistinct, hk'⟩ := distinct_of_run hroot hcounted hk hscans.1 hrun hlatest
      obtain ⟨m', db'', hrun', -, -, hcounted'⟩ :=
        run_of_distinct json hroot hcounted hk' hscans.1 hdistinct
      obtain ⟨-, rfl⟩ := Prod.mk.inj (hrun.symm.trans hrun')
      obtain ⟨hlength, hall⟩ := (ih hcounted' hk' hscans.2).mp hrest
      exact ⟨by omega, hdistinct, hall⟩
    · rintro ⟨hlength, hdistinct, hall⟩
      obtain ⟨m, db', hrun, hversion, hlatest, hcounted'⟩ :=
        run_of_distinct json hroot hcounted (by omega) hscans.1 hdistinct
      exact ⟨m, db', hrun, hversion, hlatest,
        (ih hcounted' (by omega) hscans.2).mpr ⟨by omega, hall⟩⟩

/-- Nothing is found under the path of a folder that is not `/`, after a manifest has been saved. -/
lemma versions_of_saved (hroot : Text.toStringLossy canonicalPath ≠ ['/']) {m : Manifest}
    {row : ManifestRow}
    (hinsert : db'.manifests = db.manifests.insert (Database.manifestKey m) row)
    (hnone : db.versions m.folderId (Text.toStringLossy canonicalPath) = ∅) :
    db'.versions m.folderId (Text.toStringLossy canonicalPath) = ∅ := by
  rw [Finset.eq_empty_iff_forall_notMem] at hnone ⊢
  intro version hversion
  obtain ⟨hpath, -⟩ | hold := (mem_versions_insert hinsert).mp hversion
  · exact hroot hpath
  · exact hnone version hold

lemma getLatestManifestVersion_of_empty {folderId folderPath : Text}
    (hnone : db.versions folderId folderPath = ∅) :
    db.getLatestManifestVersion folderId folderPath = none := by
  rw [Database.getLatestManifestVersion, Database.latestVersion_eq_none_iff.mpr hnone]
  rfl

/-- The versions of a folder that is not `/` do not count up. -/
lemma not_countsUp_cons (hroot : Text.toStringLossy canonicalPath ≠ ['/'])
    (hnone : db.versions (pathToFolderId blake3 canonicalPath)
      (Text.toStringLossy canonicalPath) = ∅) (hscan : scan.Clean canonicalPath) :
    ¬ CountsUp ix blake3 json canonicalPath k db (scan :: scans) := by
  rintro ⟨m, db', hrun, -, hlatest, -⟩
  obtain ⟨m', hfolder, -, -, hcases⟩ := indexFolder_cases ix blake3 json scan db
    hscan.canonicalPath fun dir _ => hscan.dirFault dir
  obtain ⟨-, -, db'', row, hok, hinsert⟩ | ⟨-, e, db'', herror, -⟩ := hcases
  swap
  · exact absurd (hrun.symm.trans herror) nofun
  obtain ⟨-, rfl⟩ := Prod.mk.inj (hrun.symm.trans hok)
  rw [← hfolder] at hnone hlatest
  rw [getLatestManifestVersion_of_empty (versions_of_saved hroot hinsert hnone)] at hlatest
  cases hlatest

/-- **When the versions of a folder count up**: only for the folder `/`, for fewer than `2 ^ 63`
runs that each index files with distinct paths.

**Proof sketch.** The first run over another folder saves a manifest that is not found under its
path. Under `/`, the versions of the manifests are the numbers from one on. -/
theorem countsUp_iff (ix : FileIndexer) (blake3 : Bytes → ContentHash) (json : ChunkListJson)
    (canonicalPath : Bytes) (scans : List Scan)
    (hscans : ∀ scan ∈ scans, scan.Clean canonicalPath) :
    CountsUp ix blake3 json canonicalPath 0 .empty scans ↔
      scans = [] ∨ (Text.toStringLossy canonicalPath = ['/'] ∧ scans.length < 2 ^ 63 ∧
        ∀ scan ∈ scans, ix.Distinct scan) := by
  by_cases hroot : Text.toStringLossy canonicalPath = ['/']
  · have hcounted : Counted .empty (pathToFolderId blake3 canonicalPath) 0 := by
      intro version
      refine iff_of_false (fun h => ?_) (by omega)
      exact Finmap.notMem_empty (Database.mem_versions.mp h)
    rw [countsUp_iff_of_counted hroot hcounted (by decide) hscans, Nat.zero_add]
    constructor
    · exact fun h => .inr ⟨hroot, h⟩
    · rintro (rfl | ⟨-, h⟩)
      · exact ⟨by decide, nofun⟩
      · exact h
  · cases scans with
    | nil => exact iff_of_true trivial (.inl rfl)
    | cons scan rest =>
      refine iff_of_false (not_countsUp_cons hroot rfl (hscans scan List.mem_cons_self)) ?_
      rintro (hnil | ⟨hroot', -⟩)
      · cases hnil
      · exact hroot hroot'

end Versions

/-! ## A folder that is indexed twice -/

lemma forall_clean_replicate (folderPath : Bytes) (tree : FolderTree) (n : ℕ) :
    ∀ scan ∈ List.replicate n (Scan.over folderPath tree), scan.Clean folderPath := by
  intro scan hscan
  rw [List.eq_of_mem_replicate hscan]
  exact Scan.clean_over ..

/-- The versions of `/` count up while it has one file. -/
theorem countsUp_emptyFile : ∃ json : ChunkListJson, json.toText [] = "[]".toList ∧
    CountsUp .default .blake3 json [47] 0 .empty (List.replicate 2 (Scan.over [47] emptyFile)) := by
  obtain ⟨json, hjson⟩ := ChunkListJson.exists_empty
  refine ⟨json, hjson, (countsUp_iff .default .blake3 json [47] _
    (forall_clean_replicate [47] emptyFile 2)).mpr (.inr ⟨by decide +kernel, by decide, ?_⟩)⟩
  intro scan hscan
  rw [List.eq_of_mem_replicate hscan]
  exact distinct_emptyFile

/-- **An empty folder `/a` cannot be indexed twice.** -/
theorem not_countsUp_rescan : ∃ json : ChunkListJson, json.toText [] = "[]".toList ∧
    ¬ ∀ (canonicalPath : Bytes) (scans : List Scan), (∀ scan ∈ scans, scan.Clean canonicalPath) →
      CountsUp .default pathSample json canonicalPath 0 .empty scans := by
  obtain ⟨json, hjson⟩ := ChunkListJson.exists_empty
  refine ⟨json, hjson, fun h => ?_⟩
  have hfolder : Text.toStringLossy [47, 97] ≠ ['/'] := by decide +kernel
  exact not_countsUp_cons hfolder rfl (Scan.clean_over [47, 97] ∅)
    (h [47, 97] (List.replicate 2 (Scan.over [47, 97] ∅)) (forall_clean_replicate _ ∅ 2))

end FileIndexer

end Landropic
