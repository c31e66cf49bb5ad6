import Landropic.Index.Database
import Landropic.Index.Identity

set_option autoImplicit false

/-!
# Saved manifests

When a manifest verifies, and what is read of it after more has been written to the database.

## Main definitions

* `Manifest.verify` — the hash of a manifest is that of its files.
* `Database.writes` — the database after some writes.
* `Database.Snapshot` — what is read is the manifest that was saved.

## Main results

* `Manifest.calculateHash_perm` — the order of the files does not matter.
* `Database.getFileByPath_writes` — the last write of a file is what counts.
* `Database.Keeps.writes` — a manifest keeps its row and its chunk lists.
* `Database.snapshot_iff` — when a manifest is read as it was saved.
-/

namespace Landropic

/-- Verify manifest integrity by recalculating the root hash. -/
def Manifest.verify (blake3 : Bytes → ContentHash) (m : Manifest) : Bool :=
  match m.manifestHash with
  | some storedHash => (m.calculateHash blake3).toHex = storedHash
  | none => false

/-- **The order of the files does not matter to the hash of a manifest**: with distinct paths, the
files in any other order have the same hash, and a manifest that is finalized verifies with its
files in that order.

**Proof sketch.** The files are sorted by path before they are hashed, and files with distinct paths
can be sorted in one way only. -/
theorem Manifest.calculateHash_perm (blake3 : Bytes → ContentHash) {m : Manifest}
    {files : List ManifestEntry} (hnodup : (m.files.map ManifestEntry.path).Nodup)
    (hperm : files.Perm m.files) :
    ({ m with files := files } : Manifest).calculateHash blake3 = m.calculateHash blake3 ∧
      ({ m.finalize blake3 with files := files } : Manifest).verify blake3 = true := by
  have hhash : ∀ r : Manifest, r.files = files →
      r.calculateHash blake3 = m.calculateHash blake3 := by
    rintro r rfl
    exact calculateHash_eq_of_sortedFiles (sortedFiles_eq_of_perm hnodup hperm)
  refine ⟨hhash _ rfl, ?_⟩
  have hfinal : ({ m.finalize blake3 with files := files } : Manifest).calculateHash blake3 =
      m.calculateHash blake3 := hhash _ rfl
  exact decide_eq_true (congrArg ContentHash.toHex hfinal)

/-- Three files in another order. -/
theorem Manifest.calculateHash_perm_three :
    let file (path : Char) : ManifestEntry := ⟨[path], 1, ⟨0, 0⟩, "aa".toList, [], none⟩
    let m : Manifest := ⟨"folder".toList, 1, [file 'b', file 'a', file 'c'], ⟨0, 0⟩, none⟩
    let files := [file 'c', file 'b', file 'a']
    ({ m with files := files } : Manifest).calculateHash .blake3Sample =
        m.calculateHash .blake3Sample ∧
      ({ m.finalize .blake3Sample with files := files } : Manifest).verify .blake3Sample = true :=
  calculateHash_perm .blake3Sample (by decide) (by decide)

namespace Database

/-- A write to the database. -/
inductive IndexWrite
  | upsertFile (file : FileEntry)
  | upsertChunk (chunk : ChunkEntry)
  | saveManifest (m : Manifest)

section Writes

variable (json : ChunkListJson) (db : Database)

/-- The database after a write. A write that fails leaves it as it was. -/
def write : IndexWrite → Database
  | .upsertFile file => db.upsertFile file
  | .upsertChunk chunk => db.upsertChunk chunk
  | .saveManifest m =>
    match db.saveManifest json m with
    | .ok saved => saved.2
    | .error _ => db

/-- The database after some writes. -/
def writes (ws : List IndexWrite) : Database := ws.foldl (write json) db

/-- The manifest that a write saves, if it does. -/
def savedBy : IndexWrite → Option Manifest
  | .saveManifest m =>
    match db.saveManifest json m with
    | .ok _ => some m
    | .error _ => none
  | _ => none

/-- The files whose rows a write writes. -/
def filesOf : IndexWrite → List FileEntry
  | .upsertFile file => [file]
  | .upsertChunk _ => []
  | .saveManifest m =>
    (db.savedBy json (.saveManifest m)).toList.flatMap fun saved =>
      saved.files.map ManifestEntry.fileEntry

/-- The manifests that some writes save. -/
def manifestsSaved : Database → List IndexWrite → List Manifest
  | _, [] => []
  | db, w :: ws => (db.savedBy json w).toList ++ manifestsSaved (db.write json w) ws

/-- The files whose rows some writes write. -/
def filesWritten : Database → List IndexWrite → List FileEntry
  | _, [] => []
  | db, w :: ws => db.filesOf json w ++ filesWritten (db.write json w) ws

end Writes

/-- The last of the files with a path. -/
def lastOf (files : List FileEntry) (path : Text) : Option FileEntry :=
  (HashMap.collect (files.map fun file => (file.path, file))).lookup path

/-- What is read is the manifest, its files in the order of their paths, and it verifies. -/
def Snapshot (blake3 : Bytes → ContentHash) (json : ChunkListJson) (clock : ℕ → DateTime)
    (db : Database) (m : Manifest) : Prop :=
  ∃ r, db.getLatestManifest json clock m.folderId ['/'] = .ok (some r) ∧ r.version = m.version ∧
    r.files = m.sortedFiles ∧ r.verify blake3 = true

/-- No manifest of the folder has a later version, as it is stored. -/
def Latest (m : Manifest) (saved : List Manifest) : Prop :=
  ∀ other ∈ saved, other.folderId = m.folderId →
    storedVersion other.version ≤ storedVersion m.version

/-- Where a file of the manifest has been written again, it was the same the last time, but for its
time of modification. -/
def Unedited (m : Manifest) (written : List FileEntry) : Prop :=
  ∀ entry ∈ m.files, ∀ file, lastOf written entry.path = some file →
    file.size = entry.size ∧ file.contentHash = entry.contentHash ∧ file.mode = entry.mode

/-- When the files of the manifest are read, the clock shows their times of modification. -/
def Timely (m : Manifest) (clock : ℕ → DateTime) : Prop :=
  ∀ i entry, m.sortedFiles[i]? = some entry → clock (i + 1) = entry.modifiedAt

/-! ## The rows of files -/

section Files

variable {json : ChunkListJson} {db : Database} {m : Manifest} {path : Text}

lemma lastOf_append (files more : List FileEntry) (path : Text) :
    lastOf (files ++ more) path = (lastOf more path).or (lastOf files path) := by
  rw [lastOf, List.map_append, HashMap.lookup_collect_append]
  rfl

lemma lastOf_entries {entries : List ManifestEntry}
    (hnodup : (entries.map ManifestEntry.path).Nodup) {entry : ManifestEntry}
    (hmem : entry ∈ entries) :
    lastOf (entries.map ManifestEntry.fileEntry) entry.path = some entry.fileEntry := by
  have hkeys : ((entries.map ManifestEntry.fileEntry).map fun file => (file.path, file)).map
      Prod.fst = entries.map ManifestEntry.path := by
    simp [Function.comp_def, ManifestEntry.fileEntry]
  rw [lastOf, HashMap.lookup_collect_iff (hkeys ▸ hnodup)]
  exact List.mem_map.mpr ⟨_, List.mem_map_of_mem hmem, rfl⟩

lemma lastOf_eq_none {files : List FileEntry} (h : path ∉ files.map FileEntry.path) :
    lastOf files path = none := by
  rw [lastOf, Finmap.lookup_eq_none, HashMap.mem_collect]
  simpa using h

/-- What a manifest that is saved does to the database. -/
lemma write_saveManifest (db : Database) (json : ChunkListJson) (m : Manifest) :
    (db.savedBy json (.saveManifest m) = some m ∧ manifestKey m ∉ db.manifests ∧
      (m.files.map ManifestEntry.path).Nodup ∧
      (db.write json (.saveManifest m)).manifests =
        db.manifests.insert (manifestKey m) (db.manifestRow m) ∧
      Saved json (db.manifestRow m).id m.files db (db.write json (.saveManifest m))) ∨
    (db.savedBy json (.saveManifest m) = none ∧ db.write json (.saveManifest m) = db) := by
  rw [savedBy, write]
  obtain ⟨⟨hnew, hnodup⟩, db', hok, hmanifests, hsaved⟩ | ⟨-, e, herror⟩ :=
    saveManifest_cases db json m
  · rw [hok]
    exact .inl ⟨rfl, hnew, hnodup, hmanifests, hsaved⟩
  · rw [herror]
    exact .inr ⟨rfl, rfl⟩

lemma savedBy_saveManifest (hnew : manifestKey m ∉ db.manifests)
    (hnodup : (m.files.map ManifestEntry.path).Nodup) :
    db.savedBy json (.saveManifest m) = some m := by
  rw [savedBy]
  obtain ⟨-, db', hok, -⟩ | ⟨hnot, -⟩ := saveManifest_cases db json m
  · rw [hok]
  · exact absurd ⟨hnew, hnodup⟩ hnot

lemma getFileByPath_write (w : IndexWrite) : (db.write json w).getFileByPath path =
    (lastOf (db.filesOf json w) path).or (db.getFileByPath path) := by
  cases w with
  | upsertFile file =>
    rw [write, getFileByPath_upsertFile, filesOf]
    split
    · next h =>
      subst h
      rw [lastOf, List.map_singleton, HashMap.collect, List.foldl_cons, List.foldl_nil,
        Finmap.lookup_insert, Option.some_or]
    · next h =>
      rw [lastOf_eq_none (by simpa using h), Option.none_or]
  | upsertChunk chunk =>
    rw [write, getFileByPath, (upsertChunk_frame db chunk).1]
    rfl
  | saveManifest m =>
    rw [filesOf]
    obtain ⟨hsavedBy, -, hnodup, -, hsaved⟩ | ⟨hsavedBy, hsame⟩ := write_saveManifest db json m
    · rw [hsavedBy, Option.toList_some, List.flatMap_singleton]
      by_cases hpath : path ∈ m.files.map ManifestEntry.path
      · obtain ⟨entry, hentry, rfl⟩ := List.mem_map.mp hpath
        rw [hsaved.file_mem entry hentry, lastOf_entries hnodup hentry, Option.some_or]
      · have hnone : path ∉ (m.files.map ManifestEntry.fileEntry).map FileEntry.path := by
          rwa [List.map_map]
        rw [hsaved.file_notMem path hpath, lastOf_eq_none hnone, Option.none_or]
    · rw [hsavedBy, hsame]
      rfl

/-- **The last write of a file** is what counts. -/
theorem getFileByPath_writes (ws : List IndexWrite) : (db.writes json ws).getFileByPath path =
    (lastOf (db.filesWritten json ws) path).or (db.getFileByPath path) := by
  induction ws generalizing db with
  | nil => rfl
  | cons w ws ih =>
    rw [filesWritten, lastOf_append, Option.or_assoc, ← getFileByPath_write]
    exact ih

end Files

/-! ## The rows of manifests -/

section Manifests

variable {json : ChunkListJson} {db : Database} {m : Manifest} {path : Text} {row : ManifestRow}

lemma mem_versions_write {deviceId : Text} {version : ℤ} (w : IndexWrite) :
    version ∈ (db.write json w).versions deviceId ['/'] ↔
      version ∈ db.versions deviceId ['/'] ∨
        ∃ m ∈ db.savedBy json w, m.folderId = deviceId ∧ storedVersion m.version = version := by
  cases w with
  | upsertFile file => simp [savedBy, mem_versions, write, upsertFile]
  | upsertChunk chunk =>
    simp [savedBy, mem_versions, write, (upsertChunk_frame db chunk).2.1]
  | saveManifest m =>
    obtain ⟨hsavedBy, -, -, hmanifests, -⟩ | ⟨hsavedBy, hsame⟩ := write_saveManifest db json m
    · rw [mem_versions, mem_versions, hsavedBy, hmanifests, Finmap.mem_insert, manifestKey, or_comm]
      simp [eq_comm]
    · rw [hsavedBy, hsame]
      simp

/-- **The versions of a folder** are those of its manifests that have been saved. -/
theorem mem_versions_writes {deviceId : Text} {version : ℤ} (ws : List IndexWrite) :
    version ∈ (db.writes json ws).versions deviceId ['/'] ↔
      version ∈ db.versions deviceId ['/'] ∨
        ∃ m ∈ db.manifestsSaved json ws, m.folderId = deviceId ∧
          storedVersion m.version = version := by
  induction ws generalizing db with
  | nil => simp [writes, manifestsSaved]
  | cons w ws ih =>
    have hstep : (db.writes json (w :: ws)) = (db.write json w).writes json ws := rfl
    rw [hstep, ih, mem_versions_write, manifestsSaved]
    simp only [List.mem_append, Option.mem_toList, Option.mem_def, or_and_right, exists_or,
      or_assoc]

/-- A manifest has its row and its chunk lists. -/
structure Keeps (json : ChunkListJson) (m : Manifest) (row : ManifestRow) (db : Database) : Prop
    where
  lookup : db.manifests.lookup (manifestKey m) = some row
  list_mem : ∀ entry ∈ m.files,
    db.chunkList row.id entry.path = some (json.toText entry.chunkHashes)
  list_notMem : ∀ path ∉ m.files.map ManifestEntry.path, db.chunkList row.id path = none

/-- A manifest that has been saved. -/
lemma Keeps.of_saved (hnew : manifestKey m ∉ db.manifests) {db' : Database}
    (hmanifests : db'.manifests = db.manifests.insert (manifestKey m) (db.manifestRow m))
    (hsaved : Saved json (db.manifestRow m).id m.files db db') :
    Keeps json m (db.manifestRow m) db' where
  lookup := by rw [hmanifests, Finmap.lookup_insert]
  list_mem := hsaved.list_mem
  list_notMem := fun path hpath =>
    (hsaved.list_notMem _ path fun _ => hpath).trans (chunkList_manifestRow hnew)

lemma Keeps.write (h : Keeps json m row db) (w : IndexWrite) :
    Keeps json m row (db.write json w) := by
  cases w with
  | upsertFile file =>
    exact ⟨h.lookup, fun entry hentry => chunkList_upsertFile.trans (h.list_mem entry hentry),
      fun path hpath => chunkList_upsertFile.trans (h.list_notMem path hpath)⟩
  | upsertChunk chunk =>
    obtain ⟨hfiles, hmanifests, hlists⟩ := upsertChunk_frame db chunk
    have hlist (path : Text) :
        (db.upsertChunk chunk).chunkList row.id path = db.chunkList row.id path := by
      rw [chunkList, hfiles, hlists, chunkList]
    exact ⟨hmanifests ▸ h.lookup, fun entry hentry => (hlist _).trans (h.list_mem entry hentry),
      fun path hpath => (hlist _).trans (h.list_notMem path hpath)⟩
  | saveManifest other =>
    obtain ⟨-, hnew, -, hmanifests, hsaved⟩ | ⟨-, hsame⟩ := write_saveManifest db json other
    · have hkey : manifestKey m ∈ db.manifests := Finmap.mem_iff.mpr ⟨row, h.lookup⟩
      have hother : manifestKey m ≠ manifestKey other := fun heq => hnew (heq ▸ hkey)
      -- the other manifest gets a new number
      have hid : row.id ≠ (db.manifestRow other).id := by
        rw [manifestRow, Numbered.rowId_of_notMem hnew]
        exact (db.manifests_numbered.lt h.lookup).ne
      have hlist (path : Text) : (db.write json (.saveManifest other)).chunkList row.id path =
          db.chunkList row.id path := hsaved.list_notMem _ _ fun heq => absurd heq hid
      exact ⟨by rw [hmanifests, Finmap.lookup_insert_of_ne _ hother, h.lookup],
        fun entry hentry => (hlist _).trans (h.list_mem entry hentry),
        fun path hpath => (hlist _).trans (h.list_notMem path hpath)⟩
    · rwa [hsame]

/-- **A manifest keeps its row and its chunk lists**, whatever is written. -/
theorem Keeps.writes (h : Keeps json m row db) (ws : List IndexWrite) :
    Keeps json m row (db.writes json ws) := by
  induction ws generalizing db with
  | nil => exact h
  | cons w ws ih => exact ih (h.write w)

end Manifests

/-! ## Reading a manifest -/

section Reading

variable {blake3 : Bytes → ContentHash} {json : ChunkListJson} {db : Database} {m : Manifest}
  {row : ManifestRow} {clock : ℕ → DateTime}

/-- What is read of a file of a manifest: its size, hash and mode are those of its row. -/
def restore (db : Database) (now : DateTime) (entry : ManifestEntry) : ManifestEntry :=
  let file := (db.getFileByPath entry.path).getD entry.fileEntry
  { entry with
    size := file.size
    modifiedAt := now
    contentHash := file.contentHash
    mode := file.mode }

lemma paths_sortedFiles (hnodup : (m.files.map ManifestEntry.path).Nodup)
    (h : Keeps json m row db) :
    (db.files.keys.sort (· ≤ ·)).filter (· ∈ m.files.map ManifestEntry.path) =
      m.sortedFiles.map ManifestEntry.path := by
  have hperm : (m.sortedFiles.map ManifestEntry.path).Perm (m.files.map ManifestEntry.path) :=
    (List.mergeSort_perm _ _).map _
  have hsorted : (m.sortedFiles.map ManifestEntry.path).Pairwise (· ≤ ·) := by
    rw [List.pairwise_map]
    exact (Manifest.pairwise_sortedFiles m).imp of_decide_eq_true
  refine List.Perm.eq_of_pairwise (fun _ _ _ _ h h' => le_antisymm h h')
    ((Finset.pairwise_sort db.files.keys (· ≤ ·)).filter _) hsorted ?_
  rw [List.perm_ext_iff_of_nodup ((Finset.sort_nodup ..).filter _) (hperm.nodup_iff.mpr hnodup)]
  intro path
  rw [hperm.mem_iff, List.mem_filter, Finset.mem_sort, Finmap.mem_keys, decide_eq_true_eq]
  refine and_iff_right_of_imp fun hpath => ?_
  obtain ⟨entry, hentry, rfl⟩ := List.mem_map.mp hpath
  have hlist := h.list_mem entry hentry
  rw [chunkList] at hlist
  obtain ⟨file, hfile, -⟩ := Option.bind_eq_some_iff.mp hlist
  exact Finmap.mem_iff.mpr ⟨file, hfile⟩

/-- **What is read of the files of a manifest.**

**Proof sketch.** The rows are those of the paths that the manifest lists, and a row that is read
has the chunk list that was saved. -/
theorem readRows_manifestRows (hnodup : (m.files.map ManifestEntry.path).Nodup)
    (h : Keeps json m row db) : readRows json clock (db.manifestRows row.id) =
      .ok (m.sortedFiles.mapIdx fun i entry => db.restore (clock i) entry) := by
  set read : Text → Option (Text × FileRow × Text) := fun path =>
    (db.files.lookup path).bind fun file =>
      (db.manifestFiles.lookup (row.id, file.id)).map fun chunkList => (path, file, chunkList)
    with hread
  have hnone : ∀ path ∉ m.files.map ManifestEntry.path, read path = none := by
    intro path hpath
    have hlist := h.list_notMem path hpath
    rw [chunkList] at hlist
    rw [hread]
    dsimp only
    cases hfile : db.files.lookup path with
    | none => rfl
    | some file =>
      rw [hfile, Option.bind_some] at hlist
      rw [Option.bind_some, hlist, Option.map_none]
  have hsome : ∀ entry ∈ m.files, ∃ file, db.files.lookup entry.path = some file ∧
      read entry.path = some (entry.path, file, json.toText entry.chunkHashes) := by
    intro entry hentry
    have hlist := h.list_mem entry hentry
    rw [chunkList] at hlist
    obtain ⟨file, hfile, hlist⟩ := Option.bind_eq_some_iff.mp hlist
    refine ⟨file, hfile, ?_⟩
    rw [hread]
    dsimp only
    rw [hfile, Option.bind_some, hlist, Option.map_some]
  have hrows : db.manifestRows row.id = m.sortedFiles.filterMap fun entry => read entry.path := by
    show (db.files.keys.sort (· ≤ ·)).filterMap read =
      m.sortedFiles.filterMap (read ∘ ManifestEntry.path)
    rw [← List.filterMap_map, ← paths_sortedFiles hnodup h, List.filterMap_filter]
    refine List.filterMap_congr fun path _ => ?_
    split
    · rfl
    · next hpath => exact hnone path (by simpa using hpath)
  have hsub : ∀ entry ∈ m.sortedFiles, entry ∈ m.files := fun entry =>
    (List.mergeSort_perm _ _).mem_iff.mp
  rw [hrows]
  generalize m.sortedFiles = entries at hsub
  induction entries generalizing clock with
  | nil => rfl
  | cons entry rest ih =>
    rw [List.forall_mem_cons] at hsub
    obtain ⟨file, hfile, hentry⟩ := hsome entry hsub.1
    have hrow : readRow json (clock 0) (entry.path, file, json.toText entry.chunkHashes) =
        .ok (db.restore (clock 0) entry) := by
      rw [readRow, json.fromText_toText, restore, getFileByPath, hfile]
      rfl
    rw [List.filterMap_cons, hentry]
    dsimp only
    rw [readRows, hrow, List.mapIdx_cons]
    dsimp only [Except.bind]
    rw [ih hsub.2]
    rfl

lemma latestVersion_writes {ws : List IndexWrite} (hmem : m ∈ empty.manifestsSaved json ws) :
    (empty.writes json ws).latestVersion m.folderId ['/'] = some (storedVersion m.version) ↔
      Latest m (empty.manifestsSaved json ws) := by
  have hversions (version : ℤ) : version ∈ (empty.writes json ws).versions m.folderId ['/'] ↔
      ∃ other ∈ empty.manifestsSaved json ws, other.folderId = m.folderId ∧
        storedVersion other.version = version := by
    rw [mem_versions_writes]
    refine or_iff_right fun hempty => ?_
    rw [mem_versions] at hempty
    exact Finmap.notMem_empty hempty
  rw [latestVersion_eq_some_iff]
  constructor
  · rintro ⟨-, hmax⟩ other hother hfolder
    exact hmax _ ((hversions _).mpr ⟨other, hother, hfolder, rfl⟩)
  · intro hlatest
    refine ⟨(hversions _).mpr ⟨m, hmem, rfl, rfl⟩, fun version hversion => ?_⟩
    obtain ⟨other, hother, hfolder, rfl⟩ := (hversions _).mp hversion
    exact hlatest other hother hfolder

lemma version_of_getLatestManifest {deviceId folderPath : Text} {r : Manifest}
    (h : db.getLatestManifest json clock deviceId folderPath = .ok (some r)) :
    ∃ version, db.latestVersion deviceId folderPath = some version ∧
      r.version = readVersion version := by
  unfold getLatestManifest at h
  split at h
  · cases h
  · next version row hfound =>
    obtain ⟨version', hversion, hrow⟩ := Option.bind_eq_some_iff.mp hfound
    obtain ⟨row', -, hpair⟩ := Option.map_eq_some_iff.mp hrow
    obtain rfl : version' = version := congrArg Prod.fst hpair
    refine ⟨version', hversion, ?_⟩
    cases hrows : readRows json (fun i => clock (i + 1)) (db.manifestRows row.id) with
    | error e =>
      rw [hrows] at h
      cases h
    | ok files =>
      rw [hrows] at h
      cases h
      rfl

/-- The latest manifest of a folder, if it is the one that was saved. -/
lemma getLatestManifest_eq (hnodup : (m.files.map ManifestEntry.path).Nodup)
    (h : Keeps json m row db)
    (hlatest : db.latestVersion m.folderId ['/'] = some (storedVersion m.version)) :
    db.getLatestManifest json clock m.folderId ['/'] = .ok (some
      { folderId := m.folderId
        version := m.version
        files := m.sortedFiles.mapIdx fun i entry => db.restore (clock (i + 1)) entry
        createdAt := clock 0
        manifestHash := if row.manifestHash = [] then none else some row.manifestHash }) := by
  rw [getLatestManifest, hlatest, Option.bind_some,
    show db.manifests.lookup (m.folderId, ['/'], storedVersion m.version) = some row from h.lookup]
  dsimp only [Option.map_some]
  rw [readRows_manifestRows hnodup h, readVersion_storedVersion]
  rfl

/-- A file of a manifest is read as it was saved. -/
lemma restore_eq_iff {now : DateTime} {entry : ManifestEntry} {written : List FileEntry}
    (hfile : db.getFileByPath entry.path =
      (lastOf written entry.path).or (some entry.fileEntry)) :
    db.restore now entry = entry ↔ now = entry.modifiedAt ∧
      ∀ file, lastOf written entry.path = some file →
        file.size = entry.size ∧ file.contentHash = entry.contentHash ∧ file.mode = entry.mode := by
  rw [restore, hfile]
  cases entry
  cases lastOf written _ with
  | none => simp [ManifestEntry.fileEntry]
  | some file => simp [and_left_comm]

lemma mapIdx_eq_self_iff {α : Type} {f : ℕ → α → α} {l : List α} :
    l.mapIdx f = l ↔ ∀ i a, l[i]? = some a → f i a = a := by
  constructor
  · intro h i a ha
    have hget : (l.mapIdx f)[i]? = l[i]? := by rw [h]
    rw [List.getElem?_mapIdx, ha] at hget
    exact Option.some.inj hget
  · intro h
    refine List.ext_getElem? fun i => ?_
    rw [List.getElem?_mapIdx]
    cases ha : l[i]? with
    | none => rfl
    | some a => rw [Option.map_some, h i a ha]

lemma calculateHash_sortedFiles {r : Manifest} (h : r.files = m.sortedFiles) :
    r.calculateHash blake3 = m.calculateHash blake3 := by
  apply Manifest.calculateHash_eq_of_sortedFiles
  rw [Manifest.sortedFiles, h]
  exact List.mergeSort_of_pairwise (Manifest.pairwise_sortedFiles m)

lemma manifestsSaved_append (ws more : List IndexWrite) : db.manifestsSaved json (ws ++ more) =
    db.manifestsSaved json ws ++ (db.writes json ws).manifestsSaved json more := by
  induction ws generalizing db with
  | nil => rfl
  | cons w ws ih =>
    rw [List.cons_append, manifestsSaved, ih, manifestsSaved, List.append_assoc]
    rfl

/-- The latest manifest is read as it was saved if its files are the same and the clock shows their
times of modification. -/
lemma snapshot_iff_of_latest {written : List FileEntry}
    (hnodup : (m.files.map ManifestEntry.path).Nodup)
    (hfinal : m.manifestHash = some (m.calculateHash blake3).toHex) (hkeeps : Keeps json m row db)
    (hhash : row.manifestHash = m.manifestHash.getD [])
    (hlatest : db.latestVersion m.folderId ['/'] = some (storedVersion m.version))
    (hfile : ∀ entry ∈ m.files, db.getFileByPath entry.path =
      (lastOf written entry.path).or (some entry.fileEntry)) :
    Snapshot blake3 json clock db m ↔ Unedited m written ∧ Timely m clock := by
  have hmem : ∀ {entry}, entry ∈ m.sortedFiles ↔ entry ∈ m.files :=
    (List.mergeSort_perm _ _).mem_iff
  have hread : db.getLatestManifest json clock m.folderId ['/'] = _ :=
    getLatestManifest_eq hnodup hkeeps hlatest
  have hhex : (m.calculateHash blake3).toHex ≠ [] := by
    intro hnil
    have hlength := ContentHash.length_toHex (m.calculateHash blake3)
    rw [hnil] at hlength
    cases hlength
  rw [hhash, hfinal, Option.getD_some, if_neg hhex] at hread
  have hfiles : Snapshot blake3 json clock db m ↔
      m.sortedFiles.mapIdx (fun i entry => db.restore (clock (i + 1)) entry) = m.sortedFiles := by
    rw [Snapshot, hread]
    constructor
    · rintro ⟨r, hr, -, hsame, -⟩
      obtain rfl := Option.some.inj (Except.ok.inj hr)
      exact hsame
    · intro hsame
      refine ⟨_, rfl, rfl, hsame, ?_⟩
      rw [Manifest.verify]
      exact decide_eq_true (congrArg ContentHash.toHex (calculateHash_sortedFiles hsame))
  rw [hfiles, mapIdx_eq_self_iff]
  constructor
  · intro h
    have hboth : ∀ i entry, m.sortedFiles[i]? = some entry → _ := fun i entry hi =>
      (restore_eq_iff (hfile entry (hmem.mp (List.mem_of_getElem? hi)))).mp (h i entry hi)
    refine ⟨fun entry hentry => ?_, fun i entry hi => (hboth i entry hi).1⟩
    obtain ⟨i, hi⟩ := List.mem_iff_getElem?.mp (hmem.mpr hentry)
    exact (hboth i entry hi).2
  · rintro ⟨hunedited, htimely⟩ i entry hi
    have hentry := hmem.mp (List.mem_of_getElem? hi)
    exact (restore_eq_iff (hfile entry hentry)).mpr ⟨htimely i entry hi, hunedited entry hentry⟩

/-- **A saved manifest is read as it was saved** if and only if it is still the latest one, its
files have not been written again with another size, hash or mode, and the clock shows the times of
their modification, which are not read.

**Proof sketch.** The manifest keeps its chunk lists, and its files have the rows that were written
last. -/
theorem snapshot_iff (blake3 : Bytes → ContentHash) (json : ChunkListJson) (clock : ℕ → DateTime)
    (m : Manifest) (earlier later : List IndexWrite)
    (hfinal : m.manifestHash = some (m.calculateHash blake3).toHex)
    (hsaved : (empty.writes json earlier).savedBy json (.saveManifest m) = some m) :
    Snapshot blake3 json clock (empty.writes json (earlier ++ .saveManifest m :: later)) m ↔
      Latest m (empty.manifestsSaved json (earlier ++ .saveManifest m :: later)) ∧
      Unedited m
        (((empty.writes json earlier).write json (.saveManifest m)).filesWritten json later) ∧
      Timely m clock := by
  obtain ⟨-, hnew, hnodup, hmanifests, hfiles⟩ | ⟨hnone, -⟩ :=
    write_saveManifest (empty.writes json earlier) json m
  swap
  · rw [hnone] at hsaved
    cases hsaved
  have hend : empty.writes json (earlier ++ .saveManifest m :: later) =
      ((empty.writes json earlier).write json (.saveManifest m)).writes json later :=
    List.foldl_append
  have hmem : m ∈ empty.manifestsSaved json (earlier ++ .saveManifest m :: later) := by
    rw [manifestsSaved_append, manifestsSaved, hsaved]
    simp
  by_cases hlatest : Latest m (empty.manifestsSaved json (earlier ++ .saveManifest m :: later))
  · rw [and_iff_right hlatest]
    have hversion := (latestVersion_writes hmem).mpr hlatest
    rw [hend] at hversion ⊢
    refine snapshot_iff_of_latest hnodup hfinal
      ((Keeps.of_saved hnew hmanifests hfiles).writes later) rfl hversion fun entry hentry => ?_
    rw [getFileByPath_writes, hfiles.file_mem entry hentry]
  · refine iff_of_false ?_ fun h => hlatest h.1
    rintro ⟨r, hr, hversion, -⟩
    obtain ⟨version, hsome, hread⟩ := version_of_getLatestManifest hr
    obtain ⟨hstored, -⟩ := latestVersion_eq_some_iff.mp hsome
    obtain hnever | ⟨other, -, -, rfl⟩ := (mem_versions_writes _).mp hstored
    · rw [mem_versions] at hnever
      exact Finmap.notMem_empty hnever
    · rw [hread, readVersion_storedVersion] at hversion
      rw [hversion] at hsome
      exact hlatest ((latestVersion_writes hmem).mp hsome)

end Reading

/-! ## A file that is written again -/

/-- A file without content. -/
def sampleEntry : ManifestEntry where
  path := ['/', 'a']
  size := 0
  modifiedAt := ⟨0, 0⟩
  contentHash := (ContentHash.blake3Sample []).toHex
  chunkHashes := []
  mode := none

/-- A manifest of one file. -/
def sampleManifest : Manifest :=
  ((Manifest.new ⟨0, 0⟩ ['a'] 1).addFile sampleEntry).finalize Manifest.leafSample

example : sampleManifest.manifestHash =
    some "9634ffbac7d03aa01911a499626d42ee784ff954348ff9075157b15bee8670c1".toList := by
  decide +kernel

/-- The file with another content. -/
def sampleEdit : FileEntry :=
  { sampleEntry.fileEntry with size := 1, contentHash := (ContentHash.blake3Sample [1]).toHex }

lemma savedBy_sampleManifest (json : ChunkListJson) :
    empty.savedBy json (.saveManifest sampleManifest) = some sampleManifest :=
  savedBy_saveManifest Finmap.notMem_empty (List.nodup_singleton _)

/-- The rule for a manifest whose file is written again. -/
theorem snapshot_iff_sampleEdit : ∃ json : ChunkListJson, json.toText [] = "[]".toList ∧
    (Snapshot Manifest.leafSample json (fun _ => ⟨0, 0⟩)
        (empty.writes json ([] ++ .saveManifest sampleManifest :: [.upsertFile sampleEdit]))
        sampleManifest ↔
      Latest sampleManifest (empty.manifestsSaved json
        ([] ++ .saveManifest sampleManifest :: [.upsertFile sampleEdit])) ∧
      Unedited sampleManifest
        (((empty.writes json []).write json (.saveManifest sampleManifest)).filesWritten json
          [.upsertFile sampleEdit]) ∧
      Timely sampleManifest fun _ => ⟨0, 0⟩) := by
  obtain ⟨json, hjson⟩ := ChunkListJson.exists_empty
  exact ⟨json, hjson, snapshot_iff _ json _ sampleManifest [] [.upsertFile sampleEdit] rfl
    (savedBy_sampleManifest json)⟩

/-- A write that the manifest should not depend on. -/
def IndexWrite.Later (m : Manifest) : IndexWrite → Prop
  | .saveManifest other => other.folderId ≠ m.folderId ∨ other.version < m.version
  | _ => True

/-- **A saved manifest is not read as it was saved**: its file has been written again. -/
theorem not_snapshot_sampleEdit : ∃ json : ChunkListJson, json.toText [] = "[]".toList ∧
    ¬ ∀ (clock : ℕ → DateTime) (m : Manifest) (later : List IndexWrite),
      m.manifestHash = some (m.calculateHash Manifest.leafSample).toHex →
      (m.files.map ManifestEntry.path).Nodup → (∀ w ∈ later, w.Later m) →
        Snapshot Manifest.leafSample json clock
          (empty.writes json (.saveManifest m :: later)) m := by
  obtain ⟨json, hjson⟩ := ChunkListJson.exists_empty
  refine ⟨json, hjson, fun h => ?_⟩
  have hsnapshot := h (fun _ => ⟨0, 0⟩) sampleManifest [.upsertFile sampleEdit] rfl
    (List.nodup_singleton _) (List.forall_mem_singleton.mpr trivial)
  obtain ⟨-, hnew, hnodup, hmanifests, hfiles⟩ | ⟨hnone, -⟩ :=
    write_saveManifest empty json sampleManifest
  swap
  · rw [savedBy_sampleManifest] at hnone
    cases hnone
  have hkeeps := (Keeps.of_saved hnew hmanifests hfiles).write (.upsertFile sampleEdit)
  have hsaved : empty.manifestsSaved json [.saveManifest sampleManifest, .upsertFile sampleEdit] =
      [sampleManifest] := by
    rw [manifestsSaved, savedBy_sampleManifest]
    rfl
  have hlatest : (empty.writes json [.saveManifest sampleManifest, .upsertFile sampleEdit]
      ).latestVersion ['a'] ['/'] = some 1 := by
    refine (latestVersion_writes (hsaved ▸ List.mem_singleton_self _)).mpr ?_
    rw [hsaved]
    rintro _ hother -
    rw [List.mem_singleton.mp hother]
  have hfile : ∀ entry ∈ sampleManifest.files, ((empty.write json (.saveManifest sampleManifest)
      ).write json (.upsertFile sampleEdit)).getFileByPath entry.path =
        (lastOf [sampleEdit] entry.path).or (some entry.fileEntry) := by
    intro entry hentry
    rw [getFileByPath_write, hfiles.file_mem entry hentry]
    rfl
  have hunedited := ((snapshot_iff_of_latest hnodup rfl hkeeps rfl hlatest hfile).mp hsnapshot).1
  exact absurd (hunedited sampleEntry (List.mem_singleton_self _) sampleEdit
    (by decide +kernel)).1 (by decide)

end Database

end Landropic
