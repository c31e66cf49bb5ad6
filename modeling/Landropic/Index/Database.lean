import Mathlib.Data.UInt
import Landropic.Foundations.RecordLog
import Landropic.Foundations.Tables
import Landropic.Index.Manifest

set_option autoImplicit false

/-!
# The index database

The database of an index: a table of files with a row for each path, a table of chunks, the
manifests that were saved, and which files each of them lists. The rows of files are shared by all
manifests.

## Main definitions

* `Database` — the tables.
* `Database.upsertFile`, `upsertChunk`, `saveManifest` — the operations that write.
* `Database.getLatestManifestVersion`, `getLatestManifest` — those that read.

## Main results

* `Database.getFileByPath_upsertFile` — what is upserted can be read.
* `Database.saveManifest_cases` — which manifests can be saved, and what that does.
* `Database.latestVersion_eq_some_iff` — which version is the latest.

## Design

Tables are maps by the columns that are unique in them. Whole numbers of 64 bits are stored with a
sign. The columns that nothing reads here are left out, which are the times of creation and of the
last update, and of the times of modification the text that is stored is not modelled either. Sizes
are added up without overflow checks.
-/

namespace Landropic

/-- Errors of the index. -/
inductive IndexError
  | database (msg : String)
  | io (msg : String)
  | serialization (msg : String)
  | chunkerError (msg : String)
  | storageError (msg : String)
  | invalidFileType (path : Bytes)
  | databaseError (msg : String)
  deriving DecidableEq

/-- File entry in the database. -/
structure Database.FileEntry where
  path : Text
  size : UInt64
  modifiedAt : DateTime
  contentHash : Text
  mode : Option UInt32
  deriving DecidableEq

/-- What a manifest says of a file, without its chunks. -/
def ManifestEntry.fileEntry (entry : ManifestEntry) : Database.FileEntry where
  path := entry.path
  size := entry.size
  modifiedAt := entry.modifiedAt
  contentHash := entry.contentHash
  mode := entry.mode

/-- Chunk entry in the database. -/
structure Database.ChunkEntry where
  hash : Text
  size : UInt64

namespace Manifest

/-- Get total size of all files. -/
def totalSize (m : Manifest) : UInt64 := (m.files.map ManifestEntry.size).sum

/-- Get file count. -/
def fileCount (m : Manifest) : ℕ := m.files.length

end Manifest

/-- How lists of chunk hashes are written as JSON and read back. -/
structure ChunkListJson where
  toText : List Text → Text
  fromText : Text → Option (List Text)
  /-- What is written can be read. -/
  fromText_toText : ∀ hashes, fromText (toText hashes) = some hashes

lemma ChunkListJson.exists_empty : ∃ json : ChunkListJson, json.toText [] = "[]".toList := by
  obtain ⟨number, hnumber⟩ := Countable.exists_injective_nat (List Text)
  set toText : List Text → Text := fun hashes =>
    if hashes = [] then "[]".toList else List.replicate (number hashes) 'x' with htoText
  have hbracket (n : ℕ) : "[]".toList ≠ List.replicate n 'x' := by
    intro heq
    have hmem : '[' ∈ List.replicate n 'x' := heq ▸ List.mem_cons_self
    exact absurd (List.eq_of_mem_replicate hmem) (by decide)
  have hinj : Function.Injective toText := by
    intro a b hab
    simp only [htoText] at hab
    split_ifs at hab with ha hb hb
    · rw [ha, hb]
    · exact absurd hab (hbracket _)
    · exact absurd hab.symm (hbracket _)
    · exact hnumber (by simpa using congrArg List.length hab)
  have hempty : toText [] = "[]".toList := if_pos rfl
  classical
  refine ⟨⟨toText, fun text => if h : ∃ hashes, toText hashes = text then some h.choose else none,
    fun hashes => ?_⟩, hempty⟩
  have hex : ∃ hashes', toText hashes' = toText hashes := ⟨hashes, rfl⟩
  rw [dif_pos hex, hinj hex.choose_spec]

/-- A row of the table of files. -/
structure FileRow where
  id : ℕ
  size : Int64
  modifiedAt : DateTime
  contentHash : Text
  permissions : Option UInt32
  deriving DecidableEq

/-- A row of the table of chunks. -/
structure ChunkRow where
  id : ℕ
  size : Int64
  refCount : ℕ
  deriving DecidableEq

/-- A row of the table of manifests. -/
structure ManifestRow where
  id : ℕ
  manifestHash : Text
  fileCount : Int64
  totalSize : Int64
  deriving DecidableEq

/-- The tables of the database. -/
structure Database where
  /-- Files by path. -/
  files : HashMap Text FileRow
  /-- Chunks by hash. -/
  chunks : HashMap Text ChunkRow
  /-- Manifests by device, folder path and version. -/
  manifests : HashMap (Text × Text × ℤ) ManifestRow
  /-- The chunk lists, by manifest and file. -/
  manifestFiles : HashMap (ℕ × ℕ) Text
  nextFile : ℕ
  nextChunk : ℕ
  nextManifest : ℕ
  /-- Files are numbered. -/
  files_numbered : Numbered FileRow.id nextFile files
  /-- Manifests are numbered. -/
  manifests_numbered : Numbered ManifestRow.id nextManifest manifests
  /-- Only files that have a row are listed, in manifests that have one. -/
  references : ∀ {manifest file}, (manifest, file) ∈ manifestFiles →
    Numbered.Refers ManifestRow.id manifests manifest ∧ Numbered.Refers FileRow.id files file

namespace Database

/-- A database without rows. -/
def empty : Database where
  files := ∅
  chunks := ∅
  manifests := ∅
  manifestFiles := ∅
  nextFile := 1
  nextChunk := 1
  nextManifest := 1
  files_numbered := .empty _ _
  manifests_numbered := .empty _ _
  references := fun h => absurd h Finmap.notMem_empty

section Operations

variable (db : Database)

/-- The number of a file. -/
def fileId (path : Text) : ℕ := Numbered.rowId FileRow.id db.nextFile db.files path

/-- Upsert a file entry. -/
def upsertFile (file : FileEntry) : Database :=
  let row : FileRow :=
    { id := db.fileId file.path
      size := file.size.toInt64
      modifiedAt := file.modifiedAt
      contentHash := file.contentHash
      permissions := file.mode }
  { db with
    files := db.files.insert file.path row
    nextFile := max db.nextFile (row.id + 1)
    files_numbered := db.files_numbered.insert rfl
    references := fun h =>
      ⟨(db.references h).1, (db.references h).2.insert db.nextFile rfl⟩ }

/-- Get a file by path. -/
def getFileByPath (path : Text) : Option FileEntry :=
  (db.files.lookup path).map fun row =>
    { path := path
      size := row.size.toUInt64
      modifiedAt := row.modifiedAt
      contentHash := row.contentHash
      mode := row.permissions }

/-- Upsert a chunk entry: one more file refers to it. -/
def upsertChunk (chunk : ChunkEntry) : Database :=
  match db.chunks.lookup chunk.hash with
  | some row => { db with
      chunks := db.chunks.insert chunk.hash { row with refCount := row.refCount + 1 } }
  | none => { db with
      chunks := db.chunks.insert chunk.hash ⟨db.nextChunk, chunk.size.toInt64, 1⟩
      nextChunk := db.nextChunk + 1 }

/-- The version of a manifest as it is stored. -/
def storedVersion (version : UInt64) : ℤ := version.toInt64.toInt

/-- The columns of a manifest that are unique. The folder path is always the default one. -/
def manifestKey (m : Manifest) : Text × Text × ℤ := (m.folderId, ['/'], storedVersion m.version)

/-- Insert a row for a manifest. -/
def insertManifest (m : Manifest) : Except IndexError (ℕ × Database) :=
  let row : ManifestRow :=
    { id := Numbered.rowId ManifestRow.id db.nextManifest db.manifests (manifestKey m)
      manifestHash := m.manifestHash.getD []
      fileCount := (UInt64.ofNat m.fileCount).toInt64
      totalSize := m.totalSize.toInt64 }
  if manifestKey m ∈ db.manifests then
    .error (.database
      "UNIQUE constraint failed: manifests.device_id, manifests.folder_path, manifests.version")
  else .ok (row.id, { db with
    manifests := db.manifests.insert (manifestKey m) row
    nextManifest := max db.nextManifest (row.id + 1)
    manifests_numbered := db.manifests_numbered.insert rfl
    references := fun h =>
      ⟨(db.references h).1.insert db.nextManifest rfl, (db.references h).2⟩ })

/-- Insert a row that lists a file in a manifest. -/
def insertManifestFile (manifest file : ℕ) (chunkList : Text) : Except IndexError Database :=
  if h : Numbered.Refers ManifestRow.id db.manifests manifest ∧
      Numbered.Refers FileRow.id db.files file then
    if (manifest, file) ∈ db.manifestFiles then
      .error (.database
        "UNIQUE constraint failed: manifest_files.manifest_id, manifest_files.file_id")
    else .ok { db with
      manifestFiles := db.manifestFiles.insert (manifest, file) chunkList
      references := by
        intro manifest' file' hmem
        obtain hkey | hmem := Finmap.mem_insert.mp hmem
        · obtain ⟨rfl, rfl⟩ := Prod.mk.inj hkey
          exact h
        · exact db.references hmem }
  else .error (.database "FOREIGN KEY constraint failed")

/-- Insert a file of a manifest. -/
def saveFile (json : ChunkListJson) (manifest : ℕ) (entry : ManifestEntry) :
    Except IndexError Database :=
  -- first, upsert the file
  (db.upsertFile entry.fileEntry).insertManifestFile manifest (db.fileId entry.path)
    (json.toText entry.chunkHashes)

/-- Insert the files of a manifest. -/
def saveFiles (json : ChunkListJson) (manifest : ℕ) :
    List ManifestEntry → Database → Except IndexError Database
  | [], db => .ok db
  | entry :: rest, db => (db.saveFile json manifest entry).bind (saveFiles json manifest rest)

/-- Save a manifest. Nothing is saved if that fails. -/
def saveManifest (json : ChunkListJson) (m : Manifest) : Except IndexError (ℕ × Database) :=
  (db.insertManifest m).bind fun inserted =>
    (saveFiles json inserted.1 m.files inserted.2).map (Prod.mk inserted.1)

/-- The versions of the manifests of a device and folder, as they are stored. -/
def versions (deviceId folderPath : Text) : Finset ℤ :=
  (db.manifests.keys.filter fun key => key.1 = deviceId ∧ key.2.1 = folderPath).image fun key =>
    key.2.2

/-- The latest version of a device and folder, as it is stored. -/
def latestVersion (deviceId folderPath : Text) : Option ℤ :=
  if h : (db.versions deviceId folderPath).Nonempty then
    some ((db.versions deviceId folderPath).max' h)
  else none

/-- A version that was stored. -/
def readVersion (stored : ℤ) : UInt64 := (Int64.ofInt stored).toUInt64

/-- Get the latest manifest version for a device and folder. -/
def getLatestManifestVersion (deviceId folderPath : Text) : Option UInt64 :=
  (db.latestVersion deviceId folderPath).map readVersion

/-- The rows of the files of a manifest with their paths and chunk lists, in the order of the
paths. -/
def manifestRows (manifest : ℕ) : List (Text × FileRow × Text) :=
  (db.files.keys.sort (· ≤ ·)).filterMap fun path =>
    (db.files.lookup path).bind fun row =>
      (db.manifestFiles.lookup (manifest, row.id)).map fun chunkList => (path, row, chunkList)

/-- The entry of a row. Its time of modification is the current time. -/
def readRow (json : ChunkListJson) (now : DateTime) (row : Text × FileRow × Text) :
    Except IndexError ManifestEntry :=
  match json.fromText row.2.2 with
  | none => .error (.database "Serialization error")
  | some chunkHashes => .ok
    { path := row.1
      size := row.2.1.size.toUInt64
      modifiedAt := now
      contentHash := row.2.1.contentHash
      chunkHashes := chunkHashes
      mode := row.2.1.permissions }

/-- The entries of some rows. The clock is read once for each of them. -/
def readRows (json : ChunkListJson) : (ℕ → DateTime) → List (Text × FileRow × Text) →
    Except IndexError (List ManifestEntry)
  | _, [] => .ok []
  | clock, row :: rest => (readRow json (clock 0) row).bind fun entry =>
    (readRows json (fun i => clock (i + 1)) rest).map (entry :: ·)

/-- Get the latest manifest for a device and folder. The clock is read for the manifest, and then
for each of its files. -/
def getLatestManifest (json : ChunkListJson) (clock : ℕ → DateTime) (deviceId folderPath : Text) :
    Except IndexError (Option Manifest) :=
  match (db.latestVersion deviceId folderPath).bind fun version =>
    (db.manifests.lookup (deviceId, folderPath, version)).map (Prod.mk version) with
  | none => .ok none
  | some (version, row) =>
    (readRows json (fun i => clock (i + 1)) (db.manifestRows row.id)).map fun files => some
      { folderId := deviceId
        version := readVersion version
        files := files
        createdAt := clock 0
        manifestHash := if row.manifestHash = [] then none else some row.manifestHash }

end Operations

/-! ## The tables after a step -/

section Steps

variable {db db' : Database} {json : ChunkListJson} {file : FileEntry} {entry : ManifestEntry}
  {manifest manifest' : ℕ} {path : Text}

/-- The chunk list of a file in a manifest, if the manifest lists it. -/
def chunkList (db : Database) (manifest : ℕ) (path : Text) : Option Text :=
  (db.files.lookup path).bind fun row => db.manifestFiles.lookup (manifest, row.id)

lemma lookup_manifestFiles_fileId :
    db.manifestFiles.lookup (manifest, db.fileId path) = db.chunkList manifest path := by
  cases hlookup : db.files.lookup path with
  | none =>
    rw [chunkList, hlookup, Option.bind_none, Finmap.lookup_eq_none]
    intro hmem
    rw [fileId, Numbered.rowId, hlookup] at hmem
    exact lt_irrefl _ ((db.references hmem).2.lt db.files_numbered)
  | some row =>
    rw [chunkList, hlookup, Option.bind_some, fileId, Numbered.rowId_of_lookup _ _ hlookup]

/-- The row of a file after it has been upserted. -/
lemma lookup_files_upsertFile (db : Database) (file : FileEntry) (path : Text) :
    (db.upsertFile file).files.lookup path =
      if path = file.path then
        some ⟨db.fileId path, file.size.toInt64, file.modifiedAt, file.contentHash, file.mode⟩
      else db.files.lookup path := by
  unfold upsertFile
  split
  · next h =>
    rw [h]
    exact Finmap.lookup_insert _
  · next h => exact Finmap.lookup_insert_of_ne _ h

/-- **What is upserted can be read**, and other files stay as they are. -/
lemma getFileByPath_upsertFile : (db.upsertFile file).getFileByPath path =
    if path = file.path then some file else db.getFileByPath path := by
  rw [getFileByPath, lookup_files_upsertFile]
  split
  · next h =>
    subst h
    rfl
  · rfl

/-- **No manifest lists other files** after a file has been upserted. -/
@[simp] lemma chunkList_upsertFile :
    (db.upsertFile file).chunkList manifest path = db.chunkList manifest path := by
  rw [chunkList, lookup_files_upsertFile]
  split
  · rw [Option.bind_some]
    exact lookup_manifestFiles_fileId
  · rfl

lemma upsertChunk_frame (db : Database) (chunk : ChunkEntry) :
    (db.upsertChunk chunk).files = db.files ∧ (db.upsertChunk chunk).manifests = db.manifests ∧
      (db.upsertChunk chunk).manifestFiles = db.manifestFiles := by
  unfold upsertChunk
  split <;> exact ⟨rfl, rfl, rfl⟩

/-- How many files refer to a chunk, as counted. -/
def refCount (db : Database) (hash : Text) : ℕ :=
  ((db.chunks.lookup hash).map ChunkRow.refCount).getD 0

/-- **One more file refers to a chunk** that is upserted. -/
lemma refCount_upsertChunk (db : Database) (chunk : ChunkEntry) (hash : Text) :
    (db.upsertChunk chunk).refCount hash =
      db.refCount hash + if chunk.hash = hash then 1 else 0 := by
  unfold upsertChunk refCount
  split
  · next row hrow =>
    by_cases h : chunk.hash = hash
    · subst h
      simp [hrow]
    · rw [if_neg h, Finmap.lookup_insert_of_ne _ (Ne.symm h), Nat.add_zero]
  · next hnone =>
    by_cases h : chunk.hash = hash
    · subst h
      simp [hnone]
    · rw [if_neg h, Finmap.lookup_insert_of_ne _ (Ne.symm h), Nat.add_zero]

/-- **What listing a file does**, if the manifest does not list it yet. -/
lemma insertManifestFile_cases {row : FileRow} (chunkList : Text)
    (hmanifest : Numbered.Refers ManifestRow.id db.manifests manifest)
    (hrow : db.files.lookup path = some row) :
    (db.chunkList manifest path ≠ none ∧
      ∃ e, db.insertManifestFile manifest row.id chunkList = .error e) ∨
    (db.chunkList manifest path = none ∧
      ∃ db', db.insertManifestFile manifest row.id chunkList = .ok db' ∧
        db'.files = db.files ∧ db'.manifests = db.manifests ∧ db'.chunks = db.chunks ∧
        ∀ manifest' path', db'.chunkList manifest' path' =
          if manifest' = manifest ∧ path' = path then some chunkList
          else db.chunkList manifest' path') := by
  have hlist : db.chunkList manifest path = db.manifestFiles.lookup (manifest, row.id) := by
    rw [Database.chunkList, hrow, Option.bind_some]
  have hrefers : Numbered.Refers FileRow.id db.files row.id :=
    Numbered.refers_iff.mpr ⟨path, row, hrow, rfl⟩
  unfold insertManifestFile
  rw [dif_pos ⟨hmanifest, hrefers⟩]
  by_cases hmem : (manifest, row.id) ∈ db.manifestFiles
  · refine .inl ⟨fun hnone => ?_, _, if_pos hmem⟩
    rw [hlist, Finmap.lookup_eq_none] at hnone
    exact hnone hmem
  · refine .inr ⟨hlist.trans (Finmap.lookup_eq_none.mpr hmem), _, if_neg hmem, rfl, rfl, rfl,
      fun manifest' path' => ?_⟩
    show ((db.files.lookup path').bind fun row' =>
      (db.manifestFiles.insert (manifest, row.id) chunkList).lookup (manifest', row'.id)) = _
    unfold Database.chunkList
    by_cases hpath : path' = path
    · subst hpath
      rw [hrow, Option.bind_some, Option.bind_some]
      by_cases hsame : manifest' = manifest
      · subst hsame
        rw [if_pos ⟨rfl, rfl⟩, Finmap.lookup_insert]
      · rw [if_neg fun h => hsame h.1, Finmap.lookup_insert_of_ne]
        exact fun h => hsame (Prod.mk.inj h).1
    · -- rows of other paths have other numbers
      rw [if_neg fun h => hpath h.2]
      cases hrow' : db.files.lookup path' with
      | none => rfl
      | some row' =>
        rw [Option.bind_some, Option.bind_some, Finmap.lookup_insert_of_ne]
        exact fun h => hpath (db.files_numbered.inj hrow' hrow (Prod.mk.inj h).2)

/-- **What saving a file does**, if the manifest does not list it yet. -/
lemma saveFile_cases (json : ChunkListJson) (entry : ManifestEntry)
    (hmanifest : Numbered.Refers ManifestRow.id db.manifests manifest) :
    (db.chunkList manifest entry.path ≠ none ∧ ∃ e, db.saveFile json manifest entry = .error e) ∨
    (db.chunkList manifest entry.path = none ∧
      ∃ db', db.saveFile json manifest entry = .ok db' ∧
        db'.files = (db.upsertFile entry.fileEntry).files ∧ db'.manifests = db.manifests ∧
        db'.chunks = db.chunks ∧
        ∀ manifest' path', db'.chunkList manifest' path' =
          if manifest' = manifest ∧ path' = entry.path then some (json.toText entry.chunkHashes)
          else db.chunkList manifest' path') := by
  have hrow := (lookup_files_upsertFile db entry.fileEntry entry.path).trans (if_pos rfl)
  have hupsert :
      Numbered.Refers ManifestRow.id (db.upsertFile entry.fileEntry).manifests manifest := hmanifest
  have hcases := insertManifestFile_cases (json.toText entry.chunkHashes) hupsert hrow
  simp only [chunkList_upsertFile] at hcases
  exact hcases

/-- What has been saved of the files of a manifest. -/
structure Saved (json : ChunkListJson) (manifest : ℕ) (entries : List ManifestEntry)
    (db db' : Database) : Prop where
  chunks : db'.chunks = db.chunks
  file_mem : ∀ entry ∈ entries, db'.getFileByPath entry.path = some entry.fileEntry
  file_notMem : ∀ path ∉ entries.map ManifestEntry.path,
    db'.getFileByPath path = db.getFileByPath path
  list_mem : ∀ entry ∈ entries,
    db'.chunkList manifest entry.path = some (json.toText entry.chunkHashes)
  list_notMem : ∀ manifest' path, (manifest' = manifest → path ∉ entries.map ManifestEntry.path) →
    db'.chunkList manifest' path = db.chunkList manifest' path

/-- A file is saved before the others. -/
lemma Saved.cons {entries : List ManifestEntry} {db₁ : Database}
    (h : Saved json manifest entries db₁ db')
    (hchunks : db₁.chunks = db.chunks)
    (hfile : ∀ path, db₁.getFileByPath path =
      if path = entry.path then some entry.fileEntry else db.getFileByPath path)
    (hlist : ∀ manifest' path, db₁.chunkList manifest' path =
      if manifest' = manifest ∧ path = entry.path then some (json.toText entry.chunkHashes)
      else db.chunkList manifest' path)
    (hnotMem : entry.path ∉ entries.map ManifestEntry.path) :
    Saved json manifest (entry :: entries) db db' where
  chunks := h.chunks.trans hchunks
  file_mem := by
    refine List.forall_mem_cons.mpr ⟨?_, h.file_mem⟩
    rw [h.file_notMem _ hnotMem, hfile, if_pos rfl]
  file_notMem := by
    intro path hpath
    rw [List.map_cons, List.mem_cons, not_or] at hpath
    rw [h.file_notMem _ hpath.2, hfile, if_neg hpath.1]
  list_mem := by
    refine List.forall_mem_cons.mpr ⟨?_, h.list_mem⟩
    rw [h.list_notMem _ _ fun _ => hnotMem, hlist, if_pos ⟨rfl, rfl⟩]
  list_notMem := by
    intro manifest' path hpath
    have hother : manifest' = manifest → path ≠ entry.path ∧
        path ∉ entries.map ManifestEntry.path := fun hsame => by
      simpa [not_or] using hpath hsame
    rw [h.list_notMem _ _ fun hsame => (hother hsame).2, hlist,
      if_neg fun hboth => (hother hboth.1).1 hboth.2]

/-- **The files of a manifest can be saved** if their paths are distinct, and the manifest does not
list them yet. -/
theorem saveFiles_cases (json : ChunkListJson) (entries : List ManifestEntry)
    (hmanifest : Numbered.Refers ManifestRow.id db.manifests manifest) :
    (((entries.map ManifestEntry.path).Nodup ∧
        ∀ entry ∈ entries, db.chunkList manifest entry.path = none) ∧
      ∃ db', saveFiles json manifest entries db = .ok db' ∧ db'.manifests = db.manifests ∧
        Saved json manifest entries db db') ∨
    (¬ ((entries.map ManifestEntry.path).Nodup ∧
        ∀ entry ∈ entries, db.chunkList manifest entry.path = none) ∧
      ∃ e, saveFiles json manifest entries db = .error e) := by
  induction entries generalizing db with
  | nil =>
    refine .inl ⟨⟨List.nodup_nil, nofun⟩, db, rfl, rfl, rfl, nofun, fun _ _ => rfl,
      nofun, fun _ _ _ => rfl⟩
  | cons entry entries ih =>
    obtain ⟨hlisted, e, herror⟩ | ⟨hnew, db₁, hok, hfiles, hmanifests, hchunks, hlist⟩ :=
      saveFile_cases json entry hmanifest
    · refine .inr ⟨fun h => hlisted (h.2 entry List.mem_cons_self), e, ?_⟩
      rw [saveFiles, herror]
      rfl
    · have hfile (path : Text) : db₁.getFileByPath path =
          if path = entry.path then some entry.fileEntry else db.getFileByPath path := by
        rw [getFileByPath, hfiles]
        exact getFileByPath_upsertFile
      have hrest (other : ManifestEntry) : db₁.chunkList manifest other.path = none ↔
          other.path ≠ entry.path ∧ db.chunkList manifest other.path = none := by
        rw [hlist]
        by_cases hpath : other.path = entry.path
        · simp [hpath]
        · simp [hpath]
      have hnext : saveFiles json manifest (entry :: entries) db =
          saveFiles json manifest entries db₁ := by
        rw [saveFiles, hok]
        rfl
      have hcond : ((entries.map ManifestEntry.path).Nodup ∧
            ∀ other ∈ entries, db₁.chunkList manifest other.path = none) ↔
          (((entry :: entries).map ManifestEntry.path).Nodup ∧
            ∀ other ∈ entry :: entries, db.chunkList manifest other.path = none) := by
        rw [List.map_cons, List.nodup_cons, List.forall_mem_cons]
        constructor
        · rintro ⟨hnodup, hall⟩
          refine ⟨⟨fun hmem => ?_, hnodup⟩, hnew,
            fun other hother => ((hrest other).mp (hall other hother)).2⟩
          obtain ⟨other, hother, hpath⟩ := List.mem_map.mp hmem
          exact ((hrest other).mp (hall other hother)).1 hpath
        · rintro ⟨⟨hnotMem, hnodup⟩, -, hall⟩
          refine ⟨hnodup, fun other hother => (hrest other).mpr
            ⟨fun hpath => hnotMem ?_, hall other hother⟩⟩
          exact List.mem_map.mpr ⟨other, hother, hpath⟩
      obtain ⟨hC, db', hok', hmanifests', hsaved⟩ | ⟨hC, e, herror⟩ := ih (hmanifests ▸ hmanifest)
      · refine .inl ⟨hcond.mp hC, db', hnext.trans hok', hmanifests'.trans hmanifests, ?_⟩
        exact hsaved.cons hchunks hfile hlist (List.nodup_cons.mp (hcond.mp hC).1).1
      · exact .inr ⟨fun h => hC (hcond.mpr h), e, hnext.trans herror⟩

/-- The row of a manifest. -/
def manifestRow (db : Database) (m : Manifest) : ManifestRow where
  id := Numbered.rowId ManifestRow.id db.nextManifest db.manifests (manifestKey m)
  manifestHash := m.manifestHash.getD []
  fileCount := (UInt64.ofNat m.fileCount).toInt64
  totalSize := m.totalSize.toInt64

variable {m : Manifest}

lemma chunkList_manifestRow (h : manifestKey m ∉ db.manifests) :
    db.chunkList (db.manifestRow m).id path = none := by
  rw [chunkList, Option.bind_eq_none_iff]
  intro row _
  rw [Finmap.lookup_eq_none]
  intro hmem
  have hlt := (db.references hmem).1.lt db.manifests_numbered
  rw [manifestRow, Numbered.rowId_of_notMem h] at hlt
  exact lt_irrefl _ hlt

/-- **Which manifests can be saved**: those of a new version, whose paths are distinct. -/
theorem saveManifest_cases (db : Database) (json : ChunkListJson) (m : Manifest) :
    ((manifestKey m ∉ db.manifests ∧ (m.files.map ManifestEntry.path).Nodup) ∧
      ∃ db', db.saveManifest json m = .ok ((db.manifestRow m).id, db') ∧
        db'.manifests = db.manifests.insert (manifestKey m) (db.manifestRow m) ∧
        Saved json (db.manifestRow m).id m.files db db') ∨
    (¬ (manifestKey m ∉ db.manifests ∧ (m.files.map ManifestEntry.path).Nodup) ∧
      ∃ e, db.saveManifest json m = .error e) := by
  by_cases hkey : manifestKey m ∈ db.manifests
  · obtain ⟨e, herror⟩ : ∃ e, db.insertManifest m = .error e := ⟨_, if_pos hkey⟩
    refine .inr ⟨fun h => h.1 hkey, e, ?_⟩
    rw [saveManifest, herror]
    rfl
  · obtain ⟨db₁, hinsert, hmanifests, hsame⟩ : ∃ db₁, db.insertManifest m =
          .ok ((db.manifestRow m).id, db₁) ∧
        db₁.manifests = db.manifests.insert (manifestKey m) (db.manifestRow m) ∧
        db₁.files = db.files ∧ db₁.manifestFiles = db.manifestFiles ∧ db₁.chunks = db.chunks := by
      refine ⟨_, if_neg hkey, rfl, rfl, rfl, rfl⟩
    obtain ⟨hfiles, hlists, hchunks⟩ := hsame
    have hlist (manifest : ℕ) (path : Text) :
        db₁.chunkList manifest path = db.chunkList manifest path := by
      rw [chunkList, hfiles, hlists]
      rfl
    have hrefers : Numbered.Refers ManifestRow.id db₁.manifests (db.manifestRow m).id := by
      rw [hmanifests]
      exact Numbered.refers_insert_self
    have hsave : db.saveManifest json m = (saveFiles json (db.manifestRow m).id m.files db₁).map
        (Prod.mk (db.manifestRow m).id) := by
      rw [saveManifest, hinsert]
      rfl
    have hnew : ∀ entry ∈ m.files, db₁.chunkList (db.manifestRow m).id entry.path = none :=
      fun entry _ => (hlist _ _).trans (chunkList_manifestRow hkey)
    obtain ⟨hC, db', hok, hmanifests', hsaved⟩ | ⟨hC, e, herror⟩ :=
      saveFiles_cases json m.files hrefers
    · refine .inl ⟨⟨hkey, hC.1⟩, db', ?_, hmanifests'.trans hmanifests, ?_⟩
      · rw [hsave, hok]
        rfl
      · refine ⟨hsaved.chunks.trans hchunks, hsaved.file_mem, fun path hpath => ?_, hsaved.list_mem,
          fun manifest' path hpath => (hsaved.list_notMem manifest' path hpath).trans (hlist _ _)⟩
        rw [hsaved.file_notMem path hpath, getFileByPath, hfiles]
        rfl
    · refine .inr ⟨fun h => hC ⟨h.2, hnew⟩, e, ?_⟩
      rw [hsave, herror]
      rfl

end Steps

/-! ## The latest version -/

section Versions

variable {db : Database} {deviceId folderPath : Text}

lemma mem_versions {version : ℤ} : version ∈ db.versions deviceId folderPath ↔
    (deviceId, folderPath, version) ∈ db.manifests := by
  simp only [versions, Finset.mem_image, Finset.mem_filter, Finmap.mem_keys]
  constructor
  · rintro ⟨⟨_, _, _⟩, ⟨hmem, rfl, rfl⟩, rfl⟩
    exact hmem
  · intro hmem
    exact ⟨_, ⟨hmem, rfl, rfl⟩, rfl⟩

/-- **The latest version** is the greatest as it is stored. -/
theorem latestVersion_eq_some_iff {version : ℤ} :
    db.latestVersion deviceId folderPath = some version ↔
      version ∈ db.versions deviceId folderPath ∧
        ∀ other ∈ db.versions deviceId folderPath, other ≤ version := by
  unfold latestVersion
  split
  · next h =>
    rw [Option.some_inj]
    constructor
    · rintro rfl
      exact ⟨Finset.max'_mem _ h, fun other => Finset.le_max' _ other⟩
    · rintro ⟨hmem, hmax⟩
      exact le_antisymm (Finset.max'_le _ h _ hmax) (Finset.le_max' _ _ hmem)
  · next h =>
    refine iff_of_false nofun fun hversion => h ⟨_, hversion.1⟩

lemma latestVersion_eq_none_iff :
    db.latestVersion deviceId folderPath = none ↔ db.versions deviceId folderPath = ∅ := by
  unfold latestVersion
  split
  · next h => exact iff_of_false nofun h.ne_empty
  · next h => exact iff_of_true rfl (Finset.not_nonempty_iff_eq_empty.mp h)

@[simp] lemma readVersion_storedVersion (version : UInt64) :
    readVersion (storedVersion version) = version := by
  rw [readVersion, storedVersion, Int64.ofInt_toInt]
  rfl

end Versions

end Database

end Landropic
