import Landropic.Index.Walk

set_option autoImplicit false

/-!
# The file indexer

A run over a folder walks through it, stores the chunks of each file, and saves a manifest of the
files of which that succeeded. The manifest gets the version after the latest one that is found for
the folder.

## Main definitions

* `FileIndexer.indexFile` — a single file.
* `FileIndexer.indexFolder` — a folder.
* `FileIndexer.Indexed` — a file of which a run makes an entry.

## Main results

* `FileIndexer.indexFolder_cases` — what a run returns.

## Design

The chunk store is not modelled: a chunk that cannot be stored is one of the faults of a file. Of a
fault is given how many chunks have been counted before it. The version of a manifest wraps around.
-/

namespace Landropic

/-- What a run over a folder meets. -/
structure Scan extends Walked where
  /-- The path of the folder. -/
  folderPath : Bytes
  /-- The same path in canonical form, if there is one. -/
  canonicalPath : Except IndexError Bytes
  /-- Why files are not indexed, and how many of their chunks have been counted until then. -/
  fileFault : RelPath → Option (ℕ × IndexError)
  /-- When the manifest is created. -/
  now : DateTime

/-- Nothing fails during a run over a folder with this canonical path. -/
structure Scan.Clean (canonicalPath : Bytes) (scan : Scan) : Prop where
  canonicalPath : scan.canonicalPath = .ok canonicalPath
  dirFault : ∀ dir, scan.dirFault dir = none
  fileFault : ∀ path, scan.fileFault path = none

/-- A run in which nothing fails, at the beginning of time. -/
def Scan.over (folderPath : Bytes) (tree : FolderTree) : Scan where
  tree := tree
  order := .sortedBy FileIndexer.components FileIndexer.components_injective
  dirFault := fun _ => none
  folderPath := folderPath
  canonicalPath := .ok folderPath
  fileFault := fun _ => none
  now := ⟨0, 0⟩

lemma Scan.clean_over (folderPath : Bytes) (tree : FolderTree) :
    (Scan.over folderPath tree).Clean folderPath := ⟨rfl, fun _ => rfl, fun _ => rfl⟩

/-- Append a name to the path of a directory. -/
def joinPath (dir name : Bytes) : Bytes :=
  if dir = [] ∨ dir.getLast? = some 47 then dir ++ name else dir ++ 47 :: name

/-- The path of an entry of a folder. -/
def filePath (folderPath : Bytes) : RelPath → Bytes
  | [] => folderPath
  | name :: dir => joinPath (filePath folderPath dir) name

namespace FileIndexer

section Operations

variable (ix : FileIndexer) (blake3 : Bytes → ContentHash) (json : ChunkListJson)

/-- Calculate file content hash from chunk hashes. -/
def calculateFileHash (chunkHashes : List Text) : Text :=
  (blake3 (chunkHashes.flatMap Text.utf8)).toHex

/-- Generate folder ID from canonical path. -/
def pathToFolderId (path : Bytes) : Text := (blake3 (Text.toStringLossy path).utf8).toHex

/-- The chunks of a file. -/
def chunksOf (data : FileData) : List Chunk :=
  -- chunking succeeds, see `Chunker.exists_chunkBytes`
  (ix.chunker.chunkBytes blake3 data.content).getD []

/-- The manifest entry of a file. -/
def entryOf (path : Bytes) (data : FileData) : ManifestEntry :=
  let chunkHashes := (ix.chunksOf blake3 data).map fun chunk => chunk.hash.toHex
  { path := Text.toStringLossy path
    size := UInt64.ofNat data.content.length
    modifiedAt := data.modified
    contentHash := calculateFileHash blake3 chunkHashes
    chunkHashes := chunkHashes
    mode := data.mode }

/-- Store chunk metadata in the database. -/
def storeChunks (chunks : List Chunk) (db : Database) : Database :=
  chunks.foldl (fun db chunk =>
    db.upsertChunk ⟨chunk.hash.toHex, UInt64.ofNat chunk.data.length⟩) db

/-- Index a single file. -/
def indexFile (path : Bytes) (data : Option FileData) (fault : Option (ℕ × IndexError))
    (db : Database) : Except IndexError ManifestEntry × Database :=
  match data with
  | none => (.error (.invalidFileType path), db)
  | some data =>
    match fault with
    | some fault => (.error fault.2, storeChunks ((ix.chunksOf blake3 data).take fault.1) db)
    | none =>
      let entry := ix.entryOf blake3 path data
      (.ok entry, (storeChunks (ix.chunksOf blake3 data) db).upsertFile entry.fileEntry)

/-- The regular file at a path in a folder. -/
def dataAt (tree : FolderTree) (path : RelPath) : Option FileData :=
  (tree.lookup path).bind FolderNode.data

/-- Index the files of a folder. One that fails is left out. -/
def indexFiles (scan : Scan) : List RelPath → Manifest → Database → Manifest × Database
  | [], m, db => (m, db)
  | path :: rest, m, db =>
    match ix.indexFile blake3 (filePath scan.folderPath path) (dataAt scan.tree path)
      (scan.fileFault path) db with
    | (.ok entry, db) => indexFiles scan rest (m.addFile entry) db
    | (.error _, db) => indexFiles scan rest m db

/-- The next version number of a folder. -/
def nextVersion (db : Database) (canonicalPath : Bytes) : UInt64 :=
  (db.getLatestManifestVersion (pathToFolderId blake3 canonicalPath)
    (Text.toStringLossy canonicalPath)).getD 0 + 1

/-- Index a folder and create a manifest. -/
def indexFolder (scan : Scan) (db : Database) : Except IndexError Manifest × Database :=
  match scan.canonicalPath with
  | .error e => (.error e, db)
  | .ok canonicalPath =>
    match ix.walkDirectory scan.toWalked with
    | .error e => (.error e, db)
    | .ok files =>
      let indexed := ix.indexFiles blake3 scan files
        (Manifest.new scan.now (pathToFolderId blake3 canonicalPath)
          (nextVersion blake3 db canonicalPath)) db
      let manifest := indexed.1.finalize blake3
      match indexed.2.saveManifest json manifest with
      | .ok saved => (.ok manifest, saved.2)
      | .error e => (.error e, indexed.2)

/-- The entry that a run makes of a file, if it does. -/
def entryAt (scan : Scan) (path : RelPath) : Option ManifestEntry :=
  match scan.fileFault path with
  | some _ => none
  | none => (dataAt scan.tree path).map (ix.entryOf blake3 (filePath scan.folderPath path))

/-- A file of which a run makes an entry. -/
def Indexed (scan : Scan) (path : RelPath) : Prop :=
  ix.Listed scan.tree path ∧ scan.fileFault path = none ∧ dataAt scan.tree path ≠ none

/-- The path of a file, as it is written into the manifest. -/
def pathText (scan : Scan) (path : RelPath) : Text :=
  Text.toStringLossy (filePath scan.folderPath path)

/-- A run indexes a file whose path is written like this. -/
def Shown (scan : Scan) (text : Text) : Prop :=
  ∃ path, ix.Indexed scan path ∧ pathText scan path = text

/-- The files of which a run makes entries have different paths as they are written. -/
def Distinct (scan : Scan) : Prop :=
  ∀ path path', ix.Indexed scan path → ix.Indexed scan path' →
    pathText scan path = pathText scan path' → path = path'

/-- A manifest of what a run indexes. -/
structure Describes (scan : Scan) (m : Manifest) : Prop where
  manifestHash : m.manifestHash = some (m.calculateHash blake3).toHex
  mem_files : ∀ {entry}, entry ∈ m.files ↔
    ∃ path, ix.Indexed scan path ∧ ix.entryAt blake3 scan path = some entry
  nodup_iff : (m.files.map ManifestEntry.path).Nodup ↔ ix.Distinct scan

end Operations

/-- The indexer with the default configurations. -/
protected def default : FileIndexer where
  chunker := .ofValid .default ChunkerConfig.validate_default
  config := .default

/-- A function with the values of `blake3` on the paths `/` and `/a` as well. -/
def pathSample (data : Bytes) : ContentHash :=
  if data = [47] then
    ⟨[50, 159, 133, 172, 110, 99, 16, 248, 252, 129, 72, 164, 131, 7, 0, 42,
      209, 171, 92, 73, 58, 129, 95, 214, 17, 107, 42, 82, 173, 216, 7, 217], rfl⟩
  else if data = [47, 97] then
    ⟨[211, 124, 138, 161, 111, 236, 248, 229, 116, 173, 162, 168, 235, 18, 78, 104,
      225, 35, 253, 99, 211, 102, 175, 125, 131, 191, 222, 158, 64, 45, 152, 10], rfl⟩
  else Manifest.leafSample data

section Runs

variable {ix : FileIndexer} {blake3 : Bytes → ContentHash} {json : ChunkListJson} {scan : Scan}
  {db : Database} {path : RelPath}

lemma path_of_entryAt {entry : ManifestEntry} (h : ix.entryAt blake3 scan path = some entry) :
    entry.path = pathText scan path := by
  rw [entryAt] at h
  split at h
  · cases h
  · obtain ⟨data, -, rfl⟩ := Option.map_eq_some_iff.mp h
    rfl

lemma exists_entryAt_iff (blake3 : Bytes → ContentHash) :
    (∃ entry, ix.entryAt blake3 scan path = some entry) ↔
      scan.fileFault path = none ∧ dataAt scan.tree path ≠ none := by
  rw [entryAt]
  cases scan.fileFault path with
  | some fault => simp
  | none => simp [Option.ne_none_iff_exists']

@[simp] lemma manifests_storeChunks (chunks : List Chunk) (db : Database) :
    (storeChunks chunks db).manifests = db.manifests := by
  induction chunks generalizing db with
  | nil => rfl
  | cons chunk rest ih => exact (ih _).trans (Database.upsertChunk_frame ..).2.1

/-- A file that is indexed leaves the manifests, and its entry is returned. -/
lemma indexFile_spec (ix : FileIndexer) (blake3 : Bytes → ContentHash) (scan : Scan)
    (path : RelPath) (db : Database) :
    (ix.indexFile blake3 (filePath scan.folderPath path) (dataAt scan.tree path)
      (scan.fileFault path) db).1.toOption = ix.entryAt blake3 scan path ∧
    (ix.indexFile blake3 (filePath scan.folderPath path) (dataAt scan.tree path)
      (scan.fileFault path) db).2.manifests = db.manifests := by
  unfold indexFile entryAt
  cases dataAt scan.tree path with
  | none => cases scan.fileFault path <;> exact ⟨rfl, rfl⟩
  | some data =>
    cases scan.fileFault path with
    | some fault => exact ⟨rfl, manifests_storeChunks ..⟩
    | none => exact ⟨rfl, manifests_storeChunks ..⟩

/-- **The files of a folder**: the manifest has the entries of those that do not fail. -/
lemma indexFiles_spec (ix : FileIndexer) (blake3 : Bytes → ContentHash) (scan : Scan)
    (files : List RelPath) (m : Manifest) (db : Database) :
    (ix.indexFiles blake3 scan files m db).1 =
      { m with files := m.files ++ files.filterMap (ix.entryAt blake3 scan) } ∧
    (ix.indexFiles blake3 scan files m db).2.manifests = db.manifests := by
  induction files generalizing m db with
  | nil => simp [indexFiles]
  | cons path rest ih =>
    obtain ⟨hentry, hmanifests⟩ := indexFile_spec ix blake3 scan path db
    rw [indexFiles, List.filterMap_cons, ← hentry]
    split
    · next entry db' hrun =>
      rw [hrun] at hmanifests ⊢
      obtain ⟨hfiles, hsame⟩ := ih (m.addFile entry) db'
      refine ⟨?_, hsame.trans hmanifests⟩
      rw [hfiles]
      simp [Manifest.addFile, Except.toOption]
    · next e db' hrun =>
      rw [hrun] at hmanifests ⊢
      obtain ⟨hfiles, hsame⟩ := ih m db'
      exact ⟨hfiles, hsame.trans hmanifests⟩

lemma map_path_entries (files : List RelPath) :
    (files.filterMap (ix.entryAt blake3 scan)).map ManifestEntry.path =
      (files.filter fun path => (ix.entryAt blake3 scan path).isSome).map (pathText scan) := by
  induction files with
  | nil => rfl
  | cons path rest ih =>
    rw [List.filterMap_cons, List.filter_cons]
    cases hentry : ix.entryAt blake3 scan path with
    | none => simpa using ih
    | some entry => simpa [path_of_entryAt hentry] using ih

lemma describes_of_walk {files : List RelPath} (hnodup : files.Nodup)
    (hfiles : ∀ path, path ∈ files ↔ ix.Listed scan.tree path) {m : Manifest}
    (hm : m.files = files.filterMap (ix.entryAt blake3 scan)) :
    ix.Describes blake3 scan (m.finalize blake3) := by
  have hindexed : ∀ path, ix.Indexed scan path ↔
      path ∈ files ∧ ∃ entry, ix.entryAt blake3 scan path = some entry := by
    intro path
    rw [Indexed, hfiles, exists_entryAt_iff blake3]
  refine ⟨rfl, ?_, ?_⟩
  · intro entry
    rw [Manifest.files_finalize, hm, List.mem_filterMap]
    constructor
    · rintro ⟨path, hpath, hentry⟩
      exact ⟨path, (hindexed path).mpr ⟨hpath, entry, hentry⟩, hentry⟩
    · rintro ⟨path, hpath, hentry⟩
      exact ⟨path, ((hindexed path).mp hpath).1, hentry⟩
  · have hmem : ∀ path, (path ∈ files.filter fun path => (ix.entryAt blake3 scan path).isSome) ↔
        ix.Indexed scan path := by
      intro path
      rw [hindexed, List.mem_filter, Option.isSome_iff_exists]
    rw [Manifest.files_finalize, hm, map_path_entries,
      List.nodup_map_iff_inj_on (hnodup.filter _), Distinct]
    simp only [hmem]
    constructor
    · exact fun h path path' hpath hpath' => h path hpath path' hpath'
    · exact fun h path hpath path' hpath' => h path path' hpath hpath'

/-- **What a run returns** if all directories can be read: the manifest of what it indexes, if it is
of a new version and the paths of its files are distinct. -/
theorem indexFolder_cases (ix : FileIndexer) (blake3 : Bytes → ContentHash) (json : ChunkListJson)
    (scan : Scan) (db : Database) {canonicalPath : Bytes}
    (hcanonical : scan.canonicalPath = .ok canonicalPath)
    (hread : ∀ dir, ix.Entered scan.tree dir → scan.dirFault dir = none) :
    ∃ m : Manifest, m.folderId = pathToFolderId blake3 canonicalPath ∧
      m.version = nextVersion blake3 db canonicalPath ∧ ix.Describes blake3 scan m ∧
      ((Database.manifestKey m ∉ db.manifests ∧ ix.Distinct scan ∧
          ∃ db' row, ix.indexFolder blake3 json scan db = (.ok m, db') ∧
            db'.manifests = db.manifests.insert (Database.manifestKey m) row) ∨
        (¬ (Database.manifestKey m ∉ db.manifests ∧ ix.Distinct scan) ∧
          ∃ e db', ix.indexFolder blake3 json scan db = (.error e, db') ∧
            db'.manifests = db.manifests)) := by
  obtain ⟨dir, e, hentered, hfault, -⟩ | ⟨-, files, hwalk, hnodup, hfiles, -⟩ :=
    walkDirectory_cases ix scan.toWalked
  · exact absurd (hfault.symm.trans (hread dir hentered)) nofun
  obtain ⟨hmanifest, hsame⟩ := indexFiles_spec ix blake3 scan files
    (Manifest.new scan.now (pathToFolderId blake3 canonicalPath)
      (nextVersion blake3 db canonicalPath)) db
  set indexed := ix.indexFiles blake3 scan files
    (Manifest.new scan.now (pathToFolderId blake3 canonicalPath)
      (nextVersion blake3 db canonicalPath)) db with hindexed
  have hdescribes : ix.Describes blake3 scan (indexed.1.finalize blake3) :=
    describes_of_walk hnodup hfiles (by rw [hmanifest]; rfl)
  have hrun : ix.indexFolder blake3 json scan db =
      match indexed.2.saveManifest json (indexed.1.finalize blake3) with
      | .ok saved => (.ok (indexed.1.finalize blake3), saved.2)
      | .error e => (.error e, indexed.2) := by
    rw [indexFolder, hcanonical]
    dsimp only
    rw [hwalk]
  refine ⟨indexed.1.finalize blake3, by rw [hmanifest]; rfl, by rw [hmanifest]; rfl, hdescribes, ?_⟩
  obtain ⟨⟨hnew, hpaths⟩, db', hok, hinsert, -⟩ | ⟨hnot, e, herror⟩ :=
    Database.saveManifest_cases indexed.2 json (indexed.1.finalize blake3)
  · rw [hsame] at hnew hinsert
    refine .inl ⟨hnew, hdescribes.nodup_iff.mp hpaths, db', _, ?_, hinsert⟩
    rw [hrun, hok]
  · rw [hsame, hdescribes.nodup_iff] at hnot
    refine .inr ⟨hnot, e, indexed.2, ?_, hsame⟩
    rw [hrun, herror]

/-- **A run that returns a manifest** returns that of what it indexes. -/
theorem describes_of_ok {m : Manifest} (h : (ix.indexFolder blake3 json scan db).1 = .ok m) :
    ix.Describes blake3 scan m := by
  cases hcanonical : scan.canonicalPath with
  | error e =>
    rw [indexFolder, hcanonical] at h
    cases h
  | ok canonicalPath =>
    obtain ⟨dir, e, -, -, hwalk⟩ | ⟨hread, -⟩ := walkDirectory_cases ix scan.toWalked
    · rw [indexFolder, hcanonical] at h
      dsimp only at h
      rw [hwalk] at h
      cases h
    · obtain ⟨m', -, -, hdescribes, hcases⟩ :=
        indexFolder_cases ix blake3 json scan db hcanonical hread
      obtain ⟨-, -, db', row, hok, -⟩ | ⟨-, e, db', herror, -⟩ := hcases
      · rw [hok] at h
        exact Except.ok.inj h ▸ hdescribes
      · rw [herror] at h
        cases h

lemma Describes.exists_path_iff {m : Manifest} (h : ix.Describes blake3 scan m) {text : Text} :
    (∃ entry ∈ m.files, entry.path = text) ↔ ix.Shown scan text := by
  constructor
  · rintro ⟨entry, hentry, rfl⟩
    obtain ⟨path, hindexed, hat⟩ := h.mem_files.mp hentry
    exact ⟨path, hindexed, (path_of_entryAt hat).symm⟩
  · rintro ⟨path, hindexed, rfl⟩
    obtain ⟨entry, hat⟩ := (exists_entryAt_iff blake3).mpr hindexed.2
    exact ⟨entry, h.mem_files.mpr ⟨path, hindexed, hat⟩, path_of_entryAt hat⟩

end Runs

/-! ## A folder with one file -/

/-- A folder with an empty file `a`. -/
def emptyFile : FolderTree := .insert [[97]] (.file ⟨[], ⟨0, 0⟩, none⟩) ∅

lemma listed_emptyFile {path : RelPath} :
    FileIndexer.default.Listed emptyFile path ↔ path = [[97]] := by
  constructor
  · intro hlisted
    cases path with
    | nil => exact hlisted.elim
    | cons name dir =>
      have haction : FileIndexer.default.actionAt (Scan.over [47] emptyFile).tree (name :: dir) ≠
          .skip := by
        rw [show FileIndexer.default.actionAt (Scan.over [47] emptyFile).tree (name :: dir) = .list
          from hlisted.2]
        decide
      obtain hmem | hmem := Finmap.mem_insert.mp (mem_of_actionAt haction).1
      · exact hmem
      · exact absurd hmem Finmap.notMem_empty
  · rintro rfl
    exact ⟨trivial, by decide +kernel⟩

lemma indexed_emptyFile : FileIndexer.default.Indexed (Scan.over [47] emptyFile) [[97]] :=
  ⟨listed_emptyFile.mpr rfl, rfl, by decide +kernel⟩

lemma distinct_emptyFile : FileIndexer.default.Distinct (Scan.over [47] emptyFile) := by
  intro path path' hpath hpath' _
  rw [listed_emptyFile.mp hpath.1, listed_emptyFile.mp hpath'.1]

end FileIndexer

end Landropic
