import Landropic.Index.Indexer

set_option autoImplicit false

/-!
# Reference counts of chunks

Whenever a file is indexed, one more reference to each of its chunks is counted. None is ever taken
away.

## Main definitions

* `FileIndexer.IndexRun` — a file or a folder is indexed.
* `FileIndexer.Touch` — what a run counts for a file.
* `FileIndexer.currentTouches` — the last versions of the files that are still there.

## Main results

* `FileIndexer.refCount_runs` — the references that are counted are all that ever were.
* `FileIndexer.refCount_exact_iff` — when they are those of the current versions.
-/

namespace Landropic

namespace FileIndexer

/-- A file or a folder is indexed. -/
inductive IndexRun
  | file (path : Bytes) (data : Option FileData) (fault : Option (ℕ × IndexError))
  | folder (scan : Scan)

/-- The chunks that are counted for a version of a file, and whether it has been indexed. -/
structure Touch where
  path : Bytes
  chunkHashes : List Text
  indexed : Bool

section Runs

variable (ix : FileIndexer) (blake3 : Bytes → ContentHash) (json : ChunkListJson)

/-- What is returned by a run, and the database after it. -/
def runIndex (db : Database) : IndexRun → Bool × Database
  | .file path data fault =>
    let result := ix.indexFile blake3 path data fault db
    (result.1.isOk, result.2)
  | .folder scan =>
    let result := ix.indexFolder blake3 json scan db
    (result.1.isOk, result.2)

/-- The database after some runs. -/
def runs (db : Database) (rs : List IndexRun) : Database :=
  rs.foldl (fun db r => (ix.runIndex blake3 json db r).2) db

/-- What is counted when a file is indexed. -/
def touchOf (path : Bytes) (data : Option FileData) (fault : Option (ℕ × IndexError)) :
    Option Touch :=
  data.map fun data =>
    { path := path
      chunkHashes := ((ix.chunksOf blake3 data).take (fault.elim
        (ix.chunksOf blake3 data).length Prod.fst)).map fun chunk => chunk.hash.toHex
      indexed := fault.isNone }

/-- What is counted in a run. -/
def touches : IndexRun → List Touch
  | .file path data fault => (ix.touchOf blake3 path data fault).toList
  | .folder scan =>
    match scan.canonicalPath, ix.walkDirectory scan.toWalked with
    | .ok _, .ok files => files.filterMap fun path =>
      ix.touchOf blake3 (filePath scan.folderPath path) (dataAt scan.tree path)
        (scan.fileFault path)
    | _, _ => []

end Runs

/-- A version of a file is current, given what has been counted after it: it has been indexed, the
file is still there and has not been indexed again. -/
def Current (gone : Finset Bytes) (touch : Touch) (later : List Touch) : Prop :=
  touch.indexed = true ∧ touch.path ∉ gone ∧
    ∀ other ∈ later, other.indexed = true → other.path ≠ touch.path

instance (gone : Finset Bytes) (touch : Touch) (later : List Touch) :
    Decidable (Current gone touch later) :=
  inferInstanceAs (Decidable (_ ∧ _ ∧ ∀ other ∈ later, _ → _))

/-- The current versions of the files that have been indexed, some of which are gone. -/
def currentTouches (gone : Finset Bytes) : List Touch → List Touch
  | [] => []
  | touch :: later =>
    if Current gone touch later then touch :: currentTouches gone later
    else currentTouches gone later

/-- All others: what has been indexed again or is gone, and files that failed. -/
def staleTouches (gone : Finset Bytes) : List Touch → List Touch
  | [] => []
  | touch :: later =>
    if Current gone touch later then staleTouches gone later
    else touch :: staleTouches gone later

/-- How often a chunk occurs in some versions of files. -/
def occurrences (touches : List Touch) (hash : Text) : ℕ :=
  (touches.map fun touch => touch.chunkHashes.count hash).sum

section Counts

variable {ix : FileIndexer} {blake3 : Bytes → ContentHash} {json : ChunkListJson} {scan : Scan}
  {db : Database} {hash : Text}

lemma occurrences_append (touches more : List Touch) (hash : Text) :
    occurrences (touches ++ more) hash = occurrences touches hash + occurrences more hash := by
  rw [occurrences, List.map_append, List.sum_append]
  rfl

lemma chunksOf_eq_nil_iff {data : FileData} :
    ix.chunksOf blake3 data = [] ↔ data.content = [] := by
  obtain ⟨chunks, hrun, hall, hcuts⟩ := ix.chunker.exists_chunkBytes blake3 data.content
  rw [chunksOf, hrun, Option.getD_some]
  constructor
  · rintro rfl
    by_contra hne
    obtain ⟨chunk, hmem, -⟩ := hcuts 0 .start (List.length_pos_iff.mpr hne)
    exact List.not_mem_nil hmem
  · intro hempty
    refine List.eq_nil_iff_forall_not_mem.mpr fun chunk hmem => ?_
    have hlt := (hall chunk hmem).2.1
    rw [hempty] at hlt
    exact Nat.not_lt_zero _ hlt

/-- **A version counts no chunks** exactly if it is empty, or failed before the first of them. -/
lemma chunkHashes_eq_nil_iff {path : Bytes} {data : FileData} {fault : Option (ℕ × IndexError)}
    {touch : Touch} (htouch : ix.touchOf blake3 path (some data) fault = some touch) :
    touch.chunkHashes = [] ↔ data.content = [] ∨ ∃ e, fault = some (0, e) := by
  obtain rfl := Option.some.inj htouch
  rw [← @chunksOf_eq_nil_iff ix blake3 data]
  rcases fault with _ | ⟨n, e⟩ <;> simp [List.take_eq_nil_iff, or_comm]

lemma refCount_storeChunks (chunks : List Chunk) (db : Database) :
    (storeChunks chunks db).refCount hash =
      db.refCount hash + (chunks.map fun chunk => chunk.hash.toHex).count hash := by
  induction chunks generalizing db with
  | nil => rfl
  | cons chunk rest ih =>
    have hstep : storeChunks (chunk :: rest) db = storeChunks rest
        (db.upsertChunk ⟨chunk.hash.toHex, UInt64.ofNat chunk.data.length⟩) := rfl
    rw [hstep, ih, Database.refCount_upsertChunk, List.map_cons, List.count_cons]
    simp only [beq_iff_eq]
    omega

/-- **What is counted when a file is indexed.** -/
lemma refCount_indexFile (ix : FileIndexer) (blake3 : Bytes → ContentHash) (path : Bytes)
    (data : Option FileData) (fault : Option (ℕ × IndexError)) (db : Database) (hash : Text) :
    (ix.indexFile blake3 path data fault db).2.refCount hash =
      db.refCount hash + occurrences (ix.touchOf blake3 path data fault).toList hash := by
  cases data with
  | none => rfl
  | some data =>
    cases fault with
    | some fault =>
      refine (refCount_storeChunks ..).trans ?_
      simp [touchOf, occurrences]
    | none =>
      refine (refCount_storeChunks ..).trans ?_
      simp [touchOf, occurrences]

/-- What is counted for the files of a folder. -/
lemma refCount_indexFiles (files : List RelPath) (m : Manifest) (db : Database) :
    (ix.indexFiles blake3 scan files m db).2.refCount hash =
      db.refCount hash + occurrences (files.filterMap fun path =>
        ix.touchOf blake3 (filePath scan.folderPath path) (dataAt scan.tree path)
          (scan.fileFault path)) hash := by
  induction files generalizing m db with
  | nil => rfl
  | cons path rest ih =>
    have hfile := refCount_indexFile ix blake3 (filePath scan.folderPath path)
      (dataAt scan.tree path) (scan.fileFault path) db hash
    have htouches : (path :: rest).filterMap (fun path =>
        ix.touchOf blake3 (filePath scan.folderPath path) (dataAt scan.tree path)
          (scan.fileFault path)) =
        (ix.touchOf blake3 (filePath scan.folderPath path) (dataAt scan.tree path)
          (scan.fileFault path)).toList ++ rest.filterMap fun path =>
            ix.touchOf blake3 (filePath scan.folderPath path) (dataAt scan.tree path)
              (scan.fileFault path) := by
      rw [List.filterMap_cons]
      cases ix.touchOf blake3 (filePath scan.folderPath path) (dataAt scan.tree path)
        (scan.fileFault path) <;> rfl
    rw [htouches, occurrences_append, ← Nat.add_assoc, ← hfile, indexFiles]
    split
    · next entry db' hrun => rw [hrun, ih]
    · next e db' hrun => rw [hrun, ih]

/-- **What is counted in a run.** -/
lemma refCount_runIndex (r : IndexRun) : (ix.runIndex blake3 json db r).2.refCount hash =
    db.refCount hash + occurrences (ix.touches blake3 r) hash := by
  cases r with
  | file path data fault => exact refCount_indexFile ..
  | folder scan =>
    rw [runIndex, touches, indexFolder]
    cases scan.canonicalPath with
    | error e => rfl
    | ok canonicalPath =>
      dsimp only
      cases ix.walkDirectory scan.toWalked with
      | error e => rfl
      | ok files =>
        dsimp only
        rw [← refCount_indexFiles files (Manifest.new scan.now
          (pathToFolderId blake3 canonicalPath) (nextVersion blake3 db canonicalPath)) db]
        generalize ix.indexFiles blake3 scan files (Manifest.new scan.now
          (pathToFolderId blake3 canonicalPath) (nextVersion blake3 db canonicalPath)) db = indexed
        obtain ⟨-, db', hok, -, hsaved⟩ | ⟨-, e, herror⟩ :=
          Database.saveManifest_cases indexed.2 json (indexed.1.finalize blake3)
        · rw [hok]
          show db'.refCount hash = indexed.2.refCount hash
          rw [Database.refCount, hsaved.chunks]
          rfl
        · rw [herror]

/-- **The references that are counted are all that ever were.** -/
theorem refCount_runs (rs : List IndexRun) : (ix.runs blake3 json db rs).refCount hash =
    db.refCount hash + occurrences (rs.flatMap (ix.touches blake3)) hash := by
  induction rs generalizing db with
  | nil => rfl
  | cons r rest ih =>
    have hstep : ix.runs blake3 json db (r :: rest) =
        ix.runs blake3 json (ix.runIndex blake3 json db r).2 rest := rfl
    rw [hstep, ih, refCount_runIndex, List.flatMap_cons, occurrences_append, Nat.add_assoc]

lemma occurrences_current_add_stale (gone : Finset Bytes) (touches : List Touch) (hash : Text) :
    occurrences touches hash = occurrences (currentTouches gone touches) hash +
      occurrences (staleTouches gone touches) hash := by
  induction touches with
  | nil => rfl
  | cons touch later ih =>
    rw [currentTouches, staleTouches]
    have hcons (touch : Touch) (rest : List Touch) : occurrences (touch :: rest) hash =
        touch.chunkHashes.count hash + occurrences rest hash := by
      rw [occurrences, List.map_cons, List.sum_cons]
      rfl
    split
    · rw [hcons, hcons, ih, Nat.add_assoc]
    · rw [hcons, hcons, ih]
      omega

lemma occurrences_eq_zero_iff {touches : List Touch} :
    (∀ hash, occurrences touches hash = 0) ↔ ∀ touch ∈ touches, touch.chunkHashes = [] := by
  constructor
  · intro h touch htouch
    rw [List.eq_nil_iff_forall_not_mem]
    intro hash hmem
    have hzero := List.sum_eq_zero_iff.mp (h hash) _ (List.mem_map_of_mem htouch)
    exact List.count_eq_zero.mp hzero hmem
  · intro h hash
    refine List.sum_eq_zero_iff.mpr fun n hn => ?_
    obtain ⟨touch, htouch, rfl⟩ := List.mem_map.mp hn
    rw [h touch htouch, List.count_nil]

/-- **When reference counts are exact**: if every version of a file that has been indexed again, is
gone or failed has no chunks. -/
theorem refCount_exact_iff (ix : FileIndexer) (blake3 : Bytes → ContentHash) (json : ChunkListJson)
    (rs : List IndexRun) (gone : Finset Bytes) :
    (∀ hash, (ix.runs blake3 json .empty rs).refCount hash =
        occurrences (currentTouches gone (rs.flatMap (ix.touches blake3))) hash) ↔
      ∀ touch ∈ staleTouches gone (rs.flatMap (ix.touches blake3)), touch.chunkHashes = [] := by
  rw [← occurrences_eq_zero_iff]
  refine forall_congr' fun hash => ?_
  have hempty : Database.empty.refCount hash = 0 := rfl
  rw [refCount_runs, hempty, Nat.zero_add, occurrences_current_add_stale gone]
  omega

end Counts

/-! ## A file that is indexed twice -/

/-- All of some runs succeed. -/
def Succeed (ix : FileIndexer) (blake3 : Bytes → ContentHash) (json : ChunkListJson) :
    Database → List IndexRun → Prop
  | _, [] => True
  | db, r :: rest => (ix.runIndex blake3 json db r).1 = true ∧
      Succeed ix blake3 json (ix.runIndex blake3 json db r).2 rest

/-- A file of one byte is indexed. -/
def oneByte : IndexRun := .file [47, 97] (some ⟨[1], ⟨0, 0⟩, none⟩) none

/-- **A file that is indexed twice is counted twice.** -/
theorem not_refCount_exact_reindexed : ∃ json : ChunkListJson, json.toText [] = "[]".toList ∧
    ¬ ∀ (rs : List IndexRun) (gone : Finset Bytes),
      Succeed .default ContentHash.blake3Sample json .empty rs →
        ∀ hash, (FileIndexer.default.runs ContentHash.blake3Sample json .empty rs).refCount hash =
          occurrences (currentTouches gone
            (rs.flatMap (FileIndexer.default.touches ContentHash.blake3Sample))) hash := by
  obtain ⟨json, hjson⟩ := ChunkListJson.exists_empty
  refine ⟨json, hjson, fun h => ?_⟩
  have hcount := h [oneByte, oneByte] ∅ ⟨rfl, rfl, trivial⟩ (ContentHash.blake3Sample [1]).toHex
  rw [refCount_runs] at hcount
  exact absurd hcount (by decide +kernel)

end FileIndexer

end Landropic
