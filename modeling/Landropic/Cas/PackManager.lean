import Landropic.Cas.Packfile
import Landropic.Cas.Recover
import Landropic.Foundations.Runs

set_option autoImplicit false

/-!
# The manager of packfiles

Small chunks wait in memory until there are enough of them, are then written to the open packfile,
and can be read from it once it is finalized. A packfile is named by the second in which it was
created, and it is finalized when it is full.

## Main definitions

* `Cas.PackfileManager` — the manager, and `Cas.PackStore` with its directory.
* `Cas.PackStore.addChunk`, `Cas.PackStore.storePacked`, `Cas.PackStore.readPacked`,
  `Cas.PackStore.finalize` — its operations.
* `Cas.PackOp`, `Cas.PackStore.apply` — any operation.

## Main results

* `Cas.packPath_injective` — packs of different seconds have different paths.
* `Cas.PackStore.moves_apply` — an operation only changes the open packfile or the one it opens.

## Design

The manager is used by one task at a time. The operations take the second they are called in. The
order in which a directory is read, or the readers are asked, is a parameter.
-/

namespace Landropic.Cas

/-- Configuration for packfile behavior. -/
structure PackfileConfig where
  /-- Maximum size before creating new packfile. -/
  maxPackfileSize : ℕ
  /-- Minimum chunks before creating packfile. -/
  minChunksPerPack : ℕ
  deriving DecidableEq

/-- The default configuration. -/
def PackfileConfig.default : PackfileConfig :=
  { maxPackfileSize := 256 * 1024 * 1024
    minChunksPerPack := 100 }

/-- Manager for packfile-based storage of small objects. -/
structure PackfileManager where
  config : PackfileConfig
  /-- Currently active packfile being written to. -/
  currentWriter : Option PackfileWriter
  /-- Map of packfile names to their readers. -/
  packReaders : HashMap Text PackfileReader
  /-- Pending chunks waiting to be packed. -/
  pendingChunks : List PackChunk

/-- A manager and the directory of its packs. -/
structure PackStore where
  manager : PackfileManager
  dir : Dir

/-- The name of the pack of a second. -/
def packName (packId : Int64) : Text :=
  "pack-".toList ++ Hex.encode (leBytes 8 packId.toUInt64.toNat).reverse

/-- The file of a pack. -/
def packFile (name : Text) : Text := name ++ ".pack".toList

/-- The file of the pack of a second. -/
def packPath (packId : Int64) : Text := packFile (packName packId)

open FileName

/-- The pack is full: it has the maximum size, or ten times the number of chunks that begin one. The
product is one of unsigned 64-bit numbers. -/
def isFull (env : PackEnv) (config : PackfileConfig) (dataSize chunkCount : ℕ) :
    Except (Stop CasError) Bool :=
  if dataSize ≥ config.maxPackfileSize then .ok true
  else if config.minChunksPerPack * 10 < 2 ^ 64 then
    .ok (chunkCount ≥ config.minChunksPerPack * 10)
  else if env.overflowChecks then .error .panic
  else .ok (chunkCount ≥ config.minChunksPerPack * 10 % 2 ^ 64)

namespace PackStore

section Operations

variable (env : PackEnv) (order : IterOrder Text) (now : Int64)

/-- Load existing packfiles from disk. One that cannot be opened is skipped. -/
def loadExistingPacks : List (Text × Bytes) → Dir → HashMap Text PackfileReader →
    Except (Stop CasError) (HashMap Text PackfileReader)
  | [], _, readers => .ok readers
  | (name, _) :: rest, dir, readers =>
    if extension '.' name = some "pack".toList then
      match PackfileReader.openFile env name dir with
      | .ok reader => loadExistingPacks rest dir (readers.insert (fileStem '.' name) reader)
      | .error (.err _) => loadExistingPacks rest dir readers
      | .error .panic => .error .panic
    else loadExistingPacks rest dir readers

/-- Create a new packfile manager with custom configuration. -/
def newWithConfig (config : PackfileConfig) (dir : Dir) : Except (Stop CasError) PackStore := do
  let readers ← loadExistingPacks env (order.entries dir) dir ∅
  .ok
    { manager :=
        { config := config
          currentWriter := none
          packReaders := readers
          pendingChunks := [] }
      dir := dir }

/-- Get or create the current packfile writer. -/
def getOrCreateCurrentWriter (s : PackStore) : PackfileWriter × Dir :=
  match s.manager.currentWriter with
  | some w => (w, s.dir)
  | none => PackfileWriter.new env (packPath now) s.dir

/-- The store with this writer and directory. -/
def withWriter (s : PackStore) (w : Option PackfileWriter) (dir : Dir) : PackStore :=
  { manager := { s.manager with currentWriter := w }
    dir := dir }

/-- The store with one more reader. -/
def withReader (s : PackStore) (name : Text) (reader : PackfileReader) : PackStore :=
  { s with
    manager := { s.manager with
      packReaders := s.manager.packReaders.insert name reader } }

/-- Check if current packfile should be finalized. -/
def shouldFinalizeCurrentPack (s : PackStore) : Except (Stop CasError) Bool :=
  match s.manager.currentWriter with
  | some w => isFull env s.manager.config w.dataSize w.chunkCount
  | none => .ok false

/-- Finalize the current packfile and create its reader. -/
def finalizeCurrentPack (s : PackStore) : Except (Stop CasError) Unit × PackStore :=
  match s.manager.currentWriter with
  | none => (.ok (), s)
  | some w =>
    let finalized := w.finalize env s.dir
    let s := s.withWriter none finalized.2
    match finalized.1 with
    | .error e => (.error e, s)
    | .ok reader => (.ok (), s.withReader (fileStem '.' w.packfilePath) reader)

/-- Finalize the current packfile if it should be. -/
def finalizeIfFull (s : PackStore) : Except (Stop CasError) Unit × PackStore :=
  match s.shouldFinalizeCurrentPack env with
  | .error e => (.error e, s)
  | .ok true => s.finalizeCurrentPack env
  | .ok false => (.ok (), s)

/-- Store an object in a packfile immediately. -/
def storePacked (s : PackStore) (hash : ContentHash) (data : Bytes) :
    Except (Stop CasError) Unit × PackStore :=
  let writer := s.getOrCreateCurrentWriter env now
  match writer.1.addChunk hash data writer.2 with
  | (.error e, w, dir) => (.error (.err e), s.withWriter (some w) dir)
  | (.ok (), w, dir) => finalizeIfFull env (s.withWriter (some w) dir)

/-- Flush pending chunks to packfile. -/
def flushPackfile (s : PackStore) : Except (Stop CasError) Unit × PackStore :=
  if s.manager.pendingChunks = [] then (.ok (), s)
  else
    let chunksToFlush := s.manager.pendingChunks
    let s := { s with manager := { s.manager with pendingChunks := [] } }
    let writer := s.getOrCreateCurrentWriter env now
    match PackfileWriter.addChunks chunksToFlush writer.1 writer.2 with
    | (.error e, w, dir) => (.error (.err e), s.withWriter (some w) dir)
    | (.ok (), w, dir) => finalizeIfFull env (s.withWriter (some w) dir)

/-- Add a chunk to be packed (may not pack immediately). -/
def addChunk (s : PackStore) (hash : ContentHash) (data : Bytes) :
    Except (Stop CasError) Unit × PackStore :=
  let s := { s with
    manager := { s.manager with pendingChunks := s.manager.pendingChunks ++ [(hash, data)] } }
  if s.manager.pendingChunks.length ≥ s.manager.config.minChunksPerPack then
    s.flushPackfile env now
  else (.ok (), s)

/-- Force finalization of current packfile (for shutdown). -/
def finalize (s : PackStore) : Except (Stop CasError) Unit × PackStore :=
  match s.flushPackfile env now with
  | (.error e, s) => (.error e, s)
  | (.ok (), s) => s.finalizeCurrentPack env

/-- Read an object from a packfile. -/
def readPacked (s : PackStore) (hash : ContentHash) : Except CasError (Option Bytes) :=
  match s.manager.pendingChunks.find? fun chunk => chunk.1 = hash with
  | some chunk => .ok (some chunk.2)
  | none =>
    match (order.entries s.manager.packReaders).find? fun entry =>
      entry.2.containsChunk hash with
    | some entry => (entry.2.readChunk env hash s.dir).map some
    | none => .ok none

end Operations

end PackStore

/-! ## Any operation -/

/-- An operation on packfiles. -/
inductive PackOp
  | addChunk (hash : ContentHash) (data : Bytes)
  | storePacked (hash : ContentHash) (data : Bytes)
  | flushPackfile
  | finalize
  /-- Create a new manager over the same directory. -/
  | newWithConfig (order : IterOrder Text)

namespace PackStore

variable (env : PackEnv)

/-- An operation in a second. The old manager is gone after a new one was asked for. -/
def apply (s : PackStore) (now : Int64) : PackOp → Except (Stop CasError) Unit × PackStore
  | .addChunk hash data => s.addChunk env now hash data
  | .storePacked hash data => s.storePacked env now hash data
  | .flushPackfile => s.flushPackfile env now
  | .finalize => s.finalize env now
  | .newWithConfig order =>
    match newWithConfig env order s.manager.config s.dir with
    | .ok s => (.ok (), s)
    | .error e => (.error e,
        { s with manager := { s.manager with
            currentWriter := none
            packReaders := ∅
            pendingChunks := [] } })

/-- The chunks that an operation writes to the open packfile. -/
def packs (s : PackStore) : PackOp → List PackChunk
  | .addChunk hash data =>
    if s.manager.pendingChunks.length + 1 ≥ s.manager.config.minChunksPerPack then
      s.manager.pendingChunks ++ [(hash, data)]
    else []
  | .storePacked hash data => [(hash, data)]
  | .flushPackfile | .finalize => s.manager.pendingChunks
  | .newWithConfig _ => []

/-- The operation opens a packfile. -/
def Opens (s : PackStore) (op : PackOp) : Prop :=
  s.manager.currentWriter.isNone = true ∧ s.packs op ≠ []

instance (s : PackStore) (op : PackOp) : Decidable (s.Opens op) := instDecidableAnd

/-- The file that an operation may write: the open packfile, or the one it opens. -/
def target (s : PackStore) (now : Int64) : Text :=
  match s.manager.currentWriter with
  | some w => w.packfilePath
  | none => packPath now

/-- Store chunks in the open packfile. -/
def storeAll (s : PackStore) (now : Int64) (chunks : List PackChunk) :
    Except (Stop CasError) Unit × PackStore :=
  let writer := s.getOrCreateCurrentWriter env now
  match PackfileWriter.addChunks chunks writer.1 writer.2 with
  | (.error e, w, dir) => (.error (.err e), s.withWriter (some w) dir)
  | (.ok (), w, dir) => finalizeIfFull env (s.withWriter (some w) dir)

/-- The store without pending chunks. -/
def drained (s : PackStore) : PackStore :=
  { s with manager := { s.manager with pendingChunks := [] } }

/-- The store with one more pending chunk. -/
def pushed (s : PackStore) (chunk : PackChunk) : PackStore :=
  { s with manager := { s.manager with pendingChunks := s.manager.pendingChunks ++ [chunk] } }

variable {env} {s : PackStore} {now : Int64} {hash : ContentHash} {data : Bytes}

lemma storePacked_eq : s.storePacked env now hash data = s.storeAll env now [(hash, data)] := by
  unfold storePacked storeAll PackfileWriter.addChunks
  dsimp only
  rcases (s.getOrCreateCurrentWriter env now).1.addChunk hash data
    (s.getOrCreateCurrentWriter env now).2 with ⟨r, w, dir⟩
  cases r with
  | error e => rfl
  | ok => rfl

lemma flushPackfile_of_ne (h : s.manager.pendingChunks ≠ []) :
    s.flushPackfile env now = s.drained.storeAll env now s.manager.pendingChunks := if_neg h

lemma flushPackfile_of_eq (h : s.manager.pendingChunks = []) :
    s.flushPackfile env now = (.ok (), s) := if_pos h

/-- **Adding a chunk** leaves it pending, or packs all pending chunks. -/
lemma addChunk_eq : s.addChunk env now hash data =
    if s.packs (.addChunk hash data) = [] then (.ok (), s.pushed (hash, data))
    else s.drained.storeAll env now (s.packs (.addChunk hash data)) := by
  by_cases hflush : s.manager.pendingChunks.length + 1 ≥ s.manager.config.minChunksPerPack
  · have hne : (s.pushed (hash, data)).manager.pendingChunks ≠ [] := by simp [pushed]
    simp only [addChunk, List.length_append, List.length_singleton, hflush, if_true, packs]
    rw [if_neg (by simp)]
    exact flushPackfile_of_ne hne
  · simp [addChunk, packs, hflush, pushed]

end PackStore

/-! ## What an operation does to the directory -/

lemma filePath_of_openFile {env : PackEnv} {path : Text} {dir : Dir} {r : PackfileReader}
    (h : PackfileReader.openFile env path dir = .ok r) : r.filePath = path := by
  unfold PackfileReader.openFile at h
  cases hlookup : dir.lookup path with
  | none => simp [hlookup] at h
  | some content =>
    cases htable : PackfileReader.readTable env content with
    | error e => simp [hlookup, htable, Except.map] at h
    | ok entries =>
      simp only [hlookup, htable, Except.map, Except.ok.injEq] at h
      exact h ▸ rfl

lemma mem_of_openFile {env : PackEnv} {path : Text} {dir : Dir} {r : PackfileReader}
    (h : PackfileReader.openFile env path dir = .ok r) : r.filePath ∈ dir := by
  rw [filePath_of_openFile h, Finmap.mem_iff]
  unfold PackfileReader.openFile at h
  cases hlookup : dir.lookup path with
  | none => simp [hlookup] at h
  | some content => exact ⟨content, rfl⟩

namespace PackfileWriter

variable {env : PackEnv} {w : PackfileWriter} {dir : Dir} {path : Text}

/-- The writer writes the file at its path. -/
def WritesAt (path : Text) (w : PackfileWriter) : Prop :=
  w.packfilePath = path ∧ w.file.name = path

lemma writesAt_new : (new env path dir).1.WritesAt path := by
  obtain ⟨h, -⟩ := writing_new env path dir
  exact ⟨h.path_eq, h.name_eq⟩

lemma mem_new : path ∈ (new env path dir).2 :=
  FileHandle.mem_writePieces (FileHandle.mem_create _ _ _)

lemma mem_addChunks (name : Text) (chunks : List PackChunk) (w : PackfileWriter) (dir : Dir)
    (h : name ∈ dir) : name ∈ (addChunks chunks w dir).2.2 := by
  induction chunks generalizing w dir with
  | nil => exact h
  | cons chunk chunks ih =>
    obtain ⟨hash, data⟩ := chunk
    by_cases hlt : 2 ^ 32 - 1 < data.length
    · rw [addChunks, addChunk_of_lt hlt]
      exact h
    · rw [addChunks, addChunk, if_neg hlt]
      exact ih _ _ (FileHandle.mem_writeAll h)

variable (env) in
lemma mem_finalize {name : Text} (h : name ∈ dir) : name ∈ (w.finalize env dir).2 := by
  have hpieces : name ∈ (w.file.writePieces (w.entries.flatMap entryPieces) dir).2 :=
    FileHandle.mem_writePieces h
  unfold finalize
  dsimp only
  split
  · exact hpieces
  · exact FileHandle.mem_writeAll (FileHandle.mem_writeAll hpieces)

lemma onlyAt_addChunks (chunks : List PackChunk) (w : PackfileWriter) (dir : Dir)
    (h : w.WritesAt path) :
    (addChunks chunks w dir).2.1.WritesAt path ∧
      OnlyAt path dir (addChunks chunks w dir).2.2 := by
  induction chunks generalizing w dir with
  | nil => exact ⟨h, fun _ _ => rfl⟩
  | cons chunk chunks ih =>
    obtain ⟨hash, data⟩ := chunk
    by_cases hlt : 2 ^ 32 - 1 < data.length
    · rw [addChunks, addChunk_of_lt hlt]
      exact ⟨h, fun _ _ => rfl⟩
    · rw [addChunks, addChunk, if_neg hlt]
      obtain ⟨hwrites, honly⟩ := ih _ (w.file.writeAll data dir).2
        (show WritesAt path { w with
          file := (w.file.writeAll data dir).1
          entries := w.entries ++ [⟨hash, w.dataOffset, data.length⟩]
          dataOffset := w.dataOffset + data.length } from h)
      refine ⟨hwrites, fun name hne => ?_⟩
      exact (honly name hne).trans (FileHandle.lookup_writeAll_of_ne (h.2.symm ▸ hne))

variable (env dir) in
lemma onlyAt_finalize (h : w.WritesAt path) : OnlyAt path dir (w.finalize env dir).2 := by
  intro name hne
  have hname : name ≠ w.file.name := h.2.symm ▸ hne
  have hpieces : (w.file.writePieces (w.entries.flatMap entryPieces) dir).2.lookup name =
      dir.lookup name := FileHandle.lookup_writePieces_of_ne hname
  have hread := FileHandle.name_readToEnd
    ((w.file.writePieces (w.entries.flatMap entryPieces) dir).1.seek 0)
    (w.file.writePieces (w.entries.flatMap entryPieces) dir).2
  rw [← FileHandle.readBlocks_eq_readToEnd (n := 8192) (by decide)] at hread
  unfold finalize
  dsimp only
  split
  · exact hpieces
  · next content file hfile =>
    have hfile' : file.name = w.file.name := by
      rw [hfile] at hread
      rw [hread]
      exact FileHandle.name_writePieces _ _ _
    have hne' : name ≠ file.name := hfile' ▸ hname
    have hcount : name ≠ ((file.writeAll (env.blake3 content).asBytes
        (w.file.writePieces (w.entries.flatMap entryPieces) dir).2).1.seek
          (PACKFILE_MAGIC.length + 4)).name := hne'
    rw [← hpieces]
    exact (FileHandle.lookup_writeAll_of_ne hcount).trans (FileHandle.lookup_writeAll_of_ne hne')

lemma filePath_of_finalize {reader : PackfileReader} (h : (w.finalize env dir).1 = .ok reader) :
    reader.filePath = w.packfilePath := by
  unfold finalize at h
  dsimp only at h
  split at h
  · cases h
  · exact filePath_of_openFile h

end PackfileWriter

namespace PackStore

variable {env : PackEnv} {s s₁ s₂ : PackStore} {path : Text} {now : Int64} {op : PackOp}
  {chunks : List PackChunk}

/-- The open packfile, if there is one, is this file. -/
def WritesAt (path : Text) (s : PackStore) : Prop :=
  ∀ w, s.manager.currentWriter = some w → w.WritesAt path

/-- What an operation that may write this file does: it changes no other file, the open packfile
afterwards is this file, and so is that of a new reader, after which no packfile is open. -/
structure Moves (path : Text) (s s' : PackStore) : Prop where
  onlyAt : OnlyAt path s.dir s'.dir
  mem : ∀ name, name ∈ s.dir → name ∈ s'.dir
  writesAt : s'.WritesAt path
  readers : ∀ name r, s'.manager.packReaders.lookup name = some r →
    s.manager.packReaders.lookup name = some r ∨
      name = fileStem '.' path ∧ r.filePath = path ∧ s'.manager.currentWriter = none

lemma Moves.refl (h : s.WritesAt path) : Moves path s s :=
  ⟨fun _ _ => rfl, fun _ => id, h, fun _ _ => .inl⟩

lemma finalizeCurrentPack_none (hw : s.manager.currentWriter = none) :
    s.finalizeCurrentPack env = (.ok (), s) := by
  simp [finalizeCurrentPack, hw]

lemma finalizeCurrentPack_error {w : PackfileWriter} {e : Stop CasError}
    (hw : s.manager.currentWriter = some w) (he : (w.finalize env s.dir).1 = .error e) :
    s.finalizeCurrentPack env = (.error e, s.withWriter none (w.finalize env s.dir).2) := by
  simp [finalizeCurrentPack, hw, he]

lemma finalizeCurrentPack_ok {w : PackfileWriter} {reader : PackfileReader}
    (hw : s.manager.currentWriter = some w) (hok : (w.finalize env s.dir).1 = .ok reader) :
    s.finalizeCurrentPack env = (.ok (), (s.withWriter none (w.finalize env s.dir).2).withReader
      (fileStem '.' w.packfilePath) reader) := by
  simp [finalizeCurrentPack, hw, hok]

variable (env) in
/-- **Finalizing the current pack** writes its file and adds its reader. -/
lemma moves_finalizeCurrentPack (h : s.WritesAt path) :
    Moves path s (s.finalizeCurrentPack env).2 := by
  cases hw : s.manager.currentWriter with
  | none =>
    rw [finalizeCurrentPack_none hw]
    exact .refl h
  | some w =>
    have honly := PackfileWriter.onlyAt_finalize env s.dir (h w hw)
    have hmem : ∀ name, name ∈ s.dir → name ∈ (w.finalize env s.dir).2 :=
      fun name hname => PackfileWriter.mem_finalize env hname
    cases hfinalize : (w.finalize env s.dir).1 with
    | error e =>
      rw [finalizeCurrentPack_error hw hfinalize]
      exact ⟨honly, hmem, fun w' hw' => (Option.some_ne_none w' hw'.symm).elim, fun _ _ => .inl⟩
    | ok reader =>
      rw [finalizeCurrentPack_ok hw hfinalize]
      have hreader := PackfileWriter.filePath_of_finalize hfinalize
      rw [(h w hw).1] at hreader
      refine ⟨honly, hmem, fun w' hw' => (Option.some_ne_none w' hw'.symm).elim, ?_⟩
      refine HashMap.forall_lookup_insert.mpr ⟨.inr ⟨?_, hreader, rfl⟩, fun _ _ hr _ => .inl hr⟩
      rw [(h w hw).1]

variable (env) in
lemma moves_finalizeIfFull (h : s.WritesAt path) : Moves path s (s.finalizeIfFull env).2 := by
  unfold finalizeIfFull
  split
  · exact .refl h
  · exact moves_finalizeCurrentPack env h
  · exact .refl h

lemma Moves.trans {s₃ : PackStore} (h : Moves path s₁ s₂) (h' : Moves path s₂ s₃)
    (hclosed : s₂.manager.currentWriter = none → s₃.manager.currentWriter = none) :
    Moves path s₁ s₃ := by
  refine ⟨fun name hne => (h'.onlyAt name hne).trans (h.onlyAt name hne),
    fun name hname => h'.mem name (h.mem name hname), h'.writesAt, fun name r hr => ?_⟩
  obtain hr | hr := h'.readers name r hr
  · obtain hr | ⟨hname, hpath, hnone⟩ := h.readers name r hr
    · exact .inl hr
    · exact .inr ⟨hname, hpath, hclosed hnone⟩
  · exact .inr hr

variable (env chunks) in
/-- **Storing chunks** writes the open packfile, or the one it opens. -/
lemma moves_storeAll (h : s.WritesAt (s.target now)) :
    Moves (s.target now) s (s.storeAll env now chunks).2 ∧
      (s.manager.currentWriter = none → packPath now ∈ (s.storeAll env now chunks).2.dir) := by
  have hwriter : (s.getOrCreateCurrentWriter env now).1.WritesAt (s.target now) ∧
      OnlyAt (s.target now) s.dir (s.getOrCreateCurrentWriter env now).2 ∧
      (∀ name, name ∈ s.dir → name ∈ (s.getOrCreateCurrentWriter env now).2) ∧
      (s.manager.currentWriter = none →
        packPath now ∈ (s.getOrCreateCurrentWriter env now).2) := by
    unfold getOrCreateCurrentWriter target
    cases hw : s.manager.currentWriter with
    | none =>
      refine ⟨PackfileWriter.writesAt_new, (writing_new env _ _).2, fun name hname => ?_,
        fun _ => PackfileWriter.mem_new⟩
      exact FileHandle.mem_writePieces (Finmap.mem_insert.mpr (.inr hname))
    | some w =>
      have hw' := h w hw
      rw [target, hw] at hw'
      exact ⟨hw', fun _ _ => rfl, fun _ => id, fun hnone => (Option.some_ne_none w hnone).elim⟩
  obtain ⟨hwrites, honly⟩ := PackfileWriter.onlyAt_addChunks chunks _
    (s.getOrCreateCurrentWriter env now).2 hwriter.1
  have hmem := fun name => PackfileWriter.mem_addChunks name chunks
    (s.getOrCreateCurrentWriter env now).1 (s.getOrCreateCurrentWriter env now).2
  generalize hadds : PackfileWriter.addChunks chunks (s.getOrCreateCurrentWriter env now).1
    (s.getOrCreateCurrentWriter env now).2 = added at hwrites honly hmem
  obtain ⟨r, w, dir⟩ := added
  have hopen : Moves (s.target now) s (s.withWriter (some w) dir) := by
    refine ⟨fun name hne => (honly name hne).trans (hwriter.2.1 name hne),
      fun name hname => hmem name (hwriter.2.2.1 name hname), ?_, fun _ _ => .inl⟩
    intro w' hw'
    obtain rfl := Option.some.inj hw'
    exact hwrites
  have hcreated : s.manager.currentWriter = none → packPath now ∈ dir :=
    fun hnone => hmem _ (hwriter.2.2.2 hnone)
  simp only [storeAll, hadds]
  cases r with
  | error e => exact ⟨hopen, hcreated⟩
  | ok =>
    have hfinalize := moves_finalizeIfFull env hopen.writesAt
    exact ⟨hopen.trans hfinalize fun hnone => (Option.some_ne_none w hnone).elim,
      fun hnone => hfinalize.mem _ (hcreated hnone)⟩

variable (env chunks) in
lemma moves_storeAll_drained (h : s.WritesAt (s.target now)) :
    Moves (s.target now) s (s.drained.storeAll env now chunks).2 ∧
      (s.manager.currentWriter = none →
        packPath now ∈ (s.drained.storeAll env now chunks).2.dir) := by
  have hdrained : s.drained.WritesAt (s.drained.target now) := h
  have hstore : Moves (s.drained.target now) s.drained (s.drained.storeAll env now chunks).2 ∧
      (s.drained.manager.currentWriter = none → _) := moves_storeAll env chunks hdrained
  exact ⟨⟨hstore.1.onlyAt, hstore.1.mem, hstore.1.writesAt, hstore.1.readers⟩, hstore.2⟩

variable (env) in
lemma moves_flushPackfile (h : s.WritesAt (s.target now)) :
    Moves (s.target now) s (s.flushPackfile env now).2 ∧
      (s.Opens .flushPackfile → packPath now ∈ (s.flushPackfile env now).2.dir) := by
  by_cases hpending : s.manager.pendingChunks = []
  · rw [flushPackfile_of_eq hpending]
    exact ⟨.refl h, fun hopens => absurd hpending hopens.2⟩
  · rw [flushPackfile_of_ne hpending]
    have hstore := moves_storeAll_drained env s.manager.pendingChunks h
    exact ⟨hstore.1, fun hopens => hstore.2 (Option.isNone_iff_eq_none.mp hopens.1)⟩

variable (env) in
/-- **An operation on a manager** writes the open packfile, or the one it opens. -/
theorem moves_apply (h : s.WritesAt (s.target now)) (hop : ∀ order, op ≠ .newWithConfig order) :
    Moves (s.target now) s (s.apply env now op).2 ∧
      (s.Opens op → packPath now ∈ (s.apply env now op).2.dir) := by
  cases op with
  | addChunk hash data =>
    rw [apply, addChunk_eq]
    split_ifs with hpacks
    · exact ⟨⟨fun _ _ => rfl, fun _ => id, h, fun _ _ => .inl⟩,
        fun hopens => absurd hpacks hopens.2⟩
    · have hstore := moves_storeAll_drained env (s.packs (.addChunk hash data)) h
      exact ⟨hstore.1, fun hopens => hstore.2 (Option.isNone_iff_eq_none.mp hopens.1)⟩
  | storePacked hash data =>
    rw [apply, storePacked_eq]
    have hstore := moves_storeAll env [(hash, data)] h
    exact ⟨hstore.1, fun hopens => hstore.2 (Option.isNone_iff_eq_none.mp hopens.1)⟩
  | flushPackfile => exact moves_flushPackfile env h
  | finalize =>
    have hflush := moves_flushPackfile env h
    rw [apply, finalize]
    split
    · next e s' heq => exact heq ▸ hflush
    · next s' heq =>
      rw [heq] at hflush
      have hfinalize := moves_finalizeCurrentPack env hflush.1.writesAt
      refine ⟨hflush.1.trans hfinalize fun hnone => ?_,
        fun hopens => hfinalize.mem _ (hflush.2 hopens)⟩
      rwa [finalizeCurrentPack_none hnone]
  | newWithConfig order => exact absurd rfl (hop order)

variable (env now) in
/-- Without an open packfile, an operation that packs nothing leaves the files alone. -/
lemma apply_of_not_packs (hw : s.manager.currentWriter = none) (hpacks : s.packs op = [])
    (hop : ∀ order, op ≠ .newWithConfig order) :
    (s.apply env now op).2.dir = s.dir ∧
      (s.apply env now op).2.manager.currentWriter = none ∧
      (s.apply env now op).2.manager.packReaders = s.manager.packReaders := by
  cases op with
  | addChunk hash data =>
    rw [apply, addChunk_eq, if_pos hpacks]
    exact ⟨rfl, hw, rfl⟩
  | storePacked hash data => cases hpacks
  | flushPackfile =>
    rw [apply, flushPackfile_of_eq hpacks]
    exact ⟨rfl, hw, rfl⟩
  | finalize =>
    rw [apply, finalize, flushPackfile_of_eq hpacks]
    dsimp only
    rw [finalizeCurrentPack_none hw]
    exact ⟨rfl, hw, rfl⟩
  | newWithConfig order => exact absurd rfl (hop order)

/-- The readers that are loaded read files of the directory. -/
lemma filePath_mem_of_load {entries : List (Text × Bytes)} {dir : Dir}
    {readers readers' : HashMap Text PackfileReader}
    (hload : loadExistingPacks env entries dir readers = .ok readers')
    (h : ∀ name r, readers.lookup name = some r → r.filePath ∈ dir) :
    ∀ name r, readers'.lookup name = some r → r.filePath ∈ dir := by
  induction entries generalizing readers with
  | nil => exact Except.ok.inj hload ▸ h
  | cons entry entries ih =>
    obtain ⟨file, content⟩ := entry
    rw [loadExistingPacks] at hload
    split at hload
    · split at hload
      · next reader hopen =>
        refine ih hload (HashMap.forall_lookup_insert.mpr ⟨?_, fun name r hr _ => h name r hr⟩)
        exact mem_of_openFile hopen
      · exact ih hload h
      · cases hload
    · exact ih hload h

/-- A new manager has the files of the directory, no open packfile, and readers of some files. -/
lemma apply_newWithConfig (order : IterOrder Text) :
    (s.apply env now (.newWithConfig order)).2.dir = s.dir ∧
      (s.apply env now (.newWithConfig order)).2.manager.currentWriter = none ∧
      ∀ name r, (s.apply env now (.newWithConfig order)).2.manager.packReaders.lookup name =
        some r → r.filePath ∈ s.dir := by
  rw [apply]
  cases hnew : newWithConfig env order s.manager.config s.dir with
  | error e => exact ⟨rfl, rfl, fun _ _ hr => by simp at hr⟩
  | ok s' =>
    obtain ⟨readers, hload, heq⟩ := Except.bind_eq_ok.mp hnew
    obtain rfl := Except.ok.inj heq
    exact ⟨rfl, rfl, filePath_mem_of_load hload (by simp)⟩

end PackStore

/-! ## Names -/

lemma packName_injective : Function.Injective packName := by
  intro a b h
  have hbytes : leBytes 8 a.toUInt64.toNat = leBytes 8 b.toUInt64.toNat :=
    List.reverse_injective (Hex.encode_injective (List.append_cancel_left h))
  have hnum := congrArg leNat hbytes
  rw [leNat_leBytes a.toUInt64.toNat_lt, leNat_leBytes b.toUInt64.toNat_lt] at hnum
  have hint := congrArg UInt64.toInt64 (UInt64.toNat_inj.mp hnum)
  simpa using hint

/-- **Packs of different seconds have different paths.** -/
theorem packPath_injective : Function.Injective packPath :=
  fun _ _ h => packName_injective (List.append_cancel_right h)

lemma packName_ne_nil (packId : Int64) : packName packId ≠ [] := by simp [packName]

lemma extension_packFile {name : Text} (h : name ≠ []) :
    extension '.' (packFile name) = some "pack".toList :=
  extension_eq_some_iff.mpr ⟨name, h, rfl, by decide⟩

lemma fileStem_packFile {name : Text} (h : name ≠ []) : fileStem '.' (packFile name) = name :=
  fileStem_append h (by decide)

example : packPath 1700000000 = "pack-000000006553f100.pack".toList := by decide

/-! ## Runs -/

/-- A store in a run of operations: the chunks that were accepted, the second of the last operation,
and the one in which the last packfile was opened. -/
structure PackRun where
  store : PackStore
  accepted : List PackChunk
  clock : Int64
  opened : Option Int64

namespace PackRun

/-- A new manager over an empty directory. -/
def start (config : PackfileConfig) (now : Int64) : PackRun where
  store :=
    { manager :=
        { config := config
          currentWriter := none
          packReaders := ∅
          pendingChunks := [] }
      dir := ∅ }
  accepted := []
  clock := now
  opened := none

/-- The chunks that an operation accepts if it returns `Ok`. -/
def accepts : PackOp → List PackChunk
  | .addChunk hash data | .storePacked hash data => [(hash, data)]
  | _ => []

/-- The next operation. The clock does not go back. -/
def next (env : PackEnv) (x : PackRun) (e : PackOp × Int64) : Option PackRun :=
  if e.2 < x.clock then none
  else
    some
      { store := (x.store.apply env e.2 e.1).2
        accepted := match (x.store.apply env e.2 e.1).1 with
          | .ok () => x.accepted ++ accepts e.1
          | .error _ => x.accepted
        clock := e.2
        opened := if x.store.Opens e.1 then some e.2 else x.opened }

end PackRun

end Landropic.Cas
