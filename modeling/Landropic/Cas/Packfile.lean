import Landropic.Cas.Errors
import Landropic.Foundations.FileHandle
import Landropic.Foundations.Result

set_option autoImplicit false

/-!
# Packfiles

A packfile holds many small chunks: a header, the data of the chunks, a table with an entry for each
chunk, and a hash of what precedes it. The header is written first, with a count of zero that is
patched in the end, and the readers find the table from the end of the file.

## Main definitions

* `Cas.PackfileWriter` — a packfile that is being written.
* `Cas.PackfileReader`, `Cas.MmapPackfileReader` — its readers.
* `Cas.packed` — the bytes of a packfile.
* `Cas.RoundTrip` — what is written to a packfile can be read from it.

## Main results

* `Cas.Writing.finalize_readWrite` — what finalizing does.
* `Cas.PackfileReader.readChunk_packed`, `Cas.MmapPackfileReader.readChunk_packed` — the readers
  give back what was packed.
* `Cas.roundTrip_iff` — packfiles round trip if and only if the file of the writer is open for
  reading too.

## Design

The files are those of the directory of packs, and nothing else acts on it. No disk fails, and what
a handle is open for is a parameter. Offsets and sizes are natural numbers; the format cuts them off
at 64 and 32 bits.
-/

namespace Landropic.Cas

/-- The first bytes of a packfile. -/
def PACKFILE_MAGIC : Bytes := [76, 65, 78, 68, 82, 79, 95, 80, 65, 67, 75, 95, 86, 49]

def PACKFILE_VERSION : ℕ := 1

/-- Size of packfile header: magic, version and entry count. -/
def PACKFILE_HEADER_SIZE : ℕ := 26

/-- Size of each entry in the entry table: hash, offset and size. -/
def PACKFILE_ENTRY_SIZE : ℕ := 44

/-- Size of packfile footer: the hash of the packfile. -/
def PACKFILE_FOOTER_SIZE : ℕ := 32

example : PACKFILE_MAGIC = Text.utf8 "LANDRO_PACK_V1".toList := by decide

/-- Entry in a packfile representing a stored object. -/
structure PackfileEntry where
  hash : ContentHash
  /-- Offset within the packfile. -/
  offset : ℕ
  /-- Size of the object data. -/
  size : ℕ
  deriving DecidableEq

/-- A chunk and its hash. -/
abbrev PackChunk := ContentHash × Bytes

/-- What packfiles take from outside: the hash function, whether the build checks for overflow, and
what a handle on a created file is open for. -/
structure PackEnv where
  blake3 : Bytes → ContentHash
  overflowChecks : Bool
  createAccess : Access

/-- The environment whose created files are open for writing only, as those of `File::create`. -/
def PackEnv.std (blake3 : Bytes → ContentHash) (overflowChecks : Bool) : PackEnv :=
  ⟨blake3, overflowChecks, .writeOnly⟩

/-- An error of the file system as one of the store. -/
def liftIo {α : Type} (r : Except IoError α) : Except (Stop CasError) α :=
  r.mapError fun e => .err (.io e)

@[simp] lemma liftIo_ok {α : Type} (a : α) : liftIo (.ok a : Except IoError α) = .ok a := rfl

/-- Add two unsigned 64-bit numbers. -/
def addU64 (overflowChecks : Bool) (a b : ℕ) : Except (Stop CasError) ℕ :=
  if a + b < 2 ^ 64 then .ok (a + b)
  else if overflowChecks then .error .panic
  else .ok ((a + b) % 2 ^ 64)

/-- Where the entry table starts, computed in unsigned 64-bit numbers. -/
def entryTableOffset (overflowChecks : Bool) (fileSize entryCount : ℕ) :
    Except (Stop CasError) ℕ :=
  if PACKFILE_FOOTER_SIZE + entryCount * PACKFILE_ENTRY_SIZE ≤ fileSize then
    .ok (fileSize - PACKFILE_FOOTER_SIZE - entryCount * PACKFILE_ENTRY_SIZE)
  else if overflowChecks then .error .panic
  else .ok ((fileSize - PACKFILE_FOOTER_SIZE - entryCount * PACKFILE_ENTRY_SIZE : ℤ) %
    2 ^ 64).toNat

/-- Statistics about packfile storage. -/
structure PackfileStats where
  /-- Total number of packfiles. -/
  totalPacks : ℕ
  /-- Total objects stored in packfiles. -/
  totalObjects : ℕ
  /-- Total size of data stored in packfiles. -/
  totalPackedSize : ℕ
  deriving DecidableEq

/-- The statistics of one packfile. -/
def PackfileStats.of (entries : HashMap ContentHash PackfileEntry) (totalSize : ℕ) :
    PackfileStats where
  totalPacks := 1
  totalObjects := entries.keys.card
  totalPackedSize := totalSize

/-! ## Reading a file -/

/-- Reader for accessing chunks in existing packfiles. -/
structure PackfileReader where
  filePath : Text
  entries : HashMap ContentHash PackfileEntry
  stats : PackfileStats
  deriving DecidableEq

namespace PackfileReader

variable (env : PackEnv)

/-- Read the entries of the table, and add up their sizes. -/
def readEntries : ℕ → Bytes → HashMap ContentHash PackfileEntry → ℕ →
    Except (Stop CasError) (HashMap ContentHash PackfileEntry × ℕ × Bytes)
  | 0, stream, entries, totalSize => .ok (entries, totalSize, stream)
  | n + 1, stream, entries, totalSize => do
    let (hashBytes, stream) ← liftIo (readExact 32 stream)
    let (offset, stream) ← liftIo (readLe 8 stream)
    let (size, stream) ← liftIo (readLe 4 stream)
    if h : hashBytes.length = 32 then
      let totalSize ← addU64 env.overflowChecks totalSize size
      readEntries n stream (entries.insert ⟨hashBytes, h⟩ ⟨⟨hashBytes, h⟩, offset, size⟩) totalSize
    -- not reached, as that many bytes were read
    else .error (.err (.io .earlyEof))

/-- Read the header and the table of a packfile. The hash at the end is read and not compared. -/
def readTable (content : Bytes) :
    Except (Stop CasError) (HashMap ContentHash PackfileEntry × PackfileStats) := do
  let (magic, stream) ← liftIo (readExact PACKFILE_MAGIC.length content)
  if magic ≠ PACKFILE_MAGIC then
    .error (.err (.inconsistentState "Invalid packfile magic"))
  else
    let (version, stream) ← liftIo (readLe 4 stream)
    if version ≠ PACKFILE_VERSION then
      .error (.err (.inconsistentState s!"Unsupported packfile version: {version}"))
    else
      let (entryCount, _) ← liftIo (readLe 8 stream)
      let tableOffset ← entryTableOffset env.overflowChecks content.length entryCount
      let stream ← liftIo (seekStart tableOffset content)
      let (entries, totalSize, stream) ← readEntries env entryCount stream ∅ 0
      let _ ← liftIo (readExact 32 stream)
      .ok (entries, .of entries totalSize)

/-- Open an existing packfile for reading. -/
def openFile (path : Text) (dir : Dir) : Except (Stop CasError) PackfileReader :=
  match dir.lookup path with
  | none => .error (.err (.io .notFound))
  | some content => (readTable env content).map fun table => ⟨path, table.1, table.2⟩

/-- Read a chunk from the packfile. -/
def readChunk (r : PackfileReader) (hash : ContentHash) (dir : Dir) : Except CasError Bytes :=
  match r.entries.lookup hash with
  | none => .error (.objectNotFound hash)
  | some entry =>
    match dir.lookup r.filePath with
    | none => .error (.io .notFound)
    | some content =>
      match seekStart entry.offset content with
      | .error e => .error (.io e)
      | .ok stream =>
        match readExact entry.size stream with
        | .error e => .error (.io e)
        | .ok (buffer, _) =>
          if env.blake3 buffer ≠ hash then .error (.hashMismatch hash (env.blake3 buffer))
          else .ok buffer

/-- Check if the packfile contains a specific chunk. -/
def containsChunk (r : PackfileReader) (hash : ContentHash) : Bool := hash ∈ r.entries

end PackfileReader

/-! ## Reading memory -/

/-- Memory-mapped reader for zero-copy access to packfile chunks. -/
structure MmapPackfileReader where
  entries : HashMap ContentHash PackfileEntry
  stats : PackfileStats
  mmap : Bytes

namespace MmapPackfileReader

variable (env : PackEnv)

/-- The bytes from a start to an end. A range that is out of order or too far panics. -/
def slice (mmap : Bytes) (start stop : ℕ) : Except (Stop CasError) Bytes :=
  if start ≤ stop ∧ stop ≤ mmap.length then .ok ((mmap.drop start).take (stop - start))
  else .error .panic

/-- Add two unsigned 64-bit numbers. -/
def addUsize (a b : ℕ) : Except (Stop CasError) ℕ := addU64 env.overflowChecks a b

/-- Parse the entries of the table, and add up their sizes. -/
def parseEntries (mmap : Bytes) : ℕ → ℕ → HashMap ContentHash PackfileEntry → ℕ →
    Except (Stop CasError) (HashMap ContentHash PackfileEntry × ℕ)
  | 0, _, entries, totalSize => .ok (entries, totalSize)
  | n + 1, offset, entries, totalSize => do
    let stop ← addUsize env offset PACKFILE_ENTRY_SIZE
    if stop > mmap.length then
      .error (.err (.inconsistentState "Entry table extends beyond file"))
    else
      let hashBytes ← slice mmap offset (offset + 32)
      let offsetBytes ← slice mmap (offset + 32) (offset + 40)
      let sizeBytes ← slice mmap (offset + 40) (offset + 44)
      if h : hashBytes.length = 32 then
        let totalSize ← addU64 env.overflowChecks totalSize (leNat sizeBytes)
        parseEntries mmap n (offset + 44)
          (entries.insert ⟨hashBytes, h⟩ ⟨⟨hashBytes, h⟩, leNat offsetBytes, leNat sizeBytes⟩)
          totalSize
      else .error (.err (.inconsistentState "Invalid hash size"))

/-- Open a packfile with memory mapping. -/
def openFile (path : Text) (dir : Dir) : Except (Stop CasError) MmapPackfileReader := do
  let mmap ← match dir.lookup path with
    | none => .error (.err (.storagePath s!"Failed to open packfile: {IoError.notFound.display}"))
    | some content => .ok content
  if mmap.length < PACKFILE_HEADER_SIZE then
    .error (.err (.inconsistentState "Packfile too small"))
  else if mmap.take PACKFILE_MAGIC.length ≠ PACKFILE_MAGIC then
    .error (.err (.inconsistentState "Invalid packfile magic"))
  else
    let version := leNat ((mmap.drop PACKFILE_MAGIC.length).take 4)
    if version ≠ PACKFILE_VERSION then
      .error (.err (.inconsistentState s!"Unsupported packfile version: {version}"))
    else
      let entryCount := leNat ((mmap.drop (PACKFILE_MAGIC.length + 4)).take 8)
      let tableOffset ← entryTableOffset env.overflowChecks mmap.length entryCount
      let (entries, totalSize) ← parseEntries env mmap entryCount tableOffset ∅ 0
      .ok ⟨entries, .of entries totalSize, mmap⟩

/-- Get a direct reference to chunk data (no verification). -/
def getChunkSlice (r : MmapPackfileReader) (hash : ContentHash) : Except (Stop CasError) Bytes :=
  match r.entries.lookup hash with
  | none => .error (.err (.objectNotFound hash))
  | some entry => do
    let stop ← addUsize env entry.offset entry.size
    if stop > r.mmap.length then
      .error (.err (.corruptObject "Chunk data extends beyond packfile"))
    else slice r.mmap entry.offset stop

/-- Read a chunk with zero-copy. -/
def readChunk (r : MmapPackfileReader) (hash : ContentHash) : Except (Stop CasError) Bytes :=
  match r.entries.lookup hash with
  | none => .error (.err (.objectNotFound hash))
  | some entry => do
    let stop ← addUsize env entry.offset entry.size
    if stop > r.mmap.length then
      .error (.err (.corruptObject "Chunk data extends beyond packfile"))
    else
      let data ← slice r.mmap entry.offset stop
      if env.blake3 data ≠ hash then
        .error (.err (.hashMismatch hash (env.blake3 data)))
      else .ok data

end MmapPackfileReader

/-! ## Writing -/

/-- Writer for creating new packfiles with proper format. -/
structure PackfileWriter where
  file : FileHandle
  entries : List PackfileEntry
  dataOffset : ℕ
  packfilePath : Text

namespace PackfileWriter

variable (env : PackEnv)

/-- Create a new packfile writer. -/
def new (path : Text) (dir : Dir) : PackfileWriter × Dir :=
  let created := FileHandle.create env.createAccess path dir
  let written := created.1.writePieces
    [PACKFILE_MAGIC, leBytes 4 PACKFILE_VERSION, leBytes 8 0] created.2
  ({ file := written.1
     entries := []
     dataOffset := PACKFILE_HEADER_SIZE
     packfilePath := path }, written.2)

/-- Add a chunk to the packfile. -/
def addChunk (w : PackfileWriter) (hash : ContentHash) (data : Bytes) (dir : Dir) :
    Except CasError Unit × PackfileWriter × Dir :=
  if data.length > 2 ^ 32 - 1 then
    (.error (.invalidObjectSize (2 ^ 32 - 1) data.length), w, dir)
  else
    let written := w.file.writeAll data dir
    (.ok (),
      { w with
        file := written.1
        entries := w.entries ++ [⟨hash, w.dataOffset, data.length⟩]
        dataOffset := w.dataOffset + data.length }, written.2)

/-- The bytes of an entry of the table. -/
def entryPieces (entry : PackfileEntry) : List Bytes :=
  [entry.hash.asBytes, leBytes 8 entry.offset, leBytes 4 entry.size]

/-- Finalize the packfile and return a reader. The hasher gets the whole file off the handle that
the file was created with, a buffer at a time. -/
def finalize (w : PackfileWriter) (dir : Dir) : Except (Stop CasError) PackfileReader × Dir :=
  let table := w.file.writePieces (w.entries.flatMap entryPieces) dir
  match (table.1.seek 0).readBlocks 8192 table.2 with
  | (.error e, _) => (.error (.err (.io e)), table.2)
  | (.ok content, file) =>
    let footer := file.writeAll (env.blake3 content).asBytes table.2
    let count := (footer.1.seek (PACKFILE_MAGIC.length + 4)).writeAll
      (leBytes 8 w.entries.length) footer.2
    (PackfileReader.openFile env w.packfilePath count.2, count.2)

/-- Get the current number of chunks in the packfile. -/
def chunkCount (w : PackfileWriter) : ℕ := w.entries.length

/-- Get the current data size. -/
def dataSize (w : PackfileWriter) : ℕ := w.dataOffset - PACKFILE_HEADER_SIZE

/-- Add chunks one after the other, up to the first error. -/
def addChunks : List PackChunk → PackfileWriter → Dir → Except CasError Unit × PackfileWriter × Dir
  | [], w, dir => (.ok (), w, dir)
  | (hash, data) :: rest, w, dir =>
    match w.addChunk hash data dir with
    | (.error e, w, dir) => (.error e, w, dir)
    | (.ok (), w, dir) => addChunks rest w dir

end PackfileWriter

/-! ## The format -/

section Format

/-- The header of a packfile. -/
def header (count : ℕ) : Bytes :=
  PACKFILE_MAGIC ++ leBytes 4 PACKFILE_VERSION ++ leBytes 8 count

/-- The data of chunks. -/
def dataOf (chunks : List PackChunk) : Bytes := chunks.flatMap Prod.snd

/-- The entries of chunks whose data starts at an offset. -/
def entriesOf : ℕ → List PackChunk → List PackfileEntry
  | _, [] => []
  | offset, (hash, data) :: rest =>
    ⟨hash, offset, data.length⟩ :: entriesOf (offset + data.length) rest

/-- The bytes of an entry table. -/
def tableOf (entries : List PackfileEntry) : Bytes :=
  (entries.flatMap PackfileWriter.entryPieces).flatten

/-- A packfile with this count in its header, up to its footer. -/
def body (count : ℕ) (chunks : List PackChunk) : Bytes :=
  header count ++ dataOf chunks ++ tableOf (entriesOf PACKFILE_HEADER_SIZE chunks)

/-- The bytes of a packfile. -/
def packed (blake3 : Bytes → ContentHash) (chunks : List PackChunk) : Bytes :=
  body chunks.length chunks ++ (blake3 (body 0 chunks)).asBytes

/-- The entries of a packfile by their hashes. -/
def entryMap (chunks : List PackChunk) : HashMap ContentHash PackfileEntry :=
  .collect ((entriesOf PACKFILE_HEADER_SIZE chunks).map fun entry => (entry.hash, entry))

/-- The chunks are within the limits of the format, and make a file of a size that exists. -/
structure Fits (chunks : List PackChunk) : Prop where
  chunk_le : ∀ chunk ∈ chunks, chunk.2.length ≤ 2 ^ 32 - 1
  total_lt : PACKFILE_HEADER_SIZE + (dataOf chunks).length +
    chunks.length * PACKFILE_ENTRY_SIZE + PACKFILE_FOOTER_SIZE < 2 ^ 63

/-- The statistics of the packfile of some chunks. -/
def statsOf (chunks : List PackChunk) : PackfileStats :=
  .of (entryMap chunks) (dataOf chunks).length

/-- The reader of a packfile. -/
def readerOf (path : Text) (chunks : List PackChunk) : PackfileReader :=
  ⟨path, entryMap chunks, statsOf chunks⟩

/-- An entry tells where these bytes are in a file. -/
structure Locates (content : Bytes) (entry : PackfileEntry) (data : Bytes) : Prop where
  size_eq : entry.size = data.length
  stop_le : entry.offset + entry.size ≤ content.length
  bytes_eq : (content.drop entry.offset).take entry.size = data

variable {chunks : List PackChunk} {content data : Bytes} {entry : PackfileEntry}

@[simp] lemma length_header (count : ℕ) : (header count).length = PACKFILE_HEADER_SIZE := by
  simp [header, PACKFILE_MAGIC, PACKFILE_HEADER_SIZE]

@[simp] lemma length_entriesOf (offset : ℕ) (chunks : List PackChunk) :
    (entriesOf offset chunks).length = chunks.length := by
  induction chunks generalizing offset with
  | nil => rfl
  | cons chunk chunks ih => simp [entriesOf, ih]

@[simp] lemma tableOf_cons (entry : PackfileEntry) (entries : List PackfileEntry) :
    tableOf (entry :: entries) =
      entry.hash.asBytes ++ (leBytes 8 entry.offset ++ (leBytes 4 entry.size ++
        tableOf entries)) := by
  simp [tableOf, PackfileWriter.entryPieces]

@[simp] lemma length_tableOf (entries : List PackfileEntry) :
    (tableOf entries).length = entries.length * PACKFILE_ENTRY_SIZE := by
  induction entries with
  | nil => rfl
  | cons entry entries ih =>
    simp [ih, PACKFILE_ENTRY_SIZE]
    omega

@[simp] lemma length_packed (blake3 : Bytes → ContentHash) (chunks : List PackChunk) :
    (packed blake3 chunks).length = PACKFILE_HEADER_SIZE + (dataOf chunks).length +
      chunks.length * PACKFILE_ENTRY_SIZE + PACKFILE_FOOTER_SIZE := by
  simp [packed, body, PACKFILE_FOOTER_SIZE, Nat.add_assoc]

lemma entriesOf_append (offset : ℕ) (chunks more : List PackChunk) :
    entriesOf offset (chunks ++ more) =
      entriesOf offset chunks ++ entriesOf (offset + (dataOf chunks).length) more := by
  induction chunks generalizing offset with
  | nil => rfl
  | cons chunk chunks ih => simp [entriesOf, ih, dataOf, Nat.add_assoc]

/-- **The entry of a chunk** tells where its data is, whatever surrounds the data of the chunks. -/
lemma locates_of_mem_entriesOf {front : Bytes} (back : Bytes)
    (h : entry ∈ entriesOf front.length chunks) :
    ∃ data, (entry.hash, data) ∈ chunks ∧
      Locates (front ++ dataOf chunks ++ back) entry data := by
  induction chunks generalizing front with
  | nil => simp [entriesOf] at h
  | cons chunk chunks ih =>
    obtain ⟨hash, data⟩ := chunk
    simp only [entriesOf, List.mem_cons] at h
    obtain rfl | h := h
    · refine ⟨data, List.mem_cons_self, rfl, ?_, ?_⟩
      · simp [dataOf]
      · simp [dataOf]
    · rw [← List.length_append] at h
      obtain ⟨data', hmem, hlocates⟩ := ih h
      refine ⟨data', List.mem_cons_of_mem _ hmem, ?_⟩
      simpa [dataOf] using hlocates

lemma Locates.append (h : Locates content entry data) (back : Bytes) :
    Locates (content ++ back) entry data := by
  refine ⟨h.size_eq, ?_, ?_⟩
  · have := h.stop_le
    simp
    omega
  · have hle : entry.size ≤ (content.drop entry.offset).length := by
      have := h.stop_le
      simp
      omega
    have hoffset : entry.offset ≤ content.length := by
      have := h.stop_le
      omega
    rw [List.drop_append_of_le_length hoffset, List.take_append_of_le_length hle, h.bytes_eq]

@[simp] lemma map_hash_entriesOf (offset : ℕ) (chunks : List PackChunk) :
    (entriesOf offset chunks).map PackfileEntry.hash = chunks.map Prod.fst := by
  induction chunks generalizing offset with
  | nil => rfl
  | cons chunk chunks ih => simp [entriesOf, ih]

variable {hash : ContentHash}

lemma mem_entryMap : hash ∈ entryMap chunks ↔ hash ∈ chunks.map Prod.fst := by
  rw [entryMap, HashMap.mem_collect, List.map_map,
    ← map_hash_entriesOf PACKFILE_HEADER_SIZE chunks]
  rfl

/-- **The table of a packfile** has an entry for the hash of every chunk, and it tells where the
data of a chunk with this hash is. -/
lemma lookup_entryMap (blake3 : Bytes → ContentHash) (h : (hash, data) ∈ chunks) :
    ∃ entry data', (entryMap chunks).lookup hash = some entry ∧ (hash, data') ∈ chunks ∧
      Locates (packed blake3 chunks) entry data' := by
  have hmem : hash ∈ entryMap chunks := mem_entryMap.mpr (List.mem_map_of_mem h)
  obtain ⟨entry, hlookup⟩ := Finmap.mem_iff.mp hmem
  have hpair := HashMap.mem_of_lookup_collect hlookup
  obtain ⟨entry', hmem', heq⟩ := List.mem_map.mp hpair
  obtain ⟨rfl, rfl⟩ := Prod.mk.inj heq
  rw [← length_header chunks.length] at hmem'
  obtain ⟨data', hdata', hlocates⟩ := locates_of_mem_entriesOf [] hmem'
  refine ⟨entry', data', hlookup, hdata', ?_⟩
  rw [List.append_nil] at hlocates
  exact (hlocates.append _).append _

/-! ## The readers -/

variable {env : PackEnv} {dir : Dir} {path : Text}

/-- An entry within the limits of the format. -/
def EntryFits (entry : PackfileEntry) : Prop := entry.offset < 2 ^ 64 ∧ entry.size < 2 ^ 32

/-- The sizes of entries, added up. -/
def totalSizeOf (entries : List PackfileEntry) : ℕ := (entries.map PackfileEntry.size).sum

lemma totalSizeOf_cons (entry : PackfileEntry) (entries : List PackfileEntry) :
    totalSizeOf (entry :: entries) = entry.size + totalSizeOf entries := rfl

lemma totalSizeOf_entriesOf (offset : ℕ) (chunks : List PackChunk) :
    totalSizeOf (entriesOf offset chunks) = (dataOf chunks).length := by
  induction chunks generalizing offset with
  | nil => rfl
  | cons chunk chunks ih => simp [entriesOf, totalSizeOf_cons, ih, dataOf]

lemma Fits.entryFits (h : Fits chunks) :
    ∀ entry ∈ entriesOf PACKFILE_HEADER_SIZE chunks, EntryFits entry := by
  intro entry hentry
  rw [← length_header 0] at hentry
  obtain ⟨data, hdata, hlocates⟩ := locates_of_mem_entriesOf [] hentry
  have hsize := h.chunk_le _ hdata
  have hstop := hlocates.stop_le
  have htotal := h.total_lt
  rw [hlocates.size_eq] at hstop
  simp only [List.length_append, length_header, List.length_nil] at hstop
  constructor
  · omega
  · rw [hlocates.size_eq]
    dsimp only at hsize
    omega

lemma Fits.totalSize_lt (h : Fits chunks) :
    0 + totalSizeOf (entriesOf PACKFILE_HEADER_SIZE chunks) < 2 ^ 64 := by
  have := h.total_lt
  rw [totalSizeOf_entriesOf]
  omega

/-- **Reading a table** gives its entries. -/
lemma readEntries_tableOf (entries : List PackfileEntry) (rest : Bytes)
    (map : HashMap ContentHash PackfileEntry) (total : ℕ) (h : ∀ entry ∈ entries, EntryFits entry)
    (htotal : total + totalSizeOf entries < 2 ^ 64) :
    PackfileReader.readEntries env entries.length (tableOf entries ++ rest) map total =
      .ok (entries.foldl (fun map entry => map.insert entry.hash entry) map,
        total + totalSizeOf entries, rest) := by
  induction entries generalizing map total with
  | nil => rfl
  | cons entry entries ih =>
    obtain ⟨⟨hoffset, hsize⟩, hrest⟩ := List.forall_mem_cons.mp h
    have hoffset' : entry.offset < 256 ^ 8 := by omega
    have hsize' : entry.size < 256 ^ 4 := by omega
    rw [totalSizeOf_cons, ← Nat.add_assoc] at htotal
    have hadd : addU64 env.overflowChecks total entry.size = .ok (total + entry.size) :=
      if_pos (by omega)
    simp only [List.length_cons, PackfileReader.readEntries, tableOf_cons, List.append_assoc,
      readExact_append entry.hash.length_asBytes, readLe_append hoffset', readLe_append hsize',
      liftIo_ok, Except.ok_bind, ContentHash.length_asBytes, dite_true, List.foldl_cons, hadd]
    rw [ih _ _ hrest htotal, totalSizeOf_cons, Nat.add_assoc]

lemma entryTableOffset_packed (blake3 : Bytes → ContentHash) (overflowChecks : Bool) :
    entryTableOffset overflowChecks (packed blake3 chunks).length chunks.length =
      .ok (header chunks.length ++ dataOf chunks).length := by
  rw [entryTableOffset, if_pos (by rw [length_packed]; omega), length_packed]
  simp

lemma drop_packed (blake3 : Bytes → ContentHash) :
    (packed blake3 chunks).drop (header chunks.length ++ dataOf chunks).length =
      tableOf (entriesOf PACKFILE_HEADER_SIZE chunks) ++ (blake3 (body 0 chunks)).asBytes := by
  rw [packed, body, List.append_assoc, List.drop_left]

lemma foldl_entriesOf :
    (entriesOf PACKFILE_HEADER_SIZE chunks).foldl (fun map entry => map.insert entry.hash entry) ∅ =
      entryMap chunks := by
  rw [entryMap, HashMap.collect, List.foldl_map]

/-- The header of a packfile can be read. -/
lemma Fits.readHeader (hfits : Fits chunks) (blake3 : Bytes → ContentHash) :
    ∃ stream₁ stream₂ stream₃,
      readExact PACKFILE_MAGIC.length (packed blake3 chunks) = .ok (PACKFILE_MAGIC, stream₁) ∧
      readLe 4 stream₁ = .ok (PACKFILE_VERSION, stream₂) ∧
      readLe 8 stream₂ = .ok (chunks.length, stream₃) := by
  have hcount : chunks.length < 256 ^ 8 := by
    have := hfits.total_lt
    simp only [PACKFILE_ENTRY_SIZE] at this
    omega
  have hcontent : packed blake3 chunks = PACKFILE_MAGIC ++ (leBytes 4 PACKFILE_VERSION ++
      (leBytes 8 chunks.length ++ (dataOf chunks ++ (tableOf
        (entriesOf PACKFILE_HEADER_SIZE chunks) ++ (blake3 (body 0 chunks)).asBytes)))) := by
    simp [packed, body, header]
  rw [hcontent]
  exact ⟨_, _, _, readExact_append rfl, readLe_append (by decide), readLe_append hcount⟩

/-- **A packfile opens**, with the entries of its chunks. -/
theorem PackfileReader.openFile_packed (hfits : Fits chunks)
    (hlookup : dir.lookup path = some (packed env.blake3 chunks)) :
    PackfileReader.openFile env path dir = .ok (readerOf path chunks) := by
  obtain ⟨stream₁, stream₂, stream₃, hmagic, hversion, hcount⟩ := hfits.readHeader env.blake3
  have hstart : (header chunks.length ++ dataOf chunks).length < 2 ^ 63 := by
    have := hfits.total_lt
    simp only [List.length_append, length_header]
    omega
  have hseek : seekStart (header chunks.length ++ dataOf chunks).length (packed env.blake3 chunks) =
      .ok (tableOf (entriesOf PACKFILE_HEADER_SIZE chunks) ++
        (env.blake3 (body 0 chunks)).asBytes) := by
    rw [seekStart, if_pos hstart, drop_packed]
  have hentries := @readEntries_tableOf env (entriesOf PACKFILE_HEADER_SIZE chunks)
    (env.blake3 (body 0 chunks)).asBytes ∅ 0 hfits.entryFits hfits.totalSize_lt
  rw [length_entriesOf, foldl_entriesOf, Nat.zero_add, totalSizeOf_entriesOf] at hentries
  have hfooter : readExact 32 (env.blake3 (body 0 chunks)).asBytes =
      .ok ((env.blake3 (body 0 chunks)).asBytes, []) := by
    simp [readExact]
  have htable : PackfileReader.readTable env (packed env.blake3 chunks) =
      .ok (entryMap chunks, statsOf chunks) := by
    simp only [PackfileReader.readTable, hmagic, hversion, hcount, entryTableOffset_packed, hseek,
      hentries, hfooter, liftIo_ok, Except.ok_bind, ne_eq, not_true_eq_false, if_false, statsOf]
  simp only [PackfileReader.openFile, hlookup, htable, Except.map, readerOf]

/-- What is located in a file can be read. -/
lemma PackfileReader.readChunk_of_locates {r : PackfileReader}
    (hentry : r.entries.lookup hash = some entry) (hlookup : dir.lookup r.filePath = some content)
    (hlocates : Locates content entry data) (hoffset : entry.offset < 2 ^ 63)
    (hhash : env.blake3 data = hash) : r.readChunk env hash dir = .ok data := by
  have hle : entry.size ≤ (content.drop entry.offset).length := by
    have := hlocates.stop_le
    simp
    omega
  have hseek : seekStart entry.offset content = .ok (content.drop entry.offset) := if_pos hoffset
  have hread : readExact entry.size (content.drop entry.offset) =
      .ok (data, (content.drop entry.offset).drop entry.size) := by
    rw [readExact, if_pos hle, hlocates.bytes_eq]
  simp [PackfileReader.readChunk, hentry, hlookup, hseek, hread, hhash]

/-- **What was packed can be read**, if no two chunks have the same hash and different data. -/
theorem PackfileReader.readChunk_packed (hfits : Fits chunks)
    (hlookup : dir.lookup path = some (packed env.blake3 chunks)) (hmem : (hash, data) ∈ chunks)
    (hsame : ∀ data', (hash, data') ∈ chunks → data' = data) (hhash : env.blake3 data = hash) :
    (readerOf path chunks).readChunk env hash dir = .ok data := by
  obtain ⟨entry, data', hentry, hmem', hlocates⟩ := lookup_entryMap env.blake3 hmem
  obtain rfl := hsame data' hmem'
  have hstop := hlocates.stop_le
  rw [length_packed] at hstop
  exact readChunk_of_locates hentry hlookup hlocates (by have := hfits.total_lt; omega) hhash

lemma slice_of_eq {mmap front middle back : Bytes} {start stop : ℕ}
    (hmmap : mmap = front ++ (middle ++ back)) (hstart : front.length = start)
    (hstop : start + middle.length = stop) :
    MmapPackfileReader.slice mmap start stop = .ok middle := by
  subst hmmap hstart hstop
  rw [MmapPackfileReader.slice, if_pos (by simp)]
  simp

variable (env) in
/-- **Parsing a table** gives its entries. -/
lemma parseEntries_tableOf {mmap : Bytes} (hlength : mmap.length < 2 ^ 63)
    (entries : List PackfileEntry) {front back : Bytes}
    (hmmap : mmap = front ++ (tableOf entries ++ back))
    (map : HashMap ContentHash PackfileEntry) (total : ℕ) (h : ∀ entry ∈ entries, EntryFits entry)
    (htotal : total + totalSizeOf entries < 2 ^ 64) :
    MmapPackfileReader.parseEntries env mmap entries.length front.length map total =
      .ok (entries.foldl (fun map entry => map.insert entry.hash entry) map,
        total + totalSizeOf entries) := by
  induction entries generalizing map front total with
  | nil => rfl
  | cons entry entries ih =>
    obtain ⟨⟨hoffset, hsize⟩, hrest⟩ := List.forall_mem_cons.mp h
    have hoffset' : entry.offset < 256 ^ 8 := by omega
    have hsize' : entry.size < 256 ^ 4 := by omega
    have hstop : front.length + PACKFILE_ENTRY_SIZE ≤ mmap.length := by
      simp [hmmap, PACKFILE_ENTRY_SIZE]
      omega
    have hadd : MmapPackfileReader.addUsize env front.length PACKFILE_ENTRY_SIZE =
        .ok (front.length + PACKFILE_ENTRY_SIZE) := if_pos (by omega)
    have hhash : MmapPackfileReader.slice mmap front.length (front.length + 32) =
        .ok entry.hash.asBytes :=
      slice_of_eq (by rw [hmmap, tableOf_cons, List.append_assoc]) rfl
        (by rw [entry.hash.length_asBytes])
    have hmmap₁ : mmap = front ++ entry.hash.asBytes ++ (leBytes 8 entry.offset ++
        (leBytes 4 entry.size ++ (tableOf entries ++ back))) := by simp [hmmap]
    have hoff : MmapPackfileReader.slice mmap (front.length + 32) (front.length + 40) =
        .ok (leBytes 8 entry.offset) := slice_of_eq hmmap₁ (by simp) (by simp)
    have hmmap₂ : mmap = front ++ entry.hash.asBytes ++ leBytes 8 entry.offset ++
        (leBytes 4 entry.size ++ (tableOf entries ++ back)) := by simp [hmmap]
    have hsz : MmapPackfileReader.slice mmap (front.length + 40) (front.length + 44) =
        .ok (leBytes 4 entry.size) := slice_of_eq hmmap₂ (by simp) (by simp)
    have hmmap₃ : mmap = front ++ entry.hash.asBytes ++ leBytes 8 entry.offset ++
        leBytes 4 entry.size ++ (tableOf entries ++ back) := by simp [hmmap]
    rw [totalSizeOf_cons, ← Nat.add_assoc] at htotal
    have htotal' : addU64 env.overflowChecks total entry.size = .ok (total + entry.size) :=
      if_pos (by omega)
    have hnext := ih hmmap₃ (map.insert entry.hash entry) (total + entry.size) hrest htotal
    have hlen : (front ++ entry.hash.asBytes ++ leBytes 8 entry.offset ++
        leBytes 4 entry.size).length = front.length + 44 := by simp
    rw [hlen] at hnext
    simp only [List.length_cons, MmapPackfileReader.parseEntries, hadd, Except.ok_bind,
      Nat.not_lt.mpr hstop, if_false, hhash, hoff, hsz, ContentHash.length_asBytes, dite_true,
      leNat_leBytes hoffset', leNat_leBytes hsize', gt_iff_lt, List.foldl_cons, htotal']
    rw [hnext, totalSizeOf_cons, Nat.add_assoc]

/-- **A packfile opens in memory**, with the entries of its chunks. -/
theorem MmapPackfileReader.openFile_packed (hfits : Fits chunks)
    (hlookup : dir.lookup path = some (packed env.blake3 chunks)) :
    MmapPackfileReader.openFile env path dir =
      .ok ⟨entryMap chunks, statsOf chunks, packed env.blake3 chunks⟩ := by
  have hcount : chunks.length < 256 ^ 8 := by
    have := hfits.total_lt
    simp only [PACKFILE_ENTRY_SIZE] at this
    omega
  have hlength : (packed env.blake3 chunks).length < 2 ^ 63 := by
    rw [length_packed]
    exact hfits.total_lt
  have hsmall : ¬ (packed env.blake3 chunks).length < PACKFILE_HEADER_SIZE := by
    rw [length_packed]
    omega
  have hmagic : (packed env.blake3 chunks).take PACKFILE_MAGIC.length = PACKFILE_MAGIC := by
    simp [packed, body, header]
  have hversion : leNat (((packed env.blake3 chunks).drop PACKFILE_MAGIC.length).take 4) =
      PACKFILE_VERSION := by
    have htake : ((packed env.blake3 chunks).drop PACKFILE_MAGIC.length).take 4 =
        leBytes 4 PACKFILE_VERSION := by
      simp only [packed, body, header, List.append_assoc, List.drop_left]
      exact List.take_left' (length_leBytes _ _)
    rw [htake, leNat_leBytes (by decide)]
  have hentryCount : leNat (((packed env.blake3 chunks).drop (PACKFILE_MAGIC.length + 4)).take 8) =
      chunks.length := by
    have htake : ((packed env.blake3 chunks).drop (PACKFILE_MAGIC.length + 4)).take 8 =
        leBytes 8 chunks.length := by
      simp only [packed, body, header, List.append_assoc, ← List.drop_drop, List.drop_left,
        List.drop_left' (length_leBytes 4 PACKFILE_VERSION)]
      exact List.take_left' (length_leBytes _ _)
    rw [htake, leNat_leBytes hcount]
  have hmmap : packed env.blake3 chunks = header chunks.length ++ dataOf chunks ++
      (tableOf (entriesOf PACKFILE_HEADER_SIZE chunks) ++
        (env.blake3 (body 0 chunks)).asBytes) := by
    simp [packed, body]
  have hentries := parseEntries_tableOf env hlength _ hmmap ∅ 0 hfits.entryFits hfits.totalSize_lt
  rw [length_entriesOf, foldl_entriesOf, Nat.zero_add, totalSizeOf_entriesOf] at hentries
  simp only [MmapPackfileReader.openFile, hlookup, Except.ok_bind, hsmall, if_false, hmagic,
    ne_eq, not_true_eq_false, hversion, hentryCount, entryTableOffset_packed, hentries, statsOf]

/-- **What was packed can be read from memory**, if no two chunks have the same hash and different
data. -/
theorem MmapPackfileReader.readChunk_packed (hfits : Fits chunks) (hmem : (hash, data) ∈ chunks)
    (hsame : ∀ data', (hash, data') ∈ chunks → data' = data) (hhash : env.blake3 data = hash) :
    (⟨entryMap chunks, statsOf chunks, packed env.blake3 chunks⟩ : MmapPackfileReader).readChunk
      env hash = .ok data := by
  obtain ⟨entry, data', hentry, hmem', hlocates⟩ := lookup_entryMap env.blake3 hmem
  obtain rfl := hsame data' hmem'
  have hstop := hlocates.stop_le
  have hadd : addUsize env entry.offset entry.size = .ok (entry.offset + entry.size) := by
    have htotal := hfits.total_lt
    rw [length_packed] at hstop
    exact if_pos (by omega)
  have hslice : slice (packed env.blake3 chunks) entry.offset (entry.offset + entry.size) =
      .ok data' := by
    rw [slice, if_pos ⟨by omega, hstop⟩, Nat.add_sub_cancel_left, hlocates.bytes_eq]
  simp only [readChunk, hentry, hadd, Except.ok_bind, gt_iff_lt, Nat.not_lt.mpr hstop, if_false,
    hslice, hhash, ne_eq, not_true_eq_false]

/-! ## The writer -/

/-- A writer to which these chunks were added. -/
structure Writing (env : PackEnv) (path : Text) (w : PackfileWriter) (dir : Dir)
    (chunks : List PackChunk) : Prop where
  atEnd : w.file.AtEnd dir (header 0 ++ dataOf chunks)
  name_eq : w.file.name = path
  path_eq : w.packfilePath = path
  access_eq : w.file.access = env.createAccess
  entries_eq : w.entries = entriesOf PACKFILE_HEADER_SIZE chunks
  offset_eq : w.dataOffset = PACKFILE_HEADER_SIZE + (dataOf chunks).length

/-- Only the file at the path may have changed. -/
def OnlyAt (path : Text) (dir dir' : Dir) : Prop :=
  ∀ name, name ≠ path → dir'.lookup name = dir.lookup name

variable {dir' : Dir} {w w' : PackfileWriter}

/-- **A new writer** has no chunks. -/
lemma writing_new (env : PackEnv) (path : Text) (dir : Dir) :
    Writing env path (PackfileWriter.new env path dir).1 (PackfileWriter.new env path dir).2 [] ∧
      OnlyAt path dir (PackfileWriter.new env path dir).2 := by
  have hcreated := FileHandle.atEnd_create env.createAccess path dir
  obtain ⟨hend, haccess⟩ := hcreated.writePieces
    [PACKFILE_MAGIC, leBytes 4 PACKFILE_VERSION, leBytes 8 0]
  have hheader : [] ++ [PACKFILE_MAGIC, leBytes 4 PACKFILE_VERSION, leBytes 8 0].flatten =
      header 0 ++ dataOf [] := by simp [header, dataOf]
  rw [hheader] at hend
  refine ⟨⟨hend, FileHandle.name_writePieces _ _ _, rfl, haccess, rfl, rfl⟩, fun name hne => ?_⟩
  have hpieces : name ≠ (FileHandle.create env.createAccess path dir).1.name := hne
  exact (FileHandle.lookup_writePieces_of_ne hpieces).trans (FileHandle.lookup_create_of_ne hne)

/-- **Adding a chunk** appends its data and its entry. -/
lemma Writing.addChunk (h : Writing env path w dir chunks) (hash : ContentHash)
    (hle : data.length ≤ 2 ^ 32 - 1) :
    ∃ w' dir', w.addChunk hash data dir = (.ok (), w', dir') ∧
      Writing env path w' dir' (chunks ++ [(hash, data)]) ∧ OnlyAt path dir dir' := by
  refine ⟨_, _, if_neg (Nat.not_lt.mpr hle), ⟨?_, h.name_eq, h.path_eq, h.access_eq, ?_, ?_⟩, ?_⟩
  · have hend := h.atEnd.writeAll data
    have hdata : header 0 ++ dataOf chunks ++ data =
        header 0 ++ dataOf (chunks ++ [(hash, data)]) := by
      simp [dataOf]
    rwa [hdata] at hend
  · simp [h.entries_eq, h.offset_eq, entriesOf_append, entriesOf]
  · simp [h.offset_eq, dataOf, Nat.add_assoc]
  · intro name hne
    exact FileHandle.lookup_writeAll_of_ne (h.name_eq ▸ hne)

lemma addChunk_of_lt (hlt : 2 ^ 32 - 1 < data.length) :
    w.addChunk hash data dir =
      (.error (.invalidObjectSize (2 ^ 32 - 1) data.length), w, dir) := if_pos hlt

/-- **Adding chunks** that are not too large appends all of them. -/
lemma Writing.addChunks (h : Writing env path w dir chunks) (more : List PackChunk)
    (hle : ∀ chunk ∈ more, chunk.2.length ≤ 2 ^ 32 - 1) :
    ∃ w' dir', PackfileWriter.addChunks more w dir = (.ok (), w', dir') ∧
      Writing env path w' dir' (chunks ++ more) ∧ OnlyAt path dir dir' := by
  induction more generalizing w dir chunks with
  | nil => exact ⟨w, dir, rfl, by simpa using h, fun _ _ => rfl⟩
  | cons chunk more ih =>
    obtain ⟨hash, data⟩ := chunk
    obtain ⟨hchunk, hmore⟩ := List.forall_mem_cons.mp hle
    obtain ⟨w₁, dir₁, hadd, h₁, honly₁⟩ := h.addChunk hash hchunk
    obtain ⟨w₂, dir₂, hadds, h₂, honly₂⟩ := ih h₁ hmore
    refine ⟨w₂, dir₂, ?_, by simpa using h₂, fun name hne => ?_⟩
    · rw [PackfileWriter.addChunks, hadd]
      exact hadds
    · rw [honly₂ name hne, honly₁ name hne]

lemma le_of_addChunks (hadds : (PackfileWriter.addChunks chunks w dir).1 = .ok ()) :
    ∀ chunk ∈ chunks, chunk.2.length ≤ 2 ^ 32 - 1 := by
  induction chunks generalizing w dir with
  | nil => simp
  | cons chunk chunks ih =>
    obtain ⟨hash, data⟩ := chunk
    rw [PackfileWriter.addChunks] at hadds
    by_cases hlt : 2 ^ 32 - 1 < data.length
    · rw [addChunk_of_lt hlt] at hadds
      cases hadds
    · rw [PackfileWriter.addChunk, if_neg hlt] at hadds
      exact List.forall_mem_cons.mpr ⟨Nat.not_lt.mp hlt, ih hadds⟩

/-- The writer's file after its table was written. -/
lemma Writing.table (h : Writing env path w dir chunks) :
    (w.file.writePieces (w.entries.flatMap PackfileWriter.entryPieces) dir).1.AtEnd
        (w.file.writePieces (w.entries.flatMap PackfileWriter.entryPieces) dir).2
        (body 0 chunks) ∧
      (w.file.writePieces (w.entries.flatMap PackfileWriter.entryPieces) dir).1.name = path ∧
      (w.file.writePieces (w.entries.flatMap PackfileWriter.entryPieces) dir).1.access =
        env.createAccess ∧
      OnlyAt path dir
        (w.file.writePieces (w.entries.flatMap PackfileWriter.entryPieces) dir).2 := by
  obtain ⟨hend, haccess⟩ := h.atEnd.writePieces (w.entries.flatMap PackfileWriter.entryPieces)
  refine ⟨?_, (FileHandle.name_writePieces _ _ _).trans h.name_eq, haccess.trans h.access_eq,
    fun name hne => ?_⟩
  · rwa [body, tableOf, ← h.entries_eq]
  · exact FileHandle.lookup_writePieces_of_ne (h.name_eq ▸ hne)

/-- **Finalizing fails** if the file is open for writing only. -/
theorem Writing.finalize_writeOnly (h : Writing env path w dir chunks)
    (haccess : env.createAccess = .writeOnly) :
    (w.finalize env dir).1 = .error (.err (.io .badFileDescriptor)) ∧
      OnlyAt path dir (w.finalize env dir).2 := by
  obtain ⟨-, -, htable, honly⟩ := h.table
  rw [haccess, ← FileHandle.access_seek 0] at htable
  simp only [PackfileWriter.finalize, FileHandle.readBlocks_eq_readToEnd (n := 8192) (by decide),
    FileHandle.readToEnd_writeOnly htable]
  exact ⟨trivial, honly⟩

lemma overwrite_count (blake3 : Bytes → ContentHash) :
    overwrite (body 0 chunks ++ (blake3 (body 0 chunks)).asBytes) (PACKFILE_MAGIC.length + 4)
      (leBytes 8 chunks.length) = packed blake3 chunks := by
  have hbefore : body 0 chunks ++ (blake3 (body 0 chunks)).asBytes =
      (PACKFILE_MAGIC ++ leBytes 4 PACKFILE_VERSION) ++ leBytes 8 0 ++
        (dataOf chunks ++ tableOf (entriesOf PACKFILE_HEADER_SIZE chunks) ++
          (blake3 (body 0 chunks)).asBytes) := by
    simp [body, header]
  rw [hbefore, overwrite_middle (by simp) (by simp)]
  simp [packed, body, header]

/-- **The file that finalizing leaves** when it is open for reading too, and it is this file that is
opened then. -/
theorem Writing.lookup_finalize (h : Writing env path w dir chunks)
    (haccess : env.createAccess = .readWrite) :
    (w.finalize env dir).2.lookup path = some (packed env.blake3 chunks) ∧
      (w.finalize env dir).1 = PackfileReader.openFile env path (w.finalize env dir).2 ∧
      OnlyAt path dir (w.finalize env dir).2 := by
  obtain ⟨hend, hname, htable, honly⟩ := h.table
  rw [haccess] at htable
  have hread := hend.readToEnd htable
  rw [← FileHandle.readBlocks_eq_readToEnd (n := 8192) (by decide)] at hread
  have hend₁ := hend.writeAll (env.blake3 (body 0 chunks)).asBytes
  have hpatched := hend₁.lookup_writeAll_seek (PACKFILE_MAGIC.length + 4)
    (leBytes 8 chunks.length)
  rw [overwrite_count, FileHandle.name_writeAll, hname] at hpatched
  have hcount : w.entries.length = chunks.length := by rw [h.entries_eq, length_entriesOf]
  simp only [PackfileWriter.finalize, hread, h.path_eq, hcount]
  refine ⟨hpatched, trivial, fun name hne => ?_⟩
  rw [← honly name hne]
  exact (FileHandle.lookup_writeAll_of_ne (hname ▸ hne)).trans
    (FileHandle.lookup_writeAll_of_ne (hname ▸ hne))

/-- **Finalizing** a file that is open for reading too leaves the packfile and gives its reader. -/
theorem Writing.finalize_readWrite (h : Writing env path w dir chunks)
    (haccess : env.createAccess = .readWrite) (hfits : Fits chunks) :
    (w.finalize env dir).1 = .ok (readerOf path chunks) ∧
      (w.finalize env dir).2.lookup path = some (packed env.blake3 chunks) ∧
      OnlyAt path dir (w.finalize env dir).2 := by
  obtain ⟨hlookup, hopen, honly⟩ := h.lookup_finalize haccess
  exact ⟨hopen.trans (PackfileReader.openFile_packed hfits hlookup), hlookup, honly⟩

/-! ## The round trip -/

/-- **What is written to a packfile can be read from it**: creating a writer, adding the chunks and
finalizing succeed, and both readers open the file and give back every chunk. -/
def RoundTrip (env : PackEnv) (path : Text) (dir : Dir) (chunks : List PackChunk) : Prop :=
  ∃ w dir₁ reader dir₂,
    PackfileWriter.addChunks chunks (PackfileWriter.new env path dir).1
      (PackfileWriter.new env path dir).2 = (.ok (), w, dir₁) ∧
    w.finalize env dir₁ = (.ok reader, dir₂) ∧
    (∃ r, PackfileReader.openFile env path dir₂ = .ok r ∧
      ∀ chunk ∈ chunks, r.readChunk env chunk.1 dir₂ = .ok chunk.2) ∧
    ∃ r, MmapPackfileReader.openFile env path dir₂ = .ok r ∧
      ∀ chunk ∈ chunks, r.readChunk env chunk.1 = .ok chunk.2

/-- **Packfiles round trip** within the limits of the format if and only if the file of the writer
is open for reading too, which one that was just created is not.

**Proof sketch.** Adding the chunks leaves the header, their data and their entries. Finalizing
writes the table behind the data and reads the file for its hash, which a handle for writing only
refuses. Otherwise the footer is written and the count patched, and this is the packfile that both
readers read. -/
theorem roundTrip_iff (path : Text) (dir : Dir) (hfits : Fits chunks)
    (hhash : ∀ chunk ∈ chunks, env.blake3 chunk.2 = chunk.1)
    (hsame : ∀ chunk ∈ chunks, ∀ chunk' ∈ chunks, chunk'.1 = chunk.1 → chunk'.2 = chunk.2) :
    RoundTrip env path dir chunks ↔ env.createAccess = .readWrite := by
  obtain ⟨hnew, -⟩ := writing_new env path dir
  obtain ⟨w, dir₁, hadds, hwriting, -⟩ := hnew.addChunks chunks hfits.chunk_le
  rw [List.nil_append] at hwriting
  constructor
  · intro ⟨w', dir₁', reader, dir₂, hadds', hfinalize, _⟩
    obtain ⟨rfl, rfl⟩ : w' = w ∧ dir₁' = dir₁ := by simpa [hadds] using hadds'.symm
    cases haccess : env.createAccess with
    | readWrite => rfl
    | writeOnly =>
      obtain ⟨herror, -⟩ := hwriting.finalize_writeOnly haccess
      rw [hfinalize] at herror
      cases herror
  · intro haccess
    obtain ⟨hreader, hlookup, -⟩ := hwriting.finalize_readWrite haccess hfits
    refine ⟨w, dir₁, _, _, hadds, Prod.ext hreader rfl,
      ⟨_, PackfileReader.openFile_packed hfits hlookup, fun chunk hchunk => ?_⟩,
      ⟨_, MmapPackfileReader.openFile_packed hfits hlookup, fun chunk hchunk => ?_⟩⟩
    · exact PackfileReader.readChunk_packed hfits hlookup hchunk
        (fun data' hdata' => hsame chunk hchunk (chunk.1, data') hdata' rfl) (hhash chunk hchunk)
    · exact MmapPackfileReader.readChunk_packed hfits hchunk
        (fun data' hdata' => hsame chunk hchunk (chunk.1, data') hdata' rfl) (hhash chunk hchunk)

/-- Two chunks come back from a file that can be read. -/
theorem roundTrip_two :
    RoundTrip { PackEnv.std .blake3 true with createAccess := .readWrite } "test.pack".toList ∅
      [(.blake3 [1], [1]), (.blake3 [2], [2])] := by
  have hne : ContentHash.blake3 [1] ≠ .blake3 [2] := by decide +kernel
  exact (roundTrip_iff _ ∅ ⟨by decide, by decide⟩ (by simp [PackEnv.std])
    (by simp [hne, hne.symm])).mpr rfl

/-- **No packfile round trips**, whatever its chunks are, as its file is created for writing only.
-/
theorem not_roundTrip (blake3 : Bytes → ContentHash) (overflowChecks : Bool) (path : Text)
    (dir : Dir) (chunks : List PackChunk) :
    ¬ RoundTrip (.std blake3 overflowChecks) path dir chunks := by
  intro ⟨w, dir₁, reader, dir₂, hadds, hfinalize, _⟩
  obtain ⟨hnew, -⟩ := writing_new (.std blake3 overflowChecks) path dir
  have hle := le_of_addChunks (congrArg Prod.fst hadds)
  obtain ⟨w', dir₁', hadds', hwriting, -⟩ := hnew.addChunks chunks hle
  obtain ⟨rfl, rfl⟩ : w = w' ∧ dir₁ = dir₁' := by simpa [hadds] using hadds'
  obtain ⟨herror, -⟩ := hwriting.finalize_writeOnly rfl
  rw [hfinalize] at herror
  cases herror

/-- **Not even a single chunk** comes back. -/
theorem not_roundTrip_one :
    ¬ ∀ chunks : List PackChunk, Fits chunks →
      (∀ chunk ∈ chunks, ContentHash.blake3Sample chunk.2 = chunk.1) →
      RoundTrip (.std ContentHash.blake3Sample true) "test.pack".toList ∅ chunks := by
  intro hall
  have hfits : Fits [(ContentHash.blake3Sample [1], [1])] := ⟨by decide, by decide⟩
  obtain ⟨w, dir₁, reader, dir₂, hadds, hfinalize, -⟩ := hall _ hfits (by simp)
  have hdone : (PackfileWriter.addChunks [(ContentHash.blake3Sample [1], [1])]
      (PackfileWriter.new (.std ContentHash.blake3Sample true) "test.pack".toList ∅).1
      (PackfileWriter.new (.std ContentHash.blake3Sample true) "test.pack".toList ∅).2).2.1 = w :=
    congrArg (fun r => r.2.1) hadds
  subst hdone
  cases hfinalize

end Format

end Landropic.Cas
