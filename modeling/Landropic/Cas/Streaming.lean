import Landropic.Cas.Storage

set_option autoImplicit false

/-!
# Streamed and resumable writes

Data that comes from a reader goes through a write buffer to a file beside the object tree, and is
moved to its place when it is complete. A resumable write spreads over several calls, and the
caller keeps the record of how far it has come.

## Main definitions

* `Cas.Reader` — what a reader yields.
* `Cas.ContentStore.writeStream` — the streamed write.
* `Cas.PartialTransfer` — the record of a resumable write.
* `Cas.ContentStore.startResumableWrite`, `Cas.ContentStore.continueResumableWrite`,
  `Cas.ContentStore.completeResumableWrite` — its calls.
-/

namespace Landropic.Cas

/-- What a reader yields: blocks that fit the 64 KiB read buffer, then the end or an error. -/
structure Reader where
  blocks : List Bytes
  /-- The error the reader ends with. -/
  error : Option IoError
  ne_nil : ∀ block ∈ blocks, block ≠ []
  length_le : ∀ block ∈ blocks, block.length ≤ 64 * 1024

/-- All the bytes a reader yields. -/
def Reader.bytes (reader : Reader) : Bytes := reader.blocks.flatten

/-- The name of a UUID: the 32 digits of its 16 bytes with hyphens. -/
def uuidText (n : ℕ) : Text :=
  let hex := Hex.encode (leBytes 16 n)
  hex.take 8 ++ '-' :: (hex.drop 8).take 4 ++ '-' :: (hex.drop 12).take 4 ++
    '-' :: (hex.drop 16).take 4 ++ '-' :: hex.drop 20

/-- Partial transfer state for resumable operations. -/
structure PartialTransfer where
  /-- Temporary file path. -/
  tempPath : FilePath
  /-- Expected hash if known. -/
  expectedHash : Option ContentHash
  /-- Expected total size if known. -/
  totalSize : Option ℕ
  /-- Bytes already received. -/
  bytesReceived : ℕ
  /-- Serialized hash state for resumption. -/
  hashState : Option String
  /-- When this partial transfer expires, in milliseconds. -/
  expiresAt : ℕ
  deriving DecidableEq

/-- Create a new partial transfer, which expires in 24 hours. -/
def PartialTransfer.new (tempPath : FilePath) (expectedHash : Option ContentHash)
    (totalSize : Option ℕ) (now : ℕ) : PartialTransfer where
  tempPath := tempPath
  expectedHash := expectedHash
  totalSize := totalSize
  bytesReceived := 0
  hashState := none
  expiresAt := now + 24 * 3600 * 1000

namespace ContentStore

variable (store : ContentStore)

/-- Ensure the directory of the streamed writes exists. -/
def createTempDir : Task CasError Unit :=
  (disk (.createDirAll store.tempDir) (Fs.createDirAll store.tempDir)).mapErr .io

/-- Write blocks through a buffer to an open file: what is left is where to write on, and what is
still in the buffer. -/
def copyBlocks (p : FilePath) (ino : ℕ) :
    Option ℕ → Bytes → List Bytes → Task IoError (Option ℕ × Bytes)
  | pos, buf, [] => pure (pos, buf)
  | pos, buf, block :: rest => do
    let out := (store.bufWriter.write buf block).1
    writeAll p ino pos out
    copyBlocks p ino (pos.map (· + out.length)) (store.bufWriter.write buf block).2 rest

/-- Stream what a reader yields to an open file. When the reader fails the buffer is dropped. -/
def streamFrom (reader : Reader) (p : FilePath) (ino : ℕ) (pos : Option ℕ) :
    Task CasError Unit := do
  let (pos, buf) ← (store.copyBlocks p ino pos [] reader.blocks).mapErr .io
  match reader.error with
  | some e => .fail (.io e)
  | none => (writeAll p ino pos buf).mapErr .io

/-- Move a complete file to where its object belongs, or remove it if the object exists. -/
def moveIntoPlace (temp : FilePath) (hash : ContentHash) (size : ℕ) : Task CasError ObjectRef := do
  if ← pathExists (store.objectPath hash) then
    (disk (.removeFile temp) (Fs.removeFile temp)).mapErr .io
    dedupInsert ⟨hash, size⟩
    pure ⟨hash, size⟩
  else
    store.createShardDir hash
    (disk (.rename temp (store.objectPath hash))
      (Fs.rename temp (store.objectPath hash))).mapErr .io
    dedupInsert ⟨hash, size⟩
    pure ⟨hash, size⟩

/-- Clean up a file, if this succeeds, and fail. -/
def discard {α : Type} (temp : FilePath) (e : CasError) : Task CasError α := do
  let _ ← (disk (.removeFile temp) (Fs.removeFile temp)).attempt
  .fail e

/-- Verify a computed hash if one is expected; the file is discarded where it differs. -/
def verifyHash (temp : FilePath) (expectedHash : Option ContentHash) (computedHash : ContentHash) :
    Task CasError Unit :=
  match expectedHash with
  | some expected =>
    if computedHash ≠ expected then discard temp (.hashMismatch expected computedHash) else pure ()
  | none => pure ()

/-- Fsync a streamed file based on policy. -/
def fsyncStream (temp : FilePath) : Task CasError Unit :=
  match store.config.fsyncPolicy with
  | .always => (look (.sync temp) fun _ => .ok ()).mapErr .io
  | _ => pure ()

/-- Stream write operation that doesn't load full chunk into memory. -/
def writeStream (reader : Reader) (expectedHash : Option ContentHash) :
    Task CasError ObjectRef := do
  let id ← ask .uuid
  let temp := (uuidText id ++ ".tmp".toList) :: store.tempDir
  store.createTempDir
  let ino ← (disk (.create temp) (Fs.create temp)).mapErr .io
  store.streamFrom reader temp ino (some 0)
  store.fsyncStream temp
  verifyHash temp expectedHash (store.blake3 reader.bytes)
  store.moveIntoPlace temp (store.blake3 reader.bytes) reader.bytes.length

/-- Start a resumable write operation that can be interrupted and resumed later. -/
def startResumableWrite (expectedHash : Option ContentHash) (totalSize : Option ℕ) :
    Task CasError PartialTransfer := do
  let id ← ask .uuid
  store.createTempDir
  let now ← ask .clock
  pure (.new ((uuidText id ++ ".partial".toList) :: store.tempDir) expectedHash totalSize now)

/-- Open the file of a transfer: a new or emptied one at the start of the transfer, and the existing
one, for appending, after that. -/
def openPartial (transfer : PartialTransfer) : Task CasError (ℕ × Option ℕ) := do
  if transfer.bytesReceived = 0 then
    let ino ← (disk (.create transfer.tempPath) (Fs.create transfer.tempPath)).mapErr .io
    pure (ino, some 0)
  else
    let ino ← (look (.openAppend transfer.tempPath) fun fs =>
      fs.openFile transfer.tempPath).mapErr .io
    pure (ino, none)

/-- Read the existing file of a transfer to restore the state of the hasher, which nothing uses. -/
def restoreHasher (transfer : PartialTransfer) : Task CasError Unit :=
  if transfer.hashState.isSome ∧ transfer.bytesReceived > 0 then do
    let _ ← (look (.read transfer.tempPath) fun fs => fs.readFile transfer.tempPath).mapErr .io
    pure ()
  else pure ()

/-- Continue writing to a partial transfer from a reader: the transfer as it is after a success. -/
def continueResumableWrite (transfer : PartialTransfer) (reader : Reader) :
    Task CasError PartialTransfer := do
  let now ← ask .clock
  if now > transfer.expiresAt then .fail (.invalidOperation "Partial transfer has expired")
  else
    let (ino, pos) ← openPartial transfer
    restoreHasher transfer
    store.streamFrom reader transfer.tempPath ino pos
    pure { transfer with
      bytesReceived := transfer.bytesReceived + reader.bytes.length
      hashState := some "state_placeholder" }

/-- Verify the size of the complete file of a transfer if one is expected. -/
def verifySize (temp : FilePath) (totalSize : Option ℕ) (size : ℕ) : Task CasError Unit :=
  match totalSize with
  | some expectedSize =>
    if size ≠ expectedSize then
      discard temp (.invalidOperation s!"Size mismatch: expected {expectedSize}, got {size}")
    else pure ()
  | none => pure ()

/-- Complete a resumable write operation, moving the temp file to final location. -/
def completeResumableWrite (transfer : PartialTransfer) : Task CasError ObjectRef := do
  let now ← ask .clock
  if now > transfer.expiresAt then
    discard transfer.tempPath (.invalidOperation "Partial transfer has expired")
  else if ← pathExists transfer.tempPath then
    let data ← (look (.read transfer.tempPath) fun fs => fs.readFile transfer.tempPath).mapErr .io
    verifyHash transfer.tempPath transfer.expectedHash (store.blake3 data)
    verifySize transfer.tempPath transfer.totalSize data.length
    store.moveIntoPlace transfer.tempPath (store.blake3 data) data.length
  else .fail (.invalidOperation "Partial transfer file not found")

end ContentStore

end Landropic.Cas
