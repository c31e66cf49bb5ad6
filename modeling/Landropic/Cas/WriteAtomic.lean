import Landropic.Cas.Store
import Landropic.Foundations.Proc

set_option autoImplicit false

/-!
# Tasks of a content store, and its atomic write

The tasks of a store are processes on its state. Each file operation, and each use of a lock, is one
action; a write transfers its bytes one after the other, so that other tasks and crashes see every
prefix.

## Main definitions

* `Cas.Io` — the inputs of actions: whether they fail, and numbers from outside.
* `Cas.Op` — the labels of actions: which operation they are, on which paths.
* `Cas.Task` — the tasks of a store.
* `Cas.disk`, `Cas.modify`, `Cas.pathExists` — single actions.
* `Cas.tempPath` — the temporary file of an atomic write.
* `Cas.ContentStore.writeAtomic` — the atomic write.
-/

namespace Landropic.Cas

/-- What the environment decides about an action. -/
inductive Io
  /-- The action is carried out; the number is what it asks the outside for, if it does. -/
  | ok (n : ℕ)
  /-- The device fails, and the action has no effect. -/
  | fail
  deriving DecidableEq

/-- What an action is about to do. -/
inductive Op
  | createDirAll (p : FilePath)
  /-- Create or truncate a file. -/
  | create (p : FilePath)
  /-- Open a file to append to it. -/
  | openAppend (p : FilePath)
  /-- Write to the file that was opened at a path. -/
  | write (p : FilePath)
  /-- Sync the file that was opened at a path. -/
  | sync (p : FilePath)
  | rename (p q : FilePath)
  | removeFile (p : FilePath)
  | pathExists (p : FilePath)
  | metadata (p : FilePath)
  | read (p : FilePath)
  | readDir (p : FilePath)
  | nextEntry
  | fileType (p : FilePath)
  | syncDir (p : FilePath)
  | cache
  /-- Put data into the cache under a hash. -/
  | cachePut (hash : ContentHash) (data : Bytes)
  | dedupIndex
  | packs
  | batchWriter
  | clock
  | uuid
  | pendingSyncs
  /-- Wait for a permit to run a batched write. -/
  | acquire
  /-- Give a batched write to the runtime. -/
  | spawn
  /-- Wait for a batched write. -/
  | await (job : ℕ)
  /-- End a batched write. -/
  | finish (job : ℕ)
  deriving DecidableEq

/-- The tasks of a store. -/
abbrev Task (ε α : Type) := Proc StoreState Io Op ε α

section Actions

variable {ε α : Type}

/-- An operation of the disk. -/
def disk (op : Op) (f : Fs → Except IoError α × Fs) : Task IoError α :=
  .atom op fun i s =>
    match i with
    | .fail => (.error .fault, s)
    | .ok _ => ((f s.fs).1, { s with fs := (f s.fs).2 })

/-- An operation of the disk that changes nothing. -/
def look (op : Op) (f : Fs → Except IoError α) : Task IoError α := disk op fun fs => (f fs, fs)

/-- An action in memory. -/
def modify (op : Op) (f : StoreState → α × StoreState) : Task ε α :=
  .atom op fun _ s => (.ok (f s).1, (f s).2)

/-- A question to the outside that is answered with a number. -/
def ask (op : Op) : Task ε ℕ :=
  .atom op fun i s => (.ok (match i with | .ok n => n | .fail => 0), s)

/-- Whether a path exists; where this cannot be told it does not. -/
def pathExists (p : FilePath) : Task ε Bool :=
  .atom (.pathExists p) fun i s => (.ok (decide (i ≠ .fail) && s.fs.pathExists p), s)

/-- Write bytes to a file that was opened at a path, from a position on, or at its end where it was
opened for appending. -/
def writeAll (p : FilePath) (ino : ℕ) : Option ℕ → Bytes → Task IoError Unit
  | _, [] => pure ()
  | pos, b :: rest => do
    disk (.write p) fun fs => (.ok (), match pos with
      | some n => fs.write ino n [b]
      | none => fs.append ino [b])
    writeAll p ino (pos.map (· + 1)) rest

end Actions

/-- The temporary file for a path: the name with the extension `.tmp`, in the same directory. -/
def tempPath : FilePath → FilePath
  | [] => []
  | name :: dir => (name ++ ".tmp".toList) :: dir

namespace ContentStore

variable (store : ContentStore)

/-- Fsync a directory to ensure metadata changes are durable. -/
def fsyncDirectory (dir : FilePath) : Task CasError Unit :=
  (look (.syncDir dir) fun _ => .ok ()).mapErr .io

/-- Count a write towards the next batch of syncs. -/
def countPendingSync : Task CasError Unit :=
  match store.config.fsyncPolicy with
  | .batch batchSize => do
    let pending ← modify .pendingSyncs fun s =>
      (s.pendingSyncs + 1, { s with pendingSyncs := s.pendingSyncs + 1 })
    if pending ≥ batchSize then
      modify .pendingSyncs fun s => ((), { s with pendingSyncs := 0 })
    else pure ()
  | _ => pure ()

/-- Create the temporary file. -/
def createTemp (temp : FilePath) : Task CasError ℕ :=
  (disk (.create temp) (Fs.create temp)).mapErr fun e =>
    .atomicWriteFailed s!"Failed to create temp file: {e.display}"

/-- Write data to the temporary file. -/
def writeTemp (temp : FilePath) (ino : ℕ) (data : Bytes) : Task CasError Unit :=
  (writeAll temp ino (some 0) data).mapErr fun e =>
    .atomicWriteFailed s!"Failed to write data: {e.display}"

/-- Fsync the temporary file based on policy. -/
def fsyncTemp (temp : FilePath) : Task CasError Unit :=
  if store.shouldFsyncFile then
    (look (.sync temp) fun _ => .ok ()).mapErr fun e =>
      .atomicWriteFailed s!"Failed to sync temp file: {e.display}"
  else pure ()

/-- Rename the temporary file to its final location; it is cleaned up if that fails. -/
def renameTemp (temp finalPath : FilePath) : Task CasError Unit := do
  match ← (disk (.rename temp finalPath) (Fs.rename temp finalPath)).attempt with
  | .error e =>
    let _ ← (disk (.removeFile temp) (Fs.removeFile temp)).attempt
    .fail (.atomicWriteFailed s!"Failed to rename temp file: {e.display}")
  | .ok () => pure ()

/-- Fsync the parent directory based on policy. -/
def fsyncParent (dir : FilePath) : Task CasError Unit :=
  if store.shouldFsyncDirectory then
    (fsyncDirectory dir).mapErr fun e =>
      .atomicWriteFailed s!"Failed to sync directory: {e.display}"
  else pure ()

/-- Perform atomic write operation with configurable fsync behavior: write a temporary file, fsync
it, rename it to its final location and fsync the directory. -/
def writeAtomic (finalPath : FilePath) (data : Bytes) : Task CasError Unit :=
  match finalPath with
  | [] => .fail (.storagePath "Invalid object path")
  | name :: tempDir => do
    let temp := tempPath (name :: tempDir)
    let ino ← createTemp temp
    writeTemp temp ino data
    store.fsyncTemp temp
    renameTemp temp (name :: tempDir)
    store.fsyncParent tempDir
    store.countPendingSync

end ContentStore

end Landropic.Cas
