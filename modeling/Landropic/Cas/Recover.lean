import Landropic.Cas.Storage
import Landropic.Foundations.FileNames

set_option autoImplicit false

/-!
# Recovery of interrupted writes

A walk over the object tree that looks for temporary files of atomic writes. One whose content
belongs at its final path is moved there; others are removed.

## Main definitions

* `Cas.IsTemp` — which files are temporary files.
* `Cas.RecoveryStats` — what a recovery did.
* `Cas.ContentStore.recoverTempFile` — the recovery of one temporary file.
* `Cas.ContentStore.recover` — the walk.

## Main results

* `Cas.extension_eq_tmp_iff` — the names with the extension `tmp`.

## Design

The walk keeps a stack of directories and the entries of the one it is reading. Its number of turns
is bounded by a number from outside: after that many the task waits forever.
-/

namespace Landropic.Cas

open FileName

/-- **The names with the extension `tmp`.** -/
theorem extension_eq_tmp_iff {name : Text} :
    extension '.' name = some "tmp".toList ↔ ∃ stem, stem ≠ [] ∧ name = stem ++ ".tmp".toList := by
  rw [extension_eq_some_iff]
  simp

/-- A path whose name has the extension `tmp`. -/
def IsTemp (p : FilePath) : Prop := p.head?.bind (extension '.') = some "tmp".toList

instance (p : FilePath) : Decidable (IsTemp p) := by unfold IsTemp; infer_instance

lemma isTemp_iff {p : FilePath} :
    IsTemp p ↔ ∃ stem dir, stem ≠ [] ∧ p = tempPath (stem :: dir) := by
  cases p with
  | nil => simp [IsTemp, tempPath]
  | cons name dir =>
    simp only [IsTemp, List.head?_cons, Option.bind_some, extension_eq_tmp_iff, tempPath,
      List.cons.injEq]
    constructor
    · rintro ⟨stem, hstem, hname⟩
      exact ⟨stem, dir, hstem, hname, rfl⟩
    · rintro ⟨stem, _, hstem, hname, -⟩
      exact ⟨stem, hstem, hname⟩

lemma isTemp_tempPath {stem : Text} (dir : FilePath) (h : stem ≠ []) :
    IsTemp (tempPath (stem :: dir)) := isTemp_iff.mpr ⟨stem, dir, h, rfl⟩

lemma tempPath_injective {p q : FilePath} (hp : p ≠ []) (h : tempPath p = tempPath q) : p = q := by
  cases p with
  | nil => exact absurd rfl hp
  | cons a dir =>
    cases q with
    | nil => simp [tempPath] at h
    | cons b dir' =>
      simp only [tempPath, List.cons.injEq] at h
      rw [List.append_cancel_right h.1, h.2]

@[simp] lemma length_tempPath (p : FilePath) : (tempPath p).length = p.length := by
  cases p <;> simp [tempPath]

lemma tempPath_ne {p : FilePath} (hp : p ≠ []) : tempPath p ≠ p := by
  cases p with
  | nil => exact absurd rfl hp
  | cons name dir => simp [tempPath]

/-- Statistics from recovery operations. -/
structure RecoveryStats where
  /-- Number of temporary files successfully recovered. -/
  recovered : ℕ
  /-- Number of corrupted temporary files cleaned up. -/
  cleaned : ℕ
  /-- Errors encountered during recovery. -/
  errors : List String
  deriving DecidableEq

/-- The text of a path in an error. -/
def debugPath (p : FilePath) : String :=
  debugText (p.reverse.flatMap fun name => '/' :: name)

namespace ContentStore

variable (store : ContentStore)

lemma not_isTemp_objectPath (hash : ContentHash) : ¬ IsTemp (store.objectPath hash) := by
  intro h
  obtain ⟨stem, dir, -, heq⟩ := isTemp_iff.mp h
  simp only [objectPath, tempPath, List.cons.injEq] at heq
  apply dot_notMem_name hash
  rw [heq.1]
  simp

/-- Move a temporary file whose content belongs at its final path there. -/
def completeRecovery (temp finalPath : FilePath) (stats : RecoveryStats) :
    Task CasError RecoveryStats := do
  match ← (disk (.rename temp finalPath) (Fs.rename temp finalPath)).attempt with
  | .ok () =>
    if store.shouldFsyncDirectory then
      let _ ← ((fsyncDirectory finalPath.tail).attempt : Task CasError (Except CasError Unit))
      pure { stats with recovered := stats.recovered + 1 }
    else pure { stats with recovered := stats.recovered + 1 }
  | .error _ =>
    let _ ← (disk (.removeFile temp) (Fs.removeFile temp)).attempt
    pure { stats with cleaned := stats.cleaned + 1 }

/-- Remove a temporary file that is of no use. -/
def cleanUp (temp : FilePath) (stats : RecoveryStats) : Task CasError RecoveryStats := do
  let _ ← (disk (.removeFile temp) (Fs.removeFile temp)).attempt
  pure { stats with cleaned := stats.cleaned + 1 }

/-- Attempt to recover a single temporary file. -/
def recoverTempFile (temp : FilePath) (stats : RecoveryStats) : Task CasError RecoveryStats :=
  match temp with
  | [] => .fail (.storagePath "Invalid temp filename")
  | name :: dir =>
    if ¬ ".tmp".toList <:+ name then .fail (.storagePath "Temp file doesn't end with .tmp")
    else do
      let finalPath := name.take (name.length - 4) :: dir
      if ← pathExists finalPath then
        match ← (disk (.removeFile (name :: dir)) (Fs.removeFile (name :: dir))).attempt with
        | .ok () => pure { stats with cleaned := stats.cleaned + 1 }
        | .error _ => pure stats
      else
        match ← (look (.read (name :: dir)) fun fs => fs.readFile (name :: dir)).attempt with
        | .error _ => cleanUp (name :: dir) stats
        | .ok data =>
          if store.objectPath (store.blake3 data) = finalPath then
            store.completeRecovery (name :: dir) finalPath stats
          else cleanUp (name :: dir) stats

/-- Whether a directory entry is a directory; where this cannot be told it is not. -/
def isDirEntry (p : FilePath) : Task CasError Bool :=
  .atom (.fileType p) fun i s => (.ok (decide (i ≠ .fail) && s.fs.isDir p), s)

/-- Recover a directory entry that has the extension of a temporary file. -/
def recoverEntry (entry : FilePath) (stats : RecoveryStats) : Task CasError RecoveryStats := do
  match ← (store.recoverTempFile entry stats).attempt with
  | .ok stats => pure stats
  | .error e => pure { stats with
      errors := stats.errors ++ [s!"Recovery error for {debugPath entry}: {e.display}"] }

/-- Walk through the directories on the stack and the entries left of the one being read. -/
def recoverWalk (order : IterOrder FilePath) :
    ℕ → List FilePath → List FilePath → RecoveryStats → Task CasError RecoveryStats
  | 0, _, _, stats => .act .nextEntry (fun _ => false) (fun _ s => s) fun _ _ => .ret (.ok stats)
  | _ + 1, [], [], stats => pure stats
  | fuel + 1, dir :: stack, [], stats => do
    match ← (look (.readDir dir) fun fs => fs.readDir order dir).attempt with
    | .ok entries => recoverWalk order fuel stack entries stats
    | .error e => recoverWalk order fuel stack [] { stats with
        errors := stats.errors ++ [s!"Failed to read directory {debugPath dir}: {e.display}"] }
  | fuel + 1, stack, entry :: entries, stats => do
    match ← (look .nextEntry fun _ => .ok ()).attempt with
    | .error e => recoverWalk order fuel stack (entry :: entries) { stats with
        errors := stats.errors ++ [s!"Failed to read directory entry: {e.display}"] }
    | .ok () =>
      if ← isDirEntry entry then recoverWalk order fuel (entry :: stack) entries stats
      else if (entry.head?.bind (extension '.')) = some "tmp".toList then
        let stats ← store.recoverEntry entry stats
        recoverWalk order fuel stack entries stats
      else recoverWalk order fuel stack entries stats

/-- Recover from incomplete write operations. -/
def recover (order : IterOrder FilePath) (fuel : ℕ) : Task CasError RecoveryStats := do
  if ← pathExists store.objectsDir then
    store.recoverWalk order fuel [store.objectsDir] [] ⟨0, 0, []⟩
  else pure ⟨0, 0, []⟩

/-- Prepare the disk for a store that is opened: ensure its directories exist, and recover. -/
def prepare (order : IterOrder FilePath) (fuel : ℕ) : Task CasError Unit := do
  (disk (.createDirAll store.rootPath) (Fs.createDirAll store.rootPath)).mapErr .io
  (disk (.createDirAll store.objectsDir) (Fs.createDirAll store.objectsDir)).mapErr .io
  if store.config.enableRecovery then
    let _ ← store.recover order fuel
    pure ()
  else pure ()

end ContentStore

end Landropic.Cas
