import Landropic.Foundations.Fs
import Landropic.Foundations.Proc
import Landropic.Foundations.RecordLog
import Landropic.Index.Manifest

set_option autoImplicit false

/-!
# The recovery log

A sync operation that may be cut off is recorded in a log, one operation a line, and taken up again
after a crash. Saving an operation writes the whole log to a temporary file and renames it; removing
one writes the log in place. The operations at work are also kept in memory, behind a lock.

## Main definitions

* `Operation` — the record of an operation.
* `RecoveryState` — the memory of a manager and its two files.
* `RecoveryManager` — a manager, given the JSON form of its records.
* `RecoveryManager.startOperation`, `checkpointOperation`, `completeOperation`, `failOperation`,
  `recoverOnStartup` — its calls, as processes.
* `RecoveryManager.logged` — the record of an operation in the log.

## Main results

* `RecoveryManager.records_savedContent`, `RecoveryManager.records_keptContent` — what the two ways
  of writing the log do to its records.
* `RecoveryManager.mem_loadedLog` — an incomplete operation that the log records is loaded.
-/

namespace Landropic

/-- Whole hours from one point in time to another, rounded towards zero. -/
def DateTime.numHoursSince (later earlier : DateTime) : ℤ :=
  let nanos := (later.timestamp - earlier.timestamp) * 1000000000 + (later.nanos - earlier.nanos)
  (nanos.tdiv 1000000000).tdiv 3600

/-- Types of operations that can be recovered. -/
inductive OperationType
  /-- File transfer operation. -/
  | transfer (peerId filePath chunkHash : Text) (totalSize bytesTransferred : UInt64)
  /-- Manifest synchronization. -/
  | manifestSync (peerId folderId localManifestHash remoteManifestHash : Text)
  /-- Index update operation. -/
  | indexUpdate (folderPath : Text) (filesProcessed totalFiles : ℕ)
  deriving DecidableEq, Countable

/-- Status of an operation. -/
inductive OperationStatus
  /-- Operation is currently running. -/
  | inProgress
  /-- Operation completed successfully. -/
  | completed
  /-- Operation failed and needs retry. -/
  | failed
  /-- Operation was interrupted. -/
  | interrupted
  /-- Operation is being recovered. -/
  | recovering
  deriving DecidableEq, Countable

/-- Recoverable operation record. -/
structure Operation where
  id : Text
  operationType : OperationType
  startedAt : DateTime
  lastCheckpoint : DateTime
  status : OperationStatus
  retryCount : UInt32
  errorMessage : Option Text
  deriving DecidableEq, Countable

/-- An operation that recovery takes up. -/
def Operation.isIncomplete (op : Operation) : Bool :=
  op.status = .inProgress ∨ op.status = .interrupted

/-- Recovery statistics. -/
structure RecoveryStats where
  operationsRecovered : ℕ
  operationsCompleted : ℕ
  operationsFailed : ℕ
  operationsAbandoned : ℕ
  deriving DecidableEq

/-- Why a call failed. -/
inductive RecoveryError
  | io (e : IoError)
  /-- What was read is not valid UTF-8. -/
  | invalidData
  | database (e : Text)
  deriving DecidableEq

/-- The text of an error that the recovery of an operation may end with. -/
def RecoveryError.display : RecoveryError → Text
  | io e => "IO error: ".toList ++ e.display.toList
  | invalidData => "IO error: stream did not contain valid UTF-8".toList
  | database e => "Database error: ".toList ++ e

/-- The memory of a manager, and its files. -/
structure RecoveryState where
  /-- The operations at work. -/
  active : HashMap Text Operation
  /-- Whether a call holds the lock on them. -/
  locked : Bool
  /-- The recovery log. -/
  log : Option Bytes
  /-- The temporary file beside it. -/
  tmp : Option Bytes

/-- What an action of a manager is about to do. -/
inductive RecoveryOp
  /-- Add to the operations at work, under the lock. -/
  | insertActive
  | acquire
  | release
  /-- Read or change the operations at work, the lock being held. -/
  | access
  | clock
  | addPendingTransfer (peerId folderId filePath chunkHash : Text) (priority : ℤ)
  | readLog
  | writeTmp (content : Bytes)
  | renameTmp
  | writeLog (content : Bytes)
  deriving DecidableEq

/-- How an action turns out. -/
structure RecoveryInput where
  now : DateTime
  databaseError : Option Text

/-- What a manager does. -/
abbrev RecoveryTask (α : Type) := Proc RecoveryState RecoveryInput RecoveryOp RecoveryError α

/-- Recovery manager; its records are written as JSON. -/
structure RecoveryManager where
  json : LineCodec Operation

namespace RecoveryManager

open Proc

variable (manager : RecoveryManager)

/-! ## The log -/

/-- The text of the log, empty if it is absent or cannot be read. -/
def existingContent (log : Option Bytes) : Text := (log.bind Text.fromUtf8).getD []

/-- The log after an operation has been saved: its record replaces the first one with its id, or
comes last. -/
def savedContent (op : Operation) (existing : Text) : Text :=
  Text.joinLines (manager.json.put Operation.id op existing.lines)

/-- Save operation to recovery log. -/
def saveOperation (op : Operation) : RecoveryTask Unit := do
  let existing ← atom .readLog fun _ s => (.ok (existingContent s.log), s)
  let content := (manager.savedContent op existing).utf8
  atom (.writeTmp content) fun _ s => (.ok (), { s with tmp := some content })
  atom .renameTmp fun _ s =>
    match s.tmp with
    | some content => (.ok (), { s with log := some content, tmp := none })
    | none => (.error (.io .notFound), s)

/-- The operations that a log has recovery take up. -/
def loadedLog (log : Option Bytes) : Except RecoveryError (List Operation) :=
  match log with
  | none => .ok []
  | some bytes =>
    match Text.fromUtf8 bytes with
    | none => .error .invalidData
    | some content => .ok <| content.lines.filterMap fun line =>
      if line.isBlank then none
      else (manager.json.fromText line).bind fun op => if op.isIncomplete then some op else none

/-- Load operations from recovery log. -/
def loadRecoveryLog : RecoveryTask (List Operation) :=
  atom .readLog fun _ s => (manager.loadedLog s.log, s)

/-- The log without the records of an operation. -/
def keptContent (id : Text) (content : Text) : Text :=
  Text.joinLines (manager.json.drop Operation.id id content.lines)

/-- Remove operation from recovery log. -/
def removeOperation (id : Text) : RecoveryTask Unit := do
  let existing ← atom .readLog fun _ s =>
    match s.log with
    | none => (.ok none, s)
    | some bytes =>
      match Text.fromUtf8 bytes with
      | none => (.error .invalidData, s)
      | some content => (.ok (some content), s)
  match existing with
  | none => pure ()
  | some content =>
    let content := (manager.keptContent id content).utf8
    atom (.writeLog content) fun _ s => (.ok (), { s with log := some content })

/-! ## The calls -/

/-- Hold the lock on the operations at work while a process runs. -/
def whileLocked {α : Type} (body : RecoveryTask α) : RecoveryTask α := do
  act .acquire (fun s => !s.locked) (fun _ s => { s with locked := true }) fun _ _ => ret (.ok ())
  let r ← body.attempt
  atom .release fun _ s => (.ok (), { s with locked := false })
  ofExcept r

/-- Start tracking a new operation. -/
def startOperation (op : Operation) : RecoveryTask Unit := do
  act .insertActive (fun s => !s.locked) (fun _ s => { s with active := s.active.insert op.id op })
    fun _ _ => ret (.ok ())
  manager.saveOperation op

/-- Update operation progress. -/
def checkpointOperation (id : Text) (update : Operation → Operation) : RecoveryTask Unit :=
  whileLocked do
    let found ← atom .access fun i s =>
      match s.active.lookup id with
      | some op =>
        let op := { update op with lastCheckpoint := i.now }
        (.ok (some op), { s with active := s.active.insert id op })
      | none => (.ok none, s)
    match found with
    | some op => manager.saveOperation op
    | none => pure ()

/-- Complete an operation successfully. -/
def completeOperation (id : Text) : RecoveryTask Unit :=
  whileLocked do
    let removed ← atom .access fun i s =>
      match s.active.lookup id with
      | some op =>
        (.ok (some { op with status := .completed, lastCheckpoint := i.now }),
          { s with active := s.active.erase id })
      | none => (.ok none, s)
    match removed with
    | some op =>
      manager.saveOperation op
      -- An operation that cannot be removed is warned about.
      let _ ← (manager.removeOperation id).attempt
      pure ()
    | none => pure ()

/-- Mark operation as failed. -/
def failOperation (id error : Text) : RecoveryTask Unit :=
  whileLocked do
    let found ← atom .access fun i s =>
      match s.active.lookup id with
      | some op =>
        let op := { op with
          status := .failed
          errorMessage := some error
          retryCount := op.retryCount + 1
          lastCheckpoint := i.now }
        (.ok (some op), { s with active := s.active.insert id op })
      | none => (.ok none, s)
    match found with
    | some op =>
      manager.saveOperation op
      if 3 ≤ op.retryCount then
        atom .access fun _ s => (.ok (), { s with active := s.active.erase id })
      else pure ()
    | none => pure ()

/-- Recover a specific operation based on its type: whether nothing is left to do. -/
def recoverOperation (op : Operation) : RecoveryTask Bool :=
  match op.operationType with
  | .transfer peerId filePath chunkHash totalSize bytesTransferred =>
    if totalSize ≤ bytesTransferred then pure true
    else do
      atom (.addPendingTransfer peerId "default".toList filePath chunkHash 0) fun i s =>
        match i.databaseError with
        | some e => (.error (.database e), s)
        | none => (.ok (), s)
      pure false
  | .manifestSync _ _ localManifestHash remoteManifestHash =>
    pure (decide (localManifestHash = remoteManifestHash))
  | .indexUpdate _ filesProcessed totalFiles => pure (decide (totalFiles ≤ filesProcessed))

/-- The record of an operation after its recovery. -/
def recovered (op : Operation) : Except RecoveryError Bool → Operation
  | .ok true => { op with status := .completed }
  | .ok false => { op with status := .inProgress }
  | .error e =>
    { op with
      status := if 3 ≤ op.retryCount + 1 then .failed else .inProgress
      retryCount := op.retryCount + 1
      errorMessage := some e.display }

/-- The statistics after the recovery of an operation. -/
def countRecovered (stats : RecoveryStats) (op : Operation) :
    Except RecoveryError Bool → RecoveryStats
  | .ok true => { stats with operationsCompleted := stats.operationsCompleted + 1 }
  | .ok false => stats
  | .error _ =>
    if 3 ≤ op.retryCount + 1 then { stats with operationsFailed := stats.operationsFailed + 1 }
    else stats

/-- Process one operation of the log. -/
def processOperation (stats : RecoveryStats) (op : Operation) : RecoveryTask RecoveryStats := do
  let stats := { stats with operationsRecovered := stats.operationsRecovered + 1 }
  let now ← atom .clock fun i s => (.ok i.now, s)
  if 24 < now.numHoursSince op.startedAt then
    pure { stats with operationsAbandoned := stats.operationsAbandoned + 1 }
  else do
    manager.saveOperation { op with status := .recovering }
    let outcome ← (recoverOperation op).attempt
    manager.saveOperation (recovered op outcome)
    pure (countRecovered stats op outcome)

/-- Start recovery process on system startup. -/
def recoverOnStartup : RecoveryTask RecoveryStats := do
  let operations ← manager.loadRecoveryLog
  operations.foldlM manager.processOperation ⟨0, 0, 0, 0⟩

/-! ## The records of the log -/

/-- The operations that the log records. -/
def records (log : Option Bytes) : List Operation :=
  manager.json.records (existingContent log).lines

/-- The record of an operation, the first one with its id. -/
def logged (log : Option Bytes) (id : Text) : Option Operation :=
  RecordLog.find Operation.id (manager.records log) id

@[simp] lemma existingContent_utf8 (text : Text) : existingContent (some text.utf8) = text := by
  simp [existingContent]

lemma lines_existingContent (log : Option Bytes) :
    ∀ line ∈ (existingContent log).lines, '\n' ∉ line :=
  fun _ => Text.newline_notMem_of_mem_lines

/-- **Saving an operation** puts its record into the log. -/
theorem records_savedContent (op : Operation) (log : Option Bytes) :
    manager.records (some (manager.savedContent op (existingContent log)).utf8) =
      RecordLog.upsert Operation.id op (manager.records log) := by
  unfold records savedContent
  rw [existingContent_utf8, LineCodec.records_lines_joinLines, LineCodec.records_put]
  exact LineCodec.newline_notMem_put (lines_existingContent log)

/-- **Removing an operation** drops its records. -/
theorem records_keptContent (id : Text) (log : Option Bytes) :
    manager.records (some (manager.keptContent id (existingContent log)).utf8) =
      (manager.records log).filter fun op => op.id ≠ id := by
  unfold records keptContent
  rw [existingContent_utf8, LineCodec.records_lines_joinLines, LineCodec.records_drop]
  exact LineCodec.newline_notMem_drop (lines_existingContent log)

lemma logged_savedContent (op : Operation) (log : Option Bytes) (id : Text) :
    manager.logged (some (manager.savedContent op (existingContent log)).utf8) id =
      if id = op.id then some op else manager.logged log id := by
  rw [logged, records_savedContent, RecordLog.find_upsert]
  rfl

lemma logged_keptContent (id : Text) (log : Option Bytes) (id' : Text) :
    manager.logged (some (manager.keptContent id (existingContent log)).utf8) id' =
      if id' = id then none else manager.logged log id' := by
  rw [logged, records_keptContent, RecordLog.find_filter]
  rfl

variable {manager} {log : Option Bytes} {op : Operation} {id : Text}

lemma exists_of_logged (h : manager.logged log id = some op) :
    ∃ bytes content, log = some bytes ∧ Text.fromUtf8 bytes = some content := by
  have hmem := RecordLog.mem_of_find h
  cases log with
  | none => simp [records, existingContent, Text.lines] at hmem
  | some bytes =>
    cases hcontent : Text.fromUtf8 bytes with
    | none => simp [records, existingContent, hcontent, Text.lines] at hmem
    | some content => exact ⟨bytes, content, rfl, hcontent⟩

/-- **An incomplete operation that the log records is loaded.** -/
theorem mem_loadedLog (h : manager.logged log id = some op) (hstatus : op.isIncomplete = true) :
    ∃ operations, manager.loadedLog log = .ok operations ∧ op ∈ operations := by
  obtain ⟨bytes, content, rfl, hcontent⟩ := exists_of_logged h
  have hmem := RecordLog.mem_of_find h
  have hexisting : existingContent (some bytes) = content := by simp [existingContent, hcontent]
  rw [records, hexisting, LineCodec.records, List.mem_filterMap] at hmem
  obtain ⟨line, hline, hop⟩ := hmem
  have hblank : line.isBlank = false := by
    cases hb : Text.isBlank line with
    | false => rfl
    | true =>
      rw [manager.json.fromText_of_isBlank line hb] at hop
      cases hop
  simp only [loadedLog, hcontent, Except.ok.injEq, exists_eq_left', List.mem_filterMap]
  exact ⟨line, hline, by simp [hblank, hop, hstatus]⟩

lemma isIncomplete_of_mem_loadedLog {operations : List Operation}
    (h : manager.loadedLog log = .ok operations) (hmem : op ∈ operations) :
    op.isIncomplete = true ∧ op ∈ manager.records log := by
  unfold loadedLog at h
  split at h
  · obtain rfl := Except.ok.inj h
    cases hmem
  · next bytes =>
    split at h
    · cases h
    · next content hcontent =>
      obtain rfl := Except.ok.inj h
      obtain ⟨line, hline, hop⟩ := List.mem_filterMap.mp hmem
      rw [Option.ite_none_left_eq_some, Option.bind_eq_some_iff] at hop
      obtain ⟨-, op', hop', hstatus⟩ := hop
      rw [Option.ite_none_right_eq_some] at hstatus
      obtain ⟨hstatus, heq⟩ := hstatus
      obtain rfl := Option.some.inj heq
      refine ⟨hstatus, ?_⟩
      simp only [records, existingContent, hcontent, Option.bind_some, Option.getD_some]
      exact List.mem_filterMap.mpr ⟨line, hline, hop'⟩

end RecoveryManager

end Landropic
