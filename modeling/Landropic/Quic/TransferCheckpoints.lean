import Landropic.Foundations.HashMap
import Landropic.Foundations.Pool
import Landropic.Quic.Protocol

set_option autoImplicit false

/-!
# Transfers that can be resumed

A manager keeps the transfers that are under way and a checkpoint of each of them. A call changes a
transfer under one lock and saves its checkpoint under another, so that other calls may come in
between. A completed transfer loses its checkpoint some time later.

## Main definitions

* `TransferCheckpoint`, `ActiveTransfer` — the data.
* `ResumableTransferManager` — a manager, and the removals that it has scheduled.
* `ResumableTransferManager.startTransfer`, `updateProgress`, `completeTransfer`, `failTransfer`,
  `pauseTransfer`, `resumeTransfer`, `getTransferStatus` — its calls.
* `ResumableTransferManager.cleanup`, `removeLater` — what it does in the background.

## Main results

* `ResumableTransferManager.lookup_without` — which transfers a cleanup leaves.

## Design

An action is what a call does while it holds a lock. A resumed transfer is looked up and its
checkpoint loaded in one action, since the lock of the transfers is held meanwhile. Durations and
the times of both clocks are in nanoseconds. -/

namespace Landropic

/-- Transfer checkpoint information. -/
structure TransferCheckpoint where
  transferId : Text
  peerId : Text
  filePath : Text
  totalSize : UInt64
  bytesTransferred : UInt64
  chunkOffset : UInt64
  lastCheckpoint : ℤ
  retryCount : UInt32
  deriving DecidableEq

/-- Status of a resumable transfer. -/
inductive TransferStatus
  /-- Transfer is actively running. -/
  | active
  /-- Transfer is paused and can be resumed. -/
  | paused
  /-- Transfer completed successfully. -/
  | completed
  /-- Transfer failed and needs retry. -/
  | failed
  /-- Transfer was cancelled. -/
  | cancelled
  deriving DecidableEq

/-- Active transfer state. -/
structure ActiveTransfer where
  checkpoint : TransferCheckpoint
  status : TransferStatus
  lastActivity : ℕ
  /-- Times and bytes. -/
  bandwidthSamples : List (ℕ × UInt64)
  deriving DecidableEq

/-- Manager for resumable transfers. -/
structure ResumableTransferManager where
  activeTransfers : HashMap Text ActiveTransfer
  checkpoints : HashMap Text TransferCheckpoint
  /-- The checkpoints whose removal has been scheduled. -/
  removals : List Text
  checkpointInterval : ℕ
  transferTimeout : ℕ
  maxRetryCount : UInt32

/-- What an action of a manager is about to do. -/
inductive TransferOp
  | loadCheckpoint (transferId : Text)
  | saveCheckpoint (checkpoint : TransferCheckpoint)
  | removeCheckpoint (transferId : Text)
  /-- Put a transfer among the active ones. -/
  | register (transferId : Text) (bytesTransferred : UInt64)
  | updateProgress (transferId : Text) (bytesTransferred : UInt64)
  | completeTransfer (transferId : Text)
  /-- Schedule the removal of a checkpoint. -/
  | scheduleRemoval (transferId : Text)
  | failTransfer (transferId : Text)
  | pauseTransfer (transferId : Text)
  | resumeTransfer (transferId : Text)
  | getTransferStatus (transferId : Text)
  /-- Look for transfers that time out. -/
  | findInactive
  | removeInactive (transferIds : List Text)
  deriving DecidableEq

/-- What an action takes from outside: the time of the monotonic clock, the time in UTC as it is
read first and once more, and the order in which the transfers are visited. -/
structure TransferClock where
  now : ℕ
  utc : ℤ
  later : ℤ
  order : IterOrder Text

/-- The process of a call of a manager. -/
abbrev TransferTask (α : Type) :=
  Proc ResumableTransferManager TransferClock TransferOp QuicError α

/-- The nanoseconds in a second. -/
def nanosPerSec : ℕ := 10 ^ 9

/-- A duration in seconds, as a floating point number. -/
def asSecsF32 (duration : ℕ) : Float32 :=
  (UInt64.ofNat (duration / nanosPerSec)).toFloat32 +
    (UInt64.ofNat (duration % nanosPerSec)).toFloat32 / (UInt64.ofNat nanosPerSec).toFloat32

/-- Calculate current bandwidth from samples. -/
def calculateBandwidth (samples : List (ℕ × UInt64)) : Float32 :=
  match samples.head?, samples.getLast? with
  | some first, some last =>
    if samples.length < 2 then 0
    else if asSecsF32 (last.1 - first.1) > 0 then
      (last.2 - first.2).toFloat32 / asSecsF32 (last.1 - first.1)
    else 0
  | _, _ => 0

/-- The share of a transfer that is done. -/
def TransferCheckpoint.progress (checkpoint : TransferCheckpoint) : Float32 :=
  if checkpoint.totalSize > 0 then
    checkpoint.bytesTransferred.toFloat32 / checkpoint.totalSize.toFloat32
  else 0

namespace ActiveTransfer

variable (clock : TransferClock) (transfer : ActiveTransfer)

/-- A transfer that is under way from a checkpoint on. -/
def ofCheckpoint (checkpoint : TransferCheckpoint) : ActiveTransfer where
  checkpoint := checkpoint
  status := .active
  lastActivity := clock.now
  bandwidthSamples := []

/-- Update progress, and keep only recent samples (last 30 seconds). -/
def recordProgress (bytesTransferred chunkOffset : UInt64) : ActiveTransfer :=
  { transfer with
    checkpoint := { transfer.checkpoint with
      bytesTransferred := bytesTransferred
      chunkOffset := chunkOffset }
    lastActivity := clock.now
    bandwidthSamples := (transfer.bandwidthSamples ++ [(clock.now, bytesTransferred)]).filter
      fun sample => clock.now < sample.1 + 30 * nanosPerSec }

/-- The last checkpoint is so many seconds old. -/
def elapsedSeconds : ℤ := (clock.utc - transfer.checkpoint.lastCheckpoint).tdiv nanosPerSec

/-- A transfer whose checkpoint is about to be saved. -/
def stamp (utc : ℤ) : ActiveTransfer :=
  { transfer with checkpoint := { transfer.checkpoint with lastCheckpoint := utc } }

/-- A transfer that has failed once more. -/
def retried : ActiveTransfer :=
  { transfer with
    status := .failed
    checkpoint := { transfer.checkpoint with retryCount := transfer.checkpoint.retryCount + 1 } }

/-- A transfer that goes on. -/
def resumed : ActiveTransfer :=
  { transfer with status := .active, lastActivity := clock.now, bandwidthSamples := [] }

end ActiveTransfer

namespace ResumableTransferManager

open Proc

/-- Create a new resumable transfer manager. -/
def new (checkpointInterval transferTimeout : ℕ) (maxRetryCount : UInt32) :
    ResumableTransferManager where
  activeTransfers := ∅
  checkpoints := ∅
  removals := []
  checkpointInterval := checkpointInterval
  transferTimeout := transferTimeout
  maxRetryCount := maxRetryCount

/-- Checkpoint every 10 seconds, 5 minute timeout, max 3 retries. -/
def default : ResumableTransferManager := new (10 * nanosPerSec) (300 * nanosPerSec) 3

section State

variable (m : ResumableTransferManager)

/-- Put a transfer among the active ones, or change it. -/
def withTransfer (transferId : Text) (transfer : ActiveTransfer) : ResumableTransferManager :=
  { m with activeTransfers := m.activeTransfers.insert transferId transfer }

/-- Take a transfer from the active ones. -/
def withoutTransfer (transferId : Text) : ResumableTransferManager :=
  { m with activeTransfers := m.activeTransfers.erase transferId }

/-- The seconds between two checkpoints, as a 64-bit integer. -/
def intervalSeconds : ℤ := Int.bmod (m.checkpointInterval / nanosPerSec : ℕ) (2 ^ 64)

/-- The active transfers that time out. -/
def inactive (clock : TransferClock) : List Text :=
  ((clock.order.entries m.activeTransfers).filter fun entry =>
    entry.2.status = .active ∧ clock.now - entry.2.lastActivity > m.transferTimeout).map Prod.fst

/-- Take transfers from the active ones. -/
def without (transferIds : List Text) : ResumableTransferManager :=
  transferIds.foldl withoutTransfer m

end State

/-! ## The calls -/

/-- Load checkpoint. -/
def loadCheckpoint (transferId : Text) : TransferTask (Option TransferCheckpoint) :=
  atom (.loadCheckpoint transferId) fun _ m => (.ok (m.checkpoints.lookup transferId), m)

/-- Save checkpoint. -/
def saveCheckpoint (checkpoint : TransferCheckpoint) : TransferTask Unit :=
  atom (.saveCheckpoint checkpoint) fun _ m =>
    (.ok (), { m with checkpoints := m.checkpoints.insert checkpoint.transferId checkpoint })

/-- Save the checkpoint of a transfer that has been changed, if there is one to save. -/
def saveIfAny : Option TransferCheckpoint → TransferTask Unit
  | none => pure ()
  | some checkpoint => saveCheckpoint checkpoint

/-- Change an active transfer. The change leaves the manager and the checkpoint to save. -/
def onTransfer (op : TransferOp) (transferId : Text)
    (f : TransferClock → ResumableTransferManager → ActiveTransfer →
      Option TransferCheckpoint × ResumableTransferManager) :
    TransferTask (Option TransferCheckpoint) :=
  atom op fun clock m =>
    match m.activeTransfers.lookup transferId with
    | none => (.ok none, m)
    | some transfer => (.ok (f clock m transfer).1, (f clock m transfer).2)

/-- Start a new resumable transfer. -/
def startTransfer (transferId peerId filePath : Text) (totalSize : UInt64) :
    TransferTask Unit := do
  let checkpoint ← loadCheckpoint transferId
  let bytesTransferred := (checkpoint.map TransferCheckpoint.bytesTransferred).getD 0
  if bytesTransferred ≥ totalSize then pure ()
  else
    let checkpoint ← atom (.register transferId bytesTransferred) fun clock m =>
      let checkpoint := checkpoint.getD
        { transferId := transferId
          peerId := peerId
          filePath := filePath
          totalSize := totalSize
          bytesTransferred := 0
          chunkOffset := 0
          lastCheckpoint := clock.utc
          retryCount := 0 }
      (.ok checkpoint, m.withTransfer transferId (.ofCheckpoint clock checkpoint))
    saveCheckpoint checkpoint

/-- Update transfer progress, and create a checkpoint periodically. -/
def updateProgress (transferId : Text) (bytesTransferred chunkOffset : UInt64) :
    TransferTask Unit := do
  let checkpoint ← onTransfer (.updateProgress transferId bytesTransferred) transferId
    fun clock m transfer =>
      let transfer := transfer.recordProgress clock bytesTransferred chunkOffset
      if transfer.elapsedSeconds clock ≥ m.intervalSeconds then
        let transfer := transfer.stamp clock.later
        (some transfer.checkpoint, m.withTransfer transferId transfer)
      else (none, m.withTransfer transferId transfer)
  -- the lock of the transfers is released before the checkpoint is saved
  saveIfAny checkpoint

/-- Complete a transfer successfully. -/
def completeTransfer (transferId : Text) : TransferTask Unit := do
  let checkpoint ← onTransfer (.completeTransfer transferId) transferId fun clock m transfer =>
    (some (transfer.stamp clock.utc).checkpoint, m.withoutTransfer transferId)
  match checkpoint with
  | none => pure ()
  | some checkpoint => do
    saveCheckpoint checkpoint
    atom (.scheduleRemoval transferId) fun _ m =>
      (.ok (), { m with removals := transferId :: m.removals })

/-- Fail a transfer and mark it for retry. -/
def failTransfer (transferId : Text) : TransferTask Unit := do
  let checkpoint ← onTransfer (.failTransfer transferId) transferId fun clock m transfer =>
    let transfer := transfer.retried.stamp clock.utc
    if transfer.checkpoint.retryCount ≥ m.maxRetryCount then
      (some transfer.checkpoint, m.withoutTransfer transferId)
    else (some transfer.checkpoint, m.withTransfer transferId transfer)
  saveIfAny checkpoint

/-- Pause a transfer. -/
def pauseTransfer (transferId : Text) : TransferTask Unit := do
  let checkpoint ← onTransfer (.pauseTransfer transferId) transferId fun clock m transfer =>
    let transfer := { transfer with status := .paused }.stamp clock.utc
    (some transfer.checkpoint, m.withTransfer transferId transfer)
  saveIfAny checkpoint

/-- Resume a paused transfer, or one that is not active from its checkpoint. -/
def resumeTransfer (transferId : Text) : TransferTask Unit :=
  atom (.resumeTransfer transferId) fun clock m =>
    match m.activeTransfers.lookup transferId with
    | some transfer => (.ok (), m.withTransfer transferId (transfer.resumed clock))
    | none =>
      match m.checkpoints.lookup transferId with
      | some checkpoint => (.ok (), m.withTransfer transferId (.ofCheckpoint clock checkpoint))
      | none => (.error (.protocol
          s!"No checkpoint found for transfer: {String.ofList transferId}"), m)

/-- Get transfer status, progress and bandwidth. -/
def getTransferStatus (transferId : Text) :
    TransferTask (Option (TransferStatus × Float32 × Float32)) :=
  atom (.getTransferStatus transferId) fun _ m =>
    (.ok ((m.activeTransfers.lookup transferId).map fun transfer =>
      (transfer.status, transfer.checkpoint.progress,
        calculateBandwidth transfer.bandwidthSamples)), m)

/-! ## The background -/

/-- One round of the cleanup task. The lock of the transfers is released in between. -/
def cleanup : TransferTask Unit := do
  let toRemove ← atom .findInactive fun clock m => (.ok (m.inactive clock), m)
  if toRemove = [] then pure ()
  else atom (.removeInactive toRemove) fun _ m => (.ok (), m.without toRemove)

/-- The delayed removal of the checkpoint of a completed transfer. -/
def removeLater (transferId : Text) : TransferTask Unit :=
  act (.removeCheckpoint transferId) (fun m => transferId ∈ m.removals)
    (fun _ m => { m with
      checkpoints := m.checkpoints.erase transferId
      removals := m.removals.erase transferId })
    fun _ _ => ret (.ok ())

/-! ## What the changes do -/

variable {m : ResumableTransferManager} {transferId other : Text} {transfer : ActiveTransfer}

@[simp] lemma lookup_withTransfer : (m.withTransfer transferId transfer).activeTransfers.lookup
    transferId = some transfer := Finmap.lookup_insert _

lemma lookup_withTransfer_of_ne (h : other ≠ transferId) :
    (m.withTransfer transferId transfer).activeTransfers.lookup other =
      m.activeTransfers.lookup other := Finmap.lookup_insert_of_ne _ h

@[simp] lemma lookup_withoutTransfer :
    (m.withoutTransfer transferId).activeTransfers.lookup transferId = none :=
  Finmap.lookup_erase _ _

lemma lookup_withoutTransfer_of_ne (h : other ≠ transferId) :
    (m.withoutTransfer transferId).activeTransfers.lookup other =
      m.activeTransfers.lookup other := Finmap.lookup_erase_ne h

variable {transferIds : List Text}

/-- **A cleanup** takes the transfers that it has found, and leaves everything else. -/
theorem lookup_without :
    (m.without transferIds).activeTransfers.lookup other =
      if other ∈ transferIds then none else m.activeTransfers.lookup other := by
  induction transferIds generalizing m with
  | nil => simp [without]
  | cons transferId rest ih =>
    show ((m.withoutTransfer transferId).without rest).activeTransfers.lookup other = _
    rw [ih]
    by_cases hrest : other ∈ rest
    · simp [hrest]
    · by_cases heq : other = transferId
      · subst heq
        simp [hrest]
      · simp [hrest, heq, lookup_withoutTransfer_of_ne heq]

lemma maxRetryCount_without : (m.without transferIds).maxRetryCount = m.maxRetryCount := by
  induction transferIds generalizing m with
  | nil => rfl
  | cons transferId rest ih => exact (ih (m := m.withoutTransfer transferId)).trans rfl

lemma checkpoints_without : (m.without transferIds).checkpoints = m.checkpoints := by
  induction transferIds generalizing m with
  | nil => rfl
  | cons transferId rest ih => exact (ih (m := m.withoutTransfer transferId)).trans rfl

end ResumableTransferManager

end Landropic
