import Landropic.Daemon.BloomDiff
import Landropic.Foundations.FileCodec
import Landropic.Foundations.FileHandle

set_option autoImplicit false

/-!
# The resume manager

A manager keeps a checkpoint of every sync session in memory, and writes all of them to one file
from time to time: when a checkpoint is saved and the number of sessions is a multiple of ten, when
old checkpoints are removed, and at the ticks of a monitor that each session gets.

## Main definitions

* `Daemon.ResumeCheckpoint` — the saved state of a session.
* `Daemon.ResumeManager` — a manager, given the JSON form of its checkpoints.
* `Daemon.ResumeManager.new` — what a manager loads when it is created.
* `Daemon.ResumeCheckpoint.resume`, `update` — how the calls change a checkpoint.
* `Daemon.ResumeTask`, `ResumeState` — what the calls and monitors are about to do, and what they
  share.
* `Daemon.ResumeManager.next` — their steps.

## Design

A lock guards the checkpoints: it is held for writing by a call that changes them, also while that
writes the file, and for reading by a monitor that writes the file. What a call does in memory while
it holds the lock is one step; writing the file takes a step for every byte. Log messages, and the
store and the indexer, which nothing uses, are left out.
-/

namespace Landropic.Daemon

deriving instance Countable for DiffStage

/-- A point in time, in nanoseconds from the epoch. -/
abbrev SystemTime := ℤ

/-- What resuming a session has saved. -/
structure ResumeBandwidthStats where
  bytesSavedByResume : UInt64
  chunksSkipped : UInt64
  resumeOverheadBytes : UInt64
  timeSavedSeconds : UInt64
  deriving DecidableEq, Countable

/-- Resume checkpoint: the saved state of a sync operation. -/
structure ResumeCheckpoint where
  sessionId : Text
  peerId : Text
  /-- A path of the operating system, which need not be UTF-8. -/
  folderPath : Bytes
  createdAt : SystemTime
  lastUpdated : SystemTime
  stage : DiffStage
  progressPercent : UInt8
  manifestsExchanged : Bool
  bloomSummariesComplete : Bool
  differencesIdentified : Bool
  suspectedFiles : List Text
  confirmedDifferences : List Text
  totalChunksNeeded : UInt64
  chunksTransferred : List Text
  chunksFailed : List Text
  bytesTransferred : UInt64
  bytesTotal : UInt64
  connectionStable : Bool
  retryCount : UInt32
  lastError : Option Text
  bandwidthStats : ResumeBandwidthStats
  deriving DecidableEq

instance : Countable ResumeCheckpoint := by
  refine Function.Injective.countable (f := fun c : ResumeCheckpoint =>
    ((c.sessionId, c.peerId, c.folderPath, c.createdAt, c.lastUpdated, c.stage, c.progressPercent),
      (c.manifestsExchanged, c.bloomSummariesComplete, c.differencesIdentified, c.suspectedFiles,
        c.confirmedDifferences, c.totalChunksNeeded, c.chunksTransferred),
      c.chunksFailed, c.bytesTransferred, c.bytesTotal, c.connectionStable, c.retryCount,
      c.lastError, c.bandwidthStats)) fun c d h => ?_
  cases c
  cases d
  simpa only [Prod.mk.injEq, ResumeCheckpoint.mk.injEq, and_assoc] using h

/-- What a session reports of its progress. -/
inductive CheckpointUpdate
  | stage (stage : DiffStage)
  | progress (percent : UInt8)
  | chunkTransferred (chunkHash : Text)
  | chunkFailed (chunkHash : Text)
  | bytesTransferred (bytes : UInt64)
  | error (error : Text)
  | complete

/-- Result of resume operation. -/
structure ResumeResult where
  success : Bool
  reason : Text
  bytesSaved : UInt64
  chunksSkipped : UInt64
  /-- In seconds. -/
  timeSaved : UInt64
  deriving DecidableEq

/-- A result, or a panic in a build with overflow checks if it is out of range. -/
def checked (overflowChecks : Bool) (exact : ℕ) (result : UInt64) : Option UInt64 :=
  if overflowChecks ∧ 2 ^ 64 ≤ exact then none else some result

namespace ResumeCheckpoint

/-- The checkpoint of a session that starts. -/
def initial (sessionId peerId : Text) (folderPath : Bytes) (createdAt lastUpdated : SystemTime) :
    ResumeCheckpoint where
  sessionId := sessionId
  peerId := peerId
  folderPath := folderPath
  createdAt := createdAt
  lastUpdated := lastUpdated
  stage := .initializing
  progressPercent := 0
  manifestsExchanged := false
  bloomSummariesComplete := false
  differencesIdentified := false
  suspectedFiles := []
  confirmedDifferences := []
  totalChunksNeeded := 0
  chunksTransferred := []
  chunksFailed := []
  bytesTransferred := 0
  bytesTotal := 0
  connectionStable := true
  retryCount := 0
  lastError := none
  bandwidthStats := ⟨0, 0, 0, 0⟩

variable (checkpoint : ResumeCheckpoint)

/-- Update checkpoint with progress. -/
def update (now : SystemTime) (update : CheckpointUpdate) : ResumeCheckpoint :=
  let checkpoint := { checkpoint with lastUpdated := now }
  match update with
  | .stage stage =>
    let checkpoint := { checkpoint with stage := stage }
    match stage with
    | .exchangingSummaries => { checkpoint with manifestsExchanged := true }
    | .comparingManifests => { checkpoint with bloomSummariesComplete := true }
    | .requestingDetails => { checkpoint with differencesIdentified := true }
    | _ => checkpoint
  | .progress percent => { checkpoint with progressPercent := percent }
  | .chunkTransferred chunkHash =>
    if chunkHash ∈ checkpoint.chunksTransferred then checkpoint
    else
      { checkpoint with
        chunksTransferred := checkpoint.chunksTransferred ++ [chunkHash]
        chunksFailed := checkpoint.chunksFailed.filter fun h => h ≠ chunkHash }
  | .chunkFailed chunkHash =>
    { checkpoint with
      chunksFailed :=
        if chunkHash ∈ checkpoint.chunksFailed then checkpoint.chunksFailed
        else checkpoint.chunksFailed ++ [chunkHash]
      connectionStable := false }
  | .bytesTransferred bytes => { checkpoint with bytesTransferred := bytes }
  | .error error => { checkpoint with lastError := some error, connectionStable := false }
  | .complete => { checkpoint with progressPercent := 100, stage := .completed }

/-- Why the checkpoint cannot be used, if it cannot. -/
def validate (folderExists : Bool) : Option Text :=
  if ¬ folderExists then some "Folder no longer exists".toList
  else
    let missingChunks := checkpoint.chunksTransferred.countP List.isEmpty
    if checkpoint.chunksTransferred.length / 2 < missingChunks then
      some ("Too many missing chunks: ".toList ++ (toString missingChunks).toList)
    else none

/-- The seconds that are saved, estimated from typical transfer speeds and chunk sizes; a division
by zero panics. -/
def estimateTimeSaved (overflowChecks : Bool) : Option UInt64 := do
  let chunks := UInt64.ofNat checkpoint.chunksTransferred.length
  let avgChunkSize ←
    if 0 < checkpoint.totalChunksNeeded then
      if chunks = 0 then none else some (checkpoint.bytesTransferred / chunks)
    else some (64 * 1024)
  let bytesSaved ← checked overflowChecks (chunks.toNat * avgChunkSize.toNat)
    (chunks * avgChunkSize)
  some (max (bytesSaved / (10 * 1024 * 1024)) 1)

/-- What resuming a session comes to, and the updated checkpoint if it is to be resumed; or a panic.
-/
def resume (overflowChecks folderExists : Bool) (now : SystemTime) :
    Option (ResumeResult × Option ResumeCheckpoint) := do
  let chunksToSkip := UInt64.ofNat checkpoint.chunksTransferred.length
  let bytesSaved := checkpoint.bytesTransferred
  -- the chunks that remain are only logged, but their number may be out of range
  if overflowChecks ∧ checkpoint.totalChunksNeeded < chunksToSkip then none
  match checkpoint.validate folderExists with
  | some reason => some (⟨false, "Invalid checkpoint: ".toList ++ reason, 0, 0, 0⟩, none)
  | none => do
    let timeSaved ← checkpoint.estimateTimeSaved overflowChecks
    if overflowChecks ∧ 2 ^ 32 ≤ checkpoint.retryCount.toNat + 1 then none
    let stats := checkpoint.bandwidthStats
    let bytes ← checked overflowChecks (stats.bytesSavedByResume.toNat + bytesSaved.toNat)
      (stats.bytesSavedByResume + bytesSaved)
    let chunks ← checked overflowChecks (stats.chunksSkipped.toNat + chunksToSkip.toNat)
      (stats.chunksSkipped + chunksToSkip)
    let seconds ← checked overflowChecks (stats.timeSavedSeconds.toNat + timeSaved.toNat)
      (stats.timeSavedSeconds + timeSaved)
    let updated := { checkpoint with
      lastUpdated := now
      retryCount := checkpoint.retryCount + 1
      bandwidthStats := { stats with
        bytesSavedByResume := bytes
        chunksSkipped := chunks
        timeSavedSeconds := seconds } }
    some (⟨true, "Resume successful".toList, bytesSaved, chunksToSkip, timeSaved⟩, some updated)

/-- The checkpoint has a JSON form: its path is UTF-8, and no time is before the epoch. -/
def isSerializable : Bool :=
  (Text.fromUtf8 checkpoint.folderPath).isSome ∧ 0 ≤ checkpoint.createdAt ∧
    0 ≤ checkpoint.lastUpdated

/-- A week. -/
def retention : SystemTime := 7 * 24 * 60 * 60 * 1000000000

/-- Old checkpoints of completed sessions are not kept. -/
def isKept (now : SystemTime) : Bool :=
  now - retention < checkpoint.lastUpdated ∨ checkpoint.stage ≠ .completed

end ResumeCheckpoint

/-! ## The file -/

/-- How checkpoints are written as JSON and read back. -/
structure CheckpointJson extends FileCodec (HashMap Text ResumeCheckpoint) where
  isSome_fromUtf8 : ∀ way checkpoints, (Text.fromUtf8 (toBytes way checkpoints)).isSome = true
  /-- A text with a zero is no JSON. -/
  fromBytes_of_zero : ∀ {content : Bytes}, 0 ∈ content → fromBytes content = none

/-- Resume manager for handling sync interruptions. -/
structure ResumeManager where
  overflowChecks : Bool
  json : CheckpointJson
  /-- In which order the checkpoints are visited to remove old ones. -/
  order : IterOrder Text

/-- What a call or a monitor writes the file for. -/
inductive ResumeJob
  | startResumableSession (id : Text)
  | resumeSession (id : Text) (result : ResumeResult)
  | cleanupOldCheckpoints
  | monitorSessionCheckpoints (id : Text)
  deriving DecidableEq

/-- What a call or a monitor is about to do. -/
inductive ResumeTask
  /-- It has not begun, or has come to an end. -/
  | idle
  /-- Look at a copy of a checkpoint that is to be resumed. -/
  | validate (id : Text) (checkpoint : ResumeCheckpoint)
  /-- Save a checkpoint. -/
  | save (job : ResumeJob) (checkpoint : ResumeCheckpoint)
  /-- Write the rest of the file, from that position. -/
  | write (job : ResumeJob) (data : Bytes) (pos : ℕ)
  /-- Return successfully. -/
  | done (job : ResumeJob)
  /-- Wait for the next tick. -/
  | monitor (id : Text)
  deriving DecidableEq

/-- What the calls and the monitors share, and what each of them is about to do. -/
structure ResumeState where
  checkpoints : HashMap Text ResumeCheckpoint
  /-- In which order the checkpoints are written. -/
  way : ℕ
  file : Option Bytes
  activeSessions : Finset Text
  tasks : ℕ → ResumeTask
  /-- The tasks that hold the lock of the checkpoints for reading, other than for a moment. -/
  readers : Finset ℕ
  /-- The task that holds it for writing. -/
  writer : Option ℕ

/-- What can happen. -/
inductive ResumeEvent
  | startResumableSession (t : ℕ) (sessionId peerId : Text) (folderPath : Bytes)
    (createdAt lastUpdated : SystemTime)
  /-- `resume_session` reads the checkpoint. -/
  | resumeSession (t : ℕ) (sessionId : Text)
  | validate (t : ℕ) (folderExists : Bool) (now : SystemTime)
  | saveCheckpoint (t way : ℕ)
  /-- The next byte of the file is written, or there is none. -/
  | write (t : ℕ)
  /-- A call returns; the start of a session leaves a monitor. -/
  | finish (t monitor : ℕ)
  | updateCheckpoint (sessionId : Text) (now : SystemTime) (update : CheckpointUpdate)
  | cleanupOldCheckpoints (t : ℕ) (now : SystemTime) (way : ℕ)
  | tick (t : ℕ)

/-- A call or a monitor moves on. -/
def ResumeState.withTask (s : ResumeState) (t : ℕ) (task : ResumeTask) : ResumeState :=
  { s with tasks := Function.update s.tasks t task }

/-- Nobody holds the lock. -/
def ResumeState.isUnlocked (s : ResumeState) : Bool := s.writer = none ∧ s.readers = ∅

namespace ResumeJob

variable (job : ResumeJob)

/-- A monitor holds the lock only for reading. -/
def isMonitor : Bool :=
  match job with
  | monitorSessionCheckpoints _ => true
  | _ => false

/-- What comes after a failed attempt to write the file: a call fails, a monitor goes on. -/
def failed : ResumeTask :=
  match job with
  | monitorSessionCheckpoints id => .monitor id
  | _ => .idle

/-- What comes after the file was written. -/
def saved : ResumeTask :=
  match job with
  | monitorSessionCheckpoints id => .monitor id
  | job => .done job

end ResumeJob

namespace ResumeManager

variable (manager : ResumeManager) (s : ResumeState)

/-- What a file holds: nothing if it is not there or cannot be parsed. A file that is not UTF-8
cannot be read. -/
def load (file : Option Bytes) : Except Text (HashMap Text ResumeCheckpoint) :=
  match file with
  | none => .ok ∅
  | some content =>
    if (Text.fromUtf8 content).isSome then .ok ((manager.json.fromBytes content).getD ∅)
    else .error "stream did not contain valid UTF-8".toList

/-- Create new resume manager. -/
def new (file : Option Bytes) : Except Text ResumeState :=
  (manager.load file).map fun checkpoints =>
    { checkpoints := checkpoints
      way := 0
      file := file
      activeSessions := ∅
      tasks := fun _ => .idle
      readers := ∅
      writer := none }

/-- The JSON form of the checkpoints, if they have one. -/
def toStringPretty : Option Bytes :=
  if (manager.order.entries s.checkpoints).all fun entry => entry.2.isSerializable then
    some (manager.json.toBytes s.way s.checkpoints)
  else none

/-- Take the lock and truncate the file. -/
def saveCheckpointsToDisk (t : ℕ) (job : ResumeJob) : ResumeState :=
  match manager.toStringPretty s with
  | none => s.withTask t job.failed
  | some data =>
    { s with
      file := some []
      readers := if job.isMonitor then insert t s.readers else s.readers
      writer := if job.isMonitor then s.writer else some t }.withTask t (.write job data 0)

/-- Save a checkpoint, and all of them to disk periodically. -/
def saveCheckpoint (t way : ℕ) (job : ResumeJob) (checkpoint : ResumeCheckpoint) : ResumeState :=
  let checkpoints := s.checkpoints.insert checkpoint.sessionId checkpoint
  let s := { s with checkpoints := checkpoints, way := way }
  if checkpoints.keys.card % 10 = 0 then manager.saveCheckpointsToDisk s t job
  else s.withTask t (.done job)

/-- Write the next byte, or let go of the lock. -/
def write (t : ℕ) (job : ResumeJob) (data : Bytes) (pos : ℕ) : ResumeState :=
  match data[pos]? with
  | some byte =>
    { s with file := some (overwrite (s.file.getD []) pos [byte]) }.withTask t
      (.write job data (pos + 1))
  | none =>
    { s with
      readers := s.readers.erase t
      writer := if job.isMonitor then s.writer else none }.withTask t job.saved

/-- Return from a call. The session that was started is active from now on, and monitored. -/
def finish (t monitor : ℕ) (job : ResumeJob) : Option ResumeState :=
  match job with
  | .startResumableSession id =>
    if s.tasks monitor = .idle then
      some (({ s with activeSessions := insert id s.activeSessions }.withTask t .idle).withTask
        monitor (.monitor id))
    else none
  | _ => some (s.withTask t .idle)

/-- Remove old checkpoints, and save the others if there were any. -/
def cleanupOldCheckpoints (t : ℕ) (now : SystemTime) (way : ℕ) : ResumeState :=
  let kept := HashMap.collect <|
    (manager.order.entries s.checkpoints).filter fun entry => entry.2.isKept now
  let removed := s.checkpoints.keys.card - kept.keys.card
  let s := { s with checkpoints := kept, way := way }
  if 0 < removed then manager.saveCheckpointsToDisk s t .cleanupOldCheckpoints else s

/-- The effect of an event. -/
def next : ResumeEvent → Option ResumeState
  | .startResumableSession t sessionId peerId folderPath createdAt lastUpdated =>
    if s.tasks t = .idle then
      some (s.withTask t (.save (.startResumableSession sessionId)
        (.initial sessionId peerId folderPath createdAt lastUpdated)))
    else none
  | .resumeSession t sessionId =>
    if s.tasks t = .idle ∧ s.writer = none then
      match s.checkpoints.lookup sessionId with
      | some checkpoint => some (s.withTask t (.validate sessionId checkpoint))
      | none => some s
    else none
  | .validate t folderExists now =>
    match s.tasks t with
    | .validate id checkpoint =>
      match checkpoint.resume manager.overflowChecks folderExists now with
      | some (result, some updated) =>
        some (s.withTask t (.save (.resumeSession id result) updated))
      | _ => some (s.withTask t .idle)
    | _ => none
  | .saveCheckpoint t way =>
    match s.tasks t with
    | .save job checkpoint =>
      if s.isUnlocked then some (manager.saveCheckpoint s t way job checkpoint) else none
    | _ => none
  | .write t =>
    match s.tasks t with
    | .write job data pos => some (write s t job data pos)
    | _ => none
  | .finish t monitor =>
    match s.tasks t with
    | .done job => finish s t monitor job
    | _ => none
  | .updateCheckpoint sessionId now update =>
    if s.isUnlocked then
      some { s with
        checkpoints := s.checkpoints.modify sessionId fun checkpoint =>
          checkpoint.update now update }
    else none
  | .cleanupOldCheckpoints t now way =>
    if s.tasks t = .idle ∧ s.isUnlocked then some (manager.cleanupOldCheckpoints s t now way)
    else none
  | .tick t =>
    match s.tasks t with
    | .monitor id =>
      if s.writer = none then
        if id ∈ s.activeSessions then
          some (manager.saveCheckpointsToDisk s t (.monitorSessionCheckpoints id))
        else some (s.withTask t .idle)
      else none
    | _ => none

end ResumeManager

end Landropic.Daemon
