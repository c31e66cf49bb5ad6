import Landropic.Foundations.FileCodec
import Landropic.Foundations.Fs
import Landropic.Foundations.Proc
import Landropic.Sync.ConflictDetection

set_option autoImplicit false

/-!
# Persistence of sync sessions

A sync session is kept in memory and saved to a file of its own, so that it can be resumed after an
interruption. A save takes a copy of the session in memory, truncates the file and then writes to
it. A manager that is created over a directory loads the sessions of all its files.

## Main definitions

* `PersistedSyncSession` — a session, with the chunks that are done, pending and failed.
* `PersistenceState` — the memory of a manager, and its files.
* `SyncPersistenceManager` — a manager, given the JSON form of its sessions.
* `SyncPersistenceManager.startSession`, `markChunkCompleted`, `markChunkFailed`,
  `interruptSession`, `completeSession` — its calls, as processes.
* `SyncPersistenceManager.loadSessions`, `getResumableSessions` — what is loaded, and which sessions
  can be resumed.

## Main results

* `SyncPersistenceManager.lookup_loadSessions` — where files are named by their sessions, a session
  is loaded from the file of its name.
-/

namespace Landropic

deriving instance Countable for ConflictType
deriving instance Countable for ManifestEntry
deriving instance Countable for Conflict

/-- Status of a sync session. -/
inductive SyncSessionStatus
  /-- Session is actively syncing. -/
  | active
  /-- Session completed successfully. -/
  | completed
  /-- Session was interrupted and can be resumed. -/
  | interrupted
  /-- Session failed and cannot be resumed. -/
  | failed
  deriving DecidableEq, Countable

/-- Information about a sync session for persistence. -/
structure PersistedSyncSession where
  sessionId : Text
  peerId : Text
  folderPath : Text
  status : SyncSessionStatus
  startedAt : DateTime
  lastActivity : DateTime
  completedAt : Option DateTime
  /-- Chunks that have been successfully transferred. -/
  completedChunks : Finset Text
  /-- Chunks that still need to be transferred. -/
  pendingChunks : Finset Text
  /-- Chunks that failed transfer (for retry). -/
  failedChunks : Finset Text
  conflicts : List Conflict
  totalChunks : ℕ
  totalBytes : UInt64
  transferredBytes : UInt64
  resumeToken : Option Text
  deriving DecidableEq, Countable

namespace PersistedSyncSession

variable (session : PersistedSyncSession)

/-- Create new persisted session. -/
def new (now : DateTime) (sessionId peerId folderPath : Text) : PersistedSyncSession where
  sessionId := sessionId
  peerId := peerId
  folderPath := folderPath
  status := .active
  startedAt := now
  lastActivity := now
  completedAt := none
  completedChunks := ∅
  pendingChunks := ∅
  failedChunks := ∅
  conflicts := []
  totalChunks := 0
  totalBytes := 0
  transferredBytes := 0
  resumeToken := none

/-- Check if session can be resumed. -/
def canResume : Bool := session.status = .interrupted ∧ session.pendingChunks ≠ ∅

/-- Mark chunk as completed. -/
def markChunkCompleted (now : DateTime) (chunkHash : Text) : PersistedSyncSession :=
  { session with
    pendingChunks := session.pendingChunks.erase chunkHash
    failedChunks := session.failedChunks.erase chunkHash
    completedChunks := insert chunkHash session.completedChunks
    lastActivity := now }

/-- Mark chunk as failed. -/
def markChunkFailed (now : DateTime) (chunkHash : Text) : PersistedSyncSession :=
  { session with
    pendingChunks := session.pendingChunks.erase chunkHash
    failedChunks := insert chunkHash session.failedChunks
    lastActivity := now }

/-- Mark session as completed. -/
def complete (now : DateTime) : PersistedSyncSession :=
  { session with status := .completed, completedAt := some now, lastActivity := now }

/-- Mark session as interrupted (for resume). -/
def interrupt (now : DateTime) : PersistedSyncSession :=
  { session with status := .interrupted, lastActivity := now }

end PersistedSyncSession

/-- Why a call failed. -/
inductive PersistenceError
  /-- A storage error, with its text. -/
  | storage (text : Text)
  deriving DecidableEq

/-- The memory of a manager, and its files. -/
structure PersistenceState where
  sessions : HashMap Text PersistedSyncSession
  /-- For save interval tracking. -/
  chunkCounter : HashMap Text ℕ
  /-- The files by their paths from the state directory. -/
  files : HashMap Text Bytes

/-- What an action of a manager is about to do. -/
inductive PersistenceOp
  /-- Change a session in memory. -/
  | update
  /-- Change a chunk counter. -/
  | count
  /-- Take a copy of a session and turn it into text. -/
  | snapshot
  /-- Open the file of a session and truncate it. -/
  | openFile (name : Text) (content : Bytes)
  /-- Write to the file that was opened. -/
  | writeFile (name : Text) (content : Bytes)
  deriving DecidableEq

/-- How an action turns out. -/
structure PersistenceInput where
  now : DateTime
  /-- In which order the sets of a session are written. -/
  way : ℕ
  /-- Why a file cannot be opened, if it cannot. -/
  refused : Option IoError

/-- What a manager does. -/
abbrev PersistenceTask (α : Type) :=
  Proc PersistenceState PersistenceInput PersistenceOp PersistenceError α

/-- Manages persistent storage of sync state; sessions are written as JSON. -/
structure SyncPersistenceManager where
  /-- How often to save state during active sync. -/
  saveIntervalChunks : ℕ
  json : FileCodec PersistedSyncSession
  /-- In which order a directory is read and a map is visited. -/
  order : IterOrder Text

namespace SyncPersistenceManager

open Proc

variable (manager : SyncPersistenceManager)

/-! ## The calls -/

/-- The file of a session. -/
def fileName (id : Text) : Text := id ++ ".json".toList

/-- Bytes that are written over the beginning of others. -/
def overlay (old content : Bytes) : Bytes := content ++ old.drop content.length

/-- Write to a file from its beginning. -/
def overwrite (name : Text) (content : Bytes) : PersistenceTask Unit :=
  atom (.writeFile name content) fun _ s =>
    let written := overlay ((s.files.lookup name).getD []) content
    (.ok (), { s with files := s.files.insert name written })

/-- Write a whole file: truncate it, and write to it. -/
def writeWhole (name : Text) (content : Bytes) : PersistenceTask Unit := do
  atom (.openFile name content) fun i s =>
    match i.refused with
    | some e => (.error (.storage ("Failed to save session: ".toList ++ e.display.toList)), s)
    | none => (.ok (), { s with files := s.files.insert name [] })
  overwrite name content

/-- Save session to disk. -/
def saveSession (id : Text) : PersistenceTask Unit := do
  let json ← atom .snapshot fun i s =>
    (.ok ((s.sessions.lookup id).map (manager.json.toBytes i.way)), s)
  match json with
  | some content => writeWhole (fileName id) content
  | none => pure ()

/-- Start tracking a new sync session. -/
def startSession (session : PersistedSyncSession) : PersistenceTask Unit := do
  atom .update fun _ s =>
    (.ok (), { s with sessions := s.sessions.insert session.sessionId session })
  atom .count fun _ s =>
    (.ok (), { s with chunkCounter := s.chunkCounter.insert session.sessionId 0 })
  manager.saveSession session.sessionId

/-- Update session with chunk completion. -/
def markChunkCompleted (id chunkHash : Text) (chunkSize : UInt64) : PersistenceTask Unit := do
  let shouldSave ← atom .update fun i s =>
    match s.sessions.lookup id with
    | some session =>
      let session := session.markChunkCompleted i.now chunkHash
      let session := { session with transferredBytes := session.transferredBytes + chunkSize }
      let count := (s.chunkCounter.lookup id).getD 0 + 1
      (.ok (decide (manager.saveIntervalChunks ≤ count)),
        { s with
          sessions := s.sessions.insert id session
          chunkCounter := s.chunkCounter.insert id count })
    | none => (.ok false, s)
  if shouldSave then do
    atom .count fun _ s => (.ok (), { s with chunkCounter := s.chunkCounter.insert id 0 })
    manager.saveSession id
  else pure ()

/-- Change a session in memory, if it is there, and save it. -/
def updateSession (id : Text) (update : DateTime → PersistedSyncSession → PersistedSyncSession) :
    PersistenceTask Unit := do
  let found ← atom .update fun i s =>
    match s.sessions.lookup id with
    | some session => (.ok true, { s with sessions := s.sessions.insert id (update i.now session) })
    | none => (.ok false, s)
  if found then manager.saveSession id else pure ()

/-- Mark chunk as failed. -/
def markChunkFailed (id chunkHash : Text) : PersistenceTask Unit :=
  manager.updateSession id fun now session => session.markChunkFailed now chunkHash

/-- Complete a sync session. -/
def completeSession (id : Text) : PersistenceTask Unit := do
  manager.updateSession id fun now session => session.complete now
  atom .count fun _ s => (.ok (), { s with chunkCounter := s.chunkCounter.erase id })

/-- Mark session as interrupted (for resume). -/
def interruptSession (id : Text) : PersistenceTask Unit :=
  manager.updateSession id fun now session => session.interrupt now

/-! ## Loading -/

/-- A file of the directory with the extension `json`; a path with a slash leads elsewhere. -/
def isSessionFile (name : Text) : Bool :=
  '/' ∉ name ∧ ".json".toList <:+ name ∧ name ≠ ".json".toList

/-- Load all sessions from disk. -/
def loadSessions (files : HashMap Text Bytes) : HashMap Text PersistedSyncSession :=
  HashMap.collect <| (manager.order.entries files).filterMap fun file =>
    if isSessionFile file.1 then
      (manager.json.fromBytes file.2).map fun session => (session.sessionId, session)
    else none

/-- Create new persistence manager over a directory. -/
def new (files : HashMap Text Bytes) : PersistenceState :=
  { sessions := manager.loadSessions files, chunkCounter := ∅, files := files }

/-- Get resumable sessions. -/
def getResumableSessions (s : PersistenceState) : List PersistedSyncSession :=
  ((manager.order.entries s.sessions).map Prod.snd).filter PersistedSyncSession.canResume

/-- What the file of a session holds. -/
def saved (s : PersistenceState) (id : Text) : Option PersistedSyncSession :=
  (s.files.lookup (fileName id)).bind manager.json.fromBytes

/-- Every file that is loaded is named by its session. -/
def WellNamed (files : HashMap Text Bytes) : Prop :=
  ∀ name content session, files.lookup name = some content → isSessionFile name = true →
    manager.json.fromBytes content = some session → name = fileName session.sessionId

variable {manager} {files : HashMap Text Bytes} {s : PersistenceState} {id : Text}
  {session : PersistedSyncSession}

@[simp] lemma overlay_nil (content : Bytes) : overlay [] content = content := by simp [overlay]

lemma fileName_injective : Function.Injective fileName := fun _ _ h => List.append_cancel_right h

lemma isSessionFile_fileName : isSessionFile (fileName id) = true ↔ '/' ∉ id ∧ id ≠ [] := by
  simp [isSessionFile, fileName]

/-- **What is loaded** for a session is what the file of its name holds. -/
theorem lookup_loadSessions (h : manager.WellNamed files) :
    (manager.loadSessions files).lookup id = some session ↔
      isSessionFile (fileName id) = true ∧ session.sessionId = id ∧
        (files.lookup (fileName id)).bind manager.json.fromBytes = some session := by
  have hmem : ∀ id session, (id, session) ∈ ((manager.order.entries files).filterMap fun file =>
      if isSessionFile file.1 then
        (manager.json.fromBytes file.2).map fun session => (session.sessionId, session)
      else none) ↔ isSessionFile (fileName id) = true ∧ session.sessionId = id ∧
        (files.lookup (fileName id)).bind manager.json.fromBytes = some session := by
    intro id session
    rw [List.mem_filterMap]
    constructor
    · rintro ⟨⟨name, content⟩, hentry, hsome⟩
      rw [Option.ite_none_right_eq_some, Option.map_eq_some_iff] at hsome
      obtain ⟨hname, loaded, hload, heq⟩ := hsome
      obtain ⟨rfl, rfl⟩ := Prod.mk.inj heq
      rw [IterOrder.mem_entries] at hentry
      have hfile := h name content loaded hentry hname hload
      dsimp only at hname
      rw [hfile] at hname hentry
      exact ⟨hname, rfl, by rw [hentry]; exact hload⟩
    · rintro ⟨hname, hid, hload⟩
      obtain ⟨content, hcontent, hload⟩ := Option.bind_eq_some_iff.mp hload
      refine ⟨(fileName id, content), manager.order.mem_entries.mpr hcontent, ?_⟩
      simp [hname, hload, hid]
  constructor
  · exact fun hlookup => (hmem id session).mp (HashMap.mem_of_lookup_collect hlookup)
  · intro hfile
    have hkey : id ∈ manager.loadSessions files :=
      HashMap.mem_collect.mpr (List.mem_map.mpr ⟨(id, session), (hmem id session).mpr hfile, rfl⟩)
    obtain ⟨other, hother⟩ := Finmap.mem_iff.mp hkey
    have hfile' := (hmem id other).mp (HashMap.mem_of_lookup_collect hother)
    rw [hother, ← hfile'.2.2, ← hfile.2.2]

/-! ## A sample session -/

/-- A session with a chunk to transfer. -/
def syncing : PersistedSyncSession :=
  { PersistedSyncSession.new ⟨1704067200, 0⟩ ['s'] ['p'] ['/', 'f'] with
    pendingChunks := {['c']}
    totalChunks := 1
    totalBytes := 4 }

/-- The session after it was interrupted. -/
def cutOff : PersistedSyncSession := syncing.interrupt ⟨1704067200, 0⟩

/-- The session after it was completed then. -/
def finished : PersistedSyncSession := cutOff.complete ⟨1704067200, 0⟩

/-- The three sessions and their JSON texts. -/
def syncingSamples : List (PersistedSyncSession × Bytes) :=
  [(syncing, "\"Active\"", "null"), (cutOff, "\"Interrupted\"", "null"),
      (finished, "\"Completed\"", "\"2024-01-01T00:00:00Z\"")].map fun (session, status, done) =>
    (session, (["\x7b\n  \"session_id\": \"s\"", "\n  \"peer_id\": \"p\"",
      "\n  \"folder_path\": \"/f\"", "\n  \"status\": " ++ status,
      "\n  \"started_at\": \"2024-01-01T00:00:00Z\"",
      "\n  \"last_activity\": \"2024-01-01T00:00:00Z\"", "\n  \"completed_at\": " ++ done,
      "\n  \"completed_chunks\": []", "\n  \"pending_chunks\": [\n    \"c\"\n  ]",
      "\n  \"failed_chunks\": []", "\n  \"conflicts\": []", "\n  \"total_chunks\": 1",
      "\n  \"total_bytes\": 4", "\n  \"transferred_bytes\": 0", "\n  \"resume_token\": null",
      "\n  \"checkpoint_data\": null\n\x7d"].intersperse ",").flatMap fun part =>
        Text.utf8 part.toList)

lemma exists_syncing : ∃ manager : SyncPersistenceManager, manager.saveIntervalChunks = 50 ∧
    ∀ way, ∀ sample ∈ syncingSamples, manager.json.toBytes way sample.1 = sample.2 := by
  obtain ⟨codec, hcodec⟩ := FileCodec.exists_of_samples syncingSamples (by decide +kernel)
    (by decide +kernel) (by decide +kernel)
  exact ⟨⟨50, codec, .sorted Text⟩, rfl, hcodec⟩

end SyncPersistenceManager

end Landropic
