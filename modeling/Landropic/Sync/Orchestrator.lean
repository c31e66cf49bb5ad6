import Landropic.Foundations.Observers
import Landropic.Foundations.RwLock
import Landropic.Sync.PeerStates

set_option autoImplicit false

/-!
# The orchestrator of syncs

An orchestrator starts and completes syncs with peers, and schedules their transfers. What it knows
of the peers is in memory and in a database; an overall state counts the peers it is syncing with.
A call is a process that takes one lock after another, and may hold a lock while it waits for the
database or for another lock.

## Main definitions

* `TransferScheduler` — the queue of transfers.
* `SyncOrchestrator` — an orchestrator with its locks and its database.
* `SyncOrchestrator.new` — an orchestrator over a database.
* `SyncOrchestrator.startSync`, `handleManifestExchange`, `scheduleTransfer`, `nextTransfer`,
  `completeTransfer`, `completeSync` — its calls, as processes.
* `SyncOrchestrator.component` — an orchestrator that may crash and is created again.

## Main results

* `SyncOrchestrator.mem_activePeers` — which peers are counted.
* `SyncOrchestrator.activePeers_insert` — the count after the state of a peer changes.

## Design

An action is what a call does from the moment it has a lock to its next `await`. The lock of the
database and that of the progress are never held across an `await`, so they are not part of the
state. A write of the database is one transaction. How the database answers a call is a parameter of
the call. The counters of bytes and files wrap around as in a build without overflow checks.
-/

namespace Landropic

/-! ## The queue of transfers -/

/-- Transfer priority levels. -/
inductive TransferPriority
  | low
  | normal
  | high
  | critical
  deriving DecidableEq

/-- The number of a level. -/
def TransferPriority.toNat : TransferPriority → ℕ
  | low => 0
  | normal => 1
  | high => 2
  | critical => 3

/-- Transfer request. -/
structure TransferRequest where
  peerId : Text
  chunkHash : Text
  filePath : Text
  size : UInt64
  deriving DecidableEq

/-- Transfer scheduler. -/
structure TransferScheduler where
  /-- The requests with their priorities. -/
  queue : HashMap TransferRequest TransferPriority
  maxConcurrent : ℕ
  activeTransfers : ℕ

namespace TransferScheduler

variable (scheduler : TransferScheduler)

/-- A scheduler without transfers. -/
def new (maxConcurrent : ℕ) : TransferScheduler := ⟨∅, maxConcurrent, 0⟩

/-- Put a request into the queue, or change its priority. -/
def schedule (request : TransferRequest) (priority : TransferPriority) : TransferScheduler :=
  { scheduler with queue := scheduler.queue.insert request priority }

/-- A request with the highest priority; which of several it is depends on the order. -/
def top (order : IterOrder TransferRequest) : Option TransferRequest :=
  ((order.entries scheduler.queue).find? fun entry =>
    ∀ other ∈ order.entries scheduler.queue, other.2.toNat ≤ entry.2.toNat).map Prod.fst

/-- Take a request off the queue, unless there are as many transfers as there may be. -/
def nextTransfer (order : IterOrder TransferRequest) :
    Option TransferRequest × TransferScheduler :=
  if scheduler.activeTransfers ≥ scheduler.maxConcurrent then (none, scheduler)
  else
    match scheduler.top order with
    | none => (none, scheduler)
    | some request =>
      (some request, { scheduler with
        queue := scheduler.queue.erase request
        activeTransfers := scheduler.activeTransfers + 1 })

/-- A transfer is done. -/
def completeTransfer : TransferScheduler :=
  if scheduler.activeTransfers > 0 then
    { scheduler with activeTransfers := scheduler.activeTransfers - 1 }
  else scheduler

end TransferScheduler

/-! ## The orchestrator -/

/-- Overall sync state for the system. -/
inductive SyncOrchestrator.SyncState
  /-- No active sync operations. -/
  | idle
  /-- Currently syncing with one or more peers. -/
  | syncing (peerCount : ℕ) (startTime : DateTime)
  /-- Sync paused due to conflicts. -/
  | conflicted (conflictCount : ℕ)
  /-- Sync paused by user. -/
  | paused
  /-- Error state. -/
  | failed (error : Text) (timestamp : DateTime)
  deriving DecidableEq

/-- Overall sync progress. -/
structure SyncProgress where
  peerId : Text
  totalFiles : ℕ
  completedFiles : ℕ
  totalBytes : UInt64
  transferredBytes : UInt64
  startTime : DateTime
  estimatedCompletion : Option DateTime
  deriving DecidableEq

/-- The progress of a sync that starts. -/
def SyncProgress.new (now : DateTime) (peerId : Text) : SyncProgress where
  peerId := peerId
  totalFiles := 0
  completedFiles := 0
  totalBytes := 0
  transferredBytes := 0
  startTime := now
  estimatedCompletion := none

/-- Main sync orchestrator. -/
structure SyncOrchestrator where
  database : SyncDatabase
  state : SyncOrchestrator.SyncState
  peerStates : HashMap Text PeerSyncState
  scheduler : TransferScheduler
  progress : HashMap Text SyncProgress
  /-- The lock of the state. -/
  stateLock : LockCount
  /-- The lock of the states of the peers. -/
  peerLock : LockCount
  /-- The lock of the scheduler. -/
  schedulerLock : LockCount

/-- What an action of an orchestrator is about to do. -/
inductive SyncOp
  /-- Check whether a sync with the peer is active. -/
  | checkPeer (peerId : Text)
  /-- Write the state of a peer to the database, which may answer with an error. -/
  | saveState (databaseError : Option String) (peer : PeerSyncState)
  /-- Keep the state of a peer with whom a sync starts in memory. -/
  | insertPeer (peerId : Text)
  /-- Take the lock of the state. -/
  | lockState (peerId : Text)
  /-- Count the active peers, and change the state. -/
  | setSyncing (peerId : Text)
  | insertProgress (peerId : Text)
  | exchangeManifests (peerId : Text) (ourManifest theirManifest : Manifest)
  /-- Put a request into the queue. -/
  | enqueue (request : TransferRequest)
  /-- Add a request to the database, which may answer with an error. -/
  | addPending (databaseError : Option String) (request : TransferRequest)
      (priority : TransferPriority)
  | nextTransfer
  | completeTransfer (peerId chunkHash : Text)
  /-- Count a transfer for its peer. -/
  | countTransfer (peerId : Text)
  /-- Count a transfer for the progress of its sync. -/
  | countProgress (peerId : Text)
  /-- Change the state of a peer whose sync completes. -/
  | completePeer (peerId : Text)
  /-- Check whether any peer is active. -/
  | countActive
  | setIdle

/-- What an action takes from outside: the time, as it is read first and once more, the time of the
database, and the order among requests of the same priority. -/
structure SyncInput where
  now : DateTime
  later : DateTime
  created : ℤ
  order : IterOrder TransferRequest

/-- The process of a call. -/
abbrev SyncTask (α : Type) := Proc SyncOrchestrator SyncInput SyncOp SyncError α

/-- A sync with the peer is active. -/
def PeerState.isActive : PeerState → Bool
  | negotiating => true
  | transferring _ => true
  | _ => false

namespace SyncOrchestrator

open Proc

/-- A sync with the peer is active, as far as these states say. -/
def isActive (peerStates : HashMap Text PeerSyncState) (peerId : Text) : Bool :=
  (peerStates.lookup peerId).any fun peer => peer.currentState.isActive

/-- The peers with whom a sync is active. -/
def activePeers (peerStates : HashMap Text PeerSyncState) : Finset Text :=
  peerStates.keys.filter fun peerId => isActive peerStates peerId

section Calls

variable (env : SyncDatabase.Env)

/-- Create new orchestrator. -/
def new (maxConcurrentTransfers : ℕ) (database : SyncDatabase) : SyncOrchestrator where
  database := database
  state := .idle
  peerStates := database.getAllPeerStates env
  scheduler := .new maxConcurrentTransfers
  progress := ∅
  stateLock := .free
  peerLock := .free
  schedulerLock := .free

/-- An action that waits for a lock. -/
def locked {α : Type} (op : SyncOp) (ready : SyncOrchestrator → Bool)
    (f : SyncInput → SyncOrchestrator → Except SyncError α × SyncOrchestrator) : SyncTask α :=
  act op ready (fun i s => (f i s).2) fun i s => ret (f i s).1

/-- Write the state of a peer to a database that may answer with an error. -/
def store (databaseError : Option String) (peer : PeerSyncState) (database : SyncDatabase) :
    Except SyncError SyncDatabase :=
  match databaseError with
  | some msg => .error (.database msg)
  | none => database.upsertPeerState env peer

/-- Add a request to a database that may answer with an error. -/
def addPending (databaseError : Option String) (created : ℤ) (request : TransferRequest)
    (priority : TransferPriority) (database : SyncDatabase) : Except SyncError SyncDatabase :=
  match databaseError with
  | some msg => .error (.database msg)
  -- the id of the folder is not known here
  | none => database.addPendingTransfer env created request.peerId "default".toList request.filePath
      request.chunkHash priority.toNat

/-- The state of a peer with whom a sync starts. -/
def starting (peerId peerName : Text) : PeerSyncState where
  peerId := peerId
  peerName := peerName
  lastSync := none
  lastManifestHash := none
  bytesSent := 0
  bytesReceived := 0
  filesSent := 0
  filesReceived := 0
  currentState := .negotiating

/-- The state of a peer whose sync is complete. -/
def completed (i : SyncInput) (peer : PeerSyncState) : PeerSyncState :=
  { peer with currentState := .completed i.now, lastSync := some i.later }

/-- Start sync with a peer. -/
def startSync (databaseError : Option String) (peerId peerName : Text) : SyncTask Unit := do
  locked (.checkPeer peerId) (·.peerLock.canRead) fun _ s =>
    (if isActive s.peerStates peerId then .error (.alreadySyncing peerId) else .ok (), s)
  let peer := starting peerId peerName
  atom (.saveState databaseError peer) fun _ s =>
    match store env databaseError peer s.database with
    | .ok database => (.ok (), { s with database := database })
    | .error e => (.error e, s)
  locked (.insertPeer peerId) (·.peerLock.canWrite) fun _ s =>
    (.ok (), { s with peerStates := s.peerStates.insert peerId peer })
  -- the lock of the state is held while the call waits for that of the peers
  locked (.lockState peerId) (·.stateLock.canWrite) fun _ s =>
    (.ok (), { s with stateLock := { s.stateLock with writer := true } })
  locked (.setSyncing peerId) (·.peerLock.canRead) fun i s =>
    (.ok (), { s with
      state := .syncing (activePeers s.peerStates).card i.now
      stateLock := { s.stateLock with writer := false } })
  atom (.insertProgress peerId) fun i s =>
    (.ok (), { s with progress := s.progress.insert peerId (.new i.now peerId) })

/-- Handle manifest exchange. The manifests are not compared. -/
def handleManifestExchange (peerId : Text) (ourManifest theirManifest : Manifest) :
    SyncTask Unit :=
  locked (.exchangeManifests peerId ourManifest theirManifest) (·.peerLock.canWrite) fun _ s =>
    match s.peerStates.lookup peerId with
    | none => (.ok (), s)
    | some peer => (.ok (), { s with
        peerStates := s.peerStates.insert peerId { peer with currentState := .transferring ⟨0⟩ } })

/-- Schedule a transfer. -/
def scheduleTransfer (databaseError : Option String) (peerId filePath chunkHash : Text)
    (size : UInt64) (priority : TransferPriority) : SyncTask Unit := do
  let request : TransferRequest := ⟨peerId, chunkHash, filePath, size⟩
  -- the lock of the scheduler is held while the database is written
  locked (.enqueue request) (·.schedulerLock.canWrite) fun _ s =>
    (.ok (), { s with
      scheduler := s.scheduler.schedule request priority
      schedulerLock := { s.schedulerLock with writer := true } })
  atom (.addPending databaseError request priority) fun i s =>
    let s' := { s with schedulerLock := { s.schedulerLock with writer := false } }
    match addPending env databaseError i.created request priority s.database with
    | .ok database => (.ok (), { s' with database := database })
    | .error e => (.error e, s')

/-- Get next transfer to process. -/
def nextTransfer : SyncTask (Option TransferRequest) :=
  locked .nextTransfer (·.schedulerLock.canWrite) fun i s =>
    (.ok (s.scheduler.nextTransfer i.order).1,
      { s with scheduler := (s.scheduler.nextTransfer i.order).2 })

/-- Count a file that was transferred. -/
def countCompleted (peerId : Text) (bytes : UInt64) : SyncTask Unit :=
  atom (.countProgress peerId) fun _ s =>
    match s.progress.lookup peerId with
    | none => (.ok (), s)
    | some progress => (.ok (), { s with
        progress := s.progress.insert peerId { progress with
          transferredBytes := progress.transferredBytes + bytes
          completedFiles := progress.completedFiles + 1 } })

/-- Complete a transfer. -/
def completeTransfer (peerId chunkHash : Text) (bytes : UInt64) : SyncTask Unit := do
  locked (.completeTransfer peerId chunkHash) (·.schedulerLock.canWrite) fun _ s =>
    (.ok (), { s with scheduler := s.scheduler.completeTransfer })
  locked (.countTransfer peerId) (·.peerLock.canWrite) fun _ s =>
    match s.peerStates.lookup peerId with
    | none => (.ok (), s)
    | some peer => (.ok (), { s with
        peerStates := s.peerStates.insert peerId { peer with
          bytesReceived := peer.bytesReceived + bytes
          filesReceived := peer.filesReceived + 1 } })
  countCompleted peerId bytes

/-- Write the completed state of a peer, if there is one. The lock of the peers is held so far. -/
def saveCompleted (databaseError : Option String) : Option PeerSyncState → SyncTask Unit
  | none => pure ()
  | some peer => atom (.saveState databaseError peer) fun _ s =>
    let s' := { s with peerLock := { s.peerLock with writer := false } }
    match store env databaseError peer s.database with
    | .ok database => (.ok (), { s' with database := database })
    | .error e => (.error e, s')

/-- Go idle if no peer is active. The lock of the peers is held so far. -/
def goIdle (idle : Bool) : SyncTask Unit :=
  if idle then locked .setIdle (·.stateLock.canWrite) fun _ s =>
    (.ok (), { s with
      state := .idle
      peerLock := { s.peerLock with readers := s.peerLock.readers - 1 } })
  else pure ()

/-- Look whether any peer is active, and else go idle. -/
def countActive : SyncTask Unit := do
  let idle ← locked .countActive (·.peerLock.canRead) fun _ s =>
    if activePeers s.peerStates = ∅ then
      (.ok true, { s with peerLock := { s.peerLock with readers := s.peerLock.readers + 1 } })
    else (.ok false, s)
  goIdle idle

/-- Complete sync with a peer. -/
def completeSync (databaseError : Option String) (peerId : Text) : SyncTask Unit := do
  let peer ← locked (.completePeer peerId) (·.peerLock.canWrite) fun i s =>
    match s.peerStates.lookup peerId with
    | none => (.ok none, s)
    | some peer => (.ok (some (completed i peer)), { s with
        peerStates := s.peerStates.insert peerId (completed i peer)
        peerLock := { s.peerLock with writer := true } })
  saveCompleted env databaseError peer
  countActive

end Calls

end SyncOrchestrator

/-- A call of an orchestrator, and how the database answers it. -/
inductive SyncCall
  | startSync (databaseError : Option String) (peerId peerName : Text)
  | handleManifestExchange (peerId : Text) (ourManifest theirManifest : Manifest)
  | scheduleTransfer (databaseError : Option String) (peerId filePath chunkHash : Text)
      (size : UInt64) (priority : TransferPriority)
  | nextTransfer
  /-- The path is that of the file whose transfer is done; the code does not take it. -/
  | completeTransfer (filePath peerId chunkHash : Text) (bytes : UInt64)
  | completeSync (databaseError : Option String) (peerId : Text)

namespace SyncOrchestrator

variable (env : SyncDatabase.Env) (maxConcurrentTransfers : ℕ)

/-- The process of a call. -/
def code : SyncCall → SyncTask Unit
  | .startSync databaseError peerId peerName => startSync env databaseError peerId peerName
  | .handleManifestExchange peerId ours theirs => handleManifestExchange peerId ours theirs
  | .scheduleTransfer databaseError peerId filePath chunkHash size priority =>
    scheduleTransfer env databaseError peerId filePath chunkHash size priority
  | .nextTransfer => do
    let _ ← nextTransfer
  | .completeTransfer _ peerId chunkHash bytes => completeTransfer peerId chunkHash bytes
  | .completeSync databaseError peerId => completeSync env databaseError peerId

/-- An orchestrator that may crash, and is then created again from its database. -/
def component : Crashable SyncCall SyncOrchestrator SyncInput SyncOp SyncError Unit where
  code := code env
  crash _ _ s := new env maxConcurrentTransfers s.database

/-- An orchestrator at some moment. -/
abbrev Moment := Crashable.Machine SyncCall SyncOrchestrator Unit SyncInput SyncOp SyncError Unit

/-! ## Actions -/

section Actions

open Proc

variable {env} {s : SyncOrchestrator} {peer : PeerSyncState} {databaseError : Option String}
  {α : Type}

/-- An action that waits for a lock. -/
lemma throughout_locked {P : SyncOp → SyncOrchestrator → Prop}
    {Q : Except SyncError α → SyncOrchestrator → Prop} {op : SyncOp}
    {ready : SyncOrchestrator → Bool}
    {f : SyncInput → SyncOrchestrator → Except SyncError α × SyncOrchestrator} (hP : P op s)
    (hQ : ∀ i, Q (f i s).1 (f i s).2) : Throughout P Q (locked op ready f) s :=
  ⟨hP, fun _ => hQ⟩

/-- An action that waits for a lock and is observed. -/
lemma throughout_observe_locked {γ : Type} {x : SyncOrchestrator × γ}
    {P : SyncOp → SyncOrchestrator × γ → Prop}
    {Q : Except SyncError α → SyncOrchestrator × γ → Prop} {op : SyncOp}
    {ready : SyncOrchestrator → Bool}
    {f : SyncInput → SyncOrchestrator → Except SyncError α × SyncOrchestrator}
    {g : SyncOp → SyncInput → SyncOrchestrator → γ → γ} (hP : P op x)
    (hQ : ∀ i, Q (f i x.1).1 ((f i x.1).2, g op i x.1 x.2)) :
    Throughout P Q ((locked op ready f).observe g) x := ⟨hP, fun _ => hQ⟩

lemma store_eq_ok_iff {database database' : SyncDatabase} :
    store env databaseError peer database = .ok database' ↔
      databaseError = none ∧ database.upsertPeerState env peer = .ok database' := by
  unfold store
  cases databaseError with
  | none => simp
  | some msg => simp

lemma peers_of_addPending {database database' : SyncDatabase} {created : ℤ}
    {request : TransferRequest} {priority : TransferPriority}
    (h : addPending env databaseError created request priority database = .ok database') :
    database'.peers = database.peers := by
  unfold addPending at h
  cases databaseError with
  | some msg => cases h
  | none => exact SyncDatabase.peers_of_addPendingTransfer h

lemma exists_store (h : peer.CountersFit) (database : SyncDatabase) :
    ∃ database', store env none peer database = .ok database' := by
  obtain ⟨row, hrow⟩ : ∃ row, SyncDatabase.toRow env peer = .ok row :=
    SyncDatabase.exists_toRow h
  exact ⟨_, SyncDatabase.upsertPeerState_eq_ok_iff.mpr ⟨row, hrow, rfl⟩⟩

end Actions

/-! ## Active peers -/

variable {peerStates : HashMap Text PeerSyncState} {peerId : Text}

@[simp] lemma mem_activePeers : peerId ∈ activePeers peerStates ↔
    ∃ peer, peerStates.lookup peerId = some peer ∧ peer.currentState.isActive = true := by
  simp only [activePeers, isActive, Finset.mem_filter, Finmap.mem_keys, Option.any_eq_true]
  constructor
  · exact fun h => h.2
  · rintro ⟨peer, hpeer, hactive⟩
    exact ⟨Finmap.mem_iff.mpr ⟨peer, hpeer⟩, peer, hpeer, hactive⟩

lemma isActive_iff : isActive peerStates peerId = true ↔ peerId ∈ activePeers peerStates := by
  simp only [isActive, Option.any_eq_true, mem_activePeers]

lemma activePeers_insert (peer : PeerSyncState) : activePeers (peerStates.insert peerId peer) =
    if peer.currentState.isActive then insert peerId (activePeers peerStates)
    else (activePeers peerStates).erase peerId := by
  ext other
  by_cases hother : other = peerId
  · subst hother
    by_cases hactive : peer.currentState.isActive = true
    · simp [hactive]
    · simp [hactive]
  · by_cases hactive : peer.currentState.isActive = true
    · simp [hactive, Finmap.lookup_insert_of_ne _ hother, hother]
    · simp [hactive, Finmap.lookup_insert_of_ne _ hother, hother]

lemma activePeers_insert_of_lookup {peer peer' : PeerSyncState}
    (h : peerStates.lookup peerId = some peer)
    (hactive : peer'.currentState.isActive = peer.currentState.isActive) :
    activePeers (peerStates.insert peerId peer') = activePeers peerStates := by
  rw [activePeers_insert, hactive]
  split
  · next hon => exact Finset.insert_eq_self.mpr (mem_activePeers.mpr ⟨peer, h, hon⟩)
  · next hoff =>
    refine Finset.erase_eq_self.mpr fun hmem => hoff ?_
    obtain ⟨other, hother, hon⟩ := mem_activePeers.mp hmem
    rwa [Option.some.inj (h.symm.trans hother)]

/-! ## Sample inputs -/

lemma activePeers_empty (env : SyncDatabase.Env) :
    activePeers (SyncDatabase.empty.getAllPeerStates env) = ∅ := by
  ext peerId
  simp [SyncDatabase.lookup_getAllPeerStates, SyncDatabase.empty]

/-- The fields of a request as numbers. -/
def requestKey (request : TransferRequest) : List (List ℕ) :=
  [request.peerId.map Char.toNat, request.chunkHash.map Char.toNat,
    request.filePath.map Char.toNat, [request.size.toNat]]

lemma requestKey_injective : Function.Injective requestKey := by
  have hchars : Function.Injective (List.map Char.toNat) :=
    List.map_injective_iff.mpr fun _ _ h => Char.ext (UInt32.toNat_inj.mp h)
  rintro ⟨peerId, chunkHash, filePath, size⟩ ⟨peerId', chunkHash', filePath', size'⟩ h
  simp only [requestKey, List.cons.injEq, hchars.eq_iff, UInt64.toNat_inj] at h
  simp [h]

/-- An input at midnight. -/
def midnight : SyncInput := ⟨⟨1704067200, 0⟩, ⟨1704067200, 0⟩, 0, .sortedBy _ requestKey_injective⟩

/-- A call that runs to its end in so many actions. -/
def wholly (c : SyncCall) (actions : ℕ) : List (Crashable.Event SyncCall SyncInput) :=
  Crashable.Event.whole c (List.replicate actions midnight)

end SyncOrchestrator

end Landropic
