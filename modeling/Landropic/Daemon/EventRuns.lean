import Landropic.Daemon.FileEvents
import Landropic.Foundations.Runs

set_option autoImplicit false

/-!
# Runs of the daemon

The orchestrator of the daemon handles one message or tick after the other until it is told to shut
down. File operations may fail at any time, and so may the scan of a folder.

## Main definitions

* `Daemon.Input` — what the orchestrator handles, with what fails in it.
* `Daemon.History` — the orchestrator, the events it accepted and processed, and the operations it
  attempted.
* `Daemon.History.next`, `History.shutdown` — a step, and the end of a run.
* `Daemon.History.Processed` — every event that was accepted has been processed.
* `Daemon.History.Retried` — an operation that fails is queued and attempted again.

## Main results

* `Daemon.History.Tracked.of_run` — nothing is ever pending.
* `Daemon.History.keepsEvents_iff` — which runs lose neither events nor operations.

## Design

Of the files of a folder, the run is told which the scan found and whether they could be processed.
-/

namespace Landropic.Daemon

/-- An operation on a file that was attempted. -/
structure Attempt where
  path : FilePath
  operation : FileOperation
  ok : Bool
  /-- Whether the operation is pending afterwards. -/
  queued : Bool
  deriving DecidableEq

/-- What a scan of a folder comes upon. -/
structure FolderScan where
  /-- Whether the folder could be indexed. -/
  indexed : Bool
  /-- The files, and whether they could be processed. -/
  files : List (FilePath × Bool)
  /-- Whether all directories could be read. -/
  walked : Bool
  deriving DecidableEq

/-- What the orchestrator handles: a message, or a tick. The instant of a tick is given, and whether
each of the operations it issues succeeds. -/
inductive Input
  | fileChanged (event : FileEvent)
  | fileChangesBatch (events : List FileEvent)
  | peerDiscovered (deviceId : Text)
  | peerLost (peerId : Text)
  | syncRequested (peerId : Text) (path : FilePath) (scan : FolderScan)
  | addSyncFolder (path : FilePath) (isDir : Bool) (scan : FolderScan)
  | removeSyncFolder (path : FilePath)
  | getStatus
  | debounceTick (now : ℕ) (results : ℕ → Bool)
  | retryTick (now : ℕ)

namespace SyncOrchestrator

variable (orchestrator : SyncOrchestrator)

/-- Create a new orchestrator. -/
def new (config : OrchestratorConfig) (now : ℕ) : SyncOrchestrator where
  config := config
  syncedFolders := []
  activePeers := ∅
  pendingOperations := []
  debounceBuffer := []
  lastDebounce := now

/-- Whether an operation is pending. -/
def pending (operation : FilePath × FileOperation) : Bool :=
  orchestrator.pendingOperations.any fun op =>
    operation ∈ FileEvent.operations ⟨op.path, op.kind⟩

/-- Retry the operations of a list; the result is what is still pending, and the events that are
processed again. -/
def retryOperations (maxRetries now : ℕ) :
    List PendingOperation → List PendingOperation × List FileEvent
  | [] => ([], [])
  | op :: rest =>
    let (stillPending, events) := retryOperations maxRetries now rest
    if op.retryCount ≥ maxRetries then (stillPending, events)
    else if now - op.lastAttempt < 30 * 1000000000 then (op :: stillPending, events)
    else
      ({ op with retryCount := op.retryCount + 1, lastAttempt := now } :: stillPending,
        ⟨op.path, op.kind⟩ :: events)

/-- Retry failed operations. The events that are put into the buffer again are returned. -/
def retryFailedOperations (now : ℕ) : List FileEvent × SyncOrchestrator :=
  let (stillPending, events) :=
    retryOperations orchestrator.config.maxRetries now orchestrator.pendingOperations
  (events, { orchestrator with
    pendingOperations := stillPending
    debounceBuffer := orchestrator.debounceBuffer ++ events })

end SyncOrchestrator

/-- Process a folder for synchronization: the files that are processed, and whether that goes on to
the end. A file that cannot be processed does not stop it. -/
def processFolderForSync (scan : FolderScan) : List (FilePath × Bool) × Bool :=
  if scan.indexed then (scan.files, scan.walked) else ([], false)

/-- The orchestrator, and what it has done. -/
structure History where
  daemon : SyncOrchestrator
  /-- The events that were put into the buffer. -/
  pushed : List FileEvent
  /-- Those that were taken from it. -/
  processed : List FileEvent
  attempts : List Attempt

namespace History

/-- A new orchestrator. -/
def new (config : OrchestratorConfig) (now : ℕ) : History := ⟨.new config now, [], [], []⟩

variable (h : History)

/-- Put events into the buffer. -/
def push (events : List FileEvent) : History :=
  { h with
    daemon := { h.daemon with debounceBuffer := h.daemon.debounceBuffer ++ events }
    pushed := h.pushed ++ events }

/-- Attempt the operations of a folder. -/
def scanFolder (scan : FolderScan) : History :=
  { h with attempts := h.attempts ++ (processFolderForSync scan).1.map fun file =>
    ⟨file.1, .create, file.2, h.daemon.pending (file.1, .create)⟩ }

/-- Operations with the results of their attempts. -/
def attempted (daemon : SyncOrchestrator) (results : ℕ → Bool)
    (operations : List (FilePath × FileOperation)) : List Attempt :=
  operations.zipIdx.map fun entry =>
    ⟨entry.1.1, entry.1.2, results entry.2, daemon.pending entry.1⟩

/-- Process the buffer. Operations that fail are only logged. -/
def process (now : ℕ) (results : ℕ → Bool) : Option History :=
  (h.daemon.processDebouncedChanges now).map fun result =>
    { h with
      daemon := result.2
      processed := h.processed ++ result.1.changes
      attempts := h.attempts ++ attempted result.2 results result.1.issued }

/-- Handle a message or a tick. There is no next state if this panics. -/
def next : Input → Option History
  | .fileChanged event => some (h.push [event])
  | .fileChangesBatch events => some (h.push events)
  | .peerDiscovered deviceId => some { h with
      daemon := { h.daemon with activePeers := insert deviceId h.daemon.activePeers } }
  | .peerLost peerId => some { h with
      daemon := { h.daemon with activePeers := h.daemon.activePeers.erase peerId } }
  | .syncRequested peerId _ scan =>
    if peerId ∈ h.daemon.activePeers then some (h.scanFolder scan) else some h
  | .addSyncFolder path isDir scan =>
    if isDir = false ∨ path ∈ h.daemon.syncedFolders then some h
    else if (processFolderForSync scan).2 then
      some { h.scanFolder scan with
        daemon := { h.daemon with syncedFolders := h.daemon.syncedFolders ++ [path] } }
    else some (h.scanFolder scan)
  | .removeSyncFolder path => some { h with
      daemon := { h.daemon with syncedFolders := h.daemon.syncedFolders.filter (· ≠ path) } }
  | .getStatus => some h
  | .debounceTick now results => h.process now results
  | .retryTick now =>
    let (events, daemon) := h.daemon.retryFailedOperations now
    some { h with daemon := daemon, pushed := h.pushed ++ events }

/-- Graceful shutdown. There is no result if this panics. -/
def shutdown (now : ℕ) (results : ℕ → Bool) : Option History :=
  -- process any remaining debounced changes
  if h.daemon.debounceBuffer ≠ [] then h.process now results else some h

/-- Every event that was put into the buffer has been processed. -/
def Processed : Prop := ∀ event, h.pushed.count event ≤ h.processed.count event

/-- An operation that fails is queued, and attempted again until it succeeds or has been retried
as often as it may be, or the run ends while it is pending. -/
def Retried : Prop :=
  ∀ earlier attempt later, h.attempts = earlier ++ attempt :: later → attempt.ok = false →
    attempt.queued ∧
      ((∃ again ∈ later, again.path = attempt.path ∧ again.operation = attempt.operation ∧
          again.ok = true) ∨
        h.daemon.config.maxRetries ≤ later.countP (fun again =>
          again.path = attempt.path ∧ again.operation = attempt.operation) ∨
        h.daemon.pending (attempt.path, attempt.operation))

end History

/-! ## What is tracked -/

lemma perm_byKind (operations : List (FilePath × FileOperation)) :
    (byKind operations).Perm operations := by
  have hkind (operation : FileOperation) :
      (pathsOf operation operations).map (fun path => (path, operation)) =
        operations.filter fun entry => entry.2 = operation := by
    rw [pathsOf, List.map_map]
    refine (List.map_congr_left fun entry hentry => ?_).trans (List.map_id _)
    have hop : entry.2 = operation := by simpa using (List.mem_filter.mp hentry).2
    simp [← hop]
  have hcount (entry : FilePath × FileOperation) (operation : FileOperation) :
      (operations.filter fun entry => entry.2 = operation).count entry =
        if entry.2 = operation then operations.count entry else 0 := by
    split
    · next h => exact List.count_filter (by simpa using h)
    · next h => exact List.count_eq_zero.mpr fun hmem => h (by simpa using List.of_mem_filter hmem)
  rw [List.perm_iff_count]
  intro entry
  obtain ⟨path, operation⟩ := entry
  simp only [byKind, hkind, List.count_append, hcount]
  cases operation <;> simp

namespace History

variable {h h' : History}

/-- The events in the buffer are those that are left of the events that were put into it, nothing
is pending, and the operations of the processed events have been attempted. -/
structure Tracked (h : History) : Prop where
  pushed : h.pushed = h.processed ++ h.daemon.debounceBuffer
  pending : h.daemon.pendingOperations = []
  queued : ∀ attempt ∈ h.attempts, attempt.queued = false
  attempted : ∀ operation ∈ operationsOf h.processed, ∃ attempt ∈ h.attempts,
    (attempt.path, attempt.operation) = operation

lemma Tracked.new (config : OrchestratorConfig) (now : ℕ) : Tracked (.new config now) where
  pushed := rfl
  pending := rfl
  queued := nofun
  attempted := nofun

/-- Nothing is tracked that depends on the folders and peers. -/
lemma Tracked.of_eq (ht : h.Tracked) (hpushed : h'.pushed = h.pushed)
    (hprocessed : h'.processed = h.processed) (hattempts : h'.attempts = h.attempts)
    (hbuffer : h'.daemon.debounceBuffer = h.daemon.debounceBuffer)
    (hpending : h'.daemon.pendingOperations = h.daemon.pendingOperations) : h'.Tracked where
  pushed := by rw [hpushed, hprocessed, hbuffer, ht.pushed]
  pending := hpending.trans ht.pending
  queued := hattempts ▸ ht.queued
  attempted := by
    rw [hprocessed, hattempts]
    exact ht.attempted

lemma Tracked.push (ht : h.Tracked) (events : List FileEvent) : (h.push events).Tracked where
  pushed := by
    simp only [History.push]
    rw [ht.pushed, List.append_assoc]
  pending := ht.pending
  queued := ht.queued
  attempted := ht.attempted

lemma Tracked.scanFolder (ht : h.Tracked) (scan : FolderScan) : (h.scanFolder scan).Tracked where
  pushed := ht.pushed
  pending := ht.pending
  queued := by
    intro attempt hattempt
    obtain hold | hnew := List.mem_append.mp hattempt
    · exact ht.queued attempt hold
    · obtain ⟨file, -, rfl⟩ := List.mem_map.mp hnew
      simp [SyncOrchestrator.pending, ht.pending]
  attempted := by
    intro operation hoperation
    obtain ⟨attempt, hattempt, heq⟩ := ht.attempted operation hoperation
    exact ⟨attempt, List.mem_append_left _ hattempt, heq⟩

/-- **What processing the buffer does**: nothing while the window is open, or everything. -/
lemma process_cases {now : ℕ} {results : ℕ → Bool} (hprocess : h.process now results = some h') :
    ((h.daemon.debounceBuffer = [] ∨
        now - h.daemon.lastDebounce < h.daemon.config.debounceDuration) ∧ h' = h) ∨
      (h.daemon.config.debounceDuration ≤ now - h.daemon.lastDebounce ∧
        h'.pushed = h.pushed ∧ h'.processed = h.processed ++ h.daemon.debounceBuffer ∧
        h'.daemon = { h.daemon with debounceBuffer := [], lastDebounce := now } ∧
        h'.attempts = h.attempts ++
          attempted h'.daemon results (byKind (operationsOf h.daemon.debounceBuffer))) := by
  obtain ⟨⟨round, daemon⟩, hround, rfl⟩ := Option.map_eq_some_iff.mp hprocess
  dsimp only
  by_cases hbuffer : h.daemon.debounceBuffer = []
  · rw [SyncOrchestrator.processDebouncedChanges, if_pos hbuffer] at hround
    obtain ⟨rfl, rfl⟩ := Prod.mk.inj (Option.some.inj hround)
    exact .inl ⟨.inl hbuffer, by simp [Round.issued, History.attempted]⟩
  by_cases hwindow : now - h.daemon.lastDebounce < h.daemon.config.debounceDuration
  · rw [SyncOrchestrator.processDebouncedChanges, if_neg hbuffer, if_pos hwindow] at hround
    obtain ⟨rfl, rfl⟩ := Prod.mk.inj (Option.some.inj hround)
    exact .inl ⟨.inr hwindow, by simp [Round.issued, History.attempted]⟩
  by_cases hbatch : h.daemon.config.batchSize = 0
  · rw [SyncOrchestrator.processDebouncedChanges, if_neg hbuffer, if_neg hwindow,
      if_pos hbatch] at hround
    cases hround
  · obtain ⟨round', next', hok, hchanges, hnext, hissued⟩ :=
      SyncOrchestrator.issued_processDebouncedChanges (not_lt.mp hwindow) hbatch
    rw [hround] at hok
    obtain ⟨rfl, rfl⟩ := Prod.mk.inj (Option.some.inj hok)
    refine .inr ⟨not_lt.mp hwindow, rfl, by rw [hchanges], hnext hbuffer, by rw [hissued]⟩

/-- Operations are attempted in their order. -/
lemma mem_attempted {daemon : SyncOrchestrator} {results : ℕ → Bool}
    {operations : List (FilePath × FileOperation)} {operation : FilePath × FileOperation}
    (hmem : operation ∈ operations) :
    ∃ attempt ∈ attempted daemon results operations,
      (attempt.path, attempt.operation) = operation := by
  obtain ⟨i, hi⟩ := List.mem_iff_getElem?.mp hmem
  exact ⟨_, List.mem_map.mpr ⟨(operation, i), List.mk_mem_zipIdx_iff_getElem?.mpr hi, rfl⟩, rfl⟩

lemma Tracked.process (ht : h.Tracked) {now : ℕ} {results : ℕ → Bool}
    (hprocess : h.process now results = some h') : h'.Tracked := by
  obtain ⟨-, rfl⟩ | ⟨-, hpushed, hprocessed, hdaemon, hattempts⟩ := process_cases hprocess
  · exact ht
  have hpending : h'.daemon.pendingOperations = [] := by
    rw [hdaemon]
    exact ht.pending
  constructor
  · rw [hpushed, hprocessed, ht.pushed, hdaemon, List.append_nil]
  · exact hpending
  · intro attempt hattempt
    rw [hattempts] at hattempt
    obtain hold | hnew := List.mem_append.mp hattempt
    · exact ht.queued attempt hold
    · obtain ⟨entry, -, rfl⟩ := List.mem_map.mp hnew
      simp [SyncOrchestrator.pending, hpending]
  · intro operation hoperation
    rw [hprocessed, operationsOf, List.flatMap_append] at hoperation
    rw [hattempts]
    obtain hold | hnew := List.mem_append.mp hoperation
    · obtain ⟨attempt, hattempt, heq⟩ := ht.attempted operation hold
      exact ⟨attempt, List.mem_append_left _ hattempt, heq⟩
    · obtain ⟨attempt, hattempt, heq⟩ := mem_attempted ((perm_byKind _).mem_iff.mpr hnew)
      exact ⟨attempt, List.mem_append_right _ hattempt, heq⟩

/-- **Nothing is ever pending**, as nothing puts a failed operation into the queue. -/
theorem Tracked.next (ht : h.Tracked) {input : Input} (hnext : h.next input = some h') :
    h'.Tracked := by
  cases input with
  | fileChanged event =>
    obtain rfl := Option.some.inj hnext
    exact ht.push _
  | fileChangesBatch events =>
    obtain rfl := Option.some.inj hnext
    exact ht.push _
  | peerDiscovered deviceId =>
    obtain rfl := Option.some.inj hnext
    exact ht.of_eq rfl rfl rfl rfl rfl
  | peerLost peerId =>
    obtain rfl := Option.some.inj hnext
    exact ht.of_eq rfl rfl rfl rfl rfl
  | syncRequested peerId path scan =>
    rw [History.next] at hnext
    split_ifs at hnext with hpeer
    · obtain rfl := Option.some.inj hnext
      exact ht.scanFolder scan
    · obtain rfl := Option.some.inj hnext
      exact ht
  | addSyncFolder path isDir scan =>
    rw [History.next] at hnext
    split_ifs at hnext with hskip hok
    · obtain rfl := Option.some.inj hnext
      exact ht
    · obtain rfl := Option.some.inj hnext
      exact (ht.scanFolder scan).of_eq rfl rfl rfl rfl rfl
    · obtain rfl := Option.some.inj hnext
      exact ht.scanFolder scan
  | removeSyncFolder path =>
    obtain rfl := Option.some.inj hnext
    exact ht.of_eq rfl rfl rfl rfl rfl
  | getStatus =>
    obtain rfl := Option.some.inj hnext
    exact ht
  | debounceTick now results => exact ht.process hnext
  | retryTick now =>
    rw [History.next, SyncOrchestrator.retryFailedOperations, ht.pending] at hnext
    obtain rfl := Option.some.inj hnext
    refine ht.of_eq ?_ rfl rfl ?_ ht.pending.symm
    · exact List.append_nil _
    · exact List.append_nil _

/-- What is tracked along a run. -/
theorem Tracked.of_run {config : OrchestratorConfig} {start : ℕ}
    (hrun : Runs.Run History.next (fun _ _ => True) (.new config start) h) : h.Tracked :=
  hrun.invariant (.new config start) fun _ ht _ hnext => ht.next hnext

/-- **Operations are retried if none fails**, and otherwise one is not queued. -/
lemma Tracked.retried_iff (ht : h.Tracked) :
    h.Retried ↔ ∀ attempt ∈ h.attempts, attempt.ok = true := by
  constructor
  · intro hretried attempt hattempt
    by_contra hfail
    obtain ⟨earlier, later, hsplit⟩ := List.append_of_mem hattempt
    have hqueued := (hretried earlier attempt later hsplit (Bool.eq_false_of_not_eq_true hfail)).1
    rw [ht.queued attempt hattempt] at hqueued
    cases hqueued
  · intro hok earlier attempt later hsplit hfail
    have hmem : attempt ∈ h.attempts := by
      rw [hsplit]
      exact List.mem_append_right _ List.mem_cons_self
    rw [hok attempt hmem] at hfail
    cases hfail

/-- **Every event has been processed if the buffer is empty.** -/
lemma Tracked.processed_iff (ht : h.Tracked) : h.Processed ↔ h.daemon.debounceBuffer = [] := by
  unfold Processed
  rw [ht.pushed]
  constructor
  · intro hprocessed
    refine List.eq_nil_iff_forall_not_mem.mpr fun event hmem => ?_
    have hpos := List.count_pos_iff.mpr hmem
    have hle := hprocessed event
    rw [List.count_append] at hle
    omega
  · intro hbuffer event
    rw [hbuffer, List.append_nil]

/-- **Which runs lose neither events nor operations**: those in which no operation fails, and at
whose end the buffer is empty or the window over.

**Proof sketch.** Along a run the events in the buffer are those that were pushed and not processed,
and nothing is pending. So an operation that fails is not queued. At the end the buffer is
processed, unless the window is still open. -/
theorem keepsEvents_iff {config : OrchestratorConfig} {start : ℕ}
    (hrun : Runs.Run History.next (fun _ _ => True) (.new config start) h) :
    (h.Retried ↔ ∀ attempt ∈ h.attempts, attempt.ok = true) ∧
    ∀ (now : ℕ) (results : ℕ → Bool) (h' : History), h.shutdown now results = some h' →
      ((h'.Processed ∧ h'.Retried) ↔
        (h.daemon.debounceBuffer = [] ∨
          h.daemon.config.debounceDuration ≤ now - h.daemon.lastDebounce) ∧
        ∀ attempt ∈ h'.attempts, attempt.ok = true) := by
  have ht := Tracked.of_run hrun
  refine ⟨ht.retried_iff, fun now results h' hshutdown => ?_⟩
  rw [shutdown] at hshutdown
  split_ifs at hshutdown with hbuffer
  · have ht' := ht.process hshutdown
    rw [ht'.processed_iff, ht'.retried_iff, or_iff_right hbuffer]
    refine and_congr_left fun _ => ?_
    obtain ⟨hopen, rfl⟩ | ⟨hwindow, -, -, hdaemon, -⟩ := process_cases hshutdown
    · exact iff_of_false hbuffer fun hwindow => hopen.elim hbuffer hwindow.not_gt
    · rw [hdaemon]
      exact iff_of_true rfl hwindow
  · obtain rfl := Option.some.inj hshutdown
    rw [ht.processed_iff, ht.retried_iff]
    exact and_congr_left fun _ => iff_of_true (not_not.mp hbuffer) (.inl (not_not.mp hbuffer))

/-- A file was created. -/
def createdEvent : FileEvent := ⟨[['a']], .created⟩

/-- The file has been processed after the window. -/
def created : History where
  daemon := { SyncOrchestrator.new .default 0 with lastDebounce := 500000000 }
  pushed := [createdEvent]
  processed := [createdEvent]
  attempts := [⟨[['a']], .create, true, false⟩]

/-- The daemon processes a file that was created, and shuts down. -/
theorem keepsEvents_created :
    (created.Retried ↔ ∀ attempt ∈ created.attempts, attempt.ok = true) ∧
    ∀ (now : ℕ) (results : ℕ → Bool) (h' : History), created.shutdown now results = some h' →
      ((h'.Processed ∧ h'.Retried) ↔
        (created.daemon.debounceBuffer = [] ∨
          created.daemon.config.debounceDuration ≤ now - created.daemon.lastDebounce) ∧
        ∀ attempt ∈ h'.attempts, attempt.ok = true) := by
  have hexec : Runs.exec History.next (fun _ _ => True)
      [.fileChanged createdEvent, .debounceTick 500000000 fun _ => true]
      (.new .default 0) = some created := rfl
  exact keepsEvents_iff (Runs.run_of_exec hexec)

/-- **An event is lost if the daemon shuts down** within the window in which it arrives. -/
theorem not_keepsEvents_earlyShutdown :
    ¬ ∀ (config : OrchestratorConfig) (start : ℕ) (h : History),
      Runs.Run History.next (fun _ _ => True) (.new config start) h → h.Retried ∧
        ∀ (now : ℕ) (results : ℕ → Bool) (h' : History), h.shutdown now results = some h' →
          h'.Processed ∧ h'.Retried := by
  intro hall
  have hrun := hall .default 0 _
    (Runs.Run.step (e := .fileChanged createdEvent) trivial rfl)
  have hprocessed := (hrun.2 100000000 (fun _ => true) _ rfl).1 createdEvent
  revert hprocessed
  decide

end History

end Landropic.Daemon
