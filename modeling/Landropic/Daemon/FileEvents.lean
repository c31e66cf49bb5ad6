import Landropic.Foundations.Fs

set_option autoImplicit false

/-!
# File events of the daemon

The orchestrator of the daemon collects the events of its file watcher in a buffer. Once the
debounce window is over it takes the whole buffer, groups the events by what they say, and issues an
operation for each: the files that were created first, then those that were modified, and those that
were deleted last.

## Main definitions

* `Daemon.FileEvent`, `FileOperation` — the events, and the operations on files.
* `Daemon.SyncOrchestrator` — the state of the orchestrator.
* `Daemon.SyncOrchestrator.processDebouncedChanges` — the operations of a buffer.
* `Daemon.operationsOf` — the operations that events stand for, in their order.

## Main results

* `Daemon.SyncOrchestrator.issued_processDebouncedChanges` — a buffer is processed completely.
* `Daemon.SyncOrchestrator.replays_iff` — for which buffers the last operation on each path is that
  of its last event.

## Design

Durations and instants are numbers of nanoseconds. The callbacks of the orchestrator, its network
and the operations it shows in its status are left out.
-/

namespace Landropic.Daemon

/-- Type of file system change. -/
inductive FileEventKind
  | created
  | modified
  | deleted
  | renamed (fromPath toPath : FilePath)
  deriving DecidableEq

/-- File system change event. -/
structure FileEvent where
  path : FilePath
  kind : FileEventKind
  deriving DecidableEq

/-- File operation type. -/
inductive FileOperation
  | create
  | modify
  | delete
  deriving DecidableEq

/-- Configuration for the orchestrator. -/
structure OrchestratorConfig where
  /-- Maximum number of concurrent chunk operations. -/
  maxConcurrentChunks : ℕ
  /-- Debounce duration for file changes. -/
  debounceDuration : ℕ
  /-- Enable auto-sync on file changes. -/
  autoSync : Bool
  /-- Maximum retries for failed operations. -/
  maxRetries : ℕ
  /-- Batch size for processing file changes. -/
  batchSize : ℕ

/-- The default configuration. -/
def OrchestratorConfig.default : OrchestratorConfig where
  maxConcurrentChunks := 4
  debounceDuration := 500 * 1000000
  autoSync := true
  maxRetries := 3
  batchSize := 100

/-- Internal state for a pending file operation. -/
structure PendingOperation where
  path : FilePath
  kind : FileEventKind
  retryCount : ℕ
  lastAttempt : ℕ
  deriving DecidableEq

/-- Main actor-based sync orchestrator. -/
structure SyncOrchestrator where
  config : OrchestratorConfig
  syncedFolders : List FilePath
  activePeers : Finset Text
  pendingOperations : List PendingOperation
  debounceBuffer : List FileEvent
  lastDebounce : ℕ

/-! ## Batches -/

section Pieces

variable {α : Type} (size : ℕ)

/-- The pieces of a list: a piece is closed when it has `size` elements, and the last one may have
fewer. -/
def pieces : List α → List α → List (List α)
  | piece, [] => if piece = [] then [] else [piece]
  | piece, a :: rest =>
    if (piece ++ [a]).length ≥ size then (piece ++ [a]) :: pieces [] rest
    else pieces (piece ++ [a]) rest

@[simp] lemma flatten_pieces (piece rest : List α) :
    (pieces size piece rest).flatten = piece ++ rest := by
  fun_induction pieces size piece rest with
  | case1 => rfl
  | case2 piece h => simp
  | case3 piece a rest h ih => simp [ih]
  | case4 piece a rest h ih => simp [ih]

end Pieces

/-- The tasks that process a batch of files: those of one group run at the same time, and are waited
for before the next group starts. -/
def processFileBatch (config : OrchestratorConfig) (paths : List FilePath)
    (operation : FileOperation) : List (List (FilePath × FileOperation)) :=
  pieces config.maxConcurrentChunks [] (paths.map fun path => (path, operation))

/-- Process files in batches. -/
def processFiles (config : OrchestratorConfig) (paths : List FilePath)
    (operation : FileOperation) : List (List (FilePath × FileOperation)) :=
  (pieces config.batchSize [] paths).flatMap fun batch => processFileBatch config batch operation

@[simp] lemma flatten_processFiles (config : OrchestratorConfig) (paths : List FilePath)
    (operation : FileOperation) :
    (processFiles config paths operation).flatten = paths.map fun path => (path, operation) := by
  have hflatten (batches : List (List FilePath)) :
      (batches.flatMap fun batch => processFileBatch config batch operation).flatten =
        batches.flatten.map fun path => (path, operation) := by
    induction batches with
    | nil => rfl
    | cons batch batches ih =>
      rw [List.flatMap_cons, List.flatten_append, ih, processFileBatch, flatten_pieces]
      simp
  rw [processFiles, hflatten, flatten_pieces, List.nil_append]

/-! ## Grouping by operation type -/

/-- Paths by the type of operation. -/
structure Changes where
  creates : List FilePath
  modifies : List FilePath
  deletes : List FilePath

/-- Group an event by operation type. -/
def Changes.push (changes : Changes) (event : FileEvent) : Changes :=
  match event.kind with
  | .created => { changes with creates := changes.creates ++ [event.path] }
  | .modified => { changes with modifies := changes.modifies ++ [event.path] }
  | .deleted => { changes with deletes := changes.deletes ++ [event.path] }
  | .renamed fromPath toPath => { changes with
      creates := changes.creates ++ [toPath]
      deletes := changes.deletes ++ [fromPath] }

/-- Group events by operation type. -/
def groupChanges (events : List FileEvent) : Changes := events.foldl Changes.push ⟨[], [], []⟩

/-- The operations an event stands for. A rename deletes the one path and creates the other. -/
def FileEvent.operations (event : FileEvent) : List (FilePath × FileOperation) :=
  match event.kind with
  | .created => [(event.path, .create)]
  | .modified => [(event.path, .modify)]
  | .deleted => [(event.path, .delete)]
  | .renamed fromPath toPath => [(fromPath, .delete), (toPath, .create)]

/-- The operations some events stand for, in their order. -/
def operationsOf (events : List FileEvent) : List (FilePath × FileOperation) :=
  events.flatMap FileEvent.operations

/-- The paths on which there is a given operation. -/
def pathsOf (operation : FileOperation) (operations : List (FilePath × FileOperation)) :
    List FilePath :=
  (operations.filter fun entry => entry.2 = operation).map Prod.fst

lemma mem_pathsOf {operation : FileOperation} {operations : List (FilePath × FileOperation)}
    {path : FilePath} : path ∈ pathsOf operation operations ↔ (path, operation) ∈ operations := by
  simp [pathsOf]

/-- **The groups are those of the operations** that the events stand for. -/
lemma groupChanges_eq (events : List FileEvent) : groupChanges events =
    ⟨pathsOf .create (operationsOf events), pathsOf .modify (operationsOf events),
      pathsOf .delete (operationsOf events)⟩ := by
  induction events using List.reverseRecOn with
  | nil => rfl
  | append_singleton events event ih =>
    rw [groupChanges] at ih
    rw [groupChanges, List.foldl_append, ih, operationsOf, operationsOf, List.flatMap_append]
    obtain ⟨path, kind⟩ := event
    cases kind with
    | created => simp [Changes.push, pathsOf, FileEvent.operations]
    | modified => simp [Changes.push, pathsOf, FileEvent.operations]
    | deleted => simp [Changes.push, pathsOf, FileEvent.operations]
    | renamed fromPath toPath => simp [Changes.push, pathsOf, FileEvent.operations]

/-! ## Processing the buffer -/

/-- What a call that processes the buffer takes from it, and the tasks it starts. -/
structure Round where
  changes : List FileEvent
  groups : List (List (FilePath × FileOperation))

/-- The operations of a round, in the order in which they are issued. -/
def Round.issued (round : Round) : List (FilePath × FileOperation) := round.groups.flatten

namespace SyncOrchestrator

variable (orchestrator : SyncOrchestrator)

/-- Process debounced file changes. There is no result if this panics, because batches cannot have
the size zero. -/
def processDebouncedChanges (now : ℕ) : Option (Round × SyncOrchestrator) :=
  if orchestrator.debounceBuffer = [] then some (⟨[], []⟩, orchestrator)
  -- still within debounce window
  else if now - orchestrator.lastDebounce < orchestrator.config.debounceDuration then
    some (⟨[], []⟩, orchestrator)
  else if orchestrator.config.batchSize = 0 then none
  else
    -- take all pending changes
    let changes := orchestrator.debounceBuffer
    let grouped := groupChanges changes
    let config := orchestrator.config
    some (⟨changes, processFiles config grouped.creates .create ++
        processFiles config grouped.modifies .modify ++
        processFiles config grouped.deletes .delete⟩,
      { orchestrator with debounceBuffer := [], lastDebounce := now })

end SyncOrchestrator

/-! ## The last operation on a path -/

/-- The last operation on a path. -/
def lastOperation (operations : List (FilePath × FileOperation)) (path : FilePath) :
    Option FileOperation :=
  (HashMap.collect operations).lookup path

/-- The place of an operation in the order in which they are issued. -/
def FileOperation.rank : FileOperation → ℕ
  | create => 0
  | modify => 1
  | delete => 2

/-- Whether an operation deletes a file. -/
def FileOperation.deletes : FileOperation → Bool
  | delete => true
  | _ => false

/-- The last operation of a round on each path is that of the last event that concerns it. -/
def Round.Replays (round : Round) (events : List FileEvent) : Prop :=
  ∀ path, lastOperation round.issued path = lastOperation (operationsOf events) path

/-- The last operation of a round on each path deletes it if the last event that concerns it
does. -/
def Round.Settles (round : Round) (events : List FileEvent) : Prop :=
  ∀ path, (lastOperation round.issued path).map FileOperation.deletes =
    (lastOperation (operationsOf events) path).map FileOperation.deletes

/-- A path whose last event does not delete it is not deleted, and one whose last event creates it
is not modified. -/
def InOrder (operations : List (FilePath × FileOperation)) : Prop :=
  ∀ path operation, lastOperation operations path = some operation →
    ∀ other, (path, other) ∈ operations → other.rank ≤ operation.rank

/-- A path whose last event does not delete it is not deleted. -/
def NotRecreated (operations : List (FilePath × FileOperation)) : Prop :=
  ∀ path operation, lastOperation operations path = some operation → operation ≠ .delete →
    (path, FileOperation.delete) ∉ operations

section LastOperation

variable {operations : List (FilePath × FileOperation)} {path : FilePath}
variable {operation : FileOperation}

lemma mem_of_lastOperation (h : lastOperation operations path = some operation) :
    (path, operation) ∈ operations :=
  HashMap.mem_of_lookup_collect h

lemma exists_lastOperation (h : (path, operation) ∈ operations) :
    ∃ last, lastOperation operations path = some last :=
  Finmap.mem_iff.mp (HashMap.mem_collect.mpr (List.mem_map_of_mem (f := Prod.fst) h))

/-- Operations in the order in which they are issued. -/
def byKind (operations : List (FilePath × FileOperation)) : List (FilePath × FileOperation) :=
  ((pathsOf .create operations).map fun path => (path, FileOperation.create)) ++
    ((pathsOf .modify operations).map fun path => (path, FileOperation.modify)) ++
    ((pathsOf .delete operations).map fun path => (path, FileOperation.delete))

lemma lastOperation_byKind : lastOperation (byKind operations) path =
    if (path, .delete) ∈ operations then some .delete
    else if (path, .modify) ∈ operations then some .modify
    else if (path, .create) ∈ operations then some .create else none := by
  unfold lastOperation byKind
  rw [HashMap.lookup_collect_append, HashMap.lookup_collect_append,
    HashMap.lookup_collect_map_const, HashMap.lookup_collect_map_const,
    HashMap.lookup_collect_map_const]
  simp only [mem_pathsOf]
  split_ifs <;> rfl

/-- **The operation of the highest rank is issued last.** -/
lemma lastOperation_byKind_eq_some_iff :
    lastOperation (byKind operations) path = some operation ↔
      (path, operation) ∈ operations ∧
        ∀ other, (path, other) ∈ operations → other.rank ≤ operation.rank := by
  rw [lastOperation_byKind]
  have hall (P : FileOperation → Prop) : (∀ other, P other) ↔ P .create ∧ P .modify ∧ P .delete :=
    ⟨fun h => ⟨h _, h _, h _⟩, fun h other => by cases other <;> simp [h]⟩
  rw [hall]
  cases operation <;> simp only [FileOperation.rank] <;> split_ifs <;> simp_all

lemma lastOperation_byKind_eq_none (h : lastOperation operations path = none) :
    lastOperation (byKind operations) path = none := by
  rw [Option.eq_none_iff_forall_ne_some]
  intro operation hlast
  obtain ⟨last, hsome⟩ := exists_lastOperation (lastOperation_byKind_eq_some_iff.mp hlast).1
  rw [h] at hsome
  cases hsome

lemma lastOperation_byKind_eq_iff :
    lastOperation (byKind operations) path = lastOperation operations path ↔
      ∀ operation, lastOperation operations path = some operation →
        ∀ other, (path, other) ∈ operations → other.rank ≤ operation.rank := by
  cases hlast : lastOperation operations path with
  | none => exact iff_of_true (lastOperation_byKind_eq_none hlast) nofun
  | some operation =>
    rw [lastOperation_byKind_eq_some_iff, and_iff_right (mem_of_lastOperation hlast)]
    exact ⟨fun h _ hsome => Option.some.inj hsome ▸ h, fun h => h _ rfl⟩

/-- When the operation that is issued last deletes the path as the last one does. -/
lemma deletes_lastOperation_byKind_iff :
    (lastOperation (byKind operations) path).map FileOperation.deletes =
        (lastOperation operations path).map FileOperation.deletes ↔
      ∀ operation, lastOperation operations path = some operation → operation ≠ .delete →
        (path, FileOperation.delete) ∉ operations := by
  cases hlast : lastOperation operations path with
  | none =>
    rw [lastOperation_byKind_eq_none hlast]
    exact iff_of_true rfl nofun
  | some operation =>
    have hmem := mem_of_lastOperation hlast
    rw [lastOperation_byKind]
    by_cases hdelete : (path, FileOperation.delete) ∈ operations
    · rw [if_pos hdelete]
      cases operation <;> simp [FileOperation.deletes, hdelete]
    · have hne : operation ≠ .delete := fun h => hdelete (h ▸ hmem)
      rw [if_neg hdelete]
      refine iff_of_true ?_ fun _ _ _ => hdelete
      split_ifs with hmodify hcreate
      · cases operation <;> simp_all [FileOperation.deletes]
      · cases operation <;> simp_all [FileOperation.deletes]
      · cases operation <;> simp_all

end LastOperation

namespace SyncOrchestrator

variable {orchestrator : SyncOrchestrator} {now : ℕ}

/-- **A buffer is processed completely** once the window is over, by the kind of operation. -/
theorem issued_processDebouncedChanges
    (hwindow : orchestrator.config.debounceDuration ≤ now - orchestrator.lastDebounce)
    (hbatch : orchestrator.config.batchSize ≠ 0) :
    ∃ round next, orchestrator.processDebouncedChanges now = some (round, next) ∧
      round.changes = orchestrator.debounceBuffer ∧ (orchestrator.debounceBuffer ≠ [] →
        next = { orchestrator with debounceBuffer := [], lastDebounce := now }) ∧
      round.issued = byKind (operationsOf orchestrator.debounceBuffer) := by
  by_cases hbuffer : orchestrator.debounceBuffer = []
  · rw [processDebouncedChanges, if_pos hbuffer, hbuffer]
    exact ⟨_, _, rfl, rfl, fun h => absurd rfl h, rfl⟩
  · rw [processDebouncedChanges, if_neg hbuffer, if_neg hwindow.not_gt, if_neg hbatch]
    refine ⟨_, _, rfl, rfl, fun _ => rfl, ?_⟩
    simp only [Round.issued, List.flatten_append, flatten_processFiles, groupChanges_eq]
    rfl

/-- The last operations of a buffer whose batches have a size. -/
lemma exists_round_iff
    (hwindow : orchestrator.config.debounceDuration ≤ now - orchestrator.lastDebounce)
    {P : Round → Prop}
    (hempty : orchestrator.debounceBuffer = [] → P ⟨[], []⟩)
    (hissued : ∀ round round' : Round, round.issued = round'.issued → P round → P round') :
    (∃ round next, orchestrator.processDebouncedChanges now = some (round, next) ∧ P round) ↔
      (orchestrator.debounceBuffer = [] ∨ orchestrator.config.batchSize ≠ 0) ∧
        P ⟨[], [byKind (operationsOf orchestrator.debounceBuffer)]⟩ := by
  by_cases hbatch : orchestrator.config.batchSize = 0
  · by_cases hbuffer : orchestrator.debounceBuffer = []
    · rw [processDebouncedChanges, if_pos hbuffer, hbuffer]
      refine iff_of_true ⟨_, _, rfl, hempty hbuffer⟩ ⟨.inl rfl, hissued _ _ ?_ (hempty hbuffer)⟩
      rfl
    · rw [processDebouncedChanges, if_neg hbuffer, if_neg hwindow.not_gt, if_pos hbatch]
      refine iff_of_false ?_ fun h => h.1.elim hbuffer fun h => h hbatch
      rintro ⟨_, _, hnone, -⟩
      cases hnone
  · obtain ⟨round, next, hok, -, -, hround⟩ := issued_processDebouncedChanges hwindow hbatch
    have hsame : round.issued =
        Round.issued ⟨[], [byKind (operationsOf orchestrator.debounceBuffer)]⟩ := by
      rw [hround, Round.issued, List.flatten_singleton]
    rw [hok]
    constructor
    · rintro ⟨_, _, hpair, hP⟩
      obtain ⟨rfl, rfl⟩ := Prod.mk.inj (Option.some.inj hpair)
      exact ⟨.inr hbatch, hissued _ _ hsame hP⟩
    · rintro ⟨-, hP⟩
      exact ⟨_, _, rfl, hissued _ _ hsame.symm hP⟩

/-- **For which buffers the daemon replays its events**: batches have a size, and no path whose last
event does not delete it was deleted, nor one whose last event creates it modified. For the buffers
of the first kind alone, it at least ends with a deletion where the events do. -/
theorem replays_iff
    (hwindow : orchestrator.config.debounceDuration ≤ now - orchestrator.lastDebounce) :
    ((∃ round next, orchestrator.processDebouncedChanges now = some (round, next) ∧
        round.Replays orchestrator.debounceBuffer) ↔
      (orchestrator.debounceBuffer = [] ∨ orchestrator.config.batchSize ≠ 0) ∧
        InOrder (operationsOf orchestrator.debounceBuffer)) ∧
    ((∃ round next, orchestrator.processDebouncedChanges now = some (round, next) ∧
        round.Settles orchestrator.debounceBuffer) ↔
      (orchestrator.debounceBuffer = [] ∨ orchestrator.config.batchSize ≠ 0) ∧
        NotRecreated (operationsOf orchestrator.debounceBuffer)) := by
  have hissued (round round' : Round) (h : round.issued = round'.issued) (path : FilePath) :
      lastOperation round'.issued path = lastOperation round.issued path := by rw [h]
  constructor
  · rw [exists_round_iff hwindow (P := fun round => round.Replays orchestrator.debounceBuffer)
      (fun hbuffer path => by rw [hbuffer]; rfl)
      (fun round round' hsame h path => (hissued _ _ hsame path).trans (h path))]
    simp only [Round.Replays, Round.issued, List.flatten_singleton, lastOperation_byKind_eq_iff]
    rfl
  · rw [exists_round_iff hwindow (P := fun round => round.Settles orchestrator.debounceBuffer)
      (fun hbuffer path => by rw [hbuffer]; rfl)
      (fun round round' hsame h path =>
        (congrArg _ (hissued _ _ hsame path)).trans (h path))]
    simp only [Round.Settles, Round.issued, List.flatten_singleton,
      deletes_lastOperation_byKind_iff]
    rfl

/-- An orchestrator with the default configuration and some events in its buffer. -/
def buffering (events : List FileEvent) : SyncOrchestrator where
  config := .default
  syncedFolders := []
  activePeers := ∅
  pendingOperations := []
  debounceBuffer := events
  lastDebounce := 0

/-- A file is created and modified. -/
theorem replays_createdModified :
    ((∃ round next, (buffering [⟨[['a']], .created⟩, ⟨[['a']], .modified⟩]).processDebouncedChanges
        500000000 = some (round, next) ∧
        round.Replays [⟨[['a']], .created⟩, ⟨[['a']], .modified⟩]) ↔
      (([⟨[['a']], .created⟩, ⟨[['a']], .modified⟩] : List FileEvent) = [] ∨ 100 ≠ 0) ∧
        InOrder [([['a']], .create), ([['a']], .modify)]) ∧
    ((∃ round next, (buffering [⟨[['a']], .created⟩, ⟨[['a']], .modified⟩]).processDebouncedChanges
        500000000 = some (round, next) ∧
        round.Settles [⟨[['a']], .created⟩, ⟨[['a']], .modified⟩]) ↔
      (([⟨[['a']], .created⟩, ⟨[['a']], .modified⟩] : List FileEvent) = [] ∨ 100 ≠ 0) ∧
        NotRecreated [([['a']], .create), ([['a']], .modify)]) :=
  @replays_iff (buffering [⟨[['a']], .created⟩, ⟨[['a']], .modified⟩]) 500000000 (by decide)

/-- **A file that is deleted and created again is deleted last.** -/
theorem not_replays_deletedCreated :
    ¬ ∀ (orchestrator : SyncOrchestrator) (now : ℕ),
      orchestrator.config.debounceDuration ≤ now - orchestrator.lastDebounce →
        ∃ round next, orchestrator.processDebouncedChanges now = some (round, next) ∧
          round.Replays orchestrator.debounceBuffer := by
  intro h
  obtain ⟨round, next, hok, hreplays⟩ :=
    h (buffering [⟨[['a']], .deleted⟩, ⟨[['a']], .created⟩]) 500000000 (by decide)
  have hround : round.issued = [([['a']], .create), ([['a']], .delete)] := by
    rw [← (Prod.mk.inj (Option.some.inj hok)).1]
    decide
  have hlast := hreplays [['a']]
  rw [hround] at hlast
  revert hlast
  decide

end SyncOrchestrator

end Landropic.Daemon
