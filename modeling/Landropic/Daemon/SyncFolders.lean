import Landropic.Daemon.ConnectionHandler
import Landropic.Foundations.Runs

set_option autoImplicit false

/-!
# The folders of a daemon

A daemon keeps a file watcher for each folder that it syncs. Adding a folder starts its watcher,
keeps it, and indexes the folder; removing one drops the watchers of its path.

## Main definitions

* `Daemon.addSyncFolder`, `removeSyncFolder`, `listSyncFolders` — the calls of a daemon.
* `Daemon.Registry` — a daemon, and the paths whose last successful call was an addition.
* `Daemon.Registry.AllOrNothing` — a call does what it should, or nothing.
* `Daemon.Registry.Careful` — the calls that do.

## Main results

* `Daemon.DaemonState.addSyncFolder_cases` — what an addition does.
* `Daemon.Registry.Exact.allOrNothing_iff` — which calls are all or nothing.
* `Daemon.Registry.allOrNothing_run_iff` — the runs in which all calls are.
-/

namespace Landropic.Daemon

/-! ## Paths of folders -/

/-- The components of a path, by which paths are compared: empty parts and dots are left out, other
than a dot at the beginning. -/
def pathComponents (path : Text) : List Text :=
  let parts := path.splitOnP fun c => c == '/'
  let first :=
    if path.head? = some '/' then [['/']]
    else if parts.head? = some ['.'] then [['.']]
    else []
  first ++ parts.filter fun part => part ≠ [] ∧ part ≠ ['.']

/-- What the paths of sensitive directories contain. -/
def sensitivePatterns : List Text :=
  ["/etc".toList, "/sys".toList, "/proc".toList, "/dev".toList, "/.ssh".toList, "/.gnupg".toList,
    "/.aws".toList, "/.kube".toList, "/private/etc".toList, "/system".toList,
    "/library/keychains".toList, "c:\\windows\\system32".toList, "c:\\program files".toList]

/-- Checks if a path points to a sensitive system location. -/
def isSensitivePath (toLowercase : Text → Text) (path : Text) : Bool :=
  let pathStr := toLowercase path
  if sensitivePatterns.any fun pattern => decide (pattern <:+: pathStr) then true
  -- hidden files
  else (pathFileName path).any fun name => name.head? = some '.'

/-! ## A daemon and its calls -/

/-- A file watcher, and the task that handles its events. -/
structure FileWatcher where
  path : Text
  task : ℕ
  deriving DecidableEq

/-- The file watchers of a started daemon, and the event tasks that run. -/
structure DaemonState where
  fileWatchers : List FileWatcher
  eventTasks : List ℕ
  nextTask : ℕ

/-- A daemon that has just been started. -/
def DaemonState.new : DaemonState := ⟨[], [], 0⟩

/-- What an addition meets: the folder, the steps of setting up the watch, and the indexing. -/
structure FolderInput where
  pathExists : Bool
  isDir : Bool
  recommendedWatcher : Except Text Unit
  watch : Except Text Unit
  indexFolder : Except Text Unit

section Calls

variable (toLowercase : Text → Text) (state : DaemonState) (path : Text) (input : FolderInput)

/-- Start watching with a callback, up to the task that is spawned. -/
def FileWatcher.start (watcher : FileWatcher) : Except Text Unit := do
  if isSensitivePath toLowercase watcher.path then
    .error "Cannot watch sensitive system directory".toList
  input.recommendedWatcher
  input.watch

/-- The daemon with one more file watcher, whose task has been spawned. -/
def DaemonState.watching : DaemonState where
  fileWatchers := state.fileWatchers ++ [⟨path, state.nextTask⟩]
  eventTasks := state.eventTasks ++ [state.nextTask]
  nextTask := state.nextTask + 1

/-- Add a folder to watch and sync. -/
def addSyncFolder : Except Text Unit × DaemonState :=
  if input.pathExists = false then
    (.error ("Path does not exist: ".toList ++ path), state)
  else if input.isDir = false then
    (.error ("Path is not a directory: ".toList ++ path), state)
  else
    let watcher : FileWatcher := ⟨path, state.nextTask⟩
    match watcher.start toLowercase input with
    | .error e => (.error e, state)
    | .ok () =>
      -- the watcher is kept before the folder is indexed
      (input.indexFolder, state.watching path)

/-- Remove a folder from sync. The tasks of its watchers are not stopped. -/
def removeSyncFolder : Except Text Unit × DaemonState :=
  (.ok (), { state with
    fileWatchers :=
      state.fileWatchers.filter fun w => pathComponents w.path ≠ pathComponents path })

/-- Get list of synced folders. -/
def listSyncFolders : List Text := state.fileWatchers.map FileWatcher.path

/-- The watch of a folder can be set up. -/
def CanWatch : Prop :=
  input.pathExists = true ∧ input.isDir = true ∧ isSensitivePath toLowercase path = false ∧
    input.recommendedWatcher = .ok () ∧ input.watch = .ok ()

variable {toLowercase state path input}

lemma FileWatcher.start_eq_ok_iff {watcher : FileWatcher} :
    watcher.start toLowercase input = .ok () ↔ isSensitivePath toLowercase watcher.path = false ∧
      input.recommendedWatcher = .ok () ∧ input.watch = .ok () := by
  rw [start]
  cases isSensitivePath toLowercase watcher.path with
  | true => simp [bind, Except.bind]
  | false =>
    cases input.recommendedWatcher with
    | error e => simp [bind, Except.bind]
    | ok _ => simp [bind, Except.bind]

/-- **What an addition does**: it fails and changes nothing, if the watch cannot be set up, and
else there is one more watcher, whatever comes of the indexing. -/
theorem DaemonState.addSyncFolder_cases (state : DaemonState) (toLowercase : Text → Text)
    (path : Text) (input : FolderInput) :
    ¬ CanWatch toLowercase path input ∧
        (∃ e, addSyncFolder toLowercase state path input = (.error e, state)) ∨
      CanWatch toLowercase path input ∧
        addSyncFolder toLowercase state path input = (input.indexFolder, state.watching path) := by
  rw [addSyncFolder]
  cases hexists : input.pathExists with
  | false =>
    refine .inl ⟨fun h => ?_, _, if_pos rfl⟩
    rw [CanWatch, hexists] at h
    exact Bool.false_ne_true h.1
  | true =>
    rw [if_neg Bool.true_eq_false.mp]
    cases hdir : input.isDir with
    | false =>
      refine .inl ⟨fun h => ?_, _, if_pos rfl⟩
      rw [CanWatch, hdir] at h
      exact Bool.false_ne_true h.2.1
    | true =>
      rw [if_neg Bool.true_eq_false.mp]
      cases hstart : FileWatcher.start toLowercase input ⟨path, state.nextTask⟩ with
      | error e =>
        refine .inl ⟨fun h => ?_, e, by simp only [hstart]⟩
        rw [FileWatcher.start_eq_ok_iff.mpr h.2.2] at hstart
        cases hstart
      | ok _ =>
        refine .inr ⟨⟨hexists, hdir, FileWatcher.start_eq_ok_iff.mp hstart⟩, ?_⟩
        simp only [hstart]

end Calls

/-! ## What should be listed -/

/-- What happens to a daemon: the calls, and the end of an event task, whose channel is closed. -/
inductive FolderEvent
  | addSyncFolder (path : Text) (input : FolderInput)
  | removeSyncFolder (path : Text)
  | taskEnds (task : ℕ)

/-- A daemon, and the paths whose last successful call was an addition. -/
structure Registry where
  state : DaemonState
  added : Finset (List Text)

namespace Registry

/-- The registry of a daemon that has just been started. -/
def new : Registry := ⟨.new, ∅⟩

section Events

variable (toLowercase : Text → Text) (s : Registry)

/-- The result of a call, and the daemon after it. -/
def call : FolderEvent → Except Text Unit × DaemonState
  | .addSyncFolder path input => Daemon.addSyncFolder toLowercase s.state path input
  | .removeSyncFolder path => Daemon.removeSyncFolder s.state path
  | .taskEnds task => (.ok (), { s.state with eventTasks := s.state.eventTasks.erase task })

/-- The paths whose last successful call was an addition, after a call with a result. -/
def addedAfter (event : FolderEvent) (result : Except Text Unit) : Finset (List Text) :=
  match event, result with
  | .addSyncFolder path _, .ok () => insert (pathComponents path) s.added
  | .removeSyncFolder path, .ok () => s.added.erase (pathComponents path)
  | _, _ => s.added

/-- A daemon after an event. -/
def step (event : FolderEvent) : Registry :=
  ⟨(s.call toLowercase event).2, s.addedAfter event (s.call toLowercase event).1⟩

/-- The event as a step of a transition system; every event is possible. -/
def next (event : FolderEvent) : Option Registry := some (s.step toLowercase event)

/-- The paths that are listed. -/
def listed : List (List Text) := (listSyncFolders s.state).map pathComponents

/-- **Each path is listed at most once**, and those are whose last successful call was an
addition. -/
def Exact : Prop := s.listed.Nodup ∧ ∀ path, path ∈ s.listed ↔ path ∈ s.added

/-- A call is all or nothing: the list is exact after it, and a call that fails leaves the list and
the tasks of the watchers as they were. -/
def AllOrNothing (event : FolderEvent) : Prop :=
  (s.step toLowercase event).Exact ∧
    ∀ e, (s.call toLowercase event).1 = .error e →
      (s.call toLowercase event).2.fileWatchers = s.state.fileWatchers ∧
        (s.call toLowercase event).2.eventTasks = s.state.eventTasks

/-- The careful calls: a folder whose watch can be set up is not listed yet, and its indexing
succeeds. -/
def Careful : FolderEvent → Prop
  | .addSyncFolder path input => CanWatch toLowercase path input →
      pathComponents path ∉ s.listed ∧ input.indexFolder = .ok ()
  | .removeSyncFolder _ => True
  | .taskEnds _ => True

end Events

variable {toLowercase : Text → Text} {s : Registry} {path : Text} {input : FolderInput}

lemma exact_new : new.Exact := ⟨List.nodup_nil, fun _ => by simp [new, listed, listSyncFolders,
  DaemonState.new]⟩

lemma listed_watching (s : Registry) (path : Text) (added : Finset (List Text)) :
    listed ⟨s.state.watching path, added⟩ = s.listed ++ [pathComponents path] := by
  simp [listed, listSyncFolders, DaemonState.watching]

lemma listed_removeSyncFolder (s : Registry) (path : Text) (added : Finset (List Text)) :
    listed ⟨(removeSyncFolder s.state path).2, added⟩ =
      s.listed.filter fun p => p ≠ pathComponents path := by
  simp only [listed, listSyncFolders, removeSyncFolder, List.map_map, List.filter_map]
  rfl

lemma Exact.allOrNothing_add_iff (h : s.Exact) :
    s.AllOrNothing toLowercase (.addSyncFolder path input) ↔
      s.Careful toLowercase (.addSyncFolder path input) := by
  rw [AllOrNothing, Careful, step, call]
  rcases s.state.addSyncFolder_cases toLowercase path input with ⟨hcannot, e, heq⟩ | ⟨hcan, heq⟩
  · rw [heq]
    exact iff_of_true ⟨h, fun _ _ => ⟨rfl, rfl⟩⟩ fun hcan => absurd hcan hcannot
  · rw [heq]
    have hlisted := s.listed_watching path
      (s.addedAfter (.addSyncFolder path input) input.indexFolder)
    constructor
    · rintro ⟨⟨hnodup, -⟩, hfail⟩ -
      rw [hlisted] at hnodup
      refine ⟨fun hmem => ?_, ?_⟩
      · exact (List.nodup_append.mp hnodup).2.2 _ hmem _ (List.mem_singleton_self _) rfl
      · cases hindex : input.indexFolder with
        | ok _ => rfl
        | error e =>
          -- a watcher has been kept, although the call fails
          have hlength := congrArg List.length (hfail e hindex).1
          simp [DaemonState.watching] at hlength
    · intro hcareful
      obtain ⟨hnotMem, hindex⟩ := hcareful hcan
      refine ⟨⟨?_, fun p => ?_⟩, fun e he => ?_⟩
      · rw [hlisted]
        exact List.Nodup.append h.1 (List.nodup_singleton _)
          (List.disjoint_singleton.mpr hnotMem)
      · rw [hlisted, List.mem_append, List.mem_singleton, h.2 p, hindex, addedAfter,
          Finset.mem_insert, or_comm]
      · rw [hindex] at he
        cases he

lemma Exact.removeSyncFolder (h : s.Exact) :
    (s.step toLowercase (.removeSyncFolder path)).Exact := by
  have hlisted := s.listed_removeSyncFolder path (s.added.erase (pathComponents path))
  refine ⟨?_, fun p => ?_⟩
  · rw [step, call]
    exact hlisted ▸ h.1.filter _
  · rw [step, call]
    refine (Iff.of_eq (congrArg (p ∈ ·) hlisted)).trans ?_
    rw [List.mem_filter, h.2 p, decide_eq_true_eq, and_comm]
    exact Finset.mem_erase.symm

/-- **A call is all or nothing if and only if it is careful**, where the list is exact. -/
theorem Exact.allOrNothing_iff (h : s.Exact) {event : FolderEvent} :
    s.AllOrNothing toLowercase event ↔ s.Careful toLowercase event := by
  cases event with
  | addSyncFolder path input => exact h.allOrNothing_add_iff
  | removeSyncFolder path =>
    refine iff_of_true ⟨h.removeSyncFolder, fun e he => ?_⟩ trivial
    cases he
  | taskEnds task =>
    refine iff_of_true ⟨h, fun e he => ?_⟩ trivial
    cases he

/-- **Registering a folder is all-or-nothing** in exactly the runs whose calls are careful: no
folder that is listed is added again, and no folder whose watch has been set up fails to be indexed.
In such runs each path is listed at most once, and those are whose last successful call was an
addition.

**Proof sketch.** Where the list is exact, exactly the careful calls are all or nothing, and such
calls keep it exact. -/
theorem allOrNothing_run_iff (toLowercase : Text → Text) (s : Registry) :
    (Runs.Run (next toLowercase) (AllOrNothing toLowercase) new s ↔
      Runs.Run (next toLowercase) (Careful toLowercase) new s) ∧
    (Runs.Run (next toLowercase) (Careful toLowercase) new s → s.Exact) :=
  Runs.run_iff_run exact_new (fun h => h.allOrNothing_iff) fun {s₁ event s₂} _ hC hnext => by
    obtain rfl := Option.some.inj hnext
    exact hC.1

section Examples

/-- The addition of a folder that goes well. -/
private def addDocuments : FolderEvent :=
  .addSyncFolder "/docs".toList ⟨true, true, .ok (), .ok (), .ok ()⟩

/-- **A folder that is added twice is listed twice.** -/
theorem not_exact_addedTwice : ¬ ∀ (toLowercase : Text → Text) (s : Registry),
    Runs.Run (next toLowercase) (fun _ _ => True) new s → s.Exact := by
  intro hall
  have hrun : Runs.Run (next id) (fun _ _ => True) new
      ((new.step id addDocuments).step id addDocuments) :=
    .tail (.tail .refl ⟨addDocuments, trivial, rfl⟩) ⟨addDocuments, trivial, rfl⟩
  have hnodup := (hall id _ hrun).1
  revert hnodup
  decide

end Examples

end Registry

end Landropic.Daemon
