import Landropic.Foundations.Runs
import Landropic.Index.Debouncer
import Landropic.Index.Indexer

set_option autoImplicit false

/-!
# The folder watcher

A watcher polls the events of the file system, drops those that match a pattern, lets the others
settle in a debouncer, and forwards them in batches to a task that indexes a folder again for each
of them.

## Main definitions

* `FolderWatcher.tick` — a round of the loop that processes events.
* `FolderWatcher.handleFsEvent` — what the task does with an event.
* `FolderWatcher.next` — the steps of the file system, the watcher and the task.
* `FolderWatcher.Due` — an event that gets a folder indexed is under way.

## Main results

* `FolderWatcher.exists_entry_iff` — what a run of the indexer lists.
* `FolderWatcher.caughtUp_of_run` — when the manifests catch up with the folders.
* `FolderWatcher.not_caughtUp_removed` — they do not when a file is removed.

## Design

Files are given by their paths, and a manifest by the paths that it lists. Files can change while a
folder is indexed, so a run of the indexer may or may not see those that have come or gone since it
began. Names are texts, and runs of the indexer succeed.
-/

namespace Landropic

/-- Check if a path should be ignored based on patterns. -/
def shouldIgnorePath (path : FilePath) (patterns : List Text) : Bool :=
  let name := path.headD []
  patterns.any fun pattern => if '*' ∈ pattern then globMatch pattern name else name = pattern

/-- The paths that an event is about. -/
def FsEvent.paths (event : FsEvent) : List FilePath := event.path :: event.oldPath.toList

instance (paths : Finset FilePath) (event : FsEvent) :
    Decidable (EventDebouncer.Fits paths event) :=
  match event with
  | ⟨.created, path, _⟩ => inferInstanceAs (Decidable (path ∉ paths))
  | ⟨.modified, path, _⟩ => inferInstanceAs (Decidable (path ∈ paths))
  | ⟨.removed, path, _⟩ => inferInstanceAs (Decidable (path ∈ paths))
  | ⟨.renamed, path, oldPath⟩ =>
    inferInstanceAs (Decidable (∃ old ∈ oldPath, old ∈ paths ∧ old ≠ path))
  | ⟨.attributeChanged, path, _⟩ => inferInstanceAs (Decidable (path ∈ paths))
  | ⟨.rescan, _, _⟩ => inferInstanceAs (Decidable False)

deriving instance DecidableEq for EventDebouncer

/-- Folder watcher. -/
structure FolderWatcher where
  /-- Watched folders, with their identifiers. -/
  watchedFolders : HashMap FilePath Text
  /-- The order in which they are visited. -/
  order : IterOrder FilePath
  /-- Patterns to ignore. -/
  ignorePatterns : List Text
  /-- Maximum events to batch before processing. -/
  batchSize : ℕ
  /-- The indexer. -/
  indexer : FileIndexer

/-- The file system, the watcher, the task that handles events, and what has been indexed. -/
structure FolderWatcher.State where
  /-- The files that exist. -/
  files : Finset FilePath
  /-- The events that the platform watcher has not been asked for yet. -/
  queue : List FsEvent
  debouncer : EventDebouncer
  batch : List FsEvent
  /-- The events that the task has not received yet. -/
  channel : List FsEvent
  /-- The folder that is indexed, and the paths that have come or gone since that began. -/
  indexing : Option (FilePath × Finset FilePath)
  /-- The paths in the manifest that was last produced for each folder. -/
  manifests : HashMap FilePath (Finset FilePath)
  /-- The paths that events have been about. -/
  touched : Finset FilePath
  deriving DecidableEq

/-- The steps of the file system, the watcher and the task. -/
inductive FolderWatcher.Step
  /-- A file changes. -/
  | change (event : FsEvent)
  /-- A round of the loop, with when each event that it polls is added, and when it looks for those
  that have settled. -/
  | tick (times : List ℕ) (order : IterOrder FilePath) (now : ℕ)
  /-- The task receives an event. -/
  | receive
  /-- The folder that is indexed has been, with the files that the indexer met. -/
  | indexed (seen : Finset FilePath)

namespace FolderWatcher

variable (w : FolderWatcher)

/-- Check if an event should be ignored based on patterns. -/
def shouldIgnoreEvent (event : FsEvent) : Bool := shouldIgnorePath event.path w.ignorePatterns

/-- Filter and debounce events. -/
def addEvents (events : List (FsEvent × ℕ)) (debouncer : EventDebouncer) : EventDebouncer :=
  events.foldl (fun debouncer event =>
    if w.shouldIgnoreEvent event.1 then debouncer else debouncer.addEvent event.1 event.2) debouncer

/-- Put events into the batch, which is forwarded to the channel when it is full. -/
def addToBatch : List FsEvent → List FsEvent × List FsEvent → List FsEvent × List FsEvent
  | [], state => state
  | event :: ready, (batch, channel) =>
    if w.batchSize ≤ (batch ++ [event]).length then
      addToBatch ready ([], channel ++ (batch ++ [event]))
    else addToBatch ready (batch ++ [event], channel)

/-- A round of the loop that processes events. -/
def tick (times : List ℕ) (order : IterOrder FilePath) (now : ℕ) (s : State) : State :=
  let (ready, debouncer) := (w.addEvents (s.queue.zip times) s.debouncer).getReadyEvents order now
  let (batch, channel) := w.addToBatch ready (s.batch, s.channel)
  let (batch, channel) :=
    if batch ≠ [] ∧ debouncer.pending = ∅ then ([], channel ++ batch) else (batch, channel)
  { s with
    queue := s.queue.drop times.length
    debouncer := debouncer
    batch := batch
    channel := channel }

/-- Find which watched folder a path belongs to. -/
def findFolder (path : FilePath) : Option FilePath :=
  ((w.order.entries w.watchedFolders).find? fun entry => entry.1 <:+ path).map Prod.fst

/-- Handle a single file system event: the folder that is indexed again. -/
def handleFsEvent (event : FsEvent) : Option FilePath :=
  (w.findFolder event.path).bind fun folder =>
    match event.kind with
    | .created | .modified | .renamed => some folder
    -- removals are not handled in the indexer
    | .removed => none
    | .attributeChanged => some folder
    | .rescan => some folder

/-- A folder contains a path that the indexer does not ignore. -/
def Covers (folder path : FilePath) : Prop :=
  folder <:+ path ∧ path ≠ folder ∧
    ∀ name ∈ path.take (path.length - folder.length), w.indexer.shouldIgnore name.utf8 = false

instance (folder path : FilePath) : Decidable (w.Covers folder path) :=
  inferInstanceAs (Decidable (_ ∧ _ ∧ _))

/-- The paths that a manifest of a folder lists. -/
def listing (folder : FilePath) (files : Finset FilePath) : Finset FilePath :=
  files.filter (w.Covers folder)

/-- A change of a file, which the platform watcher notices. -/
def change (event : FsEvent) (s : State) : State :=
  let files := event.apply false s.files
  { s with
    files := files
    queue := s.queue ++ [event]
    indexing := s.indexing.map fun run => (run.1, run.2 ∪ symmDiff s.files files)
    touched := s.touched ∪ event.paths.toFinset }

/-- The steps. -/
def next (s : State) : Step → Option State
  | .change event =>
    if EventDebouncer.Fits s.files event then some (change event s) else none
  | .tick times order now =>
    if times.length ≤ s.queue.length then some (w.tick times order now s) else none
  | .receive =>
    match s.indexing, s.channel with
    | none, event :: channel => some { s with
        channel := channel
        indexing := (w.handleFsEvent event).map fun folder => (folder, ∅) }
    | _, _ => none
  | .indexed seen =>
    match s.indexing with
    | some (folder, dirty) =>
      if symmDiff seen s.files ⊆ dirty then some { s with
          indexing := none
          manifests := s.manifests.insert folder (w.listing folder seen) }
      else none
    | none => none

/-- A watcher that has just been started. -/
def State.start (delay : ℕ) (files : Finset FilePath)
    (manifests : HashMap FilePath (Finset FilePath)) : State where
  files := files
  queue := []
  debouncer := .new delay
  batch := []
  channel := []
  indexing := none
  manifests := manifests
  touched := ∅

/-- All events have been forwarded and handled. -/
structure State.Quiet (s : State) : Prop where
  queue : s.queue = []
  debouncer : s.debouncer.pending = ∅
  batch : s.batch = []
  channel : s.channel = []
  indexing : s.indexing = none

/-- An event has been about a path that the folder contains. -/
def Touched (folder : FilePath) (s : State) : Prop := ∃ path ∈ s.touched, w.Covers folder path

/-- The manifest of each folder that contains a changed path lists what the folder contains. -/
def CaughtUp (s : State) : Prop :=
  ∀ folder ∈ w.watchedFolders, w.Touched folder s →
    s.manifests.lookup folder = some (w.listing folder s.files)

/-! ## The indexer -/

/-- A tree is what the indexer meets in a folder that contains these files. -/
structure Shows (tree : FolderTree) (folder : FilePath) (files : Finset FilePath) : Prop where
  file : ∀ path : FilePath, (∃ data, tree.lookup (path.map Text.utf8) = some (.file data)) ↔
    path ≠ [] ∧ path ++ folder ∈ files
  dir : ∀ {below path : FilePath}, below ≠ [] → path ≠ [] → below ++ path ++ folder ∈ files →
    tree.lookup (path.map Text.utf8) = some .dir
  text : ∀ path ∈ tree, ∃ names : FilePath, names.map Text.utf8 = path
  plain : ∀ {path node}, tree.lookup path = some node → node = .dir ∨ ∃ data, node = .file data

section Indexer

variable {w} {tree : FolderTree} {files : Finset FilePath}
variable {folder path : FilePath}

lemma covers_append : w.Covers folder (path ++ folder) ↔
    path ≠ [] ∧ ∀ name ∈ path, w.indexer.shouldIgnore name.utf8 = false := by
  simp [Covers]

lemma mem_listing :
    path ∈ w.listing folder files ↔ path ∈ files ∧ w.Covers folder path := Finset.mem_filter

lemma Shows.entered_iff {below : FilePath} (h : Shows tree folder files) (hbelow : below ≠ [])
    (hmem : below ++ path ++ folder ∈ files) :
    w.indexer.Entered tree (path.map Text.utf8) ↔
      ∀ name ∈ path, w.indexer.shouldIgnore name.utf8 = false := by
  induction path generalizing below with
  | nil => simp [FileIndexer.Entered]
  | cons name path ih =>
    have hdir := h.dir hbelow (List.cons_ne_nil name path) hmem
    have hrest := @ih (below ++ [name]) (by simp) (by simpa using hmem)
    rw [List.map_cons] at hdir ⊢
    rw [FileIndexer.Entered, hrest, FileIndexer.actionAt, hdir, List.forall_mem_cons, and_comm]
    refine and_congr_left fun _ => ?_
    rw [Option.elim_some, FileIndexer.action]
    cases w.indexer.shouldIgnore name.utf8 <;> simp

/-- **What the walk lists** are the files of the folder, without those that are ignored. -/
lemma Shows.listed_iff (h : Shows tree folder files) :
    w.indexer.Listed tree (path.map Text.utf8) ↔ path ++ folder ∈ w.listing folder files := by
  rw [mem_listing, covers_append]
  cases path with
  | nil => simp [FileIndexer.Listed]
  | cons name path =>
    rw [List.map_cons, FileIndexer.Listed, FileIndexer.actionAt, List.forall_mem_cons]
    by_cases hmem : name :: path ++ folder ∈ files
    · obtain ⟨data, hdata⟩ := (h.file (name :: path)).mpr ⟨List.cons_ne_nil _ _, hmem⟩
      rw [List.map_cons] at hdata
      rw [h.entered_iff (List.cons_ne_nil name []) (by simpa using hmem), hdata,
        Option.elim_some, FileIndexer.action, and_iff_right hmem]
      cases w.indexer.shouldIgnore name.utf8 <;> simp
    · refine iff_of_false (fun hlisted => ?_) fun hfile => hmem hfile.1
      cases hnode : tree.lookup (name.utf8 :: path.map Text.utf8) with
      | none =>
        rw [hnode] at hlisted
        cases hlisted.2
      | some node =>
        obtain rfl | ⟨data, rfl⟩ := h.plain hnode
        · have haction := hlisted.2
          rw [hnode, Option.elim_some, FileIndexer.action] at haction
          split at haction <;> cases haction
        · exact hmem ((h.file (name :: path)).mp ⟨data, hnode⟩).2

/-- **What a run of the indexer lists**: the manifest that it returns has the paths of the files
that the folder contains. -/
theorem exists_entry_iff {blake3 : Bytes → ContentHash} {json : ChunkListJson} {scan : Scan}
    {db : Database} {m : Manifest} (hok : (w.indexer.indexFolder blake3 json scan db).1 = .ok m)
    (hshows : Shows scan.tree folder files) (hfault : ∀ path, scan.fileFault path = none)
    {text : Text} : (∃ entry ∈ m.files, entry.path = text) ↔
      ∃ path, path ++ folder ∈ w.listing folder files ∧
        FileIndexer.pathText scan (path.map Text.utf8) = text := by
  rw [(FileIndexer.describes_of_ok hok).exists_path_iff, FileIndexer.Shown]
  constructor
  · rintro ⟨names, ⟨hlisted, -, hdata⟩, rfl⟩
    have hmem : names ∈ scan.tree := by
      by_contra hnot
      rw [FileIndexer.dataAt, Finmap.lookup_eq_none.mpr hnot] at hdata
      exact hdata rfl
    obtain ⟨path, rfl⟩ := hshows.text names hmem
    exact ⟨path, hshows.listed_iff.mp hlisted, rfl⟩
  · rintro ⟨path, hpath, rfl⟩
    refine ⟨path.map Text.utf8, ⟨hshows.listed_iff.mpr hpath, hfault _, ?_⟩, rfl⟩
    have hne : path ≠ [] := (covers_append.mp (mem_listing.mp hpath).2).1
    obtain ⟨data, hdata⟩ := (hshows.file path).mpr ⟨hne, (mem_listing.mp hpath).1⟩
    rw [FileIndexer.dataAt, hdata]
    exact Option.some_ne_none data

end Indexer

/-! ## What is under way -/

/-- What waits for each path after an event has been polled. -/
def await (waiting : FilePath → Option FsEvent) (event : FsEvent) : FilePath → Option FsEvent :=
  if w.shouldIgnoreEvent event then waiting else Function.update waiting event.path (some event)

/-- The events that are let out if nothing more happens: the last one of each path. -/
def upcoming (s : State) : FilePath → Option FsEvent := s.queue.foldl w.await s.debouncer.waiting

/-- An event that gets a folder indexed is under way. -/
def Due (folder : FilePath) (s : State) : Prop :=
  (∃ path event, w.upcoming s path = some event ∧ w.handleFsEvent event = some folder) ∨
    ∃ event ∈ s.channel ++ s.batch, w.handleFsEvent event = some folder

/-- A folder needs no event: its manifest lists what it contains, or will. -/
inductive Fresh (folder : FilePath) (s : State) : Prop
  /-- It is not being indexed, and its manifest lists what it contains. -/
  | listed : (∀ dirty, s.indexing ≠ some (folder, dirty)) →
      s.manifests.lookup folder = some (w.listing folder s.files) → Fresh folder s
  /-- It is being indexed, and nothing in it has come or gone since that began. -/
  | indexing (dirty : Finset FilePath) : s.indexing = some (folder, dirty) →
      (∀ path ∈ dirty, ¬ w.Covers folder path) → Fresh folder s

/-- After a change, an event is under way for each folder that contains a changed path, or for which
one was under way before, or the folder needs none. -/
def Heeded (s : State) : Step → Prop
  | .change event => ∀ folder ∈ w.watchedFolders,
      (∃ path ∈ event.paths, w.Covers folder path) ∨ w.Touched folder s ∧ w.Due folder s →
        w.Due folder (change event s) ∨ w.Fresh folder (change event s)
  | _ => True

section Invariant

variable {w} {s s' : State} {folder path : FilePath} {event : FsEvent}

lemma waiting_addEvents (w : FolderWatcher) (events : List (FsEvent × ℕ))
    (debouncer : EventDebouncer) : (w.addEvents events debouncer).waiting =
      (events.map Prod.fst).foldl w.await debouncer.waiting := by
  induction events generalizing debouncer with
  | nil => rfl
  | cons event events ih =>
    rw [addEvents, List.foldl_cons, List.map_cons, List.foldl_cons, await]
    by_cases hignore : w.shouldIgnoreEvent event.1
    · rw [if_pos hignore, if_pos hignore]
      exact ih debouncer
    · rw [if_neg hignore, if_neg hignore, ← EventDebouncer.waiting_addEvent]
      exact ih _

lemma keyed_addEvents {debouncer : EventDebouncer} (h : debouncer.Keyed)
    (events : List (FsEvent × ℕ)) : (w.addEvents events debouncer).Keyed := by
  induction events generalizing debouncer with
  | nil => exact h
  | cons event events ih =>
    rw [addEvents, List.foldl_cons]
    by_cases hignore : w.shouldIgnoreEvent event.1
    · rw [if_pos hignore]
      exact ih h
    · rw [if_neg hignore]
      exact ih (h.addEvent _ _)

lemma foldl_await_cases (w : FolderWatcher) (events : List FsEvent) (path : FilePath) :
    (∃ event, ∀ waiting, events.foldl w.await waiting path = some event) ∨
      ∀ waiting, events.foldl w.await waiting path = waiting path := by
  induction events using List.reverseRecOn with
  | nil => exact .inr fun waiting => rfl
  | append_singleton events last ih =>
    simp only [List.foldl_append, List.foldl_cons, List.foldl_nil]
    by_cases hlast : w.shouldIgnoreEvent last = false ∧ path = last.path
    · obtain ⟨hkeep, rfl⟩ := hlast
      refine .inl ⟨last, fun waiting => ?_⟩
      rw [await, if_neg (by simp [hkeep]), Function.update_self]
    · have hsame : ∀ waiting, w.await waiting last path = waiting path := by
        intro waiting
        rw [await]
        split
        · rfl
        · next hkeep =>
          exact Function.update_of_ne (fun hpath => hlast ⟨by simpa using hkeep, hpath⟩) _ _
      simpa only [hsame] using ih

lemma channel_addToBatch (w : FolderWatcher) (ready batch channel : List FsEvent) :
    (w.addToBatch ready (batch, channel)).2 ++ (w.addToBatch ready (batch, channel)).1 =
      channel ++ batch ++ ready := by
  induction ready generalizing batch channel with
  | nil => rw [addToBatch, List.append_nil]
  | cons event ready ih =>
    rw [addToBatch]
    split
    · rw [ih]
      simp
    · rw [ih]
      simp

/-- What a round lets out is in the batch and the channel. -/
lemma channel_tick (w : FolderWatcher) (times : List ℕ) (order : IterOrder FilePath) (now : ℕ)
    (s : State) : (w.tick times order now s).channel ++ (w.tick times order now s).batch =
      s.channel ++ s.batch ++
        ((w.addEvents (s.queue.zip times) s.debouncer).getReadyEvents order now).1 := by
  rw [← channel_addToBatch w]
  simp only [tick]
  split
  · rw [List.append_nil]
  · rfl

lemma map_fst_polled (events : List FsEvent) (times : List ℕ) :
    (events.zip times).map Prod.fst = events.take times.length := by
  induction events generalizing times with
  | nil => simp
  | cons event events ih =>
    cases times with
    | nil => rfl
    | cons time times => simp [ih]

/-- **A round keeps what is under way**: an event that waits is let out, or waits on. -/
lemma Due.tick (hkeyed : s.debouncer.Keyed) (h : w.Due folder s) (times : List ℕ)
    (order : IterOrder FilePath) (now : ℕ) : w.Due folder (w.tick times order now s) := by
  set polled := w.addEvents (s.queue.zip times) s.debouncer with hpolled
  have hready : ∀ event ∈ (polled.getReadyEvents order now).1,
      w.handleFsEvent event = some folder → w.Due folder (w.tick times order now s) := by
    intro event hevent hfolder
    refine .inr ⟨event, ?_, hfolder⟩
    rw [channel_tick]
    exact List.mem_append_right _ hevent
  obtain ⟨path, event, hupcoming, hfolder⟩ | ⟨event, hevent, hfolder⟩ := h
  · have hwaiting : polled.waiting =
        (s.queue.take times.length).foldl w.await s.debouncer.waiting := by
      rw [hpolled, waiting_addEvents, map_fst_polled]
    have hsplit : (s.queue.drop times.length).foldl w.await polled.waiting path = some event := by
      rw [hwaiting, ← List.foldl_append, List.take_append_drop]
      exact hupcoming
    have hafter : w.upcoming (w.tick times order now s) =
        (s.queue.drop times.length).foldl w.await (polled.getReadyEvents order now).2.waiting := rfl
    obtain ⟨last, hlast⟩ | hsame := foldl_await_cases w (s.queue.drop times.length) path
    · refine .inl ⟨path, event, ?_, hfolder⟩
      rw [hafter, hlast, ← hlast polled.waiting, hsplit]
    · rw [hsame] at hsplit
      by_cases hlet : ∃ other ∈ (polled.getReadyEvents order now).1, other.path = path
      · obtain ⟨other, hother, rfl⟩ := hlet
        have hwaits := (EventDebouncer.waiting_of_mem (keyed_addEvents hkeyed _) hother).1
        obtain rfl := Option.some.inj (hwaits.symm.trans hsplit)
        exact hready other hother hfolder
      · refine .inl ⟨path, event, ?_, hfolder⟩
        rw [hafter, hsame, EventDebouncer.waiting_of_forall_ne (keyed_addEvents hkeyed _)
          fun other hother hpath => hlet ⟨other, hother, hpath⟩]
        exact hsplit
  · refine .inr ⟨event, ?_, hfolder⟩
    rw [channel_tick]
    exact List.mem_append_left _ hevent

/-- **When an event is under way after a change**: the one of the change gets the folder indexed, or
one does that is not replaced by it. -/
lemma due_change_iff : w.Due folder (change event s) ↔
    w.shouldIgnoreEvent event = false ∧ w.handleFsEvent event = some folder ∨
    (∃ path other, w.upcoming s path = some other ∧ w.handleFsEvent other = some folder ∧
      (w.shouldIgnoreEvent event ∨ path ≠ event.path)) ∨
    ∃ other ∈ s.channel ++ s.batch, w.handleFsEvent other = some folder := by
  have hupcoming : w.upcoming (change event s) = w.await (w.upcoming s) event := by
    rw [upcoming, change, List.foldl_append]
    rfl
  rw [Due, hupcoming, await]
  by_cases hignore : w.shouldIgnoreEvent event
  · simp [hignore, change]
  · simp only [hignore, Bool.false_eq_true, if_false, false_or, true_and, change]
    rw [← or_assoc]
    refine or_congr_left ?_
    constructor
    · rintro ⟨path, other, hother, hfolder⟩
      by_cases hpath : path = event.path
      · subst hpath
        rw [Function.update_self] at hother
        obtain rfl := Option.some.inj hother
        exact .inl hfolder
      · rw [Function.update_of_ne hpath] at hother
        exact .inr ⟨path, other, hother, hfolder, hpath⟩
    · rintro (hfolder | ⟨path, other, hother, hfolder, hpath⟩)
      · exact ⟨event.path, event, Function.update_self .., hfolder⟩
      · exact ⟨path, other, by rw [Function.update_of_ne hpath, hother], hfolder⟩

/-! ## What a manifest lists -/

lemma listing_congr {files files' : Finset FilePath}
    (h : ∀ path ∈ symmDiff files files', ¬ w.Covers folder path) :
    w.listing folder files = w.listing folder files' := by
  ext path
  rw [mem_listing, mem_listing]
  refine and_congr_left fun hcovers => ?_
  have hmem : path ∉ symmDiff files files' := fun hmem => h path hmem hcovers
  rw [Finset.mem_symmDiff] at hmem
  tauto

lemma symmDiff_apply_subset (event : FsEvent) (files : Finset FilePath) :
    symmDiff files (event.apply false files) ⊆ event.paths.toFinset := by
  intro path hmem
  by_contra hnot
  have heffect : FsEvent.effect false path event = none := by
    simp only [FsEvent.paths, List.toFinset_cons, Finset.mem_insert, List.mem_toFinset,
      Option.mem_toList, not_or] at hnot
    cases hkind : event.kind <;> simp [FsEvent.effect, hkind, hnot.1, eq_comm, hnot.2]
  have hsame : path ∈ event.apply false files ↔ path ∈ files := by
    rw [FsEvent.mem_apply, heffect]
    simp
  rw [Finset.mem_symmDiff, hsame] at hmem
  tauto

lemma Fresh.change (h : w.Fresh folder s) (hpaths : ∀ path ∈ event.paths, ¬ w.Covers folder path) :
    w.Fresh folder (change event s) := by
  have hdiff : ∀ path ∈ symmDiff s.files (event.apply false s.files), ¬ w.Covers folder path :=
    fun path hmem => hpaths path (List.mem_toFinset.mp (symmDiff_apply_subset event s.files hmem))
  cases h with
  | listed hnot hlookup =>
    refine .listed (fun dirty hindexing => ?_) (hlookup.trans (congrArg some (listing_congr hdiff)))
    obtain ⟨⟨_, before⟩, hrun, heq⟩ := Option.map_eq_some_iff.mp hindexing
    obtain ⟨rfl, -⟩ := Prod.mk.inj heq
    exact hnot before hrun
  | indexing dirty hindexing hclean =>
    refine .indexing (dirty ∪ symmDiff s.files (event.apply false s.files)) ?_ fun path hmem => ?_
    · rw [FolderWatcher.change, hindexing]
      rfl
    · obtain hmem | hmem := Finset.mem_union.mp hmem
      · exact hclean path hmem
      · exact hdiff path hmem

/-! ## Runs -/

/-- An event is under way for each folder that contains a changed path, or the folder needs none. -/
structure Tracked (w : FolderWatcher) (s : State) : Prop where
  keyed : s.debouncer.Keyed
  due_or_fresh : ∀ folder ∈ w.watchedFolders, w.Touched folder s →
    w.Due folder s ∨ w.Fresh folder s

lemma tracked_start (w : FolderWatcher) (delay : ℕ) (files : Finset FilePath)
    (manifests : HashMap FilePath (Finset FilePath)) :
    Tracked w (.start delay files manifests) where
  keyed := EventDebouncer.keyed_new delay
  due_or_fresh := by
    intro folder _ htouched
    obtain ⟨path, hpath, -⟩ := htouched
    exact absurd hpath (Finset.notMem_empty path)

/-- **Changes.** -/
lemma Tracked.change (h : Tracked w s) (hC : w.Heeded s (.change event)) :
    Tracked w (change event s) where
  keyed := h.keyed
  due_or_fresh := by
    intro folder hfolder htouched
    by_cases hevent : ∃ path ∈ event.paths, w.Covers folder path
    · exact hC folder hfolder (.inl hevent)
    · have hbefore : w.Touched folder s := by
        obtain ⟨path, hpath, hcovers⟩ := htouched
        obtain hpath | hpath := Finset.mem_union.mp hpath
        · exact ⟨path, hpath, hcovers⟩
        · exact absurd ⟨path, List.mem_toFinset.mp hpath, hcovers⟩ hevent
      obtain hdue | hfresh := h.due_or_fresh folder hfolder hbefore
      · exact hC folder hfolder (.inr ⟨hbefore, hdue⟩)
      · exact .inr (hfresh.change fun path hpath hcovers => hevent ⟨path, hpath, hcovers⟩)

/-- **Rounds of the loop.** -/
lemma Tracked.tick (h : Tracked w s) (times : List ℕ) (order : IterOrder FilePath) (now : ℕ) :
    Tracked w (w.tick times order now s) where
  keyed := (keyed_addEvents h.keyed _).getReadyEvents order now
  due_or_fresh := by
    intro folder hfolder htouched
    obtain hdue | hfresh := h.due_or_fresh folder hfolder htouched
    · exact .inl (hdue.tick h.keyed times order now)
    · right
      cases hfresh with
      | listed hnot hlookup => exact .listed hnot hlookup
      | indexing dirty hindexing hclean => exact .indexing dirty hindexing hclean

/-- **The task receives an event**: the folder of which it asks needs no more. -/
lemma Tracked.receive (h : Tracked w s) (hnext : w.next s .receive = some s') : Tracked w s' := by
  simp only [next] at hnext
  split at hnext
  · next event channel hindexing hchannel =>
    obtain rfl := Option.some.inj hnext
    refine ⟨h.keyed, fun folder hfolder htouched => ?_⟩
    by_cases hevent : w.handleFsEvent event = some folder
    · refine .inr (.indexing ∅ ?_ fun path hpath => absurd hpath (Finset.notMem_empty path))
      show (w.handleFsEvent event).map _ = _
      rw [hevent]
      rfl
    · obtain hdue | hfresh := h.due_or_fresh folder hfolder htouched
      · obtain hdue | ⟨other, hother, hhandle⟩ := hdue
        · exact .inl (.inl hdue)
        · rw [hchannel, List.cons_append, List.mem_cons] at hother
          obtain rfl | hother := hother
          · exact absurd hhandle hevent
          · exact .inl (.inr ⟨other, hother, hhandle⟩)
      · cases hfresh with
        | listed _ hlookup =>
          refine .inr (.listed (fun dirty hrun => ?_) hlookup)
          obtain ⟨started, hstarted, heq⟩ := Option.map_eq_some_iff.mp hrun
          obtain ⟨rfl, -⟩ := Prod.mk.inj heq
          exact hevent hstarted
        | indexing dirty hrun _ =>
          rw [hindexing] at hrun
          cases hrun
  · cases hnext

/-- **A folder has been indexed**: its manifest lists what it contains, if nothing has come or gone
meanwhile. -/
lemma Tracked.indexed {seen : Finset FilePath} (h : Tracked w s)
    (hnext : w.next s (.indexed seen) = some s') : Tracked w s' := by
  simp only [next] at hnext
  split at hnext
  · next done dirty hindexing =>
    split at hnext
    · next hseen =>
      obtain rfl := Option.some.inj hnext
      refine ⟨h.keyed, fun folder hfolder htouched => ?_⟩
      obtain hdue | hfresh := h.due_or_fresh folder hfolder htouched
      · exact .inl hdue
      · refine .inr (.listed (fun dirty hrun => by cases hrun) ?_)
        cases hfresh with
        | listed hnot hlookup =>
          have hne : folder ≠ done := fun heq => hnot dirty (heq ▸ hindexing)
          exact (Finmap.lookup_insert_of_ne _ hne).trans hlookup
        | indexing dirty' hrun hclean =>
          obtain ⟨rfl, rfl⟩ := Prod.mk.inj (Option.some.inj (hindexing.symm.trans hrun))
          refine (Finmap.lookup_insert _).trans (congrArg some (listing_congr ?_))
          exact fun path hpath => hclean path (hseen hpath)
    · cases hnext
  · cases hnext

lemma Tracked.next (h : Tracked w s) {step : Step} (hC : w.Heeded s step)
    (hnext : w.next s step = some s') : Tracked w s' := by
  cases step with
  | change event =>
    rw [FolderWatcher.next] at hnext
    split at hnext
    · obtain rfl := Option.some.inj hnext
      exact h.change hC
    · cases hnext
  | tick times order now =>
    rw [FolderWatcher.next] at hnext
    split at hnext
    · obtain rfl := Option.some.inj hnext
      exact h.tick times order now
    · cases hnext
  | receive => exact h.receive hnext
  | indexed seen => exact h.indexed hnext

lemma not_due_of_quiet (hquiet : s.Quiet) : ¬ w.Due folder s := by
  rintro (⟨path, event, hupcoming, -⟩ | ⟨event, hevent, -⟩)
  · rw [upcoming, hquiet.queue, List.foldl_nil, EventDebouncer.waiting, hquiet.debouncer,
      Finmap.lookup_empty] at hupcoming
    cases hupcoming
  · rw [hquiet.channel, hquiet.batch] at hevent
    exact List.not_mem_nil hevent

/-- **When the manifests catch up with the folders.** If every change is heeded, then the manifest
of each folder that contains a changed path lists what the folder contains, whenever all events have
been handled.

**Proof sketch.** For each such folder, an event that gets it indexed is under way, or it needs
none. A change keeps this as it is heeded. A round lets an event out or leaves it waiting. When the
task receives an event, its folder is indexed, and then needs no more until something in it changes.
-/
theorem caughtUp_of_run (w : FolderWatcher) (delay : ℕ) (files : Finset FilePath)
    (manifests : HashMap FilePath (Finset FilePath)) {s : State}
    (hrun : Runs.Run w.next w.Heeded (.start delay files manifests) s) (hquiet : s.Quiet) :
    w.CaughtUp s := by
  have htracked : Tracked w s :=
    Runs.Run.invariant (I := Tracked w) hrun (tracked_start w delay files manifests)
      fun _ h hC hnext => h.next hC hnext
  intro folder hfolder htouched
  obtain hdue | hfresh := htracked.due_or_fresh folder hfolder htouched
  · exact absurd hdue (not_due_of_quiet hquiet)
  · cases hfresh with
    | listed _ hlookup => exact hlookup
    | indexing dirty hindexing _ =>
      rw [hquiet.indexing] at hindexing
      cases hindexing

end Invariant

/-! ## A folder with one file -/

/-- A watcher of the folder `/w` with the default configurations. -/
def sample : FolderWatcher where
  watchedFolders := .singleton [['w']] ['w']
  order := .sorted FilePath
  ignorePatterns := [".git", ".DS_Store", "Thumbs.db", "*.tmp", "*.swp", "*~", ".#*", "#*#"].map
    String.toList
  batchSize := 100
  indexer := .default

/-- All events have been handled, and these paths are listed for the folder. -/
def idle (files listed : Finset FilePath) : State where
  files := files
  queue := []
  debouncer := .new 500
  batch := []
  channel := []
  indexing := none
  manifests := Finmap.insert [['w']] listed ∅
  touched := {[['a'], ['w']]}

/-- A file that is created in an empty folder is listed. -/
theorem caughtUp_of_run_created :
    sample.CaughtUp (idle {[['a'], ['w']]} {[['a'], ['w']]}) := by
  refine caughtUp_of_run sample 500 ∅ ∅ ?_ ⟨rfl, rfl, rfl, rfl, rfl⟩
  have hrest : Runs.exec sample.next (fun _ _ => True)
      [.tick [100] (.sorted FilePath) 100, .tick [] (.sorted FilePath) 600, .receive,
        .indexed {[['a'], ['w']]}]
      (change ⟨.created, [['a'], ['w']], none⟩ (.start 500 ∅ ∅)) =
        some (idle {[['a'], ['w']]} {[['a'], ['w']]}) := by
    decide +kernel
  refine .head ⟨.change ⟨.created, [['a'], ['w']], none⟩, ?_, rfl⟩
    (Runs.run_of_exec_of_forall hrest (by simp [Heeded]))
  intro folder hfolder _
  obtain rfl : folder = [['w']] := by simpa [sample] using hfolder
  exact .inl (due_change_iff.mpr (.inl ⟨by decide +kernel, by decide +kernel⟩))

/-- **A file that is removed** from a folder stays in its manifest. -/
theorem not_caughtUp_removed : ¬ ∀ (w : FolderWatcher) (delay : ℕ) (files : Finset FilePath)
    (manifests : HashMap FilePath (Finset FilePath)) (s : State),
    Runs.Run w.next (fun _ _ => True) (.start delay files manifests) s → s.Quiet →
      w.CaughtUp s := by
  intro h
  have hexec : Runs.exec sample.next (fun _ _ => True)
      [.change ⟨.removed, [['a'], ['w']], none⟩, .tick [100] (.sorted FilePath) 100,
        .tick [] (.sorted FilePath) 600, .receive]
      (.start 500 {[['a'], ['w']]} (Finmap.insert [['w']] {[['a'], ['w']]} ∅)) =
        some (idle ∅ {[['a'], ['w']]}) := by
    decide +kernel
  have hcaughtUp := h sample _ _ _ _ (Runs.run_of_exec hexec) ⟨rfl, rfl, rfl, rfl, rfl⟩
  have hlisted := hcaughtUp [['w']] (by simp [sample])
    ⟨[['a'], ['w']], by decide, by decide +kernel⟩
  revert hlisted
  decide +kernel

end FolderWatcher

end Landropic
