import Landropic.Daemon.ResumeManager
import Landropic.Foundations.Rewrites
import Landropic.Foundations.Runs

set_option autoImplicit false

/-!
# Crashes of a resume manager

Any number of calls and monitors of a manager take their steps in any order, until a crash, after
which a manager is created over the same file. A session is owed from the return of its start, until
it is cleaned up, with the progress of its last successful resume.

## Main definitions

* `Daemon.ResumeHistory` — what is remembered of a run: all checkpoints there have been, those that
  the file was last written for, and the sessions that are owed.
* `Daemon.ResumeManager.Survives` — a new manager holds every session that is owed.
* `Daemon.ResumeManager.Spared` — the file was last written, as a whole, when there was such a
  checkpoint of every session that is owed.

## Main results

* `Daemon.ResumeManager.Kept.effect` — what every step keeps of the file.
* `Daemon.ResumeManager.survives_iff` — which crashes the sessions that are owed survive.
-/

namespace Landropic.Daemon

/-- What is remembered of a run. -/
structure ResumeHistory where
  /-- The checkpoints at first and after each step. -/
  past : List (HashMap Text ResumeCheckpoint)
  /-- The checkpoints that the file was last written for, or that were loaded from it. -/
  written : HashMap Text ResumeCheckpoint
  /-- When each task has last saved a checkpoint. -/
  saved : ℕ → ℕ
  /-- The sessions whose start has returned, and since when their progress counts. -/
  owed : HashMap Text ℕ

/-- The task that an event may let write the file. -/
def ResumeEvent.writer : ResumeEvent → Option ℕ
  | saveCheckpoint t _ => some t
  | cleanupOldCheckpoints t _ _ => some t
  | tick t => some t
  | _ => none

/-- The task is about to write the file. -/
def ResumeTask.isWrite : ResumeTask → Bool
  | write _ _ _ => true
  | _ => false

/-- The event has let a task truncate the file. -/
def ResumeEvent.truncates (event : ResumeEvent) (s' : ResumeState) : Bool :=
  event.writer.any fun t => (s'.tasks t).isWrite

namespace ResumeHistory

variable (h : ResumeHistory)

/-- What is remembered after an event. -/
def observe (s : ResumeState) (event : ResumeEvent) (s' : ResumeState) : ResumeHistory where
  past := h.past ++ [s'.checkpoints]
  written := if event.truncates s' then s'.checkpoints else h.written
  saved :=
    match event with
    | .saveCheckpoint t _ => Function.update h.saved t h.past.length
    | _ => h.saved
  owed :=
    match event with
    | .finish t _ =>
      match s.tasks t with
      | .done (.startResumableSession id) => h.owed.insert id (h.saved t)
      | .done (.resumeSession id _) =>
        if id ∈ h.owed then h.owed.insert id (h.saved t) else h.owed
      | _ => h.owed
    | _ => h.owed

/-- The start of a session has returned and it has not been cleaned up; its progress counts since
its start or its last successful resume. -/
def Owes (id : Text) (since : ℕ) : Prop :=
  h.owed.lookup id = some since ∧
    ∀ i checkpoints, since ≤ i → h.past[i]? = some checkpoints → id ∈ checkpoints

/-- A session has had a checkpoint since then. -/
def Had (id : Text) (since : ℕ) (checkpoint : ResumeCheckpoint) : Prop :=
  ∃ i checkpoints, since ≤ i ∧ h.past[i]? = some checkpoints ∧
    checkpoints.lookup id = some checkpoint

end ResumeHistory

/-- A manager at some moment, with what is remembered of its run. -/
structure ResumeMoment where
  state : ResumeState
  history : ResumeHistory

/-- The positions at which tasks write the file. -/
def ResumeState.positions (s : ResumeState) : Set ℕ :=
  {pos | ∃ t job data, s.tasks t = .write job data pos}

namespace ResumeManager

variable (manager : ResumeManager)

/-- A manager that has just been created, with some sessions that were started before. -/
def created (s : ResumeState) (known : List Text) : ResumeMoment where
  state := s
  history :=
    { past := [s.checkpoints]
      written := s.checkpoints
      saved := fun _ => 0
      owed := HashMap.collect (known.map fun id => (id, 0)) }

/-- The effect of an event, which is remembered. -/
def step (m : ResumeMoment) (event : ResumeEvent) : Option ResumeMoment :=
  (manager.next m.state event).map fun s' => ⟨s', m.history.observe m.state event s'⟩

/-- The runs of a manager. -/
def Run : ResumeMoment → ResumeMoment → Prop := Runs.Run manager.step fun _ _ => True

/-- A manager that is created after a crash holds a checkpoint of every session that is owed, one
that it has had since its progress counts. -/
def Survives (m : ResumeMoment) : Prop :=
  ∀ id since, m.history.Owes id since → ∃ s' checkpoint, manager.new m.state.file = .ok s' ∧
    s'.checkpoints.lookup id = some checkpoint ∧ m.history.Had id since checkpoint

/-- Whoever is writing the file has written all of it. -/
def Whole (s : ResumeState) : Prop :=
  ∀ t job data pos, s.tasks t = .write job data pos → s.file = some data

/-- If a session is owed, the file has been written as a whole, and when that was begun, or when it
was loaded, there was a checkpoint of the session that it has had since its progress counts. -/
def Spared (m : ResumeMoment) : Prop :=
  ∀ id since, m.history.Owes id since → Whole m.state ∧ ∃ checkpoint,
    m.history.written.lookup id = some checkpoint ∧ m.history.Had id since checkpoint

/-! ## What a step does -/

/-- What a step does to the file, and whether it truncates it. -/
inductive Effect (s : ResumeState) : ResumeState → Bool → Prop
  /-- The file and the lock are left alone. The checkpoints change only under the lock. -/
  | quiet {s' : ResumeState} :
    (∀ t job data pos, s'.tasks t = .write job data pos ↔ s.tasks t = .write job data pos) →
    s'.file = s.file → s'.readers = s.readers → s'.writer = s.writer →
    (s.isUnlocked = true ∨ s'.checkpoints = s.checkpoints ∧ s'.way = s.way) → Effect s s' false
  /-- A task takes the lock and truncates the file. -/
  | begin {s' : ResumeState} {t : ℕ} {job : ResumeJob} {data : Bytes} :
    manager.toStringPretty s' = some data →
    s'.tasks = Function.update s.tasks t (.write job data 0) → s'.file = some [] →
    s'.readers = (if job.isMonitor then insert t s.readers else s.readers) →
    s'.writer = (if job.isMonitor then s.writer else some t) → s.writer = none →
    (s.isUnlocked = true ∨ s'.checkpoints = s.checkpoints ∧ s'.way = s.way) → Effect s s' true
  /-- A task writes the next byte. -/
  | write {t : ℕ} {job : ResumeJob} {data : Bytes} {pos : ℕ} (hpos : pos < data.length) :
    s.tasks t = .write job data pos →
    Effect s ({ s with file := some (overwrite (s.file.getD []) pos [data[pos]]) }.withTask t
      (.write job data (pos + 1))) false
  /-- A task has written everything, and lets go of the lock. -/
  | finish {t : ℕ} {job : ResumeJob} {data : Bytes} {pos : ℕ} :
    data.length ≤ pos → s.tasks t = .write job data pos →
    Effect s ({ s with
      readers := s.readers.erase t
      writer := if job.isMonitor then s.writer else none }.withTask t job.saved) false

variable {manager} {s s' : ResumeState} {m m' : ResumeMoment} {t : ℕ} {job : ResumeJob}
  {data : Bytes} {pos : ℕ} {event : ResumeEvent}

lemma isUnlocked_iff : s.isUnlocked = true ↔ s.writer = none ∧ s.readers = ∅ := by
  simp [ResumeState.isUnlocked]

lemma effect_withTask {task : ResumeTask}
    (hbefore : ∀ job data pos, s.tasks t ≠ .write job data pos)
    (hafter : ∀ job data pos, task ≠ .write job data pos) :
    manager.Effect s (s.withTask t task) false := by
  refine .quiet (fun u job data pos => ?_) rfl rfl rfl (.inr ⟨rfl, rfl⟩)
  by_cases hu : u = t
  · subst hu
    simp [ResumeState.withTask, hbefore, hafter]
  · simp [ResumeState.withTask, Function.update_of_ne hu]

lemma Effect.of_writer {truncates : Bool} (h : manager.Effect s s' truncates)
    (hevent : event.writer = some t) (htask : (s'.tasks t).isWrite = truncates) :
    manager.Effect s s' (event.truncates s') := by
  rwa [ResumeEvent.truncates, hevent, Option.any_some, htask]

/-- Saving the checkpoints, after they may have changed under the lock. -/
lemma effect_saveCheckpointsToDisk (hbefore : ∀ job data pos, s.tasks t ≠ .write job data pos)
    (htasks : s'.tasks = s.tasks) (hfile : s'.file = s.file) (hreaders : s'.readers = s.readers)
    (hwriter : s'.writer = s.writer) (hfree : s.writer = none)
    (hchange : s.isUnlocked = true ∨ s'.checkpoints = s.checkpoints ∧ s'.way = s.way)
    (hevent : event.writer = some t) :
    manager.Effect s (manager.saveCheckpointsToDisk s' t job)
      (event.truncates (manager.saveCheckpointsToDisk s' t job)) := by
  unfold saveCheckpointsToDisk
  split
  · have htask : ∀ job' data pos, job.failed ≠ .write job' data pos := by
      cases job <;> simp [ResumeJob.failed]
    refine .of_writer (.quiet (fun u job' data pos => ?_) hfile hreaders hwriter hchange) hevent ?_
    · by_cases hu : u = t
      · subst hu
        simp [ResumeState.withTask, hbefore, htask]
      · simp [ResumeState.withTask, Function.update_of_ne hu, htasks]
    · cases job <;> simp [ResumeState.withTask, ResumeJob.failed, ResumeTask.isWrite]
  · next data htext =>
    refine .of_writer (@Effect.begin _ _ _ t job _ htext ?_ rfl ?_ ?_ hfree hchange) hevent ?_
    · rw [← htasks]
      rfl
    · rw [← hreaders]
      rfl
    · rw [← hwriter]
      rfl
    · simp [ResumeState.withTask, ResumeTask.isWrite]

/-- **What every step does** to the file. -/
theorem effect_of_next (h : manager.next s event = some s') :
    manager.Effect s s' (event.truncates s') := by
  cases event with
  | startResumableSession t sessionId peerId folderPath createdAt lastUpdated =>
    simp only [next, Option.ite_none_right_eq_some, Option.some.injEq] at h
    obtain ⟨hidle, rfl⟩ := h
    exact effect_withTask (by simp [hidle]) (by simp)
  | resumeSession t sessionId =>
    simp only [next, Option.ite_none_right_eq_some] at h
    obtain ⟨⟨hidle, -⟩, h⟩ := h
    split at h
    · obtain rfl := Option.some.inj h
      exact effect_withTask (by simp [hidle]) (by simp)
    · obtain rfl := Option.some.inj h
      exact .quiet (fun _ _ _ _ => Iff.rfl) rfl rfl rfl (.inr ⟨rfl, rfl⟩)
  | validate t folderExists now =>
    simp only [next] at h
    split at h
    · next id checkpoint htask =>
      split at h
      · obtain rfl := Option.some.inj h
        exact effect_withTask (by simp [htask]) (by simp)
      · obtain rfl := Option.some.inj h
        exact effect_withTask (by simp [htask]) (by simp)
    · cases h
  | saveCheckpoint t way =>
    simp only [next] at h
    split at h
    · next job checkpoint htask =>
      rw [Option.ite_none_right_eq_some] at h
      obtain ⟨hunlocked, h⟩ := h
      obtain rfl := Option.some.inj h
      unfold saveCheckpoint
      dsimp only
      split
      · exact effect_saveCheckpointsToDisk (by simp [htask]) rfl rfl rfl rfl
          (isUnlocked_iff.mp hunlocked).1 (.inl hunlocked) rfl
      · refine .of_writer (.quiet (fun u job' data pos => ?_) rfl rfl rfl (.inl hunlocked)) rfl ?_
        · by_cases hu : u = t
          · subst hu
            simp [ResumeState.withTask, htask]
          · simp [ResumeState.withTask, Function.update_of_ne hu]
        · simp [ResumeState.withTask, ResumeTask.isWrite]
    · cases h
  | write t =>
    simp only [next] at h
    split at h
    · next job data pos htask =>
      obtain rfl := Option.some.inj h
      unfold ResumeManager.write
      split
      · next byte hbyte =>
        obtain ⟨hpos, rfl⟩ := List.getElem?_eq_some_iff.mp hbyte
        exact .write hpos htask
      · next hnone => exact .finish (List.getElem?_eq_none_iff.mp hnone) htask
    · cases h
  | finish t monitor =>
    simp only [next] at h
    split at h
    · next job htask =>
      unfold ResumeManager.finish at h
      split at h
      · rw [Option.ite_none_right_eq_some] at h
        obtain ⟨hidle, h⟩ := h
        obtain rfl := Option.some.inj h
        refine .quiet (fun u job' data pos => ?_) rfl rfl rfl (.inr ⟨rfl, rfl⟩)
        by_cases hmonitor : u = monitor
        · subst hmonitor
          simp [ResumeState.withTask, hidle]
        by_cases hu : u = t
        · subst hu
          simp [ResumeState.withTask, Function.update_of_ne hmonitor, htask]
        · simp [ResumeState.withTask, Function.update_of_ne hmonitor, Function.update_of_ne hu]
      · obtain rfl := Option.some.inj h
        exact effect_withTask (by simp [htask]) (by simp)
    · cases h
  | updateCheckpoint sessionId now update =>
    simp only [next, Option.ite_none_right_eq_some, Option.some.injEq] at h
    obtain ⟨hunlocked, rfl⟩ := h
    exact .quiet (fun _ _ _ _ => Iff.rfl) rfl rfl rfl (.inl hunlocked)
  | cleanupOldCheckpoints t now way =>
    simp only [next, Option.ite_none_right_eq_some, Option.some.injEq] at h
    obtain ⟨⟨hidle, hunlocked⟩, rfl⟩ := h
    unfold ResumeManager.cleanupOldCheckpoints
    dsimp only
    split
    · exact effect_saveCheckpointsToDisk (by simp [hidle]) rfl rfl rfl rfl
        (isUnlocked_iff.mp hunlocked).1 (.inl hunlocked) rfl
    · refine .of_writer (.quiet (fun _ _ _ _ => Iff.rfl) rfl rfl rfl (.inl hunlocked)) rfl ?_
      rw [hidle]
      rfl
  | tick t =>
    simp only [next] at h
    split at h
    · next id htask =>
      rw [Option.ite_none_right_eq_some] at h
      obtain ⟨hfree, h⟩ := h
      split at h
      · obtain rfl := Option.some.inj h
        exact effect_saveCheckpointsToDisk (by simp [htask]) rfl rfl rfl rfl hfree
          (.inr ⟨rfl, rfl⟩) rfl
      · obtain rfl := Option.some.inj h
        exact (effect_withTask (by simp [htask]) (by simp)).of_writer rfl
          (by simp [ResumeState.withTask, ResumeTask.isWrite])
    · cases h

/-! ## What is kept of the file -/

variable (manager) in
/-- What holds at every moment: whoever writes the file holds the lock and writes the checkpoints,
and the file was last written for the checkpoints that are remembered. -/
structure Kept (s : ResumeState) (written : HashMap Text ResumeCheckpoint) : Prop where
  lock : ∀ {t job data pos}, s.tasks t = .write job data pos →
    if job.isMonitor = true then t ∈ s.readers else s.writer = some t
  text : ∀ {t job data pos}, s.tasks t = .write job data pos →
    manager.toStringPretty s = some data ∧ written = s.checkpoints
  file : (manager.load s.file = .ok written ∧ s.positions = ∅) ∨
    ∃ way content, s.file = some content ∧
      Rewriting (manager.json.toBytes way written) content s.positions ∧
      ∀ t job data pos, s.tasks t = .write job data pos → data = manager.json.toBytes way written

variable {written : HashMap Text ResumeCheckpoint}

lemma load_toBytes (manager : ResumeManager) (way : ℕ)
    (checkpoints : HashMap Text ResumeCheckpoint) :
    manager.load (some (manager.json.toBytes way checkpoints)) = .ok checkpoints := by
  rw [load, if_pos (manager.json.isSome_fromUtf8 way checkpoints), manager.json.fromBytes_toBytes]
  rfl

/-- From a file that is only partly written nothing is loaded. -/
lemma lookup_load_of_rewriting {way : ℕ} {content : Bytes} {positions : Set ℕ}
    {checkpoints : HashMap Text ResumeCheckpoint} {id : Text} {checkpoint : ResumeCheckpoint}
    (h : Rewriting (manager.json.toBytes way written) content positions)
    (hne : content ≠ manager.json.toBytes way written)
    (hload : manager.load (some content) = .ok checkpoints) :
    checkpoints.lookup id ≠ some checkpoint := by
  have hnone : manager.json.fromBytes content = none := by
    obtain heq | hzero | ⟨kept, hkept, rfl⟩ := h.cases
    · exact absurd heq hne
    · exact manager.json.fromBytes_of_zero hzero
    · exact manager.json.fromBytes_take way written kept hkept
  simp only [load, hnone, Option.getD_none] at hload
  split at hload
  · obtain rfl := Except.ok.inj hload
    simp
  · cases hload

lemma toStringPretty_eq_some (h : manager.toStringPretty s = some data) :
    data = manager.json.toBytes s.way s.checkpoints := by
  rw [toStringPretty, Option.ite_none_right_eq_some] at h
  exact (Option.some.inj h.2).symm

lemma toStringPretty_congr (hcheckpoints : s'.checkpoints = s.checkpoints) (hway : s'.way = s.way) :
    manager.toStringPretty s' = manager.toStringPretty s := by
  rw [toStringPretty, toStringPretty, hcheckpoints, hway]

lemma Kept.ne_write (h : manager.Kept s written) (hunlocked : s.isUnlocked = true) :
    s.tasks t ≠ .write job data pos := by
  intro htask
  obtain ⟨hwriter, hreaders⟩ := isUnlocked_iff.mp hunlocked
  have hlock := h.lock htask
  split at hlock
  · rw [hreaders] at hlock
    exact Finset.notMem_empty _ hlock
  · rw [hwriter] at hlock
    cases hlock

lemma Kept.text_of_change (h : manager.Kept s written) (htask : s.tasks t = .write job data pos)
    (hchange : s.isUnlocked = true ∨ s'.checkpoints = s.checkpoints ∧ s'.way = s.way) :
    manager.toStringPretty s' = some data ∧ written = s'.checkpoints := by
  obtain hunlocked | ⟨hcheckpoints, hway⟩ := hchange
  · exact absurd htask (h.ne_write hunlocked)
  · rw [toStringPretty_congr hcheckpoints hway, hcheckpoints]
    exact h.text htask

lemma mem_positions_update {task : ResumeTask} {p : ℕ}
    (h : p ∈ s.positions) (htask : s.tasks t = .write job data pos)
    (htasks : s'.tasks = Function.update s.tasks t task) : p = pos ∨ p ∈ s'.positions := by
  obtain ⟨u, job', data', hu⟩ := h
  by_cases heq : u = t
  · subst heq
    rw [htask, ResumeTask.write.injEq] at hu
    exact .inl hu.2.2.symm
  · refine .inr ⟨u, job', data', ?_⟩
    rw [htasks, Function.update_of_ne heq]
    exact hu

lemma Kept.quiet (h : manager.Kept s written)
    (htasks : ∀ u job data pos, s'.tasks u = .write job data pos ↔ s.tasks u = .write job data pos)
    (hfile : s'.file = s.file) (hreaders : s'.readers = s.readers) (hwriter : s'.writer = s.writer)
    (hchange : s.isUnlocked = true ∨ s'.checkpoints = s.checkpoints ∧ s'.way = s.way) :
    manager.Kept s' written := by
  have hpositions : s'.positions = s.positions := by
    ext p
    simp only [ResumeState.positions, Set.mem_ofPred_eq, htasks]
  refine ⟨fun {u job data pos} htask => ?_, fun {u job data pos} htask => ?_, ?_⟩
  · rw [hreaders, hwriter]
    exact h.lock ((htasks ..).mp htask)
  · exact h.text_of_change ((htasks ..).mp htask) hchange
  · rw [hfile, hpositions]
    simpa only [htasks] using h.file

/-- The task that truncates the file writes the same text as all others that write it. -/
lemma Kept.begin (h : manager.Kept s written) (htext : manager.toStringPretty s' = some data)
    (htasks : s'.tasks = Function.update s.tasks t (.write job data 0)) (hfile : s'.file = some [])
    (hreaders : s'.readers = if job.isMonitor then insert t s.readers else s.readers)
    (hwriter : s'.writer = if job.isMonitor then s.writer else some t) (hfree : s.writer = none)
    (hchange : s.isUnlocked = true ∨ s'.checkpoints = s.checkpoints ∧ s'.way = s.way) :
    manager.Kept s' s'.checkpoints := by
  have hold : ∀ {u job' data' pos}, u ≠ t → s'.tasks u = .write job' data' pos →
      s.tasks u = .write job' data' pos := by
    intro u job' data' pos hu htask
    rwa [htasks, Function.update_of_ne hu] at htask
  have hself : s'.tasks t = .write job data 0 := by rw [htasks, Function.update_self]
  have hall : ∀ {u job' data' pos}, s'.tasks u = .write job' data' pos → data' = data := by
    intro u job' data' pos htask
    by_cases hu : u = t
    · subst hu
      rw [hself, ResumeTask.write.injEq] at htask
      exact htask.2.1.symm
    · have htext' := (h.text_of_change (hold hu htask) hchange).1
      exact Option.some.inj (htext'.symm.trans htext)
  refine ⟨fun {u job' data' pos} htask => ?_, fun {u job' data' pos} htask => ?_, .inr ?_⟩
  · rw [hreaders, hwriter]
    by_cases hu : u = t
    · subst hu
      rw [hself, ResumeTask.write.injEq] at htask
      obtain ⟨rfl, -, -⟩ := htask
      split
      · exact Finset.mem_insert_self u s.readers
      · rfl
    · have hlock := h.lock (hold hu htask)
      split at hlock
      · next hmonitor =>
        rw [if_pos hmonitor]
        split
        · exact Finset.mem_insert_of_mem hlock
        · exact hlock
      · rw [hfree] at hlock
        cases hlock
  · rw [hall htask]
    exact ⟨htext, rfl⟩
  · refine ⟨s'.way, [], hfile, .begin ⟨t, job, data, hself⟩, fun u job' data' pos htask => ?_⟩
    rw [hall htask]
    exact toStringPretty_eq_some htext

/-- What the file is being rewritten with, while a task writes it. -/
lemma Kept.rewriting (h : manager.Kept s written) (htask : s.tasks t = .write job data pos) :
    ∃ way content, data = manager.json.toBytes way written ∧ s.file = some content ∧
      Rewriting (manager.json.toBytes way written) content s.positions ∧
      ∀ u job data pos, s.tasks u = .write job data pos →
        data = manager.json.toBytes way written := by
  obtain ⟨-, hnone⟩ | ⟨way, content, hfile, hrewriting, hdata⟩ := h.file
  · exact absurd ⟨t, job, data, htask⟩ (Set.eq_empty_iff_forall_notMem.mp hnone pos)
  · exact ⟨way, content, hdata t job data pos htask, hfile, hrewriting, hdata⟩

lemma Kept.write (h : manager.Kept s written) (hpos : pos < data.length)
    (htask : s.tasks t = .write job data pos) :
    manager.Kept ({ s with file := some (overwrite (s.file.getD []) pos [data[pos]]) }.withTask t
      (.write job data (pos + 1))) written := by
  have hothers : ∀ {u job' data' pos'},
      (Function.update s.tasks t (.write job data (pos + 1))) u = .write job' data' pos' →
        ∃ pos₀, s.tasks u = .write job' data' pos₀ := by
    intro u job' data' pos' hu
    by_cases heq : u = t
    · subst heq
      rw [Function.update_self, ResumeTask.write.injEq] at hu
      obtain ⟨rfl, rfl, -⟩ := hu
      exact ⟨pos, htask⟩
    · rw [Function.update_of_ne heq] at hu
      exact ⟨pos', hu⟩
  refine ⟨fun {u job' data' pos'} hu => ?_, fun {u job' data' pos'} hu => ?_, .inr ?_⟩
  · obtain ⟨pos₀, hu⟩ := hothers hu
    exact h.lock hu
  · obtain ⟨pos₀, hu⟩ := hothers hu
    exact h.text hu
  · obtain ⟨way, content, rfl, hfile, hrewriting, hdata⟩ := h.rewriting htask
    refine ⟨way, overwrite content pos [(manager.json.toBytes way written)[pos]], ?_,
      hrewriting.write hpos (fun p hp => mem_positions_update hp htask rfl)
        ⟨t, job, _, Function.update_self ..⟩, fun u job' data' pos' hu => ?_⟩
    · simp [ResumeState.withTask, hfile]
    · obtain ⟨pos₀, hu⟩ := hothers hu
      exact hdata u job' data' pos₀ hu

lemma Kept.finish (h : manager.Kept s written) (hpos : data.length ≤ pos)
    (htask : s.tasks t = .write job data pos) :
    manager.Kept ({ s with
      readers := s.readers.erase t
      writer := if job.isMonitor then s.writer else none }.withTask t job.saved) written := by
  have hsaved : ∀ job' data' pos', job.saved ≠ .write job' data' pos' := by
    cases job <;> simp [ResumeJob.saved]
  have hothers : ∀ {u job' data' pos'}, (Function.update s.tasks t job.saved) u =
      .write job' data' pos' → u ≠ t ∧ s.tasks u = .write job' data' pos' := by
    intro u job' data' pos' hu
    by_cases heq : u = t
    · subst heq
      rw [Function.update_self] at hu
      exact absurd hu (hsaved job' data' pos')
    · rw [Function.update_of_ne heq] at hu
      exact ⟨heq, hu⟩
  refine ⟨fun {u job' data' pos'} hu => ?_, fun {u job' data' pos'} hu => ?_, .inr ?_⟩
  · obtain ⟨hne, hu⟩ := hothers hu
    have hlock := h.lock hu
    split
    · next hmonitor =>
      rw [if_pos hmonitor] at hlock
      exact Finset.mem_erase.mpr ⟨hne, hlock⟩
    · next hmonitor =>
      rw [if_neg hmonitor] at hlock
      have hself := h.lock htask
      dsimp only [ResumeState.withTask]
      split
      · exact hlock
      · next hjob =>
        rw [if_neg hjob, hlock] at hself
        exact absurd (Option.some.inj hself) hne
  · exact h.text (hothers hu).2
  · obtain ⟨way, content, rfl, hfile, hrewriting, hdata⟩ := h.rewriting htask
    refine ⟨way, content, hfile, hrewriting.finish fun p hp => ?_,
      fun u job' data' pos' hu => hdata u job' data' pos' (hothers hu).2⟩
    refine (mem_positions_update hp htask rfl).imp_left ?_
    rintro rfl
    exact hpos

/-- **Every step keeps** what is remembered of the file. -/
theorem Kept.effect {truncates : Bool} (h : manager.Kept s written)
    (heffect : manager.Effect s s' truncates) :
    manager.Kept s' (if truncates then s'.checkpoints else written) := by
  cases heffect with
  | quiet htasks hfile hreaders hwriter hchange =>
    exact h.quiet htasks hfile hreaders hwriter hchange
  | begin htext htasks hfile hreaders hwriter hfree hchange =>
    exact h.begin htext htasks hfile hreaders hwriter hfree hchange
  | write hpos htask => exact h.write hpos htask
  | finish hpos htask => exact h.finish hpos htask

lemma Kept.step (h : manager.Kept m.state m.history.written)
    (hstep : manager.step m event = some m') :
    manager.Kept m'.state m'.history.written := by
  obtain ⟨s', hnext, rfl⟩ := Option.map_eq_some_iff.mp hstep
  exact h.effect (effect_of_next hnext)

variable {file : Option Bytes}

lemma new_eq_ok (hnew : manager.new file = .ok s) :
    manager.load file = .ok s.checkpoints ∧ s.file = file ∧ ∀ t, s.tasks t = .idle := by
  unfold new at hnew
  cases hload : manager.load file with
  | error e =>
    rw [hload] at hnew
    cases hnew
  | ok checkpoints =>
    rw [hload] at hnew
    obtain rfl := Except.ok.inj hnew
    exact ⟨rfl, rfl, fun _ => rfl⟩

lemma exists_new {checkpoints : HashMap Text ResumeCheckpoint}
    (hload : manager.load file = .ok checkpoints) :
    ∃ s', manager.new file = .ok s' ∧ s'.checkpoints = checkpoints := by
  unfold new
  rw [hload]
  exact ⟨_, rfl, rfl⟩

lemma kept_created (hnew : manager.new file = .ok s) : manager.Kept s s.checkpoints := by
  obtain ⟨hload, hfile, hidle⟩ := new_eq_ok hnew
  have hnone : ∀ t job data pos, s.tasks t ≠ .write job data pos := by simp [hidle]
  refine ⟨fun htask => (hnone _ _ _ _ htask).elim, fun htask => (hnone _ _ _ _ htask).elim, .inl ?_⟩
  rw [hfile]
  refine ⟨hload, Set.eq_empty_iff_forall_notMem.mpr ?_⟩
  rintro pos ⟨t, job, data, htask⟩
  exact hnone t job data pos htask

lemma kept_along {known : List Text} (hnew : manager.new file = .ok s)
    (hrun : manager.Run (created s known) m) : manager.Kept m.state m.history.written :=
  Runs.Run.invariant (I := fun m => manager.Kept m.state m.history.written) hrun
    (kept_created hnew) fun _ h _ hstep => h.step hstep

/-- **Which crashes the sessions survive.** A manager is created over any file. Any number of calls
that start, update and resume sessions and clean up old ones, and the monitors of the sessions, take
their steps in any order, until a crash; a manager is then created over what is left. It holds every
session that is owed, with progress that is not older than its start or its last successful resume,
if and only if either no session is owed, or the file has been written as a whole and when that was
begun there was such a checkpoint of every session that is owed.

**Proof sketch.** Whoever writes the file holds the lock, so that the checkpoints stay the same and
all who write at once write the same. The file is thus the text of the checkpoints it was last
written for, or it is cut short or has a gap of zeros, and then nothing is loaded. -/
theorem survives_iff {file : Option Bytes} {known : List Text} (hnew : manager.new file = .ok s)
    (hrun : manager.Run (created s known) m) : manager.Survives m ↔ Spared m := by
  have hkept := kept_along hnew hrun
  refine forall_congr' fun id => forall_congr' fun since => imp_congr_right fun _ => ?_
  have hwhole (hwhole : Whole m.state) : manager.load m.state.file = .ok m.history.written := by
    obtain ⟨hload, -⟩ | ⟨way, content, hfile, hrewriting, hdata⟩ := hkept.file
    · exact hload
    obtain hnone | ⟨pos, t, job, data, htask⟩ := m.state.positions.eq_empty_or_nonempty
    · rw [hnone] at hrewriting
      rw [hfile, hrewriting.eq_data, load_toBytes]
    · rw [hwhole t job data pos htask, hdata t job data pos htask, load_toBytes]
  constructor
  · rintro ⟨s', checkpoint, hnew', hlookup, hhad⟩
    obtain ⟨hload, -, -⟩ := new_eq_ok hnew'
    have hall : Whole m.state := by
      intro t job data pos htask
      obtain ⟨-, hnone⟩ | ⟨way, content, hfile, hrewriting, hdata⟩ := hkept.file
      · exact absurd ⟨t, job, data, htask⟩ (Set.eq_empty_iff_forall_notMem.mp hnone pos)
      rw [hdata t job data pos htask, hfile]
      by_contra hne
      rw [hfile] at hload
      exact lookup_load_of_rewriting hrewriting (fun heq => hne (congrArg some heq)) hload hlookup
    rw [← Except.ok.inj ((hwhole hall).symm.trans hload)] at hlookup
    exact ⟨hall, checkpoint, hlookup, hhad⟩
  · rintro ⟨hall, checkpoint, hlookup, hhad⟩
    obtain ⟨s', hnew', hcheckpoints⟩ := exists_new (hwhole hall)
    exact ⟨s', checkpoint, hnew', hcheckpoints ▸ hlookup, hhad⟩

/-! ## A session that is monitored -/

/-- The checkpoint of a session that has just started. -/
def startedCheckpoint : ResumeCheckpoint :=
  .initial ['s'] ['p'] (Text.utf8 ['/', 'f']) 1704067200000000000 1704067200000000000

/-- The only checkpoint there is. -/
def startedCheckpoints : HashMap Text ResumeCheckpoint := .insert ['s'] startedCheckpoint ∅

/-- A field of a JSON object with the indentation of its line. -/
def jsonLine (depth : ℕ) (line : String) : Text := List.replicate (2 * depth) ' ' ++ line.toList

/-- The JSON text of the checkpoints. -/
def startedText : Text :=
  List.flatten <| List.intersperse ['\n'] <| [jsonLine 0 "\x7b", jsonLine 1 "\"s\": \x7b",
    jsonLine 2 "\"session_id\": \"s\",", jsonLine 2 "\"peer_id\": \"p\",",
    jsonLine 2 "\"folder_path\": \"/f\",", jsonLine 2 "\"created_at\": \x7b",
    jsonLine 3 "\"secs_since_epoch\": 1704067200,", jsonLine 3 "\"nanos_since_epoch\": 0",
    jsonLine 2 "\x7d,", jsonLine 2 "\"last_updated\": \x7b",
    jsonLine 3 "\"secs_since_epoch\": 1704067200,", jsonLine 3 "\"nanos_since_epoch\": 0",
    jsonLine 2 "\x7d,", jsonLine 2 "\"stage\": \"Initializing\",",
    jsonLine 2 "\"progress_percent\": 0,", jsonLine 2 "\"manifests_exchanged\": false,",
    jsonLine 2 "\"bloom_summaries_complete\": false,",
    jsonLine 2 "\"differences_identified\": false,", jsonLine 2 "\"suspected_files\": [],",
    jsonLine 2 "\"confirmed_differences\": [],", jsonLine 2 "\"total_chunks_needed\": 0,",
    jsonLine 2 "\"chunks_transferred\": [],", jsonLine 2 "\"chunks_failed\": [],",
    jsonLine 2 "\"bytes_transferred\": 0,", jsonLine 2 "\"bytes_total\": 0,",
    jsonLine 2 "\"connection_stable\": true,", jsonLine 2 "\"retry_count\": 0,",
    jsonLine 2 "\"last_error\": null,", jsonLine 2 "\"bandwidth_stats\": \x7b",
    jsonLine 3 "\"bytes_saved_by_resume\": 0,", jsonLine 3 "\"chunks_skipped\": 0,",
    jsonLine 3 "\"resume_overhead_bytes\": 0,", jsonLine 3 "\"time_saved_seconds\": 0",
    jsonLine 2 "\x7d", jsonLine 1 "\x7d", jsonLine 0 "\x7d"]

/-- The manager writes the checkpoint as JSON does. -/
def WritesStarted (manager : ResumeManager) : Prop :=
  ∀ way, manager.json.toBytes way startedCheckpoints = startedText.utf8

lemma exists_writesStarted : ∃ manager : ResumeManager, manager.WritesStarted := by
  obtain ⟨codec, hsamples, hforms, hreads⟩ := FileCodec.exists_exact_of_samples
    [(startedCheckpoints, startedText.utf8)] (List.nodup_singleton _)
    (by simp) (by decide +kernel)
  have htext : ∀ way checkpoints, ∃ text : Text, codec.toBytes way checkpoints = text.utf8 ∧
      0 ∉ codec.toBytes way checkpoints := by
    intro way checkpoints
    obtain ⟨sample, hsample, hbytes⟩ | ⟨n, hbytes⟩ := hforms way checkpoints
    · obtain rfl := List.mem_singleton.mp hsample
      refine ⟨startedText, hbytes, ?_⟩
      rw [hbytes]
      decide +kernel
    · refine ⟨_, hbytes.trans (FileCodec.unary_eq_utf8 n), ?_⟩
      rw [hbytes]
      exact FileCodec.zero_notMem_unary n
  let json : CheckpointJson :=
    { codec with
      isSome_fromUtf8 := by
        intro way checkpoints
        obtain ⟨text, hbytes, -⟩ := htext way checkpoints
        rw [hbytes, Text.fromUtf8_utf8]
        rfl
      fromBytes_of_zero := by
        intro content hzero
        rw [Option.eq_none_iff_forall_ne_some]
        rintro checkpoints hread
        obtain ⟨-, -, hne⟩ := htext 0 checkpoints
        rw [← hreads content checkpoints hread] at hne
        exact hne hzero }
  exact ⟨⟨true, json, .sorted Text⟩, fun way => hsamples way _ (List.mem_singleton_self _)⟩

/-- The session has started, and its monitor is the only task that does something. -/
structure Monitored (m : ResumeMoment) (task : ResumeTask) (file : Option Bytes) : Prop where
  checkpoints : m.state.checkpoints = startedCheckpoints
  task : m.state.tasks 1 = task
  others : ∀ t, t ≠ 1 → m.state.tasks t = .idle
  file : m.state.file = file
  writer : m.state.writer = none
  active : ['s'] ∈ m.state.activeSessions
  owed : m.history.owed = .insert ['s'] 2 ∅
  long : 2 < m.history.past.length
  past : ∀ i checkpoints, 2 ≤ i → m.history.past[i]? = some checkpoints →
    checkpoints = startedCheckpoints

variable {task task' : ResumeTask} {file file' : Option Bytes}

/-- A step of the monitor. -/
lemma Monitored.step {event : ResumeEvent} (h : Monitored m task file)
    (hnext : manager.next m.state event = some s') (hevent : ∀ t monitor, event ≠ .finish t monitor)
    (hcheckpoints : s'.checkpoints = m.state.checkpoints)
    (htasks : s'.tasks = Function.update m.state.tasks 1 task') (hfile : s'.file = file')
    (hwriter : s'.writer = none) (hactive : s'.activeSessions = m.state.activeSessions) :
    ∃ m', manager.Run m m' ∧ Monitored m' task' file' := by
  have hpast : ∀ i checkpoints, 2 ≤ i →
      (m.history.past ++ [s'.checkpoints])[i]? = some checkpoints →
        checkpoints = startedCheckpoints := by
    intro i checkpoints hi hget
    rcases Nat.lt_or_ge i m.history.past.length with hlt | hge
    · rw [List.getElem?_append_left hlt] at hget
      exact h.past i checkpoints hi hget
    · rw [List.getElem?_append_right hge] at hget
      obtain rfl := List.mem_singleton.mp (List.mem_of_getElem? hget)
      exact hcheckpoints.trans h.checkpoints
  refine ⟨⟨s', m.history.observe m.state event s'⟩, Runs.Run.step (e := event) trivial ?_,
    hcheckpoints.trans h.checkpoints, ?_, fun t ht => ?_, hfile, hwriter, hactive ▸ h.active,
    ?_, ?_, hpast⟩
  · rw [ResumeManager.step, hnext]
    rfl
  · dsimp only
    rw [htasks, Function.update_self]
  · dsimp only
    rw [htasks, Function.update_of_ne ht]
    exact h.others t ht
  · cases event with
    | finish t monitor => exact absurd rfl (hevent t monitor)
    | _ => exact h.owed
  · show 2 < (m.history.past ++ [s'.checkpoints]).length
    rw [List.length_append]
    exact h.long.trans_le (Nat.le_add_right _ _)

lemma exists_monitored (manager : ResumeManager) : ∃ s, manager.new none = .ok s ∧
    ∃ m, manager.Run (created s []) m ∧ Monitored m (.monitor ['s']) none := by
  refine ⟨_, rfl, ?_⟩
  have hexec : (Runs.exec manager.step (fun _ _ => True) [
      .startResumableSession 0 ['s'] ['p'] (Text.utf8 ['/', 'f']) 1704067200000000000
        1704067200000000000,
      .saveCheckpoint 0 0, .finish 0 1]
      (created ⟨∅, 0, none, ∅, fun _ => .idle, ∅, none⟩ [])).map (fun m =>
        ((m.state.checkpoints, m.state.file, m.state.writer, m.state.activeSessions),
          m.history.owed, m.history.past, m.state.tasks)) =
      some ((startedCheckpoints, none, none, {['s']}), .insert ['s'] 2 ∅,
        [∅, ∅, startedCheckpoints, startedCheckpoints],
        Function.update (Function.update (Function.update (Function.update (fun _ => .idle) 0
          (.save (.startResumableSession ['s']) startedCheckpoint)) 0
          (.done (.startResumableSession ['s']))) 0 .idle) 1 (.monitor ['s'])) := rfl
  obtain ⟨m, hm, hend⟩ := Option.map_eq_some_iff.mp hexec
  simp only [Prod.mk.injEq, Function.update_idem] at hend
  obtain ⟨⟨hcheckpoints, hfile, hwriter, hactive⟩, howed, hpast, htasks⟩ := hend
  refine ⟨m, Runs.run_of_exec hm, hcheckpoints, ?_, fun t ht => ?_, hfile, hwriter, ?_, howed, ?_,
    fun i checkpoints hi hget => ?_⟩
  · rw [htasks, Function.update_self]
  · rw [htasks, Function.update_of_ne ht]
    by_cases h0 : t = 0
    · subst h0
      rfl
    · rw [Function.update_of_ne h0]
  · rw [hactive]
    exact Finset.mem_singleton_self _
  · rw [hpast]
    decide
  · rw [hpast] at hget
    match i, hi with
    | i + 2, _ =>
      have hmem : checkpoints ∈ [startedCheckpoints, startedCheckpoints] :=
        List.mem_of_getElem? (i := i) hget
      simpa using hmem

lemma exists_startedText : ∃ b rest, startedText.utf8 = b :: rest :=
  List.exists_cons_of_ne_nil (by decide +kernel)

lemma toStringPretty_started (h : manager.WritesStarted) (hs : s.checkpoints = startedCheckpoints) :
    manager.toStringPretty s = some startedText.utf8 := by
  rw [toStringPretty, if_pos, hs, h]
  rw [List.all_eq_true]
  rintro ⟨id, checkpoint⟩ hmem
  rw [IterOrder.mem_entries, hs, startedCheckpoints] at hmem
  obtain ⟨rfl, rfl⟩ | ⟨-, hmem⟩ := HashMap.lookup_insert_cases hmem
  · decide
  · simp at hmem

lemma Monitored.tick (h : Monitored m (.monitor ['s']) file) (hjson : manager.WritesStarted) :
    ∃ m', manager.Run m m' ∧ Monitored m'
      (.write (.monitorSessionCheckpoints ['s']) startedText.utf8 0) (some []) := by
  have hnext : manager.next m.state (.tick 1) = some (manager.saveCheckpointsToDisk m.state 1
      (.monitorSessionCheckpoints ['s'])) := by
    simp only [next, h.task, h.writer, if_true, if_pos h.active]
  rw [saveCheckpointsToDisk, toStringPretty_started hjson h.checkpoints] at hnext
  exact h.step hnext (by simp) rfl rfl rfl h.writer rfl

/-- The monitor writes the whole file. -/
lemma Monitored.write {data : Bytes} {pos : ℕ}
    (h : Monitored m (.write (.monitorSessionCheckpoints ['s']) data pos) (some (data.take pos)))
    (hpos : pos ≤ data.length) :
    ∃ m', manager.Run m m' ∧
      Monitored m' (.write (.monitorSessionCheckpoints ['s']) data data.length) (some data) := by
  obtain ⟨n, hn⟩ := Nat.exists_eq_add_of_le hpos
  induction n generalizing m pos with
  | zero =>
    rw [Nat.add_zero] at hn
    rw [← hn, List.take_length] at h
    exact ⟨m, .refl, h⟩
  | succ n ih =>
    have hlt : pos < data.length := by omega
    have hnext : manager.next m.state (.write 1) = some (ResumeManager.write m.state 1
        (.monitorSessionCheckpoints ['s']) data pos) := by
      simp only [next, h.task]
    rw [ResumeManager.write, List.getElem?_eq_getElem hlt] at hnext
    have htake : overwrite (m.state.file.getD []) pos [data[pos]] = data.take (pos + 1) := by
      have hlength : (data.take pos).length = pos := List.length_take_of_le hpos
      have happend := overwrite_append (data.take pos) [data[pos]]
      rw [hlength] at happend
      rw [h.file, Option.getD_some, happend, List.take_append_getElem hlt]
    obtain ⟨m₁, hrun, hm₁⟩ := h.step hnext (by simp) rfl rfl (congrArg some htake) h.writer rfl
    obtain ⟨m₂, hrun', hm₂⟩ := ih hm₁ hlt (by omega)
    exact ⟨m₂, hrun.trans hrun', hm₂⟩

variable (manager) in
lemma Monitored.finish {data : Bytes}
    (h : Monitored m (.write (.monitorSessionCheckpoints ['s']) data data.length) file) :
    ∃ m', manager.Run m m' ∧ Monitored m' (.monitor ['s']) file := by
  have hnext : manager.next m.state (.write 1) = some (ResumeManager.write m.state 1
      (.monitorSessionCheckpoints ['s']) data data.length) := by
    simp only [next, h.task]
  rw [ResumeManager.write, List.getElem?_eq_none (Nat.le_refl _)] at hnext
  exact h.step hnext (by simp) rfl rfl h.file h.writer rfl

lemma Monitored.owes (h : Monitored m task file) : m.history.Owes ['s'] 2 := by
  refine ⟨by rw [h.owed, Finmap.lookup_insert], fun i checkpoints hi hget => ?_⟩
  rw [h.past i checkpoints hi hget]
  exact Finmap.mem_insert.mpr (.inl rfl)

lemma exists_written (hjson : manager.WritesStarted) : ∃ s, manager.new none = .ok s ∧
    ∃ m, manager.Run (created s []) m ∧ Monitored m
      (.write (.monitorSessionCheckpoints ['s']) startedText.utf8 startedText.utf8.length)
      (some startedText.utf8) := by
  obtain ⟨s, hnew, m₁, hrun₁, hm₁⟩ := exists_monitored manager
  obtain ⟨m₂, hrun₂, hm₂⟩ := hm₁.tick hjson
  obtain ⟨m, hrun, hm⟩ := hm₂.write (Nat.zero_le _)
  exact ⟨s, hnew, m, (hrun₁.trans hrun₂).trans hrun, hm⟩

/-- A session survives a crash after its first tick. -/
theorem survives_monitored : ∃ manager : ResumeManager, manager.WritesStarted ∧
    ∃ s m, manager.new none = .ok s ∧ manager.Run (created s []) m ∧
      m.history.Owes ['s'] 2 ∧ manager.Survives m := by
  obtain ⟨manager, hjson⟩ := exists_writesStarted
  obtain ⟨s, hnew, m, hrun, hm⟩ := exists_written hjson
  refine ⟨manager, hjson, s, m, hnew, hrun, hm.owes, (survives_iff hnew hrun).mpr ?_⟩
  have hkept := kept_along hnew hrun
  rintro id since ⟨howed, -⟩
  have hid : id = ['s'] := by
    by_contra hne
    rw [hm.owed, Finmap.lookup_insert_of_ne _ hne] at howed
    simp at howed
  subst hid
  rw [hm.owed, Finmap.lookup_insert] at howed
  obtain rfl := Option.some.inj howed
  refine ⟨fun t job data pos htask => ?_, startedCheckpoint, ?_, 2, startedCheckpoints,
    Nat.le_refl _, ?_, rfl⟩
  · by_cases ht : t = 1
    · subst ht
      rw [hm.task, ResumeTask.write.injEq] at htask
      rw [hm.file, htask.2.1]
    · rw [hm.others t ht] at htask
      cases htask
  · rw [(hkept.text hm.task).2, hm.checkpoints]
    rfl
  · have hget := List.getElem?_eq_getElem hm.long
    rw [hget, hm.past 2 _ (Nat.le_refl _) hget]

/-- **A session does not survive** a crash at the next tick, when the file has been truncated. -/
theorem not_survives_tick : ∃ manager : ResumeManager, manager.WritesStarted ∧
    ¬ ∀ s m, manager.new none = .ok s → manager.Run (created s []) m → manager.Survives m := by
  obtain ⟨manager, hjson⟩ := exists_writesStarted
  refine ⟨manager, hjson, fun h => ?_⟩
  obtain ⟨s, hnew, m₁, hrun₁, hm₁⟩ := exists_written hjson
  obtain ⟨m₂, hrun₂, hm₂⟩ := hm₁.finish manager
  obtain ⟨m, hrun, hm⟩ := hm₂.tick hjson
  obtain ⟨s', checkpoint, hnew', hlookup, -⟩ :=
    h s m hnew ((hrun₁.trans hrun₂).trans hrun) _ _ hm.owes
  obtain ⟨hload, -, -⟩ := new_eq_ok hnew'
  rw [hm.file] at hload
  have hempty : Rewriting (manager.json.toBytes 0 startedCheckpoints) [] {0} := .begin rfl
  refine lookup_load_of_rewriting hempty (fun heq => ?_) hload hlookup
  rw [hjson 0] at heq
  obtain ⟨b, rest, htext⟩ := exists_startedText
  rw [htext] at heq
  cases heq

end ResumeManager

end Landropic.Daemon
