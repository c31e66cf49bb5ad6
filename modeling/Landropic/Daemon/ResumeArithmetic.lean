import Landropic.Daemon.ResumeCrashes

set_option autoImplicit false

/-!
# Numbers of a resume

Resuming a session subtracts the chunks that were transferred from those that are needed, of which
nobody ever says how many there are, and adds to counters that are kept in the checkpoint.

## Main definitions

* `Daemon.ResumeCheckpoint.Regular` — what holds of the checkpoints of a manager.
* `Daemon.ResumeCheckpoint.CanResume` — the checkpoints that are resumed within the ranges of the
  numbers.
* `Daemon.ResumeManager.live` — the steps of a manager that may be created anew.
* `Daemon.ResumeManager.Sane` — a step resumes within the ranges, and keeps the chunks of the
  checkpoints apart.
* `Daemon.ResumeManager.Careful` — the steps that do.

## Main results

* `Daemon.ResumeCheckpoint.Regular.isSome_resume_iff` — which checkpoints can be resumed.
* `Daemon.ResumeManager.sane_run_iff` — the runs all of whose steps do.
* `Daemon.ResumeManager.not_forall_isSome_resume` — not all runs are of this kind.
-/

namespace Landropic.Daemon

/-! ## Checkpoints -/

namespace ResumeCheckpoint

/-- No chunk has both been transferred and failed. -/
def Apart (c : ResumeCheckpoint) : Prop := c.chunksTransferred.Disjoint c.chunksFailed

/-- What holds of a checkpoint whose updates and resumes were within the ranges: it is not known how
many chunks are needed, no chunk was skipped, and each resume has saved a second. -/
structure Regular (c : ResumeCheckpoint) : Prop where
  totalChunksNeeded : c.totalChunksNeeded = 0
  chunksSkipped : c.bandwidthStats.chunksSkipped = 0
  timeSavedSeconds : c.bandwidthStats.timeSavedSeconds.toNat = c.retryCount.toNat
  apart : c.Apart

/-- A checkpoint can be resumed: no chunk was transferred, and its counters have room, if it is
valid. -/
def CanResume (c : ResumeCheckpoint) (folderExists : Bool) : Prop :=
  UInt64.ofNat c.chunksTransferred.length = 0 ∧
    (c.validate folderExists = none → c.retryCount.toNat + 1 < 2 ^ 32 ∧
      c.bandwidthStats.bytesSavedByResume.toNat + c.bytesTransferred.toNat < 2 ^ 64)

/-- An update keeps the chunks apart: no chunk fails that was transferred. -/
def CanUpdate (c : ResumeCheckpoint) : CheckpointUpdate → Prop
  | .chunkFailed chunkHash => chunkHash ∉ c.chunksTransferred
  | _ => True

variable {c : ResumeCheckpoint} {overflowChecks folderExists : Bool} {now : SystemTime}
  {u : CheckpointUpdate}

lemma regular_initial (sessionId peerId : Text) (folderPath : Bytes)
    (createdAt lastUpdated : SystemTime) :
    Regular (.initial sessionId peerId folderPath createdAt lastUpdated) :=
  ⟨rfl, rfl, rfl, List.disjoint_nil_left _⟩

lemma counters_update (c : ResumeCheckpoint) (now : SystemTime) (update : CheckpointUpdate) :
    (c.update now update).totalChunksNeeded = c.totalChunksNeeded ∧
      (c.update now update).bandwidthStats = c.bandwidthStats ∧
        (c.update now update).retryCount = c.retryCount := by
  cases update with
  | stage stage => cases stage <;> exact ⟨rfl, rfl, rfl⟩
  | chunkTransferred chunkHash =>
    rw [ResumeCheckpoint.update]
    dsimp only
    split <;> exact ⟨rfl, rfl, rfl⟩
  | _ => exact ⟨rfl, rfl, rfl⟩

/-- **Which updates keep the chunks apart.** A chunk that is transferred has not failed any more,
but one that fails may have been transferred. -/
theorem Apart.update_iff (h : c.Apart) : (c.update now u).Apart ↔ c.CanUpdate u := by
  cases u with
  | stage stage => cases stage <;> exact iff_of_true h trivial
  | chunkTransferred chunkHash =>
    refine iff_of_true ?_ trivial
    rw [ResumeCheckpoint.update]
    dsimp only
    split
    · exact h
    · intro other hother hfailed
      obtain ⟨hfailed, hne⟩ := List.mem_filter.mp hfailed
      rcases List.mem_append.mp hother with hold | hnew
      · exact h hold hfailed
      · exact of_decide_eq_true hne (List.mem_singleton.mp hnew)
  | chunkFailed chunkHash =>
    constructor
    · intro hapart hmem
      refine hapart hmem ?_
      show chunkHash ∈ (if chunkHash ∈ c.chunksFailed then c.chunksFailed
        else c.chunksFailed ++ [chunkHash])
      split
      · assumption
      · exact List.mem_append_right _ (List.mem_singleton_self _)
    · intro hmem other hother hfailed
      change other ∈ (if chunkHash ∈ c.chunksFailed then c.chunksFailed
        else c.chunksFailed ++ [chunkHash]) at hfailed
      split at hfailed
      · exact h hother hfailed
      · rcases List.mem_append.mp hfailed with hold | hnew
        · exact h hother hold
        · obtain rfl := List.mem_singleton.mp hnew
          exact hmem hother
  | _ => exact iff_of_true h trivial

lemma Regular.update (h : c.Regular) (hcan : c.CanUpdate u) : (c.update now u).Regular := by
  obtain ⟨htotal, hstats, hretry⟩ := c.counters_update now u
  refine ⟨htotal.trans h.totalChunksNeeded, ?_, ?_, h.apart.update_iff.mpr hcan⟩
  · rw [hstats]
    exact h.chunksSkipped
  · rw [hstats, hretry]
    exact h.timeSavedSeconds

lemma Regular.estimateTimeSaved_eq (h : c.Regular)
    (hchunks : UInt64.ofNat c.chunksTransferred.length = 0) :
    c.estimateTimeSaved overflowChecks = some 1 := by
  rw [estimateTimeSaved, h.totalChunksNeeded, hchunks]
  cases overflowChecks <;> rfl

lemma checked_add {a b : UInt64} (h : a.toNat + b.toNat < 2 ^ 64) :
    checked overflowChecks (a.toNat + b.toNat) (a + b) = some (a + b) :=
  if_neg fun hover => absurd hover.2 (Nat.not_le.mpr h)

/-- **A checkpoint that can be resumed** is, within the ranges, in every build. -/
lemma Regular.exists_resume (h : c.Regular) (hcan : c.CanResume folderExists) :
    ∃ result updated, c.resume overflowChecks folderExists now = some (result, updated) ∧
      ∀ c' ∈ updated, c'.Regular := by
  obtain ⟨hchunks, hroom⟩ := hcan
  rw [resume, hchunks, h.totalChunksNeeded, if_neg fun hunder => absurd hunder.2 (by decide)]
  cases hvalidate : c.validate folderExists with
  | some reason => exact ⟨_, none, rfl, fun c' hc' => absurd hc' (Option.not_mem_none c')⟩
  | none =>
    obtain ⟨hretry, hbytes⟩ := hroom hvalidate
    have hseconds : c.bandwidthStats.timeSavedSeconds.toNat + (1 : UInt64).toNat < 2 ^ 64 := by
      rw [h.timeSavedSeconds]
      exact Nat.lt_trans hretry (by decide)
    have hskipped : c.bandwidthStats.chunksSkipped.toNat + (0 : UInt64).toNat < 2 ^ 64 := by
      rw [h.chunksSkipped]
      decide
    have hcount : ¬ (overflowChecks = true ∧ 2 ^ 32 ≤ c.retryCount.toNat + 1) :=
      fun hover => absurd hover.2 (Nat.not_le.mpr hretry)
    dsimp only
    rw [h.estimateTimeSaved_eq hchunks, Option.bind_eq_bind, Option.bind_some, if_neg hcount,
      checked_add hbytes, checked_add hskipped, checked_add hseconds]
    refine ⟨_, _, rfl, fun c' hc' => ?_⟩
    obtain rfl := Option.some.inj hc'
    refine ⟨rfl, ?_, ?_, h.apart⟩
    · show c.bandwidthStats.chunksSkipped + 0 = 0
      rw [h.chunksSkipped]
      rfl
    · show (c.bandwidthStats.timeSavedSeconds + 1).toNat = (c.retryCount + 1).toNat
      rw [UInt64.toNat_add, UInt32.toNat_add, h.timeSavedSeconds]
      have hone : (1 : UInt64).toNat = 1 ∧ (1 : UInt32).toNat = 1 := ⟨rfl, rfl⟩
      rw [hone.1, hone.2]
      omega

/-- **Which checkpoints can be resumed** without a number out of range. -/
theorem Regular.isSome_resume_iff (h : c.Regular) :
    (c.resume true folderExists now).isSome ↔ c.CanResume folderExists := by
  constructor
  · intro hsome
    rw [resume, h.totalChunksNeeded] at hsome
    by_cases hchunks : UInt64.ofNat c.chunksTransferred.length = 0
    · refine ⟨hchunks, fun hvalidate => ?_⟩
      rw [hchunks, if_neg fun hunder => absurd hunder.2 (by decide), hvalidate] at hsome
      dsimp only at hsome
      rw [h.estimateTimeSaved_eq hchunks] at hsome
      by_contra hroom
      rw [not_and_or, not_lt, not_lt] at hroom
      rw [Option.bind_eq_bind, Option.bind_some] at hsome
      rcases hroom with hretry | hbytes
      · rw [if_pos ⟨rfl, hretry⟩] at hsome
        cases hsome
      · rw [show checked true _ _ = none from if_pos ⟨rfl, hbytes⟩] at hsome
        split at hsome
        · cases hsome
        · cases hsome
    · have hunder : (0 : UInt64) < UInt64.ofNat c.chunksTransferred.length :=
        UInt64.pos_iff_ne_zero.mpr hchunks
      simp [hunder] at hsome
  · intro hcan
    obtain ⟨result, updated, heq, -⟩ := h.exists_resume hcan
    rw [heq]
    rfl

end ResumeCheckpoint

/-! ## A manager and its runs -/

/-- The copy of a checkpoint that a task works on. -/
def ResumeTask.checkpoint : ResumeTask → Option ResumeCheckpoint
  | validate _ checkpoint => some checkpoint
  | save _ checkpoint => some checkpoint
  | _ => none

lemma ResumeJob.checkpoint_failed (job : ResumeJob) : job.failed.checkpoint = none := by
  cases job <;> rfl

lemma ResumeJob.checkpoint_saved (job : ResumeJob) : job.saved.checkpoint = none := by
  cases job <;> rfl

namespace ResumeState

/-- The chunks of all checkpoints are kept apart. -/
def Apart (s : ResumeState) : Prop := ∀ id c, s.checkpoints.lookup id = some c → c.Apart

/-- All checkpoints are regular, and so are the copies that tasks work on. -/
structure Regular (s : ResumeState) : Prop where
  checkpoints : ∀ id c, s.checkpoints.lookup id = some c → c.Regular
  tasks : ∀ t, ∀ c ∈ (s.tasks t).checkpoint, c.Regular

variable {s : ResumeState} {t : ℕ} {task : ResumeTask}

lemma Regular.apart (h : s.Regular) : s.Apart := fun id c hlookup =>
  (h.checkpoints id c hlookup).apart

lemma Regular.withTask (h : s.Regular) (htask : ∀ c ∈ task.checkpoint, c.Regular) :
    (s.withTask t task).Regular := by
  refine ⟨h.checkpoints, fun u c hc => ?_⟩
  have htasks : (s.withTask t task).tasks = Function.update s.tasks t task := rfl
  rw [htasks] at hc
  by_cases hu : u = t
  · subst hu
    rw [Function.update_self] at hc
    exact htask c hc
  · rw [Function.update_of_ne hu] at hc
    exact h.tasks u c hc

lemma Regular.withTask_of_none (h : s.Regular) (htask : task.checkpoint = none) :
    (s.withTask t task).Regular := by
  refine h.withTask fun c hc => ?_
  rw [htask] at hc
  cases hc

lemma Regular.congr {s' : ResumeState} (h : s.Regular)
    (hcheckpoints : s'.checkpoints = s.checkpoints) (htasks : s'.tasks = s.tasks) : s'.Regular :=
  ⟨hcheckpoints ▸ h.checkpoints, htasks ▸ h.tasks⟩

end ResumeState

/-- What can happen to a manager, which may also be created anew over its file. -/
inductive LifeEvent
  | event (event : ResumeEvent)
  | reload

namespace ResumeManager

section Steps

variable (manager : ResumeManager) (s : ResumeState)

/-- The effect of an event, or of a new start. -/
def live : LifeEvent → Option ResumeState
  | .event event => manager.next s event
  | .reload => (manager.new s.file).toOption

/-- A manager without sessions or a file. -/
def fresh : ResumeState := ⟨∅, 0, none, ∅, fun _ => .idle, ∅, none⟩

/-- A step is sane: whatever is resumed is, without a number out of range or a division by zero, and
the chunks of the checkpoints are kept apart. -/
structure Sane (event : LifeEvent) : Prop where
  resumes : ∀ t folderExists now, event = .event (.validate t folderExists now) →
    ∀ id c, s.tasks t = .validate id c → (c.resume true folderExists now).isSome
  apart : ∀ s', manager.live s event = some s' → s'.Apart

/-- The careful steps: no chunk fails that was transferred, and only checkpoints are resumed that
can be. -/
def Careful : LifeEvent → Prop
  | .event (.updateCheckpoint sessionId _ update) =>
    ∀ c, s.checkpoints.lookup sessionId = some c → c.CanUpdate update
  | .event (.validate t folderExists _) =>
    ∀ id c, s.tasks t = .validate id c → c.CanResume folderExists
  | _ => True

end Steps

variable {manager : ResumeManager} {s s' : ResumeState} {event : ResumeEvent}

lemma regular_saveCheckpointsToDisk (h : s.Regular) (t : ℕ) (job : ResumeJob) :
    (manager.saveCheckpointsToDisk s t job).Regular := by
  rw [saveCheckpointsToDisk]
  split
  · exact h.withTask_of_none job.checkpoint_failed
  · refine ResumeState.Regular.withTask_of_none ?_ rfl
    exact h.congr rfl rfl

lemma regular_saveCheckpoint {checkpoint : ResumeCheckpoint} (h : s.Regular)
    (hcheckpoint : checkpoint.Regular) (t way : ℕ) (job : ResumeJob) :
    (manager.saveCheckpoint s t way job checkpoint).Regular := by
  have hinsert : ({ s with
      checkpoints := s.checkpoints.insert checkpoint.sessionId checkpoint
      way := way } : ResumeState).Regular :=
    ⟨HashMap.forall_lookup_insert.mpr ⟨hcheckpoint, fun id c hlookup _ =>
      h.checkpoints id c hlookup⟩, h.tasks⟩
  rw [saveCheckpoint]
  split
  · exact regular_saveCheckpointsToDisk hinsert t job
  · exact hinsert.withTask_of_none rfl

lemma regular_write (h : s.Regular) (t : ℕ) (job : ResumeJob) (data : Bytes) (pos : ℕ) :
    (write s t job data pos).Regular := by
  rw [write]
  split
  · refine ResumeState.Regular.withTask_of_none ?_ rfl
    exact h.congr rfl rfl
  · refine ResumeState.Regular.withTask_of_none ?_ job.checkpoint_saved
    exact h.congr rfl rfl

lemma regular_finish {t monitor : ℕ} {job : ResumeJob} (h : s.Regular)
    (hfinish : finish s t monitor job = some s') : s'.Regular := by
  unfold finish at hfinish
  split at hfinish
  · rw [Option.ite_none_right_eq_some] at hfinish
    obtain ⟨-, hfinish⟩ := hfinish
    obtain rfl := Option.some.inj hfinish
    refine ResumeState.Regular.withTask_of_none ?_ rfl
    refine ResumeState.Regular.withTask_of_none ?_ rfl
    exact h.congr rfl rfl
  · obtain rfl := Option.some.inj hfinish
    exact h.withTask_of_none rfl

lemma regular_update (h : s.Regular) {sessionId : Text} (now : SystemTime)
    {update : CheckpointUpdate}
    (hcan : ∀ c, s.checkpoints.lookup sessionId = some c → c.CanUpdate update) :
    ({ s with checkpoints := s.checkpoints.modify sessionId fun checkpoint =>
      checkpoint.update now update } : ResumeState).Regular := by
  refine ⟨fun id c hlookup => ?_, h.tasks⟩
  dsimp only at hlookup
  rw [HashMap.lookup_modify] at hlookup
  split at hlookup
  · next hid =>
    obtain ⟨old, hold, rfl⟩ := Option.map_eq_some_iff.mp hlookup
    subst hid
    exact (h.checkpoints id old hold).update (hcan old hold)
  · exact h.checkpoints id c hlookup

lemma regular_cleanupOldCheckpoints (h : s.Regular) (t : ℕ) (now : SystemTime) (way : ℕ) :
    (manager.cleanupOldCheckpoints s t now way).Regular := by
  have hkept : ({ s with
      checkpoints := HashMap.collect <|
        (manager.order.entries s.checkpoints).filter fun entry => entry.2.isKept now
      way := way } : ResumeState).Regular := by
    refine ⟨fun id c hlookup => ?_, h.tasks⟩
    rw [IterOrder.lookup_collect_filter_entries, Option.filter_eq_some_iff] at hlookup
    exact h.checkpoints id c hlookup.1
  rw [cleanupOldCheckpoints]
  split
  · exact regular_saveCheckpointsToDisk hkept t _
  · exact hkept

/-- **Every careful step leaves the checkpoints regular.** -/
theorem regular_next (h : s.Regular) (hcareful : Careful s (.event event))
    (hnext : manager.next s event = some s') : s'.Regular := by
  cases event with
  | startResumableSession t sessionId peerId folderPath createdAt lastUpdated =>
    simp only [next, Option.ite_none_right_eq_some, Option.some.injEq] at hnext
    obtain ⟨-, rfl⟩ := hnext
    refine h.withTask fun c hc => ?_
    obtain rfl := Option.some.inj hc
    exact ResumeCheckpoint.regular_initial ..
  | resumeSession t sessionId =>
    simp only [next, Option.ite_none_right_eq_some] at hnext
    obtain ⟨-, hnext⟩ := hnext
    split at hnext
    · next checkpoint hlookup =>
      obtain rfl := Option.some.inj hnext
      refine h.withTask fun c hc => ?_
      obtain rfl := Option.some.inj hc
      exact h.checkpoints sessionId _ hlookup
    · obtain rfl := Option.some.inj hnext
      exact h
  | validate t folderExists now =>
    simp only [next] at hnext
    split at hnext
    · next id checkpoint htask =>
      have hregular : checkpoint.Regular := h.tasks t checkpoint (by rw [htask]; rfl)
      obtain ⟨result, updated, heq, hupdated⟩ :=
        hregular.exists_resume (hcareful id checkpoint htask)
      rw [heq] at hnext
      cases updated with
      | some c =>
        obtain rfl := Option.some.inj hnext
        refine h.withTask fun c' hc' => ?_
        obtain rfl := Option.some.inj hc'
        exact hupdated _ rfl
      | none =>
        obtain rfl := Option.some.inj hnext
        exact h.withTask_of_none rfl
    · cases hnext
  | saveCheckpoint t way =>
    simp only [next] at hnext
    split at hnext
    · next job checkpoint htask =>
      rw [Option.ite_none_right_eq_some] at hnext
      obtain ⟨-, hnext⟩ := hnext
      obtain rfl := Option.some.inj hnext
      exact regular_saveCheckpoint h (h.tasks t checkpoint (by rw [htask]; rfl)) t way job
    · cases hnext
  | write t =>
    simp only [next] at hnext
    split at hnext
    · next job data pos htask =>
      obtain rfl := Option.some.inj hnext
      exact regular_write h t job data pos
    · cases hnext
  | finish t monitor =>
    simp only [next] at hnext
    split at hnext
    · exact regular_finish h hnext
    · cases hnext
  | updateCheckpoint sessionId now update =>
    simp only [next, Option.ite_none_right_eq_some, Option.some.injEq] at hnext
    obtain ⟨-, rfl⟩ := hnext
    exact regular_update h now hcareful
  | cleanupOldCheckpoints t now way =>
    simp only [next, Option.ite_none_right_eq_some, Option.some.injEq] at hnext
    obtain ⟨-, rfl⟩ := hnext
    exact regular_cleanupOldCheckpoints h t now way
  | tick t =>
    simp only [next] at hnext
    split at hnext
    · rw [Option.ite_none_right_eq_some] at hnext
      obtain ⟨-, hnext⟩ := hnext
      split at hnext
      · obtain rfl := Option.some.inj hnext
        exact regular_saveCheckpointsToDisk h t _
      · obtain rfl := Option.some.inj hnext
        exact h.withTask_of_none rfl
    · cases hnext

variable (manager) in
/-- What holds of a manager after sane steps: its checkpoints are regular, and those that the file
was last written for. -/
structure Steady (s : ResumeState) : Prop where
  regular : s.Regular
  file : ∃ written, manager.Kept s written ∧ ∀ id c, written.lookup id = some c → c.Regular

lemma steady_fresh : manager.Steady fresh := by
  have hnew : manager.new none = .ok fresh := rfl
  have hregular : fresh.Regular :=
    ⟨by simp [fresh], fun _ c hc => absurd hc (Option.not_mem_none c)⟩
  exact ⟨hregular, ∅, kept_created hnew, by simp⟩

lemma Steady.new (h : manager.Steady s) (hnew : manager.new s.file = .ok s') :
    manager.Steady s' := by
  obtain ⟨written, hkept, hwritten⟩ := h.file
  obtain ⟨hload, hfile, hidle⟩ := new_eq_ok hnew
  have hregular : ∀ id c, s'.checkpoints.lookup id = some c → c.Regular := by
    intro id c hlookup
    rcases hkept.file with ⟨hwhole, -⟩ | ⟨way, content, hcontent, hrewriting, -⟩
    · rw [Except.ok.inj (hload.symm.trans hwhole)] at hlookup
      exact hwritten id c hlookup
    · rw [hcontent] at hload
      by_cases heq : content = manager.json.toBytes way written
      · rw [heq, load_toBytes] at hload
        rw [← Except.ok.inj hload] at hlookup
        exact hwritten id c hlookup
      · exact absurd hlookup (lookup_load_of_rewriting hrewriting heq hload)
  refine ⟨⟨hregular, fun t c hc => ?_⟩, s'.checkpoints, kept_created hnew, hregular⟩
  rw [hidle t] at hc
  cases hc

lemma Steady.live (h : manager.Steady s) {event : LifeEvent} (hcareful : Careful s event)
    (hlive : manager.live s event = some s') : manager.Steady s' := by
  cases event with
  | event event =>
    obtain ⟨written, hkept, hwritten⟩ := h.file
    have hregular := regular_next h.regular hcareful hlive
    refine ⟨hregular, _, hkept.effect (effect_of_next hlive), fun id c hlookup => ?_⟩
    split at hlookup
    · exact hregular.checkpoints id c hlookup
    · exact hwritten id c hlookup
  | reload =>
    rw [ResumeManager.live] at hlive
    cases hnew : manager.new s.file with
    | error e =>
      rw [hnew] at hlive
      cases hlive
    | ok s₁ =>
      rw [hnew] at hlive
      obtain rfl := Option.some.inj hlive
      exact h.new hnew

/-- **A step is sane if and only if it is careful**, if it is possible. -/
theorem Steady.sane_iff (h : manager.Steady s) {event : LifeEvent}
    (hlive : manager.live s event = some s') : manager.Sane s event ↔ Careful s event := by
  constructor
  · intro hsane
    rcases event with (_ | _ | ⟨t, folderExists, now⟩ | _ | _ | _ | ⟨id, now, update⟩ | _ | _) | _
    case event.validate =>
      intro id c htask
      have hregular : c.Regular := h.regular.tasks t c (by rw [htask]; rfl)
      exact hregular.isSome_resume_iff.mp (hsane.resumes t folderExists now rfl id c htask)
    case event.updateCheckpoint =>
      intro c hlookup
      have hapart := hsane.apart s' hlive id (c.update now update)
      simp only [ResumeManager.live, next, Option.ite_none_right_eq_some, Option.some.injEq]
        at hlive
      obtain ⟨-, rfl⟩ := hlive
      rw [HashMap.lookup_modify, if_pos rfl, hlookup] at hapart
      exact (h.regular.checkpoints id c hlookup).apart.update_iff.mp (hapart rfl)
    all_goals trivial
  · intro hcareful
    refine ⟨?_, fun s'' hlive' => (h.live hcareful hlive').regular.apart⟩
    rintro t folderExists now rfl id c htask
    have hregular : c.Regular := h.regular.tasks t c (by rw [htask]; rfl)
    exact hregular.isSome_resume_iff.mpr (hcareful id c htask)

/-- **The runs in which resuming never panics.** Calls that start, update and resume sessions, and
the monitors, take their steps in any order, and the manager may be created anew at any time. All
steps resume within the ranges of the numbers and keep the chunks of the checkpoints apart, if and
only if no chunk fails that was transferred before, and only checkpoints are resumed that have no
transferred chunk and whose counters have room.

**Proof sketch.** Nobody sets how many chunks are needed, so that the subtraction underflows as soon
as one was transferred. In careful runs all checkpoints, also those that the file was last written
for, stay regular, and of these exactly the ones that can be are resumed within the ranges. -/
theorem sane_run_iff (manager : ResumeManager) (s : ResumeState) :
    (Runs.Run manager.live manager.Sane fresh s ↔ Runs.Run manager.live Careful fresh s) ∧
      (Runs.Run manager.live Careful fresh s → s.Apart) := by
  have hiff : (Runs.Run manager.live manager.Sane fresh s ↔ Runs.Run manager.live Careful fresh s) ∧
      (Runs.Run manager.live Careful fresh s → manager.Steady s) :=
    Runs.run_iff_run_of_next steady_fresh (fun h hlive => h.sane_iff hlive)
      fun h hsane hlive => h.live ((h.sane_iff hlive).mp hsane) hlive
  exact ⟨hiff.1, fun hrun => (hiff.2 hrun).regular.apart⟩

section Examples

/-- A session starts, transfers a chunk and is resumed. -/
private def resumedEvents : List LifeEvent :=
  [.event (.startResumableSession 0 ['s'] ['p'] (Text.utf8 ['/', 'f']) 1704067200000000000
      1704067200000000000),
    .event (.saveCheckpoint 0 0), .event (.finish 0 1),
    .event (.updateCheckpoint ['s'] 1704067200000000000 (.chunkTransferred ['h'])),
    .event (.resumeSession 0 ['s'])]

/-- **A session that has transferred a chunk cannot be resumed**: the number of chunks that remain
is out of range. -/
theorem not_forall_isSome_resume :
    ¬ ∀ (manager : ResumeManager) (s : ResumeState),
      Runs.Run manager.live (fun _ _ => True) fresh s → ∀ t id c, s.tasks t = .validate id c →
        ∀ folderExists now, (c.resume true folderExists now).isSome := by
  intro hall
  obtain ⟨manager, -⟩ := exists_writesStarted
  have hexec : (Runs.exec manager.live (fun _ _ => True) resumedEvents fresh).map
      (fun s => s.tasks 0) = some (.validate ['s']
        (startedCheckpoint.update 1704067200000000000 (.chunkTransferred ['h']))) := rfl
  obtain ⟨s, hs, htask⟩ := Option.map_eq_some_iff.mp hexec
  have hsome := hall manager s (Runs.run_of_exec hs) 0 _ _ htask true 0
  revert hsome
  decide

end Examples

end ResumeManager

end Landropic.Daemon
