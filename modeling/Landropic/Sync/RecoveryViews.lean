import Landropic.Sync.RecoveryRaces
import Landropic.Sync.RecoveryRuns

set_option autoImplicit false

/-!
# The two views of a recovery manager

A manager keeps the operations at work in memory and in its log. Its calls change the one and the
other, a restart forgets the first, and recovery goes through the second without putting anything
to work again. So what recovery leaves unfinished can be completed only if it happens to be at work.

## Main definitions

* `RecoveryManager.Effect` — what a call does to the two views.
* `RecoveryRun` — a manager between its calls, with what was completed for good.
* `RecoveryManager.Makes` — a call that is made without faults, or a restart.
* `RecoveryManager.ViewsAgree` — what is unfinished after recovery is at work, what is at work is in
  the log, and what was completed is in neither.
* `RecoveryManager.KeepsAtWork` — the calls that leave the views in agreement.

## Main results

* `RecoveryManager.wp_code` — a call does what its effect says.
* `RecoveryManager.viewsAgree_makes` — which steps leave the views in agreement.
* `RecoveryManager.viewsAgree_of_run` — when the views agree.
-/

namespace Landropic

namespace Operation

/-- Recovery abandons an operation that was started too long ago. -/
def IsOld (op : Operation) (now : DateTime) : Prop := 24 < now.numHoursSince op.startedAt

/-- Recovery finds nothing left to do. -/
def NothingLeft (op : Operation) : Prop :=
  match op.operationType with
  | .transfer _ _ _ totalSize bytesTransferred => totalSize ≤ bytesTransferred
  | .manifestSync _ _ localManifestHash remoteManifestHash => localManifestHash = remoteManifestHash
  | .indexUpdate _ filesProcessed totalFiles => totalFiles ≤ filesProcessed

instance (op : Operation) : Decidable op.NothingLeft := by
  unfold NothingLeft
  split <;> infer_instance

/-- The record of an operation after it was completed. -/
def completedAt (op : Operation) (now : DateTime) : Operation :=
  { op with status := .completed, lastCheckpoint := now }

/-- The record of an operation after it has failed. -/
def failedAt (op : Operation) (error : Text) (now : DateTime) : Operation :=
  { op with
    status := .failed
    errorMessage := some error
    retryCount := op.retryCount + 1
    lastCheckpoint := now }

end Operation

namespace RecoveryManager

open Proc

/-! ## The effect of a call -/

/-- The log as a map from the ids of operations to their records. -/
abbrev LogView := Text → Option Operation

/-- What recovery makes of the operations it has loaded: one that is too old is left as it is. -/
structure Recovers (A : RecoveryInput → Prop) (operations : List Operation)
    (before after : LogView) : Prop where
  other : ∀ id, (∀ op ∈ operations, op.id ≠ id) → after id = before id
  each : ∀ op ∈ operations,
    (∃ i, A i ∧ op.IsOld i.now) ∧ after op.id = before op.id ∨
      (∃ i, A i ∧ ¬ op.IsOld i.now) ∧ after op.id = some (recovered op (.ok op.NothingLeft))

variable (manager : RecoveryManager)

/-- What a call does to the operations at work and to the log. -/
def Effect (A : RecoveryInput → Prop) (s s' : RecoveryState) : RecoveryCall → Prop
  | .startOperation op =>
    s'.active = s.active.insert op.id op ∧
      manager.logged s'.log = Function.update (manager.logged s.log) op.id (some op)
  | .checkpointOperation id update =>
    match s.active.lookup id with
    | none => s'.active = s.active ∧ manager.logged s'.log = manager.logged s.log
    | some op => ∃ i, A i ∧
      s'.active = s.active.insert id { update op with lastCheckpoint := i.now } ∧
        manager.logged s'.log = Function.update (manager.logged s.log) (update op).id
          (some { update op with lastCheckpoint := i.now })
  | .completeOperation id =>
    match s.active.lookup id with
    | none => s'.active = s.active ∧ manager.logged s'.log = manager.logged s.log
    | some op => ∃ i, A i ∧ s'.active = s.active.erase id ∧
      manager.logged s'.log = Function.update
        (Function.update (manager.logged s.log) op.id (some (op.completedAt i.now))) id none
  | .failOperation id error =>
    match s.active.lookup id with
    | none => s'.active = s.active ∧ manager.logged s'.log = manager.logged s.log
    | some op => ∃ i, A i ∧
      s'.active = (if 3 ≤ op.retryCount + 1 then
        (s.active.insert id (op.failedAt error i.now)).erase id
        else s.active.insert id (op.failedAt error i.now)) ∧
      manager.logged s'.log = Function.update (manager.logged s.log) op.id
        (some (op.failedAt error i.now))
  | .recoverOnStartup =>
    s'.active = s.active ∧ Recovers A ((manager.records s.log).filter Operation.isIncomplete)
      (manager.logged s.log) (manager.logged s'.log)

/-- A log that can be read and records no operation twice. -/
structure SoundLog (log : Option Bytes) : Prop where
  noRepeats : manager.NoRepeats log
  readable : ∀ bytes, log = some bytes → ∃ content, Text.fromUtf8 bytes = some content

variable {manager} {A : RecoveryInput → Prop} {s s' : RecoveryState} {log : Option Bytes}
  {op : Operation} {id : Text} {before after : LogView} {α : Type}

lemma logged_eq_some (h : manager.SoundLog log) :
    manager.logged log id = some op ↔ op ∈ manager.records log ∧ op.id = id := by
  constructor
  · exact fun hop => ⟨RecordLog.mem_of_find hop, RecordLog.key_of_find hop⟩
  · rintro ⟨hmem, rfl⟩
    exact (RecordLog.mem_iff_find h.noRepeats).mp hmem

lemma logged_eq_none (h : manager.SoundLog log) :
    manager.logged log id = none ↔ ∀ op ∈ manager.records log, op.id ≠ id := by
  rw [Option.eq_none_iff_forall_not_mem]
  exact ⟨fun hall op hop hid => hall op ((logged_eq_some h).mpr ⟨hop, hid⟩),
    fun hall op hop => hall op ((logged_eq_some h).mp hop).1 ((logged_eq_some h).mp hop).2⟩

lemma soundLog_utf8 {content : Text}
    (h : manager.NoRepeats (some content.utf8)) : manager.SoundLog (some content.utf8) :=
  ⟨h, fun bytes hbytes => ⟨content, by rw [← Option.some.inj hbytes, Text.fromUtf8_utf8]⟩⟩

lemma SoundLog.save (h : manager.SoundLog log) (op : Operation) :
    manager.SoundLog (some (manager.savedContent op (existingContent log)).utf8) ∧
      manager.logged (some (manager.savedContent op (existingContent log)).utf8) =
        Function.update (manager.logged log) op.id (some op) := by
  refine ⟨soundLog_utf8 ?_, ?_⟩
  · rw [NoRepeats, records_savedContent]
    exact RecordLog.nodup_upsert h.noRepeats
  · funext id
    rw [logged_savedContent, Function.update_apply]

lemma SoundLog.remove (h : manager.SoundLog log) (id : Text) :
    manager.SoundLog (some (manager.keptContent id (existingContent log)).utf8) ∧
      manager.logged (some (manager.keptContent id (existingContent log)).utf8) =
        Function.update (manager.logged log) id none := by
  refine ⟨soundLog_utf8 ?_, ?_⟩
  · rw [NoRepeats, records_keptContent]
    exact RecordLog.nodup_filter h.noRepeats
  · funext id'
    rw [logged_keptContent, Function.update_apply]

lemma loadedLog_eq (h : manager.SoundLog log) :
    manager.loadedLog log = .ok ((manager.records log).filter Operation.isIncomplete) := by
  cases log with
  | none => rfl
  | some bytes =>
    obtain ⟨content, hcontent⟩ := h.readable bytes rfl
    have hexisting : existingContent (some bytes) = content := by simp [existingContent, hcontent]
    simp only [loadedLog, hcontent, records, hexisting, LineCodec.records, List.filter_filterMap,
      Except.ok.injEq]
    refine List.filterMap_congr fun line _ => ?_
    cases hblank : line.isBlank with
    | true => simp [manager.json.fromText_of_isBlank line hblank]
    | false =>
      cases manager.json.fromText line with
      | none => rfl
      | some op => rfl

/-! ## The functions on their own -/

/-- **Saving an operation** puts its record into the log. -/
lemma wp_save {Q : Except RecoveryError Unit → RecoveryState → Prop} (h : manager.SoundLog s.log)
    (hQ : ∀ log tmp, manager.SoundLog log →
      manager.logged log = Function.update (manager.logged s.log) op.id (some op) →
        Q (.ok ()) { s with log := log, tmp := tmp }) :
    wp (.alone _ A) Q (manager.saveOperation op) s := by
  obtain ⟨hsound, hlogged⟩ := h.save op
  refine wp_bind (wp_atom fun s₁ hs₁ i _ => ⟨trivial, ?_⟩)
  refine wp_bind (wp_atom fun s₂ hs₂ i _ => ⟨trivial, ?_⟩)
  refine wp_atom fun s₃ hs₃ i _ => ⟨trivial, ?_⟩
  subst hs₁ hs₂ hs₃
  exact hQ _ _ hsound hlogged

/-- **Removing an operation** drops its records from the log. -/
lemma wp_remove {Q : Except RecoveryError Unit → RecoveryState → Prop} (h : manager.SoundLog s.log)
    (hQ : ∀ log, manager.SoundLog log →
      manager.logged log = Function.update (manager.logged s.log) id none →
        Q (.ok ()) { s with log := log }) :
    wp (.alone _ A) Q (manager.removeOperation id) s := by
  refine wp_bind (wp_atom fun s₁ hs₁ i _ => ⟨trivial, ?_⟩)
  subst hs₁
  cases hlog : s.log with
  | none =>
    have hnone := hQ none ⟨List.nodup_nil, nofun⟩ (by
      rw [hlog]
      funext id'
      rw [Function.update_apply, show manager.logged none id' = none from rfl, ite_self])
    rw [← hlog] at hnone
    exact hnone
  | some bytes =>
    obtain ⟨content, hcontent⟩ := h.readable bytes hlog
    obtain ⟨hsound, hlogged⟩ := h.remove id
    have hexisting : existingContent s.log = content := by simp [existingContent, hlog, hcontent]
    rw [hexisting] at hsound hlogged
    simp only [hcontent]
    refine wp_atom fun s₂ hs₂ i _ => ⟨trivial, ?_⟩
    subst hs₂
    exact hQ _ hsound hlogged

/-- **Holding the lock** adds nothing to what a process does. -/
lemma wp_locked {Q : Except RecoveryError α → RecoveryState → Prop} {body : RecoveryTask α}
    (h : s.locked = false)
    (hbody : wp (.alone _ A) (fun r s => Q r { s with locked := false }) body
      { s with locked := true }) :
    wp (.alone _ A) Q (whileLocked body) s := by
  refine wp_bind ?_
  intro s₁ hs₁
  subst hs₁
  refine ⟨fun _ => by simp [h], fun _ i _ => ⟨trivial, ?_⟩⟩
  refine wp_bind (wp_attempt (wp_mono hbody fun r s₁ hr => ?_))
  refine wp_bind (wp_atom fun s₂ hs₂ i _ => ⟨trivial, ?_⟩)
  subst hs₂
  exact hr

lemma wp_recover {Q : Except RecoveryError Bool → RecoveryState → Prop}
    (hA : ∀ i, A i → i.databaseError = none) (hQ : Q (.ok op.NothingLeft) s) :
    wp (.alone _ A) Q (recoverOperation op) s := by
  unfold Operation.NothingLeft at hQ
  unfold recoverOperation
  cases htype : op.operationType with
  | transfer peerId filePath chunkHash totalSize bytesTransferred =>
    simp only [htype] at hQ ⊢
    split
    · next hdone =>
      rw [decide_eq_true hdone] at hQ
      exact hQ
    · next hleft =>
      rw [decide_eq_false hleft] at hQ
      refine wp_bind (wp_atom fun s₁ hs₁ i hi => ⟨trivial, ?_⟩)
      subst hs₁
      simp only [hA i hi]
      exact hQ
  | manifestSync peerId folderId localManifestHash remoteManifestHash =>
    simp only [htype] at hQ ⊢
    exact hQ
  | indexUpdate folderPath filesProcessed totalFiles =>
    simp only [htype] at hQ ⊢
    exact hQ

/-- **The recovery of one operation.** -/
lemma wp_process {Q : Except RecoveryError RecoveryStats → RecoveryState → Prop}
    {stats : RecoveryStats} (hA : ∀ i, A i → i.databaseError = none) (h : manager.SoundLog s.log)
    (hold : ∀ stats i, A i → op.IsOld i.now → Q (.ok stats) s)
    (hnew : ∀ stats i log tmp, A i → ¬ op.IsOld i.now → manager.SoundLog log →
      manager.logged log = Function.update (manager.logged s.log) op.id
        (some (recovered op (.ok op.NothingLeft))) →
          Q (.ok stats) { s with log := log, tmp := tmp }) :
    wp (.alone _ A) Q (manager.processOperation stats op) s := by
  refine wp_bind (wp_atom fun s₁ hs₁ i hi => ⟨trivial, ?_⟩)
  subst hs₁
  dsimp only
  split
  · next hage => exact hold _ i hi hage
  · next hage =>
    refine wp_bind (wp_save h fun log tmp hsound hlogged => ?_)
    refine wp_bind (wp_attempt (wp_recover hA ?_))
    refine wp_bind (wp_save hsound fun log' tmp' hsound' hlogged' => ?_)
    refine hnew _ i log' tmp' hi hage hsound' ?_
    rw [hlogged', hlogged, id_recovered]
    exact Function.update_idem ..

/-- **Recovery** goes through the operations it has loaded. -/
lemma wp_recovery {operations : List Operation} {stats : RecoveryStats}
    {Q : Except RecoveryError RecoveryStats → RecoveryState → Prop}
    (hA : ∀ i, A i → i.databaseError = none) (h : manager.SoundLog s.log)
    (hnodup : (operations.map Operation.id).Nodup)
    (hQ : ∀ stats log tmp, manager.SoundLog log →
      Recovers A operations (manager.logged s.log) (manager.logged log) →
        Q (.ok stats) { s with log := log, tmp := tmp }) :
    wp (.alone _ A) Q (operations.foldlM manager.processOperation stats) s := by
  induction operations generalizing stats s with
  | nil => exact hQ stats s.log s.tmp h ⟨fun _ _ => rfl, by simp⟩
  | cons op rest ih =>
    rw [List.map_cons, List.nodup_cons] at hnodup
    have hrest : ∀ op' ∈ rest, op'.id ≠ op.id :=
      fun op' hop' heq => hnodup.1 (heq ▸ List.mem_map_of_mem hop')
    rw [List.foldlM_cons]
    refine wp_bind (wp_process hA h (fun stats i hi hage => ?_)
      fun stats i log tmp hi hage hsound hlogged => ?_)
    · refine ih h hnodup.2 fun stats log tmp hsound hrecovers => hQ stats log tmp hsound ⟨?_, ?_⟩
      · exact fun id hid =>
          hrecovers.other id fun op' hop' => hid op' (List.mem_cons_of_mem op hop')
      · rw [List.forall_mem_cons]
        exact ⟨.inl ⟨⟨i, hi, hage⟩, hrecovers.other op.id hrest⟩, hrecovers.each⟩
    · refine ih hsound hnodup.2 fun stats log' tmp' hsound' hrecovers =>
        hQ stats log' tmp' hsound' ⟨?_, ?_⟩
      · intro id hid
        rw [List.forall_mem_cons] at hid
        rw [hrecovers.other id hid.2, hlogged, Function.update_of_ne (Ne.symm hid.1)]
      · rw [List.forall_mem_cons]
        refine ⟨.inr ⟨⟨i, hi, hage⟩, ?_⟩, fun op' hop' => ?_⟩
        · rw [hrecovers.other op.id hrest, hlogged, Function.update_self]
        · have heach := hrecovers.each op' hop'
          rwa [hlogged, Function.update_of_ne (hrest op' hop')] at heach

/-- **A call does what its effect says.** -/
theorem wp_code {c : RecoveryCall} (hA : ∀ i, A i → i.databaseError = none)
    (hlocked : s.locked = false) (h : manager.SoundLog s.log) :
    wp (.alone _ A) (fun r s' => r = .ok () ∧ s'.locked = false ∧ manager.SoundLog s'.log ∧
      manager.Effect A s s' c) (manager.code c) s := by
  cases c with
  | startOperation op =>
    refine wp_bind ?_
    intro s₁ hs₁
    subst hs₁
    refine ⟨fun _ => by simp [hlocked], fun _ i _ => ⟨trivial, ?_⟩⟩
    exact wp_save h fun log tmp hsound hlogged => ⟨rfl, hlocked, hsound, rfl, hlogged⟩
  | checkpointOperation id update =>
    refine wp_locked hlocked (wp_bind (wp_atom fun s₁ hs₁ i hi => ⟨trivial, ?_⟩))
    subst hs₁
    cases hop : s.active.lookup id with
    | none =>
      refine ⟨rfl, rfl, h, ?_⟩
      simp only [Effect, hop]
      exact ⟨trivial, trivial⟩
    | some op =>
      refine wp_save h fun log tmp hsound hlogged => ⟨rfl, rfl, hsound, ?_⟩
      simp only [Effect, hop]
      exact ⟨i, hi, rfl, hlogged⟩
  | completeOperation id =>
    refine wp_locked hlocked (wp_bind (wp_atom fun s₁ hs₁ i hi => ⟨trivial, ?_⟩))
    subst hs₁
    cases hop : s.active.lookup id with
    | none =>
      refine ⟨rfl, rfl, h, ?_⟩
      simp only [Effect, hop]
      exact ⟨trivial, trivial⟩
    | some op =>
      refine wp_bind (wp_save h fun log tmp hsound hlogged => ?_)
      refine wp_bind (wp_attempt (wp_remove hsound fun log' hsound' hlogged' => ?_))
      refine ⟨rfl, rfl, hsound', ?_⟩
      simp only [Effect, hop]
      refine ⟨i, hi, trivial, ?_⟩
      rw [hlogged', hlogged]
      rfl
  | failOperation id error =>
    refine wp_locked hlocked (wp_bind (wp_atom fun s₁ hs₁ i hi => ⟨trivial, ?_⟩))
    subst hs₁
    cases hop : s.active.lookup id with
    | none =>
      refine ⟨rfl, rfl, h, ?_⟩
      simp only [Effect, hop]
      exact ⟨trivial, trivial⟩
    | some op =>
      refine wp_bind (wp_save h fun log tmp hsound hlogged => ?_)
      dsimp only
      split
      · next hretry =>
        refine wp_atom fun s₂ hs₂ _ _ => ⟨trivial, ?_⟩
        subst hs₂
        refine ⟨rfl, rfl, hsound, ?_⟩
        simp only [Effect, hop]
        exact ⟨i, hi, (if_pos hretry).symm, hlogged⟩
      · next hretry =>
        refine ⟨rfl, rfl, hsound, ?_⟩
        simp only [Effect, hop]
        exact ⟨i, hi, (if_neg hretry).symm, hlogged⟩
  | recoverOnStartup =>
    refine wp_bind (wp_bind (wp_atom fun s₁ hs₁ i _ => ⟨trivial, ?_⟩))
    subst hs₁
    rw [loadedLog_eq h]
    refine wp_recovery hA h (RecordLog.nodup_filter h.noRepeats) ?_
    exact fun stats log tmp hsound hrecovers => ⟨rfl, hlocked, hsound, rfl, hrecovers⟩

end RecoveryManager

/-! ## Runs -/

/-- What happens to a manager: a call, with what its actions may meet, or a restart. -/
inductive RecoveryEvent
  | call (c : RecoveryCall) (A : RecoveryInput → Prop)
  | restart

/-- A manager between its calls. -/
structure RecoveryRun where
  state : RecoveryState
  /-- The operations that were completed and not started again. -/
  gone : Finset Text
  /-- Recovery has run since the last restart. -/
  recovered : Bool

namespace RecoveryManager

/-- The completed operations after a call. -/
def goneAfter (gone : Finset Text) : RecoveryCall → Finset Text
  | .startOperation op => gone.erase op.id
  | .completeOperation id => insert id gone
  | _ => gone

/-- Recovery has run since the last restart, after a call. -/
def recoveredAfter (recovered : Bool) : RecoveryCall → Bool
  | .recoverOnStartup => true
  | _ => recovered

variable (manager : RecoveryManager)

/-- A call that is made without faults and returns, or a restart. -/
def Makes (σ : RecoveryRun) (e : RecoveryEvent) (σ' : RecoveryRun) : Prop :=
  match e with
  | .call c A => (∀ i, A i → i.databaseError = none) ∧
    (∃ r, Proc.Returns A (manager.code c) σ.state r σ'.state) ∧
      σ'.gone = goneAfter σ.gone c ∧ σ'.recovered = recoveredAfter σ.recovered c
  | .restart => σ' = ⟨σ.state.restarted, σ.gone, false⟩

/-- A manager that has just been created, without a log. -/
def firstRun : RecoveryRun := ⟨unused, ∅, false⟩

/-- The two views agree. -/
structure ViewsAgree (σ : RecoveryRun) : Prop where
  /-- What recovery has left unfinished is at work. -/
  unfinished : σ.recovered = true → ∀ op ∈ manager.records σ.state.log, op.isFinished = false →
    op.id ∈ σ.state.active
  /-- What is at work is in the log. -/
  logged : ∀ id ∈ σ.state.active, ∃ op ∈ manager.records σ.state.log, op.id = id
  /-- What was completed is neither at work nor in the log. -/
  gone : ∀ id ∈ σ.gone, id ∉ σ.state.active ∧ ∀ op ∈ manager.records σ.state.log, op.id ≠ id

/-- The calls that leave the views in agreement:
* recovery finds no unfinished operation that is not at work, unless it finishes it,
* what is completed is at work or not in the log,
* no record is saved under the id of a completed operation, and after recovery no unfinished one
  under an id that is not at work, and none is left behind by an operation that has failed for good.
-/
def KeepsAtWork (σ : RecoveryRun) : RecoveryEvent → Prop
  | .call (.checkpointOperation id update) _ => ∀ op, σ.state.active.lookup id = some op →
    (update op).id ∉ σ.gone ∧
      (σ.recovered = true → (update op).isFinished = false → (update op).id ∈ σ.state.active)
  | .call (.completeOperation id) _ =>
    (id ∈ σ.state.active ∨ ∀ op ∈ manager.records σ.state.log, op.id ≠ id) ∧
      ∀ op, σ.state.active.lookup id = some op → op.id ∉ σ.gone
  | .call (.failOperation id _) _ => ∀ op, σ.state.active.lookup id = some op →
    op.id ∉ σ.gone ∧ (σ.recovered = true →
      if 3 ≤ op.retryCount + 1 then op.id = id ∨
        ∀ left ∈ manager.records σ.state.log, left.id = id → left.isFinished = true
      else op.id ∈ σ.state.active)
  | .call .recoverOnStartup A => ∀ op ∈ manager.records σ.state.log, op.isFinished = false →
    op.id ∈ σ.state.active ∨
      op.isIncomplete = true ∧ op.NothingLeft ∧ ∀ i, A i → ¬ op.IsOld i.now
  | _ => True

/-- All actions of a call are taken at the same time. -/
def AtOneTime : RecoveryEvent → Prop
  | .call _ A => ∀ i j, A i → A j → i.now = j.now
  | .restart => True

/-! ## Agreement -/

/-- The operations at work agree with the log. -/
structure Agree (recovered : Bool) (gone : Finset Text) (active : HashMap Text Operation)
    (log : LogView) : Prop where
  unfinished : recovered = true → ∀ id op, log id = some op → op.isFinished = false → id ∈ active
  logged : ∀ id ∈ active, log id ≠ none
  gone : ∀ id ∈ gone, id ∉ active ∧ log id = none

section Agree

variable {manager} {A : RecoveryInput → Prop} {ran : Bool} {gone : Finset Text}
  {active : HashMap Text Operation} {log log' : LogView} {id : Text} {op op' : Operation}
  {σ σ' : RecoveryRun} {e : RecoveryEvent}

lemma viewsAgree_iff (h : manager.SoundLog σ.state.log) : manager.ViewsAgree σ ↔
    Agree σ.recovered σ.gone σ.state.active (manager.logged σ.state.log) := by
  have hnone (id : Text) : manager.logged σ.state.log id = none ↔
      ∀ op ∈ manager.records σ.state.log, op.id ≠ id := logged_eq_none h
  constructor
  · refine fun hviews => ⟨fun hrec id op hop hfin => ?_, fun id hid hlogged => ?_,
      fun id hid => ⟨(hviews.gone id hid).1, (hnone id).mpr (hviews.gone id hid).2⟩⟩
    · obtain ⟨hmem, rfl⟩ := (logged_eq_some h).mp hop
      exact hviews.unfinished hrec op hmem hfin
    · obtain ⟨op, hop, hopid⟩ := hviews.logged id hid
      exact (hnone id).mp hlogged op hop hopid
  · refine fun hagree => ⟨fun hrec op hop hfin => ?_, fun id hid => ?_,
      fun id hid => ⟨(hagree.gone id hid).1, (hnone id).mp (hagree.gone id hid).2⟩⟩
    · exact hagree.unfinished hrec op.id op ((logged_eq_some h).mpr ⟨hop, rfl⟩) hfin
    · by_contra hnot
      exact hagree.logged id hid ((hnone id).mpr fun op hop hopid => hnot ⟨op, hop, hopid⟩)

lemma Agree.start (h : Agree ran gone active log) (op : Operation) :
    Agree ran (gone.erase op.id) (active.insert op.id op)
      (Function.update log op.id (some op)) := by
  refine ⟨fun hrec id op' hop' hfin => ?_, fun id hid => ?_, fun id hid => ?_⟩
  · by_cases heq : id = op.id
    · exact Finmap.mem_insert.mpr (.inl heq)
    · rw [Function.update_of_ne heq] at hop'
      exact Finmap.mem_insert.mpr (.inr (h.unfinished hrec id op' hop' hfin))
  · by_cases heq : id = op.id
    · rw [heq, Function.update_self]
      nofun
    · rw [Function.update_of_ne heq]
      exact h.logged id ((Finmap.mem_insert.mp hid).resolve_left heq)
  · obtain ⟨hne, hgone⟩ := Finset.mem_erase.mp hid
    obtain ⟨hactive, hlog⟩ := h.gone id hgone
    refine ⟨fun hmem => hactive ((Finmap.mem_insert.mp hmem).resolve_left hne), ?_⟩
    rw [Function.update_of_ne hne, hlog]

lemma Agree.save_iff (h : Agree ran gone active log) (hid : id ∈ active) (op : Operation) :
    Agree ran gone (active.insert id op) (Function.update log op.id (some op)) ↔
      op.id ∉ gone ∧ (ran = true → op.isFinished = false → op.id ∈ active) := by
  have hmem (other : Text) : other ∈ active.insert id op ↔ other ∈ active := by
    rw [Finmap.mem_insert, or_iff_right_of_imp]
    rintro rfl
    exact hid
  constructor
  · refine fun hnew => ⟨fun hgone => ?_, fun hrec hfin => ?_⟩
    · have hlog := (hnew.gone op.id hgone).2
      rw [Function.update_self] at hlog
      cases hlog
    · exact (hmem op.id).mp (hnew.unfinished hrec op.id op (Function.update_self ..) hfin)
  · rintro ⟨hgone, hunfinished⟩
    refine ⟨fun hrec other op' hop' hfin => ?_, fun other hother => ?_, fun other hother => ?_⟩
    · rw [hmem]
      by_cases heq : other = op.id
      · subst heq
        rw [Function.update_self] at hop'
        obtain rfl := Option.some.inj hop'
        exact hunfinished hrec hfin
      · rw [Function.update_of_ne heq] at hop'
        exact h.unfinished hrec other op' hop' hfin
    · by_cases heq : other = op.id
      · rw [heq, Function.update_self]
        nofun
      · rw [Function.update_of_ne heq]
        exact h.logged other ((hmem other).mp hother)
    · obtain ⟨hactive, hlog⟩ := h.gone other hother
      have hne : other ≠ op.id := by
        rintro rfl
        exact hgone hother
      rw [hmem, Function.update_of_ne hne]
      exact ⟨hactive, hlog⟩

/-- A finished record is saved for an operation that is not at work any more. -/
lemma Agree.drop_iff (h : Agree ran gone active log) (hid : id ∈ active)
    (hfinished : op.isFinished = true) :
    Agree ran gone ((active.insert id op).erase id) (Function.update log op.id (some op)) ↔
      op.id ∉ gone ∧ (ran = true → op.id = id ∨
        ∀ left, log id = some left → left.isFinished = true) := by
  have hmem (other : Text) : other ∈ (active.insert id op).erase id ↔
      other ≠ id ∧ other ∈ active := by
    rw [Finmap.mem_erase, Finmap.mem_insert]
    exact and_congr_right fun hne => or_iff_right hne
  constructor
  · refine fun hnew => ⟨fun hgone => ?_, fun hrec => ?_⟩
    · have hlog := (hnew.gone op.id hgone).2
      rw [Function.update_self] at hlog
      cases hlog
    · by_cases heq : op.id = id
      · exact .inl heq
      · refine .inr fun left hleft => ?_
        by_contra hfin
        have hlog : Function.update log op.id (some op) id = some left := by
          rw [Function.update_of_ne (Ne.symm heq), hleft]
        exact ((hmem id).mp (hnew.unfinished hrec id left hlog (by simpa using hfin))).1 rfl
  · rintro ⟨hgone, hleft⟩
    refine ⟨fun hrec other op' hop' hfin => ?_, fun other hother => ?_, fun other hother => ?_⟩
    · have hne : other ≠ op.id := by
        rintro rfl
        rw [Function.update_self] at hop'
        obtain rfl := Option.some.inj hop'
        rw [hfinished] at hfin
        cases hfin
      rw [Function.update_of_ne hne] at hop'
      refine (hmem other).mpr ⟨?_, h.unfinished hrec other op' hop' hfin⟩
      rintro rfl
      rw [(hleft hrec).resolve_left (Ne.symm hne) op' hop'] at hfin
      cases hfin
    · by_cases heq : other = op.id
      · rw [heq, Function.update_self]
        nofun
      · rw [Function.update_of_ne heq]
        exact h.logged other ((hmem other).mp hother).2
    · obtain ⟨hactive, hlog⟩ := h.gone other hother
      have hne : other ≠ op.id := by
        rintro rfl
        exact hgone hother
      rw [hmem, Function.update_of_ne hne]
      exact ⟨fun hother => hactive hother.2, hlog⟩

lemma Agree.complete_iff (h : Agree ran gone active log) (hid : id ∈ active)
    (hfinished : op.isFinished = true) :
    Agree ran (insert id gone) (active.erase id)
      (Function.update (Function.update log op.id (some op)) id none) ↔ op.id ∉ gone := by
  have hidgone : id ∉ gone := fun hgone => (h.gone id hgone).1 hid
  constructor
  · intro hnew hgone
    have hne : op.id ≠ id := by
      rintro rfl
      exact hidgone hgone
    have hlog := (hnew.gone op.id (Finset.mem_insert_of_mem hgone)).2
    rw [Function.update_of_ne hne, Function.update_self] at hlog
    cases hlog
  · intro hgone
    refine ⟨fun hrec other op' hop' hfin => ?_, fun other hother => ?_, fun other hother => ?_⟩
    · have hne : other ≠ id := by
        rintro rfl
        rw [Function.update_self] at hop'
        cases hop'
      rw [Function.update_of_ne hne] at hop'
      have hneop : other ≠ op.id := by
        rintro rfl
        rw [Function.update_self] at hop'
        obtain rfl := Option.some.inj hop'
        rw [hfinished] at hfin
        cases hfin
      rw [Function.update_of_ne hneop] at hop'
      exact Finmap.mem_erase.mpr ⟨hne, h.unfinished hrec other op' hop' hfin⟩
    · obtain ⟨hne, hactive⟩ := Finmap.mem_erase.mp hother
      rw [Function.update_of_ne hne]
      by_cases heq : other = op.id
      · rw [heq, Function.update_self]
        nofun
      · rw [Function.update_of_ne heq]
        exact h.logged other hactive
    · rw [Finmap.mem_erase]
      by_cases heq : other = id
      · rw [heq, Function.update_self]
        exact ⟨fun hmem => hmem.1 rfl, rfl⟩
      · have hothergone := (Finset.mem_insert.mp hother).resolve_left heq
        obtain ⟨hactive, hlog⟩ := h.gone other hothergone
        have hne : other ≠ op.id := by
          rintro rfl
          exact hgone hothergone
        rw [Function.update_of_ne heq, Function.update_of_ne hne]
        exact ⟨fun hmem => hactive hmem.2, hlog⟩

lemma Agree.unknown_iff (h : Agree ran gone active log) (hid : id ∉ active) :
    Agree ran (insert id gone) active log ↔ log id = none := by
  refine ⟨fun hnew => (hnew.gone id (Finset.mem_insert_self _ _)).2, fun hnone => ?_⟩
  refine ⟨h.unfinished, h.logged, fun other hother => ?_⟩
  obtain rfl | hgone := Finset.mem_insert.mp hother
  · exact ⟨hid, hnone⟩
  · exact h.gone other hgone

/-- What recovery makes of the record of an operation. -/
lemma Recovers.cases {bytes : Option Bytes} (hsound : manager.SoundLog bytes)
    (h : Recovers A ((manager.records bytes).filter Operation.isIncomplete)
      (manager.logged bytes) log') (hop : manager.logged bytes id = some op) :
    (op.isIncomplete = false ∨ ∃ i, A i ∧ op.IsOld i.now) ∧ log' id = some op ∨
      op.isIncomplete = true ∧ (∃ i, A i ∧ ¬ op.IsOld i.now) ∧
        log' id = some (recovered op (.ok op.NothingLeft)) := by
  obtain ⟨hmem, rfl⟩ := (logged_eq_some hsound).mp hop
  cases hincomplete : op.isIncomplete with
  | false =>
    refine .inl ⟨.inl rfl, ?_⟩
    rw [h.other op.id fun other hother hid => ?_, hop]
    obtain ⟨hother, hincomplete'⟩ := List.mem_filter.mp hother
    have heq := hop.symm.trans ((logged_eq_some hsound).mpr ⟨hother, hid⟩)
    rw [← Option.some.inj heq, hincomplete] at hincomplete'
    cases hincomplete'
  | true =>
    obtain ⟨hold, hsame⟩ | hnew := h.each op (List.mem_filter.mpr ⟨hmem, hincomplete⟩)
    · exact .inl ⟨.inr hold, hsame.trans hop⟩
    · exact .inr ⟨rfl, hnew⟩

lemma Recovers.eq_none_iff {bytes : Option Bytes} (hsound : manager.SoundLog bytes)
    (h : Recovers A ((manager.records bytes).filter Operation.isIncomplete)
      (manager.logged bytes) log') : log' id = none ↔ manager.logged bytes id = none := by
  cases hop : manager.logged bytes id with
  | some op =>
    refine iff_of_false (fun hnone => ?_) nofun
    obtain ⟨-, hsome⟩ | ⟨-, -, hsome⟩ := h.cases hsound hop
    · rw [hnone] at hsome
      cases hsome
    · rw [hnone] at hsome
      cases hsome
  | none =>
    refine iff_of_true ?_ rfl
    rw [h.other id fun other hother hid => ?_, hop]
    have hsome := (logged_eq_some hsound).mpr ⟨List.mem_of_mem_filter hother, hid⟩
    rw [hop] at hsome
    cases hsome

lemma isFinished_of_isIncomplete (h : op.isIncomplete = true) : op.isFinished = false := by
  unfold Operation.isIncomplete at h
  unfold Operation.isFinished
  rcases of_decide_eq_true h with hstatus | hstatus <;> simp [hstatus]

lemma isFinished_recovered {done : Bool} : (recovered op (.ok done)).isFinished = done := by
  cases done <;> simp [recovered, Operation.isFinished]

/-- **Recovery leaves the views in agreement** if every unfinished operation is at work or will be
finished, and, if all happens at one time, only then. -/
lemma Agree.recover {bytes : Option Bytes} (h : Agree ran gone active (manager.logged bytes))
    (hsound : manager.SoundLog bytes)
    (hrecovers : Recovers A ((manager.records bytes).filter Operation.isIncomplete)
      (manager.logged bytes) log') :
    ((∀ op ∈ manager.records bytes, op.isFinished = false → op.id ∈ active ∨
        op.isIncomplete = true ∧ op.NothingLeft ∧ ∀ i, A i → ¬ op.IsOld i.now) →
      Agree true gone active log') ∧
    ((∀ i j, A i → A j → i.now = j.now) → Agree true gone active log' →
      ∀ op ∈ manager.records bytes, op.isFinished = false → op.id ∈ active ∨
        op.isIncomplete = true ∧ op.NothingLeft ∧ ∀ i, A i → ¬ op.IsOld i.now) := by
  constructor
  · intro hmeets
    refine ⟨fun _ id op' hop' hfin => ?_, fun id hid => ?_, fun id hid => ?_⟩
    · obtain ⟨op, hop⟩ : ∃ op, manager.logged bytes id = some op := by
        rw [← Option.ne_none_iff_exists', ne_eq, ← hrecovers.eq_none_iff hsound, hop']
        nofun
      obtain ⟨hmem, rfl⟩ := (logged_eq_some hsound).mp hop
      obtain ⟨hleft, hsome⟩ | ⟨hincomplete, -, hsome⟩ := hrecovers.cases hsound hop
      · obtain rfl := Option.some.inj (hop'.symm.trans hsome)
        refine (hmeets op' hmem hfin).resolve_right ?_
        rintro ⟨hincomplete, -, hyoung⟩
        obtain hother | ⟨i, hi, hold⟩ := hleft
        · rw [hother] at hincomplete
          cases hincomplete
        · exact hyoung i hi hold
      · obtain rfl := Option.some.inj (hop'.symm.trans hsome)
        rw [isFinished_recovered, decide_eq_false_iff_not] at hfin
        exact (hmeets op hmem (isFinished_of_isIncomplete hincomplete)).resolve_right
          fun hdone => hfin hdone.2.1
    · rw [ne_eq, hrecovers.eq_none_iff hsound]
      exact h.logged id hid
    · rw [hrecovers.eq_none_iff hsound]
      exact h.gone id hid
  · intro htime hnew op hmem hfin
    have hop := (logged_eq_some hsound).mpr ⟨hmem, rfl⟩
    by_cases hactive : op.id ∈ active
    · exact .inl hactive
    · right
      have hfinished (op' : Operation) (hop' : log' op.id = some op') : op'.isFinished = true := by
        by_contra hnot
        exact hactive (hnew.unfinished rfl op.id op' hop' (by simpa using hnot))
      obtain ⟨-, hsome⟩ | ⟨hincomplete, ⟨i, hi, hyoung⟩, hsome⟩ := hrecovers.cases hsound hop
      · rw [hfinished op hsome] at hfin
        cases hfin
      · have hdone := hfinished _ hsome
        rw [isFinished_recovered, decide_eq_true_eq] at hdone
        refine ⟨hincomplete, hdone, fun j hj => ?_⟩
        rw [htime j i hj hi]
        exact hyoung

end Agree

/-! ## Every run -/

section Runs

variable {manager} {A : RecoveryInput → Prop} {σ σ' : RecoveryRun} {e : RecoveryEvent}

variable (manager) in
/-- Between calls the lock is free and the log is sound. -/
structure Rests (s : RecoveryState) : Prop where
  locked : s.locked = false
  soundLog : manager.SoundLog s.log

lemma Rests.makes (h : manager.Rests σ.state) (hmakes : manager.Makes σ e σ') :
    manager.Rests σ'.state := by
  cases e with
  | call c A =>
    obtain ⟨hA, ⟨r, hreturns⟩, -, -⟩ := hmakes
    obtain ⟨-, hlocked, hsound, -⟩ :=
      Proc.post_of_returns hreturns (wp_code hA h.locked h.soundLog)
    exact ⟨hlocked, hsound⟩
  | restart =>
    obtain rfl : σ' = _ := hmakes
    exact ⟨rfl, h.soundLog⟩

/-- **A step leaves the views in agreement** if it keeps what is unfinished at work, and, if all of
its actions are taken at one time, only then.

**Proof sketch.** By the effect of each call. A record that is saved under an id changes what is
said about this id only. -/
theorem viewsAgree_makes (h : manager.Rests σ.state) (hviews : manager.ViewsAgree σ)
    (hmakes : manager.Makes σ e σ') :
    (manager.KeepsAtWork σ e → manager.ViewsAgree σ') ∧
      (AtOneTime e → manager.ViewsAgree σ' → manager.KeepsAtWork σ e) := by
  rw [viewsAgree_iff (h.makes hmakes).soundLog]
  rw [viewsAgree_iff h.soundLog] at hviews
  cases e with
  | restart =>
    obtain rfl : σ' = _ := hmakes
    refine ⟨fun _ => ⟨nofun, ?_, fun id hid => ⟨?_, (hviews.gone id hid).2⟩⟩, fun _ _ => trivial⟩
    · exact fun id hid => absurd hid Finmap.notMem_empty
    · exact Finmap.notMem_empty
  | call c A =>
    obtain ⟨hA, ⟨r, hreturns⟩, hgone, hrecovered⟩ := hmakes
    obtain ⟨-, -, -, heffect⟩ :=
      Proc.post_of_returns hreturns (wp_code hA h.locked h.soundLog)
    rw [hgone, hrecovered]
    cases c with
    | startOperation op =>
      obtain ⟨hactive, hlogged⟩ := heffect
      rw [hactive, hlogged]
      exact ⟨fun _ => hviews.start op, fun _ _ => trivial⟩
    | checkpointOperation id update =>
      cases hop : σ.state.active.lookup id with
      | none =>
        simp only [Effect, hop] at heffect
        rw [heffect.1, heffect.2]
        refine ⟨fun _ => hviews, fun _ _ op hop' => ?_⟩
        rw [hop] at hop'
        cases hop'
      | some op =>
        simp only [Effect, hop] at heffect
        obtain ⟨i, -, hactive, hlogged⟩ := heffect
        have hiff := hviews.save_iff (Finmap.mem_of_lookup_eq_some hop)
          { update op with lastCheckpoint := i.now }
        rw [hactive, hlogged]
        refine ⟨fun hkeeps => hiff.mpr (hkeeps op hop), fun _ hnew op' hop' => ?_⟩
        obtain rfl := Option.some.inj (hop.symm.trans hop')
        exact hiff.mp hnew
    | completeOperation id =>
      cases hop : σ.state.active.lookup id with
      | none =>
        have hid : id ∉ σ.state.active := Finmap.lookup_eq_none.mp hop
        simp only [Effect, hop] at heffect
        rw [heffect.1, heffect.2]
        have hiff := (hviews.unknown_iff hid).trans (logged_eq_none h.soundLog)
        refine ⟨fun hkeeps => hiff.mpr (hkeeps.1.resolve_left hid),
          fun _ hnew => ⟨.inr (hiff.mp hnew), fun op hop' => ?_⟩⟩
        rw [hop] at hop'
        cases hop'
      | some op =>
        have hid := Finmap.mem_of_lookup_eq_some hop
        simp only [Effect, hop] at heffect
        obtain ⟨i, -, hactive, hlogged⟩ := heffect
        have hfinished : (op.completedAt i.now).isFinished = true := rfl
        have hiff := hviews.complete_iff hid hfinished
        rw [hactive, show manager.logged σ'.state.log = _ from hlogged]
        refine ⟨fun hkeeps => hiff.mpr (hkeeps.2 op hop), fun _ hnew => ⟨.inl hid, ?_⟩⟩
        intro op' hop'
        obtain rfl := Option.some.inj (hop.symm.trans hop')
        exact hiff.mp hnew
    | failOperation id error =>
      cases hop : σ.state.active.lookup id with
      | none =>
        simp only [Effect, hop] at heffect
        rw [heffect.1, heffect.2]
        refine ⟨fun _ => hviews, fun _ _ op hop' => ?_⟩
        rw [hop] at hop'
        cases hop'
      | some op =>
        have hid := Finmap.mem_of_lookup_eq_some hop
        simp only [Effect, hop] at heffect
        obtain ⟨i, -, hactive, hlogged⟩ := heffect
        rw [hactive, show manager.logged σ'.state.log = _ from hlogged]
        have hkeeps : manager.KeepsAtWork σ (.call (.failOperation id error) A) ↔
            op.id ∉ σ.gone ∧ (σ.recovered = true →
              if 3 ≤ op.retryCount + 1 then op.id = id ∨
                ∀ left ∈ manager.records σ.state.log, left.id = id → left.isFinished = true
              else op.id ∈ σ.state.active) := by
          refine ⟨fun hkeeps => hkeeps op hop, fun hkeeps op' hop' => ?_⟩
          obtain rfl := Option.some.inj (hop.symm.trans hop')
          exact hkeeps
        rw [hkeeps]
        by_cases hretry : 3 ≤ op.retryCount + 1
        · have hfinished : (op.failedAt error i.now).isFinished = true := by
            simp [Operation.isFinished, Operation.failedAt, hretry]
          have hiff := hviews.drop_iff hid hfinished
          have hleft : (∀ left ∈ manager.records σ.state.log, left.id = id →
              left.isFinished = true) ↔
              ∀ left, manager.logged σ.state.log id = some left → left.isFinished = true :=
            ⟨fun hall left hlogged => hall left ((logged_eq_some h.soundLog).mp hlogged).1
              ((logged_eq_some h.soundLog).mp hlogged).2,
              fun hall left hmem hid => hall left ((logged_eq_some h.soundLog).mpr ⟨hmem, hid⟩)⟩
          rw [if_pos hretry, if_pos hretry, hleft]
          exact ⟨hiff.mpr, fun _ => hiff.mp⟩
        · have hfinished : (op.failedAt error i.now).isFinished = false := by
            simp [Operation.isFinished, Operation.failedAt, hretry]
          have hiff := hviews.save_iff hid (op.failedAt error i.now)
          rw [if_neg hretry, if_neg hretry]
          exact ⟨fun hkeeps => hiff.mpr ⟨hkeeps.1, fun hrec _ => hkeeps.2 hrec⟩,
            fun _ hnew => ⟨(hiff.mp hnew).1, fun hrec => (hiff.mp hnew).2 hrec hfinished⟩⟩
    | recoverOnStartup =>
      obtain ⟨hactive, hrecovers⟩ := heffect
      rw [hactive]
      exact hviews.recover h.soundLog hrecovers

lemma rests_firstRun : manager.Rests firstRun.state :=
  ⟨rfl, manager.inStep_unused.noRepeats, nofun⟩

lemma exists_makes (h : manager.Rests σ.state) (c : RecoveryCall) (now : DateTime) :
    ∃ σ', manager.Makes σ (.call c (· = ⟨now, none⟩)) σ' ∧ manager.Rests σ'.state ∧
      manager.Effect (· = ⟨now, none⟩) σ.state σ'.state c ∧ σ'.gone = goneAfter σ.gone c := by
  have hA : ∀ i : RecoveryInput, i = ⟨now, none⟩ → i.databaseError = none := by
    rintro i rfl
    rfl
  obtain ⟨r, s', hreturns, -, hlocked, hsound, heffect⟩ :=
    Proc.exists_returns (A := (· = ⟨now, none⟩)) ⟨_, rfl⟩ (wp_code hA h.locked h.soundLog)
  exact ⟨⟨s', goneAfter σ.gone c, recoveredAfter σ.recovered c⟩, ⟨hA, ⟨r, hreturns⟩, rfl, rfl⟩,
    ⟨hlocked, hsound⟩, heffect, rfl⟩

/-- **When the views agree.** A manager without a log takes calls without faults and is restarted,
in any order. After recovery every unfinished operation in the log is at work, every operation at
work is in the log, and a completed one is in neither until it is started again, as long as each
step meets the condition. If all actions of the next step are taken at one time, the views agree
after it only if it meets the condition.

**Proof sketch.** By induction along the run. -/
theorem viewsAgree_of_run (hrun : Relation.ReflTransGen
    (fun σ σ' => ∃ e, manager.KeepsAtWork σ e ∧ manager.Makes σ e σ') firstRun σ) :
    manager.ViewsAgree σ ∧ ∀ e σ', manager.Makes σ e σ' →
      (manager.KeepsAtWork σ e → manager.ViewsAgree σ') ∧
        (AtOneTime e → manager.ViewsAgree σ' → manager.KeepsAtWork σ e) := by
  obtain ⟨hrests, hviews⟩ : manager.Rests σ.state ∧ manager.ViewsAgree σ := by
    induction hrun with
    | refl =>
      refine ⟨rests_firstRun, (viewsAgree_iff rests_firstRun.soundLog).mpr ⟨nofun, ?_, ?_⟩⟩
      · exact fun id hid => absurd hid Finmap.notMem_empty
      · exact fun id hid => absurd hid (Finset.notMem_empty id)
    | tail _ hlast ih =>
      obtain ⟨hrests, hviews⟩ := ih
      obtain ⟨e, hkeeps, hmakes⟩ := hlast
      exact ⟨hrests.makes hmakes, (viewsAgree_makes hrests hviews hmakes).1 hkeeps⟩
  exact ⟨hviews, fun e σ' => viewsAgree_makes hrests hviews⟩

/-! ## An operation that is recovered after a restart -/

/-- The operation is started. -/
lemma exists_started (manager : RecoveryManager) : ∃ σ,
    manager.Makes firstRun (.call (.startOperation indexing) (· = ⟨⟨1704067200, 0⟩, none⟩)) σ ∧
      manager.Rests σ.state ∧ indexing ∈ manager.records σ.state.log ∧
        σ.state.active = (∅ : HashMap Text Operation).insert indexing.id indexing ∧ σ.gone = ∅ := by
  obtain ⟨σ, hmakes, hrests, ⟨hactive, hlogged⟩, hgone⟩ :=
    exists_makes (rests_firstRun : manager.Rests firstRun.state) (.startOperation indexing)
      ⟨1704067200, 0⟩
  refine ⟨σ, hmakes, hrests, ?_, hactive, hgone⟩
  have hlog : manager.logged σ.state.log indexing.id = some indexing := by
    rw [hlogged, Function.update_self]
  exact RecordLog.mem_of_find hlog

/-- An operation is started and completed: it is gone. -/
theorem viewsAgree_of_run_completed : ∃ manager : RecoveryManager,
    (∀ sample ∈ indexingSamples, manager.json.toText sample.1 = sample.2) ∧ ∃ σ : RecoveryRun,
      Relation.ReflTransGen (fun σ σ' => ∃ e, manager.KeepsAtWork σ e ∧ manager.Makes σ e σ')
        firstRun σ ∧ σ.gone = {indexing.id} ∧ manager.ViewsAgree σ ∧
        ∀ e σ', manager.Makes σ e σ' → (manager.KeepsAtWork σ e → manager.ViewsAgree σ') ∧
          (AtOneTime e → manager.ViewsAgree σ' → manager.KeepsAtWork σ e) := by
  obtain ⟨manager, htexts⟩ := exists_indexing
  obtain ⟨σ, hstart, hrests, -, hactive, hgone⟩ := exists_started manager
  obtain ⟨σ', hcomplete, -, -, hgone'⟩ :=
    exists_makes hrests (.completeOperation indexing.id) ⟨1704067200, 0⟩
  have hkeeps : manager.KeepsAtWork σ
      (.call (.completeOperation indexing.id) (· = ⟨⟨1704067200, 0⟩, none⟩)) := by
    constructor
    · left
      rw [hactive]
      exact Finmap.mem_insert.mpr (.inl rfl)
    · intro op _
      rw [hgone]
      exact Finset.notMem_empty op.id
  have hrun : Relation.ReflTransGen
      (fun σ σ' => ∃ e, manager.KeepsAtWork σ e ∧ manager.Makes σ e σ') firstRun σ' :=
    .tail (.single ⟨.call (.startOperation indexing) _, trivial, hstart⟩) ⟨_, hkeeps, hcomplete⟩
  refine ⟨manager, htexts, σ', hrun, ?_, viewsAgree_of_run hrun⟩
  rw [hgone', hgone]
  rfl

/-- An operation is started, and after a restart it is recovered: **it is in the log and not at
work**. -/
theorem not_viewsAgree_restarted : ∃ manager : RecoveryManager,
    (∀ sample ∈ indexingSamples, manager.json.toText sample.1 = sample.2) ∧
      ¬ ∀ σ, Relation.ReflTransGen (fun σ σ' => ∃ e, manager.Makes σ e σ') firstRun σ →
        manager.ViewsAgree σ := by
  obtain ⟨manager, htexts⟩ := exists_indexing
  refine ⟨manager, htexts, fun h => ?_⟩
  obtain ⟨σ, hstart, hrests, hlog, -, -⟩ := exists_started manager
  have hstarted : Relation.ReflTransGen (fun σ σ' => ∃ e, manager.Makes σ e σ') firstRun σ :=
    .single ⟨_, hstart⟩
  have hrestart : manager.Makes σ .restart ⟨σ.state.restarted, σ.gone, false⟩ := rfl
  have hrestarted := hstarted.tail ⟨_, hrestart⟩
  obtain ⟨σ', hrecover, -, -, -⟩ :=
    exists_makes (hrests.makes hrestart) .recoverOnStartup ⟨1704067200, 0⟩
  have htime : AtOneTime (.call .recoverOnStartup (· = ⟨⟨1704067200, 0⟩, none⟩)) := by
    rintro i j rfl rfl
    rfl
  have hkeeps := (viewsAgree_makes (hrests.makes hrestart) (h _ hrestarted) hrecover).2 htime
    (h _ (hrestarted.tail ⟨_, hrecover⟩)) indexing hlog rfl
  obtain hactive | ⟨-, hdone, -⟩ := hkeeps
  · exact Finmap.notMem_empty hactive
  · exact absurd hdone (by decide)

end Runs

end RecoveryManager

end Landropic
