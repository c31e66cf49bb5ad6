import Landropic.Foundations.Crashes
import Landropic.Sync.RecoveryLog

set_option autoImplicit false

/-!
# Crashes of a recovery manager

A manager takes one call after another and may crash at any moment. An operation is owed once its
start has returned, until it is completed: a crash must not keep the log from having it loaded
again, unless its record says that it has come to an end.

## Main definitions

* `RecoveryCall` — the calls of a manager.
* `RecoveryManager.component` — a manager that may crash.
* `RecoveryManager.Accounted` — an operation is loaded again or has come to an end.
* `Operation.isStranded` — the records of operations that are neither.
* `RecoveryManager.sparing` — calls and crashes that strand nothing.

## Main results

* `RecoveryManager.throughout_saveOperation`, `RecoveryManager.throughout_processOperation` — what a
  save and the recovery of an operation keep, also when they are cut off.
* `RecoveryManager.accounted_of_run` — when every owed operation is loaded again.
-/

namespace Landropic

/-- The calls of a manager. -/
inductive RecoveryCall
  | startOperation (op : Operation)
  | checkpointOperation (id : Text) (update : Operation → Operation)
  | completeOperation (id : Text)
  | failOperation (id error : Text)
  | recoverOnStartup

namespace Operation

/-- Recovery passes the operation over, although it has not come to an end. -/
def isStranded (op : Operation) : Bool :=
  op.status = .recovering ∨ op.status = .failed ∧ op.retryCount < 3

/-- The operation has come to an end. -/
def isFinished (op : Operation) : Bool :=
  op.status = .completed ∨ op.status = .failed ∧ 3 ≤ op.retryCount

lemma isStranded_eq_false {op : Operation} : op.isStranded = false ↔
    op.status ≠ .recovering ∧ (op.status = .failed → 3 ≤ op.retryCount) := by
  simp only [isStranded, decide_eq_false_iff_not, not_or, not_and, UInt32.not_lt, ne_eq]

lemma isIncomplete_or_isFinished {op : Operation} (h : op.isStranded = false) :
    op.isIncomplete = true ∨ op.isFinished = true := by
  rw [isStranded_eq_false] at h
  unfold isIncomplete isFinished
  cases hstatus : op.status with
  | failed =>
    have hretry := h.2 hstatus
    simp only [reduceCtorEq, or_self, decide_false, Bool.false_eq_true, true_and, false_or,
      decide_eq_true_eq]
    exact hretry
  | recovering => exact absurd hstatus h.1
  | inProgress => simp
  | completed => simp
  | interrupted => simp

end Operation

/-- The state after a restart: nothing is at work. -/
def RecoveryState.restarted (s : RecoveryState) : RecoveryState :=
  { s with active := ∅, locked := false }

/-- What a crash leaves. A file that is being written was truncated and holds what was written so
far. -/
def RecoveryState.crashed : Option RecoveryOp → ℕ → RecoveryState → RecoveryState
  | some (.writeTmp content), kept, s => { s with tmp := some (content.take kept) }.restarted
  | some (.writeLog content), kept, s => { s with log := some (content.take kept) }.restarted
  | _, _, s => s.restarted

namespace RecoveryManager

open Proc

variable (manager : RecoveryManager)

/-- The process of a call. -/
def code : RecoveryCall → RecoveryTask Unit
  | .startOperation op => manager.startOperation op
  | .checkpointOperation id update => manager.checkpointOperation id update
  | .completeOperation id => manager.completeOperation id
  | .failOperation id error => manager.failOperation id error
  | .recoverOnStartup => do
    let _ ← manager.recoverOnStartup
    pure ()

/-- A manager that may crash. -/
def component :
    Crashable RecoveryCall RecoveryState RecoveryInput RecoveryOp RecoveryError Unit where
  code := manager.code
  crash := RecoveryState.crashed

/-- The operations that are owed: those whose start has returned and that are not to be completed.
-/
def owed : Crashable.History RecoveryCall RecoveryError Unit (Finset Text) where
  began
    | .completeOperation id, ids => ids.erase id
    | _, ids => ids
  ended
    | .startOperation op, .ok (), ids => insert op.id ids
    | _, _, ids => ids

/-- A manager at some moment, with the operations that are owed. -/
abbrev Moment :=
  Crashable.Machine RecoveryCall RecoveryState (Finset Text)
    RecoveryInput RecoveryOp RecoveryError Unit

/-- A manager that has just been created, over a log. -/
def created (log : Option Bytes) : Moment :=
  { state := { active := ∅, locked := false, log := log, tmp := none }, past := ∅, running := none }

/-- The next `load_recovery_log` returns the operation. -/
def Loads (log : Option Bytes) (id : Text) : Prop :=
  ∃ operations, manager.loadedLog log = .ok operations ∧ ∃ op ∈ operations, op.id = id

/-- The operation is loaded again, or is recorded as completed, or as failed three times. -/
def Accounted (log : Option Bytes) (id : Text) : Prop :=
  manager.Loads log id ∨ ∃ op, manager.logged log id = some op ∧ op.isFinished = true

/-- Calls and crashes that strand no operation that is owed:
* no call records an operation as being recovered, or as failed fewer than three times,
* no crash comes while an owed operation is recorded as being recovered,
* no crash comes partway through writing the log in place, unless nothing is owed. -/
def sparing : Crashable.Condition RecoveryCall RecoveryState (Finset Text) RecoveryOp where
  call
    | .startOperation op, _, _ => op.isStranded = false
    | .checkpointOperation id update, s, _ => ∀ op, s.active.lookup id = some op →
      (update op).id = id ∧ (update op).isStranded = false
    | .failOperation id _, s, _ => ∀ op, s.active.lookup id = some op → 3 ≤ op.retryCount + 1
    | _, _, _ => True
  crash label kept s ids :=
    (∀ id ∈ ids, ∀ op, manager.logged s.log id = some op → op.status ≠ .recovering) ∧
      ∀ content, label = some (.writeLog content) → ids = ∅ ∨ content.length ≤ kept

/-! ## What the log keeps -/

/-- Every owed operation is recorded, with a record as given. -/
def Records (P : Operation → Prop) (ids : Finset Text) (log : Option Bytes) : Prop :=
  ∀ id ∈ ids, ∃ op, manager.logged log id = some op ∧ P op

/-- Between calls: no owed operation is stranded, and those at work are owed. -/
structure Kept (s : RecoveryState) (ids : Finset Text) : Prop where
  log : manager.Records (fun op => op.isStranded = false) ids s.log
  active : ∀ id op, s.active.lookup id = some op → op.id = id ∧ id ∈ ids

/-- During a call: owed operations may also be recorded as being recovered. -/
def Recoverable (ids : Finset Text) (log : Option Bytes) : Prop :=
  manager.Records (fun op => op.status = .recovering ∨ op.isStranded = false) ids log

variable {manager} {ids : Finset Text} {s : RecoveryState} {log : Option Bytes} {op : Operation}
  {id : Text}

lemma Records.mono {P P' : Operation → Prop} (h : manager.Records P ids log)
    (hP : ∀ op, P op → P' op) : manager.Records P' ids log := by
  intro id hid
  obtain ⟨op, hop, hPop⟩ := h id hid
  exact ⟨op, hop, hP op hPop⟩

lemma Records.save {P : Operation → Prop} (h : manager.Records P (ids.erase op.id) log)
    (hop : P op) :
    manager.Records P ids (some (manager.savedContent op (existingContent log)).utf8) := by
  intro id hid
  rw [logged_savedContent]
  by_cases heq : id = op.id
  · exact ⟨op, by rw [if_pos heq], hop⟩
  · rw [if_neg heq]
    exact h id (Finset.mem_erase.mpr ⟨heq, hid⟩)

lemma Records.erase {P : Operation → Prop} (h : manager.Records P ids log) (id : Text) :
    manager.Records P (ids.erase id) log :=
  fun id' hid' => h id' (Finset.mem_of_mem_erase hid')

lemma Records.remove {P : Operation → Prop} (h : manager.Records P ids log) (hid : id ∉ ids) :
    manager.Records P ids (some (manager.keptContent id (existingContent log)).utf8) := by
  intro id' hid'
  have hne : id' ≠ id := by
    rintro rfl
    exact hid hid'
  rw [logged_keptContent, if_neg hne]
  exact h id' hid'

lemma Kept.accounted (h : manager.Kept s ids) (hid : id ∈ ids) : manager.Accounted s.log id := by
  obtain ⟨op, hop, hstranded⟩ := h.log id hid
  rcases Operation.isIncomplete_or_isFinished hstranded with hinc | hfin
  · obtain ⟨operations, hload, hmem⟩ := mem_loadedLog hop hinc
    exact .inl ⟨operations, hload, op, hmem, RecordLog.key_of_find hop⟩
  · exact .inr ⟨op, hop, hfin⟩

/-! ## What a crash leaves -/

lemma kept_restarted (h : manager.Records (fun op => op.isStranded = false) ids s.log) :
    manager.Kept s.restarted ids :=
  ⟨h, fun id op hop => by simp [RecoveryState.restarted] at hop⟩

/-- **A crash that may come** outside the writing of the log leaves the owed operations. -/
lemma withstands {label : Option RecoveryOp} (h : manager.Recoverable ids s.log)
    (hlabel : ∀ content, label ≠ some (.writeLog content)) :
    manager.component.Withstands manager.sparing manager.Kept ids label s := by
  rintro kept ⟨hrecovering, -⟩
  have hlog : manager.Records (fun op => op.isStranded = false) ids s.log := by
    intro id hid
    obtain ⟨op, hop, hstatus⟩ := h id hid
    exact ⟨op, hop, hstatus.resolve_left (hrecovering id hid op hop)⟩
  show manager.Kept (RecoveryState.crashed label kept s) ids
  unfold RecoveryState.crashed
  split
  · exact kept_restarted hlog
  · next content => exact absurd rfl (hlabel content)
  · exact kept_restarted hlog

/-- **A crash that may come** while the log is written in place leaves the owed operations. -/
lemma withstands_writeLog {content : Bytes} (h : manager.Recoverable ids s.log)
    (hnew : manager.Records (fun op => op.isStranded = false) ids (some content)) :
    manager.component.Withstands manager.sparing manager.Kept ids (some (.writeLog content)) s := by
  rintro kept ⟨-, hkept⟩
  rcases hkept content rfl with rfl | hlength
  · exact kept_restarted fun id hid => absurd hid (Finset.notMem_empty id)
  · refine kept_restarted ?_
    show manager.Records _ ids (some (content.take kept))
    rwa [List.take_of_length_le hlength]

/-! ## What the functions keep -/

section Functions

variable {α : Type}

variable (manager ids) in
/-- Whenever the process is about to act, a crash that may come leaves the owed operations, and the
process ends as said. -/
abbrev Survives (Q : Except RecoveryError α → RecoveryState → Prop) (t : RecoveryTask α)
    (s : RecoveryState) : Prop :=
  Throughout (fun l => manager.component.Withstands manager.sparing manager.Kept ids (some l)) Q t s

/-- An action that does not write the log in place. -/
lemma throughout_atom {Q : Except RecoveryError α → RecoveryState → Prop} {label : RecoveryOp}
    {f : RecoveryInput → RecoveryState → Except RecoveryError α × RecoveryState}
    (h : manager.Recoverable ids s.log) (hlabel : ∀ content, label ≠ .writeLog content)
    (hQ : ∀ i, Q (f i s).1 (f i s).2) : manager.Survives ids Q (.atom label f) s :=
  .atom (withstands h fun content heq => hlabel content (Option.some.inj heq)) hQ

/-- **Saving an operation** leaves the log as it was until it has the new record. -/
theorem throughout_saveOperation {Q : Except RecoveryError Unit → RecoveryState → Prop}
    (h : manager.Recoverable ids s.log)
    (hQ : Q (.ok ()) { s with
      log := some (manager.savedContent op (existingContent s.log)).utf8
      tmp := none }) :
    manager.Survives ids Q (manager.saveOperation op) s := by
  refine .bind (throughout_atom h (by simp) fun _ => ?_)
  refine .bind (throughout_atom h (by simp) fun _ => ?_)
  exact throughout_atom h (by simp) fun _ => hQ

/-- **Removing an operation** that is not owed leaves the others. -/
theorem throughout_removeOperation {Q : Except RecoveryError Unit → RecoveryState → Prop}
    (h : manager.Records (fun op => op.isStranded = false) ids s.log) (hid : id ∉ ids)
    (hQ : ∀ r log, manager.Records (fun op => op.isStranded = false) ids log →
      Q r { s with log := log }) :
    manager.Survives ids Q (manager.removeOperation id) s := by
  have hweak : manager.Recoverable ids s.log := h.mono fun _ => .inr
  refine .bind (throughout_atom hweak (by simp) fun _ => ?_)
  have hsame : ∀ r, Q r s := fun r => hQ r s.log h
  split
  · next existing hread =>
    split at hread
    · obtain rfl := Except.ok.inj hread
      exact hsame _
    · next bytes hlog =>
      split at hread
      · cases hread
      · next content hcontent =>
        obtain rfl := Except.ok.inj hread
        have hexisting : existingContent s.log = content := by
          simp [existingContent, hlog, hcontent]
        have hnew := hexisting ▸ h.remove hid
        exact .atom (withstands_writeLog hweak hnew) fun _ => hQ _ _ hnew
  · next e hread =>
    split at hread
    · cases hread
    · split at hread
      · exact hsame _
      · cases hread

/-- **Holding the lock** adds nothing to what a process keeps. -/
lemma throughout_whileLocked {Q : Except RecoveryError α → RecoveryState → Prop}
    {body : RecoveryTask α} (h : manager.Recoverable ids s.log)
    (hbody : manager.Survives ids
      (fun r s => manager.Recoverable ids s.log ∧ Q r { s with locked := false }) body
      { s with locked := true }) :
    manager.Survives ids Q (whileLocked body) s := by
  refine .bind ⟨withstands h (by simp), fun _ _ => ?_⟩
  refine .bind (.attempt (hbody.mono ?_))
  intro r s₁ hr
  exact .bind (throughout_atom hr.1 (by simp) fun _ => by cases r <;> exact hr.2)

lemma throughout_recoverOperation {Q : Except RecoveryError Bool → RecoveryState → Prop}
    (h : manager.Recoverable ids s.log) (hQ : ∀ r, Q r s) :
    manager.Survives ids Q (recoverOperation op) s := by
  unfold recoverOperation
  split
  · split
    · exact hQ _
    · refine .bind (throughout_atom h (by simp) fun i => ?_)
      cases i.databaseError with
      | none => exact hQ _
      | some e => exact hQ _
  · exact hQ _
  · exact hQ _

lemma id_recovered (r : Except RecoveryError Bool) : (recovered op r).id = op.id := by
  cases r with
  | ok b => cases b <;> rfl
  | error e => rfl

lemma isStranded_recovered (r : Except RecoveryError Bool) :
    (recovered op r).isStranded = false := by
  rw [Operation.isStranded_eq_false]
  cases r with
  | ok b => cases b <;> exact ⟨by simp [recovered], by simp [recovered]⟩
  | error e =>
    unfold recovered
    dsimp only
    split
    · next hretry => exact ⟨by simp, fun _ => hretry⟩
    · exact ⟨by simp, by simp⟩

/-- **The recovery of an operation** keeps the owed operations, whatever crash may come. -/
theorem throughout_processOperation {Q : Except RecoveryError RecoveryStats → RecoveryState → Prop}
    {stats : RecoveryStats} (h : manager.Kept s ids)
    (hQ : ∀ stats s, manager.Kept s ids → Q (.ok stats) s) :
    manager.Survives ids Q (manager.processOperation stats op) s := by
  have hweak : manager.Recoverable ids s.log := h.log.mono fun _ => .inr
  refine .bind (throughout_atom hweak (by simp) fun i => ?_)
  dsimp only
  split
  · exact hQ _ s h
  · have hmarked : manager.Recoverable ids (some (manager.savedContent
        { op with status := .recovering } (existingContent s.log)).utf8) :=
      Records.save (hweak.erase _) (.inl rfl)
    refine .bind (throughout_saveOperation hweak ?_)
    refine .bind (.attempt (throughout_recoverOperation hmarked fun r => ?_))
    refine .bind (throughout_saveOperation hmarked ?_)
    refine hQ _ _ ⟨?_, h.active⟩
    -- Only the record of the operation itself had been marked.
    refine Records.save ?_ (isStranded_recovered r)
    intro id hid
    rw [id_recovered, Finset.mem_erase] at hid
    rw [logged_savedContent, if_neg hid.1]
    exact h.log id hid.2

/-! ## What the calls keep -/

lemma throughout_foldlM {operations : List Operation} {stats : RecoveryStats}
    {Q : Except RecoveryError RecoveryStats → RecoveryState → Prop} (h : manager.Kept s ids)
    (hQ : ∀ stats s, manager.Kept s ids → Q (.ok stats) s) :
    manager.Survives ids Q (operations.foldlM manager.processOperation stats) s := by
  induction operations generalizing stats s with
  | nil => exact hQ stats s h
  | cons op rest ih =>
    rw [List.foldlM_cons]
    exact .bind (throughout_processOperation h fun stats s hs => ih hs)

end Functions

/-- **A call keeps the owed operations**, whatever crash may come. -/
theorem throughout_code {c : RecoveryCall} (h : manager.Kept s ids)
    (hcall : manager.sparing.call c s ids) :
    manager.Survives (owed.began c ids)
      (fun r s => manager.Kept s (owed.ended c r (owed.began c ids)) ∧
        manager.component.Withstands manager.sparing manager.Kept (owed.began c ids) none s)
      (manager.code c) s := by
  have hweak : manager.Recoverable ids s.log := h.log.mono fun _ => .inr
  have hend : ∀ {s}, manager.Kept s ids →
      manager.Kept s ids ∧ manager.component.Withstands manager.sparing manager.Kept ids none s :=
    fun hs => ⟨hs, withstands (hs.log.mono fun _ => .inr) (by simp)⟩
  cases c with
  | startOperation op =>
    refine .bind ⟨withstands hweak (by simp), fun _ _ => ?_⟩
    refine throughout_saveOperation hweak ⟨⟨?_, ?_⟩, withstands ?_ (by simp)⟩
    · refine Records.save (fun id hid => h.log id ?_) hcall
      exact (Finset.mem_insert.mp (Finset.mem_of_mem_erase hid)).resolve_left
        (Finset.ne_of_mem_erase hid)
    · rw [HashMap.forall_lookup_insert]
      refine ⟨⟨rfl, Finset.mem_insert_self _ _⟩, fun id op' hop' _ => ?_⟩
      obtain ⟨hid, hmem⟩ := h.active id op' hop'
      exact ⟨hid, Finset.mem_insert_of_mem hmem⟩
    · exact Records.save (hweak.erase _) (.inr hcall)
  | checkpointOperation id update =>
    refine throughout_whileLocked hweak (.bind (throughout_atom hweak (by simp) fun i => ?_))
    cases hop : s.active.lookup id with
    | none =>
      dsimp only
      exact ⟨hweak, hend ⟨h.log, h.active⟩⟩
    | some op =>
      dsimp only
      obtain ⟨hid, hstranded⟩ := hcall op hop
      refine throughout_saveOperation hweak ⟨?_, hend ⟨?_, ?_⟩⟩
      · exact Records.save (hweak.erase _) (.inr hstranded)
      · exact Records.save (h.log.erase _) hstranded
      · rw [HashMap.forall_lookup_insert]
        exact ⟨⟨hid, (h.active id op hop).2⟩, fun id' op' hop' _ => h.active id' op' hop'⟩
  | completeOperation id =>
    have hlog := h.log.erase id
    have hweak' : manager.Recoverable (ids.erase id) s.log := hweak.erase id
    have hid : id ∉ ids.erase id := Finset.notMem_erase id ids
    have hend' : ∀ {s}, manager.Kept s (ids.erase id) → manager.Kept s (ids.erase id) ∧
        manager.component.Withstands manager.sparing manager.Kept (ids.erase id) none s :=
      fun hs => ⟨hs, withstands (hs.log.mono fun _ => .inr) (by simp)⟩
    refine throughout_whileLocked hweak' (.bind (throughout_atom hweak' (by simp) fun i => ?_))
    cases hop : s.active.lookup id with
    | none =>
      dsimp only
      refine ⟨hweak', hend' ⟨hlog, fun id' op' hop' => ?_⟩⟩
      obtain ⟨hid', hmem⟩ := h.active id' op' hop'
      refine ⟨hid', Finset.mem_erase.mpr ⟨?_, hmem⟩⟩
      rintro rfl
      rw [hop] at hop'
      cases hop'
    | some op =>
      dsimp only
      have hactive : ∀ id' op', (s.active.erase id).lookup id' = some op' →
          op'.id = id' ∧ id' ∈ ids.erase id := by
        intro id' op' hop'
        have hne : id' ≠ id := by
          rintro rfl
          rw [Finmap.lookup_erase] at hop'
          cases hop'
        rw [Finmap.lookup_erase_ne hne] at hop'
        obtain ⟨hid', hmem⟩ := h.active id' op' hop'
        exact ⟨hid', Finset.mem_erase.mpr ⟨hne, hmem⟩⟩
      have hsaved : manager.Records (fun op => op.isStranded = false) (ids.erase id)
          (some (manager.savedContent { op with status := .completed, lastCheckpoint := i.now }
            (existingContent s.log)).utf8) :=
        Records.save (hlog.erase _) (Operation.isStranded_eq_false.mpr ⟨by simp, by simp⟩)
      refine .bind (throughout_saveOperation hweak' (.bind (.attempt ?_)))
      refine throughout_removeOperation hsaved hid fun r log hremoved => ?_
      exact ⟨hremoved.mono fun _ => .inr, hend' ⟨hremoved, hactive⟩⟩
  | failOperation id error =>
    refine throughout_whileLocked hweak (.bind (throughout_atom hweak (by simp) fun i => ?_))
    cases hop : s.active.lookup id with
    | none =>
      dsimp only
      exact ⟨hweak, hend ⟨h.log, h.active⟩⟩
    | some op =>
      dsimp only
      have hretry : 3 ≤ op.retryCount + 1 := hcall op hop
      have hsaved : manager.Records (fun op => op.isStranded = false) ids
          (some (manager.savedContent { op with
            status := .failed
            errorMessage := some error
            retryCount := op.retryCount + 1
            lastCheckpoint := i.now } (existingContent s.log)).utf8) :=
        Records.save (h.log.erase _)
          (Operation.isStranded_eq_false.mpr ⟨by simp, fun _ => hretry⟩)
      have hsaved' : manager.Recoverable ids _ := hsaved.mono fun _ => .inr
      refine .bind (throughout_saveOperation hweak ?_)
      rw [if_pos hretry]
      refine throughout_atom hsaved' (by simp) fun _ => ⟨hsaved', hend ⟨hsaved, ?_⟩⟩
      intro id' op' hop'
      have hne : id' ≠ id := by
        rintro rfl
        rw [Finmap.lookup_erase] at hop'
        cases hop'
      rw [Finmap.lookup_erase_ne hne, Finmap.lookup_insert_of_ne _ hne] at hop'
      exact h.active id' op' hop'
  | recoverOnStartup =>
    refine .bind (.bind (throughout_atom hweak (by simp) fun i => ?_))
    cases hload : manager.loadedLog s.log with
    | error e => exact hend h
    | ok operations => exact throughout_foldlM h fun stats s hs => hend hs

/-- **No owed operation is lost.** In every run in which calls and crashes strand no operation,
every operation that was started and not completed is loaded again whenever the manager is between
two calls, or has crashed, unless the log records that it has come to an end.

**Proof sketch.** During a call an owed operation may be marked as being recovered, but no crash
comes then; saving an operation leaves the log as it was until the new one is complete, and removing
one may not be cut off. So between calls every record of an owed operation is incomplete or
finished, and the incomplete ones are loaded. -/
theorem accounted_of_run {m : Moment}
    (hrun : manager.component.Run owed manager.sparing (created log) m)
    (hidle : m.running = none) : ∀ id ∈ m.past, manager.Accounted m.state.log id := by
  have hkept : manager.Kept m.state m.past := by
    refine hrun.idle rfl ⟨?_, ?_⟩ (fun c s ids h hcall => throughout_code h hcall)
      (fun s ids h => withstands (h.log.mono fun _ => .inr) (by simp)) hidle
    · exact fun id hid => absurd hid (Finset.notMem_empty id)
    · intro id op hop
      simp [created] at hop
  exact fun id hid => hkept.accounted hid

/-! ## An operation that failed once -/

/-- The index update of a folder with one file. -/
def indexing : Operation where
  id := ['o', 'p']
  operationType := .indexUpdate ['a'] 0 1
  startedAt := ⟨1704067200, 0⟩
  lastCheckpoint := ⟨1704067200, 0⟩
  status := .inProgress
  retryCount := 0
  errorMessage := none

/-- Its record after it has failed once. -/
def failedOnce : Operation :=
  { indexing with status := .failed, retryCount := 1, errorMessage := some "disk full".toList }

/-- The two records and their JSON texts. -/
def indexingSamples : List (Operation × Text) :=
  let start := ["\x7b\"id\":\"op\",", "\"operation_type\":\x7b", "\"IndexUpdate\":\x7b",
    "\"folder_path\":\"a\",", "\"files_processed\":0,", "\"total_files\":1\x7d\x7d,",
    "\"started_at\":", "\"2024-01-01T00:00:00Z\",", "\"last_checkpoint\":",
    "\"2024-01-01T00:00:00Z\","]
  [(indexing, (start ++ ["\"status\":\"InProgress\",", "\"retry_count\":0,",
      "\"error_message\":null\x7d"]).flatMap String.toList),
    (failedOnce, (start ++ ["\"status\":\"Failed\",", "\"retry_count\":1,",
      "\"error_message\":", "\"disk full\"\x7d"]).flatMap String.toList)]

lemma exists_indexing : ∃ manager : RecoveryManager,
    ∀ sample ∈ indexingSamples, manager.json.toText sample.1 = sample.2 := by
  obtain ⟨codec, hcodec⟩ := LineCodec.exists_of_samples indexingSamples (by decide +kernel)
    (by decide +kernel) (by decide +kernel)
  exact ⟨⟨codec⟩, hcodec⟩

/-- The time at which everything happens. -/
def newYear : RecoveryInput := ⟨⟨1704067200, 0⟩, none⟩

/-- The start of the operation. -/
def startIndexing : List (Crashable.Event RecoveryCall RecoveryInput) :=
  .call (.startOperation indexing) :: List.replicate 4 (.act newYear) ++ [.finish]

/-- The start of the operation, its failure, and a crash. -/
def failIndexing : List (Crashable.Event RecoveryCall RecoveryInput) :=
  startIndexing ++ .call (.failOperation ['o', 'p'] "disk full".toList) ::
    List.replicate 6 (.act newYear) ++ [.finish, .crash 0]

variable (manager) in
/-- The log after the operation was started. -/
def indexingLog : Bytes := (manager.savedContent indexing (existingContent none)).utf8

variable (manager) in
lemma records_indexingLog : manager.records (some manager.indexingLog) = [indexing] := by
  rw [indexingLog, records_savedContent]
  rfl

/-- The start of the operation strands nothing, nor does a crash after it. -/
theorem accounted_indexing : ∃ manager : RecoveryManager,
    (∀ sample ∈ indexingSamples, manager.json.toText sample.1 = sample.2) ∧
      ∃ m : Moment, manager.component.Run owed manager.sparing (created none) m ∧
        m.past = {indexing.id} ∧ ∀ id ∈ m.past, manager.Accounted m.state.log id := by
  obtain ⟨manager, htexts⟩ := exists_indexing
  have hstarted : Runs.exec (manager.component.next owed) (fun _ _ => True) startIndexing
      (created none) = some ⟨⟨(∅ : HashMap Text Operation).insert indexing.id indexing, false,
        some manager.indexingLog, none⟩, {indexing.id}, none⟩ := rfl
  have hrun := Runs.run_of_exec_of_forall (C := manager.sparing.Meets) hstarted (by
    intro e he m
    simp only [startIndexing, List.cons_append, List.mem_cons, List.mem_append,
      List.mem_replicate, List.not_mem_nil, or_false] at he
    rcases he with rfl | ⟨-, rfl⟩ | rfl
    · rfl
    · trivial
    · trivial)
  have hrecovering : ∀ id ∈ ({indexing.id} : Finset Text), ∀ op,
      manager.logged (some manager.indexingLog) id = some op → op.status ≠ .recovering := by
    intro id _ op hop
    have hmem := RecordLog.mem_of_find hop
    rw [records_indexingLog, List.mem_singleton] at hmem
    subst hmem
    simp [indexing]
  have hcrashed : manager.component.Run owed manager.sparing (created none) _ :=
    hrun.tail ⟨.crash 0, ⟨hrecovering, by simp [Crashable.Machine.head]⟩, rfl⟩
  exact ⟨manager, htexts, _, hcrashed, rfl, accounted_of_run hcrashed rfl⟩

/-- **An operation that failed once is lost**: a crash after it leaves it neither loaded nor ended.
-/
theorem not_accounted_failIndexing : ∃ manager : RecoveryManager,
    (∀ sample ∈ indexingSamples, manager.json.toText sample.1 = sample.2) ∧
      ¬ ∀ m : Moment, manager.component.Run owed .any (created none) m → m.running = none →
        ∀ id ∈ m.past, manager.Accounted m.state.log id := by
  obtain ⟨manager, htexts⟩ := exists_indexing
  refine ⟨manager, htexts, fun h => ?_⟩
  set log := (manager.savedContent failedOnce (existingContent (some manager.indexingLog))).utf8
    with hlog
  have hfailed : Runs.exec (manager.component.next owed) (fun _ _ => True) failIndexing
      (created none) = some ⟨⟨∅, false, some log, none⟩, {indexing.id}, none⟩ := rfl
  have hrun := Runs.run_of_exec_of_forall (C := Crashable.Condition.any.Meets) hfailed
    fun e _ m => Crashable.Condition.any_meets m e
  have hrecords : manager.records (some log) = [failedOnce] := by
    rw [hlog, records_savedContent, records_indexingLog]
    rfl
  rcases h _ hrun rfl indexing.id (Finset.mem_singleton_self _) with hloads | hfinished
  · obtain ⟨operations, hload, op, hop, -⟩ := hloads
    obtain ⟨hincomplete, hmem⟩ := isIncomplete_of_mem_loadedLog hload hop
    rw [hrecords, List.mem_singleton] at hmem
    subst hmem
    exact absurd hincomplete (by decide)
  · obtain ⟨op, hop, hfin⟩ := hfinished
    have hmem := RecordLog.mem_of_find hop
    rw [hrecords, List.mem_singleton] at hmem
    subst hmem
    exact absurd hfin (by decide)

end RecoveryManager

end Landropic
