import Landropic.Foundations.Pool
import Landropic.Sync.RecoveryLog

set_option autoImplicit false

/-!
# Concurrent calls of a recovery manager

Any number of tasks start and complete operations at once. Each reads the log, edits what it has
read and writes it back, and the lock covers only part of this. As long as no task reads the log
while another one is about to write it, every change is made on top of the last one.

## Main definitions

* `TrackingCall` — a call that starts or completes an operation.
* `RecoveryManager.tracking` — tasks that make such calls.
* `RecoveryManager.InStep` — the log records exactly the operations at work.
* `RecoveryManager.Apart` — the steps that keep the calls apart.

## Main results

* `RecoveryManager.wp_startOperation`, `RecoveryManager.wp_completeOperation` — what a call achieves
  while others leave its operation alone.
* `RecoveryManager.Tracking.step` — a step that keeps the calls apart leaves them so.
* `RecoveryManager.inStep_of_apart` — calls that are kept apart lose no record.
* `RecoveryManager.active_of_run` — what is at work was started and not completed.
-/

namespace Landropic

/-- A call that starts or completes an operation. -/
inductive TrackingCall
  | startOperation (op : Operation)
  | completeOperation (id : Text)

/-- The operation that a call is about. -/
def TrackingCall.id : TrackingCall → Text
  | startOperation op => op.id
  | completeOperation id => id

/-- What a call does to the operations that were started and not completed. -/
def TrackingCall.count (active : HashMap Text Operation) :
    TrackingCall → HashMap Text Operation
  | startOperation op => active.insert op.id op
  | completeOperation id => active.erase id

namespace RecoveryOp

/-- A call begins with this action. -/
def begins : RecoveryOp → Bool
  | insertActive | acquire => true
  | _ => false

/-- The action writes what was made of the log read before. -/
def writes : RecoveryOp → Bool
  | writeTmp _ | renameTmp | writeLog _ => true
  | _ => false

end RecoveryOp

namespace RecoveryManager

open Proc

variable (manager : RecoveryManager)

/-- The process of a call. -/
def trackingCode : TrackingCall → RecoveryTask Unit
  | .startOperation op => manager.startOperation op
  | .completeOperation id => manager.completeOperation id

/-- The state of a manager and some calls on it. -/
abbrev TrackingPool (τ : Type) := Pool τ RecoveryState RecoveryInput RecoveryOp RecoveryError Unit

/-- Tasks that each make a call. -/
def tracking {τ : Type} (calls : τ → TrackingCall) (s : RecoveryState) : TrackingPool τ :=
  ⟨s, fun t => manager.trackingCode (calls t)⟩

/-- The log has the record of an operation that is at work, and none of one that is not. -/
def Agrees (id : Text) (s : RecoveryState) : Prop :=
  manager.logged s.log id = s.active.lookup id

/-- No operation is recorded twice. -/
def NoRepeats (log : Option Bytes) : Prop := ((manager.records log).map Operation.id).Nodup

/-- The log records exactly the operations at work, those that were started and not completed. -/
structure InStep (s : RecoveryState) : Prop where
  noRepeats : manager.NoRepeats s.log
  agrees : ∀ id, manager.Agrees id s

/-- A task that has begun its call and not returned. -/
def UnderWay (task : RecoveryTask Unit) : Prop :=
  ∃ label, task.head = some label ∧ label.begins = false

/-- A task that has read the log and is about to write. -/
def Writing (task : RecoveryTask Unit) : Prop :=
  ∃ label, task.head = some label ∧ label.writes = true

instance (task : RecoveryTask Unit) : Decidable (UnderWay task) :=
  decidable_of_iff (task.head.any fun label => !label.begins)
    (by simp [UnderWay, Option.any_eq_true])

instance (task : RecoveryTask Unit) : Decidable (Writing task) :=
  decidable_of_iff (task.head.any RecoveryOp.writes) (by simp [Writing, Option.any_eq_true])

/-- A step that keeps the calls apart:
* it does not read the log while another task is about to write it,
* it begins no call for an operation for which another call is under way. -/
def Apart {τ : Type} (calls : τ → TrackingCall) (P : TrackingPool τ) (t : τ) (_ : RecoveryInput) :
    Prop :=
  ((P.task t).head = some .readLog → ∀ u, u ≠ t → ¬ Writing (P.task u)) ∧
    ∀ label, (P.task t).head = some label → label.begins = true →
      ∀ u, u ≠ t → UnderWay (P.task u) → (calls u).id ≠ (calls t).id

instance {τ : Type} [Fintype τ] [DecidableEq τ] (calls : τ → TrackingCall) (P : TrackingPool τ)
    (t : τ)
    (i : RecoveryInput) : Decidable (Apart calls P t i) :=
  @instDecidableAnd _ _ inferInstance (match h : (P.task t).head with
    | none => isTrue (by simp)
    | some label => decidable_of_iff (label.begins = true →
        ∀ u, u ≠ t → UnderWay (P.task u) → (calls u).id ≠ (calls t).id) (by simp))

variable {manager} {s s' : RecoveryState} {id : Text} {op : Operation}

/-- **The log records exactly the operations at work.** -/
theorem InStep.mem_records_iff (h : manager.InStep s) :
    op ∈ manager.records s.log ↔ s.active.lookup op.id = some op := by
  rw [RecordLog.mem_iff_find h.noRepeats, ← h.agrees op.id]
  rfl

/-! ## What a call achieves -/

section Calls

variable (manager id) in
/-- The others leave the operation alone while its call is under way, and the log too while the call
is about to write it; the call leaves all other operations alone. -/
def callSpec : Spec RecoveryState RecoveryInput RecoveryOp where
  env label s s' := ∀ l, label = some l → l.begins = false →
    (l.writes = true → s'.log = s.log ∧ s'.tmp = s.tmp) ∧
      manager.logged s'.log id = manager.logged s.log id ∧
        s'.active.lookup id = s.active.lookup id
  env_refl _ _ _ _ _ := ⟨fun _ => ⟨rfl, rfl⟩, rfl, rfl⟩
  env_trans h h' l hl hbegins := by
    obtain ⟨hw, hlog, hactive⟩ := h l hl hbegins
    obtain ⟨hw', hlog', hactive'⟩ := h' l hl hbegins
    refine ⟨fun hwrites => ?_, hlog'.trans hlog, hactive'.trans hactive⟩
    exact ⟨(hw' hwrites).1.trans (hw hwrites).1, (hw' hwrites).2.trans (hw hwrites).2⟩
  input label s _ := label.begins = true → manager.Agrees id s
  guar label s s' :=
    (∀ other, other ≠ id → manager.logged s'.log other = manager.logged s.log other ∧
      s'.active.lookup other = s.active.lookup other) ∧
    (label.writes = false → s'.log = s.log ∧ s'.tmp = s.tmp) ∧
    (manager.NoRepeats s.log → manager.NoRepeats s'.log)
  progress := False

variable (manager) in
/-- What matters of the state to the call for an operation. -/
def At (id : Text) (record active : Option Operation) (s : RecoveryState) : Prop :=
  manager.logged s.log id = record ∧ s.active.lookup id = active

variable {record active : Option Operation} {α : Type} {label : RecoveryOp}

lemma At.env (h : manager.At id record active s) (hbegins : label.begins = false)
    (henv : (manager.callSpec id).env (some label) s s') : manager.At id record active s' := by
  obtain ⟨-, hlog, hactive⟩ := henv label rfl hbegins
  exact ⟨hlog.trans h.1, hactive.trans h.2⟩

/-- An action that leaves the state as it is. -/
lemma wp_look {Q : Except RecoveryError α → RecoveryState → Prop}
    {f : RecoveryInput → RecoveryState → Except RecoveryError α × RecoveryState}
    (h : manager.At id record active s) (hbegins : label.begins = false)
    (hsame : ∀ i s, (f i s).2 = s)
    (hQ : ∀ i s', manager.At id record active s' → Q (f i s').1 s') :
    wp (manager.callSpec id) Q (atom label f) s := by
  refine wp_atom fun s' henv i _ => ?_
  rw [hsame]
  exact ⟨⟨fun _ _ => ⟨rfl, rfl⟩, fun _ => ⟨rfl, rfl⟩, fun h => h⟩, hQ i s' (h.env hbegins henv)⟩

/-- An action on the operations at work that concerns the operation of the call at most. -/
lemma wp_access {Q : Except RecoveryError α → RecoveryState → Prop}
    {f : RecoveryInput → RecoveryState → Except RecoveryError α × RecoveryState}
    (h : manager.At id record active s) (hbegins : label.begins = false)
    (hother : ∀ i s, (f i s).2.log = s.log ∧ (f i s).2.tmp = s.tmp ∧
      ∀ other, other ≠ id → (f i s).2.active.lookup other = s.active.lookup other)
    (hQ : ∀ i s', manager.At id record active s' → Q (f i s').1 (f i s').2) :
    wp (manager.callSpec id) Q (atom label f) s := by
  refine wp_atom fun s' henv i _ => ⟨?_, hQ i s' (h.env hbegins henv)⟩
  obtain ⟨hlog, htmp, hactive⟩ := hother i s'
  refine ⟨fun other hne => ⟨by rw [hlog], hactive other hne⟩, fun _ => ⟨hlog, htmp⟩, fun h => ?_⟩
  rwa [hlog]

/-- **Saving an operation** puts its record into the log. -/
theorem wp_saveOperation {Q : Except RecoveryError Unit → RecoveryState → Prop} (op : Operation)
    (h : manager.At op.id record active s)
    (hQ : ∀ s', manager.At op.id (some op) active s' → Q (.ok ()) s') :
    wp (manager.callSpec op.id) Q (manager.saveOperation op) s := by
  refine wp_bind (wp_look h rfl (fun _ _ => rfl) fun _ s₁ h₁ => ?_)
  refine wp_bind (wp_atom fun s₂ henv₂ _ _ => ?_)
  have hlog₂ : s₂.log = s₁.log := ((henv₂ _ rfl rfl).1 rfl).1
  have h₂ := h₁.env rfl henv₂
  refine ⟨⟨fun _ _ => ⟨rfl, rfl⟩, by simp [RecoveryOp.writes], fun h => h⟩, ?_⟩
  refine wp_atom fun s₃ henv₃ _ _ => ?_
  have htmp : manager.At op.id record active
      { s₂ with tmp := some (manager.savedContent op (existingContent s₁.log)).utf8 } := h₂
  have h₃ := htmp.env rfl henv₃
  obtain ⟨hlog₃, htmp₃⟩ := (henv₃ _ rfl rfl).1 rfl
  rw [htmp₃]
  dsimp only
  -- what is renamed was made of the log as it still is
  have hcontent : existingContent s₁.log = existingContent s₃.log := by rw [hlog₃, ← hlog₂]
  rw [hcontent]
  refine ⟨⟨fun other hne => ⟨?_, rfl⟩, by simp [RecoveryOp.writes], fun hnodup => ?_⟩,
    hQ _ ⟨?_, h₃.2⟩⟩
  · rw [logged_savedContent, if_neg hne]
  · rw [NoRepeats, records_savedContent]
    exact RecordLog.nodup_upsert hnodup
  · rw [logged_savedContent, if_pos rfl]

/-- **Removing an operation** takes its record out of the log. -/
theorem wp_removeOperation {Q : Except RecoveryError Unit → RecoveryState → Prop}
    (h : manager.At id (some op) active s)
    (hQ : ∀ s', manager.At id none active s' → Q (.ok ()) s') :
    wp (manager.callSpec id) Q (manager.removeOperation id) s := by
  have hread : ∀ s₁ : RecoveryState, manager.At id (some op) active s₁ →
      ∃ bytes, s₁.log = some bytes ∧ Text.fromUtf8 bytes = some (existingContent s₁.log) := by
    intro s₁ h₁
    obtain ⟨bytes, content, hlog, hcontent⟩ := exists_of_logged h₁.1
    exact ⟨bytes, hlog, by simp [hlog, existingContent, hcontent]⟩
  refine wp_bind (wp_look h rfl ?_ fun _ s₁ h₁ => ?_)
  · intro _ s₁
    split
    · rfl
    · split <;> rfl
  · obtain ⟨bytes, hlog, hcontent⟩ := hread s₁ h₁
    simp only [hlog, hcontent]
    rw [hlog] at hcontent
    refine wp_atom fun s₂ henv₂ _ _ => ?_
    have h₂ := h₁.env rfl henv₂
    have hlog₂ : s₂.log = some bytes := ((henv₂ _ rfl rfl).1 rfl).1.trans hlog
    rw [← hlog₂]
    refine ⟨⟨fun other hne => ⟨?_, rfl⟩, by simp [RecoveryOp.writes], fun hnodup => ?_⟩,
      hQ _ ⟨?_, h₂.2⟩⟩
    · rw [logged_keptContent, if_neg hne]
    · rw [NoRepeats, records_keptContent]
      exact RecordLog.nodup_filter hnodup
    · rw [logged_keptContent, if_pos rfl]

variable (manager id) in
/-- A call has returned, and log and memory agree on its operation. -/
def Tracked (r : Except RecoveryError Unit) (s : RecoveryState) : Prop :=
  r = .ok () ∧ manager.Agrees id s

/-- **A start** leaves its operation at work and in the log. -/
theorem wp_startOperation (op : Operation) (s : RecoveryState) :
    wp (manager.callSpec op.id) (manager.Tracked op.id) (manager.startOperation op) s := by
  refine wp_bind fun s₁ _ => ⟨False.elim, fun _ _ _ => ⟨⟨?_, fun _ => ⟨rfl, rfl⟩, fun h => h⟩, ?_⟩⟩
  · exact fun other hne => ⟨rfl, Finmap.lookup_insert_of_ne _ hne⟩
  · refine wp_saveOperation op ⟨rfl, rfl⟩ fun s' h => ⟨rfl, ?_⟩
    exact h.1.trans (h.2.trans (Finmap.lookup_insert _)).symm

lemma wp_whileLocked {body : RecoveryTask Unit}
    (hbody : ∀ s, manager.Agrees id s →
      wp (manager.callSpec id) (manager.Tracked id) body { s with locked := true })
    (s : RecoveryState) :
    wp (manager.callSpec id) (manager.Tracked id) (whileLocked body) s := by
  refine wp_bind fun s₁ _ => ⟨False.elim, fun _ _ hinput =>
    ⟨⟨?_, fun _ => ⟨rfl, rfl⟩, fun h => h⟩, ?_⟩⟩
  · exact fun _ _ => ⟨rfl, rfl⟩
  · refine wp_bind (wp_attempt (wp_mono (hbody s₁ (hinput rfl)) ?_))
    rintro r s₂ ⟨rfl, hagrees⟩
    refine wp_bind (wp_access ⟨rfl, rfl⟩ rfl (fun _ s => ⟨rfl, rfl, fun _ _ => rfl⟩)
      fun _ s₃ h₃ => ?_)
    exact ⟨rfl, h₃.1.trans (hagrees.trans h₃.2.symm)⟩

/-- **A completion** leaves its operation neither at work nor in the log. -/
theorem wp_completeOperation (id : Text) (s : RecoveryState) :
    wp (manager.callSpec id) (manager.Tracked id) (manager.completeOperation id) s := by
  refine wp_whileLocked (fun s hagrees => ?_) s
  have h : manager.At id (s.active.lookup id) (s.active.lookup id) { s with locked := true } :=
    ⟨hagrees, rfl⟩
  refine wp_bind (wp_access h rfl ?_ fun i s₁ h₁ => ?_)
  · intro i s₁
    cases s₁.active.lookup id with
    | none => exact ⟨rfl, rfl, fun _ _ => rfl⟩
    | some op => exact ⟨rfl, rfl, fun other hne => Finmap.lookup_erase_ne hne⟩
  · rw [h₁.2]
    cases hop : s.active.lookup id with
    | none => exact ⟨rfl, h₁.1.trans h₁.2.symm⟩
    | some op =>
      rw [hop] at h₁
      have hid : op.id = id := RecordLog.key_of_find h₁.1
      subst hid
      have herased : manager.At op.id (some op) none
          { s₁ with active := s₁.active.erase op.id } := ⟨h₁.1, Finmap.lookup_erase _ _⟩
      dsimp only
      refine wp_bind (wp_saveOperation
        { op with status := .completed, lastCheckpoint := i.now } herased fun s₂ h₂ => ?_)
      refine wp_bind (wp_attempt (wp_removeOperation h₂ fun s₃ h₃ => ?_))
      exact ⟨rfl, h₃.1.trans h₃.2.symm⟩

theorem wp_trackingCode (c : TrackingCall) (s : RecoveryState) :
    wp (manager.callSpec c.id) (manager.Tracked c.id) (manager.trackingCode c) s := by
  cases c with
  | startOperation op => exact wp_startOperation op s
  | completeOperation id => exact wp_completeOperation id s

end Calls

/-! ## The order of its actions -/

section Order

variable {α β : Type}

/-- How far a call has come. -/
inductive CallStage
  | unbegun
  | begun
  /-- The log has been read, or written, by the last action. -/
  | read
  deriving DecidableEq

/-- A call begins with its first action only, and writes only after it has read the log or
written. -/
structure Proceeds (stage : CallStage) (label : RecoveryOp) (stage' : CallStage) : Prop where
  begins : label.begins = true → stage = .unbegun
  writes : label.writes = true → stage = .read
  read : stage' = .read → label = .readLog ∨ label.writes = true
  begun : stage' ≠ .unbegun

/-- The actions of a task proceed from this stage. -/
abbrev Orderly (stage : CallStage) (task : RecoveryTask α) : Prop :=
  Follows Proceeds (fun _ _ => True) stage task

lemma proceeds_begun {stage : CallStage} {label : RecoveryOp} (hbegins : label.begins = false)
    (hwrites : label.writes = false) : Proceeds stage label .begun :=
  ⟨by simp [hbegins], by simp [hwrites], by simp, by simp⟩

lemma Orderly.of_begun {task : RecoveryTask α} (h : Orderly .begun task) (stage : CallStage) :
    Orderly stage task := by
  cases task with
  | ret r => trivial
  | act label ready eff next =>
    obtain ⟨stage', hproceeds, hnext⟩ := h
    refine ⟨stage', ⟨fun hb => ?_, fun hw => ?_, hproceeds.read, hproceeds.begun⟩, hnext⟩
    · cases hproceeds.begins hb
    · cases hproceeds.writes hw

lemma Orderly.bind {stage : CallStage} {task : RecoveryTask α} {k : α → RecoveryTask β}
    (h : Orderly stage task) (hk : ∀ a, Orderly .begun (k a)) : Orderly stage (task >>= k) := by
  refine Follows.bind (h.mono fun r stage' _ => ?_)
  cases r with
  | ok a => exact (hk a).of_begun stage'
  | error e => trivial

variable (manager)

lemma orderly_saveOperation (op : Operation) : Orderly .begun (manager.saveOperation op) := by
  have hwrite : ∀ {label : RecoveryOp} (stage : CallStage), label.writes = true →
      label.begins = false → stage ≠ .unbegun → Proceeds .read label stage :=
    fun stage hw hb hstage => ⟨by simp [hb], fun _ => rfl, fun _ => .inr hw, hstage⟩
  refine ⟨.read, ⟨by simp [RecoveryOp.begins], by simp [RecoveryOp.writes], fun _ => .inl rfl,
    by simp⟩, fun _ _ => ?_⟩
  refine ⟨.read, hwrite .read rfl rfl (by simp), fun _ _ => ?_⟩
  exact ⟨.begun, hwrite .begun rfl rfl (by simp), fun _ _ => trivial⟩

lemma orderly_removeOperation (id : Text) : Orderly .begun (manager.removeOperation id) := by
  refine ⟨.read, ⟨by simp [RecoveryOp.begins], by simp [RecoveryOp.writes], fun _ => .inl rfl,
    by simp⟩, fun _ s => ?_⟩
  dsimp only
  cases s.log with
  | none => trivial
  | some bytes =>
    dsimp only
    cases Text.fromUtf8 bytes with
    | none => trivial
    | some content =>
      exact ⟨.begun, ⟨by simp [RecoveryOp.begins], fun _ => rfl, by simp, by simp⟩,
        fun _ _ => trivial⟩

lemma orderly_whileLocked {body : RecoveryTask α} (h : Orderly .begun body) :
    Orderly .unbegun (whileLocked body) := by
  refine Orderly.bind ⟨.begun, ⟨fun _ => rfl, by simp [RecoveryOp.writes], by simp, by simp⟩,
    fun _ _ => trivial⟩ fun _ => ?_
  refine Orderly.bind (Follows.attempt h) fun r => ?_
  exact Orderly.bind (Follows.atom (proceeds_begun rfl rfl) fun _ => trivial) fun _ => trivial

/-- **The actions of a call come in order.** -/
theorem orderly_trackingCode (c : TrackingCall) : Orderly .unbegun (manager.trackingCode c) := by
  cases c with
  | startOperation op =>
    refine Orderly.bind ⟨.begun, ⟨fun _ => rfl, by simp [RecoveryOp.writes], by simp, by simp⟩,
      fun _ _ => trivial⟩ fun _ => ?_
    exact manager.orderly_saveOperation op
  | completeOperation id =>
    refine orderly_whileLocked (Orderly.bind (Follows.atom (proceeds_begun rfl rfl)
      fun _ => trivial) fun removed => ?_)
    cases removed with
    | none => trivial
    | some op =>
      refine Orderly.bind (manager.orderly_saveOperation op) fun _ => ?_
      exact Orderly.bind (Follows.attempt (manager.orderly_removeOperation id)) fun _ => trivial

end Order

/-! ## Any number of calls -/

section Pools

variable {τ : Type} {calls : τ → TrackingCall} {P P' : TrackingPool τ} {t : τ} {i : RecoveryInput}

variable (manager calls) in
/-- Calls at work that are kept apart. -/
structure Tracking (P : TrackingPool τ) : Prop where
  /-- A call that has not returned will achieve what it should. -/
  wp : ∀ u, (P.task u).head ≠ none →
    wp (manager.callSpec (calls u).id) (manager.Tracked (calls u).id) (P.task u) P.state
  /-- A call that has returned succeeded. -/
  result : ∀ u r, P.task u = .ret r → r = .ok ()
  orderly : ∀ u, ∃ stage, Orderly stage (P.task u)
  /-- At most one task is about to write. -/
  writing : ∀ u v, Writing (P.task u) → Writing (P.task v) → u = v
  /-- At most one call for an operation is under way. -/
  underWay : ∀ u v, UnderWay (P.task u) → UnderWay (P.task v) → (calls u).id = (calls v).id → u = v
  /-- Log and memory agree on the operations for which no call is under way. -/
  agrees : ∀ id, (∀ u, UnderWay (P.task u) → (calls u).id ≠ id) → manager.Agrees id P.state
  noRepeats : manager.NoRepeats P.state.log

lemma tracking_start (h : manager.InStep s) :
    manager.Tracking calls (manager.tracking calls s) := by
  have hbegin : ∀ c, ∃ label, (manager.trackingCode c).head = some label ∧ label.begins = true ∧
      label.writes = false := by
    intro c
    cases c with
    | startOperation op => exact ⟨.insertActive, rfl, rfl, rfl⟩
    | completeOperation id => exact ⟨.acquire, rfl, rfl, rfl⟩
  refine ⟨fun u _ => wp_trackingCode _ _, fun u r hr => ?_,
    fun u => ⟨.unbegun, manager.orderly_trackingCode _⟩, ?_, ?_, fun id _ => h.agrees id,
      h.noRepeats⟩
  · obtain ⟨label, hlabel, -⟩ := hbegin (calls u)
    have hret : manager.trackingCode (calls u) = .ret r := hr
    rw [hret] at hlabel
    cases hlabel
  · rintro u v ⟨label, hlabel, hwrites⟩
    obtain ⟨label', hlabel', -, hwrites'⟩ := hbegin (calls u)
    obtain rfl : label = label' := Option.some.inj (hlabel.symm.trans hlabel')
    rw [hwrites] at hwrites'
    cases hwrites'
  · rintro u v ⟨label, hlabel, hbegins⟩
    obtain ⟨label', hlabel', hbegins', -⟩ := hbegin (calls u)
    obtain rfl : label = label' := Option.some.inj (hlabel.symm.trans hlabel')
    rw [hbegins] at hbegins'
    cases hbegins'

variable [DecidableEq τ]

lemma Tracking.not_writing (h : manager.Tracking calls P) (hC : Apart calls P t i)
    (hstep : P.Step t i P') (hwriting : Writing (P'.task t)) {u : τ} (hu : u ≠ t) :
    ¬ Writing (P.task u) := by
  obtain ⟨stage, horderly⟩ := h.orderly t
  obtain ⟨label, stage', hlabel, hproceeds, horderly'⟩ := horderly.step hstep.proc
  obtain ⟨label', hlabel', hwrites'⟩ := hwriting
  obtain ⟨stage'', hproceeds'⟩ := horderly'.of_head hlabel'
  rcases hproceeds.read (hproceeds'.writes hwrites') with rfl | hwrites
  · exact hC.1 hlabel u hu
  · exact fun hw => hu (h.writing u t hw ⟨label, hlabel, hwrites⟩)

lemma Tracking.not_underWay (h : manager.Tracking calls P) (hC : Apart calls P t i)
    (hstep : P.Step t i P') {u : τ} (hu : u ≠ t) (hunder : UnderWay (P.task u)) :
    (calls u).id ≠ (calls t).id := by
  obtain ⟨label, hlabel⟩ : ∃ label, (P.task t).head = some label := by
    cases htask : P.task t with
    | ret r =>
      have := hstep.proc
      rw [htask] at this
      cases this
    | act label ready eff next => exact ⟨label, rfl⟩
  cases hbegins : label.begins with
  | true => exact hC.2 label hlabel hbegins u hu hunder
  | false => exact fun hid => hu (h.underWay u t hunder ⟨label, hlabel, hbegins⟩ hid)

/-- **A step that keeps the calls apart** leaves them so. -/
theorem Tracking.step (h : manager.Tracking calls P) (hC : Apart calls P t i)
    (hstep : P.Step t i P') : manager.Tracking calls P' := by
  have hhead : (P.task t).head ≠ none := by
    intro hnone
    cases htask : P.task t with
    | ret r =>
      have := hstep.proc
      rw [htask] at this
      cases this
    | act label ready eff next =>
      rw [htask] at hnone
      cases hnone
  have hagrees : ∀ label, (P.task t).head = some label → label.begins = true →
      manager.Agrees (calls t).id P.state := by
    intro label hlabel hbegins
    refine h.agrees _ fun u hunder => ?_
    by_cases hu : u = t
    · subst hu
      obtain ⟨label', hlabel', hbegins'⟩ := hunder
      obtain rfl := Option.some.inj (hlabel.symm.trans hlabel')
      rw [hbegins] at hbegins'
      cases hbegins'
    · exact h.not_underWay hC hstep hu hunder
  obtain ⟨⟨label, hlabel, hother, hlog, hrepeats⟩, hwp⟩ :=
    wp_step (h.wp t hhead) hstep.proc hagrees
  -- the others find their operations, and what they are about to write over, as they were
  have henv : ∀ u, u ≠ t → ∀ l, (P.task u).head = some l →
      (manager.callSpec (calls u).id).env (some l) P.state P'.state := by
    rintro u hu l hl l' hl' hbegins
    obtain rfl := Option.some.inj hl'
    refine ⟨fun hwrites => hlog ?_, hother _ (h.not_underWay hC hstep hu ⟨l, hl, hbegins⟩)⟩
    cases hw : label.writes with
    | false => rfl
    | true => exact absurd (h.writing u t ⟨l, hl, hwrites⟩ ⟨label, hlabel, hw⟩) hu
  refine ⟨fun u hhead' => ?_, fun u r hr => ?_, fun u => ?_, fun u v hu hv => ?_,
    fun u v hu hv hid => ?_, fun id hnone => ?_, hrepeats h.noRepeats⟩
  · by_cases hu : u = t
    · subst hu
      exact hwp
    · rw [hstep.task_of_ne hu] at hhead' ⊢
      refine wp_of_env (h.wp u hhead') (fun r hr _ => ?_) ?_
      · rw [hr] at hhead'
        exact absurd rfl hhead'
      · cases hl : (P.task u).head with
        | none => exact absurd hl hhead'
        | some l => exact henv u hu l hl
  · by_cases hu : u = t
    · subst hu
      rw [hr] at hwp
      exact hwp.1
    · rw [hstep.task_of_ne hu] at hr
      exact h.result u r hr
  · by_cases hu : u = t
    · subst hu
      obtain ⟨stage, horderly⟩ := h.orderly u
      obtain ⟨-, stage', -, -, horderly'⟩ := horderly.step hstep.proc
      exact ⟨stage', horderly'⟩
    · rw [hstep.task_of_ne hu]
      exact h.orderly u
  · by_cases hut : u = t
    · subst hut
      by_contra hne
      rw [hstep.task_of_ne (Ne.symm hne)] at hv
      exact h.not_writing hC hstep hu (Ne.symm hne) hv
    · rw [hstep.task_of_ne hut] at hu
      by_cases hvt : v = t
      · subst hvt
        exact absurd hu (h.not_writing hC hstep hv hut)
      · rw [hstep.task_of_ne hvt] at hv
        exact h.writing u v hu hv
  · by_cases hut : u = t
    · subst hut
      by_contra hne
      rw [hstep.task_of_ne (Ne.symm hne)] at hv
      exact h.not_underWay hC hstep (Ne.symm hne) hv hid.symm
    · rw [hstep.task_of_ne hut] at hu
      by_cases hvt : v = t
      · subst hvt
        exact absurd hid (h.not_underWay hC hstep hut hu)
      · rw [hstep.task_of_ne hvt] at hv
        exact h.underWay u v hu hv hid
  · by_cases hid : (calls t).id = id
    · subst hid
      have hnot : ¬ UnderWay (P'.task t) := fun hu => hnone t hu rfl
      cases htask : P'.task t with
      | ret r =>
        rw [htask] at hwp
        exact hwp.2
      | act l ready eff next =>
        -- a call that has begun does not begin again
        obtain ⟨stage, horderly⟩ := h.orderly t
        obtain ⟨label', stage', -, hproceeds, horderly'⟩ := horderly.step hstep.proc
        obtain ⟨stage'', hproceeds'⟩ := horderly'.of_head (congrArg Proc.head htask)
        refine absurd ⟨l, congrArg Proc.head htask, ?_⟩ hnot
        cases hbegins : l.begins with
        | false => rfl
        | true => exact absurd (hproceeds'.begins hbegins) hproceeds.begun
    · obtain ⟨hlogged, hactive⟩ := hother id (Ne.symm hid)
      rw [Agrees, hlogged, hactive]
      refine h.agrees id fun u hunder => ?_
      by_cases hu : u = t
      · subst hu
        exact hid
      · refine hnone u ?_
        rwa [hstep.task_of_ne hu]

variable (calls) in
/-- **No record is lost to interleaving.** From a state in which the log records exactly the
operations at work, calls that are kept apart all succeed, and once they have returned the log again
records exactly the operations that were started and not completed, whatever the number of calls and
the order of their actions.

**Proof sketch.** Only a task that has read the log writes to it, and no other task reads or writes
in between, so that what it writes was made of the log as it still is. The calls for one operation
follow one another, and each changes the records of its own operation only. -/
theorem inStep_of_apart (h : manager.InStep s)
    (hrun : Pool.Run (Apart calls) (manager.tracking calls s) P)
    (hreturned : ∀ t, ∃ r, P.task t = .ret r) :
    (∀ t, P.task t = .ret (.ok ())) ∧ manager.NoRepeats P.state.log ∧
      ∀ op, op ∈ manager.records P.state.log ↔ P.state.active.lookup op.id = some op := by
  have htracking : manager.Tracking calls P :=
    hrun.invariant (tracking_start h) fun h hC hstep => h.step hC hstep
  have hinStep : manager.InStep P.state := by
    refine ⟨htracking.noRepeats, fun id => htracking.agrees id fun u hunder => ?_⟩
    obtain ⟨label, hlabel, -⟩ := hunder
    obtain ⟨r, hr⟩ := hreturned u
    rw [hr] at hlabel
    cases hlabel
  refine ⟨fun t => ?_, hinStep.noRepeats, fun op => hinStep.mem_records_iff⟩
  obtain ⟨r, hr⟩ := hreturned t
  rw [hr, htracking.result t r hr]

end Pools

/-! ## What is at work -/

section Counts

variable {α : Type} {c : TrackingCall} {counted : Bool}

/-- A call counts once, with the action that starts or completes its operation. -/
def Counts (c : TrackingCall) (counted : Bool) (_ : RecoveryOp) (s s' : RecoveryState)
    (counted' : Bool) : Prop :=
  counted' = counted ∧ s'.active = s.active ∨
    counted = false ∧ counted' = true ∧ s'.active = c.count s.active

/-- The actions leave the operations at work alone. -/
abbrev Leaves (task : RecoveryTask α) : Prop :=
  Guarantees (fun _ s s' => s'.active = s.active) (fun _ => True) task

lemma Leaves.tracks {task : RecoveryTask α} (h : Leaves task) :
    Tracks (Counts c) (fun _ b => b = counted) counted task :=
  Guarantees.tracks h fun _ _ _ heq => .inl ⟨rfl, heq⟩

lemma Leaves.bind {β : Type} {task : RecoveryTask α} {k : α → RecoveryTask β} (h : Leaves task)
    (hk : ∀ a, Leaves (k a)) : Leaves (task >>= k) :=
  Guarantees.bind h (fun _ _ => trivial) fun a _ => hk a

lemma Leaves.atom {label : RecoveryOp}
    {f : RecoveryInput → RecoveryState → Except RecoveryError α × RecoveryState}
    (h : ∀ i s, (f i s).2.active = s.active) : Leaves (Proc.atom label f) :=
  Guarantees.atom fun i s => ⟨h i s, trivial⟩

variable (manager)

lemma leaves_saveOperation (op : Operation) : Leaves (manager.saveOperation op) := by
  refine Leaves.bind (.atom fun _ _ => rfl) fun _ => Leaves.bind (.atom fun _ _ => rfl) fun _ => ?_
  refine Leaves.atom fun _ s => ?_
  cases s.tmp <;> rfl

lemma leaves_removeOperation (id : Text) : Leaves (manager.removeOperation id) := by
  refine Leaves.bind (.atom fun _ s => ?_) fun existing => ?_
  · split
    · rfl
    · split <;> rfl
  · cases existing with
    | none => trivial
    | some content => exact Leaves.atom fun _ _ => rfl

variable {manager}

lemma tracks_whileLocked {body : RecoveryTask α}
    (h : Tracks (Counts c) (fun _ b => b = true) false body) :
    Tracks (Counts c) (fun _ b => b = true) false (whileLocked body) := by
  refine fun _ s _ => ⟨false, .inl ⟨rfl, rfl⟩, Tracks.bind (t := body.attempt) ?_⟩
  refine Tracks.attempt (h.mono ?_)
  rintro r b rfl
  exact fun _ _ _ => ⟨true, .inl ⟨rfl, rfl⟩, by cases r <;> rfl⟩

/-- **A call counts exactly once** before it returns. -/
theorem tracks_trackingCode (c : TrackingCall) :
    Tracks (Counts c) (fun _ b => b = true) false (manager.trackingCode c) := by
  cases c with
  | startOperation op =>
    exact fun _ s _ => ⟨true, .inr ⟨rfl, rfl, rfl⟩, (manager.leaves_saveOperation op).tracks⟩
  | completeOperation id =>
    refine tracks_whileLocked (Tracks.bind (Tracks.atom fun i s => ⟨true, ?_⟩))
    cases hlookup : s.active.lookup id with
    | some op =>
      refine ⟨.inr ⟨rfl, rfl, rfl⟩, Leaves.tracks ?_⟩
      refine (manager.leaves_saveOperation _).bind fun _ => Leaves.bind ?_ fun _ => trivial
      exact Guarantees.attempt (manager.leaves_removeOperation id) fun _ _ => trivial
    | none =>
      refine ⟨.inr ⟨rfl, rfl, Finmap.ext_lookup fun id' => ?_⟩, rfl⟩
      by_cases hid : id' = id
      · subst hid
        rw [TrackingCall.count, Finmap.lookup_erase]
        exact hlookup
      · exact (Finmap.lookup_erase_ne hid).symm

end Counts

section Order

variable {τ : Type} {calls : τ → TrackingCall} {P P' : TrackingPool τ} {t : τ} {i : RecoveryInput}

variable (calls) in
/-- The calls that have counted so far, in their order. -/
structure CountedBy (active : HashMap Text Operation) (P : TrackingPool τ) (order : List τ) :
    Prop where
  nodup : order.Nodup
  active_eq : P.state.active = (order.map calls).foldl TrackingCall.count active
  tracks : ∀ u, ∃ counted : Bool, (counted = true ↔ u ∈ order) ∧
    Tracks (Counts (calls u)) (fun _ b => b = true) counted (P.task u)

lemma CountedBy.step {active : HashMap Text Operation} {order : List τ} [DecidableEq τ]
    (h : CountedBy calls active P order) (hstep : P.Step t i P') :
    ∃ order', CountedBy calls active P' order' := by
  obtain ⟨counted, hcounted, htracks⟩ := h.tracks t
  obtain ⟨label, counted', -, hcounts, htracks'⟩ := htracks.step hstep.proc
  have hothers : ∀ u, u ≠ t → ∃ counted : Bool, (counted = true ↔ u ∈ order) ∧
      Tracks (Counts (calls u)) (fun _ b => b = true) counted (P'.task u) := by
    intro u hu
    rw [hstep.task_of_ne hu]
    exact h.tracks u
  obtain ⟨rfl, hactive⟩ | ⟨rfl, rfl, hactive⟩ := hcounts
  · refine ⟨order, h.nodup, hactive.trans h.active_eq, fun u => ?_⟩
    by_cases hu : u = t
    · subst hu
      exact ⟨_, hcounted, htracks'⟩
    · exact hothers u hu
  · -- the call of this task comes last
    have hnot : t ∉ order := fun hmem => Bool.false_ne_true (hcounted.mpr hmem)
    refine ⟨order ++ [t], h.nodup.append (List.nodup_singleton t) (by simpa using hnot), ?_,
      fun u => ?_⟩
    · rw [hactive, h.active_eq, List.map_append, List.foldl_append]
      rfl
    · by_cases hu : u = t
      · subst hu
        exact ⟨true, by simp, htracks'⟩
      · obtain ⟨counted', hcounted', htracks'⟩ := hothers u hu
        exact ⟨counted', by simpa [hu] using hcounted', htracks'⟩

/-- **What is at work** once all calls have returned is what they started and completed, one after
the other in some order. -/
theorem active_of_run [DecidableEq τ] {C : TrackingPool τ → τ → RecoveryInput → Prop}
    (hrun : Pool.Run C (manager.tracking calls s) P) (hreturned : ∀ t, ∃ r, P.task t = .ret r) :
    ∃ order : List τ, order.Nodup ∧ (∀ t, t ∈ order) ∧
      P.state.active = (order.map calls).foldl TrackingCall.count s.active := by
  have hstart : CountedBy calls s.active (manager.tracking calls s) [] :=
    ⟨List.nodup_nil, rfl, fun u => ⟨false, by simp, tracks_trackingCode (calls u)⟩⟩
  obtain ⟨order, horder⟩ := hrun.invariant (I := fun P => ∃ order, CountedBy calls s.active P order)
    ⟨[], hstart⟩ fun ⟨_, h⟩ _ hstep => h.step hstep
  refine ⟨order, horder.nodup, fun t => ?_, horder.active_eq⟩
  obtain ⟨counted, hcounted, htracks⟩ := horder.tracks t
  obtain ⟨r, hr⟩ := hreturned t
  rw [hr] at htracks
  exact hcounted.mp htracks

end Order

/-! ## Two starts at once -/

/-- The index update of a folder with one file. -/
def indexingOf (name : Char) : Operation where
  id := [name]
  operationType := .indexUpdate [name] 0 1
  startedAt := ⟨1704067200, 0⟩
  lastCheckpoint := ⟨1704067200, 0⟩
  status := .inProgress
  retryCount := 0
  errorMessage := none

/-- The start of one of two operations. -/
def startOf (second : Bool) : TrackingCall :=
  .startOperation (indexingOf (if second then 'b' else 'a'))

/-- A manager that has just been created, without a log. -/
def unused : RecoveryState := { active := ∅, locked := false, log := none, tmp := none }

variable (manager) in
lemma inStep_unused : manager.InStep unused := ⟨List.nodup_nil, fun _ => rfl⟩

/-- Tasks take their next actions in this order. -/
def inTurn (order : List Bool) : List (Bool × RecoveryInput) :=
  order.map fun t => (t, ⟨⟨1704067200, 0⟩, none⟩)

/-- The records of the two operations and their JSON texts. -/
def startSamples : List (Operation × Text) :=
  ['a', 'b'].map fun name => (indexingOf name,
    "\x7b\"id\":\"".toList ++ name :: "\",\"operation_type\":".toList ++
    "\x7b\"IndexUpdate\":".toList ++ "\x7b\"folder_path\":\"".toList ++
    name :: "\",\"files_processed\":0,".toList ++ "\"total_files\":1\x7d\x7d,".toList ++
    ["\"started_at\":", "\"last_checkpoint\":"].flatMap (fun field =>
      field.toList ++ "\"2024-01-01T00:00:00Z\",".toList) ++
    "\"status\":\"InProgress\",".toList ++ "\"retry_count\":0,".toList ++
    "\"error_message\":null\x7d".toList)

lemma exists_starting : ∃ manager : RecoveryManager,
    ∀ sample ∈ startSamples, manager.json.toText sample.1 = sample.2 := by
  obtain ⟨codec, hcodec⟩ := LineCodec.exists_of_samples startSamples (by decide +kernel)
    (by decide +kernel) (by decide +kernel)
  exact ⟨⟨codec⟩, hcodec⟩

/-- Two operations are put to work, and then saved one after the other: the log records both. -/
theorem inStep_starting : ∃ manager : RecoveryManager,
    (∀ sample ∈ startSamples, manager.json.toText sample.1 = sample.2) ∧
      ∃ P, Runs.exec (fun P e => P.advance e.1 e.2) (fun P e => Apart startOf P e.1 e.2)
        (inTurn [false, true, false, false, false, true, true, true])
        (manager.tracking startOf unused) = some P ∧
        (∀ t, P.task t = .ret (.ok ())) ∧ manager.NoRepeats P.state.log ∧
          ∀ op, op ∈ manager.records P.state.log ↔ P.state.active.lookup op.id = some op := by
  obtain ⟨manager, htexts⟩ := exists_starting
  have hexec : (Runs.exec (fun P e => P.advance e.1 e.2) (fun P e => Apart startOf P e.1 e.2)
      (inTurn [false, true, false, false, false, true, true, true])
      (manager.tracking startOf unused)).map (fun P => (P.task false, P.task true)) =
      some (.ret (.ok ()), .ret (.ok ())) := rfl
  obtain ⟨P, hP, htasks⟩ := Option.map_eq_some_iff.mp hexec
  obtain ⟨hfalse, htrue⟩ := Prod.mk.inj htasks
  refine ⟨manager, htexts, P, hP, inStep_of_apart startOf manager.inStep_unused
    (Runs.run_of_exec hP) ?_⟩
  intro t
  cases t with
  | false => exact ⟨_, hfalse⟩
  | true => exact ⟨_, htrue⟩

/-- Both tasks read the log before either has written it: **the record of the first is lost**. -/
theorem not_inStep_starting : ∃ manager : RecoveryManager,
    (∀ sample ∈ startSamples, manager.json.toText sample.1 = sample.2) ∧
      ¬ ∀ P, Pool.Run (fun _ _ _ => True) (manager.tracking startOf unused) P →
        (∀ t, ∃ r, P.task t = .ret r) →
        ∀ op, op ∈ manager.records P.state.log ↔ P.state.active.lookup op.id = some op := by
  obtain ⟨manager, htexts⟩ := exists_starting
  refine ⟨manager, htexts, fun h => ?_⟩
  have hexec : (Runs.exec (fun P e => P.advance e.1 e.2) (fun _ _ => True)
      (inTurn [false, true, false, true, false, false, true, true])
      (manager.tracking startOf unused)).map (fun P => (P.task false, P.task true, P.state.log,
        P.state.active.lookup ['a'])) =
      some (.ret (.ok ()), .ret (.ok ()),
        some (manager.savedContent (indexingOf 'b') (existingContent none)).utf8,
        some (indexingOf 'a')) := rfl
  obtain ⟨P, hP, hend⟩ := Option.map_eq_some_iff.mp hexec
  simp only [Prod.mk.injEq] at hend
  obtain ⟨hfalse, htrue, hlog, hactive⟩ := hend
  have hrecorded := (h P (Runs.run_of_exec hP) (fun t => by
    cases t with
    | false => exact ⟨_, hfalse⟩
    | true => exact ⟨_, htrue⟩) (indexingOf 'a')).mpr hactive
  have hrecords : manager.records P.state.log = [indexingOf 'b'] := by
    rw [hlog, records_savedContent]
    rfl
  rw [hrecords, List.mem_singleton] at hrecorded
  exact absurd hrecorded (by decide)

end RecoveryManager

end Landropic
