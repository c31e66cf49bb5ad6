import Mathlib.Data.Char
import Landropic.Foundations.Observers
import Landropic.Quic.TransferCheckpoints

set_option autoImplicit false

/-!
# Checkpoints that fall behind

A transfer is among the active ones before its checkpoint is saved, and a checkpoint is saved after
the lock of the transfers is released. So there are active transfers without a checkpoint, and a
checkpoint may be saved after a later one. The delayed removal of a checkpoint does not look whether
its transfer has been started again.

## Main definitions

* `ManagerCall` — the calls of a manager, and what it does in the background.
* `SaveHistory` — the runs of the transfers, and the checkpoints saved in them.
* `ResumableTransferManager.Tracked` — active transfers have a checkpoint, and what is saved in a
  run never decreases.
* `ResumableTransferManager.Orderly` — the steps that leave the checkpoints right.

## Main results

* `ResumableTransferManager.tracks_code` — what the calls do, step by step.
* `ResumableTransferManager.tracked_of_run` — every run of such steps keeps the checkpoints right.
  -/

namespace Landropic

/-- The calls of a manager, and what it does in the background. -/
inductive ManagerCall
  | start (transferId peerId filePath : Text) (totalSize : UInt64)
  | update (transferId : Text) (bytesTransferred chunkOffset : UInt64)
  | complete (transferId : Text)
  | fail (transferId : Text)
  | pause (transferId : Text)
  | removal (transferId : Text)
  | cleanup

/-- A checkpoint that was saved: of which transfer, in which run of it, and at how many bytes. -/
structure SavedCheckpoint where
  transferId : Text
  run : ℕ
  bytesTransferred : UInt64
  deriving DecidableEq

/-- The runs of the transfers and the checkpoints that were saved, the last one at the end. A run of
a transfer begins when it is put among the active ones. -/
structure SaveHistory where
  run : Text → ℕ
  saved : List SavedCheckpoint

namespace ResumableTransferManager

open Proc

/-- The process of a call. -/
def code : ManagerCall → TransferTask Unit
  | .start transferId peerId filePath totalSize =>
    startTransfer transferId peerId filePath totalSize
  | .update transferId bytesTransferred chunkOffset =>
    updateProgress transferId bytesTransferred chunkOffset
  | .complete transferId => completeTransfer transferId
  | .fail transferId => failTransfer transferId
  | .pause transferId => pauseTransfer transferId
  | .removal transferId => removeLater transferId
  | .cleanup => cleanup

/-- What an action adds to the history. -/
def remember : TransferOp → TransferClock → ResumableTransferManager → SaveHistory → SaveHistory
  | .register transferId _, _, _, past =>
    { past with run := Function.update past.run transferId (past.run transferId + 1) }
  | .saveCheckpoint checkpoint, _, _, past =>
    { past with saved := past.saved ++ [{
        transferId := checkpoint.transferId
        run := past.run checkpoint.transferId
        bytesTransferred := checkpoint.bytesTransferred }] }
  | _, _, _, past => past

/-- A manager with the calls on it, and what has been saved. -/
abbrev TrackedPool (τ : Type) :=
  Pool τ (ResumableTransferManager × SaveHistory) TransferClock TransferOp QuicError Unit

/-- Any number of calls that have not yet taken an action. -/
def calling {τ : Type} (m : ResumableTransferManager) (calls : τ → ManagerCall) : TrackedPool τ :=
  Pool.observe ⟨m, fun t => code (calls t)⟩ remember ⟨fun _ => 0, []⟩

/-- **Checkpoints track transfers**: every active transfer has a checkpoint, and the bytes that are
saved in a run of a transfer never decrease. -/
def Tracked (x : ResumableTransferManager × SaveHistory) : Prop :=
  (∀ transferId ∈ x.1.activeTransfers, transferId ∈ x.1.checkpoints) ∧
    x.2.saved.Pairwise fun a b => a.transferId = b.transferId → a.run = b.run →
      a.bytesTransferred ≤ b.bytesTransferred

/-! ## The steps -/

/-- The transfer that an action puts among the active ones. -/
def registering : TransferOp → Option Text
  | .register transferId _ => some transferId
  | _ => none

/-- The transfer whose checkpoint an action removes. -/
def removing : TransferOp → Option Text
  | .removeCheckpoint transferId => some transferId
  | _ => none

/-- The checkpoint that an action saves. -/
def saving : TransferOp → Option TransferCheckpoint
  | .saveCheckpoint checkpoint => some checkpoint
  | _ => none

/-- The transfer whose progress an action updates, and the bytes. -/
def updating : TransferOp → Option (Text × UInt64)
  | .updateProgress transferId bytesTransferred => some (transferId, bytesTransferred)
  | _ => none

/-- The transfer that an action changes, and the bytes that it has then. -/
def changed (m : ResumableTransferManager) : TransferOp → Option (Text × UInt64)
  | .register transferId bytesTransferred => some (transferId, bytesTransferred)
  | .updateProgress transferId bytesTransferred =>
    (m.activeTransfers.lookup transferId).map fun _ => (transferId, bytesTransferred)
  | .completeTransfer transferId => (m.activeTransfers.lookup transferId).map fun transfer =>
    (transferId, transfer.checkpoint.bytesTransferred)
  | .failTransfer transferId => (m.activeTransfers.lookup transferId).map fun transfer =>
    (transferId, transfer.checkpoint.bytesTransferred)
  | .pauseTransfer transferId => (m.activeTransfers.lookup transferId).map fun transfer =>
    (transferId, transfer.checkpoint.bytesTransferred)
  | _ => none

section Conditions

variable {τ : Type}

/-- The byte counts of a transfer do not decrease. -/
def Forward (P : TrackedPool τ) (t : τ) (_ : TransferClock) : Prop :=
  ∀ update ∈ (P.task t).head.bind updating,
    ∀ transfer ∈ P.state.1.activeTransfers.lookup update.1,
      transfer.checkpoint.bytesTransferred ≤ update.2

/-- The steps that leave the checkpoints right: a transfer is put among the active ones when it has
a checkpoint, the checkpoint that is removed is not that of an active transfer, and no transfer is
changed while a checkpoint of it with other bytes is yet to be saved. -/
def Orderly (P : TrackedPool τ) (t : τ) (_ : TransferClock) : Prop :=
  (∀ transferId ∈ (P.task t).head.bind registering, transferId ∈ P.state.1.checkpoints) ∧
  (∀ transferId ∈ (P.task t).head.bind removing, transferId ∉ P.state.1.activeTransfers) ∧
  ∀ change ∈ (P.task t).head.bind (changed P.state.1), ∀ u,
    ∀ checkpoint ∈ (P.task u).head.bind saving, checkpoint.transferId = change.1 →
      checkpoint.bytesTransferred = change.2

instance (P : TrackedPool τ) (t : τ) (i : TransferClock) : Decidable (Forward P t i) :=
  inferInstanceAs (Decidable (∀ update ∈ (P.task t).head.bind updating, _))

instance [Fintype τ] (P : TrackedPool τ) (t : τ) (i : TransferClock) : Decidable (Orderly P t i) :=
  inferInstanceAs (Decidable (_ ∧ _))

end Conditions

/-! ## What a call does -/

/-- Where a call stands. -/
inductive Place
  | idle
  /-- A start has loaded the checkpoint. -/
  | loaded (transferId : Text) (checkpoint : Option TransferCheckpoint)
  /-- The call has changed a transfer, and is going to save its checkpoint. -/
  | saving (checkpoint : TransferCheckpoint)

/-- The transfer that an action of a call other than a start may change. -/
def changing : TransferOp → Option Text
  | .updateProgress transferId _ => some transferId
  | .completeTransfer transferId => some transferId
  | .failTransfer transferId => some transferId
  | .pauseTransfer transferId => some transferId
  | _ => none

/-- **What a call does**, step by step. -/
inductive Moves : Place → TransferOp → ResumableTransferManager → ResumableTransferManager →
    Place → Prop
  | load {transferId m} : Moves .idle (.loadCheckpoint transferId) m m
    (.loaded transferId (m.checkpoints.lookup transferId))
  | register {transferId loaded checkpoint bytesTransferred m m' transfer} :
    bytesTransferred = checkpoint.bytesTransferred →
    (∀ c, loaded = some c → checkpoint = c) →
    (loaded = none → checkpoint.transferId = transferId) →
    transfer.checkpoint = checkpoint → m' = m.withTransfer transferId transfer →
    Moves (.loaded transferId loaded) (.register transferId bytesTransferred) m m'
      (.saving checkpoint)
  | save {checkpoint m} : Moves (.saving checkpoint) (.saveCheckpoint checkpoint) m
    { m with checkpoints := m.checkpoints.insert checkpoint.transferId checkpoint } .idle
  /-- A transfer is changed, and stays active or not. -/
  | change {op transferId m m' old checkpoint place'} :
    changing op = some transferId → m.activeTransfers.lookup transferId = some old →
    checkpoint.transferId = old.checkpoint.transferId →
    changed m op = some (transferId, checkpoint.bytesTransferred) →
    (∀ other, other ≠ transferId →
      m'.activeTransfers.lookup other = m.activeTransfers.lookup other) →
    (∀ transfer, m'.activeTransfers.lookup transferId = some transfer →
      transfer.checkpoint = checkpoint) →
    m'.checkpoints = m.checkpoints → (place' = .idle ∨ place' = .saving checkpoint) →
    Moves .idle op m m' place'
  /-- The call only looks, or schedules a removal. -/
  | look {op m m'} : registering op = none → saving op = none →
    m'.activeTransfers = m.activeTransfers → m'.checkpoints = m.checkpoints →
    Moves .idle op m m' .idle
  | removeCheckpoint {transferId m m'} : m'.activeTransfers = m.activeTransfers →
    m'.checkpoints = m.checkpoints.erase transferId →
    Moves .idle (.removeCheckpoint transferId) m m' .idle
  | removeInactive {transferIds m} :
    Moves .idle (.removeInactive transferIds) m (m.without transferIds) .idle

/-- Where a call may end. -/
def Ended (_ : Except QuicError Unit) (place : Place) : Prop := ∀ c, place ≠ .saving c

lemma ended_idle {r : Except QuicError Unit} : Ended r .idle := fun _ h => by cases h

section Tracks

variable {α : Type} {op : TransferOp} {transferId : Text}

instance : Nonempty ResumableTransferManager := ⟨default⟩

instance : Nonempty TransferClock := ⟨⟨0, 0, 0, .sorted Text⟩⟩

lemma tracks_saveCheckpoint {checkpoint : TransferCheckpoint}
    {Q : Except QuicError Unit → Place → Prop} (hQ : Q (.ok ()) .idle) :
    Tracks Moves Q (.saving checkpoint) (saveCheckpoint checkpoint) :=
  .atom fun _ _ => ⟨_, .save, hQ⟩

/-- A change of a transfer goes on with the checkpoint that is to be saved, if there is one. -/
lemma tracks_onTransfer {Q : Except QuicError (Option TransferCheckpoint) → Place → Prop}
    {f : TransferClock → ResumableTransferManager → ActiveTransfer →
      Option TransferCheckpoint × ResumableTransferManager}
    (hnone : registering op = none ∧ saving op = none) (hidle : Q (.ok none) .idle)
    (h : ∀ clock m old, m.activeTransfers.lookup transferId = some old →
      ∃ place, Moves .idle op m (f clock m old).2 place ∧ Q (.ok (f clock m old).1) place) :
    Tracks Moves Q .idle (onTransfer op transferId f) := by
  refine .atom fun clock m => ?_
  cases hlookup : m.activeTransfers.lookup transferId with
  | none => exact ⟨_, .look hnone.1 hnone.2 rfl rfl, hidle⟩
  | some old => exact h clock m old hlookup

/-- A change that leaves the transfer active. -/
lemma moves_withTransfer {m : ResumableTransferManager} {old transfer : ActiveTransfer}
    {place : Place} (hop : changing op = some transferId)
    (hlookup : m.activeTransfers.lookup transferId = some old)
    (hid : transfer.checkpoint.transferId = old.checkpoint.transferId)
    (hchanged : changed m op = some (transferId, transfer.checkpoint.bytesTransferred))
    (hplace : place = .idle ∨ place = .saving transfer.checkpoint) :
    Moves .idle op m (m.withTransfer transferId transfer) place := by
  refine .change hop hlookup hid hchanged (fun _ => lookup_withTransfer_of_ne) ?_ rfl hplace
  intro transfer' h
  rw [lookup_withTransfer] at h
  rw [Option.some.inj h]

/-- A change that takes the transfer from the active ones. -/
lemma moves_withoutTransfer {m : ResumableTransferManager} {old : ActiveTransfer}
    (checkpoint : TransferCheckpoint) (hop : changing op = some transferId)
    (hlookup : m.activeTransfers.lookup transferId = some old)
    (hid : checkpoint.transferId = old.checkpoint.transferId)
    (hchanged : changed m op = some (transferId, checkpoint.bytesTransferred)) :
    Moves .idle op m (m.withoutTransfer transferId) (.saving checkpoint) := by
  refine .change hop hlookup hid hchanged (fun _ => lookup_withoutTransfer_of_ne) ?_ rfl (.inr rfl)
  intro transfer' h
  rw [lookup_withoutTransfer] at h
  cases h

lemma tracks_startTransfer {peerId filePath : Text} {totalSize : UInt64} :
    Tracks Moves Ended .idle (startTransfer transferId peerId filePath totalSize) := by
  refine .bind (.atom fun _ m => ⟨_, .load, ?_⟩)
  dsimp only
  split
  · exact fun _ h => by cases h
  · refine .bind (.atom fun clock m' => ⟨.saving _, ?_, tracks_saveCheckpoint ended_idle⟩)
    cases m.checkpoints.lookup transferId with
    | none =>
      refine .register rfl ?_ (fun _ => rfl) rfl rfl
      intro c h
      cases h
    | some c =>
      refine .register rfl (fun _ h => Option.some.inj h) ?_ rfl rfl
      intro h
      cases h

lemma tracks_updateProgress {bytesTransferred chunkOffset : UInt64} :
    Tracks Moves Ended .idle (updateProgress transferId bytesTransferred chunkOffset) := by
  refine .bind (tracks_onTransfer ⟨rfl, rfl⟩ ended_idle fun clock m old h => ?_)
  dsimp only
  split
  · refine ⟨_, moves_withTransfer rfl h rfl ?_ (.inr rfl), tracks_saveCheckpoint ended_idle⟩
    simp [changed, h, ActiveTransfer.stamp, ActiveTransfer.recordProgress]
  · refine ⟨_, moves_withTransfer rfl h rfl ?_ (.inl rfl), ended_idle⟩
    simp [changed, h, ActiveTransfer.recordProgress]

lemma tracks_completeTransfer : Tracks Moves Ended .idle (completeTransfer transferId) := by
  refine .bind (tracks_onTransfer ⟨rfl, rfl⟩ ended_idle fun clock m old h => ?_)
  refine ⟨_, moves_withoutTransfer (old.stamp clock.utc).checkpoint rfl h rfl ?_, ?_⟩
  · simp [changed, h, ActiveTransfer.stamp]
  · refine .bind (tracks_saveCheckpoint ?_)
    exact .atom fun _ _ => ⟨_, .look rfl rfl rfl rfl, ended_idle⟩

lemma tracks_failTransfer : Tracks Moves Ended .idle (failTransfer transferId) := by
  refine .bind (tracks_onTransfer ⟨rfl, rfl⟩ ended_idle fun clock m old h => ?_)
  dsimp only
  split
  · refine ⟨_, moves_withoutTransfer (old.retried.stamp clock.utc).checkpoint rfl h rfl ?_,
      tracks_saveCheckpoint ended_idle⟩
    simp [changed, h, ActiveTransfer.stamp, ActiveTransfer.retried]
  · refine ⟨_, moves_withTransfer rfl h rfl ?_ (.inr rfl), tracks_saveCheckpoint ended_idle⟩
    simp [changed, h, ActiveTransfer.stamp, ActiveTransfer.retried]

lemma tracks_pauseTransfer : Tracks Moves Ended .idle (pauseTransfer transferId) := by
  refine .bind (tracks_onTransfer ⟨rfl, rfl⟩ ended_idle fun clock m old h => ?_)
  refine ⟨_, moves_withTransfer rfl h rfl ?_ (.inr rfl), tracks_saveCheckpoint ended_idle⟩
  simp [changed, h, ActiveTransfer.stamp]

lemma tracks_cleanup : Tracks Moves Ended .idle cleanup := by
  refine .bind (.atom fun clock m => ⟨_, .look rfl rfl rfl rfl, ?_⟩)
  dsimp only
  split
  · exact ended_idle
  · exact .atom fun _ _ => ⟨_, .removeInactive, ended_idle⟩

/-- **What the calls do**, from wherever the manager is. -/
theorem tracks_code (call : ManagerCall) : Tracks Moves Ended .idle (code call) := by
  cases call with
  | start => exact tracks_startTransfer
  | update => exact tracks_updateProgress
  | complete => exact tracks_completeTransfer
  | fail => exact tracks_failTransfer
  | pause => exact tracks_pauseTransfer
  | removal => exact fun _ _ _ => ⟨_, .removeCheckpoint rfl rfl, ended_idle⟩
  | cleanup => exact tracks_cleanup

lemma enabled_saveIfAny {checkpoint : Option TransferCheckpoint} :
    Enabled (saveIfAny checkpoint) := by
  cases checkpoint with
  | none => trivial
  | some c => exact .atom

lemma enabled_code (call : ManagerCall) : Enabled (code call) := by
  cases call with
  | start transferId peerId filePath totalSize =>
    refine .bind .atom fun checkpoint => ?_
    dsimp only
    split
    · trivial
    · exact .bind .atom fun _ => .atom
  | update => exact .bind .atom fun _ => enabled_saveIfAny
  | complete =>
    refine .bind .atom fun checkpoint => ?_
    cases checkpoint with
    | none => trivial
    | some c => exact .bind .atom fun _ => .atom
  | fail => exact .bind .atom fun _ => enabled_saveIfAny
  | pause => exact .bind .atom fun _ => enabled_saveIfAny
  | removal transferId =>
    exact ⟨⟨{ default with removals := [transferId] }, by simp⟩, fun _ _ => trivial⟩
  | cleanup =>
    refine .bind .atom fun toRemove => ?_
    split
    · trivial
    · exact .atom

end Tracks

/-! ## What holds along a run -/

/-- A manager with which no call is under way. -/
structure Settled (m : ResumableTransferManager) : Prop where
  covered : ∀ transferId ∈ m.activeTransfers, transferId ∈ m.checkpoints
  keyed : ∀ {transferId c}, m.checkpoints.lookup transferId = some c → c.transferId = transferId
  own : ∀ {transferId a}, m.activeTransfers.lookup transferId = some a →
    a.checkpoint.transferId = transferId

/-- **The invariant of the calls**: what was saved in the current run of a transfer is behind the
checkpoints that are yet to be saved, which are all alike, and these are behind the transfer. -/
structure Sound {τ : Type} (m : ResumableTransferManager) (past : SaveHistory) (place : τ → Place) :
    Prop extends Settled m where
  loaded : ∀ {t transferId c}, place t = .loaded transferId (some c) → c.transferId = transferId
  alike : ∀ {t u c c'}, place t = .saving c → place u = .saving c' →
    c.transferId = c'.transferId → c.bytesTransferred = c'.bytesTransferred
  behind : ∀ {t c a}, place t = .saving c → m.activeTransfers.lookup c.transferId = some a →
    c.bytesTransferred ≤ a.checkpoint.bytesTransferred
  begun : ∀ b ∈ past.saved, b.run ≤ past.run b.transferId
  forward : past.saved.Pairwise fun b b' => b.transferId = b'.transferId → b.run = b'.run →
    b.bytesTransferred ≤ b'.bytesTransferred
  active : ∀ b ∈ past.saved, b.run = past.run b.transferId → ∀ {a},
    m.activeTransfers.lookup b.transferId = some a →
      b.bytesTransferred ≤ a.checkpoint.bytesTransferred
  pending : ∀ b ∈ past.saved, b.run = past.run b.transferId → ∀ {t c}, place t = .saving c →
    c.transferId = b.transferId → b.bytesTransferred ≤ c.bytesTransferred

section Steps

variable {τ : Type} [DecidableEq τ] {m m' : ResumableTransferManager} {past : SaveHistory}
  {place : τ → Place} {t u : τ} {b : Place} {c : TransferCheckpoint} {transferId : Text}
  {a : ActiveTransfer}

lemma eq_saving (h : Function.update place t b u = .saving c) :
    u = t ∧ b = .saving c ∨ place u = .saving c := by
  by_cases hu : u = t
  · subst hu
    rw [Function.update_self] at h
    exact .inl ⟨rfl, h⟩
  · rw [Function.update_of_ne hu] at h
    exact .inr h

/-- A step that puts nothing among the active transfers and saves nothing. -/
lemma Sound.fewer (h : Sound m past place) (hb : ∀ c, b ≠ .saving c)
    (hloaded : ∀ transferId c, b = .loaded transferId (some c) → c.transferId = transferId)
    (hactive : ∀ {transferId a}, m'.activeTransfers.lookup transferId = some a →
      m.activeTransfers.lookup transferId = some a)
    (hcheckpoints : ∀ {transferId c}, m'.checkpoints.lookup transferId = some c →
      m.checkpoints.lookup transferId = some c)
    (hcovered : ∀ transferId ∈ m'.activeTransfers, transferId ∈ m'.checkpoints) :
    Sound m' past (Function.update place t b) := by
  have hsaving : ∀ {u c}, Function.update place t b u = .saving c → place u = .saving c :=
    fun hu => (eq_saving hu).resolve_left fun hor => hb _ hor.2
  refine ⟨⟨hcovered, fun hc => h.keyed (hcheckpoints hc), fun ha => h.own (hactive ha)⟩,
    fun {u id c} hu => ?_, fun hu hv => h.alike (hsaving hu) (hsaving hv),
    fun hu ha => h.behind (hsaving hu) (hactive ha), h.begun, h.forward,
    fun b hmem hrun _ ha => h.active b hmem hrun (hactive ha),
    fun b hmem hrun _ _ hu => h.pending b hmem hrun (hsaving hu)⟩
  by_cases hut : u = t
  · subst hut
    rw [Function.update_self] at hu
    exact hloaded _ _ hu
  · rw [Function.update_of_ne hut] at hu
    exact h.loaded hu

lemma Sound.save (h : Sound m past place) (hplace : place t = .saving c) (i : TransferClock) :
    Sound { m with checkpoints := m.checkpoints.insert c.transferId c }
      (remember (.saveCheckpoint c) i m past) (Function.update place t .idle) := by
  have hsaving : ∀ {u c}, Function.update place t .idle u = .saving c → place u = .saving c :=
    fun hu => (eq_saving hu).resolve_left fun hor => by cases hor.2
  have hsaved : ∀ {b}, b ∈ (remember (.saveCheckpoint c) i m past).saved → b ∈ past.saved ∨
      b = ⟨c.transferId, past.run c.transferId, c.bytesTransferred⟩ := by
    intro b hb
    simpa [remember] using hb
  refine ⟨⟨fun id hid => ?_, fun {id c'} hc => ?_, h.own⟩, fun {u id c'} hu => ?_,
    fun hu hv => h.alike (hsaving hu) (hsaving hv), fun hu => h.behind (hsaving hu),
    fun b hb => ?_, ?_, fun b hb hrun a ha => ?_, fun b hb hrun u c' hu hid => ?_⟩
  · exact Finmap.mem_insert.mpr (.inr (h.covered id hid))
  · obtain ⟨rfl, rfl⟩ | ⟨-, hc⟩ := HashMap.lookup_insert_cases hc
    · rfl
    · exact h.keyed hc
  · by_cases hut : u = t
    · subst hut
      rw [Function.update_self] at hu
      cases hu
    · rw [Function.update_of_ne hut] at hu
      exact h.loaded hu
  · obtain hb | rfl := hsaved hb
    · exact h.begun b hb
    · exact le_rfl
  · refine List.pairwise_append.mpr ⟨h.forward, List.pairwise_singleton _ _, ?_⟩
    intro b hb b' hb' hid hrun
    obtain rfl := List.mem_singleton.mp hb'
    refine h.pending b hb ?_ hplace hid.symm
    rw [hrun, hid]
  · obtain hb | rfl := hsaved hb
    · exact h.active b hb hrun ha
    · exact h.behind hplace ha
  · obtain hb | rfl := hsaved hb
    · exact h.pending b hb hrun (hsaving hu) hid
    · rw [h.alike hplace (hsaving hu) hid.symm]
      exact UInt64.le_refl _

/-- A transfer is put among the active ones, and a run of it begins. -/
lemma Sound.register {checkpoint : Option TransferCheckpoint} (h : Sound m past place)
    (hplace : place t = .loaded transferId checkpoint)
    (hloaded : ∀ c', checkpoint = some c' → c = c')
    (hfresh : checkpoint = none → c.transferId = transferId) (ha : a.checkpoint = c)
    (hcheckpoint : transferId ∈ m.checkpoints)
    (hpending : ∀ u c', place u = .saving c' → c'.transferId = transferId →
      c'.bytesTransferred = c.bytesTransferred) (i : TransferClock) :
    Sound (m.withTransfer transferId a)
      (remember (.register transferId c.bytesTransferred) i m past)
      (Function.update place t (.saving c)) := by
  have hid : c.transferId = transferId := by
    cases checkpoint with
    | none => exact hfresh rfl
    | some c' =>
      rw [hloaded c' rfl]
      exact h.loaded hplace
  subst hid
  have hrun : ∀ b ∈ past.saved, b.run = Function.update past.run c.transferId
      (past.run c.transferId + 1) b.transferId →
        b.transferId ≠ c.transferId ∧ b.run = past.run b.transferId := by
    intro b hb hrun
    by_cases hid : b.transferId = c.transferId
    · have hle := h.begun b hb
      rw [hid, Function.update_self] at hrun
      rw [hid] at hle
      omega
    · rw [Function.update_of_ne hid] at hrun
      exact ⟨hid, hrun⟩
  refine ⟨⟨fun id hid => ?_, h.keyed, fun {id a'} ha' => ?_⟩, fun {u id c'} hu => ?_,
    fun {u v c₁ c₂} hu hv hids => ?_, fun {u c' a'} hu ha' => ?_, fun b hb => ?_, h.forward,
    fun b hb hbrun a' ha' => ?_, fun b hb hbrun u c' hu hid => ?_⟩
  · obtain rfl | hid := Finmap.mem_insert.mp hid
    · exact hcheckpoint
    · exact h.covered id hid
  · by_cases hid : id = c.transferId
    · subst hid
      rw [lookup_withTransfer] at ha'
      rw [← Option.some.inj ha', ha]
    · rw [lookup_withTransfer_of_ne hid] at ha'
      exact h.own ha'
  · by_cases hut : u = t
    · subst hut
      rw [Function.update_self] at hu
      cases hu
    · rw [Function.update_of_ne hut] at hu
      exact h.loaded hu
  · obtain ⟨-, hc⟩ | hu' := eq_saving hu
    · obtain rfl := Place.saving.inj hc
      obtain ⟨-, hc'⟩ | hv' := eq_saving hv
      · rw [Place.saving.inj hc']
      · exact (hpending v c₂ hv' hids.symm).symm
    · obtain ⟨-, hc'⟩ | hv' := eq_saving hv
      · obtain rfl := Place.saving.inj hc'
        exact hpending u c₁ hu' hids
      · exact h.alike hu' hv' hids
  · by_cases hid : c'.transferId = c.transferId
    · rw [hid, lookup_withTransfer] at ha'
      rw [← Option.some.inj ha', ha]
      obtain ⟨-, hc⟩ | hu := eq_saving hu
      · rw [Place.saving.inj hc]
        exact UInt64.le_refl _
      · rw [hpending u c' hu hid]
        exact UInt64.le_refl _
    · rw [lookup_withTransfer_of_ne hid] at ha'
      obtain ⟨-, hc⟩ | hu := eq_saving hu
      · exact absurd (congrArg TransferCheckpoint.transferId (Place.saving.inj hc)).symm hid
      · exact h.behind hu ha'
  · have hle := h.begun b hb
    show b.run ≤ Function.update past.run c.transferId (past.run c.transferId + 1) b.transferId
    by_cases hid : b.transferId = c.transferId
    · rw [hid, Function.update_self]
      rw [hid] at hle
      omega
    · rwa [Function.update_of_ne hid]
  · obtain ⟨hid, hbrun⟩ := hrun b hb hbrun
    rw [lookup_withTransfer_of_ne hid] at ha'
    exact h.active b hb hbrun ha'
  · obtain ⟨hne, hbrun⟩ := hrun b hb hbrun
    obtain ⟨-, hc⟩ | hu := eq_saving hu
    · rw [Place.saving.inj hc] at hne
      exact absurd hid.symm hne
    · exact h.pending b hb hbrun hu hid

/-- An active transfer is changed, and its bytes do not decrease. -/
lemma Sound.change {old : ActiveTransfer} (h : Sound m past place)
    (hold : m.activeTransfers.lookup transferId = some old)
    (hid : c.transferId = old.checkpoint.transferId)
    (hothers : ∀ other, other ≠ transferId →
      m'.activeTransfers.lookup other = m.activeTransfers.lookup other)
    (hnew : ∀ a, m'.activeTransfers.lookup transferId = some a → a.checkpoint = c)
    (hcheckpoints : m'.checkpoints = m.checkpoints) (hb : b = .idle ∨ b = .saving c)
    (hforward : old.checkpoint.bytesTransferred ≤ c.bytesTransferred)
    (hpending : ∀ u c', place u = .saving c' → c'.transferId = transferId →
      c'.bytesTransferred = c.bytesTransferred) :
    Sound m' past (Function.update place t b) := by
  have hown : c.transferId = transferId := hid.trans (h.own hold)
  have hsaving : ∀ {u c'}, Function.update place t b u = .saving c' →
      c' = c ∨ place u = .saving c' := by
    intro u c' hu
    obtain ⟨-, hb'⟩ | hu := eq_saving hu
    · obtain rfl | rfl := hb
      · cases hb'
      · exact .inl (Place.saving.inj hb').symm
    · exact .inr hu
  have hactive : ∀ {id a}, m'.activeTransfers.lookup id = some a →
      id = transferId ∧ a.checkpoint = c ∨ id ≠ transferId ∧
        m.activeTransfers.lookup id = some a := by
    intro id a ha
    by_cases hne : id = transferId
    · subst hne
      exact .inl ⟨rfl, hnew a ha⟩
    · exact .inr ⟨hne, hothers id hne ▸ ha⟩
  refine ⟨⟨fun id hmem => ?_, fun hc => h.keyed (hcheckpoints ▸ hc), fun {id a} ha => ?_⟩,
    fun {u id c'} hu => ?_, fun {u v c₁ c₂} hu hv hids => ?_, fun {u c' a} hu ha => ?_, h.begun,
    h.forward, fun b hmem hrun a ha => ?_, fun b hmem hrun u c' hu hids => ?_⟩
  · obtain ⟨a, ha⟩ := Finmap.mem_iff.mp hmem
    rw [hcheckpoints]
    obtain ⟨rfl, -⟩ | ⟨-, ha⟩ := hactive ha
    · exact h.covered id (Finmap.mem_of_lookup_eq_some hold)
    · exact h.covered id (Finmap.mem_of_lookup_eq_some ha)
  · obtain ⟨rfl, hac⟩ | ⟨-, ha⟩ := hactive ha
    · rw [hac, hown]
    · exact h.own ha
  · by_cases hut : u = t
    · subst hut
      rw [Function.update_self] at hu
      obtain rfl | rfl := hb
      · cases hu
      · cases hu
    · rw [Function.update_of_ne hut] at hu
      exact h.loaded hu
  · obtain rfl | hu := hsaving hu
    · obtain rfl | hv := hsaving hv
      · rfl
      · exact (hpending v c₂ hv (hids.symm.trans hown)).symm
    · obtain rfl | hv := hsaving hv
      · exact hpending u c₁ hu (hids.trans hown)
      · exact h.alike hu hv hids
  · obtain ⟨hids, hac⟩ | ⟨hne, ha⟩ := hactive ha
    · rw [hac]
      obtain rfl | hu := hsaving hu
      · exact UInt64.le_refl _
      · rw [hpending u c' hu hids]
        exact UInt64.le_refl _
    · obtain rfl | hu := hsaving hu
      · exact absurd hown hne
      · exact h.behind hu ha
  · obtain ⟨hids, hac⟩ | ⟨-, ha⟩ := hactive ha
    · rw [hac]
      exact UInt64.le_trans (h.active b hmem hrun (hids ▸ hold)) hforward
    · exact h.active b hmem hrun ha
  · obtain rfl | hu := hsaving hu
    · exact UInt64.le_trans (h.active b hmem hrun (hids.symm.trans hown ▸ hold)) hforward
    · exact h.pending b hmem hrun hu hids

variable {op : TransferOp}

omit [DecidableEq τ] in
lemma remember_eq_self {i : TransferClock} (hregister : registering op = none)
    (hsave : saving op = none) : remember op i m past = past := by
  cases op with
  | register => cases hregister
  | saveCheckpoint => cases hsave
  | _ => rfl

omit [DecidableEq τ] in
lemma quiet_of_changing (h : changing op = some transferId) :
    registering op = none ∧ saving op = none := by
  cases op with
  | register => cases h
  | saveCheckpoint => cases h
  | _ => exact ⟨rfl, rfl⟩

omit [DecidableEq τ] in
/-- The bytes of a transfer only change when its progress is updated. -/
lemma bytes_le_of_changed {bytes : UInt64} (hop : changing op = some transferId)
    (ha : m.activeTransfers.lookup transferId = some a)
    (hchanged : changed m op = some (transferId, bytes))
    (hupdate : ∀ update ∈ updating op, ∀ transfer ∈ m.activeTransfers.lookup update.1,
      transfer.checkpoint.bytesTransferred ≤ update.2) : a.checkpoint.bytesTransferred ≤ bytes := by
  have hsame : (some a).map (fun transfer => (transferId, transfer.checkpoint.bytesTransferred)) =
      some (transferId, bytes) → a.checkpoint.bytesTransferred ≤ bytes := by
    intro heq
    obtain ⟨-, rfl⟩ := Prod.mk.inj (Option.some.inj heq)
    exact UInt64.le_refl _
  cases op with
  | updateProgress id bytes' =>
    obtain rfl := Option.some.inj hop
    simp only [changed, ha, Option.map_some, Option.some.injEq, Prod.mk.injEq, true_and] at hchanged
    subst hchanged
    exact hupdate _ rfl a ha
  | completeTransfer id =>
    obtain rfl := Option.some.inj hop
    exact hsame (ha ▸ hchanged)
  | failTransfer id =>
    obtain rfl := Option.some.inj hop
    exact hsame (ha ▸ hchanged)
  | pauseTransfer id =>
    obtain rfl := Option.some.inj hop
    exact hsame (ha ▸ hchanged)
  | _ => cases hop

/-- **An orderly step keeps the invariant.** -/
theorem Sound.step (h : Sound m past place) (hmove : Moves (place t) op m m' b)
    (hregister : ∀ id ∈ registering op, id ∈ m.checkpoints)
    (hremove : ∀ id ∈ removing op, id ∉ m.activeTransfers)
    (hupdate : ∀ update ∈ updating op, ∀ transfer ∈ m.activeTransfers.lookup update.1,
      transfer.checkpoint.bytesTransferred ≤ update.2)
    (halone : ∀ change ∈ changed m op, ∀ u c, place u = .saving c → c.transferId = change.1 →
      c.bytesTransferred = change.2) (i : TransferClock) :
    Sound m' (remember op i m past) (Function.update place t b) := by
  generalize hplace : place t = b₀ at hmove
  cases hmove with
  | load =>
    refine h.fewer (fun _ hc => by cases hc) (fun id c hc => ?_) id id h.covered
    obtain ⟨rfl, hlookup⟩ := Place.loaded.inj hc
    exact h.keyed hlookup
  | register hbytes hloaded hfresh ha hm' =>
    subst hbytes hm'
    exact h.register hplace hloaded hfresh ha (hregister _ rfl) (halone _ rfl) i
  | save => exact h.save hplace i
  | change hop hold hid hchanged hothers hnew hcheckpoints hb =>
    obtain ⟨hr, hs⟩ := quiet_of_changing hop
    rw [remember_eq_self hr hs]
    exact h.change hold hid hothers hnew hcheckpoints hb
      (bytes_le_of_changed hop hold hchanged hupdate) (halone _ hchanged)
  | look hr hs hactive hcheckpoints =>
    rw [remember_eq_self hr hs]
    refine h.fewer (fun _ hc => by cases hc) (fun _ _ hc => by cases hc)
      (fun ha => hactive ▸ ha) (fun hc => hcheckpoints ▸ hc) fun id hid => ?_
    rw [hcheckpoints]
    exact h.covered id (hactive ▸ hid)
  | @removeCheckpoint transferId _ _ hactive hcheckpoints =>
    refine h.fewer (fun _ hc => by cases hc) (fun _ _ hc => by cases hc)
      (fun ha => hactive ▸ ha) (fun {id c} hc => ?_) fun id hid => ?_
    · by_cases hne : id = transferId
      · subst hne
        rw [hcheckpoints, Finmap.lookup_erase] at hc
        cases hc
      · rwa [hcheckpoints, Finmap.lookup_erase_ne hne] at hc
    · rw [hactive] at hid
      have hne : id ≠ transferId := fun heq => hremove _ rfl (heq ▸ hid)
      rw [hcheckpoints]
      exact Finmap.mem_erase.mpr ⟨hne, h.covered id hid⟩
  | @removeInactive transferIds _ =>
    have hactive : ∀ {id a}, (m.without transferIds).activeTransfers.lookup id = some a →
        m.activeTransfers.lookup id = some a := by
      intro id a ha
      rw [lookup_without] at ha
      split at ha
      · cases ha
      · exact ha
    refine h.fewer (fun _ hc => by cases hc) (fun _ _ hc => by cases hc) hactive
      (fun hc => checkpoints_without (m := m) ▸ hc) fun id hid => ?_
    obtain ⟨a, ha⟩ := Finmap.mem_iff.mp hid
    rw [checkpoints_without]
    exact h.covered id (Finmap.mem_of_lookup_eq_some (hactive ha))

omit [DecidableEq τ] in
lemma head_of_saving {task : TransferTask Unit} (h : Tracks Moves Ended (.saving c) task)
    (htask : Enabled task) : task.head = some (.saveCheckpoint c) := by
  cases hhead : task.head with
  | none =>
    cases task with
    | ret r => exact absurd rfl (h c)
    | act op ready eff next => cases hhead
  | some op =>
    obtain ⟨m, m', b, hmove⟩ := h.of_head htask hhead
    generalize hplace : Place.saving c = b₀ at hmove
    cases hmove with
    | save =>
      obtain rfl := Place.saving.inj hplace
      rfl
    | _ => cases hplace

/-- **Orderly runs keep the checkpoints right.** In every run of any number of calls, whose actions
come in any order, every active transfer has a checkpoint and the saved bytes never decrease, if
every transfer that is put among the active ones has a checkpoint, no checkpoint of an active
transfer is removed, and no transfer is changed while a checkpoint of it is yet to be saved.

**Proof sketch.** The invariant orders, for each transfer, what was saved in its current run, what
is yet to be saved, and the transfer itself. -/
theorem tracked_of_run {calls : τ → ManagerCall} {P : TrackedPool τ} (hm : Settled m)
    (hrun : Pool.Run (fun P t i => Forward P t i ∧ Orderly P t i) (calling m calls) P) :
    Tracked P.state := by
  have hinv : ∃ Q past place, P = Pool.observe Q remember past ∧ Sound Q.state past place ∧
      ∀ t, Tracks Moves Ended (place t) (Q.task t) ∧ Enabled (Q.task t) := by
    refine Pool.Run.invariant (I := fun P : TrackedPool τ => ∃ Q past place,
      P = Pool.observe Q remember past ∧ Sound Q.state past place ∧
        ∀ t, Tracks Moves Ended (place t) (Q.task t) ∧ Enabled (Q.task t)) hrun
      ⟨_, _, fun _ => .idle, rfl, ?_, fun t => ⟨tracks_code (calls t), enabled_code (calls t)⟩⟩ ?_
    · exact {
        toSettled := hm
        loaded := fun h => by cases h
        alike := fun h => by cases h
        behind := fun h => by cases h
        begun := fun _ h => by cases h
        forward := List.Pairwise.nil
        active := fun _ h => by cases h
        pending := fun _ h => by cases h }
    · rintro _ R t i ⟨Q, past, place, rfl, h, htasks⟩ ⟨hforward, hregister, hremove, halone⟩ hstep
      obtain ⟨op, Q', hhead, hpool, rfl⟩ := Pool.step_observe hstep
      have hobserved : ∀ u, ((Q.observe remember past).task u).head = (Q.task u).head :=
        fun u => head_observe
      obtain ⟨op', b, hhead', hmove, htracks⟩ := (htasks t).1.step hpool.proc
      obtain rfl := Option.some.inj (hhead.symm.trans hhead')
      rw [Forward, hobserved, hhead] at hforward
      rw [hobserved, hhead] at hregister hremove halone
      refine ⟨Q', _, Function.update place t b, rfl, h.step hmove hregister hremove hforward ?_ i,
        fun u => ?_⟩
      · intro change hchange u c hu
        refine halone change hchange u c ?_
        rw [hobserved, head_of_saving (hu ▸ (htasks u).1) (htasks u).2]
        exact rfl
      · by_cases hu : u = t
        · subst hu
          rw [Function.update_self]
          exact ⟨htracks, (htasks u).2.step hpool.proc⟩
        · rw [Function.update_of_ne hu, hpool.task_of_ne hu]
          exact htasks u
  obtain ⟨Q, past, place, rfl, h, -⟩ := hinv
  exact ⟨h.covered, h.forward⟩

end Steps

/-! ## Two updates -/

/-- The clocks so many seconds after the start. -/
def secondsLater (n : ℕ) : TransferClock :=
  ⟨n * nanosPerSec, n * nanosPerSec, n * nanosPerSec, .sorted Text⟩

/-- A transfer of 100 bytes that starts, and two updates of its progress. -/
def twoUpdates (t : Fin 3) : ManagerCall :=
  match t with
  | 0 => .start ['a'] ['p'] ['f'] 100
  | 1 => .update ['a'] 10 1
  | 2 => .update ['a'] 20 2

/-- A manager with a transfer that has started. -/
def oneStarted : ResumableTransferManager :=
  let checkpoint : TransferCheckpoint := ⟨['a'], ['p'], ['f'], 100, 0, 0, 0, 0⟩
  { default.withTransfer ['a'] (.ofCheckpoint (secondsLater 0) checkpoint) with
    checkpoints := Finmap.singleton ['a'] checkpoint }

/-- Two updates that save their checkpoints one after the other. -/
theorem tracked_of_run_oneStarted : ∃ P : TrackedPool (Fin 3),
    Pool.Run (fun P t i => Forward P t i ∧ Orderly P t i) (calling oneStarted twoUpdates) P ∧
      P.state.2.saved = [⟨['a'], 0, 10⟩, ⟨['a'], 0, 20⟩] ∧ Tracked P.state := by
  have hexec : (Pool.exec (fun P t i => Forward P t i ∧ Orderly P t i)
      [(1, secondsLater 10), (1, secondsLater 10), (2, secondsLater 20), (2, secondsLater 20)]
      (calling oneStarted twoUpdates)).map (fun P => P.state.2.saved) =
        some [⟨['a'], 0, 10⟩, ⟨['a'], 0, 20⟩] := by
    decide +kernel
  obtain ⟨P, hP, hsaved⟩ := Option.map_eq_some_iff.mp hexec
  have hrun := Pool.run_of_exec hP
  refine ⟨P, hrun, hsaved, tracked_of_run ⟨fun id hid => ?_, fun {id c} hc => ?_,
    fun {id a} ha => ?_⟩ hrun⟩
  · obtain rfl | hid := Finmap.mem_insert.mp hid
    · exact (Finmap.mem_singleton _ _ _).mpr rfl
    · exact absurd hid Finmap.notMem_empty
  · by_cases hid : id = ['a']
    · subst hid
      rw [oneStarted, Finmap.lookup_singleton_eq] at hc
      rw [← Option.some.inj hc]
    · have hmem : id ∈ Finmap.singleton ['a'] _ := Finmap.mem_of_lookup_eq_some hc
      exact absurd ((Finmap.mem_singleton _ _ _).mp hmem) hid
  · by_cases hid : id = ['a']
    · subst hid
      have ha' := lookup_withTransfer.symm.trans ha
      rw [← Option.some.inj ha']
      rfl
    · have ha' := (lookup_withTransfer_of_ne hid).symm.trans ha
      simp [default, new] at ha'

/-- **A checkpoint falls behind.** The first of two updates saves its checkpoint after the second.
-/
theorem not_tracked_twoUpdates : ¬ ∀ P : TrackedPool (Fin 3),
    Pool.Run Forward (calling default twoUpdates) P → Tracked P.state := by
  have hexec : (Pool.exec Forward
      [(0, secondsLater 0), (0, secondsLater 0), (0, secondsLater 0), (1, secondsLater 10),
        (2, secondsLater 20), (2, secondsLater 20), (1, secondsLater 20)]
      (calling default twoUpdates)).map (fun P => P.state.2.saved) =
        some [⟨['a'], 1, 0⟩, ⟨['a'], 1, 20⟩, ⟨['a'], 1, 10⟩] := by
    decide +kernel
  intro h
  obtain ⟨P, hP, hsaved⟩ := Option.map_eq_some_iff.mp hexec
  obtain ⟨-, hforward⟩ := h P (Pool.run_of_exec hP)
  rw [hsaved] at hforward
  revert hforward
  decide

end ResumableTransferManager

end Landropic
