import Landropic.Quic.TransferRuns

set_option autoImplicit false

/-!
# Cancelled transfers

A transfer that is cancelled loses its session and is marked as failed in the manager, which keeps
it until it has failed too often. A transfer that is kept is made active again by the next attempt
to resume it, before the session is found to be missing.

## Main definitions

* `QuicTransferEngine.Cancelled` — a transfer stays cancelled so far.
* `QuicTransferEngine.CancelIsFinal` — it does in every run of later calls.

## Main results

* `QuicTransferEngine.cancelIsFinal_iff` — the cancellation is final exactly when the manager does
  not keep the transfer.
-/

namespace Landropic

namespace QuicTransferEngine

open Proc

variable (isAlphanumeric : Char → Bool) (blake3 : Bytes → ContentHash)

/-- **A transfer stays cancelled so far**: it is not active, a call that resumes it changes nothing,
and those that have returned have failed. -/
structure Cancelled {κ : Type} [DecidableEq κ] (calls : List EngineCall) (transferId : Text)
    (P : EnginePool κ) : Prop where
  inactive : ∀ transfer ∈ P.state.resumableManager.activeTransfers.lookup transferId,
    transfer.status ≠ .active
  unchanged : ∀ {op}, (P.task none).head = some (.call (.resume transferId) op) →
    ∀ {i P'}, Pool.Step P none i P' → P'.state = P.state
  failed : ∀ {outcomes : List (Except QuicError Unit)}, P.task none = .ret (.ok outcomes) →
    ∀ n : ℕ, calls[n]? = some (EngineCall.resume transferId) →
      ∃ err, outcomes[n]? = some (Except.error err)

/-- The calls that come after a transfer has been cancelled. -/
inductive Later (transferId : Text) : EngineCall → Prop
  | resume : Later transferId (.resume transferId)
  | pause : Later transferId (.pause transferId)
  | progress : Later transferId (.progress transferId)

/-- **Cancel is final**: whatever calls come later, and whatever the manager does in the background
meanwhile. -/
def CancelIsFinal (e : QuicTransferEngine) (transferId : Text) : Prop :=
  ∀ (κ : Type) [DecidableEq κ] (calls : List EngineCall) (background : κ → Background)
    (P : EnginePool κ), (∀ call ∈ calls, Later transferId call) →
      Pool.Run (fun _ _ _ => True) (engaged isAlphanumeric blake3 e calls background) P →
        Cancelled calls transferId P

/-! ## A transfer that is gone -/

/-- Nothing is left of a transfer but its checkpoint. -/
structure Gone (transferId : Text) (e : QuicTransferEngine) : Prop where
  session : e.activeTransfers.lookup transferId = none
  active : e.resumableManager.activeTransfers.lookup transferId = none

/-- The specification of the later calls: the background does not bring a transfer back, and they
change nothing. -/
def goneSpec (transferId : Text) : Spec QuicTransferEngine EngineInput EngineLabel where
  env _ e e' := Gone transferId e → Gone transferId e'
  env_refl _ _ := id
  env_trans h h' := h' ∘ h
  input _ _ _ := True
  guar _ e e' := e' = e
  progress := False

/-- What the background does to a transfer that is gone. -/
def goneBackgroundSpec (transferId : Text) :
    Spec QuicTransferEngine EngineInput EngineLabel where
  env _ _ _ := True
  env_refl _ _ := trivial
  env_trans _ _ := trivial
  input _ _ _ := True
  guar _ e e' := Gone transferId e → Gone transferId e'
  progress := False

/-- The outline of a later call. -/
abbrev GoneOutline {α : Type} (call : EngineCall) (transferId : Text)
    (Q : Except QuicError α → QuicTransferEngine → Prop) (t : EngineTask α)
    (e : QuicTransferEngine) : Prop :=
  Outline ((goneSpec transferId).relabel (.call call)) (fun _ => Gone transferId) Q t e

section Gone

variable {isAlphanumeric blake3} {α : Type} {call : EngineCall} {op : EngineOp} {transferId : Text}
  {e : QuicTransferEngine}

/-- An action that does nothing to an engine without the transfer. -/
lemma look_gone
    {f : EngineInput → QuicTransferEngine → Except QuicError α × QuicTransferEngine}
    {Q : Except QuicError α → QuicTransferEngine → Prop} (he : Gone transferId e)
    (hf : ∀ i e, Gone transferId e → (f i e).2 = e ∧ Q (f i e).1 e) :
    GoneOutline call transferId Q (atom op f) e := by
  refine Outline.atom fun e' henv => ⟨henv he, fun i _ => ?_⟩
  obtain ⟨heq, hQ⟩ := hf i e' (henv he)
  exact ⟨heq, heq.symm ▸ hQ⟩

/-- The manager changes nothing of a transfer that it does not have. -/
lemma onTransfer_gone {op : TransferOp}
    {f : TransferClock → ResumableTransferManager → ActiveTransfer →
      Option TransferCheckpoint × ResumableTransferManager} (he : Gone transferId e) :
    GoneOutline call transferId (fun r e => r = .ok none ∧ Gone transferId e)
      (onManager (ResumableTransferManager.onTransfer op transferId f)) e := by
  unfold onManager ResumableTransferManager.onTransfer
  rw [zoom_atom]
  refine look_gone he fun i e he => ?_
  dsimp only
  rw [he.active]
  exact ⟨rfl, rfl, he⟩

lemma getTransferStatus_gone (he : Gone transferId e) :
    GoneOutline call transferId (fun r e => r = .ok none ∧ Gone transferId e)
      (onManager (ResumableTransferManager.getTransferStatus transferId)) e := by
  unfold onManager ResumableTransferManager.getTransferStatus
  rw [zoom_atom]
  refine look_gone he fun i e he => ⟨rfl, ?_, he⟩
  rw [he.active]
  rfl

/-- **A later call changes nothing**, and a transfer that is gone is not resumed. -/
theorem enter_gone (hcall : Later transferId call) (he : Gone transferId e) :
    GoneOutline call transferId (fun r e => Gone transferId e ∧
      (call = .resume transferId → ∃ err, r = .error err))
      (enter isAlphanumeric blake3 call) e := by
  refine Outline.bind (look_gone he fun _ e he => ⟨rfl, ?_⟩)
  cases hcall with
  | resume =>
    refine Outline.bind ((getTransferStatus_gone he).mono fun r e h => ?_)
    obtain ⟨rfl, he⟩ := h
    exact ⟨he, fun _ => ⟨_, rfl⟩⟩
  | pause =>
    refine Outline.bind (look_gone he fun _ e he => ⟨?_, ?_⟩)
    · unfold onSession
      rw [he.session]
    · dsimp only
      unfold ResumableTransferManager.pauseTransfer
      rw [onManager_bind]
      refine Outline.bind ((onTransfer_gone he).mono fun r e h => ?_)
      obtain ⟨rfl, he⟩ := h
      exact ⟨he, nofun⟩
  | progress =>
    refine Outline.bind (Outline.bind ((getTransferStatus_gone he).mono fun r e h => ?_))
    obtain ⟨rfl, he⟩ := h
    exact ⟨he, nofun⟩

/-- **The later calls, one after the other.** -/
theorem outline_serve_gone {calls : List EngineCall}
    (hcalls : ∀ call ∈ calls, Later transferId call) (he : Gone transferId e) :
    Outline (goneSpec transferId) (fun _ => Gone transferId) (fun r e => Gone transferId e ∧
      ∀ outcomes, r = .ok outcomes → ∀ n : ℕ, calls[n]? = some (EngineCall.resume transferId) →
        ∃ err, outcomes[n]? = some (Except.error err)) (serve isAlphanumeric blake3 calls) e := by
  induction calls generalizing e with
  | nil => exact ⟨he, fun _ _ n hn => by cases hn⟩
  | cons call rest ih =>
    refine .bind (.attempt (.relabel ((enter_gone (hcalls call List.mem_cons_self) he).mono
      fun r e he => ?_)))
    refine .bind ((ih (fun c hc => hcalls c (List.mem_cons_of_mem _ hc)) he.1).mono
      fun outcomes e' he' => ?_)
    cases outcomes with
    | error err => exact ⟨he'.1, fun _ h => by cases h⟩
    | ok outcomes =>
      refine ⟨he'.1, fun all hall n hn => ?_⟩
      obtain rfl := Except.ok.inj hall
      cases n with
      | zero =>
        obtain ⟨err, herr⟩ := he.2 (Option.some.inj hn)
        exact ⟨err, congrArg some herr⟩
      | succ n => exact he'.2 outcomes rfl n hn

/-- **The background does not bring a transfer back.** -/
theorem outline_attend_gone (b : Background) :
    Outline (goneBackgroundSpec transferId) (fun _ _ => True) (fun _ _ => True) (attend b) e := by
  cases b with
  | cleanup =>
    unfold attend ResumableTransferManager.cleanup
    dsimp only
    rw [zoom_bind, zoom_atom]
    refine .bind (.bind (.atom fun e' _ => ⟨trivial, fun i _ => ⟨id, ?_⟩⟩))
    dsimp only
    split
    · exact trivial
    · rw [zoom_atom]
      refine .atom fun e'' _ => ⟨trivial, fun _ _ => ⟨fun he => ⟨he.session, ?_⟩, trivial⟩⟩
      show (ResumableTransferManager.without _ _).activeTransfers.lookup transferId = none
      rw [ResumableTransferManager.lookup_without]
      split
      · rfl
      · exact he.active
  | removal transferId =>
    unfold attend ResumableTransferManager.removeLater
    exact .bind fun e' _ => ⟨trivial, fun _ _ _ => ⟨fun he => ⟨he.session, he.active⟩, trivial⟩⟩

/-- The specification of each task. -/
def goneTaskSpec {κ : Type} (transferId : Text) :
    Option κ → Spec QuicTransferEngine EngineInput EngineLabel
  | none => goneSpec transferId
  | some _ => goneBackgroundSpec transferId

/-- What holds before each action of a task. -/
def goneAssertion {κ : Type} (transferId : Text) :
    Option κ → EngineLabel → QuicTransferEngine → Prop
  | none => fun _ => Gone transferId
  | some _ => fun _ _ => True

/-- What holds when a task has ended. -/
def gonePost {κ : Type} (calls : List EngineCall) (transferId : Text) :
    Option κ → Except QuicError (List (Except QuicError Unit)) → QuicTransferEngine → Prop
  | none => fun r e => Gone transferId e ∧
      ∀ outcomes, r = .ok outcomes → ∀ n : ℕ, calls[n]? = some (EngineCall.resume transferId) →
        ∃ err, outcomes[n]? = some (Except.error err)
  | some _ => fun _ _ => True

/-- **A transfer that is gone stays cancelled.** -/
theorem cancelIsFinal_of_gone (he : Gone transferId e) :
    CancelIsFinal isAlphanumeric blake3 e transferId := by
  intro κ _ calls background P hcalls hrun
  have houtline : ∀ u, Outline (goneTaskSpec transferId u) (goneAssertion transferId u)
      (gonePost calls transferId u) (P.task u) P.state := by
    refine hrun.invariant (I := fun P => ∀ u, Outline (goneTaskSpec transferId u)
      (goneAssertion transferId u) (gonePost calls transferId u) (P.task u) P.state) (fun u => ?_)
        fun {P P' t i} hI _ hstep => Pool.outline_step hI hstep (fun l hl => ?_)
          (fun u hne l hl hguar => ?_) fun u r e e' henv hpost => ?_
    · cases u with
      | none => exact outline_serve_gone hcalls he
      | some k => exact outline_attend_gone _
    · cases t with
      | none => exact trivial
      | some k => exact trivial
    · cases u with
      | some k => exact trivial
      | none =>
        cases t with
        | none => exact absurd rfl hne
        | some k => exact hguar
    · cases u with
      | some k => exact trivial
      | none => exact ⟨henv hpost.1, hpost.2⟩
  have hengine := houtline none
  have hgone : Gone transferId P.state := by
    cases htask : P.task none with
    | ret r =>
      rw [htask] at hengine
      exact And.left hengine
    | act label ready eff next => exact hengine.holds (by rw [htask]; rfl)
  refine ⟨fun transfer ht => ?_, fun {_} _ {i P'} hstep => ?_, fun {outcomes} htask n hn => ?_⟩
  · rw [hgone.active] at ht
    cases ht
  · obtain ⟨⟨l, -, hguar⟩, -⟩ := hengine.step hstep.proc fun _ _ => trivial
    exact hguar
  · rw [htask] at hengine
    exact And.right hengine outcomes rfl n hn

/-! ## A transfer that is kept -/

/-- The manager still has a transfer whose session is forgotten. -/
structure Kept (transferId : Text) (e : QuicTransferEngine) : Prop where
  session : e.activeTransfers.lookup transferId = none
  active : ∃ transfer, e.resumableManager.activeTransfers.lookup transferId = some transfer ∧
    transfer.status = .failed

/-- The manager changes a transfer, and nobody else acts meanwhile. -/
lemma wp_onTransfer_alone {op : TransferOp}
    {f : TransferClock → ResumableTransferManager → ActiveTransfer →
      Option TransferCheckpoint × ResumableTransferManager}
    {Q : Except QuicError (Option TransferCheckpoint) → QuicTransferEngine → Prop}
    (hnone : e.resumableManager.activeTransfers.lookup transferId = none → Q (.ok none) e)
    (hsome : ∀ clock transfer,
      e.resumableManager.activeTransfers.lookup transferId = some transfer →
        Q (.ok (f clock e.resumableManager transfer).1)
          (e.withManager (f clock e.resumableManager transfer).2)) :
    wp (.alone EngineOp fun _ => True) Q
      (onManager (ResumableTransferManager.onTransfer op transferId f)) e := by
  unfold onManager ResumableTransferManager.onTransfer
  rw [zoom_atom]
  refine wp_atom fun e' henv i _ => ⟨trivial, ?_⟩
  obtain rfl : e = e' := henv
  cases hactive : e.resumableManager.activeTransfers.lookup transferId with
  | none => exact hnone hactive
  | some transfer => exact hsome i.clock transfer hactive

lemma wp_saveIfAny_alone {c : Option TransferCheckpoint}
    {Q : Except QuicError Unit → QuicTransferEngine → Prop}
    (h : ∀ checkpoints, Q (.ok ())
      (e.withManager { e.resumableManager with checkpoints := checkpoints })) :
    wp (.alone EngineOp fun _ => True) Q (onManager (ResumableTransferManager.saveIfAny c)) e := by
  cases c with
  | none => exact h _
  | some c =>
    unfold onManager ResumableTransferManager.saveIfAny ResumableTransferManager.saveCheckpoint
    dsimp only
    rw [zoom_atom]
    refine wp_atom fun e' henv i _ => ⟨trivial, ?_⟩
    obtain rfl : e = e' := henv
    exact h _

/-- **What a cancellation leaves**: the manager keeps the transfer until it has failed too often. -/
theorem wp_cancelTransfer {Q : Except QuicError Unit → QuicTransferEngine → Prop}
    (hgone : ∀ e', (∀ transfer,
      e.resumableManager.activeTransfers.lookup transferId = some transfer →
        e.resumableManager.maxRetryCount ≤ transfer.checkpoint.retryCount + 1) →
      Gone transferId e' → Q (.ok ()) e')
    (hkept : ∀ e' transfer,
      e.resumableManager.activeTransfers.lookup transferId = some transfer →
        ¬ e.resumableManager.maxRetryCount ≤ transfer.checkpoint.retryCount + 1 →
      Kept transferId e' → Q (.ok ()) e') :
    wp (.alone EngineOp fun _ => True) Q (cancelTransfer transferId) e := by
  refine wp_bind (wp_atom fun e' henv i _ => ⟨trivial, ?_⟩)
  obtain rfl : e = e' := henv
  dsimp only
  unfold ResumableTransferManager.failTransfer
  rw [onManager_bind]
  refine wp_bind (wp_onTransfer_alone (fun hnone => ?_) fun clock transfer hactive => ?_)
  · refine wp_saveIfAny_alone fun checkpoints => hgone _ (fun transfer ht => ?_)
      ⟨Finmap.lookup_erase _ _, hnone⟩
    rw [show e.resumableManager.activeTransfers.lookup transferId = none from hnone] at ht
    cases ht
  · have hactive : e.resumableManager.activeTransfers.lookup transferId = some transfer := hactive
    dsimp only
    split
    · next hmax =>
      refine wp_saveIfAny_alone fun checkpoints => hgone _ (fun transfer' ht => ?_)
        ⟨Finmap.lookup_erase _ _, ResumableTransferManager.lookup_withoutTransfer⟩
      obtain rfl := Option.some.inj (hactive.symm.trans ht)
      exact hmax
    · next hmax =>
      exact wp_saveIfAny_alone fun checkpoints => hkept _ transfer hactive hmax
        ⟨Finmap.lookup_erase _ _, _, ResumableTransferManager.lookup_withTransfer, rfl⟩

/-- **A transfer that is kept** becomes active when it is resumed. -/
theorem wp_resume_kept (he : Kept transferId e) :
    wp (.alone EngineOp fun _ => True) (fun _ e => ∃ transfer,
      e.resumableManager.activeTransfers.lookup transferId = some transfer ∧
        transfer.status = .active) (enter isAlphanumeric blake3 (.resume transferId)) e := by
  obtain ⟨transfer, hactive, hstatus⟩ := he.active
  refine wp_bind (wp_atom fun e' henv i _ => ⟨trivial, ?_⟩)
  obtain rfl : e = e' := henv
  show wp _ _ (resumeTransfer isAlphanumeric blake3 transferId) e
  unfold resumeTransfer onManager ResumableTransferManager.getTransferStatus
  rw [zoom_atom]
  refine wp_bind (wp_atom fun e' henv i _ => ⟨trivial, ?_⟩)
  obtain rfl : e = e' := henv
  dsimp only
  rw [hactive]
  dsimp only [Option.map_some]
  rw [hstatus]
  dsimp only
  -- the manager makes the transfer active before the session is looked up
  unfold ResumableTransferManager.resumeTransfer
  rw [zoom_atom]
  refine wp_bind (wp_atom fun e' henv i _ => ⟨trivial, ?_⟩)
  obtain rfl : e = e' := henv
  dsimp only
  rw [hactive]
  dsimp only
  refine wp_bind (wp_atom fun e' henv i _ => ⟨trivial, ?_⟩)
  obtain rfl : _ = e' := henv
  dsimp only
  rw [he.session]
  exact ⟨_, ResumableTransferManager.lookup_withTransfer, rfl⟩

/-- **A transfer that is kept does not stay cancelled.** -/
theorem not_cancelIsFinal_of_kept (he : Kept transferId e) :
    ¬ CancelIsFinal isAlphanumeric blake3 e transferId := by
  intro h
  have hserve : wp (.alone EngineLabel fun _ => True) (fun _ e => ∃ transfer,
      e.resumableManager.activeTransfers.lookup transferId = some transfer ∧
        transfer.status = .active) (serve isAlphanumeric blake3 [.resume transferId]) e := by
    refine wp_bind (wp_attempt (wp_relabel ?_))
    exact wp_mono (wp_resume_kept he) fun r e he => he
  have i : EngineInput :=
    { clock := ⟨0, 0, 0, ⟨Finset.toList, Finset.nodup_toList, Finset.mem_toList⟩⟩
      sent := .ok ()
      received := .error (.protocol "") }
  obtain ⟨r, e', hreturns, transfer, hactive, hstatus⟩ := exists_returns ⟨i, trivial⟩ hserve
  obtain ⟨P, hrun, rfl, -⟩ := Pool.run_of_returns (t := none)
    (P := engaged isAlphanumeric blake3 e [.resume transferId] Empty.elim)
    hreturns
  refine (h Empty _ _ P (fun call hcall => ?_) hrun).inactive transfer hactive hstatus
  obtain rfl := List.mem_singleton.mp hcall
  exact .resume

/-- **Cancel is final exactly when the manager does not keep the transfer**, since it has failed too
often or is not known.

**Proof sketch.** If the manager drops the transfer, nothing is left that a later call could change.
Otherwise the first call that resumes it makes it active again. -/
theorem cancelIsFinal_iff {e' : QuicTransferEngine}
    (h : Returns (fun _ => True) (cancelTransfer transferId) e (.ok ()) e') :
    CancelIsFinal isAlphanumeric blake3 e' transferId ↔
      ∀ transfer, e.resumableManager.activeTransfers.lookup transferId = some transfer →
        e.resumableManager.maxRetryCount ≤ transfer.checkpoint.retryCount + 1 := by
  refine post_of_returns h (wp_cancelTransfer (Q := fun _ e' =>
    CancelIsFinal isAlphanumeric blake3 e' transferId ↔
      ∀ transfer, e.resumableManager.activeTransfers.lookup transferId = some transfer →
        e.resumableManager.maxRetryCount ≤ transfer.checkpoint.retryCount + 1) ?_ ?_)
  · intro e' hmax hgone
    exact iff_of_true (cancelIsFinal_of_gone hgone) hmax
  · intro e' transfer hactive hmax hkept
    exact iff_of_false (not_cancelIsFinal_of_kept hkept) fun h => hmax (h transfer hactive)

end Gone

/-! ## A transfer of two chunks -/

/-- A transfer of two chunks that has failed twice. -/
private def failedTwice : QuicTransferEngine :=
  let checkpoint : TransferCheckpoint := ⟨['a'], ['p'], ['f'], 100, 0, 0, 0, 2⟩
  let session : TransferSession :=
    ⟨['a'], ['p'], ['f'], 100, [(repeated 1).asBytes, (repeated 2).asBytes], ∅, .failed⟩
  { QuicTransferEngine.new with
    resumableManager := { ResumableTransferManager.default with
      activeTransfers := Finmap.insert ['a'] ⟨checkpoint, .failed, 0, []⟩ ∅
      checkpoints := Finmap.insert ['a'] checkpoint ∅ }
    activeTransfers := Finmap.insert ['a'] session ∅ }

/-- A transfer that has failed as often as it may is cancelled for good. -/
theorem cancelIsFinal_iff_failedTwice : ∃ e' : QuicTransferEngine,
    Returns (fun _ => True) (cancelTransfer ['a']) failedTwice (.ok ()) e' ∧
      CancelIsFinal Char.isAlphanum (fun data => repeated (data.headD 0)) e' ['a'] := by
  have hmax : ∀ transfer,
      failedTwice.resumableManager.activeTransfers.lookup ['a'] = some transfer →
        failedTwice.resumableManager.maxRetryCount ≤ transfer.checkpoint.retryCount + 1 := by
    intro transfer hactive
    obtain rfl := Option.some.inj ((Finmap.lookup_insert _).symm.trans hactive)
    decide
  have hcancel : wp (.alone EngineOp fun _ => True) (fun r _ => r = .ok ())
      (cancelTransfer ['a']) failedTwice :=
    wp_cancelTransfer (fun _ _ _ => rfl) fun _ _ _ _ _ => rfl
  obtain ⟨r, e', hreturns, rfl⟩ := exists_returns ⟨outcome none, trivial⟩ hcancel
  exact ⟨e', hreturns, (cancelIsFinal_iff hreturns).mpr hmax⟩

/-- **A cancelled transfer becomes active again**: it has been started before. -/
theorem not_cancelIsFinal_startTwo : ¬ ∀ (P : EnginePool Empty) (e' : QuicTransferEngine),
    Pool.Run (fun _ _ _ => True)
      (engaged Char.isAlphanum (fun data => repeated (data.headD 0)) .new [startTwo] nofun) P →
    Returns (fun _ => True) (cancelTransfer ['a']) P.state (.ok ()) e' →
      CancelIsFinal Char.isAlphanum (fun data => repeated (data.headD 0)) e' ['a'] := by
  have hexec : (Pool.exec (fun _ _ _ => True)
      (List.replicate 8 (none, outcome (some [1])) ++ List.replicate 4 (none, outcome none))
      (engaged Char.isAlphanum (fun data => repeated (data.headD 0)) .new [startTwo]
        (nofun : Empty → Background))).map
          (fun P => (P.state.resumableManager.activeTransfers.lookup ['a']).map fun transfer =>
            decide (P.state.resumableManager.maxRetryCount ≤
              transfer.checkpoint.retryCount + 1)) = some (some false) := by
    decide +kernel
  intro h
  obtain ⟨P, hP, hkept⟩ := Option.map_eq_some_iff.mp hexec
  obtain ⟨transfer, hactive, hcount⟩ := Option.map_eq_some_iff.mp hkept
  have hcancel : wp (.alone EngineOp fun _ => True) (fun r e' => r = .ok () ∧ Kept ['a'] e')
      (cancelTransfer ['a']) P.state :=
    wp_cancelTransfer (fun _ hmax _ => absurd (hmax transfer hactive) (of_decide_eq_false hcount))
      fun _ _ _ _ hkept => ⟨rfl, hkept⟩
  obtain ⟨r, e', hreturns, rfl, hkept⟩ := exists_returns ⟨outcome none, trivial⟩ hcancel
  exact not_cancelIsFinal_of_kept hkept (h P e' (Pool.run_of_exec hP) hreturns)

end QuicTransferEngine

end Landropic
