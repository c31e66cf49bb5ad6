import Mathlib.Data.Char
import Landropic.Quic.TransferEngine

set_option autoImplicit false

/-!
# Transfers that get stuck

A batch that ends early leaves its transfer active without a request for the rest, and an active
transfer is not resumed. The cleanup forgets an active transfer, and a transfer that is started over
a checkpoint at its end is not known to the manager, so neither is resumed after a failure. With a
repeated hash the count of the needed chunks is never reached.

## Main definitions

* `QuicTransferEngine.Continuable` — what is unfinished can be continued, and what is there is
  completed.
* `QuicTransferEngine.Smooth` — the steps that leave every transfer so.
* `QuicTransferEngine.Triple` — what a part of a call does to its transfer.

## Main results

* `QuicTransferEngine.Call.enter` — after each call all transfers fit.
* `QuicTransferEngine.continuable_of_run` — every run of such steps leaves every transfer
  continuable.

## Design

While a call is under way its own transfer may be in any state, and the background may forget it. So
the outline of a call says of all other transfers that they fit, and of its own what each step
needs. -/

namespace Landropic

namespace QuicTransferEngine

open Proc BatchTransferManager

variable (isAlphanumeric : Char → Bool) (blake3 : Bytes → ContentHash)

/-- How often a transfer has failed, as far as its manager knows. -/
def retryCount (e : QuicTransferEngine) (transferId : Text) : UInt32 :=
  match e.resumableManager.activeTransfers.lookup transferId with
  | some transfer => transfer.checkpoint.retryCount
  | none => ((e.resumableManager.checkpoints.lookup transferId).map
      TransferCheckpoint.retryCount).getD 0

/-- If the transfer is resumed, the chunks are requested. -/
def ResumeRequests (e : QuicTransferEngine) (transferId : Text) (hashes : List Bytes) : Prop :=
  ∃ t e', Reaches (fun _ => True) (resumeTransfer isAlphanumeric blake3 transferId) e t e' ∧
    t.head = some (.sendWant (wantOf hashes))

/-- The transfer is completed: its manager is done with it. A session that was completed may have
been paused later on. -/
def Completed (e : QuicTransferEngine) (transferId : Text) (session : TransferSession) : Prop :=
  e.resumableManager.activeTransfers.lookup transferId = none ∧
    (session.status = .completed ∨ session.status = .paused)

/-- The transfer whose chunks a call under way is to request. -/
def requesting : EngineLabel → Option Text
  | .call _ .enter => none
  | .call (.start transferId ..) _ => some transferId
  | .call (.resume transferId) _ => some transferId
  | _ => none

/-- **Every unfinished transfer can be continued**: a transfer with missing chunks that has not
failed too often is being requested, or would be if it were resumed. Once nothing is missing, the
transfer is completed. -/
def Continuable {κ : Type} (P : EnginePool κ) : Prop :=
  ∀ transferId session, P.state.activeTransfers.lookup transferId = some session →
    (P.task none).head.bind requesting = some transferId ∨
      (session.missing ≠ [] →
        retryCount P.state transferId < P.state.resumableManager.maxRetryCount →
          ResumeRequests isAlphanumeric blake3 P.state transferId session.missing) ∧
      (session.missing = [] → Completed P.state transferId session)

/-- The steps that leave every transfer continuable. A transfer is started with hashes that may be
requested at once. A batch that does not fail brings all chunks it was to bring, and the count of
the needed chunks can be reached. The manager still has a transfer whose batch fails. The cleanup
forgets no transfer that has stopped in the meantime, and the delayed removal does not take what is
left of a transfer that the manager no longer has. -/
def Smooth : EngineLabel → QuicTransferEngine → EngineInput → Prop
  | .call (.start _ _ _ _ chunksNeeded) .enter, _, _ =>
    chunksNeeded ≠ [] → validateWant isAlphanumeric (wantOf chunksNeeded) = .ok ()
  | .call _ (.storeChunks transferId chunks), e, _ =>
    ∀ session ∈ e.activeTransfers.lookup transferId, session.chunksNeeded.Nodup ∧
      ∀ hash ∈ session.missing, ∃ chunk ∈ chunks, (blake3 chunk.data).asBytes = hash
  | .call _ (.manager (.failTransfer transferId)), e, _ =>
    transferId ∈ e.activeTransfers → transferId ∈ e.resumableManager.activeTransfers
  | .background (.removeInactive transferIds), e, _ =>
    ∀ transferId ∈ transferIds, transferId ∈ e.activeTransfers →
      ∀ transfer ∈ e.resumableManager.activeTransfers.lookup transferId, transfer.status = .active
  | .background (.removeCheckpoint transferId), e, _ =>
    ∀ session ∈ e.activeTransfers.lookup transferId,
      session.missing = [] ∨ transferId ∈ e.resumableManager.activeTransfers
  | _, _, _ => True

/-- A pool takes such a step. -/
def StepsSmoothly {κ : Type} (P : EnginePool κ) (t : Option κ) (i : EngineInput) : Prop :=
  ∀ label ∈ (P.task t).head, Smooth isAlphanumeric blake3 label P.state i

/-! ## The state of a transfer -/

/-- The chunks of a session may be requested, and only needed ones have come. -/
structure Sensible (session : TransferSession) : Prop where
  valid : session.chunksNeeded ≠ [] →
    validateWant isAlphanumeric (wantOf session.chunksNeeded) = .ok ()
  needed : ∀ hash ∈ session.chunksReceived, hash ∈ session.chunksNeeded

/-- A session that may be asked for all of its chunks, or that has all of them. -/
structure Askable (session : TransferSession) : Prop extends Sensible isAlphanumeric session where
  empty : session.missing ≠ [] → session.chunksReceived = ∅

/-- **What the manager knows of a transfer** agrees with its session: it is done with it when
nothing is missing, and otherwise the transfer has stopped or failed too often. -/
structure Fits (e : QuicTransferEngine) (transferId : Text) (session : TransferSession) :
    Prop extends Askable isAlphanumeric session where
  completed : session.missing = [] → Completed e transferId session
  stopped : session.missing ≠ [] → ∀ {transfer},
    e.resumableManager.activeTransfers.lookup transferId = some transfer →
      transfer.status = .paused ∨ transfer.status = .failed
  exhausted : session.missing ≠ [] →
    e.resumableManager.activeTransfers.lookup transferId = none →
      ∃ c, e.resumableManager.checkpoints.lookup transferId = some c ∧
        e.resumableManager.maxRetryCount ≤ c.retryCount

/-- The session of a transfer, if there is one, fits what the manager knows. -/
def FitsAt (e : QuicTransferEngine) (transferId : Text) : Prop :=
  ∀ session, e.activeTransfers.lookup transferId = some session →
    Fits isAlphanumeric e transferId session

/-- Everything is kept under the id of its transfer. -/
structure Keyed (e : QuicTransferEngine) : Prop where
  active : ∀ {transferId transfer},
    e.resumableManager.activeTransfers.lookup transferId = some transfer →
      transfer.checkpoint.transferId = transferId
  saved : ∀ {transferId c}, e.resumableManager.checkpoints.lookup transferId = some c →
    c.transferId = transferId

/-- The background only forgets transfers that are active, and removes checkpoints of transfers that
miss nothing or that the manager has. -/
structure Quiet (e e' : QuicTransferEngine) : Prop where
  sessions : e'.activeTransfers = e.activeTransfers
  active : ∀ transferId, e'.resumableManager.activeTransfers.lookup transferId =
      e.resumableManager.activeTransfers.lookup transferId ∨
    e'.resumableManager.activeTransfers.lookup transferId = none ∧
      (e.activeTransfers.lookup transferId = none ∨
        ∃ transfer, e.resumableManager.activeTransfers.lookup transferId = some transfer ∧
          transfer.status = .active)
  maxRetryCount : e'.resumableManager.maxRetryCount = e.resumableManager.maxRetryCount
  removed : ∀ transferId, e'.resumableManager.checkpoints.lookup transferId =
      e.resumableManager.checkpoints.lookup transferId ∨
    e'.resumableManager.checkpoints.lookup transferId = none
  kept : ∀ {transferId session}, e.activeTransfers.lookup transferId = some session →
    session.missing ≠ [] → e.resumableManager.activeTransfers.lookup transferId = none →
      e'.resumableManager.checkpoints.lookup transferId =
        e.resumableManager.checkpoints.lookup transferId

/-- Only one transfer has changed. -/
structure OnlyChanges (transferId : Text) (e e' : QuicTransferEngine) : Prop where
  sessions : ∀ {other}, other ≠ transferId →
    e'.activeTransfers.lookup other = e.activeTransfers.lookup other
  active : ∀ {other}, other ≠ transferId → e'.resumableManager.activeTransfers.lookup other =
    e.resumableManager.activeTransfers.lookup other
  checkpoints : ∀ {other}, other ≠ transferId → e'.resumableManager.checkpoints.lookup other =
    e.resumableManager.checkpoints.lookup other
  maxRetryCount : e'.resumableManager.maxRetryCount = e.resumableManager.maxRetryCount
  keyed : Keyed e → Keyed e'

section State

variable {isAlphanumeric blake3} {e e' e'' : QuicTransferEngine} {transferId other : Text}
  {session : TransferSession} {m : ResumableTransferManager} {transfer : ActiveTransfer}
  {c : TransferCheckpoint}

lemma Quiet.refl (e : QuicTransferEngine) : Quiet e e :=
  ⟨rfl, fun _ => .inl rfl, rfl, fun _ => .inl rfl, fun _ _ _ => rfl⟩

lemma Quiet.lookup_eq_none (h : Quiet e e')
    (hnone : e.resumableManager.activeTransfers.lookup transferId = none) :
    e'.resumableManager.activeTransfers.lookup transferId = none := by
  obtain heq | ⟨hnone', -⟩ := h.active transferId
  · rw [heq, hnone]
  · exact hnone'

lemma Quiet.trans (h : Quiet e e') (h' : Quiet e' e'') : Quiet e e'' where
  sessions := h'.sessions.trans h.sessions
  active id := by
    obtain heq' | ⟨hnone', hwhy⟩ := h'.active id
    · rw [heq']
      exact h.active id
    · obtain heq | ⟨hnone, hwhy'⟩ := h.active id
      · rw [h.sessions, heq] at hwhy
        exact .inr ⟨hnone', hwhy⟩
      · exact .inr ⟨hnone', hwhy'⟩
  maxRetryCount := h'.maxRetryCount.trans h.maxRetryCount
  removed id := by
    obtain heq | hnone := h'.removed id
    · rw [heq]
      exact h.removed id
    · exact .inr hnone
  kept hsession hmissing hnone := (h'.kept (h.sessions ▸ hsession) hmissing
    (h.lookup_eq_none hnone)).trans (h.kept hsession hmissing hnone)

lemma Keyed.quiet (h : Keyed e) (hquiet : Quiet e e') : Keyed e' where
  active {id a} ha := by
    obtain heq | ⟨hnone, -⟩ := hquiet.active id
    · exact h.active (heq ▸ ha)
    · rw [hnone] at ha
      cases ha
  saved {id c} hc := by
    obtain heq | hnone := hquiet.removed id
    · exact h.saved (heq ▸ hc)
    · rw [hnone] at hc
      cases hc

/-- What fits only depends on the transfer itself. -/
lemma FitsAt.of_eq (h : FitsAt isAlphanumeric e transferId)
    (hsession : e'.activeTransfers.lookup transferId = e.activeTransfers.lookup transferId)
    (hactive : e.activeTransfers.lookup transferId ≠ none →
      e'.resumableManager.activeTransfers.lookup transferId =
        e.resumableManager.activeTransfers.lookup transferId)
    (hmax : e'.resumableManager.maxRetryCount = e.resumableManager.maxRetryCount)
    (hsaved : ∀ session, e.activeTransfers.lookup transferId = some session →
      session.missing ≠ [] → e.resumableManager.activeTransfers.lookup transferId = none →
        e'.resumableManager.checkpoints.lookup transferId =
          e.resumableManager.checkpoints.lookup transferId) :
    FitsAt isAlphanumeric e' transferId := by
  intro session hlookup
  rw [hsession] at hlookup
  have hfits := h session hlookup
  have hactive := hactive (by simp [hlookup])
  refine ⟨hfits.toAskable, fun hnone => ?_, fun hmissing {_} ha => ?_, fun hmissing hnone => ?_⟩
  · obtain ⟨hnone, hstatus⟩ := hfits.completed hnone
    exact ⟨hactive.trans hnone, hstatus⟩
  · exact hfits.stopped hmissing (hactive ▸ ha)
  · rw [hactive] at hnone
    rw [hsaved session hlookup hmissing hnone, hmax]
    exact hfits.exhausted hmissing hnone

lemma FitsAt.lookup_eq (h : FitsAt isAlphanumeric e transferId) (hquiet : Quiet e e')
    (hsession : e.activeTransfers.lookup transferId ≠ none) :
    e'.resumableManager.activeTransfers.lookup transferId =
      e.resumableManager.activeTransfers.lookup transferId := by
  obtain heq | ⟨-, hnone | ⟨transfer, hactive, hstatus⟩⟩ := hquiet.active transferId
  · exact heq
  · exact absurd hnone hsession
  · obtain ⟨session, hlookup⟩ := Option.ne_none_iff_exists'.mp hsession
    by_cases hmissing : session.missing = []
    · rw [((h session hlookup).completed hmissing).1] at hactive
      cases hactive
    · obtain hpaused | hfailed := (h session hlookup).stopped hmissing hactive
      · rw [hpaused] at hstatus
        cases hstatus
      · rw [hfailed] at hstatus
        cases hstatus

lemma FitsAt.quiet (h : FitsAt isAlphanumeric e transferId) (hquiet : Quiet e e') :
    FitsAt isAlphanumeric e' transferId :=
  h.of_eq (by rw [hquiet.sessions]) (h.lookup_eq hquiet) hquiet.maxRetryCount
    fun _ hsession hmissing hnone => hquiet.kept hsession hmissing hnone

lemma OnlyChanges.fitsAt (h : OnlyChanges transferId e e') (hne : other ≠ transferId)
    (hfits : FitsAt isAlphanumeric e other) : FitsAt isAlphanumeric e' other :=
  hfits.of_eq (h.sessions hne) (fun _ => h.active hne) h.maxRetryCount
    fun _ _ _ _ => h.checkpoints hne

lemma OnlyChanges.refl (transferId : Text) (e : QuicTransferEngine) :
    OnlyChanges transferId e e :=
  ⟨fun _ => rfl, fun _ => rfl, fun _ => rfl, rfl, id⟩

/-! ### What the actions change -/

/-- The manager has changed a transfer. -/
abbrev withManager (e : QuicTransferEngine) (m : ResumableTransferManager) : QuicTransferEngine :=
  { e with resumableManager := m }

lemma onlyChanges_withTransfer (h : transfer.checkpoint.transferId = transferId) :
    OnlyChanges transferId e
      (e.withManager (e.resumableManager.withTransfer transferId transfer)) where
  sessions _ := rfl
  active hne := ResumableTransferManager.lookup_withTransfer_of_ne hne
  checkpoints _ := rfl
  maxRetryCount := rfl
  keyed hkeyed := by
    refine ⟨fun {id a} ha => ?_, hkeyed.saved⟩
    by_cases hid : id = transferId
    · subst hid
      rw [ResumableTransferManager.lookup_withTransfer] at ha
      rw [← Option.some.inj ha, h]
    · rw [ResumableTransferManager.lookup_withTransfer_of_ne hid] at ha
      exact hkeyed.active ha

lemma onlyChanges_withoutTransfer :
    OnlyChanges transferId e (e.withManager (e.resumableManager.withoutTransfer transferId)) where
  sessions _ := rfl
  active hne := ResumableTransferManager.lookup_withoutTransfer_of_ne hne
  checkpoints _ := rfl
  maxRetryCount := rfl
  keyed hkeyed := by
    refine ⟨fun {id a} ha => ?_, hkeyed.saved⟩
    by_cases hid : id = transferId
    · subst hid
      rw [ResumableTransferManager.lookup_withoutTransfer] at ha
      cases ha
    · rw [ResumableTransferManager.lookup_withoutTransfer_of_ne hid] at ha
      exact hkeyed.active ha

lemma onlyChanges_saveCheckpoint (h : c.transferId = transferId) :
    OnlyChanges transferId e (e.withManager { e.resumableManager with
      checkpoints := e.resumableManager.checkpoints.insert c.transferId c }) where
  sessions _ := rfl
  active _ := rfl
  checkpoints hne := Finmap.lookup_insert_of_ne _ (h ▸ hne)
  maxRetryCount := rfl
  keyed hkeyed := by
    refine ⟨hkeyed.active, fun {id c'} hc => ?_⟩
    obtain ⟨rfl, rfl⟩ | ⟨-, hc⟩ := HashMap.lookup_insert_cases hc
    · rfl
    · exact hkeyed.saved hc

lemma onlyChanges_removals {removals : List Text} : OnlyChanges transferId e
    (e.withManager { e.resumableManager with removals := removals }) :=
  ⟨fun _ => rfl, fun _ => rfl, fun _ => rfl, rfl, fun hkeyed => ⟨hkeyed.active, hkeyed.saved⟩⟩

lemma onlyChanges_chunkCache {chunkCache : HashMap Bytes ChunkData} :
    OnlyChanges transferId e { e with chunkCache := chunkCache } :=
  ⟨fun _ => rfl, fun _ => rfl, fun _ => rfl, rfl, fun hkeyed => ⟨hkeyed.active, hkeyed.saved⟩⟩

lemma onlyChanges_sessions {sessions : HashMap Text TransferSession}
    (h : ∀ {other}, other ≠ transferId →
      sessions.lookup other = e.activeTransfers.lookup other) :
    OnlyChanges transferId e { e with activeTransfers := sessions } :=
  ⟨h, fun _ => rfl, fun _ => rfl, rfl, fun hkeyed => ⟨hkeyed.active, hkeyed.saved⟩⟩

variable {f : TransferSession → TransferSession}

lemma lookup_onSession :
    (e.onSession transferId f).activeTransfers.lookup transferId =
      (e.activeTransfers.lookup transferId).map f := by
  unfold onSession
  cases hlookup : e.activeTransfers.lookup transferId with
  | none => exact hlookup
  | some session => exact Finmap.lookup_insert _

@[simp] lemma resumableManager_onSession :
    (e.onSession transferId f).resumableManager = e.resumableManager := by
  unfold onSession
  cases e.activeTransfers.lookup transferId with
  | none => rfl
  | some session => rfl

lemma onlyChanges_onSession : OnlyChanges transferId e (e.onSession transferId f) := by
  unfold onSession
  cases e.activeTransfers.lookup transferId with
  | none => exact .refl _ _
  | some session => exact onlyChanges_sessions fun hne => Finmap.lookup_insert_of_ne _ hne

end State

/-! ## What each call does -/

/-- What the calls assume of the background and of their inputs. -/
def engineSpec : Spec QuicTransferEngine EngineInput EngineLabel where
  env _ := Quiet
  env_refl _ := .refl
  env_trans := .trans
  input := Smooth isAlphanumeric blake3
  guar _ _ _ := True
  progress := False

/-- While a call is under way, all transfers fit but the one whose chunks it is to request. -/
def OthersFit (label : EngineLabel) (e : QuicTransferEngine) : Prop :=
  ∀ transferId, requesting label ≠ some transferId → FitsAt isAlphanumeric e transferId

/-- The outline of a call. -/
abbrev CallOutline {α : Type} (call : EngineCall)
    (Q : Except QuicError α → QuicTransferEngine → Prop) (t : EngineTask α)
    (e : QuicTransferEngine) : Prop :=
  Outline ((engineSpec isAlphanumeric blake3).relabel (.call call))
    (fun op => OthersFit isAlphanumeric (.call call op)) Q t e

/-- All transfers fit. -/
structure AllFit (e : QuicTransferEngine) : Prop where
  keyed : Keyed e
  fits : ∀ transferId, FitsAt isAlphanumeric e transferId

/-- All transfers fit but one, of which something else is known. -/
structure Local (transferId : Text) (A : QuicTransferEngine → Prop) (e : QuicTransferEngine) :
    Prop where
  keyed : Keyed e
  others : ∀ other, other ≠ transferId → FitsAt isAlphanumeric e other
  here : A e

/-- What is known survives the background. -/
def Stable (A : QuicTransferEngine → Prop) : Prop := ∀ {e e'}, Quiet e e' → A e → A e'

/-- Something is known of the session of a transfer, of what the manager has of it, and of how often
it may fail. -/
def Has (transferId : Text) (P : Option TransferSession → Option ActiveTransfer → UInt32 → Prop)
    (e : QuicTransferEngine) : Prop :=
  P (e.activeTransfers.lookup transferId) (e.resumableManager.activeTransfers.lookup transferId)
    e.resumableManager.maxRetryCount

/-- The session of a transfer, if it has one. -/
def HasSession (transferId : Text) (s : Option TransferSession) (e : QuicTransferEngine) : Prop :=
  e.activeTransfers.lookup transferId = s

/-- A call is to request the chunks of a transfer, once it has come in. -/
def Requests (call : EngineCall) (transferId : Text) : Prop :=
  ∀ op, op ≠ .enter → requesting (.call call op) = some transferId

/-- A call ends well, in a state that goes with what it returns. -/
def Ok {α : Type} (A : α → QuicTransferEngine → Prop) (r : Except QuicError α)
    (e : QuicTransferEngine) : Prop := ∃ a, r = .ok a ∧ A a e

section Calls

variable {isAlphanumeric blake3} {α β : Type} {call : EngineCall} {op : EngineOp}
  {transferId : Text} {e e' : QuicTransferEngine} {A B : QuicTransferEngine → Prop}
  {session : TransferSession} {s : Option TransferSession}

lemma AllFit.quiet (h : AllFit isAlphanumeric e) (hquiet : Quiet e e') :
    AllFit isAlphanumeric e' := ⟨h.keyed.quiet hquiet, fun id => (h.fits id).quiet hquiet⟩

lemma AllFit.local (h : AllFit isAlphanumeric e) (hA : A e) : Local isAlphanumeric transferId A e :=
  ⟨h.keyed, fun other _ => h.fits other, hA⟩

lemma Local.allFit (h : Local isAlphanumeric transferId A e)
    (hfits : FitsAt isAlphanumeric e transferId) : AllFit isAlphanumeric e := by
  refine ⟨h.keyed, fun id => ?_⟩
  by_cases hid : id = transferId
  · subst hid
    exact hfits
  · exact h.others id hid

lemma Local.mono (h : Local isAlphanumeric transferId A e) (hB : B e) :
    Local isAlphanumeric transferId B e := ⟨h.keyed, h.others, hB⟩

lemma Local.change (h : Local isAlphanumeric transferId A e) (honly : OnlyChanges transferId e e')
    (hB : B e') : Local isAlphanumeric transferId B e' :=
  ⟨honly.keyed h.keyed, fun other hne => honly.fitsAt hne (h.others other hne), hB⟩

lemma stable_has {P : Option TransferSession → Option ActiveTransfer → UInt32 → Prop}
    (hforget : ∀ {s transfer max}, P s (some transfer) max →
      s = none ∨ transfer.status = .active → P s none max) :
    Stable (Has transferId P) := by
  intro e e' hquiet h
  rw [Has, hquiet.sessions, hquiet.maxRetryCount]
  obtain heq | ⟨hnone, hwhy⟩ := hquiet.active transferId
  · rw [heq]
    exact h
  · rw [hnone]
    unfold Has at h
    cases hactive : e.resumableManager.activeTransfers.lookup transferId with
    | none => rwa [hactive] at h
    | some transfer =>
      rw [hactive] at h hwhy
      refine hforget h (hwhy.imp_right ?_)
      rintro ⟨_, ⟨rfl⟩, hstatus⟩
      exact hstatus

lemma stable_hasSession : Stable (HasSession transferId s) := by
  intro e e' hquiet h
  rw [HasSession, hquiet.sessions]
  exact h

lemma stable_fitsAt : Stable fun e => FitsAt isAlphanumeric e transferId :=
  fun hquiet h => h.quiet hquiet

/-- A call may take an action on a transfer: it is to request its chunks, or the transfer fits. -/
def May (isAlphanumeric : Char → Bool) (call : EngineCall) (op : EngineOp) (transferId : Text)
    (A : QuicTransferEngine → Prop) : Prop :=
  requesting (.call call op) = some transferId ∨ ∀ e, A e → FitsAt isAlphanumeric e transferId

lemma Ok.of_const {r : Except QuicError α} (h : Ok (fun _ => A) r e) : A e := by
  obtain ⟨_, -, hA⟩ := h
  exact hA

/-- While a call works on one transfer, it leads from what is known of that transfer to what goes
with its outcome, and leaves the others as they are. -/
def Triple (isAlphanumeric : Char → Bool) (blake3 : Bytes → ContentHash) (call : EngineCall)
    (transferId : Text) (A : QuicTransferEngine → Prop) (t : EngineTask α)
    (B : Except QuicError α → QuicTransferEngine → Prop) : Prop :=
  ∀ e, Local isAlphanumeric transferId A e →
    CallOutline isAlphanumeric blake3 call (fun r e => Local isAlphanumeric transferId (B r) e) t e

variable {B : Except QuicError α → QuicTransferEngine → Prop} {t : EngineTask α}
  {chunks : List ChunkData} {peerId filePath : Text}

lemma Triple.ret {r : Except QuicError α} (h : ∀ e, A e → B r e) :
    Triple isAlphanumeric blake3 call transferId A (.ret r) B :=
  fun _ he => he.mono (h _ he.here)

lemma Triple.bind {k : α → EngineTask β} {C : Except QuicError β → QuicTransferEngine → Prop}
    (h : Triple isAlphanumeric blake3 call transferId A t B)
    (hk : ∀ a, Triple isAlphanumeric blake3 call transferId (B (.ok a)) (k a) C)
    (herr : ∀ err e, B (.error err) e → C (.error err) e) :
    Triple isAlphanumeric blake3 call transferId A (t >>= k) C := by
  intro e he
  refine Outline.bind ((h e he).mono fun r e' hB => ?_)
  cases r with
  | ok a => exact hk a e' hB
  | error err => exact hB.mono (herr err e' hB.here)

lemma Triple.of_fact {p : Prop} (h : p → Triple isAlphanumeric blake3 call transferId A t B) :
    Triple isAlphanumeric blake3 call transferId (fun e => p ∧ A e) t B :=
  fun e he => h he.here.1 e (he.mono he.here.2)

lemma Triple.of_exists {γ : Type} {A : γ → QuicTransferEngine → Prop}
    (h : ∀ x, Triple isAlphanumeric blake3 call transferId (A x) t B) :
    Triple isAlphanumeric blake3 call transferId (fun e => ∃ x, A x e) t B := by
  intro e he
  obtain ⟨x, hx⟩ := he.here
  exact h x e (he.mono hx)

/-- A process that cannot fail, and what comes after it. -/
lemma Triple.seq {k : α → EngineTask β} {B : α → QuicTransferEngine → Prop}
    {C : Except QuicError β → QuicTransferEngine → Prop}
    (h : Triple isAlphanumeric blake3 call transferId A t (Ok B))
    (hk : ∀ a, Triple isAlphanumeric blake3 call transferId (B a) (k a) C) :
    Triple isAlphanumeric blake3 call transferId A (t >>= k) C := by
  refine h.bind (fun a e he => hk a e (he.mono ?_)) ?_
  · obtain ⟨a', ha, hB⟩ := he.here
    obtain rfl := Except.ok.inj ha
    exact hB
  · rintro err e ⟨a, ha, -⟩
    cases ha

lemma Triple.attempt {C : Except QuicError (Except QuicError α) → QuicTransferEngine → Prop}
    (h : Triple isAlphanumeric blake3 call transferId A t B) (hC : ∀ r e, B r e → C (.ok r) e) :
    Triple isAlphanumeric blake3 call transferId A t.attempt C :=
  fun e he => Outline.attempt ((h e he).mono fun r _ hB => hB.mono (hC r _ hB.here))

lemma Triple.weaken {A' : QuicTransferEngine → Prop}
    {B' : Except QuicError α → QuicTransferEngine → Prop}
    (h : Triple isAlphanumeric blake3 call transferId A t B) (hA : ∀ e, A' e → A e)
    (hB : ∀ r e, B r e → B' r e) : Triple isAlphanumeric blake3 call transferId A' t B' :=
  fun e he => (h e (he.mono (hA e he.here))).mono fun r e' hr => hr.mono (hB r e' hr.here)

/-- **An action on one transfer.** -/
theorem Triple.action
    {f : EngineInput → QuicTransferEngine → Except QuicError α × QuicTransferEngine} (hA : Stable A)
    (hmay : May isAlphanumeric call op transferId A)
    (hact : ∀ i e, Keyed e → A e → Smooth isAlphanumeric blake3 (.call call op) e i →
      OnlyChanges transferId e (f i e).2 ∧ B (f i e).1 (f i e).2) :
    Triple isAlphanumeric blake3 call transferId A (atom op f) B := by
  refine fun e he => Outline.atom fun e' hquiet => ?_
  have he' : Local isAlphanumeric transferId A e' :=
    ⟨he.keyed.quiet hquiet, fun other hne => (he.others other hne).quiet hquiet, hA hquiet he.here⟩
  refine ⟨fun id hid => ?_, fun i hi => ?_⟩
  · by_cases heq : id = transferId
    · subst heq
      obtain hreq | hfits := hmay
      · exact absurd hreq hid
      · exact hfits e' he'.here
    · exact he'.others id heq
  · obtain ⟨honly, hB⟩ := hact i e' he'.keyed he'.here hi
    exact ⟨trivial, he'.change honly hB⟩

/-- An action that leaves the engine as it is. -/
lemma Triple.look {f : EngineInput → QuicTransferEngine → Except QuicError α × QuicTransferEngine}
    (hA : Stable A) (hmay : May isAlphanumeric call op transferId A) (hf : ∀ i e, (f i e).2 = e)
    (hB : ∀ i e, Keyed e → A e → B (f i e).1 e) :
    Triple isAlphanumeric blake3 call transferId A (atom op f) B := by
  refine .action hA hmay fun i e hkeyed he _ => ?_
  rw [hf]
  exact ⟨.refl _ _, hB i e hkeyed he⟩

lemma onManager_bind {t : TransferTask α} {k : α → TransferTask β} :
    onManager (t >>= k) = onManager t >>= fun a => onManager (k a) := zoom_bind _ _ _ _ _ _

/-- The manager changes a transfer. -/
lemma Triple.onTransfer {op : TransferOp}
    {f : TransferClock → ResumableTransferManager → ActiveTransfer →
      Option TransferCheckpoint × ResumableTransferManager}
    {B : Except QuicError (Option TransferCheckpoint) → QuicTransferEngine → Prop} (hA : Stable A)
    (hmay : May isAlphanumeric call (.manager op) transferId A)
    (hnone : ∀ i e, A e → Smooth isAlphanumeric blake3 (.call call (.manager op)) e i →
      e.resumableManager.activeTransfers.lookup transferId = none → B (.ok none) e)
    (hsome : ∀ clock e transfer, A e →
      e.resumableManager.activeTransfers.lookup transferId = some transfer →
        transfer.checkpoint.transferId = transferId →
          OnlyChanges transferId e (e.withManager (f clock e.resumableManager transfer).2) ∧
            B (.ok (f clock e.resumableManager transfer).1)
              (e.withManager (f clock e.resumableManager transfer).2)) :
    Triple isAlphanumeric blake3 call transferId A
      (onManager (ResumableTransferManager.onTransfer op transferId f)) B := by
  unfold onManager ResumableTransferManager.onTransfer
  rw [zoom_atom]
  refine .action hA hmay fun i e hkeyed he hsmooth => ?_
  cases hlookup : e.resumableManager.activeTransfers.lookup transferId with
  | none => exact ⟨.refl _ _, hnone i e he hsmooth hlookup⟩
  | some transfer => exact hsome i.clock e transfer he hlookup (hkeyed.active hlookup)

/-- A checkpoint of the transfer is saved. -/
lemma Triple.saveCheckpoint {c : TransferCheckpoint}
    {B : Except QuicError Unit → QuicTransferEngine → Prop} (hA : Stable A)
    (hmay : May isAlphanumeric call (.manager (.saveCheckpoint c)) transferId A)
    (hid : c.transferId = transferId)
    (hB : ∀ e, A e → B (.ok ()) (e.withManager { e.resumableManager with
      checkpoints := e.resumableManager.checkpoints.insert transferId c })) :
    Triple isAlphanumeric blake3 call transferId A
      (onManager (ResumableTransferManager.saveCheckpoint c)) B := by
  subst hid
  unfold onManager ResumableTransferManager.saveCheckpoint
  rw [zoom_atom]
  exact .action hA hmay fun _ e _ he _ => ⟨onlyChanges_saveCheckpoint rfl, hB e he⟩

/-- A checkpoint of the transfer is saved, if there is one to save. -/
lemma Triple.saveIfAny {c : Option TransferCheckpoint}
    {B : Except QuicError Unit → QuicTransferEngine → Prop} (hA : Stable A)
    (hmay : ∀ c', May isAlphanumeric call (.manager (.saveCheckpoint c')) transferId A)
    (hid : ∀ c' ∈ c, c'.transferId = transferId) (hnone : c = none → ∀ e, A e → B (.ok ()) e)
    (hsome : ∀ c' ∈ c, ∀ e, A e → B (.ok ()) (e.withManager { e.resumableManager with
      checkpoints := e.resumableManager.checkpoints.insert transferId c' })) :
    Triple isAlphanumeric blake3 call transferId A
      (onManager (ResumableTransferManager.saveIfAny c)) B := by
  cases c with
  | none => exact .ret (hnone rfl)
  | some c => exact .saveCheckpoint hA (hmay c) (hid c rfl) (hsome c rfl)

/-! ### The managers' parts of the calls -/

/-- A transfer that misses nothing fits when the manager is done with it. -/
lemma fitsAt_of_completed (hsensible : Sensible isAlphanumeric session)
    (hmissing : session.missing = [])
    (hstatus : session.status = .completed ∨ session.status = .paused)
    (h : Has transferId (fun s a _ => s = some session ∧ a = none) e) :
    FitsAt isAlphanumeric e transferId := by
  obtain ⟨hsession, hnone⟩ := h
  intro session' hlookup
  obtain rfl := Option.some.inj (hsession.symm.trans hlookup)
  exact ⟨⟨hsensible, fun hne => absurd hmissing hne⟩, fun _ => ⟨hnone, hstatus⟩,
    fun hne => absurd hmissing hne, fun hne => absurd hmissing hne⟩

lemma fitsAt_of_forgotten (h : e.activeTransfers.lookup transferId = none) :
    FitsAt isAlphanumeric e transferId := by
  intro session hlookup
  rw [h] at hlookup
  cases hlookup

/-- A transfer that is known to the manager fits when it has stopped. -/
lemma fitsAt_of_stopped {transfer : ActiveTransfer}
    (hask : ∀ session ∈ e.activeTransfers.lookup transferId, Askable isAlphanumeric session)
    (hmissing : ∀ session ∈ e.activeTransfers.lookup transferId, session.missing ≠ [])
    (hactive : e.resumableManager.activeTransfers.lookup transferId = some transfer)
    (hstatus : transfer.status = .paused ∨ transfer.status = .failed) :
    FitsAt isAlphanumeric e transferId := by
  intro session hlookup
  have hne := hmissing session hlookup
  refine ⟨hask session hlookup, fun h => absurd h hne, fun _ {other} ha => ?_, fun _ hnone => ?_⟩
  · obtain rfl := Option.some.inj (hactive.symm.trans ha)
    exact hstatus
  · rw [hactive] at hnone
    cases hnone

/-- A transfer that is no longer known to the manager fits when it has failed too often. -/
lemma fitsAt_of_exhausted {c : TransferCheckpoint}
    (hask : ∀ session ∈ e.activeTransfers.lookup transferId, Askable isAlphanumeric session)
    (hmissing : ∀ session ∈ e.activeTransfers.lookup transferId, session.missing ≠ [])
    (hnone : e.resumableManager.activeTransfers.lookup transferId = none)
    (hsaved : e.resumableManager.checkpoints.lookup transferId = some c)
    (hcount : e.resumableManager.maxRetryCount ≤ c.retryCount) :
    FitsAt isAlphanumeric e transferId := by
  intro session hlookup
  have hne := hmissing session hlookup
  refine ⟨hask session hlookup, fun h => absurd h hne, fun _ {other} ha => ?_,
    fun _ _ => ⟨c, hsaved, hcount⟩⟩
  rw [hnone] at ha
  cases ha

lemma Sensible.withStatus (h : Sensible isAlphanumeric session) (status : TransferStatus) :
    Sensible isAlphanumeric { session with status := status } := ⟨h.valid, h.needed⟩

lemma HasSession.map (h : HasSession transferId (some session) e)
    (f : TransferSession → TransferSession) :
    HasSession transferId (some (f session)) (e.onSession transferId f) := by
  rw [HasSession, lookup_onSession, show e.activeTransfers.lookup transferId = some session from h]
  rfl

/-- **A transfer that misses nothing is completed.** -/
theorem Triple.completeTransfer (hreq : Requests call transferId)
    (hsensible : Sensible isAlphanumeric session) (hmissing : session.missing = []) :
    Triple isAlphanumeric blake3 call transferId (HasSession transferId (some session))
      (completeTransfer transferId) (fun _ e => FitsAt isAlphanumeric e transferId) := by
  have hmay : ∀ {op A}, op ≠ .enter → May isAlphanumeric call op transferId A :=
    fun h => .inl (hreq _ h)
  have hfits : ∀ e, Has transferId
      (fun s a _ => s = some { session with status := .completed } ∧ a = none) e →
        FitsAt isAlphanumeric e transferId := fun e h =>
    fitsAt_of_completed (hsensible.withStatus .completed) hmissing (.inl rfl) h
  have hstable : Stable (Has transferId
      (fun s a _ => s = some { session with status := .completed } ∧ a = none)) :=
    stable_has fun h _ => ⟨h.1, rfl⟩
  -- the session first
  refine .seq (B := fun _ => HasSession transferId (some { session with status := .completed }))
    (.action stable_hasSession (hmay (by simp)) fun _ e _ he _ =>
      ⟨onlyChanges_onSession, (), rfl, he.map _⟩) (fun _ => ?_)
  unfold ResumableTransferManager.completeTransfer
  rw [onManager_bind]
  refine .seq (B := fun c e => (∀ c' ∈ c, TransferCheckpoint.transferId c' = transferId) ∧
    Has transferId (fun s a _ => s = some { session with status := .completed } ∧ a = none) e)
      (.onTransfer stable_hasSession (hmay (by simp))
        (fun _ e he _ hnone => ⟨none, rfl, by simp, he, hnone⟩)
        fun clock e transfer he _ hid => ⟨onlyChanges_withoutTransfer, _, rfl, ?_, he,
          ResumableTransferManager.lookup_withoutTransfer⟩)
      fun c => .of_fact fun hid => ?_
  · rintro c hc
    obtain rfl := Option.some.inj hc
    exact hid
  · cases c with
    | none => exact .ret hfits
    | some c =>
      rw [onManager_bind]
      refine .seq (B := fun _ => Has transferId (fun s a _ =>
        s = some { session with status := .completed } ∧ a = none))
          (.saveCheckpoint hstable (hmay (by simp)) (hid c rfl) fun e he => ⟨(), rfl, he⟩)
          fun _ => ?_
      unfold onManager
      rw [zoom_atom]
      exact .action hstable (hmay (by simp)) fun _ e _ he _ => ⟨onlyChanges_removals, hfits _ he⟩

lemma may_of_requests (hreq : Requests call transferId ∨ s = none) (hop : op ≠ .enter)
    (hA : ∀ e, A e → HasSession transferId s e) :
    May isAlphanumeric call op transferId A := by
  obtain hreq | rfl := hreq
  · exact .inl (hreq op hop)
  · exact .inr fun e he => fitsAt_of_forgotten (hA e he)

/-- The manager has recorded that a transfer has failed, and its checkpoint is to be saved. -/
def Failed (max : UInt32) (c : Option TransferCheckpoint) (a : Option ActiveTransfer) : Prop :=
  ∃ c', c = some c' ∧ (a = none → max ≤ c'.retryCount) ∧
    ∀ transfer ∈ a, transfer.status = .failed

lemma stable_failed {c : Option TransferCheckpoint} :
    Stable (Has transferId fun s' a max => s' = s ∧ (s ≠ none → Failed max c a)) := by
  refine stable_has fun {s' transfer max} h hwhy => ⟨h.1, fun hs => ?_⟩
  obtain ⟨c', -, -, hfailed⟩ := h.2 hs
  obtain hnone | hactive := hwhy
  · exact absurd (h.1.symm.trans hnone) hs
  · rw [hfailed transfer rfl] at hactive
    cases hactive

lemma smooth_failTransfer {i : EngineInput} :
    Smooth isAlphanumeric blake3 (.call call (.manager (.failTransfer transferId))) e i ↔
      (transferId ∈ e.activeTransfers → transferId ∈ e.resumableManager.activeTransfers) := by
  cases call <;> rfl

/-- **A transfer that fails** has stopped, or has failed too often. -/
theorem Triple.failTransfer (hreq : Requests call transferId ∨ s = none)
    (hask : ∀ session ∈ s, Askable isAlphanumeric session)
    (hmissing : ∀ session ∈ s, session.missing ≠ []) :
    Triple isAlphanumeric blake3 call transferId (HasSession transferId s)
      (onManager (ResumableTransferManager.failTransfer transferId))
      (Ok fun _ e => FitsAt isAlphanumeric e transferId) := by
  unfold ResumableTransferManager.failTransfer
  rw [onManager_bind]
  refine .seq (B := fun c e => (∀ c' ∈ c, TransferCheckpoint.transferId c' = transferId) ∧
      Has transferId (fun s' a max => s' = s ∧ (s ≠ none → Failed max c a)) e)
    (.onTransfer stable_hasSession (may_of_requests hreq (by simp) fun e he => he)
      (fun i e he hsmooth hnone => ⟨none, rfl, by simp, he, fun hs => ?_⟩)
      fun clock e transfer he hactive hid => ?_) fun c => .of_fact fun hid => ?_
  · -- the manager still has a transfer that has a session
    obtain ⟨session, rfl⟩ := Option.ne_none_iff_exists'.mp hs
    obtain ⟨transfer, hactive⟩ := Finmap.mem_iff.mp
      (smooth_failTransfer.mp hsmooth (Finmap.mem_of_lookup_eq_some he))
    rw [hnone] at hactive
    cases hactive
  · have hc : ∀ c' ∈ some (transfer.retried.stamp clock.utc).checkpoint,
        TransferCheckpoint.transferId c' = transferId := by
      intro c' hc
      obtain rfl := Option.some.inj hc
      exact hid
    dsimp only
    split
    · next hmax =>
      refine ⟨onlyChanges_withoutTransfer, _, rfl, hc, he, fun _ => ⟨_, rfl, fun _ => hmax,
        fun transfer ht => ?_⟩⟩
      rw [ResumableTransferManager.lookup_withoutTransfer] at ht
      cases ht
    · refine ⟨onlyChanges_withTransfer hid, _, rfl, hc, he, fun _ => ⟨_, rfl, fun hnone => ?_,
        fun transfer ht => ?_⟩⟩
      · rw [ResumableTransferManager.lookup_withTransfer] at hnone
        cases hnone
      · rw [ResumableTransferManager.lookup_withTransfer] at ht
        obtain rfl := Option.some.inj ht
        rfl
  · refine .saveIfAny stable_failed (fun c' => may_of_requests hreq (by simp) fun e he => he.1) hid
      (fun hc e he => ⟨(), rfl, ?_⟩) fun c' hc e he => ⟨(), rfl, ?_⟩
    · cases s with
      | none => exact fitsAt_of_forgotten he.1
      | some session =>
        obtain ⟨c', hc', -⟩ := he.2 (by simp)
        rw [hc] at hc'
        cases hc'
    · cases s with
      | none => exact fitsAt_of_forgotten he.1
      | some session =>
        obtain ⟨c'', hc'', hcount, hfailed⟩ := he.2 (by simp)
        obtain rfl := Option.some.inj (hc''.symm.trans hc)
        have hs := he.1
        cases hactive : e.resumableManager.activeTransfers.lookup transferId with
        | none =>
          exact fitsAt_of_exhausted (by rwa [hs]) (by rwa [hs]) hactive (Finmap.lookup_insert _)
            (hcount hactive)
        | some transfer =>
          exact fitsAt_of_stopped (by rwa [hs]) (by rwa [hs]) hactive
            (.inr (hfailed transfer hactive))

lemma Triple.updateProgress {bytes offset : UInt64} (hreq : Requests call transferId) :
    Triple isAlphanumeric blake3 call transferId (HasSession transferId s)
      (onManager (ResumableTransferManager.updateProgress transferId bytes offset))
      (Ok fun _ => HasSession transferId s) := by
  unfold ResumableTransferManager.updateProgress
  rw [onManager_bind]
  refine .seq (B := fun c e => (∀ c' ∈ c, TransferCheckpoint.transferId c' = transferId) ∧
      HasSession transferId s e)
    (.onTransfer stable_hasSession (.inl (hreq _ (by simp)))
      (fun _ e he _ _ => ⟨none, rfl, by simp, he⟩) fun clock e transfer he _ hid => ?_)
      fun c => .of_fact fun hid => ?_
  · dsimp only
    split
    · refine ⟨onlyChanges_withTransfer hid, _, rfl, fun c' hc => ?_, he⟩
      obtain rfl := Option.some.inj hc
      exact hid
    · exact ⟨onlyChanges_withTransfer hid, _, rfl, by simp, he⟩
  · exact .saveIfAny stable_hasSession (fun c' => .inl (hreq _ (by simp))) hid
      (fun _ e he => ⟨(), rfl, he⟩) fun c' _ e he => ⟨(), rfl, he⟩

lemma FitsAt.missing_ne {transfer : ActiveTransfer} (h : FitsAt isAlphanumeric e transferId)
    (hactive : e.resumableManager.activeTransfers.lookup transferId = some transfer) :
    ∀ session ∈ e.activeTransfers.lookup transferId, session.missing ≠ [] := by
  intro session hlookup hmissing
  rw [((h session hlookup).completed hmissing).1] at hactive
  cases hactive

lemma FitsAt.pause (h : FitsAt isAlphanumeric e transferId) : FitsAt isAlphanumeric
    (e.onSession transferId fun session => { session with status := .paused }) transferId := by
  intro session hlookup
  rw [lookup_onSession] at hlookup
  obtain ⟨old, hold, rfl⟩ := Option.map_eq_some_iff.mp hlookup
  have hfits := h old hold
  refine ⟨⟨hfits.withStatus .paused, hfits.empty⟩, fun hmissing => ⟨?_, .inr rfl⟩,
    fun hmissing {transfer} hactive => ?_, fun hmissing hnone => ?_⟩
  · rw [resumableManager_onSession]
    exact (hfits.completed hmissing).1
  · rw [resumableManager_onSession] at hactive
    exact hfits.stopped hmissing hactive
  · rw [resumableManager_onSession] at hnone ⊢
    exact hfits.exhausted hmissing hnone

lemma stable_fitsAt_kept {p : Prop} : Stable fun e => FitsAt isAlphanumeric e transferId ∧
    Has transferId (fun s a _ => p → s ≠ none → a ≠ none) e := by
  intro e e' hquiet h
  obtain ⟨hfits, hkept⟩ := h
  refine ⟨hfits.quiet hquiet, fun hp hs => ?_⟩
  rw [hquiet.sessions] at hs
  rw [hfits.lookup_eq hquiet hs]
  exact hkept hp hs

/-- **A transfer that is paused** still fits. -/
theorem Triple.pauseTransfer :
    Triple isAlphanumeric blake3 call transferId (fun e => FitsAt isAlphanumeric e transferId)
      (pauseTransfer transferId) (Ok fun _ e => FitsAt isAlphanumeric e transferId) := by
  refine .seq (B := fun _ e => FitsAt isAlphanumeric e transferId) (.action stable_fitsAt
    (.inr fun _ => id) fun _ e _ he _ => ⟨onlyChanges_onSession, (), rfl, he.pause⟩) fun _ => ?_
  unfold ResumableTransferManager.pauseTransfer
  rw [onManager_bind]
  refine .seq (B := fun c e => (∀ c' ∈ c, TransferCheckpoint.transferId c' = transferId) ∧
      FitsAt isAlphanumeric e transferId ∧
        Has transferId (fun s a _ => c ≠ none → s ≠ none → a ≠ none) e)
    (.onTransfer stable_fitsAt (.inr fun _ => id)
      (fun _ e he _ _ => ⟨none, rfl, by simp, he, fun h => absurd rfl h⟩)
      fun clock e transfer he hactive hid =>
        ⟨onlyChanges_withTransfer hid, _, rfl, fun c' hc => ?_, ?_, fun _ _ => ?_⟩) fun c => ?_
  · obtain rfl := Option.some.inj hc
    exact hid
  · exact fitsAt_of_stopped (fun session hs => (he session hs).toAskable) (he.missing_ne hactive)
      ResumableTransferManager.lookup_withTransfer (.inl rfl)
  · simp
  · refine .of_fact fun hid => .saveIfAny stable_fitsAt_kept
      (fun c' => .inr fun _ he => he.1) hid (fun _ e he => ⟨(), rfl, he.1⟩)
      fun c' hc e he => ⟨(), rfl, fun session hs => ?_⟩
    have hfits := he.1 session hs
    refine ⟨hfits.toAskable, hfits.completed, hfits.stopped, fun _ hnone => absurd hnone
      (he.2 (Option.ne_none_iff_exists'.mpr ⟨c', hc⟩) ?_)⟩
    exact Option.ne_none_iff_exists'.mpr ⟨session, hs⟩

/-! ### The requests for chunks -/

lemma mem_withChunks {hash : Bytes} :
    hash ∈ (withChunks blake3 session chunks).chunksReceived ↔
      hash ∈ session.chunksReceived ∨ ∃ chunk ∈ chunks, (blake3 chunk.data).asBytes = hash := by
  have hfold : ∀ received : HashMap Bytes ChunkData, hash ∈ chunks.foldl
      (fun received chunk => received.insert (blake3 chunk.data).asBytes chunk) received ↔
        hash ∈ received ∨ ∃ chunk ∈ chunks, (blake3 chunk.data).asBytes = hash := by
    induction chunks with
    | nil => simp
    | cons chunk rest ih =>
      intro received
      rw [List.foldl_cons, ih, Finmap.mem_insert]
      simp only [List.mem_cons, exists_eq_or_imp, eq_comm (a := hash)]
      tauto
  exact hfold session.chunksReceived

lemma mem_missing {hash : Bytes} :
    hash ∈ session.missing ↔ hash ∈ session.chunksNeeded ∧ hash ∉ session.chunksReceived := by
  simp [TransferSession.missing]

lemma Sensible.withChunks (h : Sensible isAlphanumeric session)
    (hwanted : ∀ chunk ∈ chunks, (blake3 chunk.data).asBytes ∈ session.missing) :
    Sensible isAlphanumeric (withChunks blake3 session chunks) := by
  refine ⟨h.valid, fun hash hmem => ?_⟩
  obtain hold | ⟨chunk, hchunk, rfl⟩ := mem_withChunks.mp hmem
  · exact h.needed hash hold
  · exact (mem_missing.mp (hwanted chunk hchunk)).1

/-- **A session that gets all the chunks it misses** misses nothing. -/
lemma missing_withChunks
    (hall : ∀ hash ∈ session.missing, ∃ chunk ∈ chunks, (blake3 chunk.data).asBytes = hash) :
    (QuicTransferEngine.withChunks blake3 session chunks).missing = [] := by
  refine List.eq_nil_iff_forall_not_mem.mpr fun hash hmem => ?_
  obtain ⟨hneeded, hnot⟩ := mem_missing.mp hmem
  rw [mem_withChunks, not_or] at hnot
  exact hnot.2 (hall hash (mem_missing.mpr ⟨hneeded, hnot.1⟩))

/-- **The count of the chunks** of a session that misses nothing is the count of the needed ones. -/
lemma Sensible.card_received (h : Sensible isAlphanumeric session)
    (hnodup : session.chunksNeeded.Nodup) (hmissing : session.missing = []) :
    session.chunksReceived.keys.card = session.chunksNeeded.length := by
  have hkeys : session.chunksReceived.keys = session.chunksNeeded.toFinset := by
    ext hash
    rw [Finmap.mem_keys, List.mem_toFinset]
    refine ⟨h.needed hash, fun hneeded => ?_⟩
    by_contra hnot
    have hmem := mem_missing.mpr ⟨hneeded, hnot⟩
    rw [hmissing] at hmem
    cases hmem
  rw [hkeys, List.toFinset_card_of_nodup hnodup]

lemma smooth_storeChunks {i : EngineInput} :
    Smooth isAlphanumeric blake3 (.call call (.storeChunks transferId chunks)) e i ↔
      ∀ session ∈ e.activeTransfers.lookup transferId, session.chunksNeeded.Nodup ∧
        ∀ hash ∈ session.missing, ∃ chunk ∈ chunks, (blake3 chunk.data).asBytes = hash := by
  cases call <;> rfl

/-- What is received are chunks that were asked for. -/
lemma Triple.receiveChunks {wanted : List Bytes} (hreq : Requests call transferId) (n : ℕ) :
    Triple isAlphanumeric blake3 call transferId (HasSession transferId s)
      (BatchTransferManager.receiveChunks blake3 wanted n)
      (Ok fun chunks e => (∀ chunk ∈ chunks, (blake3 chunk.data).asBytes ∈ wanted) ∧
        HasSession transferId s e) := by
  induction n with
  | zero => exact .ret fun e he => ⟨[], rfl, by simp, he⟩
  | succ n ih =>
    refine .seq (B := fun _ => HasSession transferId s)
      (.attempt (B := fun _ => HasSession transferId s)
        (.action stable_hasSession (.inl (hreq _ (by simp))) fun i e _ he _ => ?_)
        fun r e he => ⟨r, rfl, he⟩) fun r => ?_
    · dsimp only
      cases i.received with
      | error err => exact ⟨.refl _ _, he⟩
      | ok chunk =>
        dsimp only
        split
        · exact ⟨onlyChanges_chunkCache, he⟩
        · exact ⟨.refl _ _, he⟩
    · cases r with
      | error err => exact .ret fun e he => ⟨[], rfl, by simp, he⟩
      | ok chunk =>
        refine .seq ih fun rest => .of_fact fun hrest => ?_
        split
        · next hmem => exact .ret fun e he => ⟨_, rfl, by simpa using ⟨hmem, hrest⟩, he⟩
        · exact .ret fun e he => ⟨_, rfl, hrest, he⟩

/-- What the request for chunks brings are chunks that were asked for. -/
lemma Triple.transferChunks {wanted : List Bytes} (hreq : Requests call transferId) :
    Triple isAlphanumeric blake3 call transferId (HasSession transferId s)
      (BatchTransferManager.transferChunks isAlphanumeric blake3 wanted)
      (fun r e => (∀ chunks, r = .ok chunks → ∀ chunk ∈ chunks,
        (blake3 chunk.data).asBytes ∈ wanted) ∧ HasSession transferId s e) := by
  refine .bind (B := fun _ => HasSession transferId s) ?_ (fun _ => ?_)
    fun err e he => ⟨by simp, he⟩
  · unfold sendWant
    split
    · exact .ret fun e he => he
    · exact .look stable_hasSession (.inl (hreq _ (by simp))) (fun _ _ => rfl) fun _ _ _ he => he
  · refine (Triple.receiveChunks hreq _).weaken (fun _ => id) ?_
    rintro r e ⟨chunks, rfl, hchunks, he⟩
    refine ⟨fun chunks' h => ?_, he⟩
    obtain rfl := Except.ok.inj h
    exact hchunks

/-- **A batch that has brought all missing chunks** completes the transfer. -/
theorem Triple.finishBatch (hreq : Requests call transferId)
    (hsensible : Sensible isAlphanumeric session)
    (hwanted : ∀ chunk ∈ chunks, (blake3 chunk.data).asBytes ∈ session.missing) :
    Triple isAlphanumeric blake3 call transferId (HasSession transferId (some session))
      (finishBatch blake3 transferId chunks) (fun _ e => FitsAt isAlphanumeric e transferId) := by
  refine .seq (B := fun _ e => (session.chunksNeeded.Nodup ∧
      (withChunks blake3 session chunks).missing = []) ∧
        HasSession transferId (some (withChunks blake3 session chunks)) e)
    (.action stable_hasSession (.inl (hreq _ (by simp))) fun i e _ he hsmooth =>
      ⟨onlyChanges_onSession, (), rfl, ?_, he.map _⟩)
    fun _ => .of_fact fun hall => ?_
  · obtain ⟨hnodup, hall⟩ := smooth_storeChunks.mp hsmooth session he
    exact ⟨hnodup, missing_withChunks hall⟩
  · obtain ⟨hnodup, hmissing⟩ := hall
    refine .seq (B := fun s e => s = some (withChunks blake3 session chunks) ∧
      HasSession transferId (some (withChunks blake3 session chunks)) e)
      (.look stable_hasSession (.inl (hreq _ (by simp))) (fun _ _ => rfl) fun i e _ he =>
        ⟨_, rfl, he, he⟩) fun s => .of_fact fun hs => ?_
    subst hs
    refine .seq (.updateProgress hreq) fun _ => ?_
    rw [if_pos]
    · exact .completeTransfer hreq (hsensible.withChunks hwanted) hmissing
    · exact (hsensible.withChunks hwanted).card_received hnodup hmissing

/-- **A request for the missing chunks** leaves a transfer completed, stopped or exhausted. -/
theorem Triple.transferChunksResumable (hreq : Requests call transferId)
    (hask : ∀ session ∈ s, Askable isAlphanumeric session) :
    Triple isAlphanumeric blake3 call transferId (HasSession transferId s)
      (transferChunksResumable isAlphanumeric blake3 transferId)
      (fun _ e => FitsAt isAlphanumeric e transferId) := by
  have hmay : ∀ {op A}, op ≠ .enter → May isAlphanumeric call op transferId A :=
    fun h => .inl (hreq _ h)
  cases s with
  | none =>
    refine .bind (B := fun r e => (∃ err, r = .error err) ∧ HasSession transferId none e)
      (.look stable_hasSession (hmay (by simp)) (fun _ e => ?_) fun _ e _ he => ⟨?_, he⟩)
      (fun a => .of_fact fun h => ?_) fun err e he => fitsAt_of_forgotten he.2
    · split <;> rfl
    · rw [show e.activeTransfers.lookup transferId = none from he]
      exact ⟨_, rfl⟩
    · obtain ⟨err, herr⟩ := h
      cases herr
  | some session =>
    have hask' := hask session rfl
    refine .seq (B := fun wanted e => wanted = session.missing ∧
      HasSession transferId (some session) e) (.look stable_hasSession (hmay (by simp))
        (fun _ e => ?_) fun _ e _ he => ⟨session.missing, ?_, rfl, he⟩)
        fun wanted => .of_fact fun hwanted => ?_
    · split <;> rfl
    · rw [show e.activeTransfers.lookup transferId = some session from he]
    · subst hwanted
      by_cases hmissing : session.missing = []
      · rw [if_pos hmissing]
        exact .completeTransfer hreq hask'.toSensible hmissing
      · rw [if_neg hmissing]
        refine .seq (.attempt (.transferChunks hreq) fun r e he => ⟨r, rfl, he⟩)
          fun r => .of_fact fun hchunks => ?_
        cases r with
        | ok chunks => exact .finishBatch hreq hask'.toSensible (hchunks chunks rfl)
        | error err =>
          refine .seq (.failTransfer (.inl hreq) hask ?_) fun _ => .ret fun _ => id
          rintro _ ⟨rfl⟩
          exact hmissing

/-! ### The calls -/

/-- All transfers fit before and after a call. -/
def Call (isAlphanumeric : Char → Bool) (blake3 : Bytes → ContentHash) (call : EngineCall)
    (t : EngineTask α) : Prop :=
  ∀ e, AllFit isAlphanumeric e →
    CallOutline isAlphanumeric blake3 call (fun _ => AllFit isAlphanumeric) t e

lemma Call.of_triple (h : Triple isAlphanumeric blake3 call transferId
    (fun e => FitsAt isAlphanumeric e transferId) t
    (fun _ e => FitsAt isAlphanumeric e transferId)) : Call isAlphanumeric blake3 call t :=
  fun e he => (h e (he.local (he.fits _))).mono fun _ _ he' => he'.allFit he'.here

lemma requests_start {totalSize : UInt64} {chunksNeeded : List Bytes} :
    Requests (.start transferId peerId filePath totalSize chunksNeeded) transferId := by
  intro op hop
  cases op <;> first | rfl | exact absurd rfl hop

lemma requests_resume : Requests (.resume transferId) transferId := by
  intro op hop
  cases op <;> first | rfl | exact absurd rfl hop

lemma Triple.register {totalSize : UInt64} (hreq : Requests call transferId) :
    Triple isAlphanumeric blake3 call transferId (fun _ => True)
      (onManager (ResumableTransferManager.startTransfer transferId peerId filePath totalSize))
      (Ok fun _ _ => True) := by
  have hstable : Stable fun _ => True := fun _ => id
  unfold ResumableTransferManager.startTransfer
  rw [onManager_bind]
  refine .seq (B := fun c _ => (∀ c' ∈ c, TransferCheckpoint.transferId c' = transferId) ∧ True) ?_
    fun c => .of_fact fun hc => ?_
  · unfold onManager ResumableTransferManager.loadCheckpoint
    rw [zoom_atom]
    exact .look hstable (.inl (hreq _ (by simp))) (fun _ _ => rfl)
      fun _ e hkeyed _ => ⟨_, rfl, fun c' hc' => hkeyed.saved hc', trivial⟩
  · dsimp only
    split
    · exact .ret fun e _ => ⟨(), rfl, trivial⟩
    · rw [onManager_bind]
      refine .seq (B := fun c' _ => TransferCheckpoint.transferId c' = transferId ∧ True) ?_
        fun c' => .of_fact fun hid => .saveCheckpoint hstable (.inl (hreq _ (by simp))) hid
          fun e _ => ⟨(), rfl, trivial⟩
      unfold onManager
      rw [zoom_atom]
      refine .action hstable (.inl (hreq _ (by simp))) fun i e _ _ _ => ?_
      have hid : ∀ default : TransferCheckpoint, default.transferId = transferId →
          (c.getD default).transferId = transferId := by
        intro default hdefault
        cases c with
        | none => exact hdefault
        | some c => exact hc c rfl
      exact ⟨onlyChanges_withTransfer (hid _ rfl), _, rfl, hid _ rfl, trivial⟩

/-- **A transfer that is started.** -/
lemma Triple.startTransfer {totalSize : UInt64} {chunksNeeded : List Bytes}
    (hreq : Requests call transferId)
    (hvalid : chunksNeeded ≠ [] → validateWant isAlphanumeric (wantOf chunksNeeded) = .ok ()) :
    Triple isAlphanumeric blake3 call transferId (fun _ => True)
      (startTransfer isAlphanumeric blake3 transferId peerId filePath totalSize chunksNeeded)
      (fun _ e => FitsAt isAlphanumeric e transferId) := by
  refine .seq (.register hreq) fun _ => .seq (B := fun _ => HasSession transferId (some {
      transferId := transferId
      peerId := peerId
      filePath := filePath
      totalSize := totalSize
      chunksNeeded := chunksNeeded
      chunksReceived := ∅
      status := .active })) (.action (fun _ => id) (.inl (hreq _ (by simp))) fun _ e _ he _ =>
        ⟨onlyChanges_sessions fun hne => Finmap.lookup_insert_of_ne _ hne, (), rfl,
          Finmap.lookup_insert _⟩) fun _ => .transferChunksResumable hreq ?_
  rintro _ ⟨rfl⟩
  exact ⟨⟨hvalid, fun hash h => absurd h Finmap.notMem_empty⟩, fun _ => rfl⟩

/-- The manager goes on with a transfer, and its missing chunks are requested. -/
lemma Triple.continueTransfer (hreq : Requests call transferId) :
    Triple isAlphanumeric blake3 call transferId (fun e => FitsAt isAlphanumeric e transferId)
      (onManager (ResumableTransferManager.resumeTransfer transferId) >>= fun _ =>
        QuicTransferEngine.transferChunksResumable isAlphanumeric blake3 transferId)
      (fun _ e => FitsAt isAlphanumeric e transferId) := by
  refine .bind (B := fun r e => (∃ s, (∀ session ∈ s, Askable isAlphanumeric session) ∧
    HasSession transferId s e) ∧ ((∃ err, r = .error err) → FitsAt isAlphanumeric e transferId)) ?_
      (fun _ => ?_) fun err e he => he.2 ⟨err, rfl⟩
  · unfold onManager ResumableTransferManager.resumeTransfer
    rw [zoom_atom]
    refine .action stable_fitsAt (.inl (hreq _ (by simp))) fun i e hkeyed he _ => ?_
    have hask : ∀ session ∈ e.activeTransfers.lookup transferId, Askable isAlphanumeric session :=
      fun session hs => (he session hs).toAskable
    cases hactive : e.resumableManager.activeTransfers.lookup transferId with
    | some transfer =>
      have hid := hkeyed.active hactive
      exact ⟨onlyChanges_withTransfer hid, ⟨_, hask, rfl⟩, fun h => by
        obtain ⟨_, h⟩ := h
        cases h⟩
    | none =>
      cases hsaved : e.resumableManager.checkpoints.lookup transferId with
      | some c =>
        have hid := hkeyed.saved hsaved
        exact ⟨onlyChanges_withTransfer hid, ⟨_, hask, rfl⟩, fun h => by
        obtain ⟨_, h⟩ := h
        cases h⟩
      | none => exact ⟨.refl _ _, ⟨_, hask, rfl⟩, fun _ => he⟩
  · exact (Triple.of_exists fun s => .of_fact fun hask =>
      .transferChunksResumable hreq hask).weaken (fun e he => he.1) fun _ _ => id

/-- **A transfer that is resumed.** -/
lemma Triple.resumeTransfer (hreq : Requests call transferId) :
    Triple isAlphanumeric blake3 call transferId (fun e => FitsAt isAlphanumeric e transferId)
      (resumeTransfer isAlphanumeric blake3 transferId)
      (fun _ e => FitsAt isAlphanumeric e transferId) := by
  refine .seq (B := fun _ e => FitsAt isAlphanumeric e transferId) ?_ fun status => ?_
  · unfold onManager ResumableTransferManager.getTransferStatus
    rw [zoom_atom]
    exact .look stable_fitsAt (.inl (hreq _ (by simp))) (fun _ _ => rfl) fun _ e _ he =>
      ⟨_, rfl, he⟩
  · split
    · exact .ret fun e => id
    · exact .continueTransfer hreq
    · exact .continueTransfer hreq
    · exact .ret fun e => id
    · exact .ret fun e => id
    · exact .ret fun e => id

/-- **A transfer that is cancelled.** -/
lemma Triple.cancelTransfer :
    Triple isAlphanumeric blake3 call transferId (fun e => FitsAt isAlphanumeric e transferId)
      (cancelTransfer transferId) (fun _ e => FitsAt isAlphanumeric e transferId) := by
  refine .seq (B := fun _ e => e.activeTransfers.lookup transferId = none)
    (.action stable_fitsAt (.inr fun _ => id) fun _ e _ he _ => ⟨onlyChanges_sessions fun hne =>
      Finmap.lookup_erase_ne hne, (), rfl, Finmap.lookup_erase _ _⟩) fun _ => ?_
  exact (Triple.failTransfer (s := none) (.inr rfl) (by simp) (by simp)).weaken
    (fun _ => id) fun _ _ => Ok.of_const

lemma Triple.getTransferProgress :
    Triple isAlphanumeric blake3 call transferId (fun e => FitsAt isAlphanumeric e transferId)
      (getTransferProgress transferId) (Ok fun _ e => FitsAt isAlphanumeric e transferId) := by
  refine .seq (B := fun _ e => FitsAt isAlphanumeric e transferId) ?_ fun status => ?_
  · unfold onManager ResumableTransferManager.getTransferStatus
    rw [zoom_atom]
    exact .look stable_fitsAt (.inr fun _ => id) (fun _ _ => rfl) fun _ e _ he => ⟨_, rfl, he⟩
  · split
    · exact .ret fun e he => ⟨_, rfl, he⟩
    · refine .seq (B := fun _ e => FitsAt isAlphanumeric e transferId) (.look stable_fitsAt
        (.inr fun _ => id) (fun _ _ => rfl) fun _ e _ he => ⟨_, rfl, he⟩) fun session => ?_
      split
      · exact .ret fun e he => ⟨_, rfl, he⟩
      · exact .ret fun e he => ⟨_, rfl, he⟩

/-- A call that comes in, where nothing is asked of it. -/
lemma Triple.enter {t : EngineTask Unit}
    (h : Triple isAlphanumeric blake3 call transferId
      (fun e => FitsAt isAlphanumeric e transferId) t
      (fun _ e => FitsAt isAlphanumeric e transferId)) :
    Triple isAlphanumeric blake3 call transferId (fun e => FitsAt isAlphanumeric e transferId)
      (atom .enter (fun _ e => (.ok (), e)) >>= fun _ => t)
      (fun _ e => FitsAt isAlphanumeric e transferId) :=
  .seq (B := fun _ e => FitsAt isAlphanumeric e transferId) (.look stable_fitsAt
    (.inr fun _ => id) (fun _ _ => rfl) fun _ _ _ he => ⟨(), rfl, he⟩) fun _ => h

/-- **All transfers fit after each call.** -/
theorem Call.enter (call : EngineCall) :
    Call isAlphanumeric blake3 call (enter isAlphanumeric blake3 call) := by
  cases call with
  | start transferId peerId filePath totalSize chunksNeeded =>
    exact .of_triple (.seq (B := fun _ _ => (chunksNeeded ≠ [] →
      validateWant isAlphanumeric (wantOf chunksNeeded) = .ok ()) ∧ True) (.action stable_fitsAt
        (.inr fun _ => id) fun _ e _ he hsmooth => ⟨.refl _ _, (), rfl, hsmooth, trivial⟩)
        fun _ => .of_fact fun hvalid => .startTransfer requests_start hvalid)
  | resume transferId => exact .of_triple (.enter (.resumeTransfer requests_resume))
  | pause transferId =>
    exact .of_triple (.enter (Triple.pauseTransfer.weaken (fun _ => id) fun _ _ => Ok.of_const))
  | cancel transferId => exact .of_triple (.enter .cancelTransfer)
  | progress transferId =>
    exact .of_triple (.enter (.seq .getTransferProgress fun _ => .ret fun _ => id))

end Calls

/-! ## The engine at work -/

section Runs

variable {isAlphanumeric blake3} {κ : Type} {e : QuicTransferEngine}

/-- **The calls, one after the other.** -/
theorem outline_serve {calls : List EngineCall} (h : AllFit isAlphanumeric e) :
    Outline (engineSpec isAlphanumeric blake3) (OthersFit isAlphanumeric)
      (fun _ => AllFit isAlphanumeric) (serve isAlphanumeric blake3 calls) e := by
  induction calls generalizing e with
  | nil => exact h
  | cons call rest ih =>
    refine .bind (.attempt (.relabel ((Call.enter call e h).mono fun r e' he' => ?_)))
    exact .bind ((ih he').mono fun r e'' he'' => by cases r <;> exact he'')

/-- What the background guarantees. -/
def backgroundSpec (isAlphanumeric : Char → Bool) (blake3 : Bytes → ContentHash) :
    Spec QuicTransferEngine EngineInput EngineLabel where
  env _ _ _ := True
  env_refl _ _ := trivial
  env_trans _ _ := trivial
  input := Smooth isAlphanumeric blake3
  guar _ := Quiet
  progress := False

/-- The removal of a checkpoint. -/
lemma quiet_removeCheckpoint {transferId : Text} {removals : List Text}
    (h : ∀ session ∈ e.activeTransfers.lookup transferId,
      session.missing = [] ∨ transferId ∈ e.resumableManager.activeTransfers) :
    Quiet e (e.withManager { e.resumableManager with
      checkpoints := e.resumableManager.checkpoints.erase transferId
      removals := removals }) where
  sessions := rfl
  active _ := .inl rfl
  maxRetryCount := rfl
  removed id := by
    by_cases hid : id = transferId
    · subst hid
      exact .inr (Finmap.lookup_erase _ _)
    · exact .inl (Finmap.lookup_erase_ne hid)
  kept {id session} hsession hmissing hnone := by
    by_cases hid : id = transferId
    · subst hid
      obtain hmissing' | hmem := h session hsession
      · exact absurd hmissing' hmissing
      · exact absurd hmem (Finmap.lookup_eq_none.mp hnone)
    · exact Finmap.lookup_erase_ne hid

/-- The cleanup of transfers. -/
lemma quiet_without {transferIds : List Text}
    (h : ∀ transferId ∈ transferIds, transferId ∈ e.activeTransfers →
      ∀ transfer ∈ e.resumableManager.activeTransfers.lookup transferId,
        transfer.status = .active) :
    Quiet e (e.withManager (e.resumableManager.without transferIds)) where
  sessions := rfl
  active id := by
    show (e.resumableManager.without transferIds).activeTransfers.lookup id = _ ∨
      (e.resumableManager.without transferIds).activeTransfers.lookup id = none ∧ _
    rw [ResumableTransferManager.lookup_without]
    split
    · next hid =>
      cases hactive : e.resumableManager.activeTransfers.lookup id with
      | none => exact .inl rfl
      | some transfer =>
        refine .inr ⟨rfl, ?_⟩
        by_cases hsession : id ∈ e.activeTransfers
        · exact .inr ⟨transfer, rfl, h id hid hsession transfer hactive⟩
        · exact .inl (Finmap.lookup_eq_none.mpr hsession)
    · exact .inl rfl
  maxRetryCount := ResumableTransferManager.maxRetryCount_without
  removed id := .inl (by rw [ResumableTransferManager.checkpoints_without])
  kept _ _ _ := by rw [ResumableTransferManager.checkpoints_without]

/-- **The background is quiet.** -/
theorem outline_attend (b : Background) :
    Outline (backgroundSpec isAlphanumeric blake3) (fun _ _ => True) (fun _ _ => True) (attend b)
      e := by
  cases b with
  | cleanup =>
    unfold attend ResumableTransferManager.cleanup
    dsimp only
    rw [zoom_bind, zoom_atom]
    refine .bind (.bind (.atom fun e' _ => ⟨trivial, fun i _ => ⟨.refl _, ?_⟩⟩))
    dsimp only
    split
    · exact trivial
    · rw [zoom_atom]
      exact .atom fun e'' _ => ⟨trivial, fun _ hi => ⟨quiet_without hi, trivial⟩⟩
  | removal transferId =>
    unfold attend ResumableTransferManager.removeLater
    refine .bind fun e' _ => ⟨trivial, fun _ i hi => ⟨quiet_removeCheckpoint hi, trivial⟩⟩

/-- The specification of each task. -/
def taskSpec (isAlphanumeric : Char → Bool) (blake3 : Bytes → ContentHash) :
    Option κ → Spec QuicTransferEngine EngineInput EngineLabel
  | none => engineSpec isAlphanumeric blake3
  | some _ => backgroundSpec isAlphanumeric blake3

/-- What holds before each action of a task. -/
def taskAssertion (isAlphanumeric : Char → Bool) :
    Option κ → EngineLabel → QuicTransferEngine → Prop
  | none => OthersFit isAlphanumeric
  | some _ => fun _ _ => True

/-- What holds when a task has ended. -/
def taskPost (isAlphanumeric : Char → Bool) :
    Option κ → Except QuicError (List (Except QuicError Unit)) → QuicTransferEngine → Prop
  | none => fun _ => AllFit isAlphanumeric
  | some _ => fun _ _ => True

/-- **Every step keeps the outlines** of the calls and of the background. -/
theorem outline_step [DecidableEq κ] {P P' : EnginePool κ} {t : Option κ} {i : EngineInput}
    (h : ∀ u, Outline (taskSpec isAlphanumeric blake3 u) (taskAssertion isAlphanumeric u)
      (taskPost isAlphanumeric u) (P.task u) P.state)
    (hsmooth : StepsSmoothly isAlphanumeric blake3 P t i) (hstep : Pool.Step P t i P') :
    ∀ u, Outline (taskSpec isAlphanumeric blake3 u) (taskAssertion isAlphanumeric u)
      (taskPost isAlphanumeric u) (P'.task u) P'.state := by
  refine Pool.outline_step h hstep (fun l hl => ?_) (fun u hne l hl hguar => ?_)
    fun u r e e' henv hpost => ?_
  · have hi := hsmooth l hl
    cases t with
    | none => exact hi
    | some k => exact hi
  · cases u with
    | some k => exact trivial
    | none =>
      cases t with
      | none => exact absurd rfl hne
      | some k => exact hguar
  · cases u with
    | some k => exact trivial
    | none => exact AllFit.quiet hpost henv

/-- A transfer that has stopped is resumed, and its chunks are requested. -/
lemma reaches_sendWant {transferId : Text} {session : TransferSession} {transfer : ActiveTransfer}
    (hactive : e.resumableManager.activeTransfers.lookup transferId = some transfer)
    (hstatus : transfer.status = .paused ∨ transfer.status = .failed)
    (hsession : e.activeTransfers.lookup transferId = some session)
    (hmissing : session.missing ≠ [])
    (hvalid : validateWant isAlphanumeric (wantOf session.missing) = .ok ()) :
    ResumeRequests isAlphanumeric blake3 e transferId session.missing := by
  have i : EngineInput :=
    { clock := ⟨0, 0, 0, ⟨Finset.toList, Finset.nodup_toList, Finset.mem_toList⟩⟩
      sent := .ok ()
      received := .error (.protocol "") }
  have hrequest : ∃ t e', Reaches (fun _ => True)
      (onManager (ResumableTransferManager.resumeTransfer transferId) >>= fun _ =>
        transferChunksResumable isAlphanumeric blake3 transferId) e t e' ∧
          t.head = some (.sendWant (wantOf session.missing)) := by
    unfold onManager ResumableTransferManager.resumeTransfer
    rw [zoom_atom]
    refine ⟨_, _, .atom_bind (i := i) (a := ()) trivial ?_
      (.atom_bind (i := i) (a := session.missing) trivial ?_ .refl), ?_⟩
    · dsimp only
      rw [hactive]
    · dsimp only
      rw [hactive, hsession]
    · rw [if_neg hmissing]
      unfold transferChunks sendWant
      rw [hvalid]
      rfl
  obtain ⟨t, e', hreaches, hhead⟩ := hrequest
  refine ⟨t, e', ?_, hhead⟩
  unfold resumeTransfer onManager ResumableTransferManager.getTransferStatus
  rw [zoom_atom]
  refine .atom_bind (i := i) (a := some (transfer.status, transfer.checkpoint.progress,
    calculateBandwidth transfer.bandwidthSamples)) trivial ?_ ?_
  · dsimp only
    rw [hactive]
    rfl
  · dsimp only [Option.map_some]
    rcases hstatus with h | h
    · rw [h]
      exact hreaches
    · rw [h]
      exact hreaches

/-- **A transfer that fits can be continued.** -/
theorem resumeRequests_of_fits {transferId : Text} {session : TransferSession}
    (h : Fits isAlphanumeric e transferId session)
    (hsession : e.activeTransfers.lookup transferId = some session)
    (hmissing : session.missing ≠ [])
    (hcount : retryCount e transferId < e.resumableManager.maxRetryCount) :
    ResumeRequests isAlphanumeric blake3 e transferId session.missing := by
  cases hactive : e.resumableManager.activeTransfers.lookup transferId with
  | none =>
    -- it has failed too often
    obtain ⟨c, hsaved, hmax⟩ := h.exhausted hmissing hactive
    rw [retryCount, hactive, hsaved] at hcount
    exact absurd hcount (UInt32.not_lt.mpr hmax)
  | some transfer =>
    have hneeded : session.missing = session.chunksNeeded := by
      simp [TransferSession.missing, h.empty hmissing, Finmap.notMem_empty]
    have hvalid : validateWant isAlphanumeric (wantOf session.missing) = .ok () := by
      rw [hneeded] at hmissing ⊢
      exact h.valid hmissing
    exact reaches_sendWant hactive (h.stopped hmissing hactive) hsession hmissing hvalid

lemma allFit_new : AllFit isAlphanumeric .new := by
  refine ⟨⟨fun {id transfer} h => ?_, fun {id c} h => ?_⟩, fun _ _ h => ?_⟩
  · cases h
  · cases h
  · cases h

/-- In every run whose steps are smooth, all transfers stay continuable if they all fit at first. -/
lemma continuable_of_allFit [DecidableEq κ] {P : EnginePool κ} {calls : List EngineCall}
    {background : κ → Background} (h : AllFit isAlphanumeric e)
    (hrun : Pool.Run (StepsSmoothly isAlphanumeric blake3)
      (engaged isAlphanumeric blake3 e calls background) P) :
    Continuable isAlphanumeric blake3 P := by
  have houtline : ∀ u, Outline (taskSpec isAlphanumeric blake3 u) (taskAssertion isAlphanumeric u)
      (taskPost isAlphanumeric u) (P.task u) P.state := by
    refine hrun.invariant (I := fun P => ∀ u, Outline (taskSpec isAlphanumeric blake3 u)
      (taskAssertion isAlphanumeric u) (taskPost isAlphanumeric u) (P.task u) P.state) (fun u => ?_)
        fun hI hC hstep => outline_step hI hC hstep
    cases u with
    | none => exact outline_serve h
    | some k => exact outline_attend _
  have hengine := houtline none
  intro transferId session hsession
  by_cases hreq : (P.task none).head.bind requesting = some transferId
  · exact .inl hreq
  have hfits : FitsAt isAlphanumeric P.state transferId := by
    cases htask : P.task none with
    | ret r =>
      rw [htask] at hengine
      exact AllFit.fits hengine transferId
    | act label ready eff next =>
      rw [htask] at hreq
      exact hengine.holds (by rw [htask]; rfl) transferId hreq
  exact .inr ⟨resumeRequests_of_fits (hfits session hsession) hsession,
    (hfits session hsession).completed⟩

/-- **Every unfinished transfer can be continued** in every run of a new engine whose steps are
smooth.

**Proof sketch.** While a call is under way, every transfer fits what the manager knows of it, but
the one whose chunks the call is to request; this is an outline of the calls. A transfer that fits
is completed when it misses nothing, and otherwise it has stopped, so that it can be resumed, or it
has failed too often. -/
theorem continuable_of_run [DecidableEq κ] {P : EnginePool κ} {calls : List EngineCall}
    {background : κ → Background} (hrun : Pool.Run (StepsSmoothly isAlphanumeric blake3)
      (engaged isAlphanumeric blake3 .new calls background) P) :
    Continuable isAlphanumeric blake3 P :=
  continuable_of_allFit allFit_new hrun

end Runs

/-! ## A transfer of two chunks -/

instance (label : EngineLabel) (e : QuicTransferEngine) (i : EngineInput) :
    Decidable (Smooth isAlphanumeric blake3 label e i) := by
  unfold Smooth
  split <;> infer_instance

instance {κ : Type} (P : EnginePool κ) (t : Option κ) (i : EngineInput) :
    Decidable (StepsSmoothly isAlphanumeric blake3 P t i) :=
  inferInstanceAs (Decidable (∀ label ∈ (P.task t).head,
    Smooth isAlphanumeric blake3 label P.state i))

/-- A hash that repeats a byte. -/
def repeated (byte : UInt8) : ContentHash := .fill byte

/-- The start of a transfer of two chunks. -/
def startTwo : EngineCall :=
  .start ['a'] ['p'] ['f'] 100 [(repeated 1).asBytes, (repeated 2).asBytes]

/-- What comes from outside when the connection is closed, and when it brings a chunk. -/
def outcome (received : Option Bytes) : EngineInput where
  clock := ⟨0, 0, 0, .sorted Text⟩
  sent := if received = none then .error (.stream "closed") else .ok ()
  received := match received with
    | none => .error (.stream "closed")
    | some data => .ok ⟨[], data, false, 1⟩

/-- A transfer that fails since nothing can be sent. It can be continued. -/
theorem continuable_of_run_startTwo : ∃ P : EnginePool Empty,
    Pool.Run (StepsSmoothly Char.isAlphanum fun data => repeated (data.headD 0))
      (engaged Char.isAlphanum (fun data => repeated (data.headD 0)) .new [startTwo] nofun) P ∧
    (P.state.activeTransfers.lookup ['a']).map TransferSession.missing =
      some [(repeated 1).asBytes, (repeated 2).asBytes] ∧
    Continuable Char.isAlphanum (fun data => repeated (data.headD 0)) P := by
  have hexec : (Pool.exec
      (StepsSmoothly Char.isAlphanum fun data => repeated (data.headD 0))
      (List.replicate 9 (none, outcome none))
      (engaged Char.isAlphanum (fun data => repeated (data.headD 0)) .new [startTwo]
        (nofun : Empty → Background))).map
          (fun P => (P.state.activeTransfers.lookup ['a']).map TransferSession.missing) =
        some (some [(repeated 1).asBytes, (repeated 2).asBytes]) := by
    decide +kernel
  obtain ⟨P, hP, hmissing⟩ := Option.map_eq_some_iff.mp hexec
  have hrun := Pool.run_of_exec hP
  exact ⟨P, hrun, hmissing, continuable_of_run hrun⟩

/-- **A transfer that is active is not resumed.** -/
lemma not_resumeRequests_of_active {isAlphanumeric : Char → Bool} {blake3 : Bytes → ContentHash}
    {e : QuicTransferEngine} {transferId : Text} {transfer : ActiveTransfer} {hashes : List Bytes}
    (hactive : e.resumableManager.activeTransfers.lookup transferId = some transfer)
    (hstatus : transfer.status = .active) :
    ¬ ResumeRequests isAlphanumeric blake3 e transferId hashes := by
  intro h
  obtain ⟨t, e', hreaches, hhead⟩ := h
  unfold resumeTransfer onManager ResumableTransferManager.getTransferStatus at hreaches
  rw [zoom_atom] at hreaches
  obtain rfl | ⟨i, hrest⟩ := hreaches.of_atom_bind
  · cases hhead
  · dsimp only at hrest
    rw [hactive, ret_ok_bind] at hrest
    dsimp only [Option.map_some] at hrest
    rw [hstatus] at hrest
    cases hrest with
    | refl => cases hhead

/-- **A transfer gets stuck.** The second of two chunks does not come. -/
theorem not_continuable_startTwo : ¬ ∀ P : EnginePool Empty, Pool.Run (fun _ _ _ => True)
    (engaged Char.isAlphanum (fun data => repeated (data.headD 0)) .new [startTwo] nofun) P →
      Continuable Char.isAlphanum (fun data => repeated (data.headD 0)) P := by
  have hexec : (Pool.exec (fun _ _ _ => True)
      (List.replicate 8 (none, outcome (some [1])) ++ List.replicate 4 (none, outcome none))
      (engaged Char.isAlphanum (fun data => repeated (data.headD 0)) .new [startTwo]
        (nofun : Empty → Background))).map
          (fun P => ((P.task none).head,
            (P.state.activeTransfers.lookup ['a']).map TransferSession.missing,
            (P.state.resumableManager.activeTransfers.lookup ['a']).map ActiveTransfer.status,
            decide (retryCount P.state ['a'] < P.state.resumableManager.maxRetryCount))) =
        some (none, some [(repeated 2).asBytes], some .active, true) := by
    decide +kernel
  intro h
  obtain ⟨P, hP, hfacts⟩ := Option.map_eq_some_iff.mp hexec
  simp only [Prod.mk.injEq] at hfacts
  obtain ⟨hhead, hmissing, hstatus, hcount⟩ := hfacts
  obtain ⟨session, hsession, hmissing⟩ := Option.map_eq_some_iff.mp hmissing
  obtain ⟨transfer, hactive, hstatus⟩ := Option.map_eq_some_iff.mp hstatus
  obtain hreq | ⟨hrequests, -⟩ := h P (Pool.run_of_exec hP) ['a'] session hsession
  · rw [hhead] at hreq
    cases hreq
  · exact not_resumeRequests_of_active hactive hstatus
      (hrequests (by simp [hmissing]) (of_decide_eq_true hcount))

end QuicTransferEngine

end Landropic
