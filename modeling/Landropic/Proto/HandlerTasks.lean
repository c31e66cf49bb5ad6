import Landropic.Foundations.Proc
import Landropic.Foundations.RwLock
import Landropic.Proto.SyncHandler

set_option autoImplicit false

/-!
# The protocol handler under locks

The handler keeps its state, its peer and the progress of its folders behind a lock each. A call
takes the locks it needs, and lets go of the state before it takes the state again for writing.

## Main definitions

* `HandlerLock`, `HandlerOp` — the locks, and what a call does.
* `SharedHandler` — a handler that several calls use.
* `HandlerTask.handleHello`, `handleFolderSummary`, `handleManifest`, `handleWant`,
  `handleChunkData`, `handleError` — the handlers, as processes.
* `HandlerCall.task` — any call, those that only look at the handler included.

## Main results

* `HandlerCall.ensures_task` — a call on its own does what the handler does at once.

## Design

A read guard shows the state as it was when the guard was taken. Guards that a function still holds
are dropped in the reverse order, also if it panics. The locks are fair, and a call that asks for
one takes it as soon as it is its turn.
-/

namespace Landropic

/-- The session has failed. -/
def SyncState.hasFailed : SyncState → Bool
  | failed _ => true
  | _ => false

/-- The locks of a handler. -/
inductive HandlerLock
  | state
  | peerInfo
  | folderProgress
  deriving DecidableEq

instance : Fintype HandlerLock where
  elems := {.state, .peerInfo, .folderProgress}
  complete lock := by cases lock <;> decide

/-- What a call is about to do. -/
inductive HandlerOp
  /-- Join the queue of a lock. -/
  | ask (lock : HandlerLock) (mode : LockMode)
  /-- Take a lock. -/
  | enter (lock : HandlerLock) (mode : LockMode)
  /-- Drop the guard of a lock. -/
  | leave (lock : HandlerLock)
  | readState
  | writeState (state : SyncState)
  /-- Anything that does not touch the state. -/
  | work
  deriving DecidableEq

/-- A handler that several calls use. -/
structure SharedHandler (κ : Type) where
  handler : SyncProtocolHandler
  locks : HandlerLock → RwLock κ

/-- Change a lock. -/
def SharedHandler.onLock {κ : Type} (s : SharedHandler κ) (lock : HandlerLock)
    (f : RwLock κ → RwLock κ) : SharedHandler κ :=
  { s with locks := Function.update s.locks lock (f (s.locks lock)) }

/-- A part of the code of a call. -/
abbrev HandlerTask (κ α : Type) :=
  Proc (SharedHandler κ) SyncProtocolHandler.Env HandlerOp (Stop ProtoError) α

namespace HandlerTask

open Proc SyncProtocolHandler

section Handlers

variable {κ α β : Type} [DecidableEq κ] (t : κ)

/-! ## The locks -/

/-- Wait for a lock and take it. -/
def acquire (lock : HandlerLock) (mode : LockMode) : HandlerTask κ Unit :=
  .act (.ask lock mode) (fun _ => true) (fun _ s => s.onLock lock fun L => L.ask t mode) fun _ _ =>
    .act (.enter lock mode) (fun s => (s.locks lock).canEnter t mode)
      (fun _ s => s.onLock lock fun L => L.enter t mode) fun _ _ => .ret (.ok ())

/-- Drop the guard of a lock. -/
def release (lock : HandlerLock) : HandlerTask κ Unit :=
  atom (.leave lock) fun _ s => (.ok (), s.onLock lock fun L => L.leave t)

/-- Look at the state. -/
def readState : HandlerTask κ SyncState := atom .readState fun _ s => (.ok s.handler.state, s)

/-- Set the state. -/
def writeState (state : SyncState) : HandlerTask κ Unit :=
  atom (.writeState state) fun _ s => (.ok (), { s with handler.state := state })

/-- Do what does not touch the state. -/
def work (f : Env → SyncProtocolHandler → α × SyncProtocolHandler) : HandlerTask κ α :=
  atom .work fun env s => (.ok (f env s.handler).1, { s with handler := (f env s.handler).2 })

/-! ## The handlers -/

/-- The error of a message that a state does not allow. -/
def unexpected (message : String) (state : SyncState) : ProtoError :=
  { errorType := .invalidRequest
    message := message.toList
    details := s!"Current state: {state.debug}".toList }

/-- Handle incoming `Hello` message. -/
def handleHello (hello : Hello) : HandlerTask κ Hello := do
  acquire t .state .write
  let state ← readState
  if state ≠ .waitingForHello then do
    release t .state
    fail (.err (unexpected "Unexpected Hello message" state))
  else if !VersionNegotiator.isCompatible hello.version then do
    writeState (.failed "Version incompatible".toList)
    release t .state
    fail (.err
      { errorType := .protocolVersionMismatch
        message := "Protocol version mismatch".toList
        details := (VersionNegotiator.compatibilityError hello.version).toList })
  else do
    let logsInfo ← work fun env h => (env.logsInfo, h)
    if logsInfo ∧ hello.deviceId.length < 8 then do
      release t .state
      fail .panic
    else do
      acquire t .peerInfo .write
      work fun _ h => ((),
        { h with
          peerInfo := some
            { deviceId := hello.deviceId
              deviceName := hello.deviceName
              version := hello.version
              capabilities := hello.capabilities } })
      release t .peerInfo
      writeState .connected
      let reply ← work fun env h => (h.createHello env, h)
      release t .state
      pure reply

/-- What the handlers of the messages about folders have in common: they check the state, and then
take and use the progress of the folders. -/
def onFolders (fits : SyncState → Bool) (message : String)
    (use : Env → SyncProtocolHandler → α × SyncProtocolHandler)
    (finish : SyncState → α → HandlerTask κ β) : HandlerTask κ β := do
  acquire t .state .read
  let state ← readState
  if fits state then do
    acquire t .folderProgress .write
    let result ← work use
    finish state result
  else do
    release t .state
    fail (.err (unexpected message state))

/-- The guards of the progress and of the state are dropped at the end of a function. -/
def releaseBoth : HandlerTask κ Unit := do
  release t .folderProgress
  release t .state

/-- Handle folder summary message. -/
def handleFolderSummary (summary : FolderSummary) : HandlerTask κ Unit :=
  onFolders t (fun state => state = .connected ∨ state = .syncing) "Not ready for folder sync"
    (fun _ h => ((),
      { h with
        folderProgress := h.folderProgress.insert summary.folderId (.new summary.folderId) }))
    fun state _ =>
      if state = .connected then do
        release t .state
        acquire t .state .write
        writeState .syncing
        release t .state
        release t .folderProgress
      else releaseBoth t

/-- Handle manifest message. -/
def handleManifest (manifest : ProtoManifest) : HandlerTask κ Want :=
  onFolders t (fun state => state = .syncing) "Not in syncing state"
    (fun env h =>
      ({ folderId := manifest.folderId
         chunkHashes := env.chunks.iter (allChunks manifest)
         priority := 1 },
        { h with
          folderProgress :=
            match h.folderProgress.lookup manifest.folderId with
            | some p => h.folderProgress.insert manifest.folderId
                { p with
                  totalChunks := (allChunks manifest).card
                  pendingChunks := allChunks manifest }
            | none => h.folderProgress }))
    fun _ want => do
      releaseBoth t
      pure want

/-- Handle `Want` message. -/
def handleWant (want : Want) : HandlerTask κ (List ChunkData) :=
  onFolders t (fun state => state = .syncing) "Not in syncing state"
    (fun _ h => ((),
      { h with
        folderProgress :=
          match h.folderProgress.lookup want.folderId with
          | some p => h.folderProgress.insert want.folderId
              { p with sentChunks := p.sentChunks + want.chunkHashes.length }
          | none => h.folderProgress }))
    fun _ _ => do
      releaseBoth t
      pure []

/-- Handle chunk data received. -/
def handleChunkData (chunk : ChunkData) : HandlerTask κ Ack :=
  onFolders t (fun state => state = .syncing) "Not in syncing state"
    (fun env h =>
      let progress :=
        receiveFirst chunk.hash h.folderProgress (env.folders.entries h.folderProgress)
      let allComplete := (env.folders.entries progress).all fun f => f.2.isComplete
      (decide (allComplete = true ∧ progress.keys ≠ ∅), { h with folderProgress := progress }))
    fun _ done => do
      if done then do
        release t .state
        release t .folderProgress
        acquire t .state .write
        writeState .completed
        release t .state
      else releaseBoth t
      pure
        { requestId := Hex.encode chunk.hash
          success := true
          message := "Chunk received".toList }

/-- Handle error message. -/
def handleError (error : ProtoError) : HandlerTask κ Unit := do
  acquire t .state .write
  writeState (.failed error.message)
  release t .state

/-- Look at the state alone. -/
def look (f : SyncState → α) : HandlerTask κ α := do
  acquire t .state .read
  let state ← readState
  release t .state
  pure (f state)

/-- Get current sync state. -/
def getState : HandlerTask κ SyncState := look t id

/-- Get sync progress for all folders. -/
def getProgress : HandlerTask κ (HashMap Text FolderSyncProgress) := do
  acquire t .folderProgress .read
  let progress ← work fun _ h => (h.folderProgress, h)
  release t .folderProgress
  pure progress

/-- Check if sync is complete. -/
def isComplete : HandlerTask κ Bool := look t fun state => state = .completed

/-- Check if sync has failed. -/
def isFailed : HandlerTask κ Bool := look t SyncState.hasFailed

end Handlers

end HandlerTask

/-! ## Calls -/

/-- A call of a handler. -/
inductive HandlerCall
  | hello (m : Hello)
  | folderSummary (m : FolderSummary)
  | manifest (m : ProtoManifest)
  | want (m : Want)
  | chunkData (m : ChunkData)
  | error (m : ProtoError)
  | state
  | progress
  | isComplete
  | isFailed

/-- What a call returns. -/
inductive HandlerReply
  | none
  | hello (m : Hello)
  | want (m : Want)
  | chunks (m : List ChunkData)
  | ack (m : Ack)
  | state (state : SyncState)
  | progress (progress : HashMap Text FolderSyncProgress)
  | flag (flag : Bool)

namespace HandlerCall

open Proc SyncProtocolHandler

variable {κ : Type} [DecidableEq κ]

/-- The code of a call. -/
def task (t : κ) : HandlerCall → HandlerTask κ HandlerReply
  | hello m => do return .hello (← HandlerTask.handleHello t m)
  | folderSummary m => do
    HandlerTask.handleFolderSummary t m
    return .none
  | manifest m => do return .want (← HandlerTask.handleManifest t m)
  | want m => do return .chunks (← HandlerTask.handleWant t m)
  | chunkData m => do return .ack (← HandlerTask.handleChunkData t m)
  | error m => do
    HandlerTask.handleError t m
    return .none
  | state => do return .state (← HandlerTask.getState t)
  | progress => do return .progress (← HandlerTask.getProgress t)
  | isComplete => do return .flag (← HandlerTask.isComplete t)
  | isFailed => do return .flag (← HandlerTask.isFailed t)

/-- What the handler does if a call is its only one. -/
def apply (env : Env) (h : SyncProtocolHandler) :
    HandlerCall → Except (Stop ProtoError) HandlerReply × SyncProtocolHandler
  | hello m => ((h.handleHello env m).1.map .hello, (h.handleHello env m).2)
  | folderSummary m =>
    ((h.handleFolderSummary m).1.map fun _ => .none, (h.handleFolderSummary m).2)
  | manifest m => ((h.handleManifest env m).1.map .want, (h.handleManifest env m).2)
  | want m => ((h.handleWant m).1.map .chunks, (h.handleWant m).2)
  | chunkData m => ((h.handleChunkData env m).1.map .ack, (h.handleChunkData env m).2)
  | error m => (.ok .none, h.handleError m)
  | state => (.ok (.state h.state), h)
  | progress => (.ok (.progress h.folderProgress), h)
  | isComplete => (.ok (.flag (h.state = .completed)), h)
  | isFailed => (.ok (.flag h.state.hasFailed), h)

end HandlerCall

/-! ## A call on its own -/

namespace HandlerTask

open Proc SyncProtocolHandler

section Alone

variable {κ α β : Type} {t : κ} {env : Env} {h : SyncProtocolHandler} {lock : HandlerLock}
  {mode : LockMode} {L : HandlerLock → Option LockMode}

/-- Locks that only one call holds. -/
def mine (t : κ) (L : HandlerLock → Option LockMode) : HandlerLock → RwLock κ :=
  fun lock => ⟨(L lock).toList.map fun mode => (t, mode), []⟩

lemma update_mine (held : Option LockMode) :
    Function.update (mine t L) lock ⟨held.toList.map fun mode => (t, mode), []⟩ =
      mine t (Function.update L lock held) := by
  funext l
  by_cases hl : l = lock
  · subst hl
    simp [mine]
  · simp [mine, hl]

variable {Q : Except (Stop ProtoError) α → SharedHandler κ → Prop}

lemma wp_readState {Q : Except (Stop ProtoError) SyncState → SharedHandler κ → Prop}
    {s : SharedHandler κ} (hQ : Q (.ok s.handler.state) s) :
    wp (.alone HandlerOp (· = env)) Q readState s :=
  wp_atom fun s' hs _ _ => by
    obtain rfl : s = s' := hs
    exact ⟨trivial, hQ⟩

lemma wp_writeState {Q : Except (Stop ProtoError) Unit → SharedHandler κ → Prop} {state : SyncState}
    (hQ : Q (.ok ()) ⟨{ h with state := state }, mine t L⟩) :
    wp (.alone HandlerOp (· = env)) Q (writeState state) ⟨h, mine t L⟩ :=
  wp_atom fun s' hs _ _ => by
    obtain rfl : ⟨h, mine t L⟩ = s' := hs
    exact ⟨trivial, hQ⟩

lemma wp_work {f : Env → SyncProtocolHandler → α × SyncProtocolHandler}
    (hQ : Q (.ok (f env h).1) ⟨(f env h).2, mine t L⟩) :
    wp (.alone HandlerOp (· = env)) Q (work f) ⟨h, mine t L⟩ :=
  wp_atom fun s' hs i hi => by
    obtain rfl : ⟨h, mine t L⟩ = s' := hs
    obtain rfl : i = env := hi
    exact ⟨trivial, hQ⟩

variable [DecidableEq κ] {R : Except (Stop ProtoError) Unit → SharedHandler κ → Prop}

lemma wp_acquire (hfree : L lock = none)
    (hR : R (.ok ()) ⟨h, mine t (Function.update L lock (some mode))⟩) :
    wp (.alone HandlerOp (· = env)) R (acquire t lock mode) ⟨h, mine t L⟩ := by
  have hqueue : (mine t L lock).queue = [] := rfl
  have hheld : (mine t L lock).held = [] := by simp [mine, hfree]
  intro s hs
  obtain rfl := hs
  refine ⟨fun _ => rfl, fun _ i _ => ⟨trivial, fun s hs => ?_⟩⟩
  obtain rfl := hs
  have hturn : ((mine t L lock).ask t mode).canEnter t mode = true := by
    simp [RwLock.ask, RwLock.canEnter, RwLock.admits, hqueue, hheld]
  refine ⟨fun _ => by simpa [SharedHandler.onLock] using hturn, fun _ i _ => ⟨trivial, ?_⟩⟩
  have hlocks : Function.update (mine t L) lock (((mine t L lock).ask t mode).enter t mode) =
      mine t (Function.update L lock (some mode)) := by
    rw [← update_mine]
    simp [RwLock.ask, RwLock.enter, hqueue, hheld]
  rw [← hlocks] at hR
  simpa [wp, SharedHandler.onLock] using hR

lemma wp_release (hR : R (.ok ()) ⟨h, mine t (Function.update L lock none)⟩) :
    wp (.alone HandlerOp (· = env)) R (release t lock) ⟨h, mine t L⟩ := by
  have hlocks : Function.update (mine t L) lock ((mine t L lock).leave t) =
      mine t (Function.update L lock none) := by
    rw [← update_mine]
    cases hL : L lock with
    | none => simp [RwLock.leave, mine, hL]
    | some m => simp [RwLock.leave, mine, hL]
  refine wp_atom fun s' hs _ _ => ?_
  obtain rfl : ⟨h, mine t L⟩ = s' := hs
  rw [← hlocks] at hR
  exact ⟨trivial, hR⟩

/-- The call has returned what the handler would have returned, and holds no lock. -/
def Matches (result : Except (Stop ProtoError) α × SyncProtocolHandler)
    (r : Except (Stop ProtoError) α) (s : SharedHandler κ) : Prop :=
  (r, s.handler) = result ∧ s.locks = fun _ => .free

omit [DecidableEq κ] in
lemma matches_mk {r : Except (Stop ProtoError) α} (hL : ∀ lock, L lock = none) :
    Matches (r, h) r ⟨h, mine t L⟩ := by
  refine ⟨rfl, ?_⟩
  funext lock
  simp [mine, hL lock, RwLock.free]

lemma wp_handleHello (hello : Hello) : wp (.alone HandlerOp (· = env))
    (Matches (h.handleHello env hello)) (handleHello t hello) ⟨h, mine t fun _ => none⟩ := by
  refine wp_bind (wp_acquire rfl (wp_bind (wp_readState ?_)))
  unfold SyncProtocolHandler.handleHello
  dsimp only
  split_ifs with hstate hversion hpanic
  · exact wp_bind (wp_release (matches_mk fun lock => by cases lock <;> rfl))
  · refine wp_bind (wp_writeState (wp_bind (wp_release ?_)))
    exact matches_mk fun lock => by cases lock <;> rfl
  · refine wp_bind (wp_work ?_)
    dsimp only
    rw [if_pos hpanic]
    exact wp_bind (wp_release (matches_mk fun lock => by cases lock <;> rfl))
  · refine wp_bind (wp_work ?_)
    dsimp only
    rw [if_neg hpanic]
    refine wp_bind (wp_acquire rfl (wp_bind (wp_work (wp_bind (wp_release ?_)))))
    refine wp_bind (wp_writeState (wp_bind (wp_work (wp_bind (wp_release ?_)))))
    exact matches_mk fun lock => by cases lock <;> rfl

/-- The locks of a call that uses the folders. -/
abbrev both : HandlerLock → Option LockMode :=
  Function.update (Function.update (fun _ => none) .state (some .read)) .folderProgress
    (some .write)

lemma wp_onFolders {fits : SyncState → Bool} {message : String}
    {use : Env → SyncProtocolHandler → β × SyncProtocolHandler}
    {finish : SyncState → β → HandlerTask κ α}
    {result : Except (Stop ProtoError) α × SyncProtocolHandler}
    (hreject : fits h.state = false → result = (.error (.err (unexpected message h.state)), h))
    (hfinish : fits h.state = true → wp (.alone HandlerOp (· = env)) (Matches result)
      (finish h.state (use env h).1) ⟨(use env h).2, mine t both⟩) :
    wp (.alone HandlerOp (· = env)) (Matches result) (onFolders t fits message use finish)
      ⟨h, mine t fun _ => none⟩ := by
  refine wp_bind (wp_acquire rfl (wp_bind (wp_readState ?_)))
  dsimp only
  split_ifs with hfits
  · exact wp_bind (wp_acquire rfl (wp_bind (wp_work (hfinish hfits))))
  · rw [hreject (by simpa using hfits)]
    exact wp_bind (wp_release (matches_mk fun lock => by cases lock <;> rfl))

lemma wp_releaseBoth {k : HandlerTask κ α} (hk : wp (.alone HandlerOp (· = env)) Q k
    ⟨h, mine t fun _ => none⟩) :
    wp (.alone HandlerOp (· = env)) Q (releaseBoth t >>= fun _ => k) ⟨h, mine t both⟩ := by
  have hnone : Function.update (Function.update both .folderProgress none) .state none =
      fun _ => none := by
    funext lock
    cases lock
    all_goals rfl
  rw [← hnone] at hk
  exact wp_bind (wp_bind (wp_release (wp_release hk)))

lemma wp_handleFolderSummary (summary : FolderSummary) : wp (.alone HandlerOp (· = env))
    (Matches (h.handleFolderSummary summary)) (handleFolderSummary t summary)
    ⟨h, mine t fun _ => none⟩ := by
  refine wp_onFolders (fun hfits => ?_) fun hfits => ?_
  · exact if_pos (by simpa using hfits)
  · have hstate : ¬ (h.state ≠ .connected ∧ h.state ≠ .syncing) := by
      rw [decide_eq_true_eq] at hfits
      exact fun hnot => hfits.elim hnot.1 hnot.2
    rw [SyncProtocolHandler.handleFolderSummary, if_neg hstate]
    split_ifs with hconnected
    · refine wp_bind (wp_release (wp_bind (wp_acquire rfl (wp_bind (wp_writeState ?_)))))
      refine wp_bind (wp_release (wp_release ?_))
      exact matches_mk fun lock => by cases lock <;> rfl
    · exact wp_bind (wp_release (wp_release (matches_mk fun lock => by cases lock <;> rfl)))

lemma wp_handleManifest (manifest : ProtoManifest) : wp (.alone HandlerOp (· = env))
    (Matches (h.handleManifest env manifest)) (handleManifest t manifest)
    ⟨h, mine t fun _ => none⟩ := by
  refine wp_onFolders (fun hfits => ?_) fun hfits => ?_
  · exact if_pos (by simpa using hfits)
  · rw [SyncProtocolHandler.handleManifest, if_neg (by simpa using hfits)]
    exact wp_releaseBoth (matches_mk fun _ => rfl)

lemma wp_handleWant (want : Want) : wp (.alone HandlerOp (· = env))
    (Matches (h.handleWant want)) (handleWant t want) ⟨h, mine t fun _ => none⟩ := by
  refine wp_onFolders (fun hfits => ?_) fun hfits => ?_
  · exact if_pos (by simpa using hfits)
  · rw [SyncProtocolHandler.handleWant, if_neg (by simpa using hfits)]
    exact wp_releaseBoth (matches_mk fun _ => rfl)

lemma wp_handleChunkData (chunk : ChunkData) : wp (.alone HandlerOp (· = env))
    (Matches (h.handleChunkData env chunk)) (handleChunkData t chunk)
    ⟨h, mine t fun _ => none⟩ := by
  refine wp_onFolders (fun hfits => ?_) fun hfits => ?_
  · exact if_pos (by simpa using hfits)
  · rw [SyncProtocolHandler.handleChunkData, if_neg (by simpa using hfits)]
    simp only [decide_eq_true_eq]
    split_ifs with hdone
    · refine wp_bind (wp_release (wp_bind (wp_release (wp_bind (wp_acquire rfl ?_)))))
      refine wp_bind (wp_writeState (wp_bind (wp_release ?_)))
      exact matches_mk fun lock => by cases lock <;> rfl
    · exact wp_releaseBoth (matches_mk fun _ => rfl)

lemma wp_handleError (error : ProtoError) : wp (.alone HandlerOp (· = env))
    (Matches (.ok (), h.handleError error)) (handleError t error) ⟨h, mine t fun _ => none⟩ := by
  refine wp_bind (wp_acquire rfl (wp_bind (wp_writeState (wp_release ?_))))
  exact matches_mk fun lock => by cases lock <;> rfl

lemma wp_look (f : SyncState → α) : wp (.alone HandlerOp (· = env))
    (Matches (.ok (f h.state), h)) (look t f) ⟨h, mine t fun _ => none⟩ := by
  refine wp_bind (wp_acquire rfl (wp_bind (wp_readState (wp_bind (wp_release ?_)))))
  exact matches_mk fun lock => by cases lock <;> rfl

lemma wp_getState : wp (.alone HandlerOp (· = env)) (Matches (.ok h.state, h)) (getState t)
    ⟨h, mine t fun _ => none⟩ :=
  wp_look id

lemma wp_isComplete : wp (.alone HandlerOp (· = env))
    (Matches (.ok (decide (h.state = .completed)), h)) (isComplete t) ⟨h, mine t fun _ => none⟩ :=
  wp_look fun state => decide (state = .completed)

lemma wp_isFailed : wp (.alone HandlerOp (· = env)) (Matches (.ok h.state.hasFailed, h))
    (isFailed t) ⟨h, mine t fun _ => none⟩ :=
  wp_look _

lemma wp_getProgress : wp (.alone HandlerOp (· = env))
    (Matches (.ok h.folderProgress, h)) (getProgress t) ⟨h, mine t fun _ => none⟩ := by
  refine wp_bind (wp_acquire rfl (wp_bind (wp_work (wp_bind (wp_release ?_)))))
  exact matches_mk fun lock => by cases lock <;> rfl

omit [DecidableEq κ] in
/-- What a call makes of the result of its handler. -/
lemma wp_reply {p : HandlerTask κ β} {f : β → α} {s : SharedHandler κ}
    {result : Except (Stop ProtoError) β × SyncProtocolHandler}
    (hp : wp (.alone HandlerOp (· = env)) (Matches result) p s) :
    wp (.alone HandlerOp (· = env)) (Matches (result.1.map f, result.2))
      (p >>= fun b => pure (f b)) s := by
  refine wp_bind (wp_mono hp fun r s hr => ?_)
  obtain ⟨rfl, hlocks⟩ := hr
  cases r with
  | ok b => exact ⟨rfl, hlocks⟩
  | error e => exact ⟨rfl, hlocks⟩

end Alone

end HandlerTask

/-- **A call on its own** does what the handler does at once, and leaves the locks free.

**Proof sketch.** A lock that nobody holds is taken at once, and every lock that a call has taken is
dropped, whichever way it ends. -/
theorem HandlerCall.ensures_task {κ : Type} [DecidableEq κ] (t : κ) (env : SyncProtocolHandler.Env)
    (h : SyncProtocolHandler) (call : HandlerCall) :
    Proc.Ensures (· = env) (HandlerTask.Matches (call.apply env h)) (call.task t)
      ⟨h, fun _ => .free⟩ := by
  refine Proc.ensures_of_wp ⟨env, rfl⟩ ?_
  cases call with
  | hello m => exact HandlerTask.wp_reply (HandlerTask.wp_handleHello m)
  | folderSummary m => exact HandlerTask.wp_reply (HandlerTask.wp_handleFolderSummary m)
  | manifest m => exact HandlerTask.wp_reply (HandlerTask.wp_handleManifest m)
  | want m => exact HandlerTask.wp_reply (HandlerTask.wp_handleWant m)
  | chunkData m => exact HandlerTask.wp_reply (HandlerTask.wp_handleChunkData m)
  | error m =>
    exact HandlerTask.wp_reply (f := fun _ => HandlerReply.none)
      (HandlerTask.wp_handleError (h := h) m)
  | state => exact HandlerTask.wp_reply HandlerTask.wp_getState
  | progress => exact HandlerTask.wp_reply (HandlerTask.wp_getProgress (t := t))
  | isComplete => exact HandlerTask.wp_reply HandlerTask.wp_isComplete
  | isFailed => exact HandlerTask.wp_reply HandlerTask.wp_isFailed

end Landropic
