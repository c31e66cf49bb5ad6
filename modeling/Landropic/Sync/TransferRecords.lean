import Landropic.Sync.QuicTransport
import Landropic.Sync.SessionPersistence

set_option autoImplicit false

/-!
# Where transfers are recorded

A sync session over a connection is recorded under an id that ends in a fresh UUID. The results of
its transfers are recorded under an id that ends in the id of the peer, and the result of a chunk
that could not be sent has lost its hash. So no result reaches the record of its session.

## Main definitions

* `SyncRun` — a sync session, and how the sending of its chunks goes.
* `SyncRun.streamChunks` — the results of a transfer in the order they arrive.
* `SyncPersistenceManager.startSync` — what a session records.
* `SyncPersistenceManager.RightlyRecorded` — the results reach the record of their session and no
  other one.

## Main results

* `SyncPersistenceManager.rightlyRecorded_iff` — which sessions are recorded rightly.

## Design

The handshake and the exchange of manifests, which come between the start of a record and the
transfer, do not touch the records. The chunks that are transferred are a parameter, and so is the
outcome of every attempt to send one. Any number of sessions use the same records at once.
-/

namespace Landropic

/-- A universally unique id. -/
structure Uuid where
  bytes : Bytes
  length_bytes : bytes.length = 16

/-- The text of a UUID: hexadecimal digits in groups of 8, 4, 4, 4 and 12. -/
def Uuid.display (id : Uuid) : Text :=
  let digits := Hex.encode id.bytes
  digits.take 8 ++ '-' :: ((digits.drop 8).take 4 ++ '-' :: ((digits.drop 12).take 4 ++ '-' ::
    ((digits.drop 16).take 4 ++ '-' :: digits.drop 20)))

/-- The text of an error of the transport. -/
def QuicError.display : QuicError → String
  | stream msg => s!"Stream error: {msg}"
  | protocol msg => s!"Protocol error: {msg}"

/-- A sync session with a peer. -/
structure SyncRun where
  /-- The id that is drawn for the session. -/
  uuid : Uuid
  deviceId : Bytes
  folderPath : Text
  startedAt : DateTime
  /-- The hashes of the chunks to transfer. -/
  chunkHashes : List Bytes
  /-- The outcomes of the attempts to send a chunk, counted from one. -/
  send : ChunkData → ℕ → Except QuicError Unit
  /-- The chunks in the order in which their transfers end. -/
  arrival : List ChunkData
  arrival_perm : arrival.Perm (chunkHashes.map QuicTransport.chunkToTransfer)

namespace SyncRun

variable (run : SyncRun)

/-- The id of the session. -/
def sessionId : Text := "sync_".toList ++ run.uuid.display

/-- The id of the peer. -/
def peerId : Text := Hex.encode (run.deviceId.take 8)

/-- The id that the results of the transfer are recorded under. -/
def transferId : Text := "sync_".toList ++ run.peerId

/-- Maximum retransmission attempts, in the configuration for file sync. -/
def MAX_RETRANSMIT_ATTEMPTS : ℕ := 3

/-- Transfer a single chunk with retries: some attempts are left, and some are made. -/
def transferAttempts (chunk : ChunkData) :
    ℕ → ℕ → Option QuicError → Except QuicError TransferResult
  | 0, attempts, lastError =>
    let cause := (lastError.map QuicError.display).getD "Unknown error"
    .error (.stream s!"Failed to transfer chunk after {attempts} attempts: {cause}")
  | left + 1, attempts, _ =>
    match run.send chunk (attempts + 1) with
    | .ok () => .ok { chunkHash := chunk.hash, success := true }
    | .error e => transferAttempts chunk left (attempts + 1) (some e)

/-- Transfer a single chunk over a stream. -/
def transferChunkStream (chunk : ChunkData) : Except QuicError TransferResult :=
  run.transferAttempts chunk MAX_RETRANSMIT_ATTEMPTS 0 none

/-- The result that the task of a chunk sends: without the hash, if the transfer failed. -/
def chunkResult (chunk : ChunkData) : TransferResult :=
  match run.transferChunkStream chunk with
  | .ok result => result
  | .error _ => { chunkHash := [], success := false }

/-- Stream chunks. A channel for no results panics. -/
def streamChunks : Except (Stop QuicError) (List TransferResult) :=
  if run.chunkHashes = [] then .error .panic else .ok (run.arrival.map run.chunkResult)

/-- The chunk with the hash is sent by one of the attempts. -/
def Succeeds (hash : Bytes) : Prop :=
  ∃ n < MAX_RETRANSMIT_ATTEMPTS, run.send (QuicTransport.chunkToTransfer hash) (n + 1) = .ok ()

variable {run}

lemma sessionId_ne_transferId (run other : SyncRun) : run.sessionId ≠ other.transferId := by
  intro heq
  have hmem : '-' ∈ run.uuid.display := by simp [Uuid.display]
  have hdisplay : run.uuid.display = other.peerId := List.append_cancel_left heq
  rw [hdisplay] at hmem
  exact Hex.notMem_encode (by decide) hmem

end SyncRun

namespace SyncPersistenceManager

open Proc

variable (manager : SyncPersistenceManager)

/-- A part of the code of a session. -/
abbrev SyncTask := Proc PersistenceState PersistenceInput PersistenceOp (Stop SyncError) Unit

/-- The error of a call that records something. -/
def stopOf : PersistenceError → Stop SyncError
  | .storage text => .err (.storage (String.ofList text))

/-- Record the results of a transfer. Errors are only logged. -/
def recordResults (id : Text) : List TransferResult → SyncTask
  | [] => pure ()
  | result :: rest => do
    let _ ← (if result.success then
        manager.markChunkCompleted id (Hex.encode result.chunkHash)
          (UInt64.ofNat result.chunkHash.length)
      else manager.markChunkFailed id (Hex.encode result.chunkHash)).attempt
    recordResults id rest

/-- Transfer chunks, and record the results. -/
def transferChunks (run : SyncRun) : SyncTask :=
  match run.streamChunks with
  | .error .panic => .fail .panic
  | .error (.err e) => .fail (.err (.network s!"Failed to stream chunks: {e.display}"))
  | .ok results => manager.recordResults run.transferId results

/-- Start a sync session with a peer. -/
def startSync (run : SyncRun) : SyncTask := do
  (manager.startSession
    (.new run.startedAt run.sessionId run.peerId run.folderPath)).mapErr stopOf
  manager.transferChunks run

/-! ## The right record -/

/-- Sessions that use the same records. -/
abbrev SyncPool (κ : Type) :=
  Pool κ PersistenceState PersistenceInput PersistenceOp (Stop SyncError) Unit

variable {κ : Type}

/-- Any number of sessions at first. -/
def sharing (runs : κ → SyncRun) (s : PersistenceState) : SyncPool κ :=
  ⟨s, fun k => manager.startSync (runs k)⟩

/-- The record of a session has the chunk among those of a kind. -/
def HasChunk (kind : PersistedSyncSession → Finset Text) (s : PersistenceState) (id : Text)
    (hash : Bytes) : Prop :=
  ∃ session, s.sessions.lookup id = some session ∧ Hex.encode hash ∈ kind session

/-- **A session is recorded rightly**: whenever all its results have been recorded, the chunks that
were sent are completed in its record and the others failed, and it never touches another record. -/
structure RightlyRecorded [DecidableEq κ] (runs : κ → SyncRun) (s : PersistenceState) (k : κ) :
    Prop where
  completed : ∀ P, Pool.Run (fun _ _ _ => True) (manager.sharing runs s) P →
    P.task k = .ret (.ok ()) → ∀ hash ∈ (runs k).chunkHashes, (runs k).Succeeds hash →
      HasChunk PersistedSyncSession.completedChunks P.state (runs k).sessionId hash
  failed : ∀ P, Pool.Run (fun _ _ _ => True) (manager.sharing runs s) P →
    P.task k = .ret (.ok ()) → ∀ hash ∈ (runs k).chunkHashes, ¬ (runs k).Succeeds hash →
      HasChunk PersistedSyncSession.failedChunks P.state (runs k).sessionId hash
  elsewhere : ∀ P P' i, Pool.Run (fun _ _ _ => True) (manager.sharing runs s) P →
    Pool.Step P k i P' → ∀ id ≠ (runs k).sessionId,
      P'.state.sessions.lookup id = P.state.sessions.lookup id

variable {manager} {run : SyncRun} {s s' : PersistenceState} {id own : Text} {chunkHash : Text}

/-- Nothing refuses a file. -/
abbrev Welcome (i : PersistenceInput) : Prop := i.refused = none

lemma wp_alone {α ε : Type} {Q : Except ε α → PersistenceState → Prop} {label : PersistenceOp}
    {f : PersistenceInput → PersistenceState → Except ε α × PersistenceState}
    (h : ∀ i, Welcome i → Q (f i s).1 (f i s).2) :
    wp (.alone PersistenceOp Welcome) Q (atom label f) s :=
  wp_atom fun _ hs i hi => hs ▸ ⟨trivial, h i hi⟩

lemma wp_saveSession : wp (.alone PersistenceOp Welcome)
    (fun r s' => r = .ok () ∧ s'.sessions = s.sessions) (manager.saveSession id) s := by
  refine wp_bind (wp_alone fun i _ => ?_)
  cases s.sessions.lookup id with
  | none => exact ⟨rfl, rfl⟩
  | some session =>
    refine wp_bind (wp_alone fun i hi => ?_)
    rw [hi]
    exact wp_alone fun _ _ => ⟨rfl, rfl⟩

lemma wp_startSession (session : PersistedSyncSession) : wp (.alone PersistenceOp Welcome)
    (fun r s' => r = .ok () ∧ s'.sessions = s.sessions.insert session.sessionId session)
    (manager.startSession session) s := by
  refine wp_bind (wp_alone fun _ _ => ?_)
  exact wp_bind (wp_alone fun _ _ => wp_saveSession)

lemma wp_markChunkCompleted (hown : own ≠ id) (chunkSize : UInt64) :
    wp (.alone PersistenceOp Welcome)
      (fun _ s' => s'.sessions.lookup own = s.sessions.lookup own)
      (manager.markChunkCompleted id chunkHash chunkSize) s := by
  refine wp_bind (wp_alone fun i _ => ?_)
  cases s.sessions.lookup id with
  | none => exact rfl
  | some session =>
    dsimp only
    split_ifs
    · refine wp_bind (wp_alone fun _ _ => wp_mono wp_saveSession fun r s' h => ?_)
      rw [h.2, Finmap.lookup_insert_of_ne _ hown]
    · exact Finmap.lookup_insert_of_ne _ hown

lemma wp_markChunkFailed (hown : own ≠ id) : wp (.alone PersistenceOp Welcome)
    (fun _ s' => s'.sessions.lookup own = s.sessions.lookup own)
    (manager.markChunkFailed id chunkHash) s := by
  refine wp_bind (wp_alone fun i _ => ?_)
  cases s.sessions.lookup id with
  | none => exact rfl
  | some session =>
    refine wp_mono wp_saveSession fun r s' h => ?_
    rw [h.2, Finmap.lookup_insert_of_ne _ hown]

lemma wp_recordResults (hown : own ≠ id) (results : List TransferResult) :
    wp (.alone PersistenceOp Welcome)
      (fun r s' => r = .ok () ∧ s'.sessions.lookup own = s.sessions.lookup own)
      (manager.recordResults id results) s := by
  induction results generalizing s with
  | nil => exact ⟨rfl, rfl⟩
  | cons result rest ih =>
    have hrest : ∀ s₁ : PersistenceState, s₁.sessions.lookup own = s.sessions.lookup own →
        wp (.alone PersistenceOp Welcome)
          (fun r s' => r = .ok () ∧ s'.sessions.lookup own = s.sessions.lookup own)
          (manager.recordResults id rest) s₁ := by
      intro s₁ h₁
      exact wp_mono ih fun r s' h => ⟨h.1, h.2.trans h₁⟩
    refine wp_bind (wp_attempt ?_)
    split_ifs
    · exact wp_mono (wp_markChunkCompleted hown _) fun _ s₁ h₁ => hrest s₁ h₁
    · exact wp_mono (wp_markChunkFailed hown) fun _ s₁ h₁ => hrest s₁ h₁

variable (manager) in
/-- **The record of a session stays as it was started**, while its chunks are transferred. -/
theorem exists_returns_startSync (hne : run.chunkHashes ≠ []) (s : PersistenceState) :
    ∃ s', Returns Welcome (manager.startSync run) s (.ok ()) s' ∧
      s'.sessions.lookup run.sessionId =
        some (.new run.startedAt run.sessionId run.peerId run.folderPath) := by
  have hwp : wp (.alone PersistenceOp Welcome)
      (fun r s' => r = .ok () ∧ s'.sessions.lookup run.sessionId =
        some (.new run.startedAt run.sessionId run.peerId run.folderPath))
      (manager.startSync run) s := by
    refine wp_bind (wp_mapErr (wp_mono (wp_startSession _) fun r s₁ h₁ => ?_))
    obtain ⟨rfl, hsessions⟩ := h₁
    have htransfer : manager.transferChunks run =
        manager.recordResults run.transferId (run.arrival.map run.chunkResult) := by
      simp [transferChunks, SyncRun.streamChunks, hne]
    show wp _ _ (manager.transferChunks run) s₁
    rw [htransfer]
    refine wp_mono (wp_recordResults (run.sessionId_ne_transferId run) _) fun r s' h => ?_
    refine ⟨h.1, h.2.trans ?_⟩
    rw [hsessions]
    exact Finmap.lookup_insert _
  have hinput : ∃ i, Welcome i := ⟨⟨⟨0, 0⟩, 0, none⟩, rfl⟩
  obtain ⟨r, s', hrun, rfl, hlookup⟩ := exists_returns hinput hwp
  exact ⟨s', hrun, hlookup⟩

/-! ## Which sessions are recorded rightly -/

section Right

variable [DecidableEq κ] {runs : κ → SyncRun} {k : κ}

variable (manager runs) in
/-- The session can run to its end while the others wait. -/
lemma exists_run_sharing (hne : (runs k).chunkHashes ≠ []) (s : PersistenceState) :
    ∃ P, Pool.Run (fun _ _ _ => True) (manager.sharing runs s) P ∧ P.task k = .ret (.ok ()) ∧
      P.state.sessions.lookup (runs k).sessionId = some (.new (runs k).startedAt (runs k).sessionId
        (runs k).peerId (runs k).folderPath) := by
  obtain ⟨s', hreturns, hlookup⟩ := exists_returns_startSync manager hne s
  obtain ⟨P, hrun, rfl, htask⟩ := Pool.exists_of_returns (t := k)
    (J := Pool.Run (fun _ _ _ => True) (manager.sharing runs s))
    (fun hrun hstep => hrun.tail ⟨(k, _), trivial, Pool.advance_of_step hstep⟩) hreturns
    Relation.ReflTransGen.refl rfl rfl
  exact ⟨P, hrun, htask, hlookup⟩

variable (manager) in
lemma guarantees_startSync (hnil : run.chunkHashes = []) :
    Guarantees (fun _ s s' => ∀ id ≠ run.sessionId, s'.sessions.lookup id = s.sessions.lookup id)
      (fun r => r ≠ .ok ()) (manager.startSync run) := by
  have htransfer : manager.transferChunks run = .fail .panic := by
    simp [transferChunks, SyncRun.streamChunks, hnil]
  have hsave : Guarantees (fun _ s s' => ∀ id ≠ run.sessionId,
      s'.sessions.lookup id = s.sessions.lookup id) (fun _ => True)
      (manager.saveSession run.sessionId) := by
    refine Guarantees.bind (Q := fun _ => True) (.atom fun i s => ⟨fun _ _ => rfl, trivial⟩)
      (fun _ _ => trivial) fun json _ => ?_
    cases json with
    | none => exact trivial
    | some content =>
      refine Guarantees.bind (Q := fun _ => True) (.atom fun i s => ⟨fun _ _ => ?_, trivial⟩)
        (fun _ _ => trivial) fun _ _ => .atom fun i s => ⟨fun _ _ => rfl, trivial⟩
      cases i.refused with
      | none => rfl
      | some e => rfl
  refine Guarantees.bind (Q := fun _ => True) (.mapErr (Q := fun _ => True) ?_
    (fun _ _ => trivial) fun _ _ => trivial) (fun e _ => by simp) fun _ _ => ?_
  · refine Guarantees.bind (Q := fun _ => True) (.atom fun i s => ⟨fun id hid => ?_, trivial⟩)
      (fun _ _ => trivial) fun _ _ => ?_
    · exact Finmap.lookup_insert_of_ne _ hid
    · exact Guarantees.bind (Q := fun _ => True) (.atom fun i s => ⟨fun _ _ => rfl, trivial⟩)
        (fun _ _ => trivial) fun _ _ => hsave
  · rw [htransfer]
    intro h
    cases h

/-- **Which sessions are recorded rightly**: those without chunks.

**Proof sketch.** The session runs to its end while the others wait. Its results are recorded under
an id that is not its own, so its record stays as it was started, and has none of its chunks. A
session without chunks never has results, and changes its own record only. -/
theorem rightlyRecorded_iff (manager : SyncPersistenceManager) (runs : κ → SyncRun)
    (s : PersistenceState) (k : κ) :
    manager.RightlyRecorded runs s k ↔ (runs k).chunkHashes = [] := by
  constructor
  · intro h
    by_contra hne
    obtain ⟨P, hrun, htask, hlookup⟩ := exists_run_sharing manager runs hne s
    obtain ⟨hash, hhash⟩ := List.exists_mem_of_ne_nil _ hne
    by_cases hsucceeds : (runs k).Succeeds hash
    · obtain ⟨session, hsession, hmem⟩ := h.completed P hrun htask hash hhash hsucceeds
      rw [hlookup] at hsession
      obtain rfl := Option.some.inj hsession
      simp [PersistedSyncSession.new] at hmem
    · obtain ⟨session, hsession, hmem⟩ := h.failed P hrun htask hash hhash hsucceeds
      rw [hlookup] at hsession
      obtain rfl := Option.some.inj hsession
      simp [PersistedSyncSession.new] at hmem
  · intro hnil
    have hguarantees : ∀ P, Pool.Run (fun _ _ _ => True) (manager.sharing runs s) P →
        Guarantees (fun _ s s' => ∀ id ≠ (runs k).sessionId,
          s'.sessions.lookup id = s.sessions.lookup id) (fun r => r ≠ .ok ()) (P.task k) := by
      intro P hrun
      refine hrun.invariant (I := fun P => Guarantees _ _ (P.task k))
        (guarantees_startSync manager hnil) ?_
      intro P P' t i hP _ hstep
      by_cases ht : k = t
      · subst ht
        exact (hP.step hstep.proc).2
      · rwa [hstep.task_of_ne ht]
    have hunfinished : ∀ P, Pool.Run (fun _ _ _ => True) (manager.sharing runs s) P →
        P.task k ≠ .ret (.ok ()) := by
      intro P hrun htask
      have hP := hguarantees P hrun
      rw [htask] at hP
      exact hP rfl
    refine ⟨fun P hrun htask => absurd htask (hunfinished P hrun),
      fun P hrun htask => absurd htask (hunfinished P hrun), fun P P' i hrun hstep => ?_⟩
    obtain ⟨⟨_, _, hframe⟩, -⟩ := (hguarantees P hrun).step hstep.proc
    exact hframe

end Right

/-- A session that sends one chunk at the first attempt. -/
def sendingOne : SyncRun where
  uuid := ⟨List.replicate 16 0, rfl⟩
  deviceId := List.replicate 32 7
  folderPath := ['/', 'f']
  startedAt := ⟨1704067200, 0⟩
  chunkHashes := [List.replicate 32 1]
  send _ _ := .ok ()
  arrival := [QuicTransport.chunkToTransfer (List.replicate 32 1)]
  arrival_perm := .refl _

/-- **A chunk is sent, and the record of its session does not have it.** -/
theorem not_rightlyRecorded_sendingOne : ∃ manager : SyncPersistenceManager,
    (∀ way, ∀ sample ∈ syncingSamples, manager.json.toBytes way sample.1 = sample.2) ∧
      sendingOne.Succeeds (List.replicate 32 1) ∧
      ¬ manager.RightlyRecorded (fun _ : Unit => sendingOne) ⟨∅, ∅, ∅⟩ () := by
  obtain ⟨manager, -, htexts⟩ := exists_syncing
  have hsucceeds : sendingOne.Succeeds (List.replicate 32 1) := ⟨0, by decide, rfl⟩
  refine ⟨manager, htexts, hsucceeds, fun h => ?_⟩
  have hne : sendingOne.chunkHashes ≠ [] := by simp [sendingOne]
  obtain ⟨P, hrun, htask, hlookup⟩ :=
    exists_run_sharing manager (fun _ : Unit => sendingOne) (k := ()) hne ⟨∅, ∅, ∅⟩
  obtain ⟨session, hsession, hmem⟩ :=
    h.completed P hrun htask _ (List.mem_singleton_self _) hsucceeds
  rw [hlookup] at hsession
  obtain rfl := Option.some.inj hsession
  simp [PersistedSyncSession.new] at hmem

end SyncPersistenceManager

end Landropic
