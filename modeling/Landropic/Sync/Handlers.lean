import Landropic.Cas.Errors
import Landropic.Proto.ChunkData
import Landropic.Sync.PeerStates

set_option autoImplicit false

/-!
# The handlers of a sync session

A session handles nine kinds of messages: the handshake, the summary and the manifest of a folder,
requests for chunks, what a peer has, chunks, acknowledgments and errors. Each handler
updates the session and returns the messages its caller sends back.

## Main definitions

* `LiveSession` — a session with its chunk store and database.
* `LiveSession.handleHello`, …, `LiveSession.handleError` — the handlers.
* `LiveSession.receive`, `LiveSession.next` — the handling of any message, and a step of a session.
* `LiveSession.Accepts` — the chunks that are accepted.

## Main results

* `LiveSession.handleChunkData_of_accepts` — what an accepted chunk does to a session.
* `LiveSession.undisturbed_handleWant`, … — which handlings leave the state of a session, the chunks
  it wants and the database alone.

## Design

The chunk store is a parameter (`ChunkStore`), with a state that only the store reads. The counters
of bytes wrap around as in a build without overflow checks; it takes `2 ^ 64` bytes of chunks to see
the difference.
-/

namespace Landropic

open Cas (CasError)

/-- The chunk store behind a session. -/
structure ChunkStore (σ : Type) where
  /-- Read an object. -/
  read : σ → ContentHash → Except CasError Bytes × σ
  /-- Write an object. -/
  write : σ → Bytes → Except CasError Unit × σ

/-- A message of a sync session. -/
inductive Message
  | hello (hello : Hello)
  | folderSummary (summary : FolderSummary)
  | manifest (manifest : ProtoManifest)
  | want (want : Want)
  | haves (haves : Have)
  | chunkData (chunk : ChunkData)
  | ack (ack : Ack)
  | error (error : ProtoError)
  deriving DecidableEq

/-- A sync session with its chunk store and its database. -/
structure LiveSession (σ : Type) extends SyncSession where
  peerName : Text
  /-- Chunks we have sent to the peer. -/
  sentChunks : Finset Text
  /-- Chunks received from the peer. -/
  receivedChunks : Finset Text
  /-- Content-addressed storage. -/
  cas : σ
  /-- The states of the peers, by their ids. -/
  database : HashMap Text PeerSyncState

/-- The time stamp of a message. -/
def DateTime.toTimestamp (t : DateTime) : Timestamp :=
  { seconds := Int64.ofInt t.timestamp, nanos := Int32.ofNat t.nanos }

namespace LiveSession

/-- Sync protocol version. -/
def PROTOCOL_VERSION : Text := "1.0.0".toList

/-- Maximum concurrent chunk transfers. -/
def MAX_CONCURRENT_TRANSFERS : ℕ := 10

/-- What a handler takes from outside: what `SyncSession.Env` has, the chunk store, and the error of
the database, if it fails. -/
structure Env (σ : Type) extends SyncSession.Env where
  store : ChunkStore σ
  databaseError : Option String

variable {σ : Type} (env : Env σ)

/-- Create a new sync session. -/
def new (peerId peerName : Text) (cas : σ) (database : HashMap Text PeerSyncState) :
    LiveSession σ :=
  { peerId := peerId
    peerName := peerName
    state := .initializing
    ourManifest := none
    peerManifest := none
    diffResult := none
    wantedChunks := ∅
    sentChunks := ∅
    receivedChunks := ∅
    cas := cas
    -- the cache is to be loaded from the store, and is empty so far
    diffTracker := .new ∅
    database := database
    stats := ⟨0, 0, 0, 0, 0, 0, 0⟩ }

/-- Change the state of a session. -/
def setState (s : LiveSession σ) (state : SessionState) : LiveSession σ :=
  { s with state := state }

/-! ## The handshake and the folders -/

/-- The major version of a version. -/
def major (version : Text) : Text := version.takeWhile (· ≠ '.')

/-- Check version compatibility. -/
def isVersionCompatible (version : Text) : Bool := major PROTOCOL_VERSION = major version

/-- Process a `Hello` message. -/
def handleHello (s : LiveSession σ) (hello : Hello) :
    Except (Stop SyncError) Hello × LiveSession σ :=
  if s.state ≠ .initializing then
    (.error (.err (.protocol s!"Unexpected Hello in state {s.state.debug}")), s)
  else if !isVersionCompatible hello.version then
    (.error (.err (.protocol (s!"Protocol version {String.ofList hello.version} not compatible " ++
      s!"with {String.ofList PROTOCOL_VERSION}"))),
      s.setState (.failed "Incompatible protocol version"))
  else
    (.ok
      { version := PROTOCOL_VERSION
        deviceId := List.replicate 32 0
        deviceName := "landropic".toList
        capabilities := ["sync.v1".toList, "incremental.v1".toList, "compression.zstd".toList]
        timestamp := some env.now.toTimestamp },
      s.setState .negotiating)

/-- Load our manifest for a folder. The index is not consulted so far. -/
def loadOurManifest (folderId : Text) : Manifest := Manifest.new env.now folderId 1

/-- Process a `FolderSummary` message. -/
def handleFolderSummary (s : LiveSession σ) (summary : FolderSummary) :
    Except (Stop SyncError) FolderSummary × LiveSession σ :=
  if s.state ≠ .negotiating then
    (.error (.err (.protocol s!"Unexpected FolderSummary in state {s.state.debug}")), s)
  else
    let ourManifest := loadOurManifest env summary.folderId
    (.ok
      { folderId := summary.folderId
        folderPath := "/sync".toList
        manifestHash := (ourManifest.manifestHash.map fun h => (Hex.decode h).getD []).getD []
        totalSize := (ourManifest.files.map ManifestEntry.size).sum
        fileCount := UInt64.ofNat ourManifest.files.length
        lastModified := some env.now.toTimestamp },
      { s with ourManifest := some ourManifest, state := .computingDiff })

/-- Process a `Manifest` message. -/
def handleManifest (s : LiveSession σ) (manifest : ProtoManifest) :
    Except (Stop SyncError) Want × LiveSession σ :=
  let (result, session) := s.toSyncSession.handleManifest env.toEnv manifest
  (result, { s with toSyncSession := session })

/-! ## Chunks -/

/-- Load a chunk from the store: the first 32 bytes of its hash count, and a hash with fewer bytes
panics. -/
def loadChunk (s : LiveSession σ) (hash : Text) :
    Except (Stop SyncError) Bytes × LiveSession σ :=
  match Hex.decode hash with
  -- not reached, as the callers write the hash with `Hex.encode`
  | none => (.error (.err (.protocol "Invalid hash")), s)
  | some hashBytes =>
    if h : (hashBytes.take 32).length = 32 then
      let (result, cas) := env.store.read s.cas ⟨hashBytes.take 32, h⟩
      match result with
      | .ok data => (.ok data, { s with cas := cas })
      | .error e =>
        (.error (.err (.storage s!"Failed to load chunk: {e.display}")), { s with cas := cas })
    else (.error .panic, s)

/-- Note that a chunk was sent. -/
def noteSent (s : LiveSession σ) (hash : Text) (data : Bytes) : LiveSession σ :=
  { s with
    sentChunks := insert hash s.sentChunks
    stats := { s.stats with
      chunksSent := s.stats.chunksSent + 1
      bytesSent := s.stats.bytesSent + UInt64.ofNat data.length } }

/-- The message that carries a chunk. -/
def toChunkData (hash data : Bytes) : ChunkData :=
  { hash := hash
    data := data
    compressed := false
    uncompressedSize := UInt32.ofNat data.length }

/-- Load the wanted chunks that were not sent before. A chunk that cannot be loaded is left out. -/
def loadWanted : List Bytes → LiveSession σ →
    Except (Stop SyncError) (List ChunkData) × LiveSession σ
  | [], s => (.ok [], s)
  | hashBytes :: rest, s =>
    let hashStr := Hex.encode hashBytes
    if hashStr ∈ s.sentChunks then loadWanted rest s
    else
      match loadChunk env s hashStr with
      | (.error .panic, s) => (.error .panic, s)
      | (.error (.err _), s) => loadWanted rest s
      | (.ok data, s) =>
        let (result, s) := loadWanted rest (s.noteSent hashStr data)
        (result.map fun chunks => toChunkData hashBytes data :: chunks, s)

/-- Process a `Want` message (the peer requests chunks). -/
def handleWant (s : LiveSession σ) (want : Want) :
    Except (Stop SyncError) (List ChunkData) × LiveSession σ :=
  match s.state with
  | .transferring _ _ => loadWanted env (want.chunkHashes.take MAX_CONCURRENT_TRANSFERS) s
  | _ => (.error (.err (.protocol s!"Unexpected Want in state {s.state.debug}")), s)

/-- Process a `Have` message (the peer advertises chunks). -/
def handleHave (s : LiveSession σ) (_haves : Have) :
    Except (Stop SyncError) Unit × LiveSession σ :=
  (.ok (), s)

/-- Store a chunk. -/
def storeChunk (s : LiveSession σ) (hash : Text) (data : Bytes) :
    Except (Stop SyncError) Unit × LiveSession σ :=
  match Hex.decode hash with
  | none => (.error (.err (.protocol "Invalid hash")), s)
  | some hashBytes =>
    if (env.blake3 data).asBytes ≠ hashBytes then
      (.error (.err (.protocol (s!"Hash mismatch: expected {String.ofList hash}, got " ++
        s!"{String.ofList (env.blake3 data).toHex}"))), s)
    else
      let (result, cas) := env.store.write s.cas data
      match result with
      | .ok () => (.ok (), { s with cas := cas })
      | .error e =>
        (.error (.err (.storage s!"Failed to store chunk: {e.display}")), { s with cas := cas })

/-- The state after one more chunk. -/
def progress (total transferred : ℕ) : SessionState :=
  if transferred + 1 ≥ total then .verifying else .transferring total (transferred + 1)

/-- Process a `ChunkData` message. -/
def handleChunkData (s : LiveSession σ) (chunk : ChunkData) :
    Except (Stop SyncError) Ack × LiveSession σ :=
  match s.state with
  | .transferring total transferred =>
    let hashStr := Hex.encode chunk.hash
    if (env.blake3 chunk.data).asBytes ≠ chunk.hash then
      (.error (.err (.protocol s!"Chunk hash mismatch for {String.ofList hashStr}")), s)
    else
      match storeChunk env s hashStr chunk.data with
      | (.error e, s) => (.error e, s)
      | (.ok (), s) =>
        (.ok { requestId := hashStr, success := true, message := "Chunk stored".toList },
          { s with
            receivedChunks := insert hashStr s.receivedChunks
            wantedChunks := s.wantedChunks.erase hashStr
            stats := { s.stats with
              chunksReceived := s.stats.chunksReceived + 1
              bytesReceived := s.stats.bytesReceived + UInt64.ofNat chunk.data.length }
            state := progress total transferred })
  | _ => (.error (.err (.protocol s!"Unexpected ChunkData in state {s.state.debug}")), s)

/-! ## The end of a session -/

/-- Verify all chunks were transferred correctly. -/
def verifyTransfer (s : LiveSession σ) : Bool := s.wantedChunks = ∅

/-- Update the state of the peer in the database. -/
def updatePeerState (s : LiveSession σ) : Except (Stop SyncError) Unit × LiveSession σ :=
  let peerState : PeerSyncState :=
    { peerId := s.peerId
      peerName := s.peerName
      lastSync := some env.now
      lastManifestHash := s.ourManifest.bind Manifest.manifestHash
      bytesSent := s.stats.bytesSent
      bytesReceived := s.stats.bytesReceived
      filesSent := UInt64.ofNat s.stats.chunksSent
      filesReceived := UInt64.ofNat s.stats.chunksReceived
      currentState := .completed env.now }
  match env.databaseError with
  | some e => (.error (.err (.database e)), s)
  | none => (.ok (), { s with database := s.database.insert s.peerId peerState })

/-- Process an `Ack` message. A session that is already `Completed` stays so if the database
fails. -/
def handleAck (s : LiveSession σ) (_ack : Ack) : Except (Stop SyncError) Unit × LiveSession σ :=
  if s.state = .verifying then
    if s.verifyTransfer then updatePeerState env (s.setState .completed)
    else (.ok (), s.setState (.failed "Verification failed"))
  else (.ok (), s)

/-- Handle a protocol error. -/
def handleError (s : LiveSession σ) (error : ProtoError) :
    Except (Stop SyncError) Unit × LiveSession σ :=
  (.ok (), s.setState (.failed (String.ofList error.message)))

/-! ## Any message -/

/-- What the caller of a handler sends back, and the session after it. -/
def reply {α : Type} (messages : α → List Message)
    (result : Except (Stop SyncError) α × LiveSession σ) :
    Except (Stop SyncError) (List Message) × LiveSession σ :=
  (result.1.map messages, result.2)

/-- Process a message. -/
def receive (s : LiveSession σ) : Message → Except (Stop SyncError) (List Message) × LiveSession σ
  | .hello m => reply (fun answer => [.hello answer]) (handleHello env s m)
  | .folderSummary m =>
    reply (fun answer => [.folderSummary answer]) (handleFolderSummary env s m)
  | .manifest m => reply (fun want => [.want want]) (handleManifest env s m)
  | .want m => reply (List.map .chunkData) (handleWant env s m)
  | .haves m => reply (fun _ => []) (handleHave s m)
  | .chunkData m => reply (fun ack => [.ack ack]) (handleChunkData env s m)
  | .ack m => reply (fun _ => []) (handleAck env s m)
  | .error m => reply (fun _ => []) (handleError s m)

/-- The call of a handler: what it takes from outside, and the message. -/
abbrev Call (σ : Type) := Env σ × Message

/-- The session after a call. -/
def next (s : LiveSession σ) (call : Call σ) : Option (LiveSession σ) :=
  some (receive call.1 s call.2).2

/-! ## What the handlers do -/

section Lemmas

variable {env : Env σ} {s s' : LiveSession σ}

@[simp] lemma state_setState (s : LiveSession σ) (state : SessionState) :
    (s.setState state).state = state := rfl

@[simp] lemma wantedChunks_setState (s : LiveSession σ) (state : SessionState) :
    (s.setState state).wantedChunks = s.wantedChunks := rfl

@[simp] lemma database_setState (s : LiveSession σ) (state : SessionState) :
    (s.setState state).database = s.database := rfl

@[simp] lemma sentChunks_noteSent (s : LiveSession σ) (hash : Text) (data : Bytes) :
    (s.noteSent hash data).sentChunks = insert hash s.sentChunks := rfl

@[simp] lemma snd_reply {α : Type} (messages : α → List Message)
    (result : Except (Stop SyncError) α × LiveSession σ) :
    (reply messages result).2 = result.2 := rfl

/-- The state of a session, our manifest, the chunks it wants and the database stay as they were. -/
structure Undisturbed (s s' : LiveSession σ) : Prop where
  state_eq : s'.state = s.state
  ours_eq : s'.ourManifest = s.ourManifest
  wanted_eq : s'.wantedChunks = s.wantedChunks
  database_eq : s'.database = s.database

lemma Undisturbed.refl (s : LiveSession σ) : Undisturbed s s := ⟨rfl, rfl, rfl, rfl⟩

lemma Undisturbed.trans {s₁ s₂ s₃ : LiveSession σ} (h : Undisturbed s₁ s₂)
    (h' : Undisturbed s₂ s₃) : Undisturbed s₁ s₃ :=
  ⟨h'.state_eq.trans h.state_eq, h'.ours_eq.trans h.ours_eq, h'.wanted_eq.trans h.wanted_eq,
    h'.database_eq.trans h.database_eq⟩

lemma undisturbed_loadChunk (env : Env σ) (s : LiveSession σ) (hash : Text) :
    Undisturbed s (loadChunk env s hash).2 := by
  unfold loadChunk
  cases Hex.decode hash with
  | none => exact .refl s
  | some hashBytes =>
    dsimp only
    by_cases h : (hashBytes.take 32).length = 32
    · rw [dif_pos h]
      cases (env.store.read s.cas ⟨hashBytes.take 32, h⟩).1 <;> exact ⟨rfl, rfl, rfl, rfl⟩
    · rw [dif_neg h]
      exact .refl s

lemma undisturbed_loadWanted (env : Env σ) (hashes : List Bytes) (s : LiveSession σ) :
    Undisturbed s (loadWanted env hashes s).2 := by
  induction hashes generalizing s with
  | nil => exact .refl s
  | cons hashBytes rest ih =>
    rw [loadWanted]
    by_cases hsent : Hex.encode hashBytes ∈ s.sentChunks
    · rw [if_pos hsent]
      exact ih s
    · rw [if_neg hsent]
      have hload := undisturbed_loadChunk env s (Hex.encode hashBytes)
      generalize loadChunk env s (Hex.encode hashBytes) = loaded at hload ⊢
      obtain ⟨(_ | _) | data, s₁⟩ := loaded
      · exact hload.trans (ih s₁)
      · exact hload
      · have hnote : Undisturbed s₁ (s₁.noteSent (Hex.encode hashBytes) data) :=
          ⟨rfl, rfl, rfl, rfl⟩
        exact hload.trans (hnote.trans (ih _))

lemma undisturbed_handleWant (env : Env σ) (s : LiveSession σ) (want : Want) :
    Undisturbed s (handleWant env s want).2 := by
  unfold handleWant
  cases s.state with
  | transferring total transferred => exact undisturbed_loadWanted env _ s
  | _ => exact .refl s

/-- A chunk that is accepted while chunks are transferred: its hash is right, and the store takes
it. -/
def Accepts (env : Env σ) (s : LiveSession σ) (chunk : ChunkData) : Prop :=
  (env.blake3 chunk.data).asBytes = chunk.hash ∧ (env.store.write s.cas chunk.data).1 = .ok ()

/-- **An accepted chunk** is no longer wanted, and counts as transferred. -/
theorem handleChunkData_of_accepts {chunk : ChunkData} {total transferred : ℕ}
    (hstate : s.state = .transferring total transferred) (h : Accepts env s chunk) :
    handleChunkData env s chunk =
      (.ok
        { requestId := Hex.encode chunk.hash
          success := true
          message := "Chunk stored".toList },
        { s with
          cas := (env.store.write s.cas chunk.data).2
          receivedChunks := insert (Hex.encode chunk.hash) s.receivedChunks
          wantedChunks := s.wantedChunks.erase (Hex.encode chunk.hash)
          stats := { s.stats with
            chunksReceived := s.stats.chunksReceived + 1
            bytesReceived := s.stats.bytesReceived + UInt64.ofNat chunk.data.length }
          state := progress total transferred }) := by
  obtain ⟨hhash, hwrite⟩ := h
  simp [handleChunkData, hstate, storeChunk, hhash, hwrite]

lemma handleChunkData_of_not_accepts {chunk : ChunkData}
    (h : ∀ total transferred, s.state = .transferring total transferred → ¬ Accepts env s chunk) :
    Undisturbed s (handleChunkData env s chunk).2 ∧
      ∃ stop, (handleChunkData env s chunk).1 = .error stop := by
  unfold handleChunkData
  cases hstate : s.state with
  | transferring total transferred =>
    have hno := h total transferred hstate
    dsimp only
    by_cases hhash : (env.blake3 chunk.data).asBytes = chunk.hash
    · rw [if_neg (not_not.mpr hhash)]
      cases hwrite : (env.store.write s.cas chunk.data).1 with
      | ok => exact absurd ⟨hhash, hwrite⟩ hno
      | error e =>
        simp only [storeChunk, Hex.decode_encode, hhash, ne_eq, not_true_eq_false, if_false, hwrite]
        exact ⟨⟨rfl, rfl, rfl, rfl⟩, _, rfl⟩
    · rw [if_pos hhash]
      exact ⟨.refl s, _, rfl⟩
  | _ => exact ⟨.refl s, _, rfl⟩

variable {manifest : ProtoManifest}

/-- The handling of a manifest changes a session like `SyncSession.handleManifest`. -/
lemma handleManifest_eq :
    (handleManifest env s manifest).2 =
      { s with toSyncSession := (s.toSyncSession.handleManifest env.toEnv manifest).2 } := rfl

lemma undisturbed_handleManifest (h : ∀ want, (handleManifest env s manifest).1 ≠ .ok want) :
    Undisturbed s (handleManifest env s manifest).2 := by
  revert h
  unfold handleManifest SyncSession.handleManifest
  intro h
  by_cases hstate : s.state = .computingDiff
  · cases hours : s.ourManifest with
    | none =>
      simp only [hstate, ne_eq, not_true_eq_false, if_false]
      exact ⟨hstate.symm, hours.symm, rfl, rfl⟩
    | some ours =>
      cases hdiff : s.diffTracker.computeIncremental env.blake3 env.overflowChecks env.orders
          s.peerId ours (SyncSession.protoToManifest env.toEnv manifest) with
      | none =>
        simp only [hstate, hdiff, ne_eq, not_true_eq_false, if_false]
        exact ⟨hstate.symm, hours.symm, rfl, rfl⟩
      | some result => simp [hstate, hours, hdiff] at h
  · rw [if_pos hstate]
    exact .refl s

/-- In state `ComputingDiff` with our manifest loaded, the handling of a manifest succeeds or
panics. -/
lemma handleManifest_ok_or_panic (manifest : ProtoManifest) {ours : Manifest}
    (hstate : s.state = .computingDiff) (hours : s.ourManifest = some ours) :
    (∃ want, (handleManifest env s manifest).1 = .ok want) ∨
      (handleManifest env s manifest).1 = .error .panic := by
  unfold handleManifest SyncSession.handleManifest
  cases hdiff : s.diffTracker.computeIncremental env.blake3 env.overflowChecks env.orders
      s.peerId ours (SyncSession.protoToManifest env.toEnv manifest) with
  | none => simp [hstate, hours, hdiff]
  | some result => simp [hstate, hours, hdiff]

/-- **A manifest that is handled** in state `ComputingDiff` starts the transfer of the chunks that
our manifest has beyond the peer's. -/
theorem handleManifest_of_ok {want : Want} (h : (handleManifest env s manifest).1 = .ok want) :
    s.state = .computingDiff ∧ ∃ ours, s.ourManifest = some ours ∧
      (∀ hash, hash ∈ (handleManifest env s manifest).2.wantedChunks ↔
        DiffComputer.Needs s.diffTracker.diffComputer.chunkCache
          (SyncSession.protoToManifest env.toEnv manifest) ours hash) ∧
      (handleManifest env s manifest).2.state =
        .transferring (handleManifest env s manifest).2.wantedChunks.card 0 ∧
      (handleManifest env s manifest).2.ourManifest = some ours ∧
      (handleManifest env s manifest).2.database = s.database := by
  have hok : s.toSyncSession.handleManifest env.toEnv manifest =
      (.ok want, (s.toSyncSession.handleManifest env.toEnv manifest).2) := Prod.ext h rfl
  obtain ⟨hstate, ours, diff, hours, hdiff, -, hsession⟩ :=
    SyncSession.handleManifest_eq_ok_iff.mp hok
  rw [handleManifest_eq, hsession]
  exact ⟨hstate, ours, hours, fun hash => DiffComputer.mem_requiredChunks hdiff, rfl, hours, rfl⟩

/-- The request for chunks that answers a manifest, and the session after it. -/
lemma handleManifest_request {want : Want} (h : handleManifest env s manifest = (.ok want, s')) :
    want.chunkHashes = ((env.wantOrder.iter s'.wantedChunks).take SyncSession.MAX_WANT_CHUNKS).map
        (fun hash => (Hex.decode hash).getD []) ∧
      s'.state = .transferring s'.wantedChunks.card 0 ∧ s'.sentChunks = s.sentChunks := by
  have hresult : (handleManifest env s manifest).1 = .ok want := by rw [h]
  have hafter : s' = (handleManifest env s manifest).2 := by rw [h]
  have hok : s.toSyncSession.handleManifest env.toEnv manifest =
      (.ok want, (s.toSyncSession.handleManifest env.toEnv manifest).2) := Prod.ext hresult rfl
  obtain ⟨-, ours, diff, -, -, hwant, hsession⟩ := SyncSession.handleManifest_eq_ok_iff.mp hok
  rw [hafter, handleManifest_eq, hsession, hwant]
  exact ⟨rfl, rfl, rfl⟩

lemma undisturbed_of_panic {call : Call σ} (hpanic : (receive call.1 s call.2).1 = .error .panic)
    (hnext : next s call = some s') : Undisturbed s s' := by
  obtain rfl := Option.some.inj hnext
  obtain ⟨env, message⟩ := call
  cases message with
  | hello m =>
    simp only [receive, reply, handleHello] at hpanic
    split_ifs at hpanic <;> cases hpanic
  | folderSummary m =>
    simp only [receive, reply, handleFolderSummary] at hpanic
    split_ifs at hpanic <;> cases hpanic
  | manifest m =>
    refine undisturbed_handleManifest fun want hok => ?_
    simp only [receive, reply, hok] at hpanic
    cases hpanic
  | want m => exact undisturbed_handleWant env s m
  | haves m => exact .refl s
  | chunkData m =>
    refine (handleChunkData_of_not_accepts fun total transferred hstate haccept => ?_).1
    simp only [receive, reply, handleChunkData_of_accepts hstate haccept] at hpanic
    cases hpanic
  | ack m =>
    simp only [receive, reply, handleAck, updatePeerState] at hpanic
    split_ifs at hpanic
    · cases herror : env.databaseError with
      | none => simp [herror] at hpanic; cases hpanic
      | some e => simp [herror] at hpanic; cases hpanic
    · cases hpanic
    · cases hpanic
  | error m => cases hpanic

end Lemmas

/-! ## A chunk store in memory -/

section Memory

/-- A store that holds its objects in memory: it takes what is not too large, and gives back what
it holds, if it is not empty and has the right hash. -/
def memoryStore (blake3 : Bytes → ContentHash) : ChunkStore (HashMap ContentHash Bytes) where
  read objects hash :=
    (match objects.lookup hash with
      | none => .error (.objectNotFound hash)
      | some data =>
        if data = [] then .error (.corruptObject "Object file is empty")
        else if blake3 data ≠ hash then .error (.hashMismatch hash (blake3 data))
        else .ok data, objects)
  write objects data :=
    if data.length ≤ Cas.MAX_OBJECT_SIZE then (.ok (), objects.insert (blake3 data) data)
    else (.error (.invalidObjectSize Cas.MAX_OBJECT_SIZE data.length), objects)

/-- An environment with a store in memory. -/
def memoryEnv : Env (HashMap ContentHash Bytes) where
  blake3 := ContentHash.blake3Sample
  now := ⟨0, 0⟩
  fromTimestamp seconds nanos := some ⟨seconds, nanos⟩
  overflowChecks := false
  orders := ⟨.sorted Text, .sorted Text, .sorted Text⟩
  wantOrder := .sorted Text
  store := memoryStore ContentHash.blake3Sample
  databaseError := none

/-- The messages that lead a new session to the transfer of the chunks of a folder: the handshake,
the summary of the folder, and a manifest. -/
def opening (manifest : ProtoManifest) : List (Call (HashMap ContentHash Bytes)) :=
  [(memoryEnv, .hello ⟨"1.0.0".toList, [], "peer".toList, [], none⟩),
    (memoryEnv, .folderSummary ⟨"folder".toList, "/sync".toList, [], 0, 0, none⟩),
    (memoryEnv, .manifest manifest)]

/-- The message of the chunk with the byte `01`. -/
def sampleChunk : ChunkData := toChunkData (ContentHash.blake3Sample [1]).asBytes [1]

end Memory

end LiveSession

end Landropic
