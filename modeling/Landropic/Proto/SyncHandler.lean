import Mathlib.Data.Char
import Landropic.Foundations.HashMap
import Landropic.Proto.Validation

set_option autoImplicit false

/-!
# The protocol handler

A handler keeps the state of a session with a peer and the progress of every folder the peer has
announced, and answers the peer's messages. It asks for all chunks of a manifest in one request,
while a request may ask for a thousand chunks at most.

## Main definitions

* `FolderSyncProgress`, `SyncProtocolHandler` — progress and state.
* `SyncProtocolHandler.handleFolderSummary`, `SyncProtocolHandler.handleManifest`,
  `SyncProtocolHandler.handleChunkData` — the handlers.

## Main results

* `SyncProtocolHandler.validateWant_handleManifest_iff` — which requests for the chunks of a valid
  manifest are valid.

## Design

The handler is used by one task at a time. A call takes from outside the time, whether informative
log events are formatted, and the orders in which its hash map and hash set are visited (`Env`).
-/

namespace Landropic

/-- Sync session state. -/
inductive SyncState
  | waitingForHello
  | connected
  | syncing
  | completed
  | failed (msg : Text)
  deriving DecidableEq

/-- The text of a state in an error. -/
def SyncState.debug : SyncState → String
  | waitingForHello => "WaitingForHello"
  | connected => "Connected"
  | syncing => "Syncing"
  | completed => "Completed"
  | failed msg => s!"Failed({debugText msg})"

/-- Represents a peer in the sync protocol. -/
structure PeerInfo where
  deviceId : Bytes
  deviceName : Text
  version : Text
  capabilities : List Text
  deriving DecidableEq

/-- Tracks sync progress for a folder. -/
structure FolderSyncProgress where
  folderId : Text
  totalChunks : ℕ
  receivedChunks : ℕ
  sentChunks : ℕ
  pendingChunks : Finset Bytes
  deriving DecidableEq

namespace FolderSyncProgress

/-- No progress. -/
def new (folderId : Text) : FolderSyncProgress :=
  { folderId := folderId, totalChunks := 0, receivedChunks := 0, sentChunks := 0,
    pendingChunks := ∅ }

/-- All chunks of the folder have been received, at least one. -/
def isComplete (p : FolderSyncProgress) : Bool :=
  p.totalChunks > 0 ∧ p.receivedChunks = p.totalChunks

end FolderSyncProgress

/-- Handles sync protocol messages and maintains session state. -/
structure SyncProtocolHandler where
  state : SyncState
  peerInfo : Option PeerInfo
  folderProgress : HashMap Text FolderSyncProgress
  ourDeviceId : Bytes
  ourDeviceName : Text

namespace SyncProtocolHandler

/-- What a call takes from outside: the time, whether informative log events are formatted, and the
orders in which the folders and the chunks of a manifest are visited. -/
structure Env where
  now : Timestamp
  logsInfo : Bool
  folders : IterOrder Text
  chunks : IterOrder Bytes

/-- Create a new sync protocol handler. -/
def new (deviceId : Bytes) (deviceName : Text) : SyncProtocolHandler :=
  { state := .waitingForHello
    peerInfo := none
    folderProgress := ∅
    ourDeviceId := deviceId
    ourDeviceName := deviceName }

section Handlers

variable (env : Env) (h : SyncProtocolHandler)

/-- The error of a message that the state does not allow. -/
def invalidRequest (message : String) : ProtoError :=
  { errorType := .invalidRequest
    message := message.toList
    details := s!"Current state: {h.state.debug}".toList }

/-- Create our `Hello` message. -/
def createHello : Hello :=
  { version := VersionNegotiator.PROTOCOL_VERSION
    deviceId := h.ourDeviceId
    deviceName := h.ourDeviceName
    capabilities := ["sync.v1".toList, "delta.v1".toList, "compression.zstd".toList]
    timestamp := some env.now }

/-- Handle incoming `Hello` message. The log event shows the first eight bytes of the device, and
panics if there are fewer. -/
def handleHello (hello : Hello) : Except (Stop ProtoError) Hello × SyncProtocolHandler :=
  if h.state ≠ .waitingForHello then
    (.error (.err (h.invalidRequest "Unexpected Hello message")), h)
  else if !VersionNegotiator.isCompatible hello.version then
    (.error (.err
      { errorType := .protocolVersionMismatch
        message := "Protocol version mismatch".toList
        details := (VersionNegotiator.compatibilityError hello.version).toList }),
      { h with state := .failed "Version incompatible".toList })
  else if env.logsInfo ∧ hello.deviceId.length < 8 then
    (.error .panic, h)
  else
    (.ok (h.createHello env),
      { h with
        peerInfo := some
          { deviceId := hello.deviceId
            deviceName := hello.deviceName
            version := hello.version
            capabilities := hello.capabilities }
        state := .connected })

/-- Handle folder summary message: the progress of the folder starts again. -/
def handleFolderSummary (summary : FolderSummary) :
    Except (Stop ProtoError) Unit × SyncProtocolHandler :=
  if h.state ≠ .connected ∧ h.state ≠ .syncing then
    (.error (.err (h.invalidRequest "Not ready for folder sync")), h)
  else
    (.ok (),
      { h with
        folderProgress := h.folderProgress.insert summary.folderId (.new summary.folderId)
        state := if h.state = .connected then .syncing else h.state })

/-- The unique chunk hashes of a manifest. -/
def allChunks (manifest : ProtoManifest) : Finset Bytes :=
  (manifest.files.flatMap FileEntry.chunkHashes).toFinset

/-- Handle manifest message: all its chunks are requested. -/
def handleManifest (manifest : ProtoManifest) :
    Except (Stop ProtoError) Want × SyncProtocolHandler :=
  if h.state ≠ .syncing then
    (.error (.err (h.invalidRequest "Not in syncing state")), h)
  else
    let progress :=
      match h.folderProgress.lookup manifest.folderId with
      | some p => h.folderProgress.insert manifest.folderId
          { p with
            totalChunks := (allChunks manifest).card
            pendingChunks := allChunks manifest }
      | none => h.folderProgress
    (.ok
      { folderId := manifest.folderId
        chunkHashes := env.chunks.iter (allChunks manifest)
        priority := 1 },
      { h with folderProgress := progress })

/-- Handle `Want` message. No chunks are sent yet. -/
def handleWant (want : Want) : Except (Stop ProtoError) (List ChunkData) × SyncProtocolHandler :=
  if h.state ≠ .syncing then
    (.error (.err (h.invalidRequest "Not in syncing state")), h)
  else
    let progress :=
      match h.folderProgress.lookup want.folderId with
      | some p => h.folderProgress.insert want.folderId
          { p with sentChunks := p.sentChunks + want.chunkHashes.length }
      | none => h.folderProgress
    (.ok [], { h with folderProgress := progress })

/-- The first folder that waits for a chunk receives it. -/
def receiveFirst (hash : Bytes) (progress : HashMap Text FolderSyncProgress) :
    List (Text × FolderSyncProgress) → HashMap Text FolderSyncProgress
  | [] => progress
  | (folder, p) :: rest =>
    if hash ∈ p.pendingChunks then
      progress.insert folder
        { p with
          pendingChunks := p.pendingChunks.erase hash
          receivedChunks := p.receivedChunks + 1 }
    else receiveFirst hash progress rest

/-- Handle chunk data received. The session is completed when all folders are. -/
def handleChunkData (chunk : ChunkData) : Except (Stop ProtoError) Ack × SyncProtocolHandler :=
  if h.state ≠ .syncing then
    (.error (.err (h.invalidRequest "Not in syncing state")), h)
  else
    let progress := receiveFirst chunk.hash h.folderProgress (env.folders.entries h.folderProgress)
    let allComplete := (env.folders.entries progress).all fun f => f.2.isComplete
    (.ok
      { requestId := Hex.encode chunk.hash
        success := true
        message := "Chunk received".toList },
      { h with
        folderProgress := progress
        state := if allComplete ∧ progress.keys ≠ ∅ then .completed else h.state })

/-- Handle error message. -/
def handleError (error : ProtoError) : SyncProtocolHandler :=
  { h with state := .failed error.message }

end Handlers

/-! ## Requests for the chunks of a manifest -/

section Requests

variable {isAlphanumeric : Char → Bool} {env : Env} {h h' : SyncProtocolHandler}
  {manifest : ProtoManifest} {want : Want}

lemma want_of_handleManifest (hwant : handleManifest env h manifest = (.ok want, h')) :
    want =
      { folderId := manifest.folderId
        chunkHashes := env.chunks.iter (allChunks manifest)
        priority := 1 } := by
  unfold handleManifest at hwant
  split at hwant
  · cases (Prod.mk.inj hwant).1
  · exact (Except.ok.inj (Prod.mk.inj hwant).1).symm

lemma length_of_mem_allChunks (hvalid : validateManifest isAlphanumeric manifest = .ok ())
    {hash : Bytes} (hhash : hash ∈ allChunks manifest) : hash.length = 32 := by
  obtain ⟨-, -, hfiles, -⟩ := (validateManifest_eq_ok_iff isAlphanumeric).mp hvalid
  obtain ⟨file, hfile, hmem⟩ := List.mem_flatMap.mp (List.mem_toFinset.mp hhash)
  exact (validateFileEntry_eq_ok_iff.mp (hfiles file hfile)).2.2.2 hash hmem

/-- **Which requests for the chunks of a valid manifest are valid**: those for the manifests with at
most a thousand different chunks.

**Proof sketch.** The request names the folder of the manifest and each of its chunks once, so
nothing but their number can be wrong. -/
theorem validateWant_handleManifest_iff
    (hvalid : validateManifest isAlphanumeric manifest = .ok ())
    (hwant : handleManifest env h manifest = (.ok want, h')) :
    validateWant isAlphanumeric want = .ok () ↔ (allChunks manifest).card ≤ 1000 := by
  obtain rfl := want_of_handleManifest hwant
  have hfolder := ((validateManifest_eq_ok_iff isAlphanumeric).mp hvalid).1
  rw [validateWant_eq_ok_iff, env.chunks.length_iter]
  constructor
  · rintro ⟨-, -, hlen⟩
    exact hlen
  · intro hlen
    refine ⟨hfolder, fun hash hhash => ?_, hlen⟩
    exact length_of_mem_allChunks hvalid (env.chunks.mem_iter.mp hhash)

end Requests

section Examples

/-- The first chunks of a large file, numbered by their first two bytes. -/
private def numbered (i : ℕ) : Bytes :=
  UInt8.ofNat (i / 256) :: UInt8.ofNat i :: List.replicate 30 0

/-- A manifest with one file of that many chunks. -/
private def ofChunks (n : ℕ) : ProtoManifest :=
  { folderId := "folder".toList
    files := [⟨"a".toList, 0, 420, none, (List.range n).map numbered, List.replicate 32 0⟩]
    generatedAt := none
    manifestHash := List.replicate 32 0 }

private lemma validateManifest_ofChunks {n : ℕ} (hn : n ≤ limits.MAX_CHUNKS_PER_FILE) :
    validateManifest Char.isAlphanum (ofChunks n) = .ok () := by
  have hfolder : Validator.validateFolderId Char.isAlphanum "folder".toList = .ok () := by decide
  have hpath : Validator.validatePath "a".toList = .ok () := by decide
  refine (validateManifest_eq_ok_iff _).mpr
    ⟨hfolder, by simp [ofChunks, limits.MAX_MANIFEST_FILES], fun entry hentry => ?_,
      by simp [ofChunks]⟩
  obtain rfl := List.mem_singleton.mp hentry
  refine validateFileEntry_eq_ok_iff.mpr ⟨hpath, by simp, by simpa using hn, fun hash hhash => ?_⟩
  obtain ⟨i, -, rfl⟩ := List.mem_map.mp hhash
  simp [numbered]

private lemma card_allChunks_ofChunks {n : ℕ} (h : n ≤ 2 ^ 16) :
    (allChunks (ofChunks n)).card = n := by
  have hinj : ∀ i < n, ∀ j < n, numbered i = numbered j → i = j := by
    intro i hi j hj heq
    simp only [numbered, List.cons.injEq, and_true] at heq
    obtain ⟨hhigh, hlow⟩ := heq
    have hhigh' := congrArg UInt8.toNat hhigh
    have hlow' := congrArg UInt8.toNat hlow
    simp only [UInt8.toNat_ofNat'] at hhigh' hlow'
    omega
  have hnodup : ((List.range n).map numbered).Nodup := by
    refine List.Nodup.map_on (fun i hi j hj heq => ?_) List.nodup_range
    exact hinj i (List.mem_range.mp hi) j (List.mem_range.mp hj) heq
  simp [allChunks, ofChunks, List.toFinset_card_of_nodup hnodup]

/-- A handler to which a folder was announced. -/
private def announced : SyncProtocolHandler :=
  { new [1, 2, 3] "test-device".toList with
    state := .syncing
    folderProgress := Finmap.singleton "folder".toList (.new "folder".toList) }

/-- A call that visits hash maps in the order of their keys. -/
def sortedEnv (logsInfo : Bool) : Env :=
  { now := ⟨0, 0⟩
    logsInfo := logsInfo
    folders := .sorted Text
    chunks := .sortedBy (List.map UInt8.toNat)
      (List.map_injective_iff.mpr fun _ _ => UInt8.toNat_inj.mp) }

private def quietEnv : Env := sortedEnv false

/-- The manifest of a file of two chunks leads to a valid request. -/
theorem validateWant_handleManifest_two : ∃ want h',
    handleManifest quietEnv announced (ofChunks 2) = (.ok want, h') ∧
      (validateWant Char.isAlphanum want = .ok () ↔ (allChunks (ofChunks 2)).card ≤ 1000) := by
  have hwant : handleManifest quietEnv announced (ofChunks 2) = (.ok _, _) := rfl
  exact ⟨_, _, hwant, validateWant_handleManifest_iff (validateManifest_ofChunks (by decide)) hwant⟩

/-- The request for a file of 1001 chunks is not valid. -/
theorem not_forall_validateWant_handleManifest :
    ¬ ∀ (env : Env) (h h' : SyncProtocolHandler) (manifest : ProtoManifest) (want : Want),
      validateManifest Char.isAlphanum manifest = .ok () →
      handleManifest env h manifest = (.ok want, h') →
      validateWant Char.isAlphanum want = .ok () := by
  intro hall
  have hwant := hall quietEnv announced _ (ofChunks 1001) _
    (validateManifest_ofChunks (by decide)) rfl
  have hlen := ((validateWant_eq_ok_iff _).mp hwant).2.2
  rw [quietEnv.chunks.length_iter, card_allChunks_ofChunks (by decide)] at hlen
  exact absurd hlen (by decide)

end Examples

end SyncProtocolHandler

end Landropic
