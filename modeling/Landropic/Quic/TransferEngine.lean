import Landropic.Quic.AnyMessage
import Landropic.Quic.TransferCheckpoints

set_option autoImplicit false

/-!
# The transfer engine

An engine transfers the chunks of files over a connection. It keeps a session of each transfer, with
the chunks that are needed and those that have come, and leaves it to a manager of its own whether
the transfer is under way. Its calls come one after the other, and the manager works in the
background meanwhile.

## Main definitions

* `TransferSession`, `QuicTransferEngine` — the data.
* `BatchTransferManager.transferChunks` — the request for chunks, and their arrival.
* `QuicTransferEngine.startTransfer`, `resumeTransfer`, `pauseTransfer`, `cancelTransfer`,
  `getTransferProgress` — the calls of an engine.
* `QuicTransferEngine.engaged` — an engine with its calls and the background.

## Design

Whether a request is sent, and which chunks or errors come back, is an input of the actions. The
request is validated before it is sent.
-/

namespace Landropic

/-- Active transfer session state. -/
structure TransferSession where
  transferId : Text
  peerId : Text
  filePath : Text
  totalSize : UInt64
  chunksNeeded : List Bytes
  chunksReceived : HashMap Bytes ChunkData
  status : TransferStatus

/-- The chunks that are still needed. -/
def TransferSession.missing (session : TransferSession) : List Bytes :=
  session.chunksNeeded.filter fun hash => hash ∉ session.chunksReceived

/-- Transfer progress information. -/
structure TransferProgress where
  transferId : Text
  status : TransferStatus
  progress : Float32
  bandwidthBytesPerSec : Float32
  chunksReceived : ℕ
  chunksTotal : ℕ
  bytesTransferred : UInt64
  bytesTotal : UInt64

/-- Integrated transfer engine that combines QUIC operations with resumable transfers. -/
structure QuicTransferEngine where
  /-- The cache of the batch manager. -/
  chunkCache : HashMap Bytes ChunkData
  resumableManager : ResumableTransferManager
  activeTransfers : HashMap Text TransferSession

/-- A call of an engine. -/
inductive EngineCall
  | start (transferId peerId filePath : Text) (totalSize : UInt64) (chunksNeeded : List Bytes)
  | resume (transferId : Text)
  | pause (transferId : Text)
  | cancel (transferId : Text)
  | progress (transferId : Text)
  deriving DecidableEq

/-- What an action of a call is about to do. -/
inductive EngineOp
  /-- The call comes in. -/
  | enter
  | manager (op : TransferOp)
  | storeSession (transferId : Text)
  /-- Find chunks that are still needed. -/
  | findMissing (transferId : Text)
  | sendWant (want : Want)
  | receiveChunk
  /-- Update a session with received chunks. -/
  | storeChunks (transferId : Text) (chunks : List ChunkData)
  | readSession (transferId : Text)
  | setStatus (transferId : Text) (status : TransferStatus)
  | removeSession (transferId : Text)
  deriving DecidableEq

/-- What an action takes from outside: the clocks, whether a request is sent, and the chunk that
comes next. -/
structure EngineInput where
  clock : TransferClock
  sent : Except QuicError Unit
  received : Except QuicError ChunkData

/-- The process of a call of an engine. -/
abbrev EngineTask (α : Type) := Proc QuicTransferEngine EngineInput EngineOp QuicError α

namespace QuicTransferEngine

open Proc

/-- A part of a call that only concerns the manager. -/
def onManager {α : Type} (t : TransferTask α) : EngineTask α :=
  t.zoom resumableManager (fun m e => { e with resumableManager := m }) EngineInput.clock .manager

/-- Change the session of a transfer, if there is one. -/
def onSession (e : QuicTransferEngine) (transferId : Text)
    (f : TransferSession → TransferSession) : QuicTransferEngine :=
  match e.activeTransfers.lookup transferId with
  | none => e
  | some session => { e with activeTransfers := e.activeTransfers.insert transferId (f session) }

/-- Create a new transfer engine for a connection. -/
def new : QuicTransferEngine where
  chunkCache := ∅
  resumableManager := .default
  activeTransfers := ∅

end QuicTransferEngine

/-! ## Requests for chunks -/

namespace BatchTransferManager

open Proc

variable (isAlphanumeric : Char → Bool) (blake3 : Bytes → ContentHash)

/-- The request for chunks. -/
def wantOf (wantedChunks : List Bytes) : Want where
  folderId := "default".toList
  chunkHashes := wantedChunks
  priority := 1

/-- Send a `Want` request for missing chunks. -/
def sendWant (want : Want) : EngineTask Unit :=
  match validateWant isAlphanumeric want with
  | .error e => fail (.protocol s!"Invalid want request: {e.display}")
  | .ok () => atom (.sendWant want) fun i e => (i.sent, e)

/-- Receive a chunk, and keep it in the cache if it is wanted. -/
def receiveChunk (wantedChunks : List Bytes) : EngineTask ChunkData :=
  atom .receiveChunk fun i e =>
    match i.received with
    | .error err => (.error err, e)
    | .ok chunk =>
      let hash := (blake3 chunk.data).asBytes
      if hash ∈ wantedChunks then
        (.ok chunk, { e with chunkCache := e.chunkCache.insert hash chunk })
      else (.ok chunk, e)

/-- Receive so many chunks, until one cannot be received, and keep those that are wanted. -/
def receiveChunks (wantedChunks : List Bytes) : ℕ → EngineTask (List ChunkData)
  | 0 => pure []
  | n + 1 => do
    match ← (receiveChunk blake3 wantedChunks).attempt with
    | .error _ => pure []
    | .ok chunk =>
      let rest ← receiveChunks wantedChunks n
      if (blake3 chunk.data).asBytes ∈ wantedChunks then pure (chunk :: rest) else pure rest

/-- Transfer multiple chunks efficiently in batches. -/
def transferChunks (wantedChunks : List Bytes) : EngineTask (List ChunkData) := do
  sendWant isAlphanumeric (wantOf wantedChunks)
  receiveChunks blake3 wantedChunks wantedChunks.length

end BatchTransferManager

namespace QuicTransferEngine

open Proc ResumableTransferManager

variable (isAlphanumeric : Char → Bool) (blake3 : Bytes → ContentHash)

/-! ## The calls -/

/-- Calculate current transfer progress. -/
def progressOf (transferId : Text) : Option TransferSession → TransferProgress
  | none =>
    { transferId := transferId
      status := .failed
      progress := 0
      bandwidthBytesPerSec := 0
      chunksReceived := 0
      chunksTotal := 0
      bytesTransferred := 0
      bytesTotal := 0 }
  | some session =>
    let chunksReceived := session.chunksReceived.keys.card
    let chunksTotal := session.chunksNeeded.length
    let progress : Float32 :=
      if chunksTotal > 0 then
        (UInt64.ofNat chunksReceived).toFloat32 / (UInt64.ofNat chunksTotal).toFloat32
      else 0
    { transferId := transferId
      status := session.status
      progress := progress
      bandwidthBytesPerSec := 0
      chunksReceived := chunksReceived
      chunksTotal := chunksTotal
      bytesTransferred := (session.totalSize.toFloat32 * progress).toUInt64
      bytesTotal := session.totalSize }

/-- Look up the session of a transfer. -/
def readSession (transferId : Text) : EngineTask (Option TransferSession) :=
  atom (.readSession transferId) fun _ e => (.ok (e.activeTransfers.lookup transferId), e)

/-- Update the status of a session. -/
def setStatus (transferId : Text) (status : TransferStatus) : EngineTask Unit :=
  atom (.setStatus transferId status) fun _ e =>
    (.ok (), e.onSession transferId fun session => { session with status := status })

/-- Complete a transfer successfully. -/
def completeTransfer (transferId : Text) : EngineTask Unit := do
  setStatus transferId .completed
  onManager (ResumableTransferManager.completeTransfer transferId)

/-- The chunks that a transfer still needs. -/
def findMissing (transferId : Text) : EngineTask (List Bytes) :=
  atom (.findMissing transferId) fun _ e =>
    match e.activeTransfers.lookup transferId with
    | none => (.error (.protocol
        s!"Transfer session not found: {String.ofList transferId}"), e)
    | some session => (.ok session.missing, e)

/-- A session with more chunks. -/
def withChunks (session : TransferSession) (chunks : List ChunkData) : TransferSession :=
  { session with
    chunksReceived := chunks.foldl
      (fun received chunk => received.insert (blake3 chunk.data).asBytes chunk)
      session.chunksReceived }

/-- Put received chunks into the session of a transfer. -/
def storeChunks (transferId : Text) (chunks : List ChunkData) : EngineTask Unit :=
  atom (.storeChunks transferId chunks) fun _ e =>
    (.ok (), e.onSession transferId fun session => withChunks blake3 session chunks)

/-- What comes after a batch of chunks has been received. -/
def finishBatch (transferId : Text) (chunks : List ChunkData) : EngineTask Unit := do
  storeChunks blake3 transferId chunks
  let progress := progressOf transferId (← readSession transferId)
  onManager (updateProgress transferId progress.bytesTransferred
    (UInt64.ofNat progress.chunksReceived))
  if progress.chunksReceived = progress.chunksTotal then completeTransfer transferId
  else pure ()

/-- Internal method to handle chunk transfer with resumption support. -/
def transferChunksResumable (transferId : Text) : EngineTask Unit := do
  let chunksToRequest ← findMissing transferId
  if chunksToRequest = [] then completeTransfer transferId
  else
    match ← (BatchTransferManager.transferChunks isAlphanumeric blake3 chunksToRequest).attempt with
    | .ok chunks => finishBatch blake3 transferId chunks
    | .error err => do
      onManager (failTransfer transferId)
      fail err

/-- Start a resumable file transfer. -/
def startTransfer (transferId peerId filePath : Text) (totalSize : UInt64)
    (chunksNeeded : List Bytes) : EngineTask Unit := do
  onManager (ResumableTransferManager.startTransfer transferId peerId filePath totalSize)
  atom (.storeSession transferId) fun _ e =>
    (.ok (), { e with activeTransfers := e.activeTransfers.insert transferId {
      transferId := transferId
      peerId := peerId
      filePath := filePath
      totalSize := totalSize
      chunksNeeded := chunksNeeded
      chunksReceived := ∅
      status := .active } })
  transferChunksResumable isAlphanumeric blake3 transferId

/-- Resume a paused or failed transfer. -/
def resumeTransfer (transferId : Text) : EngineTask Unit := do
  match (← onManager (getTransferStatus transferId)).map Prod.fst with
  | none => fail (.protocol s!"Transfer not found: {String.ofList transferId}")
  | some .paused => do
    onManager (ResumableTransferManager.resumeTransfer transferId)
    transferChunksResumable isAlphanumeric blake3 transferId
  | some .failed => do
    onManager (ResumableTransferManager.resumeTransfer transferId)
    transferChunksResumable isAlphanumeric blake3 transferId
  | some .active => pure ()
  | some .completed => pure ()
  | some .cancelled =>
    fail (.protocol s!"Cannot resume cancelled transfer: {String.ofList transferId}")

/-- Pause an active transfer. -/
def pauseTransfer (transferId : Text) : EngineTask Unit := do
  setStatus transferId .paused
  onManager (ResumableTransferManager.pauseTransfer transferId)

/-- Cancel a transfer, which marks it as failed in the manager. -/
def cancelTransfer (transferId : Text) : EngineTask Unit := do
  atom (.removeSession transferId) fun _ e =>
    (.ok (), { e with activeTransfers := e.activeTransfers.erase transferId })
  onManager (failTransfer transferId)

/-- Get transfer progress information. -/
def getTransferProgress (transferId : Text) : EngineTask (Option TransferProgress) := do
  match ← onManager (getTransferStatus transferId) with
  | none => pure none
  | some (status, progress, bandwidth) =>
    match ← readSession transferId with
    | none => pure none
    | some session => pure (some
        { transferId := transferId
          status := status
          progress := progress
          bandwidthBytesPerSec := bandwidth
          chunksReceived := session.chunksReceived.keys.card
          chunksTotal := session.chunksNeeded.length
          bytesTransferred := (session.totalSize.toFloat32 * progress).toUInt64
          bytesTotal := session.totalSize })

/-- The process of a call. -/
def code : EngineCall → EngineTask Unit
  | .start transferId peerId filePath totalSize chunksNeeded =>
    startTransfer isAlphanumeric blake3 transferId peerId filePath totalSize chunksNeeded
  | .resume transferId => resumeTransfer isAlphanumeric blake3 transferId
  | .pause transferId => pauseTransfer transferId
  | .cancel transferId => cancelTransfer transferId
  | .progress transferId => getTransferProgress transferId >>= fun _ => pure ()

end QuicTransferEngine

/-! ## An engine at work -/

/-- What an action of an engine or of its manager is about to do. -/
inductive EngineLabel
  | call (call : EngineCall) (op : EngineOp)
  | background (op : TransferOp)
  deriving DecidableEq

/-- What the manager does in the background. -/
inductive Background
  /-- A round of the cleanup task. -/
  | cleanup
  /-- The delayed removal of a checkpoint. -/
  | removal (transferId : Text)

/-- The outcomes of the calls, or a part of the background. -/
abbrev EngineProcess :=
  Proc QuicTransferEngine EngineInput EngineLabel QuicError (List (Except QuicError Unit))

/-- An engine whose calls come one after the other, and the background of its manager. -/
abbrev EnginePool (κ : Type) :=
  Pool (Option κ) QuicTransferEngine EngineInput EngineLabel QuicError
    (List (Except QuicError Unit))

namespace QuicTransferEngine

open Proc

variable (isAlphanumeric : Char → Bool) (blake3 : Bytes → ContentHash)

/-- A call that comes in. -/
def enter (call : EngineCall) : EngineTask Unit := do
  atom .enter fun _ e => (.ok (), e)
  code isAlphanumeric blake3 call

/-- The calls of an engine, one after the other. -/
def serve : List EngineCall → EngineProcess
  | [] => pure []
  | call :: rest => do
    let outcome ← ((enter isAlphanumeric blake3 call).zoom id (fun e _ => e) id
      (EngineLabel.call call)).attempt
    let outcomes ← serve rest
    pure (outcome :: outcomes)

/-- The background, as a process. -/
def attend (b : Background) : EngineProcess := do
  let t := match b with
    | .cleanup => ResumableTransferManager.cleanup
    | .removal transferId => ResumableTransferManager.removeLater transferId
  t.zoom resumableManager (fun m e => { e with resumableManager := m }) EngineInput.clock
    EngineLabel.background
  pure []

/-- An engine that is about to get some calls. -/
def engaged {κ : Type} (e : QuicTransferEngine) (calls : List EngineCall)
    (background : κ → Background) : EnginePool κ where
  state := e
  task t := match t with
    | none => serve isAlphanumeric blake3 calls
    | some k => attend (background k)

end QuicTransferEngine

end Landropic
