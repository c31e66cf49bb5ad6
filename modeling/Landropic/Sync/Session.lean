import Landropic.Proto.SyncMessages
import Landropic.Sync.Diff

set_option autoImplicit false

/-!
# Sync sessions

A session with a peer: its state, and the handling of the peer's manifest, which computes the diff
and asks for the chunks it requires.

## Main definitions

* `SyncSession` — a session.
* `SyncSession.protoToManifest` — a manifest off the wire.
* `SyncSession.handleManifest` — the handling of the peer's manifest.

## Main results

* `SyncSession.handleManifest_eq_ok_iff` — when the handling succeeds, and the session after it.
-/

namespace Landropic

/-- Errors of sync operations. -/
inductive SyncError
  | protocol (msg : String)
  | storage (msg : String)
  | database (msg : String)
  | network (msg : String)
  | alreadySyncing (peerId : Text)
  deriving DecidableEq

/-- Sync session state machine. -/
inductive SessionState
  | initializing
  | negotiating
  | computingDiff
  | transferring (totalChunks transferredChunks : ℕ)
  | verifying
  | completed
  | failed (msg : String)
  deriving DecidableEq

/-- The text of a state in an error. -/
def SessionState.debug : SessionState → String
  | initializing => "Initializing"
  | negotiating => "Negotiating"
  | computingDiff => "ComputingDiff"
  | transferring total transferred =>
    s!"Transferring \x7b total_chunks: {total}, transferred_chunks: {transferred} \x7d"
  | verifying => "Verifying"
  | completed => "Completed"
  | failed msg => s!"Failed({debugText msg.toList})"

/-- Transfer statistics for a session. -/
structure TransferStats where
  bytesSent : UInt64
  bytesReceived : UInt64
  chunksSent : ℕ
  chunksReceived : ℕ
  filesAdded : ℕ
  filesModified : ℕ
  filesDeleted : ℕ
  deriving DecidableEq

/-- Represents a sync session with a peer. -/
structure SyncSession where
  peerId : Text
  state : SessionState
  /-- Manifest for our folder. -/
  ourManifest : Option Manifest
  /-- Manifest from peer. -/
  peerManifest : Option ProtoManifest
  diffResult : Option DiffResult
  /-- Chunks we need from peer. -/
  wantedChunks : Finset Text
  /-- Incremental diff tracker. -/
  diffTracker : IncrementalDiff
  stats : TransferStats

namespace SyncSession

/-- Maximum chunks to request in a single `Want` message. -/
def MAX_WANT_CHUNKS : ℕ := 100

/-- What the handlers take from outside: the hash function, the clock, the conversion of time
stamps, whether the build checks for overflow, and the orders of its hash maps and sets. -/
structure Env where
  blake3 : Bytes → ContentHash
  now : DateTime
  fromTimestamp : ℤ → ℕ → Option DateTime
  overflowChecks : Bool
  orders : DiffOrders
  wantOrder : IterOrder Text

section Handlers

variable (env : Env)

/-- Convert a file entry off the wire to our format. -/
def protoToEntry (file : FileEntry) : ManifestEntry :=
  { path := file.path
    size := file.size
    modifiedAt := (file.modified.bind fun t =>
      env.fromTimestamp t.seconds.toInt t.nanos.toUInt32.toNat).getD env.now
    contentHash := Hex.encode file.contentHash
    chunkHashes := file.chunkHashes.map Hex.encode
    mode := some file.mode }

/-- Convert proto manifest to our format. -/
def protoToManifest (proto : ProtoManifest) : Manifest :=
  (proto.files.foldl (fun m file => m.addFile (protoToEntry env file))
    (Manifest.new env.now proto.folderId 1)).finalize env.blake3

/-- Process a `Manifest` message. What the session stores before a step fails stays stored. -/
def handleManifest (session : SyncSession) (manifest : ProtoManifest) :
    Except (Stop SyncError) Want × SyncSession :=
  if session.state ≠ .computingDiff then
    (.error (.err (.protocol s!"Unexpected Manifest in state {session.state.debug}")), session)
  else
    let session := { session with peerManifest := some manifest }
    let peerManifest := protoToManifest env manifest
    match session.ourManifest with
    | none => (.error (.err (.protocol "Our manifest not loaded")), session)
    | some ourManifest =>
      match session.diffTracker.computeIncremental env.blake3 env.overflowChecks env.orders
          session.peerId ourManifest peerManifest with
      | none => (.error .panic, session)
      | some (diff, tracker) =>
        let wanted := ((env.wantOrder.iter diff.requiredChunks).take MAX_WANT_CHUNKS).map
          fun hash => (Hex.decode hash).getD []
        (.ok
          { folderId := peerManifest.folderId
            chunkHashes := wanted
            priority := 1 },
          { session with
            diffTracker := tracker
            diffResult := some diff
            stats := { session.stats with
              filesAdded := diff.stats.filesAdded
              filesModified := diff.stats.filesModified
              filesDeleted := diff.stats.filesDeleted }
            wantedChunks := diff.requiredChunks
            state := .transferring diff.requiredChunks.card 0 })

end Handlers

section Lemmas

variable {env : Env}

/-- **When the peer's manifest is handled**: in state `ComputingDiff` with our manifest loaded, if
the diff does not overflow. The diff that is computed leads from the peer's manifest to ours. -/
theorem handleManifest_eq_ok_iff {session session' : SyncSession} {manifest : ProtoManifest}
    {want : Want} :
    handleManifest env session manifest = (.ok want, session') ↔
      session.state = .computingDiff ∧ ∃ ours diff,
        session.ourManifest = some ours ∧
        session.diffTracker.diffComputer.computeDiff env.blake3 env.overflowChecks env.orders
          (protoToManifest env manifest) ours = some diff ∧
        want =
          { folderId := (protoToManifest env manifest).folderId
            chunkHashes := ((env.wantOrder.iter diff.requiredChunks).take MAX_WANT_CHUNKS).map
              fun hash => (Hex.decode hash).getD []
            priority := 1 } ∧
        session' = { session with
          peerManifest := some manifest
          diffTracker :=
            { session.diffTracker with
              pendingChanges :=
                if diff.changes ≠ [] then
                  session.diffTracker.pendingChanges.insert session.peerId diff.changes
                else session.diffTracker.pendingChanges
              lastVersions :=
                session.diffTracker.lastVersions.insert session.peerId ours.version }
          diffResult := some diff
          stats := { session.stats with
            filesAdded := diff.stats.filesAdded
            filesModified := diff.stats.filesModified
            filesDeleted := diff.stats.filesDeleted }
          wantedChunks := diff.requiredChunks
          state := .transferring diff.requiredChunks.card 0 } := by
  unfold handleManifest
  by_cases hstate : session.state = .computingDiff
  · cases hours : session.ourManifest with
    | none => simp [hstate]
    | some ours =>
      cases hdiff : session.diffTracker.diffComputer.computeDiff env.blake3 env.overflowChecks
          env.orders (protoToManifest env manifest) ours with
      | none => simp [hstate, hdiff, IncrementalDiff.computeIncremental]
      | some diff =>
        simp [hstate, hdiff, IncrementalDiff.computeIncremental, eq_comm]
  · simp [hstate]

end Lemmas

end SyncSession

end Landropic
