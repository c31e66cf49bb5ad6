import Landropic.Foundations.Duplex
import Landropic.Foundations.Pool
import Landropic.Quic.Protocol
import Landropic.Sync.Handlers

set_option autoImplicit false

/-!
# Sync sessions over a connection

Two peers run a sync session over a connection, one of them as the initiator and the other one as
the responder. Each follows a script of messages to send and to wait for, and hands those it gets to
its session. The responder answers the summary of a folder with one of its own, which the initiator
takes for a manifest, and neither sends a manifest.

## Main definitions

* `QuicLink` — the sessions of both sides and the messages under way.
* `QuicTransport.initiateSync`, `QuicTransport.respondToSync` — the scripts.
* `QuicTransport.connect` — the two sides at first.
* `QuicTransport.Fits` — no side waits in vain or returns an error of the protocol.

## Main results

* `QuicTransport.deadlock_inevitable` — every run ends in a deadlock.
* `QuicTransport.not_fits` — initiator and responder do not fit together.

## Design

Every message has a stream of its own, and the streams are accepted in the order in which they were
opened. What arrives is what was sent. The streaming of chunks is a parameter, and the task that it
leaves behind is one of the pool. Records of the session on the disk are left out, as their errors
are only logged.
-/

namespace Landropic

open Duplex (Side)

/-- The result of the transfer of a chunk. -/
structure TransferResult where
  chunkHash : Bytes
  success : Bool
  deriving DecidableEq

/-- Two sides of a connection. -/
structure QuicLink (σ : Type) where
  session : Side → LiveSession σ
  /-- The messages on their way to a side and their types, the oldest one first. -/
  incoming : Side → List (MessageType × Message)
  /-- The results of the transfer that a side has started. -/
  results : Side → Option (List TransferResult)

/-- What an action takes from outside: what the handlers do, and the streaming of chunks. -/
structure QuicInput (σ : Type) where
  env : LiveSession.Env σ
  streamChunks : List ChunkData → Except String (List TransferResult)

/-- An input where the store has no objects and nothing is streamed. -/
def QuicInput.bare (σ : Type) : QuicInput σ where
  env :=
    { LiveSession.memoryEnv.toEnv with
      store :=
        { read := fun s hash => (.error (.objectNotFound hash), s)
          write := fun s _ => (.ok (), s) }
      databaseError := none }
  streamChunks _ := .ok []

/-- The actions of a side. -/
inductive QuicOp
  | send (msgType : MessageType)
  | receive (expectedType : MessageType)
  | handle (msgType : MessageType)
  | transfer
  | monitor
  | results
  deriving DecidableEq

/-- The tasks of two sides: the script of each, and the task it spawns. -/
inductive QuicStrand
  | script (side : Side)
  | spawned (side : Side)
  deriving DecidableEq

/-- A part of the code of a side. -/
abbrev QuicTask (σ α : Type) := Proc (QuicLink σ) (QuicInput σ) QuicOp (Stop SyncError) α

/-- Two sides at work. -/
abbrev QuicPool (σ : Type) :=
  Pool QuicStrand (QuicLink σ) (QuicInput σ) QuicOp (Stop SyncError) Unit

namespace Message

/-- The `Hello` that a message carries. -/
def asHello : Message → Option Hello
  | hello m => some m
  | _ => none

/-- The `FolderSummary` that a message carries. -/
def asFolderSummary : Message → Option FolderSummary
  | folderSummary m => some m
  | _ => none

/-- The `Manifest` that a message carries. -/
def asManifest : Message → Option ProtoManifest
  | manifest m => some m
  | _ => none

end Message

namespace QuicTransport

open LiveSession (PROTOCOL_VERSION)

variable {σ α β : Type} (side : Side)

/-! ## The scripts -/

/-- Send protocol message over QUIC. -/
def sendMessage (msgType : MessageType) (message : QuicInput σ → Message) : QuicTask σ Unit :=
  .act (.send msgType) (fun _ => true)
    (fun i s => { s with
      incoming := Function.update s.incoming side.other
        (s.incoming side.other ++ [(msgType, message i)]) })
    fun _ _ => pure ()

/-- Receive protocol message over QUIC. It waits for a stream. -/
def receiveMessage (expectedType : MessageType) (decode : Message → Option α) : QuicTask σ α :=
  .act (.receive expectedType) (fun s => !(s.incoming side).isEmpty)
    (fun _ s => { s with incoming := Function.update s.incoming side (s.incoming side).tail })
    fun _ s =>
      match s.incoming side with
      -- not reached, as the action is not ready then
      | [] => .fail (.err (.network "Failed to accept stream"))
      | (msgType, message) :: _ =>
        if msgType ≠ expectedType then
          .fail (.err (.protocol
            s!"Expected message type {expectedType.toU8}, got {msgType.toU8}"))
        else
          match decode message with
          | none => .fail (.err (.protocol "Failed to decode message"))
          | some m => pure m

/-- Call a handler of the session. -/
def call (msgType : MessageType)
    (handler : LiveSession.Env σ → LiveSession σ → Except (Stop SyncError) α × LiveSession σ) :
    QuicTask σ α :=
  .atom (.handle msgType) fun i s =>
    ((handler i.env (s.session side)).1,
      { s with
        session := Function.update s.session side (handler i.env (s.session side)).2 })

/-- Load a chunk from the store. A placeholder is all there is so far. -/
def loadChunkFromCas (_hash : Bytes) : Bytes := List.replicate 1024 0

/-- The message for a requested chunk. -/
def chunkToTransfer (hash : Bytes) : ChunkData :=
  { hash := hash
    data := loadChunkFromCas hash
    compressed := false
    uncompressedSize := 0 }

/-- Transfer chunks using QUIC streams. -/
def transferChunks (chunkHashes : List Bytes) : QuicTask σ Unit :=
  .atom .transfer fun i s =>
    match i.streamChunks (chunkHashes.map chunkToTransfer) with
    | .error e => (.error (.err (.network s!"Failed to stream chunks: {e}")), s)
    | .ok results => (.ok (), { s with results := Function.update s.results side (some results) })

/-- A session that has ended, well or not. -/
def ended : SessionState → Bool
  | .completed | .failed _ => true
  | _ => false

/-- Monitor transfer progress. It looks at the session until that has ended. -/
def monitorTransferProgress : QuicTask σ Unit :=
  .act .monitor (fun s => ended (s.session side).state) (fun _ s => s) fun _ s =>
    match (s.session side).state with
    | .failed reason => .fail (.err (.protocol reason))
    | _ => pure ()

/-- Handle main sync flow (manifest exchange and chunk transfer). -/
def handleSyncFlow : QuicTask σ Unit := do
  let manifest ← receiveMessage side .manifest Message.asManifest
  let want ← call side .manifest fun env s => s.handleManifest env manifest
  sendMessage side .want fun _ => .want want
  transferChunks side want.chunkHashes
  monitorTransferProgress side

/-- The `Hello` of an initiator. -/
def initiatorHello (i : QuicInput σ) : Hello :=
  { version := PROTOCOL_VERSION
    deviceId := List.replicate 32 0
    deviceName := "landropic-client".toList
    capabilities := ["sync.v1".toList]
    timestamp := some i.env.now.toTimestamp }

/-- The `FolderSummary` of an initiator. -/
def initiatorSummary (folderPath : Text) (i : QuicInput σ) : FolderSummary :=
  { folderId := folderPath
    folderPath := folderPath
    manifestHash := List.replicate 32 0
    totalSize := 0
    fileCount := 0
    lastModified := some i.env.now.toTimestamp }

/-- Initiate sync as client. -/
def initiateSync (folderPath : Text) : QuicTask σ Unit := do
  sendMessage side .hello fun i => .hello (initiatorHello i)
  let response ← receiveMessage side .hello Message.asHello
  let _ ← call side .hello fun env s => s.handleHello env response
  sendMessage side .folderSummary fun i => .folderSummary (initiatorSummary folderPath i)
  handleSyncFlow side

/-- Respond to sync as server. -/
def respondToSync : QuicTask σ Unit := do
  let hello ← receiveMessage side .hello Message.asHello
  let response ← call side .hello fun env s => s.handleHello env hello
  sendMessage side .hello fun _ => .hello response
  let summary ← receiveMessage side .folderSummary Message.asFolderSummary
  let response ← call side .folderSummary fun env s => s.handleFolderSummary env summary
  sendMessage side .folderSummary fun _ => .folderSummary response
  handleSyncFlow side

/-- Acknowledge the chunks that were transferred. Errors are only logged. -/
def ackResults : List TransferResult → QuicTask σ Unit
  | [] => pure ()
  | result :: rest =>
    if result.success then do
      let _ ← (call side .ack fun env s => s.handleAck env
        { requestId := Hex.encode result.chunkHash
          success := true
          message := "Chunk received".toList }).attempt
      ackResults rest
    else ackResults rest

/-- The task that a transfer spawns. -/
def processResults : QuicTask σ Unit :=
  .act .results (fun s => (s.results side).isSome) (fun _ s => s)
    fun _ s => ackResults side ((s.results side).getD [])

/-- The two sides at first: the initiator on the left, the responder on the right. -/
def connect (folderPath : Text) (session : Side → LiveSession σ) : QuicPool σ where
  state := { session := session, incoming := fun _ => [], results := fun _ => none }
  task
    | .script .left => initiateSync .left folderPath
    | .script .right => respondToSync .right
    | .spawned side => processResults side

/-! ## Fitting together -/

/-- The states that two sides can come to. -/
def Reachable : QuicPool σ → QuicPool σ → Prop := Pool.Run fun _ _ _ => True

/-- A side waits for a message of this type. -/
def WaitsFor (P : QuicPool σ) (side : Side) (msgType : MessageType) : Prop :=
  (P.task (.script side)).head = some (.receive msgType)

/-- The next message for a side has this type. -/
def IsNext (P : QuicPool σ) (side : Side) (msgType : MessageType) : Prop :=
  (P.state.incoming side).head?.map Prod.fst = some msgType

/-- An error for a message of another type than expected, or in another state. -/
def Unexpected (e : Stop SyncError) : Prop :=
  (∃ expectedType msgType : MessageType, e = .err (.protocol
    s!"Expected message type {expectedType.toU8}, got {msgType.toU8}")) ∨
  ∃ name ∈ ["Hello", "FolderSummary", "Manifest"], ∃ state : SessionState,
    e = .err (.protocol s!"Unexpected {name} in state {state.debug}")

/-- **Two sides fit together**: whenever one waits for a message, that is the next one for it or can
still become so, and no side returns an error for an unexpected message. -/
structure Fits (P₀ : QuicPool σ) : Prop where
  served : ∀ P, Reachable P₀ P → ∀ side msgType, WaitsFor P side msgType →
    ∃ P', Reachable P P' ∧ IsNext P' side msgType
  expected : ∀ P, Reachable P₀ P → ∀ side e, P.task (.script side) = .ret (.error e) →
    ¬ Unexpected e

/-! ## One side after the other -/

/-- The task cannot go on without a message for its side. -/
def NeedsMessage (side : Side) : QuicTask σ Unit → Prop
  | .ret _ => True
  | .act _ ready _ _ => ∀ s, s.incoming side = [] → ready s = false

/-- A side is about to do `p`, and the other one `q`. These are the messages on their way to the
side, and the states of the two sessions. The other side has no message and needs one, and no
transfer has begun. -/
structure Turn (P : QuicPool σ) (side : Side) (p q : QuicTask σ Unit)
    (messages : List (MessageType × Message)) (a b : SessionState) : Prop where
  task_eq : P.task (.script side) = p
  otherTask_eq : P.task (.script side.other) = q
  incoming_eq : P.state.incoming side = messages
  otherIncoming_eq : P.state.incoming side.other = []
  state_eq : (P.state.session side).state = a
  otherState_eq : (P.state.session side.other).state = b
  spawned_eq : ∀ u, P.task (.spawned u) = processResults u
  results_eq : ∀ u, P.state.results u = none
  needs : NeedsMessage side.other q

section Turns

variable {side} {P P' : QuicPool σ} {p q : QuicTask σ Unit} {k : α → QuicTask σ Unit}
  {messages : List (MessageType × Message)} {msgType : MessageType} {message : Message}
  {a b : SessionState} {D : QuicPool σ → Prop}

/-- What two sides do cannot keep them from such a state. -/
abbrev Leads (D : QuicPool σ → Prop) : QuicPool σ → Prop :=
  Runs.Inevitable (fun P (e : QuicStrand × QuicInput σ) => P.advance e.1 e.2) D

lemma advance_of_not_ready {t : QuicStrand} {i : QuicInput σ} {label : QuicOp}
    {ready : QuicLink σ → Bool} {eff : QuicInput σ → QuicLink σ → QuicLink σ}
    {next : QuicInput σ → QuicLink σ → QuicTask σ Unit}
    (htask : P.task t = .act label ready eff next) (hready : ready P.state = false) :
    P.advance t i = none := by
  simp [Pool.advance, htask, hready]

lemma advance_of_needsMessage {i : QuicInput σ} (h : NeedsMessage side (P.task (.script side)))
    (hincoming : P.state.incoming side = []) : P.advance (.script side) i = none := by
  cases htask : P.task (.script side) with
  | ret r => simp [Pool.advance, htask]
  | act label ready eff next =>
    rw [htask] at h
    exact advance_of_not_ready htask (h _ hincoming)

lemma Turn.advance_eq_none (h : Turn P side p q messages a b) {t : QuicStrand} {i : QuicInput σ}
    (ht : t ≠ .script side) : P.advance t i = none := by
  cases t with
  | script u =>
    obtain rfl | rfl := side.eq_or_eq_other u
    · exact absurd rfl ht
    · exact advance_of_needsMessage (h.otherTask_eq ▸ h.needs) h.otherIncoming_eq
  | spawned u => exact advance_of_not_ready (h.spawned_eq u) (by simp [h.results_eq u])

/-- The action of the side whose turn it is. -/
lemma Turn.act {label : QuicOp} {ready : QuicLink σ → Bool}
    {eff : QuicInput σ → QuicLink σ → QuicLink σ}
    {next : QuicInput σ → QuicLink σ → QuicTask σ Unit}
    (h : Turn P side (.act label ready eff next) q messages a b) (hready : ready P.state = true)
    (hnext : ∀ i, Leads D
      ⟨eff i P.state, Function.update P.task (.script side) (next i P.state)⟩) : Leads D P := by
  have hadvance : ∀ i, P.advance (.script side) i =
      some ⟨eff i P.state, Function.update P.task (.script side) (next i P.state)⟩ := by
    intro i
    simp [Pool.advance, h.task_eq, hready]
  apply Runs.Inevitable.step
  · exact ⟨(.script side, .bare σ), _, hadvance _⟩
  · intro ⟨t, i⟩ P' hP'
    by_cases ht : t = .script side
    · subst ht
      have heq := (hadvance i).symm.trans hP'
      exact Option.some.inj heq ▸ hnext i
    · rw [h.advance_eq_none ht] at hP'
      cases hP'

/-- A side sends a message, and it is the turn of the other one, if the side needs a message then.
-/
lemma Turn.send {m : QuicInput σ → Message} {k : Unit → QuicTask σ Unit}
    (h : Turn P side (sendMessage side msgType m >>= k) q [] a b)
    (hneeds : NeedsMessage side (k ()))
    (hnext : ∀ i P', Turn P' side.other q (k ()) [(msgType, m i)] b a → Leads D P') :
    Leads D P := by
  apply h.act rfl
  intro i
  apply hnext i
  have hne := side.other_ne
  constructor
  · simpa [hne] using h.otherTask_eq
  · simp [Proc.pure_eq, Proc.bind]
  · simp [h.otherIncoming_eq]
  · simpa [hne.symm] using h.incoming_eq
  · exact h.otherState_eq
  · simpa using h.state_eq
  · simpa using h.spawned_eq
  · exact h.results_eq
  · simpa using hneeds

lemma Turn.receive {decode : Message → Option α} {x : α}
    (h : Turn P side (receiveMessage side msgType decode >>= k) q ((msgType, message) :: messages)
      a b) (hdecode : decode message = some x)
    (hnext : ∀ P', Turn P' side (k x) q messages a b → Leads D P') : Leads D P := by
  apply h.act (by simp [h.incoming_eq])
  intro i
  apply hnext
  have hne := side.other_ne
  constructor
  · simp [h.incoming_eq, hdecode, Proc.pure_eq, Proc.bind]
  · simpa [hne] using h.otherTask_eq
  · simp [h.incoming_eq]
  · simpa [hne] using h.otherIncoming_eq
  · exact h.state_eq
  · exact h.otherState_eq
  · simpa using h.spawned_eq
  · exact h.results_eq
  · exact h.needs

/-- A side receives a message of another type, and fails. -/
lemma Turn.receive_unexpected {decode : Message → Option α} {other : MessageType}
    (h : Turn P side (receiveMessage side msgType decode >>= k) q ((other, message) :: messages)
      a b) (hother : other ≠ msgType)
    (hnext : ∀ P', Turn P' side (.fail (.err (.protocol
      s!"Expected message type {msgType.toU8}, got {other.toU8}"))) q messages a b →
      Leads D P') : Leads D P := by
  apply h.act (by simp [h.incoming_eq])
  intro i
  apply hnext
  have hne := side.other_ne
  constructor
  · simp [h.incoming_eq, hother, Proc.fail, Proc.bind]
  · simpa [hne] using h.otherTask_eq
  · simp [h.incoming_eq]
  · simpa [hne] using h.otherIncoming_eq
  · exact h.state_eq
  · exact h.otherState_eq
  · simpa using h.spawned_eq
  · exact h.results_eq
  · exact h.needs

/-- A side calls a handler that succeeds in the state of its session. -/
lemma Turn.call {a' : SessionState} {A : α → Prop}
    {handler : LiveSession.Env σ → LiveSession σ → Except (Stop SyncError) α × LiveSession σ}
    (h : Turn P side (call side msgType handler >>= k) q messages a b)
    (hhandler : ∀ env s, s.state = a →
      ∃ x, (handler env s).1 = .ok x ∧ (handler env s).2.state = a' ∧ A x)
    (hnext : ∀ x P', A x → Turn P' side (k x) q messages a' b → Leads D P') : Leads D P := by
  apply h.act rfl
  intro i
  obtain ⟨x, hx, ha', hA⟩ := hhandler i.env _ h.state_eq
  apply hnext x _ hA
  have hne := side.other_ne
  constructor
  · simp [hx, Proc.bind]
  · simpa [hne] using h.otherTask_eq
  · exact h.incoming_eq
  · exact h.otherIncoming_eq
  · simpa using ha'
  · simpa [hne] using h.otherState_eq
  · simpa using h.spawned_eq
  · exact h.results_eq
  · exact h.needs

end Turns

/-! ## The deadlock -/

/-- The error for a summary where a manifest is expected. -/
def summaryError : String :=
  s!"Expected message type {MessageType.manifest.toU8}, got {MessageType.folderSummary.toU8}"

/-- The initiator has failed over the summary that it took for a manifest, and the responder waits
for a manifest that nobody has sent. No task can move. -/
structure Deadlock (P : QuicPool σ) : Prop where
  initiator_eq : P.task (.script .left) = .fail (.err (.protocol summaryError))
  waits : WaitsFor P .right .manifest
  incoming_eq : P.state.incoming .right = []
  stuck : ∀ t i, P.advance t i = none

section Deadlocks

variable {folderPath : Text} {session : Side → LiveSession σ}

/-- A `Hello` of a compatible version is handled at first. -/
lemma handleHello_of_initializing {hello : Hello} (hversion : hello.version = PROTOCOL_VERSION)
    (env : LiveSession.Env σ) (s : LiveSession σ) (hstate : s.state = .initializing) :
    ∃ response, (s.handleHello env hello).1 = .ok response ∧
      (s.handleHello env hello).2.state = .negotiating ∧
      response.version = PROTOCOL_VERSION := by
  simp [LiveSession.handleHello, hstate, hversion, LiveSession.isVersionCompatible]

/-- A `FolderSummary` is handled after the handshake. -/
lemma handleFolderSummary_of_negotiating (summary : FolderSummary) (env : LiveSession.Env σ)
    (s : LiveSession σ) (hstate : s.state = .negotiating) :
    ∃ response, (s.handleFolderSummary env summary).1 = .ok response ∧
      (s.handleFolderSummary env summary).2.state = .computingDiff ∧ True := by
  simp [LiveSession.handleFolderSummary, hstate]

lemma needsMessage_receive {side : Side} {msgType : MessageType} {decode : Message → Option α}
    {k : α → QuicTask σ Unit} : NeedsMessage side (receiveMessage side msgType decode >>= k) := by
  intro s hs
  simp [hs]

/-- The initiator fails over a summary, while the responder waits for a manifest. -/
lemma Turn.deadlock {P : QuicPool σ} {decode : Message → Option α} {k : α → QuicTask σ Unit}
    {a b : SessionState}
    (h : Turn P .left (.fail (.err (.protocol summaryError)))
      (receiveMessage .right .manifest decode >>= k) [] a b) : Deadlock P where
  initiator_eq := h.task_eq
  waits := by
    have htask : P.task (.script .right) = receiveMessage .right .manifest decode >>= k :=
      h.otherTask_eq
    rw [WaitsFor, htask]
    rfl
  incoming_eq := h.otherIncoming_eq
  stuck t i := by
    by_cases ht : t = .script .left
    · subst ht
      simp [Pool.advance, h.task_eq, Proc.fail]
    · exact h.advance_eq_none ht

/-- **Every run ends in the deadlock.**

**Proof sketch.** The two scripts take turns, as each of them sends one message and then waits for
the next one. The turns are the `Hello` of the initiator, the one of the responder, the summary of
the initiator and the one of the responder, for which the initiator has no place. -/
theorem deadlock_inevitable (folderPath : Text)
    (hnew : ∀ side, (session side).state = .initializing) :
    Leads Deadlock (connect folderPath session) := by
  have hfirst : Turn (connect folderPath session) .left (initiateSync .left folderPath)
      (respondToSync .right) [] .initializing .initializing :=
    ⟨rfl, rfl, rfl, rfl, hnew _, hnew _, fun _ => rfl, fun _ => rfl, needsMessage_receive⟩
  -- the initiator greets the responder
  refine hfirst.send needsMessage_receive fun i₁ P₁ h₁ => ?_
  -- the responder greets the initiator
  refine h₁.receive rfl fun P₂ h₂ => ?_
  refine h₂.call (handleHello_of_initializing rfl) fun response₃ P₃ hversion₃ h₃ => ?_
  refine h₃.send needsMessage_receive fun i₄ P₄ h₄ => ?_
  -- the initiator sends the summary of its folder
  refine h₄.receive rfl fun P₅ h₅ => ?_
  refine h₅.call (handleHello_of_initializing hversion₃) fun response₆ P₆ _ h₆ => ?_
  refine h₆.send needsMessage_receive fun i₇ P₇ h₇ => ?_
  -- the responder answers with a summary
  refine h₇.receive rfl fun P₈ h₈ => ?_
  refine h₈.call (handleFolderSummary_of_negotiating _) fun response₉ P₉ _ h₉ => ?_
  refine h₉.send needsMessage_receive fun i₁₀ P₁₀ h₁₀ => ?_
  -- the initiator waits for a manifest
  refine h₁₀.receive_unexpected (by decide) fun P₁₁ h₁₁ => ?_
  exact .here h₁₁.deadlock

lemma Deadlock.not_served {P : QuicPool σ} (h : Deadlock P) :
    ¬ ∃ P', Reachable P P' ∧ IsNext P' .right .manifest := by
  rintro ⟨P', hrun, hnext⟩
  have heq : P' = P := by
    apply Runs.Run.invariant (I := fun Q => Q = P) hrun rfl
    intro P₁ e P₂ _ hP₁ _ hadvance
    rw [hP₁, h.stuck] at hadvance
    cases hadvance
  rw [heq, IsNext, h.incoming_eq] at hnext
  cases hnext

/-- **Two sides that deadlock do not fit together.** -/
lemma not_fits_of_leads {P₀ : QuicPool σ} (h : Leads Deadlock P₀) : ¬ Fits P₀ := by
  intro hfits
  obtain ⟨P, hrun, hdead⟩ := h.exists_run
  exact hdead.not_served (hfits.served P hrun .right .manifest hdead.waits)

/-- **Initiator and responder do not fit together**, whatever the sessions, the folder and the
stores are: the pair always deadlocks. -/
theorem not_fits (folderPath : Text) (hnew : ∀ side, (session side).state = .initializing) :
    ¬ Fits (connect folderPath session) :=
  not_fits_of_leads (deadlock_inevitable folderPath hnew)

/-- A new session with an empty store in memory. -/
private def newSession (side : Side) : LiveSession (HashMap ContentHash Bytes) :=
  match side with
  | .left => .new "responder".toList "b".toList ∅ ∅
  | .right => .new "initiator".toList "a".toList ∅ ∅

/-- Two new sessions do not fit together. -/
theorem not_fits_new : ¬ Fits (connect "folder".toList newSession) :=
  not_fits _ fun side => by cases side <;> rfl

/-- **Not every two peers fit together.** -/
theorem not_forall_fits :
    ¬ ∀ (folderPath : Text) (session : Side → LiveSession (HashMap ContentHash Bytes)),
      (∀ side, (session side).state = .initializing) → Fits (connect folderPath session) := by
  intro hall
  have hnew : ∀ side, (newSession side).state = .initializing := by
    intro side
    cases side <;> rfl
  have hfits := hall "folder".toList newSession hnew
  exact not_fits_of_leads (deadlock_inevitable _ hnew) hfits

end Deadlocks

end QuicTransport

end Landropic
