import Landropic.Proto.SyncHandler
import Landropic.Sync.Counters
import Landropic.Sync.Serving

set_option autoImplicit false

/-!
# Which messages make a handler panic

Most fields of a message are looked at with care. A session slices the first 32 bytes off a hash it
is asked for, and the protocol handler the first eight bytes off a device id that it logs, however
many there are; and both add up numbers that the peer chooses.

## Main definitions

* `LiveSession.Sound`, `SyncProtocolHandler.Sound` — a call neither panics nor counts beyond the
  range of a counter.
* `LiveSession.Careful`, `SyncProtocolHandler.Careful` — the messages that do no harm.

## Main results

* `LiveSession.sound_iff` — which calls of a session are sound.
* `SyncProtocolHandler.sound_iff` — which calls of a protocol handler are sound.
* `sound_iff_of_run` — the same along every run.

## Design

A session adds bytes up as a build without overflow checks does, so a sum that is out of range is
told from the sum of the numbers. The diff is computed in a build with overflow checks.
-/

namespace Landropic

/-- The bytes of the chunks in messages. -/
def Message.chunkBytes (messages : List Message) : ℕ :=
  (messages.map fun
    | .chunkData chunk => chunk.data.length
    | _ => 0).sum

namespace LiveSession

open Message (chunkBytes)

variable {σ : Type}

/-- The same in a build with overflow checks. -/
def Env.checked (env : Env σ) : Env σ := { env with overflowChecks := true }

/-- **A call is sound**: it does not panic, and no counter of the session passes the maximum of its
type. -/
structure Sound (s : LiveSession σ) (call : Call σ) : Prop where
  quiet : (receive call.1.checked s call.2).1 ≠ .error .panic
  chunksSent : (receive call.1 s call.2).2.stats.chunksSent < 2 ^ 64
  chunksReceived : (receive call.1 s call.2).2.stats.chunksReceived < 2 ^ 64
  bytesSent : ∀ answer, (receive call.1 s call.2).1 = .ok answer →
    s.stats.bytesSent.toNat + chunkBytes answer < 2 ^ 64
  bytesReceived : ∀ answer, (receive call.1 s call.2).1 = .ok answer →
    s.stats.bytesReceived.toNat + chunkBytes [call.2] < 2 ^ 64
  transferred : ∀ chunk total transferred, call.2 = .chunkData chunk →
    s.state = .transferring total transferred → transferred + 1 < 2 ^ 64

/-- What the store gives back of the chunks that were not sent before. -/
def supplied (env : Env σ) : List Bytes → Finset Text → σ → List Bytes
  | [], _, _ => []
  | hash :: rest, sent, cas =>
    if Hex.encode hash ∈ sent then supplied env rest sent cas
    else if h : (hash.take 32).length = 32 then
      match env.store.read cas ⟨hash.take 32, h⟩ with
      | (.ok data, cas) => data :: supplied env rest (insert (Hex.encode hash) sent) cas
      | (.error _, cas) => supplied env rest sent cas
    else []

/-- The messages that do no harm: while chunks are transferred, the first ten hashes of a request
have 32 bytes and the counters have room for the chunks that the store gives back, and a chunk that
is accepted is in the range of a length; and the size of the files of a manifest that is to be
compared is in range. -/
def Careful (s : LiveSession σ) : Call σ → Prop
  | (env, .want want) => ∀ total transferred, s.state = .transferring total transferred →
      (∀ hash ∈ want.chunkHashes.take MAX_CONCURRENT_TRANSFERS, 32 ≤ hash.length) ∧
        s.stats.chunksSent + (supplied env (want.chunkHashes.take MAX_CONCURRENT_TRANSFERS)
          s.sentChunks s.cas).length < 2 ^ 64 ∧
        s.stats.bytesSent.toNat + ((supplied env (want.chunkHashes.take MAX_CONCURRENT_TRANSFERS)
          s.sentChunks s.cas).map List.length).sum < 2 ^ 64
  | (env, .manifest manifest) => s.state = .computingDiff →
      DiffComputer.folderSize (SyncSession.protoToManifest env.toEnv manifest) < 2 ^ 64
  | (env, .chunkData chunk) => ∀ total transferred, s.state = .transferring total transferred →
      Accepts env s chunk → chunk.data.length < 2 ^ 64
  | _ => True

/-! ## A session that starts from scratch -/

variable {env : Env σ} {s s' : LiveSession σ}

/-- Chunks may still be received. -/
def IsOpen : SessionState → Prop
  | .verifying | .completed | .failed _ => False
  | _ => True

/-- **What holds of a session that starts from scratch**, while its counters are in range: its own
manifest has no files, so a transfer starts with no chunk to receive, the first chunk ends it, and
no chunk is received before; and no hash of a chunk that was sent is too short. -/
structure Steady (s : LiveSession σ) : Prop where
  ours : NothingOurs s
  loaded : s.state = .computingDiff → ∃ manifest, s.ourManifest = some manifest
  progress : ∀ total transferred, s.state = .transferring total transferred →
    total = 0 ∧ transferred = 0
  received : IsOpen s.state → s.stats.chunksReceived = 0 ∧ s.stats.bytesReceived = 0
  sent : ∀ hash, hash.length < 32 → Hex.encode hash ∉ s.sentChunks
  chunksSent : s.stats.chunksSent < 2 ^ 64
  chunksReceived : s.stats.chunksReceived < 2 ^ 64

lemma steady_new (peerId peerName : Text) (cas : σ) (database : HashMap Text PeerSyncState) :
    Steady (new peerId peerName cas database) where
  ours := ⟨fun ours hours => by simp [new] at hours, rfl⟩
  loaded := by simp [new]
  progress := by simp [new]
  received := fun _ => ⟨rfl, rfl⟩
  sent := by simp [new]
  chunksSent := by simp [new]
  chunksReceived := by simp [new]

/-- What changes the state only, and not to one with more to do, keeps it so. -/
lemma Steady.setState (h : Steady s) {state : SessionState}
    (hopen : IsOpen state → IsOpen s.state) (hcomputing : state ≠ .computingDiff)
    (htransfer : ∀ total transferred, state ≠ .transferring total transferred) :
    Steady (s.setState state) where
  ours := ⟨h.ours.files, h.ours.wanted⟩
  loaded := fun hstate => absurd hstate hcomputing
  progress := fun total transferred hstate => absurd hstate (htransfer total transferred)
  received := fun hstate => h.received (hopen hstate)
  sent := h.sent
  chunksSent := h.chunksSent
  chunksReceived := h.chunksReceived

/-! ## Requests for chunks -/

/-- What the loading of chunks leaves as it is. -/
structure OnlySends (s s' : LiveSession σ) : Prop where
  undisturbed : Undisturbed s s'
  chunksReceived : s'.stats.chunksReceived = s.stats.chunksReceived
  bytesReceived : s'.stats.bytesReceived = s.stats.bytesReceived
  sent : (∀ hash, hash.length < 32 → Hex.encode hash ∉ s.sentChunks) →
    ∀ hash, hash.length < 32 → Hex.encode hash ∉ s'.sentChunks

lemma OnlySends.refl (s : LiveSession σ) : OnlySends s s := ⟨.refl s, rfl, rfl, id⟩

lemma OnlySends.trans {s₁ s₂ s₃ : LiveSession σ} (h : OnlySends s₁ s₂) (h' : OnlySends s₂ s₃) :
    OnlySends s₁ s₃ :=
  ⟨h.undisturbed.trans h'.undisturbed, h'.chunksReceived.trans h.chunksReceived,
    h'.bytesReceived.trans h.bytesReceived, fun hs => h'.sent (h.sent hs)⟩

/-- What the loading of a chunk does: the state of the store may change. -/
lemma loadChunk_eq_of_long {hash : Bytes} (h : (hash.take 32).length = 32) :
    loadChunk env s (Hex.encode hash) =
      (((env.store.read s.cas ⟨hash.take 32, h⟩).1.mapError fun e =>
          .err (.storage s!"Failed to load chunk: {e.display}")),
        { s with cas := (env.store.read s.cas ⟨hash.take 32, h⟩).2 }) := by
  simp only [loadChunk, Hex.decode_encode, dif_pos h]
  cases (env.store.read s.cas ⟨hash.take 32, h⟩).1 <;> rfl

lemma onlySends_noteSent {hash data : Bytes} (hlong : 32 ≤ hash.length) (s : LiveSession σ) :
    OnlySends s (s.noteSent (Hex.encode hash) data) where
  undisturbed := ⟨rfl, rfl, rfl, rfl⟩
  chunksReceived := rfl
  bytesReceived := rfl
  sent := by
    intro hs hash' hshort hmem
    rcases Finset.mem_insert.mp hmem with heq | hmem
    · rw [Hex.encode_injective heq] at hshort
      omega
    · exact hs hash' hshort hmem

lemma onlySends_loadWanted (env : Env σ) (hashes : List Bytes) (s : LiveSession σ) :
    OnlySends s (loadWanted env hashes s).2 := by
  induction hashes generalizing s with
  | nil => exact .refl s
  | cons first rest ih =>
    rw [loadWanted]
    by_cases hsent : Hex.encode first ∈ s.sentChunks
    · rw [if_pos hsent]
      exact ih s
    · rw [if_neg hsent]
      by_cases hlong : 32 ≤ first.length
      · have htake : (first.take 32).length = 32 := by simp [hlong]
        have hcas : ∀ cas, OnlySends s { s with cas := cas } :=
          fun _ => ⟨⟨rfl, rfl, rfl, rfl⟩, rfl, rfl, id⟩
        rw [loadChunk_eq_of_long htake]
        cases (env.store.read s.cas ⟨first.take 32, htake⟩).1 with
        | error e => exact (hcas _).trans (ih _)
        | ok data => exact (hcas _).trans ((onlySends_noteSent hlong _).trans (ih _))
      · rw [loadChunk_of_short (not_le.mp hlong)]
        exact .refl s

/-- **What is sent** for hashes that are long enough: what the store gives back. -/
lemma loadWanted_eq_supplied (env : Env σ) {hashes : List Bytes}
    (hlong : ∀ hash ∈ hashes, 32 ≤ hash.length) (s : LiveSession σ) :
    ∃ chunks s', loadWanted env hashes s = (.ok chunks, s') ∧
      chunks.map ChunkData.data = supplied env hashes s.sentChunks s.cas ∧
      s'.stats.chunksSent = s.stats.chunksSent + chunks.length := by
  induction hashes generalizing s with
  | nil => exact ⟨[], s, rfl, rfl, rfl⟩
  | cons first rest ih =>
    have hrest : ∀ hash ∈ rest, 32 ≤ hash.length := fun hash h =>
      hlong hash (List.mem_cons_of_mem first h)
    rw [loadWanted, supplied]
    by_cases hsent : Hex.encode first ∈ s.sentChunks
    · rw [if_pos hsent, if_pos hsent]
      exact ih hrest s
    · have htake : (first.take 32).length = 32 := by simp [hlong first List.mem_cons_self]
      rw [if_neg hsent, if_neg hsent, dif_pos htake, loadChunk_eq_of_long htake]
      obtain ⟨result, cas⟩ := env.store.read s.cas ⟨first.take 32, htake⟩
      cases result with
      | error e => exact ih hrest { s with cas := cas }
      | ok data =>
        obtain ⟨chunks, s', heq, hdata, hcount⟩ :=
          ih hrest (noteSent { s with cas := cas } (Hex.encode first) data)
        refine ⟨toChunkData first data :: chunks, s', ?_, ?_, ?_⟩
        · simp only [Except.mapError, heq, Except.map]
        · rw [List.map_cons, hdata]
          rfl
        · rw [hcount, List.length_cons]
          simp only [noteSent]
          omega

lemma loadWanted_checked (env : Env σ) (hashes : List Bytes) (s : LiveSession σ) :
    loadWanted env.checked hashes s = loadWanted env hashes s := by
  induction hashes generalizing s with
  | nil => rfl
  | cons first rest ih =>
    simp only [loadWanted, ih]
    rfl

lemma chunkBytes_map_chunkData (chunks : List ChunkData) :
    chunkBytes (chunks.map .chunkData) = ((chunks.map ChunkData.data).map List.length).sum := by
  simp only [chunkBytes, List.map_map]
  rfl

/-! ## Every call -/

/-- A chunk is accepted and ends the transfer, or the call fails and at most the store changes. -/
lemma handleChunkData_cases (env : Env σ) (h : Steady s) (chunk : ChunkData) :
    (∃ total transferred, s.state = .transferring total transferred ∧ Accepts env s chunk ∧
      (∃ ack, (handleChunkData env s chunk).1 = .ok ack) ∧
      (handleChunkData env s chunk).2.stats.chunksReceived = 1 ∧
      (handleChunkData env s chunk).2.stats.chunksSent = s.stats.chunksSent ∧
      Steady (handleChunkData env s chunk).2) ∨
    (∀ total transferred, s.state = .transferring total transferred → ¬ Accepts env s chunk) ∧
      ∃ e cas, handleChunkData env s chunk = (.error (.err e), { s with cas := cas }) := by
  by_cases haccept : ∃ total transferred, s.state = .transferring total transferred ∧
      Accepts env s chunk
  · obtain ⟨total, transferred, hstate, haccept⟩ := haccept
    obtain ⟨rfl, rfl⟩ := h.progress total transferred hstate
    have hreceived := h.received (by rw [hstate]; exact trivial)
    refine .inl ⟨0, 0, hstate, haccept, ?_⟩
    rw [handleChunkData_of_accepts hstate haccept]
    refine ⟨⟨_, rfl⟩, by simp [hreceived.1], rfl, ⟨h.ours.files, by simp [h.ours.wanted]⟩,
      by simp [progress], by simp [progress], ?_, h.sent, h.chunksSent, by simp [hreceived.1]⟩
    simp [progress, IsOpen]
  · have hno : ∀ total transferred, s.state = .transferring total transferred →
        ¬ Accepts env s chunk := fun total transferred hstate haccept' =>
      haccept ⟨total, transferred, hstate, haccept'⟩
    refine .inr ⟨hno, ?_⟩
    unfold handleChunkData
    cases hstate : s.state with
    | transferring total transferred =>
      dsimp only
      by_cases hhash : (env.blake3 chunk.data).asBytes = chunk.hash
      · rw [if_neg (not_not.mpr hhash)]
        simp only [storeChunk, Hex.decode_encode, hhash, ne_eq, not_true_eq_false, if_false]
        cases hwrite : (env.store.write s.cas chunk.data).1 with
        | ok => exact absurd ⟨hhash, hwrite⟩ (hno total transferred hstate)
        | error e => exact ⟨_, _, rfl⟩
      · rw [if_pos hhash]
        exact ⟨_, s.cas, rfl⟩
    | _ => exact ⟨_, s.cas, rfl⟩

lemma Steady.setCas (h : Steady s) (cas : σ) : Steady { s with cas := cas } :=
  ⟨⟨h.ours.files, h.ours.wanted⟩, h.loaded, h.progress, h.received, h.sent, h.chunksSent,
    h.chunksReceived⟩

lemma OnlySends.steady (hs : OnlySends s s') (h : Steady s)
    (hsent : s'.stats.chunksSent < 2 ^ 64) : Steady s' where
  ours := h.ours.of_undisturbed hs.undisturbed
  loaded := by
    rw [hs.undisturbed.state_eq, hs.undisturbed.ours_eq]
    exact h.loaded
  progress := by
    rw [hs.undisturbed.state_eq]
    exact h.progress
  received := by
    rw [hs.undisturbed.state_eq, hs.chunksReceived, hs.bytesReceived]
    exact h.received
  sent := hs.sent h.sent
  chunksSent := hsent
  chunksReceived := by
    rw [hs.chunksReceived]
    exact h.chunksReceived

/-- A manifest changes neither the chunks that were sent nor what is counted of chunks. -/
lemma handleManifest_counts (env : Env σ) (s : LiveSession σ) (manifest : ProtoManifest) :
    (handleManifest env s manifest).2.sentChunks = s.sentChunks ∧
      (handleManifest env s manifest).2.stats.chunksSent = s.stats.chunksSent ∧
      (handleManifest env s manifest).2.stats.chunksReceived = s.stats.chunksReceived ∧
      (handleManifest env s manifest).2.stats.bytesReceived = s.stats.bytesReceived := by
  unfold handleManifest SyncSession.handleManifest
  by_cases hstate : s.state = .computingDiff
  · cases hours : s.ourManifest with
    | none => simp [hstate]
    | some ours =>
      cases hdiff : s.diffTracker.computeIncremental env.blake3 env.overflowChecks env.orders
          s.peerId ours (SyncSession.protoToManifest env.toEnv manifest) with
      | none => simp [hstate, hdiff]
      | some result => simp [hstate, hdiff]
  · simp [hstate]

lemma steady_handleManifest (h : Steady s) (manifest : ProtoManifest) :
    Steady (handleManifest env s manifest).2 := by
  obtain ⟨hsent, hchunks, hreceived, hbytes⟩ := handleManifest_counts env s manifest
  have hours : NothingOurs (handleManifest env s manifest).2 :=
    nothingOurs_next h.ours (env, .manifest manifest) rfl
  by_cases hok : ∃ want, (handleManifest env s manifest).1 = .ok want
  · obtain ⟨want, hok⟩ := hok
    obtain ⟨hstate, -, -, -, hafter, -⟩ := handleManifest_of_ok hok
    rw [hours.wanted, Finset.card_empty] at hafter
    have hzero := h.received (by rw [hstate]; exact trivial)
    refine ⟨hours, by simp [hafter], ?_, fun _ => ?_, hsent ▸ h.sent, hchunks ▸ h.chunksSent,
      hreceived ▸ h.chunksReceived⟩
    · intro total transferred htransfer
      obtain ⟨rfl, rfl⟩ := SessionState.transferring.inj (hafter.symm.trans htransfer)
      exact ⟨rfl, rfl⟩
    · rw [hreceived, hbytes]
      exact hzero
  · have hundisturbed := undisturbed_handleManifest (not_exists.mp hok)
    refine OnlySends.steady ⟨hundisturbed, hreceived, hbytes, fun hs => hsent ▸ hs⟩ h ?_
    rw [hchunks]
    exact h.chunksSent

/-- **A call keeps what holds from the start**, if the chunks that are sent are in range. -/
lemma steady_next (h : Steady s) (call : Call σ)
    (hsent : (receive call.1 s call.2).2.stats.chunksSent < 2 ^ 64) :
    Steady (receive call.1 s call.2).2 := by
  obtain ⟨env, message⟩ := call
  cases message with
  | hello m =>
    simp only [receive, snd_reply, handleHello]
    by_cases hstate : s.state = .initializing
    · rw [if_neg (not_not.mpr hstate)]
      split_ifs
      · exact h.setState (by simp [IsOpen]) (by simp) (by simp)
      · exact h.setState (by simp [IsOpen, hstate]) (by simp) (by simp)
    · rwa [if_pos hstate]
  | folderSummary m =>
    simp only [receive, snd_reply, handleFolderSummary]
    by_cases hstate : s.state = .negotiating
    · rw [if_neg (not_not.mpr hstate)]
      refine ⟨⟨fun ours hours => ?_, h.ours.wanted⟩, fun _ => ⟨_, rfl⟩, by simp,
        fun _ => h.received (by rw [hstate]; exact trivial), h.sent, h.chunksSent,
        h.chunksReceived⟩
      rw [← Option.some.inj hours]
      rfl
    · rwa [if_pos hstate]
  | manifest m => exact steady_handleManifest h m
  | want m =>
    simp only [receive, snd_reply] at hsent ⊢
    unfold handleWant at hsent ⊢
    cases hstate : s.state with
    | transferring total transferred =>
      simp only [hstate] at hsent
      exact (onlySends_loadWanted env _ s).steady h hsent
    | _ => exact h
  | haves m => exact h
  | chunkData m =>
    simp only [receive, snd_reply]
    rcases handleChunkData_cases env h m with
      ⟨_, _, -, -, -, -, -, hsteady⟩ | ⟨-, e, cas, heq⟩
    · exact hsteady
    · rw [heq]
      exact h.setCas cas
  | ack m =>
    simp only [receive, snd_reply, handleAck, updatePeerState]
    by_cases hstate : s.state = .verifying
    · rw [if_pos hstate]
      split_ifs
      · have hcompleted : Steady (s.setState .completed) :=
          h.setState (by simp [IsOpen]) (by simp) (by simp)
        cases env.databaseError with
        | some e => exact hcompleted
        | none =>
          exact ⟨⟨hcompleted.ours.files, hcompleted.ours.wanted⟩, hcompleted.loaded,
            hcompleted.progress, hcompleted.received, hcompleted.sent, hcompleted.chunksSent,
            hcompleted.chunksReceived⟩
      · exact h.setState (by simp [IsOpen]) (by simp) (by simp)
    · rwa [if_neg hstate]
  | error m => exact h.setState (by simp [IsOpen]) (by simp) (by simp)

/-- A call that does not send or receive chunks is sound if it does not panic. -/
lemma sound_iff_of_uncounted (h : Steady s) {c : Call σ}
    (hstats : (receive c.1 s c.2).2.stats.chunksSent = s.stats.chunksSent ∧
      (receive c.1 s c.2).2.stats.chunksReceived = s.stats.chunksReceived)
    (hanswer : ∀ answer, (receive c.1 s c.2).1 = .ok answer → chunkBytes answer = 0)
    (hchunk : ∀ chunk, c.2 ≠ .chunkData chunk) :
    Sound s c ↔ (receive c.1.checked s c.2).1 ≠ .error .panic := by
  constructor
  · exact Sound.quiet
  · intro hquiet
    have hreceived : chunkBytes [c.2] = 0 := by
      obtain ⟨env, message⟩ := c
      cases message with
      | chunkData chunk => exact absurd rfl (hchunk chunk)
      | _ => rfl
    refine ⟨hquiet, hstats.1 ▸ h.chunksSent, hstats.2 ▸ h.chunksReceived, fun answer hok => ?_,
      fun _ _ => ?_, fun chunk _ _ heq => absurd heq (hchunk chunk)⟩
    · rw [hanswer answer hok]
      exact s.stats.bytesSent.toNat_lt
    · rw [hreceived]
      exact s.stats.bytesReceived.toNat_lt

/-- **When a manifest panics**: if it is compared and the diff overflows. -/
lemma handleManifest_eq_panic_iff {manifest : ProtoManifest} :
    (handleManifest env s manifest).1 = .error .panic ↔
      s.state = .computingDiff ∧ ∃ ours, s.ourManifest = some ours ∧
        ¬ ∃ diff, s.diffTracker.diffComputer.computeDiff env.blake3 env.overflowChecks env.orders
          (SyncSession.protoToManifest env.toEnv manifest) ours = some diff := by
  unfold handleManifest SyncSession.handleManifest
  by_cases hstate : s.state = .computingDiff
  · cases hours : s.ourManifest with
    | none => simp [hstate]
    | some ours =>
      cases hdiff : s.diffTracker.diffComputer.computeDiff env.blake3 env.overflowChecks env.orders
          (SyncSession.protoToManifest env.toEnv manifest) ours with
      | none => simp [hstate, hdiff, IncrementalDiff.computeIncremental]
      | some diff => simp [hstate, hdiff, IncrementalDiff.computeIncremental]
  · simp [hstate]

lemma sound_manifest_iff (h : Steady s) (manifest : ProtoManifest) :
    Sound s (env, .manifest manifest) ↔ Careful s (env, .manifest manifest) := by
  rw [sound_iff_of_uncounted (c := (env, .manifest manifest)) h
    ⟨(handleManifest_counts env s manifest).2.1, (handleManifest_counts env s manifest).2.2.1⟩ ?_
    fun chunk heq => by cases heq]
  · have hpanic : (receive env.checked s (.manifest manifest)).1 = .error .panic ↔
        (handleManifest env.checked s manifest).1 = .error .panic := by
      simp only [receive, reply]
      cases (handleManifest env.checked s manifest).1 <;> simp [Except.map]
    show _ ≠ _ ↔ _
    rw [ne_eq, hpanic, handleManifest_eq_panic_iff]
    constructor
    · intro hquiet hstate
      obtain ⟨ours, hours⟩ := h.loaded hstate
      by_contra hsize
      refine hquiet ⟨hstate, ours, hours, fun hdiff => hsize ?_⟩
      exact (DiffComputer.exists_computeDiff_iff_of_files (h.ours.files ours hours)).mp hdiff
    · rintro hsize ⟨hstate, ours, hours, hnone⟩
      refine hnone ?_
      exact (DiffComputer.exists_computeDiff_iff_of_files (h.ours.files ours hours)).mpr
        (hsize hstate)
  · intro answer hok
    simp only [receive, reply] at hok
    cases hresult : (handleManifest env s manifest).1 with
    | error e =>
      rw [hresult] at hok
      cases hok
    | ok want =>
      rw [hresult] at hok
      obtain rfl := Except.ok.inj hok
      rfl

lemma sound_want_iff (h : Steady s) (want : Want) :
    Sound s (env, .want want) ↔ Careful s (env, .want want) := by
  by_cases htransfer : ∃ total transferred, s.state = .transferring total transferred
  · obtain ⟨total, transferred, hstate⟩ := htransfer
    set hashes := want.chunkHashes.take MAX_CONCURRENT_TRANSFERS with hhashes
    have hreceive : ∀ env : Env σ, receive env s (.want want) =
        reply (List.map .chunkData) (loadWanted env hashes s) := by
      intro env
      simp only [receive, handleWant, hstate, hhashes]
    have hcareful : Careful s (env, .want want) ↔ (∀ hash ∈ hashes, 32 ≤ hash.length) ∧
        s.stats.chunksSent + (supplied env hashes s.sentChunks s.cas).length < 2 ^ 64 ∧
        s.stats.bytesSent.toNat +
          ((supplied env hashes s.sentChunks s.cas).map List.length).sum < 2 ^ 64 :=
      ⟨fun hc => hc total transferred hstate, fun hc _ _ _ => hc⟩
    rw [hcareful]
    by_cases hlong : ∀ hash ∈ hashes, 32 ≤ hash.length
    · obtain ⟨chunks, s', hload, hdata, hcount⟩ := loadWanted_eq_supplied env hlong s
      have hkept := onlySends_loadWanted env hashes s
      rw [hload] at hkept
      have hanswer : (receive env s (.want want)).1 = .ok (chunks.map .chunkData) := by
        rw [hreceive, hload]
        rfl
      have hquiet : (receive env.checked s (.want want)).1 ≠ .error .panic := by
        rw [hreceive, loadWanted_checked, hload]
        simp [reply, Except.map]
      rw [← hdata, List.length_map, ← hcount, ← chunkBytes_map_chunkData]
      constructor
      · intro hs
        have hcountRange := hs.chunksSent
        simp only [hreceive, snd_reply, hload] at hcountRange
        exact ⟨hlong, hcountRange, hs.bytesSent _ hanswer⟩
      · rintro ⟨-, hcountRange, hbytes⟩
        refine ⟨hquiet, ?_, ?_, fun answer hok => ?_, fun _ _ => s.stats.bytesReceived.toNat_lt,
          fun _ _ _ heq => by cases heq⟩
        · simpa only [hreceive, snd_reply, hload] using hcountRange
        · simp only [hreceive, snd_reply, hload]
          exact hkept.chunksReceived ▸ h.chunksReceived
        · rw [hanswer] at hok
          obtain rfl := Except.ok.inj hok
          exact hbytes
    · refine iff_of_false (fun hs => hs.quiet ?_) fun hc => hlong hc.1
      push Not at hlong
      rw [hreceive]
      simp only [reply, loadWanted_of_short env.checked h.sent hlong, Except.map]
  · have hreceive : ∀ env : Env σ, ∃ e, receive env s (.want want) = (.error (.err e), s) := by
      intro env
      simp only [receive, handleWant]
      cases hstate : s.state with
      | transferring total transferred => exact absurd ⟨total, transferred, hstate⟩ htransfer
      | _ => exact ⟨_, rfl⟩
    refine iff_of_true ?_ fun total transferred hstate =>
      absurd ⟨total, transferred, hstate⟩ htransfer
    obtain ⟨e, heq⟩ := hreceive env
    rw [sound_iff_of_uncounted (c := (env, .want want)) h (by simp only [heq, and_self])
      (by simp [heq]) fun chunk heq => by cases heq]
    obtain ⟨e, heq⟩ := hreceive env.checked
    simp [heq]

lemma sound_chunkData_iff (h : Steady s) (chunk : ChunkData) :
    Sound s (env, .chunkData chunk) ↔ Careful s (env, .chunkData chunk) := by
  rcases handleChunkData_cases env h chunk with
    ⟨total, transferred, hstate, haccept, ⟨ack, hack⟩, hone, hsent, -⟩ | ⟨hno, e, cas, heq⟩
  · have hcareful : Careful s (env, .chunkData chunk) ↔ chunk.data.length < 2 ^ 64 :=
      ⟨fun hc => hc total transferred hstate haccept, fun hc _ _ _ _ => hc⟩
    have hzero := h.received (by rw [hstate]; exact trivial)
    have hanswer : ∀ env : Env σ, (handleChunkData env s chunk).1 = .ok ack →
        (receive env s (.chunkData chunk)).1 = .ok [.ack ack] := by
      intro env hack
      rw [receive, reply, hack]
      rfl
    rw [hcareful]
    constructor
    · intro hs
      have hbytes := hs.bytesReceived _ (hanswer env hack)
      rw [hzero.2] at hbytes
      simpa [chunkBytes] using hbytes
    · intro hlen
      refine ⟨?_, ?_, ?_, fun answer hok => ?_, fun answer _ => ?_, ?_⟩
      · rw [hanswer env.checked hack]
        simp
      · exact hsent ▸ h.chunksSent
      · simp [receive, hone]
      · rw [hanswer env hack] at hok
        obtain rfl := Except.ok.inj hok
        exact s.stats.bytesSent.toNat_lt
      · rw [hzero.2]
        simpa [chunkBytes] using hlen
      · intro _ total' transferred' _ hstate'
        obtain ⟨-, rfl⟩ := h.progress total' transferred' hstate'
        norm_num
  · have hreceive : ∀ c : Env σ,
        handleChunkData c s chunk = (.error (.err e), { s with cas := cas }) →
        receive c s (.chunkData chunk) = (.error (.err e), { s with cas := cas }) := by
      intro c hc
      rw [receive, reply, hc]
      rfl
    refine iff_of_true ?_ fun total transferred hstate haccept =>
      absurd haccept (hno total transferred hstate)
    refine ⟨?_, ?_, ?_, fun answer hok => ?_, fun answer hok => ?_, ?_⟩
    · rw [hreceive env.checked heq]
      simp
    · simpa only [hreceive env heq] using h.chunksSent
    · simpa only [hreceive env heq] using h.chunksReceived
    · rw [hreceive env heq] at hok
      cases hok
    · rw [hreceive env heq] at hok
      cases hok
    · intro _ total transferred _ hstate
      obtain ⟨-, rfl⟩ := h.progress total transferred hstate
      norm_num

/-- **Which calls are sound**, while what holds from the start does: those of the messages that do
no harm. -/
theorem sound_iff (h : Steady s) (call : Call σ) : Sound s call ↔ Careful s call := by
  obtain ⟨env, message⟩ := call
  cases message with
  | manifest m => exact sound_manifest_iff h m
  | want m => exact sound_want_iff h m
  | chunkData m => exact sound_chunkData_iff h m
  | hello m =>
    refine iff_of_true ((sound_iff_of_uncounted h ?_ ?_ (by simp)).mpr ?_) trivial
    all_goals
      simp only [receive, reply, handleHello]
      split_ifs
      all_goals simp [Except.map, chunkBytes, LiveSession.setState]
  | folderSummary m =>
    refine iff_of_true ((sound_iff_of_uncounted h ?_ ?_ (by simp)).mpr ?_) trivial
    all_goals
      simp only [receive, reply, handleFolderSummary]
      split_ifs
      all_goals simp [Except.map, chunkBytes]
  | haves m =>
    refine iff_of_true ((sound_iff_of_uncounted h ⟨rfl, rfl⟩ ?_ (by simp)).mpr ?_) trivial
    all_goals simp [receive, reply, handleHave, Except.map, chunkBytes]
  | ack m =>
    have hack : ∀ c : Env σ, (handleAck c s m).2.stats = s.stats ∧
        (handleAck c s m).1 ≠ .error .panic := by
      intro c
      simp only [handleAck, updatePeerState]
      split_ifs
      · cases c.databaseError <;> simp [LiveSession.setState]
      · simp [LiveSession.setState]
      · simp
    refine iff_of_true ((sound_iff_of_uncounted h ?_ ?_ (by simp)).mpr ?_) trivial
    · simp [receive, (hack env).1]
    · intro answer hok
      cases hresult : (handleAck env s m).1 with
      | error e => simp [receive, reply, hresult, Except.map] at hok
      | ok u =>
        simp only [receive, reply, hresult, Except.map, Except.ok.injEq] at hok
        rw [← hok]
        rfl
    · have hquiet := (hack env.checked).2
      revert hquiet
      simp only [receive, reply]
      cases (handleAck env.checked s m).1 <;> simp [Except.map]
  | error m =>
    refine iff_of_true ((sound_iff_of_uncounted h ⟨rfl, rfl⟩ ?_ (by simp)).mpr ?_) trivial
    all_goals simp [receive, reply, handleError, Except.map, chunkBytes]

end LiveSession

/-! ## The protocol handler -/

/-- The counters of a folder are in range. -/
def FolderSyncProgress.InRange (p : FolderSyncProgress) : Prop :=
  p.sentChunks < 2 ^ 64 ∧ p.receivedChunks < 2 ^ 64

namespace SyncProtocolHandler

/-- What the caller of a handler sends back, and the handler after it. -/
def reply {α : Type} (messages : α → List Message)
    (result : Except (Stop ProtoError) α × SyncProtocolHandler) :
    Except (Stop ProtoError) (List Message) × SyncProtocolHandler :=
  (result.1.map messages, result.2)

/-- Process a message. There is no handler for what a peer has and for acknowledgments. -/
def receive (env : Env) (h : SyncProtocolHandler) :
    Message → Except (Stop ProtoError) (List Message) × SyncProtocolHandler
  | .hello m => reply (fun answer => [.hello answer]) (handleHello env h m)
  | .folderSummary m => reply (fun _ => []) (handleFolderSummary h m)
  | .manifest m => reply (fun want => [.want want]) (handleManifest env h m)
  | .want m => reply (List.map .chunkData) (handleWant h m)
  | .haves _ => (.ok [], h)
  | .chunkData m => reply (fun ack => [.ack ack]) (handleChunkData env h m)
  | .ack _ => (.ok [], h)
  | .error m => (.ok [], handleError h m)

/-- The call of a handler: what it takes from outside, and the message. -/
abbrev Call := Env × Message

/-- The handler after a call. -/
def step (h : SyncProtocolHandler) (call : Call) : Option SyncProtocolHandler :=
  some (receive call.1 h call.2).2

/-- The counters of all folders are in range. -/
def InRange (h : SyncProtocolHandler) : Prop :=
  ∀ folder p, h.folderProgress.lookup folder = some p → p.InRange

/-- **A call is sound**: it does not panic, and no counter passes the maximum of its type. -/
structure Sound (h : SyncProtocolHandler) (call : Call) : Prop where
  quiet : (receive call.1 h call.2).1 ≠ .error .panic
  inRange : InRange (receive call.1 h call.2).2

/-- The folder that receives a chunk: the first that waits for it. -/
def receiver (env : Env) (h : SyncProtocolHandler) (hash : Bytes) :
    Option (Text × FolderSyncProgress) :=
  (env.folders.entries h.folderProgress).find? fun f => hash ∈ f.2.pendingChunks

/-- The messages that do no harm: a greeting that is logged has eight bytes of device id, and the
counters have room for the hashes of a request and for a chunk. -/
def Careful (h : SyncProtocolHandler) : Call → Prop
  | (env, .hello hello) => h.state = .waitingForHello →
      VersionNegotiator.isCompatible hello.version = true → env.logsInfo = true →
        8 ≤ hello.deviceId.length
  | (_, .want want) => h.state = .syncing → ∀ p, h.folderProgress.lookup want.folderId = some p →
      p.sentChunks + want.chunkHashes.length < 2 ^ 64
  | (env, .chunkData chunk) => h.state = .syncing →
      ∀ f ∈ receiver env h chunk.hash, f.2.receivedChunks + 1 < 2 ^ 64
  | _ => True

variable {env : Env} {h : SyncProtocolHandler}

lemma inRange_insert_iff (hrange : InRange h) {folder : Text} {p : FolderSyncProgress}
    {h' : SyncProtocolHandler} (hprogress : h'.folderProgress = h.folderProgress.insert folder p) :
    InRange h' ↔ p.InRange := by
  unfold InRange
  rw [hprogress, HashMap.forall_lookup_insert]
  exact and_iff_left fun other p' hlookup _ => hrange other p' hlookup

/-- What the first folder that waits for a chunk does. -/
lemma receiveFirst_eq (hash : Bytes) (progress : HashMap Text FolderSyncProgress)
    (folders : List (Text × FolderSyncProgress)) :
    receiveFirst hash progress folders =
      match folders.find? fun f => hash ∈ f.2.pendingChunks with
      | none => progress
      | some (folder, p) => progress.insert folder
          { p with
            pendingChunks := p.pendingChunks.erase hash
            receivedChunks := p.receivedChunks + 1 } := by
  induction folders with
  | nil => rfl
  | cons f rest ih =>
    obtain ⟨folder, p⟩ := f
    rw [receiveFirst, List.find?_cons]
    by_cases hmem : hash ∈ p.pendingChunks
    · simp [hmem]
    · simp [hmem, ih]

lemma sound_iff_of_uncounted (hrange : InRange h) {c : Call}
    (hprogress : (receive c.1 h c.2).2.folderProgress = h.folderProgress) :
    Sound h c ↔ (receive c.1 h c.2).1 ≠ .error .panic :=
  ⟨Sound.quiet, fun hquiet => ⟨hquiet, by unfold InRange; rwa [hprogress]⟩⟩

lemma sound_iff_of_insert (hrange : InRange h) {c : Call} {answer : List Message} {folder : Text}
    {p : FolderSyncProgress} (hok : (receive c.1 h c.2).1 = .ok answer)
    (hprogress : (receive c.1 h c.2).2.folderProgress = h.folderProgress.insert folder p) :
    Sound h c ↔ p.InRange := by
  rw [← inRange_insert_iff hrange hprogress]
  exact ⟨Sound.inRange, fun hnext => ⟨by simp [hok], hnext⟩⟩

lemma sound_of_refused (hrange : InRange h) {c : Call} {e : ProtoError}
    (herror : receive c.1 h c.2 = (.error (.err e), h)) : Sound h c := by
  refine (sound_iff_of_uncounted hrange ?_).mpr ?_
  · rw [herror]
  · simp [herror]

lemma sound_hello_iff (hrange : InRange h) (hello : Hello) :
    Sound h (env, .hello hello) ↔ Careful h (env, .hello hello) := by
  rw [sound_iff_of_uncounted hrange]
  · simp only [receive, reply, handleHello, Careful]
    by_cases hstate : h.state = .waitingForHello
    · cases hversion : VersionNegotiator.isCompatible hello.version with
      | false => simp [hstate, Except.map]
      | true =>
        cases hlogs : env.logsInfo with
        | false => simp [hstate, Except.map]
        | true =>
          by_cases hshort : hello.deviceId.length < 8
          · simp [hstate, hshort, Except.map]
          · simp [hstate, hshort, Except.map, not_lt.mp hshort]
    · simp [hstate, Except.map]
  · simp only [receive, reply, handleHello]
    split_ifs <;> rfl

lemma sound_folderSummary (hrange : InRange h) (summary : FolderSummary) :
    Sound h (env, .folderSummary summary) := by
  by_cases hstate : h.state ≠ .connected ∧ h.state ≠ .syncing
  · refine sound_of_refused hrange (e := h.invalidRequest "Not ready for folder sync") ?_
    simp [receive, reply, handleFolderSummary, hstate, Except.map]
  · have hok : (receive env h (.folderSummary summary)).1 = .ok [] := by
      simp only [receive, reply, handleFolderSummary, if_neg hstate, Except.map]
    have hprogress : (receive env h (.folderSummary summary)).2.folderProgress =
        h.folderProgress.insert summary.folderId (.new summary.folderId) := by
      simp only [receive, reply, handleFolderSummary, if_neg hstate]
    refine (sound_iff_of_insert hrange hok hprogress).mpr ⟨?_, ?_⟩
    · simp [FolderSyncProgress.new]
    · simp [FolderSyncProgress.new]

lemma sound_manifest (hrange : InRange h) (manifest : ProtoManifest) :
    Sound h (env, .manifest manifest) := by
  by_cases hstate : h.state = .syncing
  · have hok : ∃ answer, (receive env h (.manifest manifest)).1 = .ok answer := by
      simp [receive, reply, handleManifest, hstate, Except.map]
    obtain ⟨answer, hok⟩ := hok
    cases hlookup : h.folderProgress.lookup manifest.folderId with
    | none =>
      refine (sound_iff_of_uncounted hrange ?_).mpr (by simp [hok])
      simp [receive, reply, handleManifest, hstate, hlookup]
    | some p =>
      have hprogress : (receive env h (.manifest manifest)).2.folderProgress =
          h.folderProgress.insert manifest.folderId { p with
            totalChunks := (allChunks manifest).card
            pendingChunks := allChunks manifest } := by
        simp [receive, reply, handleManifest, hstate, hlookup]
      rw [sound_iff_of_insert hrange hok hprogress]
      exact hrange manifest.folderId p hlookup
  · refine sound_of_refused hrange (e := h.invalidRequest "Not in syncing state") ?_
    simp [receive, reply, handleManifest, hstate, Except.map]

lemma sound_want_iff (hrange : InRange h) (want : Want) :
    Sound h (env, .want want) ↔ Careful h (env, .want want) := by
  by_cases hstate : h.state = .syncing
  · have hok : (receive env h (.want want)).1 = .ok [] := by
      simp [receive, reply, handleWant, hstate, Except.map]
    simp only [Careful, hstate, forall_const]
    cases hlookup : h.folderProgress.lookup want.folderId with
    | none =>
      refine iff_of_true ((sound_iff_of_uncounted hrange ?_).mpr (by simp [hok])) (by simp)
      simp [receive, reply, handleWant, hstate, hlookup]
    | some p =>
      have hprogress : (receive env h (.want want)).2.folderProgress =
          h.folderProgress.insert want.folderId
            { p with sentChunks := p.sentChunks + want.chunkHashes.length } := by
        simp [receive, reply, handleWant, hstate, hlookup]
      rw [sound_iff_of_insert hrange hok hprogress]
      have hreceived := (hrange want.folderId p hlookup).2
      simpa [FolderSyncProgress.InRange] using fun _ => hreceived
  · refine iff_of_true ?_ fun hstate' => absurd hstate' hstate
    refine sound_of_refused hrange (e := h.invalidRequest "Not in syncing state") ?_
    simp [receive, reply, handleWant, hstate, Except.map]

lemma sound_chunkData_iff (hrange : InRange h) (chunk : ChunkData) :
    Sound h (env, .chunkData chunk) ↔ Careful h (env, .chunkData chunk) := by
  by_cases hstate : h.state = .syncing
  · have hok : ∃ answer, (receive env h (.chunkData chunk)).1 = .ok answer := by
      simp [receive, reply, handleChunkData, hstate, Except.map]
    obtain ⟨answer, hok⟩ := hok
    have hreceive : (receive env h (.chunkData chunk)).2.folderProgress =
        match receiver env h chunk.hash with
        | none => h.folderProgress
        | some (folder, p) => h.folderProgress.insert folder
            { p with
              pendingChunks := p.pendingChunks.erase chunk.hash
              receivedChunks := p.receivedChunks + 1 } := by
      simp only [receive, reply, handleChunkData, hstate, ne_eq, not_true_eq_false, if_false]
      exact receiveFirst_eq _ _ _
    simp only [Careful, hstate, forall_const]
    cases hfind : receiver env h chunk.hash with
    | none =>
      rw [hfind] at hreceive
      exact iff_of_true ((sound_iff_of_uncounted hrange hreceive).mpr (by simp [hok])) (by simp)
    | some f =>
      obtain ⟨folder, p⟩ := f
      have hlookup := env.folders.mem_entries.mp (List.mem_of_find?_eq_some hfind)
      rw [hfind] at hreceive
      rw [sound_iff_of_insert hrange hok hreceive]
      have hsent := (hrange folder p hlookup).1
      simpa [FolderSyncProgress.InRange] using fun _ => hsent
  · refine iff_of_true ?_ fun hstate' => absurd hstate' hstate
    refine sound_of_refused hrange (e := h.invalidRequest "Not in syncing state") ?_
    simp [receive, reply, handleChunkData, hstate, Except.map]

/-- **Which calls are sound**, while the counters are in range: those of the messages that do no
harm. -/
theorem sound_iff (hrange : InRange h) (call : Call) : Sound h call ↔ Careful h call := by
  obtain ⟨env, message⟩ := call
  have hquiet {c : Call} (hreceive : (receive c.1 h c.2).1 = .ok [])
      (hprogress : (receive c.1 h c.2).2.folderProgress = h.folderProgress) : Sound h c :=
    (sound_iff_of_uncounted hrange hprogress).mpr (by simp [hreceive])
  cases message with
  | hello m => exact sound_hello_iff hrange m
  | folderSummary m => exact iff_of_true (sound_folderSummary hrange m) trivial
  | manifest m => exact iff_of_true (sound_manifest hrange m) trivial
  | want m => exact sound_want_iff hrange m
  | haves m => exact iff_of_true (hquiet rfl rfl) trivial
  | chunkData m => exact sound_chunkData_iff hrange m
  | ack m => exact iff_of_true (hquiet rfl rfl) trivial
  | error m => exact iff_of_true (hquiet rfl rfl) trivial

end SyncProtocolHandler

/-! ## Every run -/

section Runs

variable {σ : Type}

/-- **Which calls are sound, along every run.** A session and a protocol handler that start from
scratch make sound calls as long as the messages do no harm, and no longer; and then a call is sound
exactly if its message does no harm.

**Proof sketch.** What holds of them from the start is kept by every sound call, and says enough to
tell the sound calls. -/
theorem sound_iff_of_run (peerId peerName : Text) (cas : σ)
    (database : HashMap Text PeerSyncState) (deviceId : Bytes) (deviceName : Text) :
    (∀ s, (Runs.Run LiveSession.next LiveSession.Sound (.new peerId peerName cas database) s ↔
        Runs.Run LiveSession.next LiveSession.Careful (.new peerId peerName cas database) s) ∧
      (Runs.Run LiveSession.next LiveSession.Careful (.new peerId peerName cas database) s →
        ∀ call, s.Sound call ↔ s.Careful call)) ∧
    ∀ h, (Runs.Run SyncProtocolHandler.step SyncProtocolHandler.Sound (.new deviceId deviceName) h ↔
        Runs.Run SyncProtocolHandler.step SyncProtocolHandler.Careful
          (.new deviceId deviceName) h) ∧
      (Runs.Run SyncProtocolHandler.step SyncProtocolHandler.Careful (.new deviceId deviceName) h →
        ∀ call, h.Sound call ↔ h.Careful call) := by
  refine ⟨fun s => ?_, fun h => ?_⟩
  · have hruns : (Runs.Run LiveSession.next LiveSession.Sound _ s ↔
        Runs.Run LiveSession.next LiveSession.Careful _ s) ∧
          (Runs.Run LiveSession.next LiveSession.Careful _ s → s.Steady) :=
      Runs.run_iff_run (LiveSession.steady_new peerId peerName cas database)
        (fun hs => LiveSession.sound_iff hs _) fun hs hsound hnext => by
          obtain rfl := Option.some.inj hnext
          exact LiveSession.steady_next hs _ hsound.chunksSent
    exact ⟨hruns.1, fun hrun => LiveSession.sound_iff (hruns.2 hrun)⟩
  · have hnew : (SyncProtocolHandler.new deviceId deviceName).InRange := by
      intro folder p hlookup
      simp [SyncProtocolHandler.new] at hlookup
    have hruns : (Runs.Run SyncProtocolHandler.step SyncProtocolHandler.Sound _ h ↔
        Runs.Run SyncProtocolHandler.step SyncProtocolHandler.Careful _ h) ∧
          (Runs.Run SyncProtocolHandler.step SyncProtocolHandler.Careful _ h → h.InRange) :=
      Runs.run_iff_run hnew (fun hrange => SyncProtocolHandler.sound_iff hrange _)
        fun _ hsound hnext => by
          obtain rfl := Option.some.inj hnext
          exact hsound.inRange
    exact ⟨hruns.1, fun hrun => SyncProtocolHandler.sound_iff (hruns.2 hrun)⟩

section Examples

/-- A folder without files. -/
private def emptyFolder : ProtoManifest := ⟨"folder".toList, [], none, []⟩

/-- A folder with two files that are too large together. -/
private def hugeFolder : ProtoManifest :=
  ⟨"folder".toList, [⟨"a".toList, 2 ^ 63, 0, none, [], []⟩, ⟨"b".toList, 2 ^ 63, 0, none, [], []⟩],
    none, []⟩

/-- A request for a chunk whose hash has one byte. -/
private def shortWant : Want := ⟨"folder".toList, [[1]], 1⟩

/-- A greeting with a device id of three bytes. -/
private def shortHello : Hello := ⟨"0.1.0".toList, [4, 5, 6], "peer".toList, [], none⟩

/-- A new session. -/
private def blank : LiveSession (HashMap ContentHash Bytes) := .new "peer".toList "Peer".toList ∅ ∅

/-- A session that transfers chunks answers a request for a chunk that it does not have soundly. -/
theorem sound_iff_of_run_opening : ∃ s,
    Runs.Run LiveSession.next LiveSession.Careful blank s ∧ s.state = .transferring 0 0 ∧
      s.Sound (LiveSession.memoryEnv, .want ⟨"folder".toList, [List.replicate 32 1], 1⟩) := by
  have hempty : ∀ s, LiveSession.Careful s (LiveSession.memoryEnv, .manifest emptyFolder) := by
    intro s _
    decide +kernel
  have hrun : Runs.Run LiveSession.next LiveSession.Careful blank _ :=
    ((Runs.Run.step (e := (LiveSession.memoryEnv,
        .hello ⟨"1.0.0".toList, [], "peer".toList, [], none⟩)) trivial rfl).tail
      ⟨(LiveSession.memoryEnv, .folderSummary ⟨"folder".toList, "/sync".toList, [], 0, 0, none⟩),
        trivial, rfl⟩).tail ⟨_, hempty _, rfl⟩
  refine ⟨_, hrun, by decide +kernel, ?_⟩
  refine (((sound_iff_of_run _ _ _ _ [] []).1 _).2 hrun _).mpr fun _ _ _ => ⟨?_, ?_, ?_⟩
  all_goals decide +kernel

/-- **Messages that make a handler panic**: a request for a chunk with a short hash, a manifest of
files that are too large together, and a greeting with a short device id. -/
theorem not_forall_sound :
    (∃ s, Runs.Run LiveSession.next (fun _ _ => True) blank s ∧
      (s.receive LiveSession.memoryEnv (.want shortWant)).1 = .error .panic) ∧
    (∃ s, Runs.Run LiveSession.next (fun _ _ => True) blank s ∧
      (s.receive LiveSession.memoryEnv.checked (.manifest hugeFolder)).1 = .error .panic) ∧
    (SyncProtocolHandler.receive (SyncProtocolHandler.sortedEnv true)
      (.new [1, 2, 3] "device".toList) (.hello shortHello)).1 = .error .panic ∧
    ¬ (∀ s, Runs.Run LiveSession.next (fun _ _ => True) blank s → ∀ call, s.Sound call) ∧
    ¬ ∀ h, Runs.Run SyncProtocolHandler.step (fun _ _ => True) (.new [1, 2, 3] "device".toList) h →
      ∀ call, h.Sound call := by
  have hwant : (Runs.exec LiveSession.next (fun _ _ => True) (LiveSession.opening emptyFolder)
      blank).map (fun s => (s.receive LiveSession.memoryEnv.checked (.want shortWant)).1) =
      some (.error .panic) := by decide +kernel
  have hloaded : (Runs.exec LiveSession.next (fun _ _ => True)
      ((LiveSession.opening emptyFolder).take 2) blank).map
        (fun s => (s.state, s.ourManifest.map Manifest.files)) =
      some (.computingDiff, some []) := by decide +kernel
  obtain ⟨s, hs, hwant⟩ := Option.map_eq_some_iff.mp hwant
  obtain ⟨s', hs', hloaded⟩ := Option.map_eq_some_iff.mp hloaded
  obtain ⟨hstate, hours⟩ := Prod.mk.inj hloaded
  obtain ⟨ours, hours, hfiles⟩ := Option.map_eq_some_iff.mp hours
  have hmanifest : (s'.receive LiveSession.memoryEnv.checked (.manifest hugeFolder)).1 =
      .error .panic := by
    have hpanic : (s'.handleManifest LiveSession.memoryEnv.checked hugeFolder).1 =
        .error .panic := by
      refine LiveSession.handleManifest_eq_panic_iff.mpr ⟨hstate, ours, hours, fun hdiff => ?_⟩
      refine absurd ((DiffComputer.exists_computeDiff_iff_of_files hfiles).mp hdiff) ?_
      decide +kernel
    simp only [LiveSession.receive, LiveSession.reply, hpanic, Except.map]
  have hhello : (SyncProtocolHandler.receive (SyncProtocolHandler.sortedEnv true)
      (.new [1, 2, 3] "device".toList) (.hello shortHello)).1 = .error .panic := by decide +kernel
  refine ⟨⟨s, Runs.run_of_exec hs, ?_⟩, ⟨s', Runs.run_of_exec hs', hmanifest⟩, hhello,
    fun hall => ?_, fun hall => ?_⟩
  · exact hwant
  · exact (hall s (Runs.run_of_exec hs) (LiveSession.memoryEnv, .want shortWant)).quiet hwant
  · exact (hall _ .refl (SyncProtocolHandler.sortedEnv true, .hello shortHello)).quiet hhello

end Examples

end Runs

end Landropic
