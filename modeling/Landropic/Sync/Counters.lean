import Landropic.Foundations.Runs
import Landropic.Sync.Handlers

set_option autoImplicit false

/-!
# The two records of what is missing

While chunks are transferred, a session counts those it got and keeps the set of those it still
wants. The two agree as long as every manifest that is handled needs a chunk and every chunk that is
accepted is wanted. A session does not check either: a manifest that needs nothing starts a transfer
that waits for a chunk, and a chunk that was not asked for counts like one that was.

## Main definitions

* `LiveSession.CountsWanted` — the counter and the set agree.
* `LiveSession.Expected` — the calls that keep them so.

## Main results

* `LiveSession.countsWanted_next_iff` — which calls keep the agreement.
* `LiveSession.countsWanted_of_run` — the agreement along a run.
* `LiveSession.wantedChunks_of_run_new` — a session that starts from scratch never wants a chunk.
-/

namespace Landropic

namespace LiveSession

open DiffComputer (Needs)

variable {σ : Type} {env : Env σ} {s s' : LiveSession σ}

/-- **The counter of a session agrees with the chunks it wants**: while it transfers chunks it wants
as many as the counter is short of the total, at least one, and afterwards it wants none. -/
structure CountsWanted (s : LiveSession σ) : Prop where
  transferring : ∀ total transferred, s.state = .transferring total transferred →
    s.wantedChunks.Nonempty ∧ s.wantedChunks.card = total - transferred
  done : s.state = .verifying ∨ s.state = .completed → s.wantedChunks = ∅

/-- A manifest that is handled needs a chunk, and a chunk that is accepted is wanted. -/
def Expected (s : LiveSession σ) : Call σ → Prop
  | (env, .manifest manifest) => s.state = .computingDiff → ∀ ours, s.ourManifest = some ours →
      ∃ hash, Needs s.diffTracker.diffComputer.chunkCache
        (SyncSession.protoToManifest env.toEnv manifest) ours hash
  | (env, .chunkData chunk) => ∀ total transferred, s.state = .transferring total transferred →
      Accepts env s chunk → Hex.encode chunk.hash ∈ s.wantedChunks
  | _ => True

lemma CountsWanted.of_state
    (htransfer : ∀ total transferred, s.state ≠ .transferring total transferred)
    (hverify : s.state ≠ .verifying) (hcompleted : s.state ≠ .completed) : CountsWanted s :=
  ⟨fun total transferred h => absurd h (htransfer total transferred),
    fun h => absurd h (not_or.mpr ⟨hverify, hcompleted⟩)⟩

lemma CountsWanted.of_transferring {total transferred : ℕ}
    (hstate : s.state = .transferring total transferred) (hne : s.wantedChunks.Nonempty)
    (hcard : s.wantedChunks.card = total - transferred) : CountsWanted s where
  transferring := by
    intro total' transferred' h
    obtain ⟨rfl, rfl⟩ := SessionState.transferring.inj (hstate.symm.trans h)
    exact ⟨hne, hcard⟩
  done := by
    intro h
    rw [hstate] at h
    rcases h with h | h <;> cases h

lemma CountsWanted.of_done (hstate : s.state = .verifying ∨ s.state = .completed)
    (hempty : s.wantedChunks = ∅) : CountsWanted s where
  transferring := by
    intro total transferred h
    rw [h] at hstate
    rcases hstate with hstate | hstate <;> cases hstate
  done := fun _ => hempty

lemma countsWanted_iff_of_undisturbed (h : Undisturbed s s') :
    CountsWanted s' ↔ CountsWanted s := by
  constructor
  · intro hs
    exact ⟨fun total transferred ht => h.wanted_eq ▸ hs.transferring total transferred
      (h.state_eq.trans ht), fun hd => h.wanted_eq ▸ hs.done (by rwa [h.state_eq])⟩
  · intro hs
    exact ⟨fun total transferred ht => h.wanted_eq ▸ hs.transferring total transferred
      (h.state_eq.symm.trans ht), fun hd => h.wanted_eq ▸ hs.done (by rwa [h.state_eq] at hd)⟩

/-! ## One call -/

lemma countsWanted_handleHello (h : CountsWanted s) (hello : Hello) :
    CountsWanted (handleHello env s hello).2 := by
  unfold handleHello
  by_cases hstate : s.state = .initializing
  · rw [if_neg (not_not.mpr hstate)]
    cases isVersionCompatible hello.version <;>
      exact .of_state (by simp) (by simp) (by simp)
  · rwa [if_pos hstate]

lemma countsWanted_handleFolderSummary (h : CountsWanted s) (summary : FolderSummary) :
    CountsWanted (handleFolderSummary env s summary).2 := by
  unfold handleFolderSummary
  by_cases hstate : s.state = .negotiating
  · rw [if_neg (not_not.mpr hstate)]
    exact .of_state (by simp) (by simp) (by simp)
  · rwa [if_pos hstate]

lemma countsWanted_handleManifest_iff (h : CountsWanted s) {manifest : ProtoManifest}
    (hpanic : (handleManifest env s manifest).1 ≠ .error .panic) :
    CountsWanted (handleManifest env s manifest).2 ↔ Expected s (env, .manifest manifest) := by
  by_cases hok : ∃ want, (handleManifest env s manifest).1 = .ok want
  · obtain ⟨want, hok⟩ := hok
    obtain ⟨hstate, ours, hours, hmem, htransfer, -, -⟩ := handleManifest_of_ok hok
    have hexpected : Expected s (env, .manifest manifest) ↔
        (handleManifest env s manifest).2.wantedChunks.Nonempty := by
      simp only [Expected, hstate, hours, Option.some.injEq, forall_eq', forall_const]
      exact exists_congr fun hash => (hmem hash).symm
    rw [hexpected]
    constructor
    · intro hcounts
      exact (hcounts.transferring _ _ htransfer).1
    · intro hne
      exact .of_transferring htransfer hne rfl
  · have hundisturbed := undisturbed_handleManifest (not_exists.mp hok)
    rw [countsWanted_iff_of_undisturbed hundisturbed]
    refine iff_of_true h fun hstate ours hours => ?_
    rcases handleManifest_ok_or_panic manifest hstate hours with hok' | hpanic'
    · exact absurd hok' hok
    · exact absurd hpanic' hpanic

lemma countsWanted_handleChunkData_iff (h : CountsWanted s) {chunk : ChunkData} :
    CountsWanted (handleChunkData env s chunk).2 ↔ Expected s (env, .chunkData chunk) := by
  by_cases haccept : ∃ total transferred, s.state = .transferring total transferred ∧
      Accepts env s chunk
  · obtain ⟨total, transferred, hstate, haccept⟩ := haccept
    obtain ⟨hne, hcard⟩ := h.transferring total transferred hstate
    have hpos := hne.card_pos
    have hexpected : Expected s (env, .chunkData chunk) ↔
        Hex.encode chunk.hash ∈ s.wantedChunks :=
      ⟨fun hall => hall total transferred hstate haccept, fun hmem _ _ _ _ => hmem⟩
    rw [hexpected, handleChunkData_of_accepts hstate haccept]
    by_cases hlast : transferred + 1 ≥ total
    · -- the last chunk that is counted has to be the last one that is wanted
      have hprogress : progress total transferred = .verifying := if_pos hlast
      rw [hprogress]
      constructor
      · intro hcounts
        have hempty := hcounts.done (.inl rfl)
        dsimp only at hempty
        by_contra hmem
        rw [Finset.erase_eq_of_notMem hmem] at hempty
        exact hne.ne_empty hempty
      · intro hmem
        have herase := Finset.card_erase_of_mem hmem
        exact .of_done (.inl rfl) (Finset.card_eq_zero.mp (herase.trans (by omega)))
    · have hprogress : progress total transferred = .transferring total (transferred + 1) :=
        if_neg hlast
      rw [hprogress]
      constructor
      · intro hcounts
        have hcard' := (hcounts.transferring total (transferred + 1) rfl).2
        dsimp only at hcard'
        by_contra hmem
        rw [Finset.erase_eq_of_notMem hmem] at hcard'
        omega
      · intro hmem
        have herase := Finset.card_erase_of_mem hmem
        have hpos' : 0 < (s.wantedChunks.erase (Hex.encode chunk.hash)).card := by omega
        exact .of_transferring rfl (Finset.card_pos.mp hpos') (herase.trans (by omega))
  · have hundisturbed : Undisturbed s (handleChunkData env s chunk).2 :=
      (handleChunkData_of_not_accepts fun total transferred hstate haccept' =>
        haccept ⟨total, transferred, hstate, haccept'⟩).1
    rw [countsWanted_iff_of_undisturbed hundisturbed]
    exact iff_of_true h fun total transferred hstate haccept' =>
      absurd ⟨total, transferred, hstate, haccept'⟩ haccept

lemma countsWanted_handleAck (h : CountsWanted s) (ack : Ack) :
    CountsWanted (handleAck env s ack).2 := by
  unfold handleAck
  by_cases hstate : s.state = .verifying
  · have hempty := h.done (.inl hstate)
    have hverify : s.verifyTransfer = true := by simp [verifyTransfer, hempty]
    rw [if_pos hstate, if_pos hverify]
    unfold updatePeerState
    cases env.databaseError <;> exact .of_done (.inr rfl) hempty
  · rwa [if_neg hstate]

/-- **Which calls keep the agreement.**

**Proof sketch.** Only a manifest and a chunk change the counter or the wanted chunks. A manifest
starts with as many wanted chunks as the total, so there has to be one. An accepted chunk counts by
one, so it has to leave the wanted chunks. -/
theorem countsWanted_next_iff (h : CountsWanted s) (call : Call σ)
    (hpanic : (receive call.1 s call.2).1 ≠ .error .panic) (hnext : next s call = some s') :
    CountsWanted s' ↔ Expected s call := by
  obtain rfl := Option.some.inj hnext
  obtain ⟨env, message⟩ := call
  cases message with
  | hello m => exact iff_of_true (countsWanted_handleHello h m) trivial
  | folderSummary m => exact iff_of_true (countsWanted_handleFolderSummary h m) trivial
  | manifest m =>
    refine countsWanted_handleManifest_iff h fun hfail => hpanic ?_
    simp only [receive, reply, hfail]
    rfl
  | want m =>
    have hundisturbed := undisturbed_handleWant env s m
    exact iff_of_true ((countsWanted_iff_of_undisturbed hundisturbed).mpr h) trivial
  | haves m => exact iff_of_true h trivial
  | chunkData m => exact countsWanted_handleChunkData_iff h
  | ack m => exact iff_of_true (countsWanted_handleAck h m) trivial
  | error m =>
    exact iff_of_true (.of_state (by simp [receive, handleError]) (by simp [receive, handleError])
      (by simp [receive, handleError])) trivial

/-! ## Runs -/

/-- **A session keeps its two records in agreement along every run in which each manifest that is
handled needs a chunk and each chunk that is accepted is wanted**, and exactly the calls that meet
this condition keep them so.

**Proof sketch.** A call that panics changes neither record, and every other call keeps the
agreement by `countsWanted_next_iff`. -/
theorem countsWanted_of_run (h : CountsWanted s) (hrun : Runs.Run next Expected s s') :
    CountsWanted s' ∧ ∀ call s'', next s' call = some s'' →
      (receive call.1 s' call.2).1 ≠ .error .panic → (CountsWanted s'' ↔ Expected s' call) := by
  have hkept : CountsWanted s' := by
    refine hrun.invariant h fun {s₁ call s₂} _ h₁ hexpected hnext => ?_
    by_cases hpanic : (receive call.1 s₁ call.2).1 = .error .panic
    · exact (countsWanted_iff_of_undisturbed (undisturbed_of_panic hpanic hnext)).mpr h₁
    · exact (countsWanted_next_iff h₁ call hpanic hnext).mpr hexpected
  exact ⟨hkept, fun call s'' hnext hpanic => countsWanted_next_iff hkept call hpanic hnext⟩

/-- Our manifest, if it is loaded, has no files, and no chunks are wanted. -/
structure NothingOurs (s : LiveSession σ) : Prop where
  files : ∀ ours, s.ourManifest = some ours → ours.files = []
  wanted : s.wantedChunks = ∅

lemma NothingOurs.of_undisturbed (h : NothingOurs s) (hs : Undisturbed s s') : NothingOurs s' :=
  ⟨fun ours hours => h.files ours (hs.ours_eq ▸ hours), hs.wanted_eq.trans h.wanted⟩

lemma nothingOurs_next (h : NothingOurs s) (call : Call σ) (hnext : next s call = some s') :
    NothingOurs s' := by
  obtain rfl := Option.some.inj hnext
  obtain ⟨env, message⟩ := call
  cases message with
  | hello m =>
    simp only [receive, snd_reply, handleHello]
    split_ifs
    · exact h
    · exact ⟨h.files, h.wanted⟩
    · exact ⟨h.files, h.wanted⟩
  | folderSummary m =>
    simp only [receive, snd_reply, handleFolderSummary]
    split_ifs
    · exact h
    · refine ⟨fun ours hours => ?_, h.wanted⟩
      obtain rfl := Option.some.inj hours
      rfl
  | manifest m =>
    simp only [receive, snd_reply]
    by_cases hok : ∃ want, (handleManifest env s m).1 = .ok want
    · obtain ⟨want, hok⟩ := hok
      obtain ⟨-, ours, hours, hmem, -, hours', -⟩ := handleManifest_of_ok hok
      refine ⟨fun ours' h' => ?_, ?_⟩
      · obtain rfl := Option.some.inj (hours'.symm.trans h')
        exact h.files ours hours
      · apply Finset.eq_empty_of_forall_notMem
        intro hash hwanted
        obtain ⟨-, path, entry, hlookup, -⟩ := (hmem hash).mp hwanted
        have hentry := (Manifest.path_of_lookup_fileMap hlookup).1
        rw [h.files ours hours] at hentry
        cases hentry
    · exact h.of_undisturbed (undisturbed_handleManifest (not_exists.mp hok))
  | want m => exact h.of_undisturbed (undisturbed_handleWant env s m)
  | haves m => exact h
  | chunkData m =>
    simp only [receive, snd_reply]
    by_cases haccept : ∃ total transferred, s.state = .transferring total transferred ∧
        Accepts env s m
    · obtain ⟨total, transferred, hstate, haccept⟩ := haccept
      rw [handleChunkData_of_accepts hstate haccept]
      exact ⟨h.files, by simp [h.wanted]⟩
    · exact h.of_undisturbed (handleChunkData_of_not_accepts
        fun total transferred hstate haccept' =>
        haccept ⟨total, transferred, hstate, haccept'⟩).1
  | ack m =>
    simp only [receive, snd_reply, handleAck, updatePeerState]
    split_ifs
    · cases env.databaseError <;> exact ⟨h.files, h.wanted⟩
    · exact ⟨h.files, h.wanted⟩
    · exact h
  | error m => exact ⟨h.files, h.wanted⟩

/-- **A session that starts from scratch never wants a chunk**, whatever it is sent: it compares the
peer's manifest with one of its own that has no files. -/
theorem wantedChunks_of_run_new {peerId peerName : Text} {cas : σ}
    {database : HashMap Text PeerSyncState}
    (hrun : Runs.Run next (fun _ _ => True) (new peerId peerName cas database) s') :
    s'.wantedChunks = ∅ := by
  have hnew : NothingOurs (new peerId peerName cas database) :=
    ⟨fun ours hours => by simp [new] at hours, rfl⟩
  have hlast : NothingOurs s' := hrun.invariant hnew fun {s₁ call s₂} _ h₁ _ hnext =>
    nothingOurs_next h₁ call hnext
  exact hlast.wanted

section Examples

/-- A folder with one file of one chunk. -/
private def oneChunk : Manifest :=
  { folderId := "folder".toList
    version := 1
    files := [⟨"a".toList, 1, ⟨0, 0⟩, [], [Hex.encode sampleChunk.hash], none⟩]
    createdAt := ⟨0, 0⟩
    manifestHash := none }

/-- A session that has just loaded the manifest of a folder with one chunk. -/
private def loaded : LiveSession (HashMap ContentHash Bytes) :=
  { new "peer".toList "Peer".toList ∅ ∅ with
    state := .computingDiff
    ourManifest := some oneChunk }

/-- The manifest of a peer without files. -/
private def noFiles : ProtoManifest := ⟨"folder".toList, [], none, []⟩

/-- A manifest that needs a chunk, and that chunk, keep the two records in agreement. -/
theorem countsWanted_of_run_oneChunk : ∃ s',
    Runs.Run next Expected loaded s' ∧ s'.state = .verifying ∧ s'.wantedChunks = ∅ ∧
      CountsWanted s' := by
  have hmanifest : Expected loaded (memoryEnv, .manifest noFiles) := by
    intro _ ours hours
    obtain rfl := Option.some.inj hours
    have hempty : (SyncSession.protoToManifest memoryEnv.toEnv noFiles).fileMap = ∅ := rfl
    refine ⟨Hex.encode sampleChunk.hash, Finset.notMem_empty _, "a".toList,
      ⟨"a".toList, 1, ⟨0, 0⟩, [], [Hex.encode sampleChunk.hash], none⟩, rfl, List.mem_cons_self,
      fun own hown => ?_⟩
    rw [hempty] at hown
    cases hown
  have hchunk : Expected (handleManifest memoryEnv loaded noFiles).2
      (memoryEnv, .chunkData sampleChunk) := by
    intro _ _ _ _
    decide +kernel
  have hrun : Runs.Run next Expected loaded
      (handleChunkData memoryEnv (handleManifest memoryEnv loaded noFiles).2 sampleChunk).2 :=
    (Relation.ReflTransGen.single ⟨_, hmanifest, rfl⟩).tail ⟨_, hchunk, rfl⟩
  have hloaded : CountsWanted loaded := .of_state (by simp [loaded]) (by simp [loaded])
    (by simp [loaded])
  exact ⟨_, hrun, by decide +kernel, by decide +kernel, (countsWanted_of_run hloaded hrun).1⟩

/-- The manifest of a peer with one file of one chunk. -/
private def oneFile : ProtoManifest :=
  ⟨"folder".toList, [⟨"a".toList, 1, 420, none, [sampleChunk.hash], sampleChunk.hash⟩], none, []⟩

/-- Nor does one that has handled the manifest of a peer with a chunk. -/
theorem wantedChunks_opening : ∃ s' : LiveSession (HashMap ContentHash Bytes),
    Runs.exec next (fun _ _ => True) (opening oneFile) (new [] [] ∅ ∅) = some s' ∧
      s'.wantedChunks = ∅ := by
  obtain ⟨s', hs'⟩ := Option.isSome_iff_exists.mp (show (Runs.exec next (fun _ _ => True)
    (opening oneFile) (new [] [] ∅ ∅)).isSome = true by decide +kernel)
  exact ⟨s', hs', wantedChunks_of_run_new (Runs.run_of_exec hs')⟩

/-- A session that has handled a manifest which needs nothing transfers chunks, and wants none. -/
theorem not_forall_countsWanted :
    ¬ ∀ s' : LiveSession (HashMap ContentHash Bytes),
      Runs.Run next (fun _ _ => True) (new "peer".toList "Peer".toList ∅ ∅) s' →
      CountsWanted s' := by
  intro hall
  have hexec : (Runs.exec next (fun _ _ => True) (opening noFiles)
      (new "peer".toList "Peer".toList ∅ ∅)).map (fun s => (s.state, s.wantedChunks)) =
      some (.transferring 0 0, ∅) := by decide +kernel
  obtain ⟨s', hs', hfields⟩ := Option.map_eq_some_iff.mp hexec
  obtain ⟨hstate, hwanted⟩ := Prod.mk.inj hfields
  have hne := ((hall s' (Runs.run_of_exec hs')).transferring 0 0 hstate).1
  exact hne.ne_empty hwanted

end Examples

end LiveSession

end Landropic
