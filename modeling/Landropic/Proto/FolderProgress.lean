import Landropic.Foundations.Runs
import Landropic.Proto.SyncHandler

set_option autoImplicit false

/-!
# The accounts of a protocol handler

A folder should have received as many chunks as are no longer pending, and a session should be
completed exactly when the manifest of every announced folder has been handled and no chunk is
pending. A second manifest for a folder that has received chunks breaks the first law, since the
counter of received chunks is kept. A folder without chunks is never complete, so with one the
second law breaks when nothing else is left to come.

## Main definitions

* `SyncProtocolHandler.Observed` — a handler, and the folders whose manifests it handled.
* `SyncProtocolHandler.Kept` — the two laws.
* `SyncProtocolHandler.Meets` — the calls that keep them.

## Main results

* `SyncProtocolHandler.kept_next_iff` — exactly these calls keep the laws.
* `SyncProtocolHandler.kept_of_run` — the laws hold along every run of such calls.
-/

namespace Landropic

namespace SyncProtocolHandler

/-- The messages of a session without errors. -/
inductive Incoming
  | hello (m : Hello)
  | folderSummary (m : FolderSummary)
  | manifest (m : ProtoManifest)
  | want (m : Want)
  | chunkData (m : ChunkData)

/-- A handler, and the folders whose manifests have been handled. -/
structure Observed where
  handler : SyncProtocolHandler
  handled : Finset Text

/-- The handler after a message that was accepted. -/
def accepted {α : Type} :
    Except (Stop ProtoError) α × SyncProtocolHandler → Option SyncProtocolHandler
  | (.ok _, h) => some h
  | (.error _, _) => none

/-- One accepted message. -/
def next (o : Observed) : Env × Incoming → Option Observed
  | (env, .hello m) =>
    (accepted (handleHello env o.handler m)).map fun h => { o with handler := h }
  | (_, .folderSummary m) =>
    (accepted (handleFolderSummary o.handler m)).map fun h => { o with handler := h }
  | (env, .manifest m) =>
    (accepted (handleManifest env o.handler m)).map fun h => ⟨h, insert m.folderId o.handled⟩
  | (_, .want m) => (accepted (handleWant o.handler m)).map fun h => { o with handler := h }
  | (env, .chunkData m) =>
    (accepted (handleChunkData env o.handler m)).map fun h => { o with handler := h }

/-- Every folder has received the chunks that are no longer pending. -/
def Accounted (o : Observed) : Prop :=
  ∀ f p, o.handler.folderProgress.lookup f = some p →
    p.receivedChunks + p.pendingChunks.card = p.totalChunks

/-- The manifest of every folder but one has been handled, and no chunk of such a folder is
pending. -/
def OthersDone (o : Observed) (f : Text) : Prop :=
  ∀ g p, o.handler.folderProgress.lookup g = some p → g ≠ f →
    g ∈ o.handled ∧ p.pendingChunks = ∅

/-- Every folder has chunks. -/
def Filled (o : Observed) : Prop :=
  ∀ f p, o.handler.folderProgress.lookup f = some p → 0 < p.totalChunks

/-- A folder was announced, the manifest of every announced folder has been handled, and no chunk is
pending. -/
def Finished (o : Observed) : Prop :=
  (∃ f, f ∈ o.handler.folderProgress) ∧
    ∀ f p, o.handler.folderProgress.lookup f = some p → f ∈ o.handled ∧ p.pendingChunks = ∅

/-- **The laws**: the counters are in agreement, and the session is completed exactly when it is
finished. -/
structure Kept (o : Observed) : Prop where
  accounted : Accounted o
  completed : o.handler.state = .completed ↔ Finished o

/-- The messages that keep the laws. A folder is announced again after its manifest only while
another folder is not done. The manifest of an announced folder comes before the chunks of the
folder, and has chunks unless another folder is not done. Where the last pending chunk of all
folders arrives, every folder has chunks. -/
def Meets (o : Observed) : Env × Incoming → Prop
  | (_, .hello _) => True
  | (_, .folderSummary m) => ¬ (m.folderId ∈ o.handled ∧ OthersDone o m.folderId)
  | (_, .manifest m) =>
    ∀ p, o.handler.folderProgress.lookup m.folderId = some p →
      p.receivedChunks = 0 ∧ ¬ (allChunks m = ∅ ∧ OthersDone o m.folderId)
  | (_, .want _) => True
  | (_, .chunkData m) =>
    (∃ f p, o.handler.folderProgress.lookup f = some p ∧ f ∈ o.handled ∧
      p.pendingChunks = {m.hash} ∧ OthersDone o f) → Filled o

/-- What holds along every run: only a folder whose manifest was handled has chunks, and folders are
announced in the states of a sync. -/
structure Tracked (o : Observed) : Prop where
  handled : ∀ f p, o.handler.folderProgress.lookup f = some p → 0 < p.totalChunks → f ∈ o.handled
  started : (∃ f, f ∈ o.handler.folderProgress) →
    o.handler.state = .syncing ∨ o.handler.state = .completed

section Steps

variable {env : Env} {o o' : Observed} {call : Env × Incoming}

lemma kept_new (deviceId : Bytes) (deviceName : Text) : Kept ⟨new deviceId deviceName, ∅⟩ where
  accounted f p h := by simp [new] at h
  completed := by
    refine iff_of_false (by simp [new]) fun h => ?_
    obtain ⟨f, hf⟩ := h.1
    exact Finmap.notMem_empty hf

lemma tracked_new (deviceId : Bytes) (deviceName : Text) :
    Tracked ⟨new deviceId deviceName, ∅⟩ where
  handled f p h := by simp [new] at h
  started := by
    rintro ⟨f, hf⟩
    exact absurd hf Finmap.notMem_empty

/-- In a state other than `Completed` the laws are that the counters agree and there is something
left to come. -/
lemma kept_iff_of_ne (h : o.handler.state ≠ .completed) : Kept o ↔ Accounted o ∧ ¬ Finished o := by
  constructor
  · intro hkept
    exact ⟨hkept.accounted, fun hfinished => h (hkept.completed.mpr hfinished)⟩
  · rintro ⟨haccounted, hfinished⟩
    exact ⟨haccounted, iff_of_false h hfinished⟩

lemma accepted_eq_some_iff {α : Type} {reply : Except (Stop ProtoError) α × SyncProtocolHandler}
    {h : SyncProtocolHandler} : accepted reply = some h ↔ ∃ a, reply = (.ok a, h) := by
  obtain ⟨result, h'⟩ := reply
  cases result with
  | error e => simp [accepted]
  | ok a => simp [accepted]

lemma next_hello {m : Hello} (hnext : next o (env, .hello m) = some o') :
    o.handler.state = .waitingForHello ∧ o'.handler.state = .connected ∧
      o'.handler.folderProgress = o.handler.folderProgress ∧ o'.handled = o.handled := by
  simp only [next, Option.map_eq_some_iff, accepted_eq_some_iff] at hnext
  obtain ⟨h, ⟨a, hreply⟩, rfl⟩ := hnext
  unfold handleHello at hreply
  split_ifs at hreply with hstate hversion hlog
  · cases (Prod.mk.inj hreply).1
  · cases (Prod.mk.inj hreply).1
  · cases (Prod.mk.inj hreply).1
  · rw [← (Prod.mk.inj hreply).2]
    exact ⟨not_not.mp hstate, rfl, rfl, rfl⟩

lemma next_folderSummary {m : FolderSummary} (hnext : next o (env, .folderSummary m) = some o') :
    o'.handler.state = .syncing ∧
      o'.handler.folderProgress = o.handler.folderProgress.insert m.folderId (.new m.folderId) ∧
      o'.handled = o.handled := by
  simp only [next, Option.map_eq_some_iff, accepted_eq_some_iff] at hnext
  obtain ⟨h, ⟨a, hreply⟩, rfl⟩ := hnext
  unfold handleFolderSummary at hreply
  split_ifs at hreply with hstate hconnected
  · cases (Prod.mk.inj hreply).1
  · rw [← (Prod.mk.inj hreply).2]
    exact ⟨rfl, rfl, rfl⟩
  · rw [← (Prod.mk.inj hreply).2]
    refine ⟨?_, rfl, rfl⟩
    by_contra hsyncing
    exact hstate ⟨hconnected, hsyncing⟩

/-- The manifest of an announced folder sets its chunks. -/
lemma next_manifest {m : ProtoManifest} (hnext : next o (env, .manifest m) = some o') :
    o.handler.state = .syncing ∧ o'.handler.state = .syncing ∧
      o'.handled = insert m.folderId o.handled ∧
      ((o.handler.folderProgress.lookup m.folderId = none ∧
          o'.handler.folderProgress = o.handler.folderProgress) ∨
        ∃ p, o.handler.folderProgress.lookup m.folderId = some p ∧
          o'.handler.folderProgress = o.handler.folderProgress.insert m.folderId
            { p with totalChunks := (allChunks m).card, pendingChunks := allChunks m }) := by
  simp only [next, Option.map_eq_some_iff, accepted_eq_some_iff] at hnext
  obtain ⟨h, ⟨a, hreply⟩, rfl⟩ := hnext
  unfold handleManifest at hreply
  split_ifs at hreply with hstate
  · cases (Prod.mk.inj hreply).1
  · rw [not_not] at hstate
    rw [← (Prod.mk.inj hreply).2]
    refine ⟨hstate, hstate, rfl, ?_⟩
    cases hlookup : o.handler.folderProgress.lookup m.folderId with
    | none => exact .inl ⟨rfl, rfl⟩
    | some p => exact .inr ⟨p, rfl, rfl⟩

/-- A request is counted for an announced folder. -/
lemma next_want {m : Want} (hnext : next o (env, .want m) = some o') :
    o.handler.state = .syncing ∧ o'.handler.state = .syncing ∧ o'.handled = o.handled ∧
      (o'.handler.folderProgress = o.handler.folderProgress ∨
        ∃ p, o.handler.folderProgress.lookup m.folderId = some p ∧
          o'.handler.folderProgress = o.handler.folderProgress.insert m.folderId
            { p with sentChunks := p.sentChunks + m.chunkHashes.length }) := by
  simp only [next, Option.map_eq_some_iff, accepted_eq_some_iff] at hnext
  obtain ⟨h, ⟨a, hreply⟩, rfl⟩ := hnext
  unfold handleWant at hreply
  split_ifs at hreply with hstate
  · cases (Prod.mk.inj hreply).1
  · rw [not_not] at hstate
    rw [← (Prod.mk.inj hreply).2]
    refine ⟨hstate, hstate, rfl, ?_⟩
    cases hlookup : o.handler.folderProgress.lookup m.folderId with
    | none => exact .inl rfl
    | some p => exact .inr ⟨p, rfl, rfl⟩

/-- The first folder that waits for a chunk receives it, if there is one. -/
lemma receiveFirst_cases (hash : Bytes) (progress : HashMap Text FolderSyncProgress)
    (folders : List (Text × FolderSyncProgress)) :
    ((∀ f ∈ folders, hash ∉ f.2.pendingChunks) ∧
        receiveFirst hash progress folders = progress) ∨
      ∃ f ∈ folders, hash ∈ f.2.pendingChunks ∧
        receiveFirst hash progress folders = progress.insert f.1
          { f.2 with
            pendingChunks := f.2.pendingChunks.erase hash
            receivedChunks := f.2.receivedChunks + 1 } := by
  induction folders with
  | nil => exact .inl ⟨by simp, rfl⟩
  | cons f rest ih =>
    by_cases hmem : hash ∈ f.2.pendingChunks
    · exact .inr ⟨f, List.mem_cons_self, hmem, by simp [receiveFirst, hmem]⟩
    · have hskip : receiveFirst hash progress (f :: rest) = receiveFirst hash progress rest := by
        simp [receiveFirst, hmem]
      rw [hskip]
      rcases ih with ⟨hnone, heq⟩ | ⟨f', hf', hpending, heq⟩
      · refine .inl ⟨fun f' hf' => ?_, heq⟩
        rcases List.mem_cons.mp hf' with rfl | hf'
        · exact hmem
        · exact hnone f' hf'
      · exact .inr ⟨f', List.mem_cons_of_mem f hf', hpending, heq⟩

/-- A chunk is received by a folder that waits for it, if there is one, and the session is completed
if all folders are. -/
lemma next_chunkData {m : ChunkData} (hnext : next o (env, .chunkData m) = some o') :
    o.handler.state = .syncing ∧ o'.handled = o.handled ∧
      (o'.handler.state = .completed ↔ (∃ f, f ∈ o'.handler.folderProgress) ∧
        ∀ f p, o'.handler.folderProgress.lookup f = some p → p.isComplete) ∧
      (o'.handler.state ≠ .completed → o'.handler.state = .syncing) ∧
      (((∀ f p, o.handler.folderProgress.lookup f = some p → m.hash ∉ p.pendingChunks) ∧
          o'.handler.folderProgress = o.handler.folderProgress) ∨
        ∃ f p, o.handler.folderProgress.lookup f = some p ∧ m.hash ∈ p.pendingChunks ∧
          o'.handler.folderProgress = o.handler.folderProgress.insert f
            { p with
              pendingChunks := p.pendingChunks.erase m.hash
              receivedChunks := p.receivedChunks + 1 }) := by
  simp only [next, Option.map_eq_some_iff, accepted_eq_some_iff] at hnext
  obtain ⟨h, ⟨a, hreply⟩, rfl⟩ := hnext
  unfold handleChunkData at hreply
  split_ifs at hreply with hstate
  · cases (Prod.mk.inj hreply).1
  · rw [not_not] at hstate
    rw [← (Prod.mk.inj hreply).2]
    have hall : ∀ progress : HashMap Text FolderSyncProgress,
        ((env.folders.entries progress).all fun f => f.2.isComplete) = true ↔
          ∀ f p, progress.lookup f = some p → p.isComplete := by
      intro progress
      simp only [List.all_eq_true, Prod.forall, env.folders.mem_entries]
    have hany : ∀ progress : HashMap Text FolderSyncProgress,
        progress.keys ≠ ∅ ↔ ∃ f, f ∈ progress := by
      intro progress
      simp only [← Finset.nonempty_iff_ne_empty, Finset.Nonempty, Finmap.mem_keys]
    refine ⟨hstate, rfl, ?_, ?_, ?_⟩
    · dsimp only
      split_ifs with hdone
      · rw [hall, hany] at hdone
        exact iff_of_true rfl hdone.symm
      · rw [hall, hany] at hdone
        exact iff_of_false (by simp [hstate]) fun h => hdone h.symm
    · dsimp only
      split_ifs
      · simp
      · exact fun _ => hstate
    · rcases receiveFirst_cases m.hash o.handler.folderProgress
        (env.folders.entries o.handler.folderProgress) with ⟨hnone, heq⟩ | ⟨f, hf, hpending, heq⟩
      · exact .inl ⟨fun f p hlookup => hnone (f, p) (env.folders.mem_entries.mpr hlookup), heq⟩
      · exact .inr ⟨f.1, f.2, env.folders.mem_entries.mp hf, hpending, heq⟩

lemma tracked_next (h : Tracked o) (hnext : next o call = some o') : Tracked o' := by
  obtain ⟨env, message⟩ := call
  cases message with
  | hello m =>
    obtain ⟨hstate, -, hprogress, hhandled⟩ := next_hello hnext
    refine ⟨by rw [hprogress, hhandled]; exact h.handled, fun hany => ?_⟩
    rw [hprogress] at hany
    simpa [hstate] using h.started hany
  | folderSummary m =>
    obtain ⟨hstate, hprogress, hhandled⟩ := next_folderSummary hnext
    refine ⟨?_, fun _ => .inl hstate⟩
    rw [hprogress, hhandled, HashMap.forall_lookup_insert]
    exact ⟨by simp [FolderSyncProgress.new], fun f p hlookup _ => h.handled f p hlookup⟩
  | manifest m =>
    obtain ⟨-, hstate, hhandled, ⟨-, hprogress⟩ | ⟨p, -, hprogress⟩⟩ := next_manifest hnext
    · refine ⟨?_, fun _ => .inl hstate⟩
      rw [hprogress, hhandled]
      exact fun f p hlookup hpos => Finset.mem_insert_of_mem (h.handled f p hlookup hpos)
    · refine ⟨?_, fun _ => .inl hstate⟩
      rw [hprogress, hhandled, HashMap.forall_lookup_insert]
      exact ⟨fun _ => Finset.mem_insert_self _ _, fun f p hlookup _ hpos =>
        Finset.mem_insert_of_mem (h.handled f p hlookup hpos)⟩
  | want m =>
    obtain ⟨-, hstate, hhandled, hprogress | ⟨p, hp, hprogress⟩⟩ := next_want hnext
    · exact ⟨by rw [hprogress, hhandled]; exact h.handled, fun _ => .inl hstate⟩
    · refine ⟨?_, fun _ => .inl hstate⟩
      rw [hprogress, hhandled, HashMap.forall_lookup_insert]
      exact ⟨h.handled _ p hp, fun f p hlookup _ => h.handled f p hlookup⟩
  | chunkData m =>
    obtain ⟨-, hhandled, -, hstate, ⟨-, hprogress⟩ | ⟨f, p, hp, -, hprogress⟩⟩ :=
      next_chunkData hnext
    · exact ⟨by rw [hprogress, hhandled]; exact h.handled,
        fun _ => (em _).symm.imp_left hstate⟩
    · refine ⟨?_, fun _ => (em _).symm.imp_left hstate⟩
      rw [hprogress, hhandled, HashMap.forall_lookup_insert]
      exact ⟨h.handled f p hp, fun f p hlookup _ => h.handled f p hlookup⟩

/-! ## Which messages keep the laws -/

/-- A folder in the map makes it finished when it and the others are done. -/
lemma finished_insert_iff {f : Text} {p : FolderSyncProgress}
    (hprogress : o'.handler.folderProgress = o.handler.folderProgress.insert f p) :
    Finished o' ↔ (f ∈ o'.handled ∧ p.pendingChunks = ∅) ∧
      ∀ g q, o.handler.folderProgress.lookup g = some q → g ≠ f →
        g ∈ o'.handled ∧ q.pendingChunks = ∅ := by
  rw [Finished, hprogress, HashMap.forall_lookup_insert]
  exact and_iff_right ⟨f, Finmap.mem_insert.mpr (.inl rfl)⟩

lemma accounted_insert_iff {f : Text} {p : FolderSyncProgress} (h : Accounted o)
    (hprogress : o'.handler.folderProgress = o.handler.folderProgress.insert f p) :
    Accounted o' ↔ p.receivedChunks + p.pendingChunks.card = p.totalChunks := by
  rw [Accounted, hprogress, HashMap.forall_lookup_insert]
  exact and_iff_left fun g q hlookup _ => h g q hlookup

lemma kept_next_hello (h : Kept o) (ht : Tracked o) {m : Hello}
    (hnext : next o (env, .hello m) = some o') : Kept o' := by
  obtain ⟨hstate, hstate', hprogress, hhandled⟩ := next_hello hnext
  refine ⟨by rw [Accounted, hprogress]; exact h.accounted, ?_⟩
  refine iff_of_false (by simp [hstate']) fun hfinished => ?_
  have hany := hfinished.1
  rw [hprogress] at hany
  simpa [hstate] using ht.started hany

lemma kept_next_folderSummary_iff (h : Kept o) {m : FolderSummary}
    (hnext : next o (env, .folderSummary m) = some o') :
    Kept o' ↔ Meets o (env, .folderSummary m) := by
  obtain ⟨hstate, hprogress, hhandled⟩ := next_folderSummary hnext
  rw [kept_iff_of_ne (by simp [hstate]), accounted_insert_iff h.accounted hprogress,
    finished_insert_iff hprogress, hhandled]
  simp [FolderSyncProgress.new, Meets, OthersDone]

lemma kept_next_manifest_iff (h : Kept o) {m : ProtoManifest}
    (hnext : next o (env, .manifest m) = some o') : Kept o' ↔ Meets o (env, .manifest m) := by
  obtain ⟨hbefore, hstate, hhandled, ⟨hnone, hprogress⟩ | ⟨p, hp, hprogress⟩⟩ := next_manifest hnext
  · refine iff_of_true ?_ fun p hp => by simp [hnone] at hp
    rw [kept_iff_of_ne (by simp [hstate])]
    refine ⟨by rw [Accounted, hprogress]; exact h.accounted, fun hfinished => ?_⟩
    -- a manifest of a folder that was not announced finishes nothing
    have hcompleted := h.completed.mpr ⟨hprogress ▸ hfinished.1, fun f p hlookup => ?_⟩
    · simp [hbefore] at hcompleted
    · have hf := hfinished.2 f p (by rw [hprogress]; exact hlookup)
      rw [hhandled] at hf
      refine ⟨Finset.mem_of_mem_insert_of_ne hf.1 fun heq => ?_, hf.2⟩
      rw [heq, hnone] at hlookup
      cases hlookup
  · rw [kept_iff_of_ne (by simp [hstate]), accounted_insert_iff h.accounted hprogress,
      finished_insert_iff hprogress, hhandled]
    have hothers : (∀ g q, o.handler.folderProgress.lookup g = some q → g ≠ m.folderId →
        g ∈ insert m.folderId o.handled ∧ q.pendingChunks = ∅) ↔ OthersDone o m.folderId := by
      refine forall_congr' fun g => forall_congr' fun q => forall_congr' fun _ =>
        forall_congr' fun hne => ?_
      rw [Finset.mem_insert, or_iff_right hne]
    rw [hothers]
    simp [Meets, hp]

lemma kept_next_want (h : Kept o) {m : Want} (hnext : next o (env, .want m) = some o') :
    Kept o' := by
  obtain ⟨hbefore, hstate, hhandled, hprogress | ⟨p, hp, hprogress⟩⟩ := next_want hnext
  · rw [kept_iff_of_ne (by simp [hstate])]
    rw [kept_iff_of_ne (by simp [hbefore])] at h
    rw [Accounted, Finished, hprogress, hhandled]
    exact h
  · rw [kept_iff_of_ne (by simp [hstate]), accounted_insert_iff h.accounted hprogress,
      finished_insert_iff hprogress, hhandled]
    rw [kept_iff_of_ne (by simp [hbefore])] at h
    refine ⟨h.1 _ p hp, fun hfinished => h.2 ⟨⟨m.folderId, Finmap.mem_iff.mpr ⟨p, hp⟩⟩, ?_⟩⟩
    intro g q hlookup
    by_cases hne : g = m.folderId
    · subst hne
      rw [hp] at hlookup
      exact Option.some.inj hlookup ▸ hfinished.1
    · exact hfinished.2 g q hlookup hne

/-- Where the counters agree, all folders are complete if the session is finished and every folder
has chunks. -/
lemma forall_isComplete_iff (h : Accounted o) (ht : Tracked o) :
    ((∃ f, f ∈ o.handler.folderProgress) ∧
        ∀ f p, o.handler.folderProgress.lookup f = some p → p.isComplete) ↔
      Finished o ∧ Filled o := by
  simp only [FolderSyncProgress.isComplete, decide_eq_true_eq]
  constructor
  · rintro ⟨hany, hall⟩
    refine ⟨⟨hany, fun f p hlookup => ?_⟩, fun f p hlookup => (hall f p hlookup).1⟩
    obtain ⟨hpos, hreceived⟩ := hall f p hlookup
    have hcount := h f p hlookup
    exact ⟨ht.handled f p hlookup hpos, Finset.card_eq_zero.mp (by omega)⟩
  · rintro ⟨⟨hany, hall⟩, hfilled⟩
    refine ⟨hany, fun f p hlookup => ⟨hfilled f p hlookup, ?_⟩⟩
    have hcount := h f p hlookup
    rw [(hall f p hlookup).2, Finset.card_empty] at hcount
    omega

lemma kept_next_chunkData_iff (h : Kept o) (ht : Tracked o) {m : ChunkData}
    (hnext : next o (env, .chunkData m) = some o') :
    Kept o' ↔ Meets o (env, .chunkData m) := by
  have ht' := tracked_next ht hnext
  obtain ⟨hbefore, hhandled, hcompleted, -, hcases⟩ := next_chunkData hnext
  rw [kept_iff_of_ne (by simp [hbefore])] at h
  -- the counters of the folder that receives the chunk stay in agreement
  have haccounted : Accounted o' := by
    rcases hcases with ⟨-, hprogress⟩ | ⟨f, p, hp, hpending, hprogress⟩
    · rw [Accounted, hprogress]
      exact h.1
    · have hcount := h.1 f p hp
      have herase := Finset.card_erase_of_mem hpending
      have hpos := Finset.card_pos.mpr ⟨_, hpending⟩
      rw [accounted_insert_iff h.1 hprogress]
      dsimp only
      omega
  have hkept : Kept o' ↔ (Finished o' → Filled o') := by
    rw [forall_isComplete_iff haccounted ht'] at hcompleted
    constructor
    · intro hkept hfinished
      exact (hcompleted.mp (hkept.completed.mpr hfinished)).2
    · intro hfilled
      exact ⟨haccounted, hcompleted.trans (and_iff_left_of_imp hfilled)⟩
  rw [hkept]
  rcases hcases with ⟨hnone, hprogress⟩ | ⟨f, p, hp, hpending, hprogress⟩
  · refine iff_of_true (fun hfinished => absurd ?_ h.2) ?_
    · rwa [Finished, hprogress, hhandled] at hfinished
    · rintro ⟨f, p, hp, -, hlast, -⟩
      exact absurd (hlast ▸ Finset.mem_singleton_self m.hash) (hnone f p hp)
  · have hfilled : Filled o' ↔ Filled o := by
      rw [Filled, hprogress, HashMap.forall_lookup_insert]
      constructor
      · rintro ⟨hpos, hrest⟩ g q hlookup
        by_cases hne : g = f
        · subst hne
          rw [hp] at hlookup
          exact Option.some.inj hlookup ▸ hpos
        · exact hrest g q hlookup hne
      · intro hall
        exact ⟨hall f p hp, fun g q hlookup _ => hall g q hlookup⟩
    have hfinished : Finished o' ↔ ∃ f p, o.handler.folderProgress.lookup f = some p ∧
        f ∈ o.handled ∧ p.pendingChunks = {m.hash} ∧ OthersDone o f := by
      rw [finished_insert_iff hprogress, hhandled]
      constructor
      · rintro ⟨⟨hf, hempty⟩, hothers⟩
        refine ⟨f, p, hp, hf, ?_, hothers⟩
        dsimp only at hempty
        rw [← Finset.insert_erase hpending, hempty]
        rfl
      · rintro ⟨g, q, hq, hg, hlast, hothers⟩
        obtain rfl : f = g := by
          by_contra hne
          rw [(hothers f p hp hne).2] at hpending
          exact Finset.notMem_empty _ hpending
        obtain rfl := Option.some.inj (hp.symm.trans hq)
        exact ⟨⟨hg, by simp [hlast]⟩, hothers⟩
    rw [hfilled, hfinished, Meets]

/-- **Which messages keep the laws.**

**Proof sketch.** A summary starts the accounts of its folder again, a manifest sets its chunks
without looking at the chunks that were received, and a chunk moves from one side of the account of
one folder to the other. What is left to compare is whether the session is finished after the
message. -/
theorem kept_next_iff (h : Kept o) (ht : Tracked o) (hnext : next o call = some o') :
    Kept o' ↔ Meets o call := by
  obtain ⟨env, message⟩ := call
  cases message with
  | hello m => exact iff_of_true (kept_next_hello h ht hnext) trivial
  | folderSummary m => exact kept_next_folderSummary_iff h hnext
  | manifest m => exact kept_next_manifest_iff h hnext
  | want m => exact iff_of_true (kept_next_want h hnext) trivial
  | chunkData m => exact kept_next_chunkData_iff h ht hnext

/-! ## Runs -/

lemma tracked_along {C : Observed → Env × Incoming → Prop} (ht : Tracked o)
    (hrun : Runs.Run next C o o') : Tracked o' :=
  hrun.invariant ht fun _ ht' _ hnext => tracked_next ht' hnext

variable {deviceId : Bytes} {deviceName : Text}

/-- **The laws hold along every run of a new handler whose messages meet the condition**, and
exactly the messages that meet it keep them.

**Proof sketch.** By induction along the run, with `kept_next_iff` for the step. -/
theorem kept_of_run (hrun : Runs.Run next Meets ⟨new deviceId deviceName, ∅⟩ o) :
    Kept o ∧ ∀ call o', next o call = some o' → (Kept o' ↔ Meets o call) := by
  have ht := tracked_along (tracked_new deviceId deviceName) hrun
  have hkept : Kept o := hrun.invariant (kept_new deviceId deviceName)
    fun hrun' h hmeets hnext => (kept_next_iff h
      (tracked_along (tracked_new deviceId deviceName) hrun') hnext).mpr hmeets
  exact ⟨hkept, fun call o' hnext => kept_next_iff hkept ht hnext⟩

end Steps

section Examples

/-- A call with its log messages switched on. -/
private def plainEnv : Env := sortedEnv true

/-- A peer with a version of its own. -/
private def peerHello : Hello :=
  { version := "0.2.0".toList
    deviceId := List.replicate 32 1
    deviceName := "peer".toList
    capabilities := []
    timestamp := none }

private def summaryOf (folderId : Text) : FolderSummary :=
  { folderId := folderId
    folderPath := "/test".toList
    manifestHash := []
    totalSize := 0
    fileCount := 0
    lastModified := none }

/-- The manifest of a folder without files. -/
private def withoutFiles : ProtoManifest :=
  { folderId := "folder".toList, files := [], generatedAt := none, manifestHash := [] }

/-- A session with one folder. -/
private def oneFolder (state : SyncState) (p : FolderSyncProgress) (handled : Finset Text) :
    Observed :=
  { handler :=
      { state := state
        peerInfo := some ⟨List.replicate 32 1, "peer".toList, "0.2.0".toList, []⟩
        folderProgress := Finmap.insert "folder".toList p ∅
        ourDeviceId := [1, 2, 3]
        ourDeviceName := "test-device".toList }
    handled := handled }

private lemma forall_oneFolder {state : SyncState} {p : FolderSyncProgress} {handled : Finset Text}
    {P : Text → FolderSyncProgress → Prop} (h : P "folder".toList p) :
    ∀ f q, (oneFolder state p handled).handler.folderProgress.lookup f = some q → P f q := by
  refine HashMap.forall_lookup_insert.mpr ⟨h, fun f q hlookup _ => ?_⟩
  rw [Finmap.lookup_empty] at hlookup
  cases hlookup

/-- The manifest of a folder with a file of one chunk. -/
private def withChunk : ProtoManifest :=
  { folderId := "folder".toList
    files := [⟨"a".toList, 1, 420, none, [[7]], [7]⟩]
    generatedAt := none
    manifestHash := [] }

/-- A session that has asked for the only chunk of its folder keeps the laws. -/
theorem kept_of_run_withChunk :
    ∃ o, Runs.Run next Meets ⟨new [1, 2, 3] "test-device".toList, ∅⟩ o ∧
      o.handler.state = .syncing ∧ Kept o ∧
      ∀ call o', next o call = some o' → (Kept o' ↔ Meets o call) := by
  have h₁ : Runs.Run next Meets ⟨new [1, 2, 3] "test-device".toList, ∅⟩ _ :=
    .step (e := (plainEnv, .hello peerHello)) trivial rfl
  have h₂ := h₁.tail ⟨(plainEnv, .folderSummary (summaryOf "folder".toList)),
    fun h => Finset.notMem_empty _ h.1,
    (rfl : next _ _ = some (oneFolder .syncing (.new "folder".toList) ∅))⟩
  have h₃ := h₂.tail ⟨(plainEnv, .manifest withChunk),
    fun p hp => forall_oneFolder (P := fun _ p => p.receivedChunks = 0 ∧ _)
      ⟨rfl, fun h => absurd h.1 (by decide)⟩ _ p hp,
    (rfl : next _ _ = some (oneFolder .syncing ⟨"folder".toList, 1, 0, 0, {[7]}⟩
      {"folder".toList}))⟩
  exact ⟨_, h₃, rfl, kept_of_run h₃⟩

/-- A session with an empty folder is never completed. -/
theorem not_forall_kept :
    ¬ ∀ (deviceId : Bytes) (deviceName : Text) (o : Observed),
      Runs.Run next (fun _ _ => True) ⟨new deviceId deviceName, ∅⟩ o → Kept o := by
  intro hall
  have hrun : Runs.exec next (fun _ _ => True)
      [(plainEnv, .hello peerHello), (plainEnv, .folderSummary (summaryOf "folder".toList)),
        (plainEnv, .manifest withoutFiles)] ⟨new [1, 2, 3] "test-device".toList, ∅⟩ =
      some (oneFolder .syncing (.new "folder".toList) {"folder".toList}) := rfl
  have hkept := hall _ _ _ (Runs.run_of_exec hrun)
  have hfinished : Finished (oneFolder .syncing (.new "folder".toList) {"folder".toList}) :=
    ⟨⟨"folder".toList, Finmap.mem_insert.mpr (.inl rfl)⟩, forall_oneFolder ⟨by decide, rfl⟩⟩
  exact absurd (hkept.completed.mpr hfinished) (by decide)

end Examples

end SyncProtocolHandler

end Landropic
