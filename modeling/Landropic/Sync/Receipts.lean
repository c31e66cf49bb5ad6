import Landropic.Sync.Handlers

set_option autoImplicit false

/-!
# What a session receives

After the diff no message makes a session want more chunks. What it still wants are those that it
has not taken.

## Main definitions

* `LiveSession.after`, `LiveSession.taken` — the session after calls, and the chunks it took.
* `LiveSession.Settled` — sessions past the diff.

## Main results

* `LiveSession.wantedChunks_after` — which chunks are still wanted after any calls.
-/

namespace Landropic.LiveSession

variable {σ : Type}

/-- The session after calls. -/
def after (s : LiveSession σ) (calls : List (Call σ)) : LiveSession σ :=
  calls.foldl (fun s call => (receive call.1 s call.2).2) s

/-- The chunk that a call takes, if any. -/
def takes (s : LiveSession σ) : Call σ → List ChunkData
  | (env, .chunkData chunk) => if (handleChunkData env s chunk).1.isOk then [chunk] else []
  | _ => []

/-- The chunks that a session takes along calls. -/
def taken : LiveSession σ → List (Call σ) → List ChunkData
  | _, [] => []
  | s, call :: calls => takes s call ++ taken (receive call.1 s call.2).2 calls

/-- The hashes of chunks, in hexadecimal. -/
def hashes (chunks : List ChunkData) : Finset Text :=
  (chunks.map fun chunk => Hex.encode chunk.hash).toFinset

/-- A session is past the diff, and wants nothing once it has completed. -/
structure Settled (s : LiveSession σ) : Prop where
  not_initializing : s.state ≠ .initializing
  not_negotiating : s.state ≠ .negotiating
  not_computingDiff : s.state ≠ .computingDiff
  completed : s.state = .completed → s.wantedChunks = ∅

variable {s s' : LiveSession σ}

lemma Settled.of_undisturbed (h : Settled s) (hs : Undisturbed s s') : Settled s' ∧
    s'.wantedChunks = s.wantedChunks \ hashes [] := by
  obtain ⟨hstate, -, hwanted, -⟩ := hs
  refine ⟨⟨?_, ?_, ?_, fun hdone => ?_⟩, by simp [hashes, hwanted]⟩
  · exact hstate ▸ h.not_initializing
  · exact hstate ▸ h.not_negotiating
  · exact hstate ▸ h.not_computingDiff
  · exact hwanted.trans (h.completed (hstate.symm.trans hdone))

lemma settled_receive (h : Settled s) (call : Call σ) : Settled (receive call.1 s call.2).2 ∧
    (receive call.1 s call.2).2.wantedChunks = s.wantedChunks \ hashes (takes s call) := by
  obtain ⟨env, message⟩ := call
  have hsame := h.of_undisturbed (.refl s)
  cases message with
  | hello m =>
    simp only [receive, snd_reply, handleHello, if_pos h.not_initializing]
    exact hsame
  | folderSummary m =>
    simp only [receive, snd_reply, handleFolderSummary, if_pos h.not_negotiating]
    exact hsame
  | manifest m =>
    simp only [receive, snd_reply, handleManifest, SyncSession.handleManifest,
      if_pos h.not_computingDiff]
    exact hsame
  | want m => exact h.of_undisturbed (undisturbed_handleWant env s m)
  | haves m => exact hsame
  | chunkData m =>
    simp only [receive, snd_reply, takes]
    by_cases haccept : ∃ total transferred, s.state = .transferring total transferred ∧
        Accepts env s m
    · obtain ⟨total, transferred, hstate, haccept⟩ := haccept
      rw [handleChunkData_of_accepts hstate haccept]
      constructor
      · -- the transfer goes on, or is to be verified
        unfold progress
        split_ifs <;> constructor <;> simp
      · simp [hashes, Except.isOk, Except.toBool, Finset.sdiff_singleton_eq_erase]
    · obtain ⟨hundisturbed, stop, hfail⟩ := handleChunkData_of_not_accepts
        fun total transferred hstate haccept' =>
        haccept ⟨total, transferred, hstate, haccept'⟩
      rw [hfail]
      exact h.of_undisturbed hundisturbed
  | ack m =>
    simp only [receive, snd_reply, handleAck, updatePeerState]
    split_ifs with hstate hverify
    · have hempty : s.wantedChunks = ∅ := of_decide_eq_true hverify
      cases env.databaseError <;> exact ⟨⟨by simp, by simp, by simp, fun _ => hempty⟩, hsame.2⟩
    · exact ⟨⟨by simp, by simp, by simp, by simp⟩, hsame.2⟩
    · exact hsame
  | error m =>
    simp only [receive, snd_reply, handleError]
    exact ⟨⟨by simp, by simp, by simp, by simp⟩, hsame.2⟩

/-- **What a session past the diff wants after any calls** is what it wanted and did not take; and
when it has completed it has taken all of it. -/
theorem wantedChunks_after (h : Settled s) (calls : List (Call σ)) :
    (s.after calls).wantedChunks = s.wantedChunks \ hashes (s.taken calls) ∧
      ((s.after calls).state = .completed → s.wantedChunks ⊆ hashes (s.taken calls)) := by
  have hall : Settled (s.after calls) ∧
      (s.after calls).wantedChunks = s.wantedChunks \ hashes (s.taken calls) := by
    induction calls generalizing s with
    | nil => exact h.of_undisturbed (.refl s)
    | cons call calls ih =>
      obtain ⟨hnext, hwanted⟩ := settled_receive h call
      obtain ⟨hlast, heq⟩ := ih hnext
      refine ⟨hlast, heq.trans ?_⟩
      rw [hwanted, sdiff_sdiff, taken, hashes, hashes, hashes, List.map_append,
        List.toFinset_append, Finset.sup_eq_union]
  refine ⟨hall.2, fun hdone => ?_⟩
  rw [← Finset.sdiff_eq_empty_iff_subset, ← hall.2]
  exact hall.1.completed hdone

/-- A session that wants a chunk. -/
private def wanting : LiveSession (HashMap ContentHash Bytes) :=
  { new [] [] ∅ ∅ with
    state := .transferring 1 0
    wantedChunks := {Hex.encode sampleChunk.hash} }

/-- The chunk and an acknowledgment complete it. -/
theorem wantedChunks_subset_sampleChunk : wanting.wantedChunks ⊆ hashes (wanting.taken
    [(memoryEnv, .chunkData sampleChunk), (memoryEnv, .ack ⟨[], true, []⟩)]) :=
  (wantedChunks_after ⟨by decide, by decide, by decide, by decide⟩ _).2 (by decide +kernel)

end Landropic.LiveSession
