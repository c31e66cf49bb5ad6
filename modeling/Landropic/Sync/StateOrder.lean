import Landropic.Foundations.Runs
import Landropic.Sync.Handlers

set_option autoImplicit false

/-!
# The order of the states of a session

A session goes through its states in one direction, and the states `Completed` and `Failed` are the
last ones. Every handler but one looks at the state before it changes it. The handler of errors does
not: an error that comes after the end replaces the state, so a session that the database has as
completed can still fail.

## Main definitions

* `SessionState.Forward` — one step forward.
* `LiveSession.Timely` — the calls that are no error after the end.

## Main results

* `LiveSession.forward_next_iff` — which calls go forward or stay.
* `LiveSession.ordered_of_run` — the order of the states along a run.
-/

namespace Landropic

namespace SessionState

/-- The states a session ends in. -/
def Terminal : SessionState → Prop
  | completed | failed _ => True
  | _ => False

/-- One step forward; a session that has not ended can fail. -/
inductive Forward : SessionState → SessionState → Prop
  | hello : Forward initializing negotiating
  | folderSummary : Forward negotiating computingDiff
  | manifest (total : ℕ) : Forward computingDiff (transferring total 0)
  | chunk (total transferred : ℕ) :
    Forward (transferring total transferred) (transferring total (transferred + 1))
  | received (total transferred : ℕ) : Forward (transferring total transferred) verifying
  | verified : Forward verifying completed
  | fail {state : SessionState} (msg : String) (h : ¬ state.Terminal) :
    Forward state (failed msg)

lemma Forward.not_terminal {state state' : SessionState} (h : Forward state state') :
    ¬ state.Terminal := by
  cases h with
  | fail msg h => exact h
  | _ => exact id

end SessionState

namespace LiveSession

open SessionState (Forward)

variable {σ : Type} {env : Env σ} {s s' s'' : LiveSession σ}

/-- The call is no error, or the session has not ended, or it has failed with this very error. -/
def Timely (s : LiveSession σ) : Call σ → Prop
  | (_, .error error) => ¬ s.state.Terminal ∨ s.state = .failed (String.ofList error.message)
  | _ => True

lemma forward_progress (total transferred : ℕ) :
    Forward (.transferring total transferred) (progress total transferred) := by
  unfold progress
  split_ifs
  · exact .received total transferred
  · exact .chunk total transferred

/-- **Which calls go forward or stay**: all but an error after the end.

**Proof sketch.** Every other handler tests for the one state it leads forward from. -/
theorem forward_next_iff {call : Call σ} (hnext : next s call = some s') :
    (s'.state = s.state ∨ Forward s.state s'.state) ↔ Timely s call := by
  obtain rfl := Option.some.inj hnext
  obtain ⟨env, message⟩ := call
  cases message with
  | hello m =>
    refine iff_of_true ?_ trivial
    simp only [receive, snd_reply, handleHello]
    by_cases hstate : s.state = .initializing
    · rw [if_neg (not_not.mpr hstate), hstate]
      cases isVersionCompatible m.version with
      | false => exact .inr (.fail _ id)
      | true => exact .inr .hello
    · rw [if_pos hstate]
      exact .inl rfl
  | folderSummary m =>
    refine iff_of_true ?_ trivial
    simp only [receive, snd_reply, handleFolderSummary]
    by_cases hstate : s.state = .negotiating
    · rw [if_neg (not_not.mpr hstate), hstate]
      exact .inr .folderSummary
    · rw [if_pos hstate]
      exact .inl rfl
  | manifest m =>
    refine iff_of_true ?_ trivial
    simp only [receive, snd_reply]
    by_cases hok : ∃ want, (handleManifest env s m).1 = .ok want
    · obtain ⟨want, hok⟩ := hok
      obtain ⟨hstate, ours, -, -, htransfer, -⟩ := handleManifest_of_ok hok
      rw [hstate, htransfer]
      exact .inr (.manifest _)
    · exact .inl (undisturbed_handleManifest (not_exists.mp hok)).state_eq
  | want m => exact iff_of_true (.inl (undisturbed_handleWant env s m).state_eq) trivial
  | haves m => exact iff_of_true (.inl rfl) trivial
  | chunkData m =>
    refine iff_of_true ?_ trivial
    simp only [receive, snd_reply]
    by_cases haccept : ∃ total transferred, s.state = .transferring total transferred ∧
        Accepts env s m
    · obtain ⟨total, transferred, hstate, haccept⟩ := haccept
      rw [handleChunkData_of_accepts hstate haccept, hstate]
      exact .inr (forward_progress total transferred)
    · have hno := handleChunkData_of_not_accepts fun total transferred hstate haccept' =>
        haccept ⟨total, transferred, hstate, haccept'⟩
      exact .inl hno.1.state_eq
  | ack m =>
    refine iff_of_true ?_ trivial
    simp only [receive, snd_reply, handleAck, updatePeerState]
    by_cases hstate : s.state = .verifying
    · rw [if_pos hstate, hstate]
      cases s.verifyTransfer with
      | false => exact .inr (.fail _ id)
      | true => cases env.databaseError <;> exact .inr .verified
    · rw [if_neg hstate]
      exact .inl rfl
  | error m =>
    simp only [receive, snd_reply, handleError, state_setState, Timely]
    constructor
    · intro h
      rcases h with h | h
      · exact .inr h.symm
      · exact .inl h.not_terminal
    · intro h
      rcases h with h | h
      · exact .inr (.fail _ h)
      · exact .inl h.symm

lemma completed_of_database_ne {call : Call σ} (hnext : next s call = some s')
    (h : s'.database ≠ s.database) : s'.state = .completed := by
  obtain rfl := Option.some.inj hnext
  obtain ⟨env, message⟩ := call
  revert h
  cases message with
  | hello m =>
    simp only [receive, snd_reply, handleHello]
    split_ifs <;> exact fun h => absurd rfl h
  | folderSummary m =>
    simp only [receive, snd_reply, handleFolderSummary]
    split_ifs <;> exact fun h => absurd rfl h
  | manifest m => exact fun h => absurd rfl h
  | want m => exact fun h => absurd (undisturbed_handleWant env s m).database_eq h
  | haves m => exact fun h => absurd rfl h
  | chunkData m =>
    simp only [receive, snd_reply]
    intro h
    by_cases haccept : ∃ total transferred, s.state = .transferring total transferred ∧
        Accepts env s m
    · obtain ⟨total, transferred, hstate, haccept⟩ := haccept
      rw [handleChunkData_of_accepts hstate haccept] at h
      exact absurd rfl h
    · have hno := handleChunkData_of_not_accepts fun total transferred hstate haccept' =>
        haccept ⟨total, transferred, hstate, haccept'⟩
      exact absurd hno.1.database_eq h
  | ack m =>
    simp only [receive, snd_reply, handleAck, updatePeerState]
    split_ifs
    · cases env.databaseError <;> exact fun _ => rfl
    · exact fun h => absurd rfl h
    · exact fun h => absurd rfl h
  | error m => exact fun h => absurd rfl h

lemma state_eq_of_terminal (hrun : Runs.Run next Timely s s') (h : s.state.Terminal) :
    s'.state = s.state := by
  refine hrun.invariant (I := fun t => t.state = s.state) rfl
    fun {s₁ call s₂} _ h₁ htimely hnext => ?_
  rcases (forward_next_iff hnext).mpr htimely with hsame | hforward
  · exact hsame.trans h₁
  · rw [h₁] at hforward
    exact absurd h hforward.not_terminal

/-- **The states of a session are in order along every run without errors after the end**: it only
goes forward, a session that has ended stays as it is, and one whose completion is recorded in the
database stays completed. Exactly the calls that are no errors after the end keep the order.

**Proof sketch.** Every step goes forward or stays, there is no step forward from the last states,
and the database is only changed by a step that completes the session. -/
theorem ordered_of_run (hrun : Runs.Run next Timely s s') (hrun' : Runs.Run next Timely s' s'') :
    Relation.ReflTransGen Forward s.state s'.state ∧
    (s'.state.Terminal → s''.state = s'.state) ∧
    (s'.database ≠ s.database → s''.state = .completed) ∧
    ∀ call t, next s'' call = some t →
      ((t.state = s''.state ∨ Forward s''.state t.state) ↔ Timely s'' call) := by
  have hforward : Relation.ReflTransGen Forward s.state s'.state := by
    refine hrun.invariant (I := fun t => Relation.ReflTransGen Forward s.state t.state) .refl
      fun {s₁ call s₂} _ h₁ htimely hnext => ?_
    rcases (forward_next_iff hnext).mpr htimely with hsame | hforward
    · rwa [hsame]
    · exact h₁.tail hforward
  have hrecorded : s'.database ≠ s.database → s'.state = .completed := by
    refine hrun.invariant (I := fun t => t.database ≠ s.database → t.state = .completed)
      (fun h => absurd rfl h) fun {s₁ call s₂} _ h₁ htimely hnext hne => ?_
    by_cases hsame : s₂.database = s₁.database
    · have hcompleted := h₁ (hsame ▸ hne)
      have hlast := state_eq_of_terminal (.step htimely hnext)
        (show s₁.state.Terminal by rw [hcompleted]; trivial)
      exact hlast.trans hcompleted
    · exact completed_of_database_ne hnext hsame
  refine ⟨hforward, state_eq_of_terminal hrun', fun hne => ?_, fun call t => forward_next_iff⟩
  have hcompleted := hrecorded hne
  exact (state_eq_of_terminal hrun' (by rw [hcompleted]; trivial)).trans hcompleted

section Examples

/-- The calls that complete a session, and an error after them. -/
private def completing : List (Call (HashMap ContentHash Bytes)) :=
  opening ⟨"folder".toList, [], none, []⟩ ++
    [(memoryEnv, .chunkData sampleChunk), (memoryEnv, .ack ⟨[], true, []⟩)]

/-- An error message. -/
private def lateError : Call (HashMap ContentHash Bytes) :=
  (memoryEnv, .error ⟨.unknown, "late".toList, []⟩)

/-- A session after a handshake with another major version. -/
private def incompatible : LiveSession (HashMap ContentHash Bytes) :=
  (new "peer".toList "Peer".toList ∅ ∅).setState (.failed "Incompatible protocol version")

/-- A session that fails in its handshake stays failed when it is sent a chunk. -/
theorem ordered_of_run_of_incompatible : ∃ s' s'' : LiveSession (HashMap ContentHash Bytes),
    Runs.Run next Timely (new "peer".toList "Peer".toList ∅ ∅) s' ∧ Runs.Run next Timely s' s'' ∧
      s'.state = .failed "Incompatible protocol version" ∧ s''.state = s'.state := by
  have hrun : Runs.Run next Timely (new "peer".toList "Peer".toList ∅ ∅) incompatible :=
    .step (e := (memoryEnv, .hello ⟨"2.0.0".toList, [], [], [], none⟩)) trivial rfl
  have hrun' : Runs.Run next Timely incompatible
      (handleChunkData memoryEnv incompatible sampleChunk).2 :=
    .step (e := (memoryEnv, .chunkData sampleChunk)) trivial rfl
  exact ⟨_, _, hrun, hrun', rfl, (ordered_of_run hrun hrun').2.1 trivial⟩

/-- A session that is recorded as completed fails when it is sent an error. -/
theorem not_forall_ordered :
    ¬ ∀ s' s'' : LiveSession (HashMap ContentHash Bytes),
      Runs.Run next (fun _ _ => True) (new "peer".toList "Peer".toList ∅ ∅) s' →
      Runs.Run next (fun _ _ => True) s' s'' →
      s'.state = .completed ∧ ((s'.database.lookup s'.peerId).map PeerSyncState.currentState =
        some (.completed memoryEnv.now)) →
      s''.state = .completed := by
  intro hall
  have hexec : (Runs.exec next (fun _ _ => True) completing
      (new "peer".toList "Peer".toList ∅ ∅)).map (fun s =>
        (s.state, (s.database.lookup s.peerId).map PeerSyncState.currentState)) =
      some (.completed, some (.completed memoryEnv.now)) := by decide +kernel
  obtain ⟨s', hs', hfields⟩ := Option.map_eq_some_iff.mp hexec
  obtain ⟨hstate, hrecord⟩ := Prod.mk.inj hfields
  have hlate : Runs.Run next (fun _ _ => True) s' (s'.setState (.failed "late")) :=
    .step (e := lateError) trivial rfl
  have hcompleted := hall s' _ (Runs.run_of_exec hs') hlate ⟨hstate, hrecord⟩
  cases hcompleted

end Examples

end LiveSession

end Landropic
