import Landropic.Sync.Orchestrator

set_option autoImplicit false

/-!
# The overall state of an orchestrator

The overall state of an orchestrator is to say how many peers it is syncing with. It is counted
again when a sync starts, and when the last sync completes; not when another sync completes, when
manifests are exchanged with a peer whose sync is over, or when an orchestrator is created from a
database in which syncs are still active.

## Main definitions

* `SyncOrchestrator.StateMatches` — the overall state says how many peers are active.
* `SyncOrchestrator.counted` — the calls and crashes after which it still does.

## Main results

* `SyncOrchestrator.matches_code` — what each call does to it.
* `SyncOrchestrator.stateMatches_of_run` — it does between any two such calls.
-/

namespace Landropic

namespace SyncOrchestrator

open Proc

/-- The overall state says how many peers are active. -/
structure StateMatches (s : SyncOrchestrator) : Prop where
  syncing : activePeers s.peerStates ≠ ∅ →
    ∃ start, s.state = .syncing (activePeers s.peerStates).card start
  idle : activePeers s.peerStates = ∅ → s.state = .idle

/-- The calls and crashes after which the active peers are counted, if their number changes:
manifests are exchanged with unknown or active peers, a sync that completes is the only active one
and the database takes its record, and an orchestrator is created again when no peer is active in
the database. -/
def counted (env : SyncDatabase.Env) :
    Crashable.Condition SyncCall SyncOrchestrator Unit SyncOp where
  call
    | .handleManifestExchange peerId _ _, s, _ =>
      s.peerStates.lookup peerId = none ∨ peerId ∈ activePeers s.peerStates
    | .completeSync databaseError peerId, s, _ => peerId ∈ activePeers s.peerStates →
      activePeers s.peerStates = {peerId} ∧ databaseError = none ∧
        ∀ peer, s.peerStates.lookup peerId = some peer → peer.CountersFit
    | _, _, _ => True
  crash _ _ s _ := activePeers (s.database.getAllPeerStates env) = ∅

variable {env : SyncDatabase.Env} {maxConcurrentTransfers : ℕ} {s s' : SyncOrchestrator}
  {peerId : Text} {peer peer' : PeerSyncState} {databaseError : Option String}

/-! ## What the calls do to the overall state -/

lemma StateMatches.congr (h : StateMatches s)
    (hpeers : activePeers s'.peerStates = activePeers s.peerStates) (hstate : s'.state = s.state) :
    StateMatches s' where
  syncing hne := by
    rw [hpeers] at hne ⊢
    rw [hstate]
    exact h.syncing hne
  idle hempty := by
    rw [hstate]
    exact h.idle (hpeers ▸ hempty)

lemma stateMatches_new {database : SyncDatabase}
    (h : activePeers (database.getAllPeerStates env) = ∅) :
    StateMatches (new env maxConcurrentTransfers database) :=
  ⟨fun hne => absurd h hne, fun _ => rfl⟩

/-- What a call does, wherever a crash leaves the state matching. -/
abbrev Matches (t : SyncTask Unit) (s : SyncOrchestrator) : Prop :=
  Throughout (fun _ _ => True) (fun _ s => StateMatches s) t s

/-- **A sync that starts** counts the active peers. -/
lemma matches_startSync (peerName : Text) (h : StateMatches s) :
    Matches (startSync env databaseError peerId peerName) s := by
  refine .bind (throughout_locked trivial fun _ => ?_)
  by_cases hactive : isActive s.peerStates peerId = true
  · simpa only [hactive, if_true] using h
  · simp only [hactive]
    refine .bind (.atom trivial fun _ => ?_)
    cases store env databaseError (starting peerId peerName) s.database with
    | error e => exact h
    | ok database =>
      refine .bind (throughout_locked trivial fun _ => ?_)
      refine .bind (throughout_locked trivial fun _ => ?_)
      refine .bind (throughout_locked trivial fun i => ?_)
      refine .atom trivial fun _ => ⟨fun _ => ⟨i.now, rfl⟩, fun hempty => ?_⟩
      have hmem : peerId ∈ activePeers (s.peerStates.insert peerId (starting peerId peerName)) :=
        mem_activePeers.mpr ⟨_, Finmap.lookup_insert _, rfl⟩
      exact absurd hmem (Finset.eq_empty_iff_forall_notMem.mp hempty _)

/-- **An exchange of manifests** with an unknown or an active peer does not change the count. -/
lemma matches_handleManifestExchange (ours theirs : Manifest) (h : StateMatches s)
    (hpeer : s.peerStates.lookup peerId = none ∨ peerId ∈ activePeers s.peerStates) :
    Matches (handleManifestExchange peerId ours theirs) s := by
  refine throughout_locked trivial fun _ => ?_
  cases hlookup : s.peerStates.lookup peerId with
  | none => exact h
  | some peer =>
    refine h.congr (activePeers_insert_of_lookup hlookup ?_) rfl
    obtain ⟨other, hother, hactive⟩ := mem_activePeers.mp (hpeer.resolve_left (by simp [hlookup]))
    rw [Option.some.inj (hlookup.symm.trans hother), hactive]
    rfl

lemma matches_scheduleTransfer (filePath chunkHash : Text) (size : UInt64)
    (priority : TransferPriority) (h : StateMatches s) :
    Matches (scheduleTransfer env databaseError peerId filePath chunkHash size priority) s := by
  refine .bind (throughout_locked trivial fun _ => .atom trivial fun i => ?_)
  dsimp only
  split
  · exact h.congr rfl rfl
  · exact h.congr rfl rfl

lemma matches_nextTransfer (h : StateMatches s) :
    Matches (do let _ ← nextTransfer) s :=
  .bind (throughout_locked trivial fun _ => h.congr rfl rfl)

lemma matches_completeTransfer (chunkHash : Text) (bytes : UInt64) (h : StateMatches s) :
    Matches (completeTransfer peerId chunkHash bytes) s := by
  refine .bind (throughout_locked trivial fun _ => ?_)
  have hcount : ∀ s', StateMatches s' → Matches (countCompleted peerId bytes) s' := by
    intro s' h'
    refine .atom trivial fun _ => ?_
    cases s'.progress.lookup peerId with
    | none => exact h'
    | some progress => exact h'.congr rfl rfl
  refine .bind (throughout_locked trivial fun _ => ?_)
  dsimp only
  cases hlookup : s.peerStates.lookup peerId with
  | none => exact hcount _ (h.congr rfl rfl)
  | some peer => exact hcount _ (h.congr (activePeers_insert_of_lookup hlookup rfl) rfl)

/-- The end of a call that completes a sync: if no peer is active the state is idle, else it is as
before. -/
lemma matches_countActive (h : activePeers s.peerStates ≠ ∅ → StateMatches s) :
    Matches countActive s := by
  refine .bind (throughout_locked trivial fun _ => ?_)
  by_cases hempty : activePeers s.peerStates = ∅
  · simp only [if_pos hempty]
    exact throughout_locked trivial fun _ => ⟨fun hne => absurd hempty hne, fun _ => rfl⟩
  · simp only [if_neg hempty]
    exact h hempty

/-- **A sync that completes** does not leave the state behind, if it is not active or the only
active one. -/
lemma matches_completeSync (h : StateMatches s)
    (hpeer : peerId ∈ activePeers s.peerStates → activePeers s.peerStates = {peerId} ∧
      databaseError = none ∧
        ∀ peer, s.peerStates.lookup peerId = some peer → peer.CountersFit) :
    Matches (completeSync env databaseError peerId) s := by
  refine .bind (throughout_locked trivial fun i => ?_)
  cases hlookup : s.peerStates.lookup peerId with
  | none => exact matches_countActive fun _ => h
  | some peer =>
    simp only
    have hactive : activePeers (s.peerStates.insert peerId (completed i peer)) =
        (activePeers s.peerStates).erase peerId := activePeers_insert _
    refine .bind (.atom trivial fun _ => ?_)
    by_cases hmem : peerId ∈ activePeers s.peerStates
    · -- the only active sync: the write succeeds, and no peer is active any more
      obtain ⟨honly, rfl, hfit⟩ := hpeer hmem
      have hfit := hfit peer hlookup
      have hcompleted : (completed i peer).CountersFit :=
        ⟨hfit.bytesSent, hfit.bytesReceived, hfit.filesSent, hfit.filesReceived⟩
      obtain ⟨database, hstore⟩ : ∃ database,
          store env none (completed i peer) s.database = .ok database :=
        exists_store hcompleted s.database
      dsimp only
      rw [hstore]
      refine matches_countActive fun hne => absurd ?_ hne
      rw [show activePeers _ = _ from hactive, honly]
      simp
    · -- the number of active peers does not change
      have hsame := hactive.trans (Finset.erase_eq_self.mpr hmem)
      cases store env databaseError (completed i peer) s.database with
      | ok database => exact matches_countActive fun _ => h.congr hsame rfl
      | error e => exact h.congr hsame rfl

/-- **Every call** that may come leaves the state matching. -/
theorem matches_code (c : SyncCall) (h : StateMatches s) (hc : (counted env).call c s ()) :
    Matches (code env c) s := by
  cases c with
  | startSync databaseError peerId peerName => exact matches_startSync peerName h
  | handleManifestExchange peerId ours theirs =>
    exact matches_handleManifestExchange ours theirs h hc
  | scheduleTransfer databaseError peerId filePath chunkHash size priority =>
    exact matches_scheduleTransfer filePath chunkHash size priority h
  | nextTransfer => exact matches_nextTransfer h
  | completeTransfer filePath peerId chunkHash bytes =>
    exact matches_completeTransfer chunkHash bytes h
  | completeSync databaseError peerId => exact matches_completeSync h hc

/-- **The overall state matches the peers.** In every run from an orchestrator over a database in
which no sync is active, in which only such calls and crashes come, the state is `Syncing` with the
number of active peers, or `Idle` if there are none, whenever no call is running.

**Proof sketch.** A start counts the active peers, the last completion leaves the state idle, and
all other calls that may come do not change which peers are active. -/
theorem stateMatches_of_run {database : SyncDatabase} {m : Moment}
    (h : activePeers (database.getAllPeerStates env) = ∅)
    (hrun : (component env maxConcurrentTransfers).Run .trivial (counted env)
      (.idle (new env maxConcurrentTransfers database)) m) (hend : m.running = none) :
    StateMatches m.state := by
  have hholds := hrun.holds (I := fun s _ => StateMatches s) (P := fun _ _ _ => True) rfl
    (stateMatches_new h)
    (fun c s _ hs hc => (matches_code c hs hc).mono fun _ _ h => ⟨h, trivial⟩)
    (fun _ _ _ => trivial) fun _ _ _ _ _ hcrash => stateMatches_new hcrash
  rw [Crashable.Holds, hend] at hholds
  exact hholds

/-- The state matches after a sync has started. -/
theorem stateMatches_started : ∃ m : Moment,
    (component (SyncDatabase.sampleEnv true) 4).Run .trivial (counted (SyncDatabase.sampleEnv true))
      (.idle (new (SyncDatabase.sampleEnv true) 4 .empty)) m ∧
      m.running = none ∧ StateMatches m.state := by
  have hexec : ((Runs.exec ((component (SyncDatabase.sampleEnv true) 4).next .trivial)
      (fun _ _ => True) (wholly (.startSync none ['a'] []) 6)
      (.idle (new (SyncDatabase.sampleEnv true) 4 .empty))).map
        fun m => m.running.isNone) = some true := by decide +kernel
  obtain ⟨m, hm, hend⟩ := Option.map_eq_some_iff.mp hexec
  have hend := Option.isNone_iff_eq_none.mp hend
  have hrun := Crashable.run_of_exec_whole (K := counted (SyncDatabase.sampleEnv true))
    (c := .startSync none ['a'] []) trivial hm
  exact ⟨m, hrun, hend, stateMatches_of_run (activePeers_empty _) hrun hend⟩

/-- Syncs with two peers, of which the first completes. -/
def firstCompletes : List (Crashable.Event SyncCall SyncInput) :=
  wholly (.startSync none ['a'] []) 6 ++ wholly (.startSync none ['b'] []) 6 ++
    wholly (.completeSync none ['a']) 3

/-- **The state is left behind** when the first of two syncs completes: it says that two peers are
active. -/
theorem not_stateMatches_firstCompletes : ∃ m : Moment,
    (component (SyncDatabase.sampleEnv true) 4).Run .trivial .any
      (.idle (new (SyncDatabase.sampleEnv true) 4 .empty)) m ∧
      m.running = none ∧ ¬ StateMatches m.state := by
  have hexec : ((Runs.exec ((component (SyncDatabase.sampleEnv true) 4).next .trivial)
      (fun _ _ => True) firstCompletes (.idle (new (SyncDatabase.sampleEnv true) 4 .empty))).map
        fun m => (m.running.isNone, m.state.state, (activePeers m.state.peerStates).card)) =
      some (true, .syncing 2 midnight.now, 1) := by decide +kernel
  obtain ⟨m, hm, hend⟩ := Option.map_eq_some_iff.mp hexec
  obtain ⟨hrunning, hstate, hcard⟩ : m.running.isNone = true ∧
      m.state.state = .syncing 2 midnight.now ∧ (activePeers m.state.peerStates).card = 1 := by
    simpa using hend
  refine ⟨m, Runs.run_of_exec_of_forall hm fun e _ m => Crashable.Condition.any_meets m e,
    Option.isNone_iff_eq_none.mp hrunning, fun hmatches => ?_⟩
  have hne : activePeers m.state.peerStates ≠ ∅ := by
    intro hempty
    rw [hempty] at hcard
    cases hcard
  obtain ⟨start, hsyncing⟩ := hmatches.syncing hne
  rw [hstate, hcard] at hsyncing
  cases hsyncing

end SyncOrchestrator

end Landropic
