import Landropic.Sync.OrchestratorRuns

set_option autoImplicit false

/-!
# What the database remembers of the syncs with a peer

The record of a peer is overwritten when a sync with it starts, and again when the sync completes.
A start leaves a record without the time and the manifest hash of the last sync; and a record of a
sync that has started and not completed makes the next orchestrator take the sync for active.

## Main definitions

* `SyncOrchestrator.PeerHistory` — what has happened with the peers.
* `SyncOrchestrator.remember` — how the actions of the calls add to it.
* `SyncOrchestrator.Recorded` — the database agrees with what has happened.
* `SyncOrchestrator.careful` — the calls and crashes after which it still does.

## Main results

* `SyncOrchestrator.records_startSync`, … — what each call does to the records.
* `SyncOrchestrator.recorded_of_run` — the database agrees at every moment, and no sync is active
  after a crash.
-/

namespace Landropic

namespace SyncOrchestrator

open Proc

/-- What has happened with the peers. -/
structure PeerHistory where
  /-- The time in RFC 3339 and the manifest hash of the last completed sync. -/
  completed : Text → Option Text × Option Text
  /-- A sync has been recorded as started, and not yet as completed. -/
  started : Text → Bool
  /-- The hash of the manifest that was exchanged in the sync. -/
  exchanged : Text → Option Text
  /-- The time at which a sync was completed last in memory. -/
  finished : Text → Option DateTime

/-- What is stored of the last sync with a peer. -/
def stored (database : SyncDatabase) (peerId : Text) : Option Text × Option Text :=
  match database.peers.lookup peerId with
  | none => (none, none)
  | some row => (row.lastSync, row.lastManifestHash)

/-- What is known of a database that is opened for the first time. -/
def PeerHistory.of (env : SyncDatabase.Env) (database : SyncDatabase) : PeerHistory where
  completed := stored database
  started := isActive (database.getAllPeerStates env)
  exchanged _ := none
  finished _ := none

/-- What an action adds to the history. The hash of the manifest of a sync may be that of either
manifest. -/
def remember (env : SyncDatabase.Env) (hashOf : Manifest → Manifest → Option Text) :
    SyncOp → SyncInput → SyncOrchestrator → PeerHistory → PeerHistory
  | .exchangeManifests peerId ours theirs, _, _, past =>
    { past with exchanged := Function.update past.exchanged peerId (hashOf ours theirs) }
  | .completePeer peerId, i, _, past =>
    { past with finished := Function.update past.finished peerId (some i.later) }
  | .saveState databaseError peer, _, s, past =>
    match store env databaseError peer s.database with
    | .error _ => past
    | .ok _ =>
      if peer.currentState = .negotiating then
        { past with
          started := Function.update past.started peer.peerId true
          exchanged := Function.update past.exchanged peer.peerId none }
      else
        { past with
          started := Function.update past.started peer.peerId false
          completed := Function.update past.completed peer.peerId
            ((past.finished peer.peerId).map env.toRfc3339, past.exchanged peer.peerId) }
  | _, _, _, past => past

/-- An orchestrator whose calls are remembered. -/
def remembered (env : SyncDatabase.Env) (maxConcurrentTransfers : ℕ)
    (hashOf : Manifest → Manifest → Option Text) :
    Crashable SyncCall (SyncOrchestrator × PeerHistory) SyncInput SyncOp SyncError Unit :=
  (component env maxConcurrentTransfers).observe fun _ => remember env hashOf

/-- An orchestrator at some moment, and what has happened. -/
abbrev RememberedMoment :=
  Crashable.Machine SyncCall (SyncOrchestrator × PeerHistory) Unit SyncInput SyncOp SyncError Unit

/-- The calls and crashes that lose nothing: syncs are started with peers that have not completed
one, a sync is completed with the manifest hash that memory has, and no sync has been started and
not completed when a crash comes. -/
def careful : Crashable.Condition SyncCall (SyncOrchestrator × PeerHistory) Unit SyncOp where
  call
    | .startSync databaseError peerId _, (s, past), _ =>
      databaseError = none → isActive s.peerStates peerId = false →
        past.completed peerId = (none, none)
    | .completeSync databaseError peerId, (s, past), _ => ∀ peer,
      s.peerStates.lookup peerId = some peer → databaseError = none → peer.CountersFit →
        peer.lastManifestHash = past.exchanged peerId
    | _, _, _ => True
  crash _ _ x _ := ∀ peerId, x.2.started peerId = false

/-- The database agrees with what has happened, and memory has every peer under its id. -/
structure Recorded (env : SyncDatabase.Env) (x : SyncOrchestrator × PeerHistory) : Prop where
  stored : ∀ peerId, stored x.1.database peerId = x.2.completed peerId
  started : ∀ peerId ∈ activePeers (x.1.database.getAllPeerStates env), x.2.started peerId = true
  keys : ∀ peerId peer, x.1.peerStates.lookup peerId = some peer → peer.peerId = peerId

variable {env : SyncDatabase.Env} {maxConcurrentTransfers : ℕ}
  {hashOf : Manifest → Manifest → Option Text} {x : SyncOrchestrator × PeerHistory}
  {s : SyncOrchestrator} {past : PeerHistory} {peerId : Text} {peer : PeerSyncState}
  {databaseError : Option String} {database : SyncDatabase}

/-! ## What the calls do to the records -/

variable (env hashOf) in
/-- A call leaves the records right, also when it is cut off. -/
abbrev Records (t : SyncTask Unit) (x : SyncOrchestrator × PeerHistory) : Prop :=
  Throughout (fun _ => Recorded env) (fun _ => Recorded env) (t.observe (remember env hashOf)) x

lemma stored_of_store (h : store env databaseError peer s.database = .ok database)
    (other : Text) : stored database other =
      if other = peer.peerId then (peer.lastSync.map env.toRfc3339, peer.lastManifestHash)
      else stored s.database other := by
  obtain ⟨row, hrow, rfl⟩ := SyncDatabase.upsertPeerState_eq_ok_iff.mp (store_eq_ok_iff.mp h).2
  obtain ⟨-, -, -, -, -, hlast, hhash, -⟩ := SyncDatabase.toRow_eq_ok_iff.mp hrow
  unfold SyncOrchestrator.stored
  by_cases hother : other = peer.peerId
  · subst hother
    rw [Finmap.lookup_insert, if_pos rfl, hlast, hhash]
  · rw [Finmap.lookup_insert_of_ne _ hother, if_neg hother]

/-- Which syncs are active in a database after a write of a state. -/
lemma activePeers_of_store
    (hjson : ∀ state state', env.fromJson (env.toJson state) = some state' → state' = state)
    (h : store env databaseError peer s.database = .ok database) {other : Text}
    (hmem : other ∈ activePeers (database.getAllPeerStates env)) :
    if other = peer.peerId then peer.currentState.isActive = true
    else other ∈ activePeers (s.database.getAllPeerStates env) := by
  obtain ⟨row, hrow, rfl⟩ := SyncDatabase.upsertPeerState_eq_ok_iff.mp (store_eq_ok_iff.mp h).2
  obtain ⟨-, -, -, -, -, -, -, hstate⟩ := SyncDatabase.toRow_eq_ok_iff.mp hrow
  rw [mem_activePeers, SyncDatabase.lookup_getAllPeerStates] at hmem
  by_cases hother : other = peer.peerId
  · subst hother
    rw [if_pos rfl]
    obtain ⟨peer', hpeer', hactive⟩ := hmem
    rw [Finmap.lookup_insert] at hpeer'
    obtain rfl := Option.some.inj hpeer'
    simp only [SyncDatabase.ofRow, ← hstate] at hactive
    cases hread : env.fromJson (env.toJson peer.currentState) with
    | none =>
      rw [hread] at hactive
      cases hactive
    | some state =>
      rw [hread, Option.getD_some, hjson _ _ hread] at hactive
      exact hactive
  · rw [if_neg hother, mem_activePeers, SyncDatabase.lookup_getAllPeerStates]
    rwa [Finmap.lookup_insert_of_ne _ hother] at hmem

/-- Memory and the rest may change as long as peers are under their ids. -/
lemma Recorded.congr {x' : SyncOrchestrator × PeerHistory} (h : Recorded env x)
    (hpeers : x'.1.database.peers = x.1.database.peers)
    (hcompleted : x'.2.completed = x.2.completed)
    (hstarted : x'.2.started = x.2.started)
    (hkeys : ∀ peerId peer, x'.1.peerStates.lookup peerId = some peer → peer.peerId = peerId) :
    Recorded env x' where
  stored peerId := by
    unfold SyncOrchestrator.stored
    rw [hpeers, hcompleted]
    exact h.stored peerId
  started peerId := by
    unfold SyncDatabase.getAllPeerStates
    rw [hpeers, hstarted]
    exact h.started peerId
  keys := hkeys

lemma Recorded.keys_insert {p : PeerSyncState} (h : Recorded env x) (hpeer : p.peerId = peerId) :
    ∀ other peer', (x.1.peerStates.insert peerId p).lookup other = some peer' →
      peer'.peerId = other :=
  HashMap.forall_lookup_insert.mpr ⟨hpeer, fun other peer' hlookup _ => h.keys other peer' hlookup⟩

/-- **A write of a state** is recorded, if what happened is what it says. -/
lemma Recorded.save {s' : SyncOrchestrator} {past' : PeerHistory} (h : Recorded env (s, past))
    (hjson : ∀ state state', env.fromJson (env.toJson state) = some state' → state' = state)
    (hstore : store env databaseError peer s.database = .ok s'.database)
    (hcompleted : past'.completed = Function.update past.completed peer.peerId
      (peer.lastSync.map env.toRfc3339, peer.lastManifestHash))
    (hstarted : past'.started =
      Function.update past.started peer.peerId peer.currentState.isActive)
    (hkeys : ∀ peerId peer, s'.peerStates.lookup peerId = some peer → peer.peerId = peerId) :
    Recorded env (s', past') where
  stored peerId := by
    show SyncOrchestrator.stored s'.database peerId = past'.completed peerId
    rw [stored_of_store hstore, hcompleted, Function.update_apply]
    by_cases hpeer : peerId = peer.peerId
    · rw [if_pos hpeer, if_pos hpeer]
    · rw [if_neg hpeer, if_neg hpeer]
      exact h.stored peerId
  started peerId hmem := by
    show past'.started peerId = true
    have hactive := activePeers_of_store hjson hstore hmem
    rw [hstarted, Function.update_apply]
    by_cases hpeer : peerId = peer.peerId
    · rw [if_pos hpeer] at hactive ⊢
      exact hactive
    · rw [if_neg hpeer] at hactive ⊢
      exact h.started peerId hactive
  keys := hkeys

/-- **A sync that starts** with a peer that has not completed one. -/
lemma records_startSync (peerName : Text) (h : Recorded env (s, past))
    (hjson : ∀ state state', env.fromJson (env.toJson state) = some state' → state' = state)
    (hnone : databaseError = none → isActive s.peerStates peerId = false →
      past.completed peerId = (none, none)) :
    Records env hashOf (startSync env databaseError peerId peerName) (s, past) := by
  refine .observe_bind (throughout_observe_locked h fun i => ?_)
  dsimp only [remember]
  by_cases hactive : isActive s.peerStates peerId = true
  · simpa only [hactive, if_true] using h
  · rw [Bool.not_eq_true] at hactive
    simp only [hactive]
    refine .observe_bind (.observe_atom h fun i => ?_)
    dsimp only [remember]
    cases hstore : store env databaseError (starting peerId peerName) s.database with
    | error e => exact h
    | ok database =>
      have hcompleted := hnone (store_eq_ok_iff.mp hstore).1 hactive
      have hsaved : Recorded env ({ s with database := database }, { past with
          started := Function.update past.started peerId true
          exchanged := Function.update past.exchanged peerId none }) := by
        refine h.save hjson hstore ?_ rfl h.keys
        exact (Function.update_eq_self_iff.mpr hcompleted.symm).symm
      have hkeys := hsaved.keys_insert (p := starting peerId peerName) rfl
      refine .observe_bind (throughout_observe_locked hsaved fun _ => ?_)
      refine .observe_bind (throughout_observe_locked (hsaved.congr rfl rfl rfl hkeys) fun _ => ?_)
      refine .observe_bind (throughout_observe_locked (hsaved.congr rfl rfl rfl hkeys) fun _ => ?_)
      refine .observe_atom (hsaved.congr rfl rfl rfl hkeys) fun _ => ?_
      exact hsaved.congr rfl rfl rfl hkeys

lemma records_handleManifestExchange (ours theirs : Manifest) (h : Recorded env (s, past)) :
    Records env hashOf (handleManifestExchange peerId ours theirs) (s, past) := by
  refine throughout_observe_locked h fun _ => ?_
  dsimp only [remember]
  cases hlookup : s.peerStates.lookup peerId with
  | none => exact h.congr rfl rfl rfl h.keys
  | some peer =>
    have hkey := h.keys peerId peer hlookup
    exact h.congr rfl rfl rfl (h.keys_insert hkey)

lemma records_scheduleTransfer (filePath chunkHash : Text) (size : UInt64)
    (priority : TransferPriority) (h : Recorded env (s, past)) :
    Records env hashOf
      (scheduleTransfer env databaseError peerId filePath chunkHash size priority) (s, past) := by
  refine .observe_bind (throughout_observe_locked h fun _ => ?_)
  refine .observe_atom (h.congr rfl rfl rfl h.keys) fun i => ?_
  dsimp only
  split
  · next hadd => exact h.congr (peers_of_addPending hadd) rfl rfl h.keys
  · exact h.congr rfl rfl rfl h.keys

lemma records_nextTransfer (h : Recorded env (s, past)) :
    Records env hashOf (do let _ ← nextTransfer) (s, past) :=
  .observe_bind (throughout_observe_locked h fun _ => h.congr rfl rfl rfl h.keys)

lemma records_completeTransfer (chunkHash : Text) (bytes : UInt64) (h : Recorded env (s, past)) :
    Records env hashOf (completeTransfer peerId chunkHash bytes) (s, past) := by
  refine .observe_bind (throughout_observe_locked h fun _ => ?_)
  have hcount : ∀ s', Recorded env (s', past) →
      Records env hashOf (countCompleted peerId bytes) (s', past) := by
    intro s' h'
    refine .observe_atom h' fun _ => ?_
    dsimp only
    cases s'.progress.lookup peerId with
    | none => exact h'
    | some progress => exact h'.congr rfl rfl rfl h'.keys
  refine .observe_bind (throughout_observe_locked (h.congr rfl rfl rfl h.keys) fun _ => ?_)
  dsimp only
  cases hlookup : s.peerStates.lookup peerId with
  | none => exact hcount _ (h.congr rfl rfl rfl h.keys)
  | some peer =>
    have hkey := h.keys peerId peer hlookup
    exact hcount _ (h.congr rfl rfl rfl (h.keys_insert hkey))

lemma records_countActive (h : Recorded env (s, past)) :
    Records env hashOf countActive (s, past) := by
  refine .observe_bind (throughout_observe_locked h fun _ => ?_)
  by_cases hempty : activePeers s.peerStates = ∅
  · simp only [if_pos hempty]
    exact throughout_observe_locked (h.congr rfl rfl rfl h.keys) fun _ => h.congr rfl rfl rfl h.keys
  · simp only [if_neg hempty]
    exact h.congr rfl rfl rfl h.keys

/-- **A sync that completes** with the manifest hash that memory has. -/
lemma records_completeSync (h : Recorded env (s, past))
    (hjson : ∀ state state', env.fromJson (env.toJson state) = some state' → state' = state)
    (hhash : ∀ peer, s.peerStates.lookup peerId = some peer → databaseError = none →
      peer.CountersFit → peer.lastManifestHash = past.exchanged peerId) :
    Records env hashOf (completeSync env databaseError peerId) (s, past) := by
  refine .observe_bind (throughout_observe_locked h fun i => ?_)
  dsimp only [remember]
  cases hlookup : s.peerStates.lookup peerId with
  | none => exact records_countActive (h.congr rfl rfl rfl h.keys)
  | some peer =>
    obtain rfl : peer.peerId = peerId := h.keys _ _ hlookup
    have hkeys := h.keys_insert (p := completed i peer) rfl
    refine .observe_bind (.observe_atom (h.congr rfl rfl rfl hkeys) fun _ => ?_)
    dsimp only [remember]
    cases hstore : store env databaseError (completed i peer) s.database with
    | error e => exact h.congr rfl rfl rfl hkeys
    | ok database =>
      refine records_countActive (h.save hjson hstore ?_ rfl hkeys)
      obtain ⟨rfl, hupsert⟩ := store_eq_ok_iff.mp hstore
      obtain ⟨row, hrow, -⟩ := SyncDatabase.upsertPeerState_eq_ok_iff.mp hupsert
      have hfit := SyncDatabase.countersFit_of_toRow hrow
      have hfit : peer.CountersFit :=
        ⟨hfit.bytesSent, hfit.bytesReceived, hfit.filesSent, hfit.filesReceived⟩
      simp [completed, hhash peer hlookup rfl hfit]

/-- **Every call** that loses nothing leaves the records right. -/
theorem records_code (c : SyncCall) (h : Recorded env x)
    (hjson : ∀ state state', env.fromJson (env.toJson state) = some state' → state' = state)
    (hc : careful.call c x ()) : Records env hashOf (code env c) x := by
  obtain ⟨s, past⟩ := x
  cases c with
  | startSync databaseError peerId peerName => exact records_startSync peerName h hjson hc
  | handleManifestExchange peerId ours theirs => exact records_handleManifestExchange ours theirs h
  | scheduleTransfer databaseError peerId filePath chunkHash size priority =>
    exact records_scheduleTransfer filePath chunkHash size priority h
  | nextTransfer => exact records_nextTransfer h
  | completeTransfer filePath peerId chunkHash bytes =>
    exact records_completeTransfer chunkHash bytes h
  | completeSync databaseError peerId => exact records_completeSync h hjson hc

/-! ## After a crash -/

/-- The records of a database that is opened are right. -/
lemma recorded_new (hstored : ∀ peerId, stored database peerId = past.completed peerId)
    (hstarted : ∀ peerId ∈ activePeers (database.getAllPeerStates env),
      past.started peerId = true) :
    Recorded env (new env maxConcurrentTransfers database, past) where
  stored := hstored
  started := hstarted
  keys peerId peer hlookup := by
    have hlookup : (database.getAllPeerStates env).lookup peerId = some peer := hlookup
    rw [SyncDatabase.lookup_getAllPeerStates] at hlookup
    obtain ⟨row, -, rfl⟩ := Option.map_eq_some_iff.mp hlookup
    rfl

lemma not_alreadySyncing {peerName : Text} {r : Except SyncError Unit} {s' : SyncOrchestrator}
    (hactive : peerId ∉ activePeers s.peerStates)
    (hreturns : Returns (fun _ => True) (startSync env databaseError peerId peerName) s r s') :
    r ≠ .error (.alreadySyncing peerId) := by
  have hinactive : isActive s.peerStates peerId = false := by
    rwa [← Bool.not_eq_true, isActive_iff]
  refine Throughout.of_returns (P := fun _ _ => True)
    (Q := fun r _ => r ≠ .error (.alreadySyncing peerId)) ?_ hreturns
  refine .bind (throughout_locked trivial fun _ => ?_)
  simp only [hinactive]
  refine .bind (.atom trivial fun _ => ?_)
  cases databaseError with
  | some msg => exact fun h => by cases h
  | none =>
    have hfit : (starting peerId peerName).CountersFit := by
      constructor <;> simp [starting]
    obtain ⟨database, hstore⟩ : ∃ database,
        store env none (starting peerId peerName) s.database = .ok database :=
      exists_store hfit s.database
    rw [hstore]
    refine .bind (throughout_locked trivial fun _ => ?_)
    refine .bind (throughout_locked trivial fun _ => ?_)
    refine .bind (throughout_locked trivial fun _ => ?_)
    refine .atom trivial fun _ h => ?_
    cases h

/-- **The database remembers the last completed syncs, and no sync is active after a crash.** In
every run from an orchestrator over a database, in which only such calls and crashes come, what is
stored of the last sync with each peer is what the last completed sync with it left, at every
moment; and an orchestrator that is created when a crash may come does not take any sync for active.

**Proof sketch.** A record is written by a start, which finds and leaves nothing to remember, and by
a completion, which writes what is to be remembered. A record of a start is replaced before a crash
may come. -/
theorem recorded_of_run {m : RememberedMoment}
    (hjson : ∀ state state', env.fromJson (env.toJson state) = some state' → state' = state)
    (hrun : (remembered env maxConcurrentTransfers hashOf).Run .trivial careful
      (.idle (new env maxConcurrentTransfers database, .of env database)) m) :
    (∀ peerId, stored m.state.1.database peerId = m.state.2.completed peerId) ∧
      ((∀ peerId, m.state.2.started peerId = false) → ∀ databaseError peerId peerName r s',
        Returns (fun _ => True) (startSync env databaseError peerId peerName)
          (new env maxConcurrentTransfers m.state.1.database) r s' →
            r ≠ .error (.alreadySyncing peerId)) := by
  have hrecorded : Recorded env m.state := by
    refine (hrun.holds (I := fun x _ => Recorded env x) (P := fun _ _ x => Recorded env x) rfl
      ?_ (fun c x _ hx hc => ?_) (fun _ _ hx => hx)
      fun _ _ x _ hx hcrash => ?_).head fun _ _ hx => hx
    · exact recorded_new (fun _ => rfl) fun peerId hmem => isActive_iff.mpr hmem
    · exact (records_code c hx hjson hc).mono fun _ _ h => ⟨h, h⟩
    · exact recorded_new hx.stored hx.started
  refine ⟨hrecorded.stored, fun hstarted databaseError peerId peerName r s' hreturns => ?_⟩
  refine not_alreadySyncing (fun hmem => ?_) hreturns
  have htrue := hrecorded.started peerId hmem
  rw [hstarted peerId] at htrue
  cases htrue

/-! ## A sync that is started again -/

/-- The manifest hash of a sync is taken to be that of our manifest. -/
def ourHash (ours _theirs : Manifest) : Option Text := ours.manifestHash

/-- A sync that completes, and another one that starts. -/
def startedAgain : List (Crashable.Event SyncCall SyncInput) :=
  wholly (.startSync none ['a'] []) 6 ++ wholly (.completeSync none ['a']) 4 ++
    wholly (.startSync none ['a'] []) 6

lemma fromJson_sampleEnv {foreignKeys : Bool} (state state' : PeerState)
    (h : (SyncDatabase.sampleEnv foreignKeys).fromJson
      ((SyncDatabase.sampleEnv foreignKeys).toJson state) = some state') : state' = state := by
  have hnone : ∀ state', (SyncDatabase.sampleEnv foreignKeys).fromJson [] ≠ some state' :=
    fun state' h => by cases h
  cases state with
  | idle => exact (Option.some.inj (h.symm.trans (by rfl)))
  | negotiating => exact (Option.some.inj (h.symm.trans (by rfl)))
  | transferring progress => exact absurd h (hnone state')
  | completed t =>
    simp only [SyncDatabase.sampleEnv] at h
    by_cases ht : t = ⟨1704067200, 0⟩
    · subst ht
      exact (Option.some.inj (h.symm.trans (by rfl)))
    · rw [if_neg ht] at h
      exact absurd h (hnone state')
  | failed error timestamp => exact absurd h (hnone state')

/-- The records are right while a sync completes with a peer. -/
theorem recorded_completed : ∃ m : RememberedMoment,
    (remembered (SyncDatabase.sampleEnv true) 4 ourHash).Run .trivial careful
      (.idle (new (SyncDatabase.sampleEnv true) 4 .empty,
        .of (SyncDatabase.sampleEnv true) .empty)) m ∧
      m.state.2.completed ['a'] = (some "2024-01-01T00:00:00+00:00".toList, none) ∧
      (∀ peerId, stored m.state.1.database peerId = m.state.2.completed peerId) ∧
      ((∀ peerId, m.state.2.started peerId = false) → ∀ databaseError peerId peerName r s',
        Returns (fun _ => True)
          (startSync (SyncDatabase.sampleEnv true) databaseError peerId peerName)
          (new (SyncDatabase.sampleEnv true) 4 m.state.1.database) r s' →
            r ≠ .error (.alreadySyncing peerId)) := by
  have hexec : ((Runs.exec ((remembered (SyncDatabase.sampleEnv true) 4 ourHash).next .trivial)
      (fun _ _ => True) (wholly (.startSync none ['a'] []) 6)
      (.idle (new (SyncDatabase.sampleEnv true) 4 .empty,
        .of (SyncDatabase.sampleEnv true) .empty))).bind fun m =>
          (Runs.exec ((remembered (SyncDatabase.sampleEnv true) 4 ourHash).next .trivial)
            (fun _ _ => True) (wholly (.completeSync none ['a']) 4) m).map fun m' =>
              ((m.state.1.peerStates.lookup ['a']).map fun peer => peer.lastManifestHash,
                m.state.2.exchanged ['a'], m'.state.2.completed ['a'])) =
      some (some none, none, (some "2024-01-01T00:00:00+00:00".toList, none)) := by
    decide +kernel
  obtain ⟨m, hm, hrest⟩ := Option.bind_eq_some_iff.mp hexec
  obtain ⟨m', hm', hend⟩ := Option.map_eq_some_iff.mp hrest
  obtain ⟨hhash, hexchanged, hcompleted⟩ := by simpa only [Prod.mk.injEq] using hend
  have hstart := Crashable.run_of_exec_whole (K := careful) (c := .startSync none ['a'] [])
    (fun _ _ => rfl) hm
  have hcomplete :
      (remembered (SyncDatabase.sampleEnv true) 4 ourHash).Run .trivial careful m m' := by
    refine Crashable.run_of_exec_whole (c := .completeSync none ['a'])
      (fun peer hpeer _ _ => ?_) hm'
    rw [hpeer] at hhash
    exact (Option.some.inj hhash).trans hexchanged.symm
  exact ⟨m', hstart.trans hcomplete, hcompleted,
    recorded_of_run fromJson_sampleEnv (hstart.trans hcomplete)⟩

/-- **A start forgets the last sync, and a crash then blocks the peer.** -/
theorem not_recorded_startedAgain : ∃ m : RememberedMoment,
    (remembered (SyncDatabase.sampleEnv true) 4 ourHash).Run .trivial .any
      (.idle (new (SyncDatabase.sampleEnv true) 4 .empty,
        .of (SyncDatabase.sampleEnv true) .empty)) m ∧
      stored m.state.1.database ['a'] ≠ m.state.2.completed ['a'] ∧
      ∃ s', Returns (fun _ => True) (startSync (SyncDatabase.sampleEnv true) none ['a'] [])
        (new (SyncDatabase.sampleEnv true) 4 m.state.1.database)
        (.error (.alreadySyncing ['a'])) s' := by
  have hexec : ((Runs.exec ((remembered (SyncDatabase.sampleEnv true) 4 ourHash).next .trivial)
      (fun _ _ => True) startedAgain (.idle (new (SyncDatabase.sampleEnv true) 4 .empty,
        .of (SyncDatabase.sampleEnv true) .empty))).map
        fun m => (stored m.state.1.database ['a'], m.state.2.completed ['a'],
          isActive (m.state.1.database.getAllPeerStates (SyncDatabase.sampleEnv true)) ['a'])) =
      some ((none, none), (some "2024-01-01T00:00:00+00:00".toList, none), true) := by
    decide +kernel
  obtain ⟨m, hm, hend⟩ := Option.map_eq_some_iff.mp hexec
  obtain ⟨hstored, hcompleted, hactive⟩ := by simpa only [Prod.mk.injEq] using hend
  refine ⟨m, Runs.run_of_exec_of_forall hm fun e _ m => Crashable.Condition.any_meets m e, ?_,
    new (SyncDatabase.sampleEnv true) 4 m.state.1.database, ?_⟩
  · rw [hstored, hcompleted]
    decide
  · refine .act rfl trivial (i := midnight) ?_
    dsimp only
    rw [show isActive (new _ _ _).peerStates ['a'] = true from hactive]
    exact .ret

end SyncOrchestrator

end Landropic
