import Landropic.Sync.Orchestrator

set_option autoImplicit false

/-!
# The persisted queue of transfers

A transfer that is scheduled is added to a table of the database, which has at most one row for a
chunk, a peer and a folder. No call removes a row. So a second file with the same chunk has no row
of its own, and a transfer that is completed keeps its row.

## Main definitions

* `SyncOrchestrator.Outstanding` — the transfers that are scheduled and not completed.
* `SyncOrchestrator.track` — how the actions of the calls change them.
* `SyncOrchestrator.QueueExact` — the rows of each peer are its outstanding transfers.
* `SyncOrchestrator.distinct` — the calls after which they still are.

## Main results

* `SyncOrchestrator.exact_scheduleTransfer`, … — what each call does to the rows.
* `SyncOrchestrator.queueExact_of_run` — the rows are exact at every moment.
* `SyncOrchestrator.nextTransfer_new` — a new orchestrator hands out none of them.
-/

namespace Landropic

namespace SyncOrchestrator

open Proc

/-- The files and chunks whose transfer to a peer is scheduled and not completed. -/
abbrev Outstanding := Text → Finset (Text × Text)

/-- The files and chunks in the rows of a peer. -/
def pendingPairs (rows : List PendingRow) : Outstanding := fun peerId =>
  ((rows.filter fun row => row.peerId = peerId).map fun row =>
    (row.filePath, row.chunkHash)).toFinset

/-- How an action of a call changes the outstanding transfers. -/
def track (env : SyncDatabase.Env) (c : SyncCall) :
    SyncOp → SyncInput → SyncOrchestrator → Outstanding → Outstanding
  | .addPending databaseError request priority, i, s, pairs =>
    match addPending env databaseError i.created request priority s.database with
    | .error _ => pairs
    | .ok _ => Function.update pairs request.peerId
        (insert (request.filePath, request.chunkHash) (pairs request.peerId))
  | .completeTransfer peerId chunkHash, _, _, pairs =>
    match c with
    | .completeTransfer filePath _ _ _ =>
      Function.update pairs peerId ((pairs peerId).erase (filePath, chunkHash))
    | _ => pairs
  | _, _, _, pairs => pairs

/-- An orchestrator whose transfers are tracked. -/
def tracked (env : SyncDatabase.Env) (maxConcurrentTransfers : ℕ) :
    Crashable SyncCall (SyncOrchestrator × Outstanding) SyncInput SyncOp SyncError Unit :=
  (component env maxConcurrentTransfers).observe (track env)

/-- An orchestrator at some moment, and the outstanding transfers. -/
abbrev TrackedMoment :=
  Crashable.Machine SyncCall (SyncOrchestrator × Outstanding) Unit SyncInput SyncOp SyncError Unit

/-- The calls after which the rows are exact: a transfer is scheduled of a chunk that is not pending
for the peer with another file, or the database refuses it, and no transfer is completed that is
outstanding. -/
def distinct : Crashable.Condition SyncCall (SyncOrchestrator × Outstanding) Unit SyncOp where
  call
    | .scheduleTransfer databaseError peerId filePath chunkHash _ _, (s, _), _ =>
      databaseError = none → ∀ row ∈ s.database.pending, row.peerId = peerId →
        row.chunkHash = chunkHash → row.filePath = filePath
    | .completeTransfer filePath peerId chunkHash _, (_, pairs), _ =>
      (filePath, chunkHash) ∉ pairs peerId
    | _, _, _ => True
  crash _ _ _ _ := True

/-- The rows of each peer are its outstanding transfers. -/
def QueueExact (x : SyncOrchestrator × Outstanding) : Prop :=
  ∀ peerId, pendingPairs x.1.database.pending peerId = x.2 peerId

variable {env : SyncDatabase.Env} {maxConcurrentTransfers : ℕ}
  {x : SyncOrchestrator × Outstanding} {s : SyncOrchestrator} {pairs : Outstanding}
  {c : SyncCall} {peerId : Text} {databaseError : Option String} {database : SyncDatabase}

/-! ## What the calls do to the rows -/

variable (env) in
/-- A call leaves the rows exact, also when it is cut off. -/
abbrev Exact (c : SyncCall) (t : SyncTask Unit) (x : SyncOrchestrator × Outstanding) : Prop :=
  Throughout (fun _ => QueueExact) (fun _ => QueueExact) (t.observe (track env c)) x

lemma mem_pendingPairs {rows : List PendingRow} {filePath chunkHash : Text} :
    (filePath, chunkHash) ∈ pendingPairs rows peerId ↔
      ∃ row ∈ rows, row.peerId = peerId ∧ row.filePath = filePath ∧ row.chunkHash = chunkHash := by
  simp [pendingPairs, and_assoc]

lemma QueueExact.congr {t : SyncOrchestrator} (h : QueueExact (s, pairs))
    (hpending : t.database.pending = s.database.pending) : QueueExact (t, pairs) := by
  intro peerId
  rw [hpending]
  exact h peerId

lemma pending_of_store {peer : PeerSyncState}
    (h : store env databaseError peer s.database = .ok database) :
    database.pending = s.database.pending := by
  obtain ⟨row, -, rfl⟩ := SyncDatabase.upsertPeerState_eq_ok_iff.mp (store_eq_ok_iff.mp h).2
  rfl

/-- **A row that is added** is that of the transfer, if its chunk is not pending for another
file. -/
lemma pendingPairs_of_addPending {created : ℤ} {request : TransferRequest}
    {priority : TransferPriority}
    (h : addPending env databaseError created request priority s.database = .ok database)
    (hdistinct : ∀ row ∈ s.database.pending, row.peerId = request.peerId →
      row.chunkHash = request.chunkHash → row.filePath = request.filePath) :
    pendingPairs database.pending = Function.update (pendingPairs s.database.pending) request.peerId
      (insert (request.filePath, request.chunkHash)
        (pendingPairs s.database.pending request.peerId)) := by
  obtain rfl : databaseError = none := by
    cases databaseError with
    | none => rfl
    | some msg => cases h
  have hrows := SyncDatabase.addPendingTransfer_eq_ok_iff.mp h
  funext peerId
  by_cases hpeer : peerId = request.peerId
  · subst hpeer
    rw [Function.update_self]
    split at hrows
    · next hfound =>
      -- the chunk has a row, which is that of the file
      obtain ⟨row, hrow, hpeer, -, hchunk⟩ := hfound
      have hmem : (request.filePath, request.chunkHash) ∈
          pendingPairs s.database.pending request.peerId := by
        refine mem_pendingPairs.mpr ⟨row, hrow, hpeer, hdistinct row hrow hpeer hchunk, hchunk⟩
      rw [hrows, Finset.insert_eq_self.mpr hmem]
    · rw [hrows.2]
      ext pair
      simp [pendingPairs, eq_comm]
  · rw [Function.update_of_ne hpeer]
    split at hrows
    · rw [hrows]
    · rw [hrows.2]
      simp [pendingPairs, Ne.symm hpeer]

/-- **A transfer is scheduled** of a chunk that is not pending for another file. -/
lemma exact_scheduleTransfer (filePath chunkHash : Text) (size : UInt64)
    (priority : TransferPriority) (h : QueueExact (s, pairs))
    (hdistinct : databaseError = none → ∀ row ∈ s.database.pending, row.peerId = peerId →
      row.chunkHash = chunkHash → row.filePath = filePath) :
    Exact env c (scheduleTransfer env databaseError peerId filePath chunkHash size priority)
      (s, pairs) := by
  refine .observe_bind (throughout_observe_locked h fun _ => ?_)
  refine .observe_atom (h.congr rfl) fun i => ?_
  dsimp only [track]
  cases hadd : addPending env databaseError i.created ⟨peerId, chunkHash, filePath, size⟩ priority
      s.database with
  | error e => exact h.congr rfl
  | ok database =>
    have hnone : databaseError = none := by
      cases databaseError with
      | none => rfl
      | some msg => cases hadd
    intro other
    rw [show pairs = pendingPairs s.database.pending from (funext h).symm]
    exact congrFun (pendingPairs_of_addPending hadd (hdistinct hnone)) other

lemma exact_startSync (peerName : Text) (h : QueueExact (s, pairs)) :
    Exact env c (startSync env databaseError peerId peerName) (s, pairs) := by
  refine .observe_bind (throughout_observe_locked h fun _ => ?_)
  dsimp only [track]
  by_cases hactive : isActive s.peerStates peerId = true
  · simpa only [hactive, if_true] using h
  · simp only [hactive]
    refine .observe_bind (.observe_atom h fun _ => ?_)
    dsimp only
    cases hstore : store env databaseError (starting peerId peerName) s.database with
    | error e => exact h
    | ok database =>
      have hkept := pending_of_store hstore
      refine .observe_bind (throughout_observe_locked (h.congr hkept) fun _ => ?_)
      refine .observe_bind (throughout_observe_locked (h.congr hkept) fun _ => ?_)
      refine .observe_bind (throughout_observe_locked (h.congr hkept) fun _ => ?_)
      exact .observe_atom (h.congr hkept) fun _ => h.congr hkept

lemma exact_handleManifestExchange (ours theirs : Manifest) (h : QueueExact (s, pairs)) :
    Exact env c (handleManifestExchange peerId ours theirs) (s, pairs) := by
  refine throughout_observe_locked h fun _ => ?_
  dsimp only [track]
  cases s.peerStates.lookup peerId with
  | none => exact h
  | some peer => exact h.congr rfl

lemma exact_nextTransfer (h : QueueExact (s, pairs)) :
    Exact env c (do let _ ← nextTransfer) (s, pairs) :=
  .observe_bind (throughout_observe_locked h fun _ => h.congr rfl)

/-- **A transfer is completed** that was not outstanding. -/
lemma exact_completeTransfer (filePath chunkHash : Text) (bytes : UInt64)
    (h : QueueExact (s, pairs)) (hnew : (filePath, chunkHash) ∉ pairs peerId) :
    Exact env (.completeTransfer filePath peerId chunkHash bytes)
      (completeTransfer peerId chunkHash bytes) (s, pairs) := by
  refine .observe_bind (throughout_observe_locked h fun _ => ?_)
  dsimp only [track]
  rw [Finset.erase_eq_self.mpr hnew, Function.update_eq_self]
  refine .observe_bind (throughout_observe_locked (h.congr rfl) fun _ => ?_)
  have hcount : ∀ s', QueueExact (s', pairs) →
      Exact env (.completeTransfer filePath peerId chunkHash bytes)
        (countCompleted peerId bytes) (s', pairs) := by
    intro s' h'
    refine .observe_atom h' fun _ => ?_
    dsimp only
    cases s'.progress.lookup peerId with
    | none => exact h'
    | some progress => exact h'.congr rfl
  dsimp only
  cases s.peerStates.lookup peerId with
  | none => exact hcount _ (h.congr rfl)
  | some peer => exact hcount _ (h.congr rfl)

lemma exact_completeSync (h : QueueExact (s, pairs)) :
    Exact env c (completeSync env databaseError peerId) (s, pairs) := by
  refine .observe_bind (throughout_observe_locked h fun i => ?_)
  have hcount : ∀ s', QueueExact (s', pairs) → Exact env c countActive (s', pairs) := by
    intro s' h'
    refine .observe_bind (throughout_observe_locked h' fun _ => ?_)
    by_cases hempty : activePeers s'.peerStates = ∅
    · simp only [if_pos hempty]
      exact throughout_observe_locked (h'.congr rfl) fun _ => h'.congr rfl
    · simp only [if_neg hempty]
      exact h'
  dsimp only [track]
  cases s.peerStates.lookup peerId with
  | none => exact hcount _ h
  | some peer =>
    refine .observe_bind (.observe_atom (h.congr rfl) fun _ => ?_)
    dsimp only
    cases hstore : store env databaseError (completed i peer) s.database with
    | error e => exact h.congr rfl
    | ok database => exact hcount _ (h.congr (pending_of_store hstore))

/-- **Every call** that may come leaves the rows exact. -/
theorem exact_code (c : SyncCall) (h : QueueExact x) (hc : distinct.call c x ()) :
    Exact env c (code env c) x := by
  obtain ⟨s, pairs⟩ := x
  cases c with
  | startSync databaseError peerId peerName => exact exact_startSync peerName h
  | handleManifestExchange peerId ours theirs => exact exact_handleManifestExchange ours theirs h
  | scheduleTransfer databaseError peerId filePath chunkHash size priority =>
    exact exact_scheduleTransfer filePath chunkHash size priority h hc
  | nextTransfer => exact exact_nextTransfer h
  | completeTransfer filePath peerId chunkHash bytes =>
    exact exact_completeTransfer filePath chunkHash bytes h hc
  | completeSync databaseError peerId => exact exact_completeSync h

/-- **The rows are the outstanding transfers.** In every run from an orchestrator over a database
whose rows are the outstanding transfers, in which only such calls come and crashes at any moment,
the rows of each peer are the files and chunks that have been scheduled for it and not completed, at
every moment.

**Proof sketch.** A transfer that is scheduled gets a row, unless its chunk has one, which is then
that of the same file; no other call changes the rows. -/
theorem queueExact_of_run {m : TrackedMoment}
    (hrun : (tracked env maxConcurrentTransfers).Run .trivial distinct
      (.idle (new env maxConcurrentTransfers database, pendingPairs database.pending)) m)
    (peerId filePath chunkHash : Text) :
    (∃ row ∈ m.state.1.database.pending, row.peerId = peerId ∧ row.filePath = filePath ∧
      row.chunkHash = chunkHash) ↔ (filePath, chunkHash) ∈ m.state.2 peerId := by
  have hexact : QueueExact m.state := by
    refine (hrun.holds (I := fun x _ => QueueExact x) (P := fun _ _ x => QueueExact x) rfl
      (fun _ => rfl) (fun c x _ hx hc => ?_) (fun _ _ hx => hx) fun _ _ x _ hx _ => ?_).head
        fun _ _ hx => hx
    · exact (exact_code c hx hc).mono fun _ _ h => ⟨h, h⟩
    · exact hx.congr (t := new env maxConcurrentTransfers x.1.database) rfl
  rw [← hexact peerId, mem_pendingPairs]

/-- **After a restart nothing is handed out**, whatever the rows are, since they are not read. -/
theorem nextTransfer_new (order : IterOrder TransferRequest) :
    (new env maxConcurrentTransfers database).scheduler.nextTransfer order =
      (none, .new maxConcurrentTransfers) := by
  have hqueue : order.entries (∅ : HashMap TransferRequest TransferPriority) = [] :=
    List.eq_nil_iff_forall_not_mem.mpr fun _ h => by simpa using order.mem_entries.mp h
  have htop : (TransferScheduler.new maxConcurrentTransfers).top order = none := by
    rw [TransferScheduler.top, TransferScheduler.new, hqueue]
    rfl
  change (TransferScheduler.new maxConcurrentTransfers).nextTransfer order = _
  rw [TransferScheduler.nextTransfer, htop]
  split <;> rfl

/-! ## A chunk of two files -/

/-- A transfer of the chunk to the peer is scheduled. -/
def scheduleFile (file : Text) : SyncCall := .scheduleTransfer none ['a'] file ['c'] 1 .normal

/-- The rows are exact after a transfer is scheduled. -/
theorem queueExact_scheduled : ∃ m : TrackedMoment,
    (tracked (SyncDatabase.sampleEnv true) 4).Run .trivial distinct
      (.idle (new (SyncDatabase.sampleEnv true) 4 .empty,
        pendingPairs SyncDatabase.empty.pending)) m ∧
      (['f'], ['c']) ∈ m.state.2 ['a'] ∧
      ((∃ row ∈ m.state.1.database.pending, row.peerId = ['a'] ∧ row.filePath = ['f'] ∧
        row.chunkHash = ['c']) ↔ (['f'], ['c']) ∈ m.state.2 ['a']) := by
  have hexec : ((Runs.exec ((tracked (SyncDatabase.sampleEnv true) 4).next .trivial)
      (fun _ _ => True) (wholly (.startSync none ['a'] []) 6)
      (.idle (new (SyncDatabase.sampleEnv true) 4 .empty,
        pendingPairs SyncDatabase.empty.pending))).bind fun m =>
          (Runs.exec ((tracked (SyncDatabase.sampleEnv true) 4).next .trivial) (fun _ _ => True)
            (wholly (scheduleFile ['f']) 2) m).map fun m' =>
              (m.state.1.database.pending, m'.state.2 ['a'])) = some ([], {(['f'], ['c'])}) := by
    decide +kernel
  obtain ⟨m, hm, hrest⟩ := Option.bind_eq_some_iff.mp hexec
  obtain ⟨m', hm', hend⟩ := Option.map_eq_some_iff.mp hrest
  obtain ⟨hrows, hpairs⟩ := by simpa only [Prod.mk.injEq] using hend
  have hstart := Crashable.run_of_exec_whole (K := distinct) (c := .startSync none ['a'] [])
    trivial hm
  have hschedule : (tracked (SyncDatabase.sampleEnv true) 4).Run .trivial distinct m m' := by
    refine Crashable.run_of_exec_whole (c := scheduleFile ['f']) (fun _ row hrow => ?_) hm'
    rw [hrows] at hrow
    cases hrow
  refine ⟨m', hstart.trans hschedule, ?_, queueExact_of_run (hstart.trans hschedule) _ _ _⟩
  rw [hpairs]
  decide

/-- The chunk is scheduled for two files, and the transfer for the first completes. -/
def sharedChunk : List (Crashable.Event SyncCall SyncInput) :=
  wholly (.startSync none ['a'] []) 6 ++ wholly (scheduleFile ['f']) 2 ++
    wholly (scheduleFile ['g']) 2 ++ wholly (.completeTransfer ['f'] ['a'] ['c'] 1) 3

/-- **A chunk of two files has one row**, which stays when the transfer it is for completes. -/
theorem not_queueExact_sharedChunk : ∃ m : TrackedMoment,
    (tracked (SyncDatabase.sampleEnv true) 4).Run .trivial .any
      (.idle (new (SyncDatabase.sampleEnv true) 4 .empty,
        pendingPairs SyncDatabase.empty.pending)) m ∧
      pendingPairs m.state.1.database.pending ['a'] = {(['f'], ['c'])} ∧
      m.state.2 ['a'] = {(['g'], ['c'])} ∧ ¬ QueueExact m.state := by
  have hexec : ((Runs.exec ((tracked (SyncDatabase.sampleEnv true) 4).next .trivial)
      (fun _ _ => True) sharedChunk (.idle (new (SyncDatabase.sampleEnv true) 4 .empty,
        pendingPairs SyncDatabase.empty.pending))).map
        fun m => (pendingPairs m.state.1.database.pending ['a'], m.state.2 ['a'])) =
      some ({(['f'], ['c'])}, {(['g'], ['c'])}) := by decide +kernel
  obtain ⟨m, hm, hend⟩ := Option.map_eq_some_iff.mp hexec
  obtain ⟨hrows, hpairs⟩ := by simpa only [Prod.mk.injEq] using hend
  refine ⟨m, Runs.run_of_exec_of_forall hm fun e _ m => Crashable.Condition.any_meets m e, hrows,
    hpairs, fun hexact => ?_⟩
  have hpeer := hexact ['a']
  rw [hrows, hpairs] at hpeer
  exact absurd hpeer (by decide)

end SyncOrchestrator

end Landropic
