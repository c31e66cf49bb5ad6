import Landropic.Sync.Orchestrator

set_option autoImplicit false

/-!
# Concurrent starts of a sync

A start checks that no sync with the peer is active, writes its record to the database, and then
keeps the peer as active in memory. Between the check and the last of these another call can do the
same, so that two syncs with a peer start.

## Main definitions

* `SyncOrchestrator.starts` — the starts of a peer that have returned since a sync with it was last
  completed.
* `SyncOrchestrator.calling` — any number of calls on an orchestrator.
* `SyncOrchestrator.Alternates` — the steps that keep starts and completions in turn.

## Main results

* `SyncOrchestrator.follows_code`, `guarantees_code` — in which order a call takes its actions, and
  what they do to the active peers.
* `SyncOrchestrator.OneEach.step` — the invariant of the calls.
* `SyncOrchestrator.starts_le_one` — at most one start returns between two completions.
-/

namespace Landropic

namespace SyncOrchestrator

open Proc

/-- How many starts of each peer have returned since a sync with it was last completed. A start
cannot fail any more when it has kept its progress. -/
def starts : SyncOp → SyncInput → SyncOrchestrator → (Text → ℕ) → Text → ℕ
  | .insertProgress peerId, _, _, count => Function.update count peerId (count peerId + 1)
  | .completePeer peerId, _, _, count => Function.update count peerId 0
  | _, _, _, count => count

/-- An orchestrator with the calls on it, and the starts that have returned. -/
abbrev CallPool (τ : Type) :=
  Pool τ (SyncOrchestrator × (Text → ℕ)) SyncInput SyncOp SyncError Unit

/-- Any number of calls that have not yet taken an action. -/
def calling {τ : Type} (env : SyncDatabase.Env) (maxConcurrentTransfers : ℕ)
    (database : SyncDatabase) (calls : τ → SyncCall) :
    Pool τ SyncOrchestrator SyncInput SyncOp SyncError Unit :=
  ⟨new env maxConcurrentTransfers database, fun t => code env (calls t)⟩

/-- The peer that a start is about to keep as active. -/
def inserted : SyncOp → Option Text
  | .insertPeer peerId => some peerId
  | _ => none

/-- The peer of a start that has kept it as active, and is yet to return. -/
def underway : SyncOp → Option Text
  | .lockState peerId => some peerId
  | .setSyncing peerId => some peerId
  | .insertProgress peerId => some peerId
  | _ => none

/-- The peer with whom a sync is about to be completed. -/
def completing : SyncOp → Option Text
  | .completePeer peerId => some peerId
  | _ => none

/-- Starts and completions come in turn: no sync with the peer is active when a start comes to keep
it as active, and no such start is yet to return when a sync with the peer is completed. -/
def Alternates {τ : Type} (P : CallPool τ) (t : τ) (_ : SyncInput) : Prop :=
  (∀ peerId ∈ (P.task t).head.bind inserted, peerId ∉ activePeers P.state.1.peerStates) ∧
    ∀ peerId ∈ (P.task t).head.bind completing,
      ∀ u, (P.task u).head.bind underway ≠ some peerId

instance {τ : Type} [Fintype τ] (P : CallPool τ) (t : τ) (i : SyncInput) :
    Decidable (Alternates P t i) := inferInstanceAs (Decidable (_ ∧ _))

/-! ## The actions of a call -/

/-- How a call goes on. It remembers the peer that it has kept as active, until it is done. -/
def Continues : Option Text → SyncOp → Option Text → Prop
  | none, .insertPeer peerId, kept => kept = some peerId
  | none, .lockState _, _ => False
  | none, .setSyncing _, _ => False
  | none, .insertProgress _, _ => False
  | none, _, kept => kept = none
  | some peerId, .lockState other, kept => other = peerId ∧ kept = some peerId
  | some peerId, .setSyncing other, kept => other = peerId ∧ kept = some peerId
  | some peerId, .insertProgress other, kept => other = peerId ∧ kept = none
  | some _, _, _ => False

/-- What an action does to the active peers. -/
def Changes (op : SyncOp) (s s' : SyncOrchestrator) : Prop :=
  match op with
  | .insertPeer peerId => activePeers s'.peerStates = insert peerId (activePeers s.peerStates)
  | .completePeer peerId => activePeers s'.peerStates = (activePeers s.peerStates).erase peerId
  | _ => activePeers s.peerStates ⊆ activePeers s'.peerStates

variable {env : SyncDatabase.Env} {maxConcurrentTransfers : ℕ} {s : SyncOrchestrator}
  {kept : Option Text} {peerId : Text} {α : Type}

/-- An action that waits for a lock. -/
lemma follows_locked {Q : Except SyncError α → Option Text → Prop} {k : Option Text}
    {op : SyncOp} {ready : SyncOrchestrator → Bool}
    {f : SyncInput → SyncOrchestrator → Except SyncError α × SyncOrchestrator}
    (hop : Continues kept op k) (h : ∀ i s, Q (f i s).1 k) :
    Follows Continues Q kept (locked op ready f) := ⟨k, hop, h⟩

lemma guarantees_locked {op : SyncOp} {ready : SyncOrchestrator → Bool}
    {f : SyncInput → SyncOrchestrator → Except SyncError α × SyncOrchestrator}
    (h : ∀ i s, Changes op s (f i s).2) :
    Guarantees Changes (fun _ => True) (locked op ready f) := fun i s _ => ⟨h i s, trivial⟩

/-- What an outcome of a call says about the peer it has kept: it is done with it. -/
abbrev IsDone (_ : Except SyncError Unit) (kept : Option Text) : Prop := kept = none

lemma follows_startSync (databaseError : Option String) (peerName : Text) :
    Follows Continues IsDone none (startSync env databaseError peerId peerName) := by
  refine .bind (follows_locked rfl fun i s => ?_)
  by_cases hactive : isActive s.peerStates peerId = true
  · simp only [hactive, if_true]
  · simp only [hactive]
    refine .bind (.atom (c := none) rfl fun r => ?_)
    cases r with
    | error e => rfl
    | ok _ =>
      refine .bind (follows_locked (k := some peerId) rfl fun _ _ => ?_)
      refine .bind (follows_locked (k := some peerId) ⟨rfl, rfl⟩ fun _ _ => ?_)
      refine .bind (follows_locked (k := some peerId) ⟨rfl, rfl⟩ fun _ _ => ?_)
      exact .atom (c := none) ⟨rfl, rfl⟩ fun _ => rfl

lemma follows_completeSync (databaseError : Option String) :
    Follows Continues IsDone none (completeSync env databaseError peerId) := by
  refine .bind (follows_locked rfl fun i s => ?_)
  have hcount : Follows Continues IsDone none countActive := by
    refine .bind (follows_locked rfl fun _ s => ?_)
    by_cases hempty : activePeers s.peerStates = ∅
    · simp only [if_pos hempty]
      exact follows_locked rfl fun _ _ => rfl
    · simp only [if_neg hempty]
      exact rfl
  cases s.peerStates.lookup peerId with
  | none => exact hcount
  | some peer =>
    refine .bind (.atom (c := none) rfl fun r => ?_)
    cases r with
    | error e => rfl
    | ok _ => exact hcount

/-- **The order of the actions** of a call. -/
theorem follows_code (c : SyncCall) : Follows Continues IsDone none (code env c) := by
  cases c with
  | startSync databaseError peerId peerName => exact follows_startSync databaseError peerName
  | handleManifestExchange peerId ours theirs => exact follows_locked rfl fun _ _ => rfl
  | scheduleTransfer databaseError peerId filePath chunkHash size priority =>
    exact .bind (follows_locked rfl fun _ _ => .atom rfl fun _ => rfl)
  | nextTransfer => exact .bind (follows_locked rfl fun _ _ => rfl)
  | completeTransfer filePath peerId chunkHash bytes =>
    refine .bind (follows_locked rfl fun _ _ => .bind (follows_locked (k := none) rfl ?_))
    intro i s
    cases s.peerStates.lookup peerId with
    | none => exact .atom (c := none) rfl fun _ => rfl
    | some peer => exact .atom (c := none) rfl fun _ => rfl
  | completeSync databaseError peerId => exact follows_completeSync databaseError

lemma guarantees_startSync (databaseError : Option String) (peerName : Text) :
    Guarantees Changes (fun _ => True) (startSync env databaseError peerId peerName) := by
  refine .bind (guarantees_locked fun _ _ => subset_rfl) (fun _ h => h) fun _ _ => ?_
  refine .bind (Q := fun _ => True) (.atom fun _ s => ⟨?_, trivial⟩) (fun _ h => h) fun _ _ => ?_
  · cases store env databaseError (starting peerId peerName) s.database with
    | ok database => exact subset_rfl
    | error e => exact subset_rfl
  refine .bind (guarantees_locked fun _ _ => activePeers_insert _) (fun _ h => h) fun _ _ => ?_
  refine .bind (guarantees_locked fun _ _ => subset_rfl) (fun _ h => h) fun _ _ => ?_
  refine .bind (guarantees_locked fun _ _ => subset_rfl) (fun _ h => h) fun _ _ => ?_
  exact .atom fun _ _ => ⟨subset_rfl, trivial⟩

lemma guarantees_completeSync (databaseError : Option String) :
    Guarantees Changes (fun _ => True) (completeSync env databaseError peerId) := by
  refine .bind (guarantees_locked fun i s => ?_) (fun _ h => h) fun completed _ => ?_
  · show activePeers _ = (activePeers s.peerStates).erase peerId
    cases hlookup : s.peerStates.lookup peerId with
    | none =>
      refine (Finset.erase_eq_self.mpr fun hmem => ?_).symm
      obtain ⟨peer, hpeer, -⟩ := mem_activePeers.mp hmem
      rw [hlookup] at hpeer
      cases hpeer
    | some peer => exact activePeers_insert _
  refine .bind (Q := fun _ => True) ?_ (fun _ h => h) fun _ _ => ?_
  · cases completed with
    | none => trivial
    | some peer =>
      refine .atom fun _ s => ⟨?_, trivial⟩
      dsimp only
      cases store env databaseError peer s.database with
      | ok database => exact subset_rfl
      | error e => exact subset_rfl
  refine .bind (guarantees_locked fun _ s => ?_) (fun _ h => h) fun idle _ => ?_
  · show activePeers s.peerStates ⊆ _
    split
    · exact subset_rfl
    · exact subset_rfl
  · cases idle with
    | true => exact guarantees_locked fun _ _ => subset_rfl
    | false => trivial

/-- **What the actions of a call do** to the active peers. -/
theorem guarantees_code (c : SyncCall) : Guarantees Changes (fun _ => True) (code env c) := by
  cases c with
  | startSync databaseError peerId peerName => exact guarantees_startSync databaseError peerName
  | handleManifestExchange peerId ours theirs =>
    refine guarantees_locked fun _ s => ?_
    show activePeers s.peerStates ⊆ _
    cases s.peerStates.lookup peerId with
    | none => exact subset_rfl
    | some peer =>
      dsimp only
      rw [activePeers_insert]
      exact Finset.subset_insert _ _
  | scheduleTransfer databaseError peerId filePath chunkHash size priority =>
    refine .bind (guarantees_locked fun _ _ => subset_rfl) (fun _ h => h) fun _ _ => ?_
    refine .atom fun i s => ⟨?_, trivial⟩
    show activePeers s.peerStates ⊆ _
    dsimp only
    split
    · exact subset_rfl
    · exact subset_rfl
  | nextTransfer =>
    exact .bind (guarantees_locked fun _ _ => subset_rfl) (fun _ h => h) fun _ _ => trivial
  | completeTransfer filePath peerId chunkHash bytes =>
    refine .bind (guarantees_locked fun _ _ => subset_rfl) (fun _ h => h) fun _ _ => ?_
    refine .bind (guarantees_locked fun _ s => ?_) (fun _ h => h) fun _ _ => ?_
    · show activePeers s.peerStates ⊆ _
      cases hlookup : s.peerStates.lookup peerId with
      | none => exact subset_rfl
      | some peer =>
        dsimp only
        rw [activePeers_insert_of_lookup hlookup]
        rfl
    · refine .atom fun _ s => ⟨?_, trivial⟩
      show activePeers s.peerStates ⊆ _
      cases s.progress.lookup peerId with
      | none => exact subset_rfl
      | some progress => exact subset_rfl
  | completeSync databaseError peerId => exact guarantees_completeSync databaseError

/-! ## Any number of calls -/

variable {τ : Type} {P P' : Pool τ SyncOrchestrator SyncInput SyncOp SyncError Unit} {t : τ}
  {i : SyncInput} {count : Text → ℕ}

lemma underway_of_kept {task : SyncTask Unit} (h : Follows Continues IsDone (some peerId) task) :
    task.head.bind underway = some peerId := by
  cases task with
  | ret r => cases h
  | act op ready eff next =>
    obtain ⟨kept', hop, -⟩ := h
    cases op with
    | lockState other => exact congrArg some hop.1
    | setSyncing other => exact congrArg some hop.1
    | insertProgress other => exact congrArg some hop.1
    | _ => exact hop.elim

/-- Each peer has at most one start, whether it has returned or is yet to return, since a sync with
it was last completed; and if it has one, it is active. -/
structure OneEach (P : Pool τ SyncOrchestrator SyncInput SyncOp SyncError Unit) (count : Text → ℕ)
    (kept : τ → Option Text) : Prop where
  follows : ∀ t, Follows Continues IsDone (kept t) (P.task t)
  guarantees : ∀ t, Guarantees Changes (fun _ => True) (P.task t)
  unique : ∀ t u peerId, kept t = some peerId → kept u = some peerId → t = u
  yet : ∀ t peerId, kept t = some peerId →
    count peerId = 0 ∧ peerId ∈ activePeers P.state.peerStates
  returned : ∀ peerId, count peerId ≤ 1
  active : ∀ peerId, count peerId = 1 → peerId ∈ activePeers P.state.peerStates

section Steps

variable [DecidableEq τ] {kept : τ → Option Text} {op : SyncOp}

/-- The tasks after one has gone on. -/
lemma OneEach.tasks (h : OneEach P count kept) (hstep : P.Step t i P')
    (hhead : (P.task t).head = some op) : ∃ kept', Continues (kept t) op kept' ∧
      Changes op P.state P'.state ∧
      (∀ u, Follows Continues IsDone (Function.update kept t kept' u) (P'.task u)) ∧
      ∀ u, Guarantees Changes (fun _ => True) (P'.task u) := by
  obtain ⟨op₁, kept', hhead₁, hcontinues, hfollows⟩ := (h.follows t).step hstep.proc
  obtain ⟨⟨op₂, hhead₂, hchanges⟩, hguarantees⟩ := (h.guarantees t).step hstep.proc
  obtain rfl := Option.some.inj (hhead.symm.trans hhead₁)
  obtain rfl := Option.some.inj (hhead.symm.trans hhead₂)
  refine ⟨kept', hcontinues, hchanges, fun u => ?_, fun u => ?_⟩
  · by_cases hu : u = t
    · subst hu
      rwa [Function.update_self]
    · rw [Function.update_of_ne hu, hstep.task_of_ne hu]
      exact h.follows u
  · by_cases hu : u = t
    · subst hu
      exact hguarantees
    · rw [hstep.task_of_ne hu]
      exact h.guarantees u

/-- A start keeps a peer that is not active. -/
lemma OneEach.insertPeer (h : OneEach P count kept)
    (hinactive : peerId ∉ activePeers P.state.peerStates)
    (hactive : activePeers P'.state.peerStates = insert peerId (activePeers P.state.peerStates))
    (hfollows : ∀ u,
      Follows Continues IsDone (Function.update kept t (some peerId) u) (P'.task u))
    (hguarantees : ∀ u, Guarantees Changes (fun _ => True) (P'.task u)) :
    OneEach P' count (Function.update kept t (some peerId)) := by
  have hnone : ∀ u, kept u ≠ some peerId := fun u hu => hinactive (h.yet u peerId hu).2
  refine ⟨hfollows, hguarantees, fun u v other hu hv => ?_, fun u other hu => ?_, h.returned, ?_⟩
  · rw [Function.update_apply] at hu hv
    split at hu
    · next hut =>
      split at hv
      · next hvt => exact hut.trans hvt.symm
      · exact absurd (Option.some.inj hu ▸ hv) (hnone v)
    · split at hv
      · exact absurd (Option.some.inj hv ▸ hu) (hnone u)
      · exact h.unique u v other hu hv
  · rw [Function.update_apply] at hu
    rw [hactive]
    split at hu
    · obtain rfl := Option.some.inj hu
      refine ⟨?_, Finset.mem_insert_self _ _⟩
      have hle := h.returned peerId
      have hne : count peerId ≠ 1 := fun hone => hinactive (h.active peerId hone)
      omega
    · obtain ⟨hzero, hmem⟩ := h.yet u other hu
      exact ⟨hzero, Finset.mem_insert_of_mem hmem⟩
  · intro other hone
    rw [hactive]
    exact Finset.mem_insert_of_mem (h.active other hone)

omit [DecidableEq τ] in
/-- A sync is completed with a peer that no start has kept. -/
lemma OneEach.completePeer (h : OneEach P count kept) (hnone : ∀ u, kept u ≠ some peerId)
    (hactive : activePeers P'.state.peerStates = (activePeers P.state.peerStates).erase peerId)
    (hfollows : ∀ u, Follows Continues IsDone (kept u) (P'.task u))
    (hguarantees : ∀ u, Guarantees Changes (fun _ => True) (P'.task u)) :
    OneEach P' (Function.update count peerId 0) kept := by
  refine ⟨hfollows, hguarantees, h.unique, fun u other hu => ?_, fun other => ?_,
    fun other hone => ?_⟩
  · have hne : other ≠ peerId := fun heq => hnone u (heq ▸ hu)
    obtain ⟨hzero, hmem⟩ := h.yet u other hu
    rw [Function.update_of_ne hne, hactive]
    exact ⟨hzero, Finset.mem_erase.mpr ⟨hne, hmem⟩⟩
  · rw [Function.update_apply]
    split
    · omega
    · exact h.returned other
  · rw [Function.update_apply] at hone
    split at hone
    · cases hone
    · next hne =>
      rw [hactive]
      exact Finset.mem_erase.mpr ⟨hne, h.active other hone⟩

/-- A start returns. -/
lemma OneEach.insertProgress (h : OneEach P count kept) (hkept : kept t = some peerId)
    (hactive : activePeers P.state.peerStates ⊆ activePeers P'.state.peerStates)
    (hfollows : ∀ u, Follows Continues IsDone (Function.update kept t none u) (P'.task u))
    (hguarantees : ∀ u, Guarantees Changes (fun _ => True) (P'.task u)) :
    OneEach P' (Function.update count peerId (count peerId + 1)) (Function.update kept t none) := by
  obtain ⟨hzero, hmem⟩ := h.yet t peerId hkept
  have hold : ∀ u other, Function.update kept t none u = some other →
      kept u = some other ∧ other ≠ peerId := by
    intro u other hu
    rw [Function.update_apply] at hu
    split at hu
    · cases hu
    · next hne => exact ⟨hu, fun heq => hne (h.unique u t peerId (heq ▸ hu) hkept)⟩
  refine ⟨hfollows, hguarantees, fun u v other hu hv => ?_, fun u other hu => ?_, fun other => ?_,
    fun other hone => ?_⟩
  · exact h.unique u v other (hold u other hu).1 (hold v other hv).1
  · obtain ⟨hu, hne⟩ := hold u other hu
    obtain ⟨hzero, hmem⟩ := h.yet u other hu
    rw [Function.update_of_ne hne]
    exact ⟨hzero, hactive hmem⟩
  · rw [Function.update_apply]
    split
    · omega
    · exact h.returned other
  · rw [Function.update_apply] at hone
    split at hone
    · next heq => exact hactive (heq ▸ hmem)
    · exact hactive (h.active other hone)

omit [DecidableEq τ] in
/-- Any other action. -/
lemma OneEach.other (h : OneEach P count kept)
    (hactive : activePeers P.state.peerStates ⊆ activePeers P'.state.peerStates)
    (hfollows : ∀ u, Follows Continues IsDone (kept u) (P'.task u))
    (hguarantees : ∀ u, Guarantees Changes (fun _ => True) (P'.task u)) :
    OneEach P' count kept :=
  ⟨hfollows, hguarantees, h.unique, fun u other hu => ⟨(h.yet u other hu).1,
    hactive (h.yet u other hu).2⟩, h.returned, fun other hone => hactive (h.active other hone)⟩

/-- **A step in turn** leaves each peer with at most one start. -/
theorem OneEach.step (h : OneEach P count kept) (hstep : P.Step t i P')
    (hhead : (P.task t).head = some op)
    (hinsert : ∀ peerId, op = .insertPeer peerId → peerId ∉ activePeers P.state.peerStates)
    (hcomplete : ∀ peerId, op = .completePeer peerId → ∀ u, kept u ≠ some peerId) :
    ∃ kept', OneEach P' (starts op i P.state count) kept' := by
  obtain ⟨kept', hcontinues, hchanges, hfollows, hguarantees⟩ := h.tasks hstep hhead
  refine ⟨Function.update kept t kept', ?_⟩
  have hsame : kept t = kept' → Function.update kept t kept' = kept := fun heq =>
    heq ▸ Function.update_eq_self t kept
  cases hkept : kept t with
  | none =>
    rw [hkept] at hcontinues
    cases op with
    | insertPeer peerId =>
      obtain rfl : kept' = some peerId := hcontinues
      exact h.insertPeer (hinsert peerId rfl) hchanges hfollows hguarantees
    | completePeer peerId =>
      obtain rfl : kept' = none := hcontinues
      rw [hsame hkept] at hfollows ⊢
      exact h.completePeer (hcomplete peerId rfl) hchanges hfollows hguarantees
    | lockState peerId => exact hcontinues.elim
    | setSyncing peerId => exact hcontinues.elim
    | insertProgress peerId => exact hcontinues.elim
    | _ =>
      obtain rfl : kept' = none := hcontinues
      rw [hsame hkept] at hfollows ⊢
      exact h.other hchanges hfollows hguarantees
  | some peerId =>
    rw [hkept] at hcontinues
    cases op with
    | lockState other =>
      obtain ⟨rfl, rfl⟩ := hcontinues
      rw [hsame hkept] at hfollows ⊢
      exact h.other hchanges hfollows hguarantees
    | setSyncing other =>
      obtain ⟨rfl, rfl⟩ := hcontinues
      rw [hsame hkept] at hfollows ⊢
      exact h.other hchanges hfollows hguarantees
    | insertProgress other =>
      obtain ⟨rfl, rfl⟩ := hcontinues
      exact h.insertProgress hkept hchanges hfollows hguarantees
    | _ => exact absurd hcontinues (by simp [Continues])

/-- **At most one start of a peer returns between two completions.** Of any number of concurrent
calls, whose actions come in any order in which starts and completions are in turn, at most one
start of a peer has returned since a sync with it was last completed.

**Proof sketch.** A start that has kept the peer as active, and one that has returned, leave the
peer active until a sync with it is completed. So no other start keeps it as active before, and
when it is completed no start of it is yet to return. -/
theorem starts_le_one {database : SyncDatabase} {calls : τ → SyncCall} {R : CallPool τ}
    (hrun : Pool.Run Alternates
      ((calling env maxConcurrentTransfers database calls).observe starts fun _ => 0) R)
    (peerId : Text) : R.state.2 peerId ≤ 1 := by
  have hinv : ∃ P count kept, R = P.observe starts count ∧ OneEach P count kept := by
    refine Pool.Run.invariant (I := fun R : CallPool τ => ∃ P count kept,
      R = P.observe starts count ∧ OneEach P count kept) hrun ⟨_, _, fun _ => none, rfl, ?_⟩ ?_
    · exact {
        follows := fun t => follows_code (calls t)
        guarantees := fun t => guarantees_code (calls t)
        unique := fun t u peerId h => by cases h
        yet := fun t peerId h => by cases h
        returned := fun _ => Nat.zero_le 1
        active := fun _ h => by cases h }
    · rintro R R' t i ⟨P, count, kept, rfl, h⟩ hC hstep
      obtain ⟨op, P', hhead, hpool, rfl⟩ := Pool.step_observe hstep
      have hobserved : ∀ u, ((P.observe starts count).task u).head = (P.task u).head :=
        fun u => head_observe
      obtain ⟨hinsert, hcomplete⟩ := hC
      rw [hobserved, hhead] at hinsert hcomplete
      have hinsert : ∀ peerId, op = .insertPeer peerId →
          peerId ∉ activePeers P.state.peerStates := by
        intro peerId heq
        subst heq
        exact hinsert peerId rfl
      have hcomplete : ∀ peerId, op = .completePeer peerId → ∀ u, kept u ≠ some peerId := by
        intro peerId heq u hu
        subst heq
        refine hcomplete peerId rfl u ?_
        rw [hobserved]
        exact underway_of_kept (hu ▸ h.follows u)
      obtain ⟨kept', h'⟩ := h.step hpool hhead hinsert hcomplete
      exact ⟨P', _, kept', rfl, h'⟩
  obtain ⟨P, count, kept, rfl, h⟩ := hinv
  exact h.returned peerId

end Steps

/-! ## Calls for one peer -/

/-- Some calls on an orchestrator over an empty database. -/
def someCalls {τ : Type} (calls : τ → SyncCall) : CallPool τ :=
  (calling (SyncDatabase.sampleEnv true) 4 .empty calls).observe starts fun _ => 0

/-- So many actions of a call. -/
def actions {τ : Type} (t : τ) (n : ℕ) : List (τ × SyncInput) := List.replicate n (t, midnight)

/-- Two calls that start a sync, and one that completes it. -/
def restarted (t : Fin 3) : SyncCall :=
  if t = 1 then .completeSync none ['a'] else .startSync none ['a'] []

/-- A sync that starts, completes and starts again. -/
theorem starts_le_one_restarted : ∃ R : CallPool (Fin 3),
    Pool.Run Alternates (someCalls restarted) R ∧ (∀ t, (R.task t).head = none) ∧
      0 < R.state.2 ['a'] ∧ R.state.2 ['a'] ≤ 1 := by
  have hexec : ((Runs.exec (fun P e => Pool.advance P e.1 e.2)
      (fun P e => Alternates P e.1 e.2) (actions 0 6 ++ actions 1 4 ++ actions 2 6)
      (someCalls restarted)).map fun R =>
        (decide (∀ t, (R.task t).head.isNone), R.state.2 ['a'])) = some (true, 1) := by
    decide +kernel
  obtain ⟨R, hR, hend⟩ := Option.map_eq_some_iff.mp hexec
  obtain ⟨hdone, hcount⟩ := by simpa only [Prod.mk.injEq, decide_eq_true_eq] using hend
  have hrun : Pool.Run Alternates _ R := Runs.run_of_exec hR
  exact ⟨R, hrun, fun t => Option.isNone_iff_eq_none.mp (hdone t), hcount ▸ one_pos,
    starts_le_one hrun ['a']⟩

/-- **Two syncs with a peer start** when both calls check before either has kept the peer. -/
theorem not_starts_le_one : ∃ R : CallPool Bool,
    Pool.Run (fun _ _ _ => True) (someCalls fun _ => .startSync none ['a'] []) R ∧
      R.state.2 ['a'] = 2 := by
  have hexec : ((Runs.exec (fun P e => Pool.advance P e.1 e.2) (fun _ _ => True)
      (actions true 1 ++ actions false 1 ++ actions true 5 ++ actions false 5)
      (someCalls fun _ => .startSync none ['a'] [])).map fun R => R.state.2 ['a']) = some 2 := by
    decide +kernel
  obtain ⟨R, hR, hcount⟩ := Option.map_eq_some_iff.mp hexec
  exact ⟨R, Runs.run_of_exec hR, hcount⟩

end SyncOrchestrator

end Landropic
