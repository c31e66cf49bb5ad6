import Landropic.Foundations.Pool
import Landropic.Proto.HandlerTasks

set_option autoImplicit false

/-!
# Concurrent calls of the protocol handler

A call that has let go of the state, and is about to take it again for writing, neither looks at the
state again nor always lets go of the folders in between. So two folder summaries that both find
the session connected wait for each other forever, and an error that comes in between is forgotten.

## Main definitions

* `HandlerCall.Orderly` — no calls wait for each other, and a session that has failed stays as it
  is.
* `HandlerTask.Sets` — a call is going to set the state without another look at it.
* `HandlerCall.Apart` — the steps that keep calls apart.
* `HandlerPlace.Moves` — what a call does, step by step.

## Main results

* `HandlerCall.orderly_of_apart` — calls that are kept apart are orderly.

## Design

Any number of calls run at once, from any state of the handler. A run is cut off anywhere.
-/

namespace Landropic

open Proc SyncProtocolHandler

variable {κ α β : Type}

/-- Wherever a call goes on from, it sets the state to the given one before it looks at it. -/
def HandlerTask.Sets (state : SyncState) : HandlerTask κ α → Prop
  | .ret _ => False
  | .act op ready _ next => ∀ i s, ready s = true →
    match op with
    | .writeState state' => state' = state
    | .readState => False
    | _ => Sets state (next i s)

/-- A call that handles an error has set the state. -/
def HandlerTask.Written (p : HandlerTask κ α) : Prop :=
  p.head = none ∨ p.head = some (.leave .state)

/-- Calls of one handler. -/
abbrev HandlerPool (κ : Type) :=
  Pool κ (SharedHandler κ) Env HandlerOp (Stop ProtoError) HandlerReply

namespace HandlerCall

variable [DecidableEq κ]

/-- Any number of calls at first. -/
def serving (calls : κ → HandlerCall) (h : SyncProtocolHandler) : HandlerPool κ :=
  ⟨⟨h, fun _ => .free⟩, fun t => (calls t).task t⟩

/-- **Calls are orderly** in the runs whose steps meet a condition: never do some of them wait for
each other, and once one of them has set the state to that of an error, it stays. -/
structure Orderly (calls : κ → HandlerCall) (h : SyncProtocolHandler)
    (C : HandlerPool κ → κ → Env → Prop) : Prop where
  noDeadlock : ∀ P, Pool.Run C (serving calls h) P → ¬ RwLock.Deadlocked P.state.locks
  failedStays : ∀ P t e i P' P'', Pool.Run C (serving calls h) P → calls t = .error e →
    (P.task t).head = some (.writeState (.failed e.message)) → C P t i → Pool.Step P t i P' →
    Pool.Run C P' P'' → P''.state.handler.state = P'.state.handler.state

omit [DecidableEq κ] in
/-- **The calls are kept apart**: a folder summary does not find the session connected while another
one is still going to set it syncing, and an error does not set the state while a call is going to
set it syncing or completed without another look, or after an error with another message. -/
def Apart (calls : κ → HandlerCall) (P : HandlerPool κ) (t : κ) (_ : Env) : Prop :=
  match calls t, (P.task t).head with
  | .folderSummary _, some .readState =>
    P.state.handler.state = .connected → ∀ u, ¬ HandlerTask.Sets .syncing (P.task u)
  | .error e, some (.writeState _) =>
    (∀ u, ¬ HandlerTask.Sets .syncing (P.task u) ∧ ¬ HandlerTask.Sets .completed (P.task u)) ∧
      ∀ u e', calls u = .error e' → HandlerTask.Written (P.task u) → e'.message = e.message
  | _, _ => True

end HandlerCall

/-! ## What a call does -/

/-- Where a call stands. -/
structure HandlerPlace where
  use : RwLock.Use HandlerLock
  /-- The state that it has found fit, as long as it holds the state. -/
  seen : Option SyncState
  /-- The state that it is going to set without another look. -/
  sets : Option SyncState

namespace HandlerPlace

/-- The place at which a lock may be asked for: the state comes first, unless the call is about to
set the session syncing. -/
def MayAsk (b : HandlerPlace) : HandlerLock → Prop
  | .state => b.use.held .state = none ∧ b.use.held .peerInfo = none ∧
    (b.use.held .folderProgress ≠ none → b.sets = some .syncing)
  | .folderProgress => b.use.held .folderProgress = none ∧ b.use.held .peerInfo = none ∧
    (b.use.held .state ≠ none → b.sets = some .syncing ∨ b.seen = some .syncing)
  | .peerInfo => b.use.held .peerInfo = none ∧ b.use.held .folderProgress = none

/-- **What a call does**, step by step. -/
inductive Moves [DecidableEq κ] (t : κ) (call : HandlerCall) (b : HandlerPlace) :
    HandlerOp → SharedHandler κ → SharedHandler κ → HandlerPlace → Prop
  | ask {lock mode s} : b.use.asked = none → b.MayAsk lock →
    Moves t call b (.ask lock mode) s (s.onLock lock fun L => L.ask t mode)
      { b with use := b.use.ask lock mode }
  | enter {lock mode s} : (s.locks lock).canEnter t mode = true →
    Moves t call b (.enter lock mode) s (s.onLock lock fun L => L.enter t mode)
      { b with use := b.use.enter lock mode }
  | leave {lock s} : b.use.asked = none →
    Moves t call b (.leave lock) s (s.onLock lock fun L => L.leave t)
      { b with use := b.use.leave lock, seen := if lock = .state then none else b.seen }
  /-- The call only looks, or rejects what it sees. -/
  | look {s} : b.use.asked = none → b.sets = none → Moves t call b .readState s s b
  | accept {s} : b.use.asked = none → b.use.held .state ≠ none → b.sets = none →
    Moves t call b .readState s s { b with seen := some s.handler.state }
  /-- A folder summary finds the session connected. -/
  | connect {s summary} : b.use.asked = none → b.use.held .state ≠ none → b.sets = none →
    call = .folderSummary summary → s.handler.state = .connected →
    Moves t call b .readState s s { b with seen := some .connected, sets := some .syncing }
  | write {state s} : b.use.asked = none → b.use.held .state = some .write →
    (b.sets = some state ∨ b.sets = none ∧ b.seen = some .waitingForHello) →
    Moves t call b (.writeState state) s { s with handler.state := state }
      { b with seen := none, sets := none }
  | work {s s'} : b.use.asked = none → s'.locks = s.locks →
    s'.handler.state = s.handler.state → Moves t call b .work s s' b
  /-- A chunk completes the last folder. -/
  | complete {s s'} : b.use.asked = none → s'.locks = s.locks →
    s'.handler.state = s.handler.state → b.seen = some .syncing → b.sets = none →
    Moves t call b .work s s' { b with sets := some .completed }

/-- Only a call that sets the state changes it, and where it stands says to what. -/
lemma Moves.state_eq [DecidableEq κ] {t : κ} {call : HandlerCall} {b b' : HandlerPlace}
    {op : HandlerOp} {s s' : SharedHandler κ} (h : Moves t call b op s s' b') :
    s'.handler.state = s.handler.state ∨ ∃ state, op = .writeState state ∧
      s'.handler.state = state ∧ (b.sets = some state ∨ b.seen = some .waitingForHello) := by
  cases h with
  | write _ _ hsets => exact .inr ⟨_, rfl, rfl, hsets.imp_right And.right⟩
  | work _ _ hstate => exact .inl hstate
  | complete _ _ hstate => exact .inl hstate
  | _ => exact .inl rfl

/-- Where a call starts. -/
def start : HandlerCall → HandlerPlace
  | .error e => ⟨.none, none, some (.failed e.message)⟩
  | _ => ⟨.none, none, none⟩

/-- Where a call may end. -/
def Final {ε : Type} (_ : Except ε α) (b : HandlerPlace) : Prop := b.sets = none

end HandlerPlace

namespace HandlerTask

open HandlerPlace

section Tracks

variable [DecidableEq κ] {t : κ} {call : HandlerCall} {b : HandlerPlace} {lock : HandlerLock}
  {mode : LockMode}

lemma sets_of_tracks {p : HandlerTask κ α} {state : SyncState}
    (h : Tracks (Moves t call) Final b p) (hb : b.sets = some state) : Sets state p := by
  induction p generalizing b with
  | ret r =>
    have hnone : b.sets = none := h
    rw [hb] at hnone
    cases hnone
  | act op ready eff next ih =>
    intro i s hready
    obtain ⟨b', hmove, hnext⟩ := h i s hready
    generalize eff i s = s' at hmove
    cases hmove with
    | ask => exact ih i s hnext hb
    | enter => exact ih i s hnext hb
    | leave => exact ih i s hnext hb
    | look _ hsets =>
      rw [hb] at hsets
      cases hsets
    | accept _ _ hsets =>
      rw [hb] at hsets
      cases hsets
    | connect _ _ hsets =>
      rw [hb] at hsets
      cases hsets
    | write _ _ hsets =>
      obtain hsets | ⟨hsets, -⟩ := hsets
      · rw [hb] at hsets
        exact (Option.some.inj hsets).symm
      · rw [hb] at hsets
        cases hsets
    | work => exact ih i s hnext hb
    | complete _ _ _ _ hsets =>
      rw [hb] at hsets
      cases hsets

variable {Q : Except (Stop ProtoError) Unit → HandlerPlace → Prop}

lemma tracks_acquire (hasked : b.use.asked = none) (hmay : b.MayAsk lock)
    (hQ : Q (.ok ()) { b with use := ⟨Function.update b.use.held lock (some mode), none⟩ }) :
    Tracks (Moves t call) Q b (acquire t lock mode) :=
  fun _ _ _ => ⟨_, .ask hasked hmay, fun _ _ hready => ⟨_, .enter hready, hQ⟩⟩

lemma tracks_release (hasked : b.use.asked = none)
    (hQ : Q (.ok ())
      { b with use := b.use.leave lock, seen := if lock = .state then none else b.seen }) :
    Tracks (Moves t call) Q b (release t lock) :=
  .atom fun _ _ => ⟨_, .leave hasked, hQ⟩

lemma tracks_writeState {state : SyncState} (hasked : b.use.asked = none)
    (hheld : b.use.held .state = some .write)
    (hsets : b.sets = some state ∨ b.sets = none ∧ b.seen = some .waitingForHello)
    (hQ : Q (.ok ()) { b with seen := none, sets := none }) :
    Tracks (Moves t call) Q b (writeState state) :=
  .atom fun _ _ => ⟨_, .write hasked hheld hsets, hQ⟩

lemma tracks_work {R : Except (Stop ProtoError) α → HandlerPlace → Prop}
    {f : Env → SyncProtocolHandler → α × SyncProtocolHandler} (hasked : b.use.asked = none)
    (hstate : ∀ env h, (f env h).2.state = h.state) (hR : ∀ a, R (.ok a) b) :
    Tracks (Moves t call) R b (work f) :=
  .atom fun _ _ => ⟨b, .work hasked rfl (hstate _ _), hR _⟩

lemma mayAsk_state {sets : Option SyncState} : MayAsk ⟨.none, none, sets⟩ .state :=
  ⟨rfl, rfl, fun h => absurd rfl h⟩

lemma tracks_handleHello (hello : Hello) :
    Tracks (Moves t call) Final ⟨.none, none, none⟩ (handleHello t hello) := by
  refine .bind (tracks_acquire rfl mayAsk_state (.bind (.atom fun _ s => ?_)))
  dsimp only
  split_ifs with hstate hversion
  · exact ⟨_, .look rfl rfl, .bind (tracks_release rfl rfl)⟩
  · refine ⟨_, .accept rfl (by simp) rfl, .bind (tracks_writeState rfl (by simp) ?_ ?_)⟩
    · exact .inr ⟨rfl, congrArg some (not_not.mp hstate)⟩
    · exact .bind (tracks_release rfl rfl)
  · refine ⟨_, .accept rfl (by simp) rfl,
      .bind (tracks_work rfl (fun _ _ => rfl) fun logsInfo => ?_)⟩
    dsimp only
    split_ifs with hpanic
    · exact .bind (tracks_release rfl rfl)
    · refine .bind (tracks_acquire rfl ⟨rfl, rfl⟩ ?_)
      refine .bind (tracks_work rfl (fun _ _ => rfl) fun _ => ?_)
      refine .bind (tracks_release rfl (.bind (tracks_writeState rfl rfl ?_ ?_)))
      · exact .inr ⟨rfl, congrArg some (not_not.mp hstate)⟩
      · exact .bind (tracks_work rfl (fun _ _ => rfl) fun _ => .bind (tracks_release rfl rfl))

/-- The locks of a call that holds the state for reading. -/
abbrev reading : HandlerLock → Option LockMode :=
  Function.update (fun _ => none) .state (some .read)

/-- What is left of a handler of a message about folders, once the state fits. -/
lemma tracks_onFolders {fits : SyncState → Bool} {message : String}
    {use : Env → SyncProtocolHandler → β × SyncProtocolHandler}
    {finish : SyncState → β → HandlerTask κ α}
    (h : ∀ s : SharedHandler κ, fits s.handler.state = true → ∃ b',
      Moves t call ⟨⟨reading, none⟩, none, none⟩ .readState s s b' ∧
        Tracks (Moves t call) Final b' (acquire t .folderProgress .write >>= fun _ =>
          work use >>= finish s.handler.state)) :
    Tracks (Moves t call) Final ⟨.none, none, none⟩ (onFolders t fits message use finish) := by
  refine .bind (tracks_acquire rfl mayAsk_state (.bind (.atom fun _ s => ?_)))
  dsimp only
  split_ifs with hfits
  · exact h s hfits
  · exact ⟨_, .look rfl rfl, .bind (tracks_release rfl rfl)⟩

lemma tracks_releaseBoth {k : HandlerTask κ α} {seen : Option SyncState}
    {R : Except (Stop ProtoError) α → HandlerPlace → Prop} (hk : ∀ use, use.asked = none →
      Tracks (Moves t call) R ⟨use, none, none⟩ k) :
    Tracks (Moves t call) R ⟨⟨both, none⟩, seen, none⟩ (releaseBoth t >>= fun _ => k) :=
  .bind (.bind (tracks_release rfl (tracks_release rfl (hk _ rfl))))

lemma tracks_handleFolderSummary (summary : FolderSummary) :
    Tracks (Moves t (.folderSummary summary)) Final ⟨.none, none, none⟩
      (handleFolderSummary t summary) := by
  refine tracks_onFolders fun s hfits => ?_
  by_cases hconnected : s.handler.state = .connected
  · refine ⟨_, .connect rfl (by simp) rfl rfl hconnected, ?_⟩
    refine .bind (tracks_acquire rfl ⟨rfl, rfl, fun _ => .inl rfl⟩ ?_)
    refine .bind (tracks_work rfl (fun _ _ => rfl) fun _ => ?_)
    dsimp only
    rw [if_pos hconnected]
    refine .bind (tracks_release rfl (.bind (tracks_acquire rfl ⟨rfl, rfl, fun _ => rfl⟩ ?_)))
    refine .bind (tracks_writeState rfl (by simp) (.inl rfl) ?_)
    exact .bind (tracks_release rfl (tracks_release rfl rfl))
  · have hsyncing : s.handler.state = .syncing := by
      rw [decide_eq_true_eq] at hfits
      exact hfits.resolve_left hconnected
    refine ⟨_, .accept rfl (by simp) rfl, ?_⟩
    refine .bind (tracks_acquire rfl ⟨rfl, rfl, fun _ => .inr (congrArg some hsyncing)⟩ ?_)
    refine .bind (tracks_work rfl (fun _ _ => rfl) fun _ => ?_)
    dsimp only
    rw [if_neg hconnected]
    exact .bind (tracks_release rfl (tracks_release rfl rfl))

/-- A handler that finds the session syncing, and then lets go of both locks. -/
lemma tracks_onFolders_releaseBoth {message : String}
    {use : Env → SyncProtocolHandler → β × SyncProtocolHandler} {f : β → α}
    (huse : ∀ env h, (use env h).2.state = h.state) :
    Tracks (Moves t call) Final ⟨.none, none, none⟩
      (onFolders t (fun state => state = .syncing) message use fun _ a => do
        releaseBoth t
        pure (f a)) := by
  refine tracks_onFolders fun s hfits => ⟨_, .accept rfl (by simp) rfl, ?_⟩
  rw [decide_eq_true_eq] at hfits
  refine .bind (tracks_acquire rfl ⟨rfl, rfl, fun _ => .inr (congrArg some hfits)⟩ ?_)
  exact .bind (tracks_work rfl huse fun _ => tracks_releaseBoth fun _ _ => rfl)

lemma tracks_handleChunkData (chunk : ChunkData) :
    Tracks (Moves t call) Final ⟨.none, none, none⟩ (handleChunkData t chunk) := by
  refine tracks_onFolders fun s hfits => ⟨_, .accept rfl (by simp) rfl, ?_⟩
  rw [decide_eq_true_eq] at hfits
  refine .bind (tracks_acquire rfl ⟨rfl, rfl, fun _ => .inr (congrArg some hfits)⟩ ?_)
  refine .bind (.atom fun env s' => ?_)
  dsimp only
  split_ifs with hdone
  · refine ⟨_, .complete rfl rfl rfl (congrArg some hfits) rfl, ?_⟩
    refine .bind (tracks_release rfl (.bind (tracks_release rfl ?_)))
    refine .bind (tracks_acquire rfl ⟨rfl, rfl, fun h => absurd rfl h⟩ ?_)
    refine .bind (tracks_writeState rfl (by simp) (.inl rfl) ?_)
    exact .bind (tracks_release rfl rfl)
  · exact ⟨_, .work rfl rfl rfl, tracks_releaseBoth fun _ _ => rfl⟩

lemma tracks_handleError (error : ProtoError) :
    Tracks (Moves t call) Final ⟨.none, none, some (.failed error.message)⟩
      (handleError t error) :=
  .bind (tracks_acquire rfl mayAsk_state
    (.bind (tracks_writeState rfl (by simp) (.inl rfl) (tracks_release rfl rfl))))

lemma tracks_look (f : SyncState → α) :
    Tracks (Moves t call) Final ⟨.none, none, none⟩ (look t f) :=
  .bind (tracks_acquire rfl mayAsk_state
    (.bind (.atom fun _ _ => ⟨_, .look rfl rfl, .bind (tracks_release rfl rfl)⟩)))

lemma tracks_getProgress : Tracks (Moves t call) Final ⟨.none, none, none⟩ (getProgress t) := by
  refine .bind (tracks_acquire rfl ⟨rfl, rfl, fun h => absurd rfl h⟩ ?_)
  exact .bind (tracks_work rfl (fun _ _ => rfl) fun _ => .bind (tracks_release rfl rfl))

end Tracks

end HandlerTask

/-! ## What holds along a run -/

namespace HandlerCall

open HandlerPlace HandlerTask

section Sound

variable {calls : κ → HandlerCall} {s s' : SharedHandler κ} {place : κ → HandlerPlace}

/-- **What the places of the calls say about the handler.** -/
structure Sound (calls : κ → HandlerCall) (s : SharedHandler κ) (place : κ → HandlerPlace) :
    Prop where
  accounted : RwLock.Accounted s.locks fun u => (place u).use
  mayAsk : ∀ {u lock mode}, (place u).use.asked = some (lock, mode) → (place u).MayAsk lock
  seen : ∀ {u state}, (place u).seen = some state →
    (place u).use.held .state ≠ none ∧ s.handler.state = state
  syncing : ∀ {u}, (place u).sets = some .syncing → s.handler.state = .connected
  completed : ∀ {u}, (place u).sets = some .completed →
    s.handler.state = .syncing ∨ s.handler.state = .completed
  unique : ∀ {u v}, (place u).sets = some .syncing → (place v).sets = some .syncing → u = v
  kind : ∀ {u state}, (place u).sets = some state →
    state = .syncing ∨ state = .completed ∨ ∃ e, calls u = .error e ∧ state = .failed e.message

/-- Where the locks come in an order, for calls that are not about to set the session syncing. -/
private def rank : HandlerLock → ℕ
  | .state => 0
  | .folderProgress => 1
  | .peerInfo => 2

/-- The order of the locks while a call is about to set the session syncing. -/
private def rank' : HandlerLock → ℕ
  | .folderProgress => 0
  | .state => 1
  | .peerInfo => 2

/-- **Nobody waits in a circle.**

**Proof sketch.** As long as no call holds the folders alone and is about to set the session
syncing, the state comes before the folders. While there is one, the session is connected. Then no
other call that holds the state asks for the folders, so the folders come before the state. -/
theorem Sound.not_deadlocked [DecidableEq κ] (h : Sound calls s place) :
    ¬ RwLock.Deadlocked s.locks := by
  by_cases hwindow : ∃ t, (place t).sets = some .syncing ∧
    (place t).use.held .folderProgress ≠ none ∧ (place t).use.held .state = none
  · obtain ⟨t, hsets, hfolders, -⟩ := hwindow
    have hconnected := h.syncing hsets
    refine h.accounted.not_deadlocked rank' fun {u lock mode} hasked lock' hheld => ?_
    have hmay := h.mayAsk hasked
    cases lock with
    | state =>
      obtain ⟨hstate, hpeer, -⟩ := hmay
      cases lock' with
      | state => exact absurd hstate hheld
      | peerInfo => exact absurd hpeer hheld
      | folderProgress => decide
    | peerInfo =>
      obtain ⟨hpeer, -⟩ := hmay
      cases lock' with
      | state => decide
      | peerInfo => exact absurd hpeer hheld
      | folderProgress => decide
    | folderProgress =>
      obtain ⟨hfolders', hpeer, hstate⟩ := hmay
      cases lock' with
      | state =>
        obtain hsyncing | hseen := hstate hheld
        · obtain rfl := h.unique hsets hsyncing
          exact absurd hfolders' hfolders
        · have hstate := (h.seen hseen).2
          rw [hconnected] at hstate
          cases hstate
      | peerInfo => exact absurd hpeer hheld
      | folderProgress => exact absurd hfolders' hheld
  · refine h.accounted.not_deadlocked rank fun {u lock mode} hasked lock' hheld => ?_
    have hmay := h.mayAsk hasked
    cases lock with
    | state =>
      obtain ⟨hstate, hpeer, hfolders⟩ := hmay
      cases lock' with
      | state => exact absurd hstate hheld
      | peerInfo => exact absurd hpeer hheld
      | folderProgress => exact absurd ⟨u, hfolders hheld, hheld, hstate⟩ hwindow
    | peerInfo =>
      obtain ⟨hpeer, -⟩ := hmay
      cases lock' with
      | state => decide
      | peerInfo => exact absurd hpeer hheld
      | folderProgress => decide
    | folderProgress =>
      obtain ⟨hfolders, hpeer, -⟩ := hmay
      cases lock' with
      | state => decide
      | peerInfo => exact absurd hpeer hheld
      | folderProgress => exact absurd hfolders hheld

variable [DecidableEq κ] {t : κ} {b : HandlerPlace}

/-- The places after a step that leaves the state of the handler alone. -/
lemma Sound.update (h : Sound calls s place) (hstate : s'.handler.state = s.handler.state)
    (hlocks : RwLock.Accounted s'.locks (Function.update (fun u => (place u).use) t b.use))
    (hmay : ∀ {lock mode}, b.use.asked = some (lock, mode) → b.MayAsk lock)
    (hseen : ∀ {state}, b.seen = some state →
      b.use.held .state ≠ none ∧ s.handler.state = state)
    (hsets : b.sets = (place t).sets ∨
      b.sets = some .syncing ∧ s.handler.state = .connected ∧
        (∀ u, (place u).sets ≠ some .syncing) ∨
      b.sets = some .completed ∧ s.handler.state = .syncing) :
    Sound calls s' (Function.update place t b) := by
  have huse : (fun u => (Function.update place t b u).use) =
      Function.update (fun u => (place u).use) t b.use := by
    funext u
    by_cases hu : u = t
    · subst hu
      simp
    · simp [hu]
  refine ⟨huse ▸ hlocks, fun {u lock mode} hasked => ?_, fun {u state} hu => ?_, fun {u} hu => ?_,
    fun {u} hu => ?_, fun {u v} hu hv => ?_, fun {u state} hu => ?_⟩
  · by_cases ht : u = t
    · subst ht
      rw [Function.update_self] at hasked ⊢
      exact hmay hasked
    · rw [Function.update_of_ne ht] at hasked ⊢
      exact h.mayAsk hasked
  · rw [hstate]
    by_cases ht : u = t
    · subst ht
      rw [Function.update_self] at hu ⊢
      exact hseen hu
    · rw [Function.update_of_ne ht] at hu ⊢
      exact h.seen hu
  · rw [hstate]
    by_cases ht : u = t
    · subst ht
      rw [Function.update_self] at hu
      obtain hsame | ⟨-, hconnected, -⟩ | ⟨hcompleted, -⟩ := hsets
      · exact h.syncing (hsame ▸ hu)
      · exact hconnected
      · rw [hu] at hcompleted
        cases hcompleted
    · rw [Function.update_of_ne ht] at hu
      exact h.syncing hu
  · rw [hstate]
    by_cases ht : u = t
    · subst ht
      rw [Function.update_self] at hu
      obtain hsame | ⟨hsyncing, -⟩ | ⟨-, hsyncing⟩ := hsets
      · exact h.completed (hsame ▸ hu)
      · rw [hu] at hsyncing
        cases hsyncing
      · exact .inl hsyncing
    · rw [Function.update_of_ne ht] at hu
      exact h.completed hu
  · have hold : ∀ {w}, (Function.update place t b w).sets = some .syncing → w ≠ t →
        (place w).sets = some .syncing := by
      intro w hw hne
      rwa [Function.update_of_ne hne] at hw
    have hnew : (Function.update place t b t).sets = some .syncing →
        (place t).sets = some .syncing ∨ ∀ u, (place u).sets ≠ some .syncing := by
      intro hb
      rw [Function.update_self] at hb
      obtain hsame | ⟨-, -, hnone⟩ | ⟨hcompleted, -⟩ := hsets
      · exact .inl (hsame ▸ hb)
      · exact .inr hnone
      · rw [hb] at hcompleted
        cases hcompleted
    by_cases hut : u = t
    · by_cases hvt : v = t
      · rw [hut, hvt]
      · subst hut
        obtain hu | hnone := hnew hu
        · exact h.unique hu (hold hv hvt)
        · exact absurd (hold hv hvt) (hnone v)
    · by_cases hvt : v = t
      · subst hvt
        obtain hv | hnone := hnew hv
        · exact h.unique (hold hu hut) hv
        · exact absurd (hold hu hut) (hnone u)
      · exact h.unique (hold hu hut) (hold hv hvt)
  · by_cases ht : u = t
    · subst ht
      rw [Function.update_self] at hu
      obtain hsame | ⟨hsyncing, -⟩ | ⟨hcompleted, -⟩ := hsets
      · exact h.kind (hsame ▸ hu)
      · exact .inl (Option.some.inj (hu.symm.trans hsyncing))
      · exact .inr (.inl (Option.some.inj (hu.symm.trans hcompleted)))
    · rw [Function.update_of_ne ht] at hu
      exact h.kind hu

omit [DecidableEq κ] in
lemma Sound.seen_eq_none (h : Sound calls s place) (ht : (place t).use.held .state = some .write)
    {u : κ} (hu : u ≠ t) : (place u).seen = none := by
  cases hseen : (place u).seen with
  | none => rfl
  | some state => exact absurd (h.accounted.held_eq_none ht hu) (h.seen hseen).1

/-- The places after a step that sets the state. -/
lemma Sound.write (h : Sound calls s place) {state : SyncState}
    (hheld : (place t).use.held .state = some .write)
    (hmay : ∀ {lock mode}, (place t).use.asked ≠ some (lock, mode))
    (hsets : (place t).sets = some state ∨
      (place t).sets = none ∧ (place t).seen = some .waitingForHello)
    (hapart : ∀ e, calls t = .error e → ∀ u, (place u).sets ≠ some .syncing ∧
      (place u).sets ≠ some .completed) :
    Sound calls { s with handler.state := state }
      (Function.update place t { place t with seen := none, sets := none }) := by
  have huse : (fun u => (Function.update place t
      { place t with seen := none, sets := none } u).use) = fun u => (place u).use := by
    funext u
    by_cases hu : u = t
    · subst hu
      simp
    · simp [hu]
  have hold : ∀ {u st}, (Function.update place t
      { place t with seen := none, sets := none } u).sets = some st →
      u ≠ t ∧ (place u).sets = some st := by
    intro u st hu
    by_cases ht : u = t
    · subst ht
      simp at hu
    · exact ⟨ht, by rwa [Function.update_of_ne ht] at hu⟩
  -- who sets the state, if another call is going to set it without another look
  have hothers : ∀ {u}, u ≠ t → (place u).sets ≠ some .syncing ∧
      ((place u).sets = some .completed → state = .completed) := by
    intro u hu
    obtain hstate | ⟨-, hwaiting⟩ := hsets
    · obtain rfl | rfl | ⟨e, he, rfl⟩ := h.kind hstate
      · refine ⟨fun hsyncing => hu (h.unique hsyncing hstate), fun hcompleted => ?_⟩
        have hconnected := h.syncing hstate
        obtain hstate' | hstate' := h.completed hcompleted
        · cases hconnected.symm.trans hstate'
        · cases hconnected.symm.trans hstate'
      · refine ⟨fun hsyncing => ?_, fun _ => rfl⟩
        have hconnected := h.syncing hsyncing
        obtain hstate' | hstate' := h.completed hstate
        · cases hconnected.symm.trans hstate'
        · cases hconnected.symm.trans hstate'
      · exact ⟨(hapart e he u).1, fun hcompleted => absurd hcompleted (hapart e he u).2⟩
    · have hwaiting' := (h.seen hwaiting).2
      refine ⟨fun hsyncing => ?_, fun hcompleted => ?_⟩
      · cases hwaiting'.symm.trans (h.syncing hsyncing)
      · obtain hstate' | hstate' := h.completed hcompleted
        · cases hwaiting'.symm.trans hstate'
        · cases hwaiting'.symm.trans hstate'
  refine ⟨huse ▸ h.accounted, fun {u lock mode} hasked => ?_, fun {u st} hu => ?_,
    fun {u} hu => absurd (hold hu).2 (hothers (hold hu).1).1, fun {u} hu => ?_,
    fun {u v} hu _ => absurd (hold hu).2 (hothers (hold hu).1).1, fun hu => h.kind (hold hu).2⟩
  · by_cases ht : u = t
    · subst ht
      rw [Function.update_self] at hasked
      exact absurd hasked hmay
    · rw [Function.update_of_ne ht] at hasked ⊢
      exact h.mayAsk hasked
  · by_cases ht : u = t
    · subst ht
      simp at hu
    · rw [Function.update_of_ne ht, h.seen_eq_none hheld ht] at hu
      cases hu
  · exact .inr ((hothers (hold hu).1).2 (hold hu).2)

/-- **What a call does keeps what the places say**, as long as the calls are kept apart. -/
theorem Sound.moves {op : HandlerOp} (h : Sound calls s place)
    (hmove : Moves t (calls t) (place t) op s s' b)
    (hconnect : ∀ summary, calls t = .folderSummary summary → op = .readState →
      s.handler.state = .connected → ∀ u, (place u).sets ≠ some .syncing)
    (herror : ∀ e state, calls t = .error e → op = .writeState state →
      ∀ u, (place u).sets ≠ some .syncing ∧ (place u).sets ≠ some .completed) :
    Sound calls s' (Function.update place t b) := by
  have hsame : RwLock.Accounted s.locks
      (Function.update (fun u => (place u).use) t (place t).use) := by
    rw [Function.update_eq_self]
    exact h.accounted
  cases hmove with
  | @ask lock mode _ hasked hmay =>
    refine h.update rfl (h.accounted.ask hasked) (fun {lock' mode'} heq => ?_) h.seen (.inl rfl)
    obtain ⟨rfl, -⟩ := Prod.mk.inj (Option.some.inj heq)
    cases lock with
    | state => exact hmay
    | peerInfo => exact hmay
    | folderProgress => exact hmay
  | @enter lock mode _ hturn =>
    refine h.update rfl (h.accounted.enter hturn) (fun heq => by cases heq) (fun hseen => ?_)
      (.inl rfl)
    refine ⟨?_, (h.seen hseen).2⟩
    by_cases hlock : HandlerLock.state = lock
    · subst hlock
      simp [RwLock.Use.enter]
    · simpa [RwLock.Use.enter, hlock] using (h.seen hseen).1
  | @leave lock _ hasked =>
    refine h.update rfl h.accounted.leave (fun heq => ?_) (fun {state} hseen => ?_) (.inl rfl)
    · exact absurd (hasked.symm.trans heq) (by simp)
    · by_cases hlock : lock = .state
      · simp [hlock] at hseen
      · rw [if_neg hlock] at hseen
        refine ⟨?_, (h.seen hseen).2⟩
        simpa [RwLock.Use.leave, Ne.symm hlock] using (h.seen hseen).1
  | look hasked _ =>
    rw [Function.update_eq_self]
    exact h
  | accept hasked hheld _ =>
    refine h.update rfl hsame (fun heq => ?_) (fun hseen => ?_) (.inl rfl)
    · exact absurd (hasked.symm.trans heq) (by simp)
    · exact ⟨hheld, Option.some.inj hseen⟩
  | @connect _ summary hasked hheld _ hcall hconnected =>
    refine h.update rfl hsame (fun heq => ?_) (fun hseen => ?_) (.inr (.inl ?_))
    · exact absurd (hasked.symm.trans heq) (by simp)
    · exact ⟨hheld, hconnected.trans (Option.some.inj hseen)⟩
    · exact ⟨rfl, hconnected, hconnect summary hcall rfl hconnected⟩
  | @write state _ hasked hheld hsets =>
    exact h.write hheld (by simp [hasked]) hsets fun e he => herror e state he rfl
  | work hasked hlocks hstate =>
    refine h.update hstate (by rwa [hlocks]) (fun heq => ?_) h.seen (.inl rfl)
    exact absurd (hasked.symm.trans heq) (by simp)
  | complete hasked hlocks hstate hseen _ =>
    refine h.update hstate (by rwa [hlocks]) (fun heq => ?_) h.seen (.inr (.inr ?_))
    · exact absurd (hasked.symm.trans heq) (by simp)
    · exact ⟨rfl, (h.seen hseen).2⟩

end Sound

/-! ## Runs -/

section Runs

variable [DecidableEq κ] {calls : κ → HandlerCall} {h : SyncProtocolHandler} {P P' : HandlerPool κ}
  {t : κ} {i : Env}

/-- What holds along a run of calls that are kept apart. -/
def Stands (calls : κ → HandlerCall) (P : HandlerPool κ) (place : κ → HandlerPlace) : Prop :=
  Sound calls P.state place ∧
    ∀ u, Tracks (Moves u (calls u)) Final (place u) (P.task u)

lemma tracks_task (t : κ) (call : HandlerCall) :
    Tracks (Moves t call) Final (start call) (call.task t) := by
  have hreply : ∀ {α} {p : HandlerTask κ α} {f : α → HandlerReply} {b},
      Tracks (Moves t call) Final b p → Tracks (Moves t call) Final b (p >>= fun a => pure (f a)) :=
    fun hp => .bind (hp.mono fun r b hb => by
      cases r with
      | ok a => exact hb
      | error e => exact hb)
  cases call with
  | hello m => exact hreply (tracks_handleHello m)
  | folderSummary m => exact hreply (tracks_handleFolderSummary m)
  | manifest m => exact hreply (tracks_onFolders_releaseBoth fun _ _ => rfl)
  | want m => exact hreply (tracks_onFolders_releaseBoth fun _ _ => rfl)
  | chunkData m => exact hreply (tracks_handleChunkData m)
  | error m => exact hreply (tracks_handleError m)
  | state => exact hreply (tracks_look _)
  | progress => exact hreply tracks_getProgress
  | isComplete => exact hreply (tracks_look _)
  | isFailed => exact hreply (tracks_look _)

lemma stands_serving : Stands calls (serving calls h) fun t => start (calls t) := by
  refine ⟨⟨?_, fun {u lock mode} hasked => ?_, fun {u state} hseen => ?_, fun {u} hsets => ?_,
    fun {u} hsets => ?_, fun {u v} hsets => ?_, fun {u state} hsets => ?_⟩,
    fun t => tracks_task t (calls t)⟩
  · have huse : (fun t => (start (calls t)).use) = fun _ => .none := by
      funext t
      cases calls t
      all_goals rfl
    rw [huse]
    exact .free
  all_goals
    cases hcall : calls u
    all_goals simp_all [start, RwLock.Use.none]

/-- **One step.** -/
lemma Stands.step {place : κ → HandlerPlace} (hP : Stands calls P place)
    (hapart : Apart calls P t i) (hstep : Pool.Step P t i P') :
    ∃ op b, (P.task t).head = some op ∧
      Moves t (calls t) (place t) op P.state P'.state b ∧
      Stands calls P' (Function.update place t b) := by
  obtain ⟨hsound, htracks⟩ := hP
  obtain ⟨op, b, hhead, hmove, hnext⟩ := (htracks t).step hstep.proc
  refine ⟨op, b, hhead, hmove, hsound.moves hmove ?_ ?_, fun u => ?_⟩
  · intro summary hcall hop hconnected u hsets
    subst hop
    rw [Apart, hcall, hhead] at hapart
    exact hapart hconnected u (sets_of_tracks (htracks u) hsets)
  · intro e state hcall hop u
    subst hop
    rw [Apart, hcall, hhead] at hapart
    exact ⟨fun hsets => (hapart.1 u).1 (sets_of_tracks (htracks u) hsets),
      fun hsets => (hapart.1 u).2 (sets_of_tracks (htracks u) hsets)⟩
  · by_cases hu : u = t
    · subst hu
      rwa [Function.update_self]
    · rw [Function.update_of_ne hu, hstep.task_of_ne hu]
      exact htracks u

/-- **A run.** -/
lemma Stands.run (hrun : Pool.Run (Apart calls) (serving calls h) P) :
    ∃ place, Stands calls P place := by
  refine hrun.invariant (I := fun P => ∃ place, Stands calls P place) ⟨_, stands_serving⟩ ?_
  intro P P' t i hP hapart hstep
  obtain ⟨place, hplace⟩ := hP
  obtain ⟨_, b, _, _, hnext⟩ := hplace.step hapart hstep
  exact ⟨_, hnext⟩

/-- The order of what a call does that handles an error: nothing is set twice. -/
def ErrorOrder (written : Bool) : HandlerOp → Bool → Prop
  | .ask _ _, written' => written = false ∧ written' = false
  | .enter _ _, written' => written = false ∧ written' = false
  | .writeState _, written' => written = false ∧ written' = true
  | .leave lock, written' => lock = .state ∧ written = true ∧ written' = true
  | _, _ => False

lemma follows_error (t : κ) (e : ProtoError) :
    Follows ErrorOrder (fun _ _ => True) false ((error e).task t) := by
  refine .bind (.bind ⟨false, ⟨rfl, rfl⟩, fun _ _ => ⟨false, ⟨rfl, rfl⟩, fun _ _ => ?_⟩⟩)
  refine .bind (.atom ⟨rfl, rfl⟩ fun r => ?_)
  cases r with
  | error _ => exact trivial
  | ok _ =>
    refine .atom ⟨rfl, rfl, rfl⟩ fun r => ?_
    cases r with
    | ok _ => exact trivial
    | error _ => exact trivial

lemma ErrorOrder.of_true {op : HandlerOp} {written' : Bool} (h : ErrorOrder true op written') :
    written' = true := by
  cases op
  all_goals simp_all [ErrorOrder]

omit [DecidableEq κ] in
lemma written_of_follows {p : HandlerTask κ α} (hp : Follows ErrorOrder (fun _ _ => True) true p) :
    Written p := by
  cases hhead : p.head with
  | none => exact .inl hhead
  | some op =>
    obtain ⟨written', horder⟩ := hp.of_head hhead
    cases op with
    | leave lock =>
      obtain ⟨rfl, -⟩ := horder
      exact .inr hhead
    | _ => simp [ErrorOrder] at horder

/-- **Calls that are kept apart are orderly**: they never wait for each other, and a session that
has failed stays as it is.

**Proof sketch.** Along the run the session is connected while a folder summary is going to set it
syncing, and there is at most one of these, so the locks are taken in an order. When an error has
set the state, no call is going to set another one without another look, and those that look see
that the session has failed. -/
theorem orderly_of_apart (calls : κ → HandlerCall) (h : SyncProtocolHandler) :
    Orderly calls h (Apart calls) where
  noDeadlock P hrun := by
    obtain ⟨place, hplace⟩ := Stands.run hrun
    exact hplace.1.not_deadlocked
  failedStays P t e i P' P'' hrun hcall hhead hapart hstep hrun' := by
    have hfollows : ∃ written, Follows ErrorOrder (fun _ _ => True) written (P.task t) := by
      refine hrun.invariant
        (I := fun P => ∃ written, Follows ErrorOrder (fun _ _ => True) written (P.task t)) ?_ ?_
      · refine ⟨false, ?_⟩
        show Follows _ _ _ ((calls t).task t)
        rw [hcall]
        exact follows_error t e
      · intro P P' u i hP _ hstep
        obtain ⟨written, hP⟩ := hP
        by_cases hu : t = u
        · subst hu
          obtain ⟨_, written', -, -, hnext⟩ := hP.step hstep.proc
          exact ⟨written', hnext⟩
        · exact ⟨written, by rwa [hstep.task_of_ne hu]⟩
    have hwritten : Follows ErrorOrder (fun _ _ => True) true (P'.task t) := by
      obtain ⟨written, hfollows⟩ := hfollows
      obtain ⟨op, written', hop, horder, hnext⟩ := hfollows.step hstep.proc
      obtain rfl := Option.some.inj (hhead.symm.trans hop)
      obtain ⟨-, rfl⟩ := horder
      exact hnext
    obtain ⟨place, hplace⟩ := Stands.run hrun
    obtain ⟨op, b, hop, hmove, hplace'⟩ := hplace.step hapart hstep
    obtain rfl := Option.some.inj (hhead.symm.trans hop)
    have hfailed : P'.state.handler.state = .failed e.message := by
      generalize P.state = s at hmove
      generalize P'.state = s' at hmove
      cases hmove
      rfl
    rw [hfailed]
    refine (hrun'.invariant (I := fun P => (∃ place, Stands calls P place) ∧
      Follows ErrorOrder (fun _ _ => True) true (P.task t) ∧
      P.state.handler.state = .failed e.message) ⟨⟨_, hplace'⟩, hwritten, hfailed⟩ ?_).2.2
    intro P P' u i hP hapart hstep
    obtain ⟨⟨place, hplace⟩, hwritten, hfailed⟩ := hP
    obtain ⟨op, b, hop, hmove, hplace'⟩ := hplace.step hapart hstep
    refine ⟨⟨_, hplace'⟩, ?_, ?_⟩
    · by_cases hu : t = u
      · subst hu
        obtain ⟨_, written', -, horder, hnext⟩ := hwritten.step hstep.proc
        obtain rfl := horder.of_true
        exact hnext
      · rwa [hstep.task_of_ne hu]
    · obtain hsame | ⟨state, rfl, hstate, hsets | hwaiting⟩ := hmove.state_eq
      · rw [hsame, hfailed]
      · rw [hstate]
        obtain rfl | rfl | ⟨e', he', rfl⟩ := hplace.1.kind hsets
        · cases hfailed.symm.trans (hplace.1.syncing hsets)
        · obtain hstate' | hstate' := hplace.1.completed hsets
          · cases hfailed.symm.trans hstate'
          · cases hfailed.symm.trans hstate'
        · rw [Apart, he', hop] at hapart
          rw [hapart.2 t e hcall (written_of_follows hwritten)]
      · cases hfailed.symm.trans (hplace.1.seen hwaiting).2

end Runs

/-! ## Calls in turn, and calls that are not orderly -/

/-- A handler that is connected to a peer. -/
def connected : SyncProtocolHandler :=
  { SyncProtocolHandler.new [1, 2, 3] "test-device".toList with state := .connected }

/-- The summary of a folder. -/
def photos : HandlerCall := .folderSummary
  { folderId := "photos".toList
    folderPath := "/photos".toList
    manifestHash := List.replicate 32 0
    totalSize := 0
    fileCount := 0
    lastModified := none }

/-- An error of the peer, or else the summary of a folder. -/
def photosAndError : Bool → HandlerCall
  | false => photos
  | true => .error ⟨.storageFull, "Disk full".toList, []⟩

/-- Two calls take steps in the given order. -/
private def steps (ts : List Bool) (P : HandlerPool Bool) : Option (HandlerPool Bool) :=
  Runs.exec (fun P e => Pool.advance P e.1 e.2) (fun _ _ => True)
    (ts.map fun t => (t, sortedEnv false)) P

lemma not_sets_of_step {p p' : HandlerTask κ α} {s s' : SharedHandler κ} {i : Env}
    {state : SyncState} (hstep : Proc.Step p s i p' s')
    (hhead : p.head = some .readState ∨ ∃ state', state' ≠ state ∧
      p.head = some (.writeState state')) : ¬ HandlerTask.Sets state p := by
  intro hsets
  cases hstep with
  | act hready =>
    have hsets' := hsets i s hready
    obtain hhead | ⟨state', hne, hhead⟩ := hhead
    · obtain rfl := Option.some.inj hhead
      exact hsets'
    · obtain rfl := Option.some.inj hhead
      exact hne hsets'

/-- Two calls take steps in the given order that are kept apart whatever the other one does. -/
private def plainSteps (ts : List Bool) (P : HandlerPool Bool) : Option (HandlerPool Bool) :=
  Runs.exec (fun P e => Pool.advance P e.1 e.2) (fun P e =>
    (match photosAndError e.1, (P.task e.1).head with
    | .folderSummary _, some .readState | .error _, some (.writeState _) => false
    | _, _ => true) = true) (ts.map fun t => (t, sortedEnv false)) P

private lemma run_of_plainSteps {ts : List Bool} {P P' : HandlerPool Bool}
    (h : plainSteps ts P = some P') : Pool.Run (Apart photosAndError) P P' := by
  refine Relation.ReflTransGen.mono ?_ P P' (Runs.run_of_exec h)
  rintro P P' ⟨e, hplain, hnext⟩
  refine ⟨e, ?_, hnext⟩
  show Apart photosAndError P e.1 e.2
  unfold Apart
  split
  · next hcall hhead => simp [hcall, hhead] at hplain
  · next hcall hhead => simp [hcall, hhead] at hplain
  · trivial

/-- A folder summary is handled, and then an error: nobody waits for ever, and the session has
failed. -/
theorem orderly_inTurn : ∃ P, Pool.Run (Apart photosAndError) (serving photosAndError connected) P ∧
    (∀ t, (P.task t).head = none) ∧ P.state.handler.state = .failed "Disk full".toList ∧
      ¬ RwLock.Deadlocked P.state.locks := by
  have hexec : (plainSteps [false, false] (serving photosAndError connected)).bind (fun P =>
      (P.advance false (sortedEnv false)).bind fun P' =>
        (plainSteps (List.replicate 9 false ++ [true, true]) P').bind fun Q =>
          (Q.advance true (sortedEnv false)).bind fun Q' =>
            (plainSteps [true] Q').map fun R =>
              (((P.task false).head, P.task true),
                ((Q.task false).head, (Q.task true).head),
                ((R.task false).head, (R.task true).head, R.state.handler.state))) =
      some ((some .readState, (photosAndError true).task true),
        (none, some (.writeState (.failed "Disk full".toList))),
        (none, none, .failed "Disk full".toList)) := rfl
  simp only [Option.bind_eq_some_iff, Option.map_eq_some_iff, Prod.mk.injEq] at hexec
  obtain ⟨P, hP, P', hlook, Q, hQ, Q', hwrite, R, hR, ⟨hread, htask⟩, ⟨hdone, hset⟩, hdone₁, hdone₂,
    hstate⟩ := hexec
  have hstep := Pool.step_of_advance hlook
  have hstep' := Pool.step_of_advance hwrite
  -- when the summary looks at the state, the error has not begun
  have hlook' : Apart photosAndError P false (sortedEnv false) := by
    unfold Apart
    rw [hread]
    rintro - (_ | _)
    · exact not_sets_of_step hstep.proc (.inl hread)
    · rw [htask]
      intro hsets
      cases hsets (sortedEnv false) (serving photosAndError connected).state rfl (sortedEnv false)
        (((serving photosAndError connected).state).onLock .state fun L => L.ask true .write) rfl
        (sortedEnv false) (serving photosAndError connected).state rfl
  -- when the error sets the state, the summary has returned
  have hwrite' : Apart photosAndError Q true (sortedEnv false) := by
    unfold Apart
    rw [hset]
    refine ⟨fun u => ?_, ?_⟩
    · cases u with
      | false =>
        cases htask' : Q.task false with
        | ret r => exact ⟨id, id⟩
        | act op ready eff next =>
          rw [htask'] at hdone
          cases hdone
      | true =>
        exact ⟨not_sets_of_step hstep'.proc (.inr ⟨_, by simp, hset⟩),
          not_sets_of_step hstep'.proc (.inr ⟨_, by simp, hset⟩)⟩
    · rintro (_ | _) e' he' -
      · cases he'
      · cases he'
        rfl
  have hrun := (((run_of_plainSteps hP).tail ⟨(false, _), hlook', hlook⟩).trans
    (run_of_plainSteps hQ)).tail ⟨(true, _), hwrite', hwrite⟩ |>.trans (run_of_plainSteps hR)
  refine ⟨R, hrun, fun t => ?_, hstate,
    (orderly_of_apart photosAndError connected).noDeadlock R hrun⟩
  cases t
  · exact hdone₁
  · exact hdone₂

/-- **Two folder summaries wait for each other**, when both have found the session connected; and
**an error is forgotten**, when it comes while a folder summary is about to set the state. -/
theorem not_orderly : ¬ Orderly (fun _ : Bool => photos) connected (fun _ _ _ => True) ∧
    ¬ Orderly photosAndError connected (fun _ _ _ => True) := by
  constructor
  · intro h
    have hexec : (steps (List.replicate 3 true ++ List.replicate 8 false ++ [true])
        (serving (fun _ => photos) connected)).map (fun P =>
          (P.state.locks .state, P.state.locks .folderProgress)) =
        some (⟨[(true, .read)], [(false, .write)]⟩, ⟨[(false, .write)], [(true, .write)]⟩) := rfl
    obtain ⟨P, hP, hlocks⟩ := Option.map_eq_some_iff.mp hexec
    obtain ⟨hstate, hfolders⟩ := Prod.mk.inj hlocks
    refine h.noDeadlock P (Runs.run_of_exec hP) ⟨Set.univ, ⟨true, trivial⟩, fun u _ => ?_⟩
    cases u with
    | false => exact ⟨true, trivial, .state, .inl ⟨.write, .read, by simp [hstate]⟩⟩
    | true => exact ⟨false, trivial, .folderProgress, .inl ⟨.write, .write, by simp [hfolders]⟩⟩
  · intro h
    have hexec : (steps (List.replicate 7 false ++ List.replicate 2 true)
        (serving photosAndError connected)).map (fun P =>
          ((P.task true).head, (Pool.advance P true (sortedEnv false)).map fun P' =>
            (P'.state.handler.state, (steps (true :: List.replicate 3 false) P').map fun P'' =>
              P''.state.handler.state))) =
        some (some (.writeState (.failed "Disk full".toList)),
          some (.failed "Disk full".toList, some .syncing)) := rfl
    obtain ⟨P, hP, hP'⟩ := Option.map_eq_some_iff.mp hexec
    obtain ⟨hhead, hP'⟩ := Prod.mk.inj hP'
    obtain ⟨P', hstep, hP''⟩ := Option.map_eq_some_iff.mp hP'
    obtain ⟨hfailed, hP''⟩ := Prod.mk.inj hP''
    obtain ⟨P'', hP'', hsyncing⟩ := Option.map_eq_some_iff.mp hP''
    have hstays := h.failedStays P true _ _ P' P'' (Runs.run_of_exec hP) rfl hhead trivial
      (Pool.step_of_advance hstep) (Runs.run_of_exec hP'')
    rw [hfailed, hsyncing] at hstays
    cases hstays

end HandlerCall

end Landropic
