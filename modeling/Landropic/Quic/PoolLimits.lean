import Landropic.Foundations.Runs
import Landropic.Quic.ConnectionPool

set_option autoImplicit false

/-!
# The limits of a connection pool

Whoever wants a connection checks the limits of the pool, connects, and then adds the connection to
the pool. Others check the limits meanwhile, and do not see a connection that is still to be added.

## Main definitions

* `PoolState` — a pool and the calls that use it.
* `PoolState.next` — one step of a call, or of those that take connections out.
* `PoolState.Limited` — the pool is within its limits.
* `PoolState.Spare` — a check leaves room for those who have passed theirs.

## Main results

* `PoolState.moves_of_next` — what each step does.
* `PoolState.limited_of_run` — in runs of checks that leave room, the limits hold.

## Design

The parts of a call that hold the lock of the pool are one step each, and so is every attempt to
connect, whose outcome is an input. A call stays in the list when it has ended.
-/

namespace Landropic

/-- Where a call stands that wants a connection. -/
inductive PoolStage
  /-- First, try to get an existing healthy connection. -/
  | find
  /-- Check if we can create a new connection. -/
  | check
  /-- Create new connection. -/
  | connect (attempt : ℕ) (lastError : Option ConnectError)
  /-- Add to pool. -/
  | add (connection : Connection)
  | done (result : Except ConnectError Connection)
  /-- The delay before the next attempt is more than the numbers hold. -/
  | panicked
  deriving DecidableEq

/-- Whether a call has passed the check and may still add a connection. -/
def PoolStage.isPending : PoolStage → Bool
  | .connect _ _ | .add _ => true
  | _ => false

/-- A call that wants a connection to a peer. -/
structure PoolCall (A : Type) where
  peerAddr : A
  stage : PoolStage

/-- A pool and the calls that use it. -/
structure PoolState (A : Type) where
  pool : ConnectionPool A
  calls : List (PoolCall A)

/-- What happens next. -/
inductive PoolEvent (A : Type)
  /-- Somebody wants a connection. -/
  | call (peerAddr : A)
  /-- A call goes on, with the outcome of its attempt if it makes one. -/
  | advance (index : ℕ) (view : PoolView A) (connected : Except ConnectError Connection)
  | cleanup (view : PoolView A)
  | closePeerConnections (peerAddr : A)
  | removePeerConnections (peerAddr : A)
  | shutdown

namespace PoolState

variable {A : Type} [DecidableEq A] [ToString A]

/-- The next attempt to connect, if there are any left. -/
def attempt (config : PoolConfig) (attempt : ℕ) (lastError : Option ConnectError) : PoolStage :=
  if attempt ≤ config.maxRetryAttempts.toNat then .connect attempt lastError
  else .done (.error (lastError.getD (.protocol "Connection failed after all retries")))

/-- The next step of a call. -/
def getConnection (pool : ConnectionPool A) (peerAddr : A) (view : PoolView A)
    (connected : Except ConnectError Connection) :
    PoolStage → Option (PoolStage × ConnectionPool A)
  | .find =>
    match pool.findAvailableConnection view peerAddr with
    | (some pooledConn, pool) => some (.done (.ok pooledConn.connection), pool)
    | (none, pool) => some (.check, pool)
  | .check =>
    if ¬ pool.canCreateNewConnection peerAddr then
      some (.done (.error (.protocol s!"Connection pool limit reached for peer {peerAddr}")), pool)
    else some (attempt pool.config 1 none, pool)
  | .connect number _ =>
    match connected with
    | .ok connection => some (.add connection, pool)
    | .error e =>
      if number < pool.config.maxRetryAttempts.toNat then
        match pool.config.delay number with
        | some _ => some (attempt pool.config (number + 1) (some e), pool)
        | none => some (.panicked, pool)
      else some (attempt pool.config (number + 1) (some e), pool)
  | .add connection => some (.done (.ok connection), pool.addToPool view peerAddr connection)
  | .done _ => none
  | .panicked => none

/-- The state after an event, if that is possible. -/
def next (S : PoolState A) : PoolEvent A → Option (PoolState A)
  | .call peerAddr => some { S with calls := S.calls ++ [⟨peerAddr, .find⟩] }
  | .advance index view connected =>
    match S.calls[index]? with
    | none => none
    | some call =>
      (getConnection S.pool call.peerAddr view connected call.stage).map fun after =>
        ⟨after.2, S.calls.set index ⟨call.peerAddr, after.1⟩⟩
  | .cleanup view => some { S with pool := S.pool.cleanup view }
  | .closePeerConnections peerAddr =>
    some { S with pool := S.pool.removePeerConnections peerAddr }
  | .removePeerConnections peerAddr =>
    some { S with pool := S.pool.removePeerConnections peerAddr }
  | .shutdown => some { S with pool := S.pool.shutdown }

omit [DecidableEq A] [ToString A] in
/-- A new pool, which nobody uses. -/
def unused (config : PoolConfig) : PoolState A := ⟨.new config, []⟩

/-- Runs all of whose steps meet a condition. -/
abbrev Run (C : PoolState A → PoolEvent A → Prop) : PoolState A → PoolState A → Prop :=
  Runs.Run next C

/-- Any run. -/
abbrev Reach : PoolState A → PoolState A → Prop := Run fun _ _ => True

/-! ## What is promised -/

omit [ToString A] in
/-- **The pool is within its limits.** -/
def Limited (S : PoolState A) : Prop :=
  (∀ peer, S.pool.peerConnections peer ≤ S.pool.config.maxConnectionsPerPeer) ∧
    S.pool.totalConnections ≤ S.pool.config.maxTotalConnections

omit [DecidableEq A] [ToString A] in
/-- How many calls may still add a connection. -/
def pending (S : PoolState A) : ℕ := S.calls.countP fun call => call.stage.isPending

omit [ToString A] in
/-- How many calls may still add a connection to a peer. -/
def pendingFor (S : PoolState A) (peer : A) : ℕ :=
  S.calls.countP fun call => call.stage.isPending && call.peerAddr = peer

omit [ToString A] in
/-- There is room for one more connection to a peer, with those that are still to be added. -/
def Room (S : PoolState A) (peer : A) : Prop :=
  S.pool.peerConnections peer + S.pendingFor peer < S.pool.config.maxConnectionsPerPeer ∧
    S.pool.totalConnections + S.pending < S.pool.config.maxTotalConnections

omit [ToString A] in
/-- A check that lets a call connect leaves room for those who have passed theirs. -/
def Spare (S : PoolState A) : PoolEvent A → Prop
  | .advance index _ _ => ∀ call ∈ S.calls[index]?, call.stage = .check →
      S.pool.canCreateNewConnection call.peerAddr → S.pool.config.maxRetryAttempts ≠ 0 →
        S.Room call.peerAddr
  | _ => True

/-! ## The steps -/

section Steps

variable {S S' : PoolState A} {event : PoolEvent A}

/-- **What a step does.** -/
inductive Moves (S : PoolState A) : PoolEvent A → PoolState A → Prop
  | call {peerAddr : A} :
      Moves S (.call peerAddr) { S with calls := S.calls ++ [⟨peerAddr, .find⟩] }
  /-- Connections are taken out, or one is looked for. -/
  | pool {event : PoolEvent A} {pool : ConnectionPool A} : (∀ index view connected,
        event ≠ .advance index view connected) → pool.config = S.pool.config →
      (∀ peer, pool.peerConnections peer ≤ S.pool.peerConnections peer) →
      Moves S event { S with pool := pool }
  /-- A call moves on. It comes to connect when it has passed the check. -/
  | advance {index : ℕ} {view : PoolView A} {connected : Except ConnectError Connection}
      {call : PoolCall A} {stage : PoolStage} {pool : ConnectionPool A} :
      S.calls[index]? = some call → pool.config = S.pool.config →
      (∀ peer, pool.peerConnections peer = S.pool.peerConnections peer) →
      (stage.isPending → call.stage.isPending ∨ call.stage = .check ∧
        S.pool.canCreateNewConnection call.peerAddr ∧ S.pool.config.maxRetryAttempts ≠ 0) →
      Moves S (.advance index view connected)
        ⟨pool, S.calls.set index ⟨call.peerAddr, stage⟩⟩
  /-- A call adds its connection. -/
  | add {index : ℕ} {view : PoolView A} {connected : Except ConnectError Connection}
      {call : PoolCall A} {connection : Connection} :
      S.calls[index]? = some call → call.stage = .add connection →
      Moves S (.advance index view connected)
        ⟨S.pool.addToPool view call.peerAddr connection,
          S.calls.set index ⟨call.peerAddr, .done (.ok connection)⟩⟩

omit [DecidableEq A] [ToString A] in
lemma isPending_attempt {config : PoolConfig} {lastError : Option ConnectError}
    (h : (attempt config 1 lastError).isPending) : config.maxRetryAttempts ≠ 0 := by
  rintro hzero
  rw [attempt, hzero, if_neg (by decide)] at h
  cases h

variable {index : ℕ} {call : PoolCall A} {stage : PoolStage}

/-- What a call does. -/
lemma moves_of_getConnection {view : PoolView A} {connected : Except ConnectError Connection}
    {pool : ConnectionPool A} (hcall : S.calls[index]? = some call)
    (h : getConnection S.pool call.peerAddr view connected call.stage = some (stage, pool)) :
    Moves S (.advance index view connected) ⟨pool, S.calls.set index ⟨call.peerAddr, stage⟩⟩ := by
  cases hstage : call.stage with
  | find =>
    have hcount (peer : A) :
        (S.pool.findAvailableConnection view call.peerAddr).2.peerConnections peer =
          S.pool.peerConnections peer :=
      ConnectionPool.peerConnections_findAvailableConnection
    have hconfig := ConnectionPool.config_findAvailableConnection view S.pool call.peerAddr
    rw [hstage, getConnection] at h
    split at h
    · next found =>
      obtain ⟨rfl, rfl⟩ := Prod.mk.inj (Option.some.inj h)
      rw [found] at hcount hconfig
      exact .advance hcall hconfig hcount nofun
    · next found =>
      obtain ⟨rfl, rfl⟩ := Prod.mk.inj (Option.some.inj h)
      rw [found] at hcount hconfig
      exact .advance hcall hconfig hcount nofun
  | check =>
    rw [hstage, getConnection] at h
    split at h
    · obtain ⟨rfl, rfl⟩ := Prod.mk.inj (Option.some.inj h)
      exact .advance hcall rfl (fun _ => rfl) nofun
    · next hcreate =>
      obtain ⟨rfl, rfl⟩ := Prod.mk.inj (Option.some.inj h)
      exact .advance hcall rfl (fun _ => rfl) fun hpending =>
        .inr ⟨hstage, not_not.mp hcreate, isPending_attempt hpending⟩
  | connect number lastError =>
    have hpool : S.pool = pool := by
      rw [hstage] at h
      unfold getConnection at h
      grind
    subst hpool
    exact .advance hcall rfl (fun _ => rfl) fun _ => .inl (by rw [hstage]; rfl)
  | add connection =>
    rw [hstage, getConnection] at h
    obtain ⟨rfl, rfl⟩ := Prod.mk.inj (Option.some.inj h)
    exact .add hcall hstage
  | done result =>
    rw [hstage] at h
    cases h
  | panicked =>
    rw [hstage] at h
    cases h

/-- Every step is one of these. -/
theorem moves_of_next (h : S.next event = some S') : Moves S event S' := by
  cases event with
  | call peerAddr =>
    obtain rfl := Option.some.inj h
    exact .call
  | advance index view connected =>
    rw [next] at h
    split at h
    · cases h
    · next call hcall =>
      obtain ⟨⟨stage', pool'⟩, hstage, rfl⟩ := Option.map_eq_some_iff.mp h
      exact moves_of_getConnection hcall hstage
  | cleanup view =>
    obtain rfl := Option.some.inj h
    exact .pool nofun rfl fun peer => ConnectionPool.peerConnections_cleanup
  | closePeerConnections peerAddr =>
    obtain rfl := Option.some.inj h
    exact .pool nofun rfl fun peer => ConnectionPool.peerConnections_removePeerConnections
  | removePeerConnections peerAddr =>
    obtain rfl := Option.some.inj h
    exact .pool nofun rfl fun peer => ConnectionPool.peerConnections_removePeerConnections
  | shutdown =>
    obtain rfl := Option.some.inj h
    exact .pool nofun rfl fun peer => Nat.zero_le _

omit [DecidableEq A] [ToString A] in
lemma countP_set {calls : List (PoolCall A)} {call' : PoolCall A} (h : calls[index]? = some call)
    (p : PoolCall A → Bool) :
    (calls.set index call').countP p + (p call).toNat = calls.countP p + (p call').toNat := by
  obtain ⟨hlt, rfl⟩ := List.getElem?_eq_some_iff.mp h
  rw [List.countP_set hlt]
  have hpos (hp : p calls[index]) : 0 < calls.countP p :=
    List.countP_pos_iff.mpr ⟨_, List.getElem_mem hlt, hp⟩
  cases hp : p calls[index] with
  | false => cases p call' <;> rfl
  | true =>
    have := hpos hp
    cases p call' <;> simp <;> omega

omit [DecidableEq A] [ToString A] in
lemma pending_set (S' : PoolState A) {call' : PoolCall A} (h : S.calls[index]? = some call)
    (hcalls : S'.calls = S.calls.set index call') :
    S'.pending + call.stage.isPending.toNat = S.pending + call'.stage.isPending.toNat := by
  rw [pending, hcalls]
  exact countP_set h _

omit [ToString A] in
lemma pendingFor_set (S' : PoolState A) (peer : A) (h : S.calls[index]? = some call)
    (hcalls : S'.calls = S.calls.set index ⟨call.peerAddr, stage⟩) :
    S'.pendingFor peer + (call.stage.isPending && call.peerAddr = peer).toNat =
      S.pendingFor peer + (stage.isPending && call.peerAddr = peer).toNat := by
  rw [pendingFor, hcalls]
  exact countP_set h _

/-! ## Checks that leave room -/

/-- The limits hold with what is still to be added. -/
structure Bounded (S : PoolState A) : Prop where
  perPeer : ∀ peer, S.pool.peerConnections peer + S.pendingFor peer ≤
    S.pool.config.maxConnectionsPerPeer
  total : S.pool.totalConnections + S.pending ≤ S.pool.config.maxTotalConnections

omit [ToString A] in
lemma Bounded.limited (h : S.Bounded) : S.Limited := by
  refine ⟨fun peer => ?_, ?_⟩
  · have := h.perPeer peer
    omega
  · have := h.total
    omega

omit [ToString A] in
lemma Bounded.mono (h : S.Bounded) (hconfig : S'.pool.config = S.pool.config)
    (hpeer : ∀ peer, S'.pool.peerConnections peer + S'.pendingFor peer ≤
      S.pool.peerConnections peer + S.pendingFor peer)
    (htotal : S'.pool.totalConnections + S'.pending ≤ S.pool.totalConnections + S.pending) :
    S'.Bounded := by
  refine ⟨fun peer => ?_, ?_⟩
  · rw [hconfig]
    exact (hpeer peer).trans (h.perPeer peer)
  · rw [hconfig]
    exact htotal.trans h.total

omit [ToString A] in
lemma pending_append (peerAddr peer : A) :
    pending ⟨S.pool, S.calls ++ [⟨peerAddr, .find⟩]⟩ = S.pending ∧
      pendingFor ⟨S.pool, S.calls ++ [⟨peerAddr, .find⟩]⟩ peer = S.pendingFor peer := by
  simp [pending, pendingFor, PoolStage.isPending]

omit [ToString A] in
/-- **A connection that is added** has been counted before. -/
lemma add_pending (S' : PoolState A) {view : PoolView A} {connection : Connection}
    (hcall : S.calls[index]? = some call) (hstage : call.stage = .add connection)
    (hpool : S'.pool = S.pool.addToPool view call.peerAddr connection)
    (hcalls : S'.calls = S.calls.set index ⟨call.peerAddr, .done (.ok connection)⟩) :
    (∀ peer, S'.pool.peerConnections peer + S'.pendingFor peer =
      S.pool.peerConnections peer + S.pendingFor peer) ∧
    S'.pool.totalConnections + S'.pending = S.pool.totalConnections + S.pending ∧
    S'.pending + 1 = S.pending := by
  have hpending : S'.pending + 1 = S.pending := by
    have hset := pending_set _ hcall hcalls
    rw [hstage] at hset
    exact hset
  refine ⟨fun peer => ?_, ?_, hpending⟩
  · have hset := pendingFor_set _ peer hcall hcalls
    rw [hstage] at hset
    rw [hpool]
    by_cases hpeer : call.peerAddr = peer
    · subst hpeer
      simp only [PoolStage.isPending, decide_true, Bool.true_and, Bool.false_and] at hset
      rw [ConnectionPool.peerConnections_addToPool]
      simp only [Bool.toNat_true, Bool.toNat_false] at hset
      omega
    · simp only [PoolStage.isPending, hpeer, decide_false, Bool.and_false] at hset
      rw [ConnectionPool.peerConnections_addToPool_of_ne (Ne.symm hpeer)]
      omega
  · rw [hpool, ConnectionPool.totalConnections_addToPool]
    omega

omit [ToString A] in
/-- A call that moves on keeps the limits, if there is room when it comes to connect. -/
lemma Bounded.advance (h : S.Bounded) (hcall : S.calls[index]? = some call)
    (hconfig : S'.pool.config = S.pool.config)
    (hcount : ∀ peer, S'.pool.peerConnections peer = S.pool.peerConnections peer)
    (hcalls : S'.calls = S.calls.set index ⟨call.peerAddr, stage⟩)
    (hroom : stage.isPending = true → call.stage.isPending = false → S.Room call.peerAddr) :
    S'.Bounded := by
  have htotal := ConnectionPool.totalConnections_le fun peer => (hcount peer).le
  have hset : S'.pending + call.stage.isPending.toNat = S.pending + stage.isPending.toNat :=
    pending_set _ hcall hcalls
  have hsetFor (peer : A) := pendingFor_set _ peer hcall hcalls
  by_cases hnew : stage.isPending = true ∧ call.stage.isPending = false
  · -- one more call may add a connection, for which there is room
    obtain ⟨hpeer, hall⟩ := hroom hnew.1 hnew.2
    simp only [hnew, Bool.toNat_false, Bool.toNat_true] at hset
    simp only [hnew, Bool.true_and, Bool.false_and, Bool.toNat_false] at hsetFor
    refine ⟨fun peer => ?_, ?_⟩
    · have hbound := h.perPeer peer
      have hsetFor := hsetFor peer
      rw [hconfig, hcount peer]
      by_cases hsame : call.peerAddr = peer
      · subst hsame
        simp only [decide_true, Bool.toNat_true] at hsetFor
        omega
      · simp only [hsame, decide_false, Bool.toNat_false] at hsetFor
        omega
    · rw [hconfig]
      omega
  · have hle (b : Bool) : (stage.isPending && b).toNat ≤ (call.stage.isPending && b).toNat := by
      cases hstage : stage.isPending with
      | false => simp
      | true =>
        rw [Bool.eq_true_of_not_eq_false fun hold => hnew ⟨hstage, hold⟩]
    refine h.mono hconfig (fun peer => ?_) ?_
    · have := hle (call.peerAddr = peer)
      have := hsetFor peer
      rw [hcount peer]
      omega
    · have := hle true
      rw [Bool.and_true, Bool.and_true] at this
      omega

omit [ToString A] in
/-- **Every step of a check that leaves room** keeps the limits, with what is still to be added. -/
theorem Bounded.step (h : S.Bounded) (hspare : S.Spare event) (hmove : Moves S event S') :
    S'.Bounded := by
  cases hmove with
  | @call peerAddr =>
    refine h.mono rfl (fun peer => ?_) ?_
    · rw [(pending_append peerAddr peer).2]
    · rw [(pending_append peerAddr peerAddr).1]
  | pool _ hconfig hcount =>
    exact h.mono hconfig (fun peer => Nat.add_le_add_right (hcount peer) _)
      (Nat.add_le_add_right (ConnectionPool.totalConnections_le hcount) _)
  | @advance index view connected call stage pool hcall hconfig hcount hpending =>
    have hcalls : (PoolState.mk pool (S.calls.set index ⟨call.peerAddr, stage⟩)).calls =
        S.calls.set index ⟨call.peerAddr, stage⟩ := rfl
    refine h.advance hcall hconfig hcount hcalls fun hnew hold => ?_
    obtain hpending | ⟨hstage, hcreate, hretry⟩ := hpending hnew
    · rw [hold] at hpending
      cases hpending
    · exact hspare _ hcall hstage hcreate hretry
  | @add index view connected call connection hcall hstage =>
    obtain ⟨hpeer, htotal, -⟩ := add_pending ⟨S.pool.addToPool view call.peerAddr connection,
      S.calls.set index ⟨call.peerAddr, .done (.ok connection)⟩⟩ hcall hstage rfl rfl
    exact h.mono rfl (fun peer => (hpeer peer).le) htotal.le

/-! ## Checks that leave no room -/

/-- The step of a call. -/
lemma next_advance {pool : ConnectionPool A} {view : PoolView A}
    {connected : Except ConnectError Connection} (hcall : S.calls[index]? = some call)
    (h : getConnection S.pool call.peerAddr view connected call.stage = some (stage, pool)) :
    S.next (.advance index view connected) =
      some ⟨pool, S.calls.set index ⟨call.peerAddr, stage⟩⟩ := by
  rw [next, hcall]
  dsimp only
  rw [h]
  rfl

/-- A call that may still add a connection can do so. -/
lemma exists_run_add (view : PoolView A) (hcall : S.calls[index]? = some call)
    (hpending : call.stage.isPending) :
    ∃ S', Reach S S' ∧ S'.pool.config = S.pool.config ∧
      (∀ peer, S'.pool.peerConnections peer + S'.pendingFor peer =
        S.pool.peerConnections peer + S.pendingFor peer) ∧
      S'.pool.totalConnections + S'.pending = S.pool.totalConnections + S.pending ∧
      S'.pending + 1 = S.pending := by
  -- it connects first, unless it has done so already
  obtain ⟨S₁, hrun, hpool, hfor, hall, connection, hcall₁⟩ : ∃ S₁, Reach S S₁ ∧
      S₁.pool = S.pool ∧ (∀ peer, S₁.pendingFor peer = S.pendingFor peer) ∧
      S₁.pending = S.pending ∧
      ∃ connection, S₁.calls[index]? = some ⟨call.peerAddr, .add connection⟩ := by
    cases hstage : call.stage with
    | connect number lastError =>
      have hgo : getConnection S.pool call.peerAddr view (.ok 0) call.stage =
          some (.add 0, S.pool) := by
        rw [hstage]
        rfl
      have hnext := next_advance hcall hgo
      refine ⟨_, Runs.Run.step trivial hnext, rfl, fun peer => ?_, ?_, 0, ?_⟩
      · have hset := pendingFor_set ⟨S.pool, S.calls.set index ⟨call.peerAddr, .add 0⟩⟩ peer
          hcall rfl
        rw [hstage] at hset
        exact Nat.add_right_cancel hset
      · have hset := pending_set ⟨S.pool, S.calls.set index ⟨call.peerAddr, .add 0⟩⟩ hcall rfl
        rw [hstage] at hset
        exact Nat.add_right_cancel hset
      · obtain ⟨hlt, -⟩ := List.getElem?_eq_some_iff.mp hcall
        simp [hlt]
    | add connection =>
      refine ⟨S, .refl, rfl, fun _ => rfl, rfl, connection, ?_⟩
      rw [hcall, ← hstage]
    | find => simp [hstage, PoolStage.isPending] at hpending
    | check => simp [hstage, PoolStage.isPending] at hpending
    | done _ => simp [hstage, PoolStage.isPending] at hpending
    | panicked => simp [hstage, PoolStage.isPending] at hpending
  have hgo : getConnection S₁.pool call.peerAddr view (.ok connection) (.add connection) =
      some (.done (.ok connection), S₁.pool.addToPool view call.peerAddr connection) := rfl
  have hnext := next_advance hcall₁ hgo
  obtain ⟨hpeer, htotal, hless⟩ := add_pending ⟨S₁.pool.addToPool view call.peerAddr connection,
    S₁.calls.set index ⟨call.peerAddr, .done (.ok connection)⟩⟩ hcall₁ rfl rfl rfl
  refine ⟨_, hrun.tail ⟨_, trivial, hnext⟩, congrArg (fun pool => pool.config) hpool,
    fun peer => ?_, ?_, ?_⟩
  · rw [← hpool, ← hfor]
    exact hpeer peer
  · rw [← hpool, ← hall]
    exact htotal
  · rw [← hall]
    exact hless

/-- **Every call that may still add a connection** can do so. -/
lemma exists_run_added (view : PoolView A) (S : PoolState A) :
    ∃ S', Reach S S' ∧ S'.pool.config = S.pool.config ∧
      (∀ peer, S'.pool.peerConnections peer =
        S.pool.peerConnections peer + S.pendingFor peer) ∧
      S'.pool.totalConnections = S.pool.totalConnections + S.pending := by
  induction hn : S.pending generalizing S with
  | zero =>
    refine ⟨S, .refl, rfl, fun peer => ?_, rfl⟩
    have hle : S.pendingFor peer ≤ S.pending :=
      List.countP_mono_left fun call _ h => (Bool.and_eq_true_iff.mp h).1
    omega
  | succ n ih =>
    have hpos : 0 < S.pending := by omega
    obtain ⟨call, hmem, hpending⟩ := List.countP_pos_iff.mp hpos
    obtain ⟨index, hcall⟩ := List.mem_iff_getElem?.mp hmem
    obtain ⟨S₁, hrun, hconfig, hpeer, htotal, hless⟩ := exists_run_add view hcall hpending
    have hn₁ : S₁.pending = n := by omega
    obtain ⟨S', hrun', hconfig', hpeer', htotal'⟩ := ih S₁ hn₁
    refine ⟨S', hrun.trans hrun', hconfig'.trans hconfig, fun peer => ?_, ?_⟩
    · rw [hpeer', hpeer]
    · omega

/-- **A check that leaves no room** leads beyond the limits. -/
theorem not_limited_of_not_spare (hnext : S.next event = some S') (h : ¬ S.Spare event) :
    ∃ S'', Reach S' S'' ∧ ¬ S''.Limited := by
  cases event with
  | advance index view connected =>
    obtain ⟨call, hcall, hstage, hcreate, hretry, hroom⟩ : ∃ call, S.calls[index]? = some call ∧
        call.stage = .check ∧ S.pool.canCreateNewConnection call.peerAddr ∧
        S.pool.config.maxRetryAttempts ≠ 0 ∧ ¬ S.Room call.peerAddr := by
      simpa [Spare] using h
    have hstep : S' =
        ⟨S.pool, S.calls.set index ⟨call.peerAddr, .connect 1 none⟩⟩ := by
      have hmax : 1 ≤ S.pool.config.maxRetryAttempts.toNat :=
        Nat.one_le_iff_ne_zero.mpr fun hzero => hretry (UInt32.toNat_inj.mp hzero)
      refine Option.some.inj (hnext.symm.trans (next_advance hcall ?_))
      simp [hstage, getConnection, hcreate, attempt, hmax]
    have hset : S'.pending + 0 = S.pending + 1 := by
      have hset := pending_set S' hcall (by rw [hstep])
      rwa [hstage] at hset
    have hsetFor : S'.pendingFor call.peerAddr + 0 = S.pendingFor call.peerAddr + 1 := by
      have hset := pendingFor_set S' call.peerAddr hcall (by rw [hstep])
      simpa [hstage, PoolStage.isPending] using hset
    have hpool : S'.pool = S.pool := by rw [hstep]
    obtain ⟨S'', hrun, hconfig, hpeer, htotal⟩ := exists_run_added view S'
    refine ⟨S'', hrun, fun hlimited => hroom ?_⟩
    have hperPeer := hlimited.1 call.peerAddr
    have hall := hlimited.2
    rw [hconfig, hpeer, hpool] at hperPeer
    rw [hconfig, htotal, hpool] at hall
    constructor <;> omega
  | _ => exact absurd trivial h

end Steps

/-- **A pool keeps to its limits in runs of checks that leave room**, and a check that leaves none
leads beyond them.

**Proof sketch.** Along such a run the connections and the calls that may still add one are within
the limits together. A check that leaves no room takes these beyond a limit, and then each of the
calls may connect and add its connection. -/
theorem limited_of_run {S : PoolState A} {config : PoolConfig}
    (hrun : Run Spare (unused config) S) :
    S.Limited ∧ ∀ event S', S.next event = some S' → ¬ S.Spare event →
      ∃ S'', Reach S' S'' ∧ ¬ S''.Limited := by
  have hunused : Bounded (unused config : PoolState A) := by
    refine ⟨fun peer => ?_, ?_⟩
    · exact Nat.zero_le _
    · exact Nat.zero_le _
  have hbounded : S.Bounded :=
    hrun.invariant hunused fun _ hI hC hnext => hI.step hC (moves_of_next hnext)
  exact ⟨hbounded.limited, fun _ _ => not_limited_of_not_spare⟩

/-! ## Three calls for one peer -/

omit [ToString A] in
instance (S : PoolState A) (event : PoolEvent A) : Decidable (Spare S event) :=
  match event with
  | .advance index _ _ => inferInstanceAs (Decidable (∀ call ∈ S.calls[index]?,
      call.stage = .check → S.pool.canCreateNewConnection call.peerAddr →
        S.pool.config.maxRetryAttempts ≠ 0 →
          S.pool.peerConnections call.peerAddr + S.pendingFor call.peerAddr <
              S.pool.config.maxConnectionsPerPeer ∧
            S.pool.totalConnections + S.pending < S.pool.config.maxTotalConnections))
  | .call _ => inferInstanceAs (Decidable True)
  | .cleanup _ => inferInstanceAs (Decidable True)
  | .closePeerConnections _ => inferInstanceAs (Decidable True)
  | .removePeerConnections _ => inferInstanceAs (Decidable True)
  | .shutdown => inferInstanceAs (Decidable True)

/-- All connections are open. -/
def allOpen : PoolView ℕ := ⟨0, fun _ => false, .sorted ℕ⟩

/-- Two steps of a call, whose attempt succeeds if it makes one. -/
def twoSteps (index : ℕ) : List (PoolEvent ℕ) :=
  List.replicate 2 (.advance index allOpen (.ok index))

/-- Two calls for one peer, both of which check before they connect. -/
theorem limited_of_run_twoCalls : ∃ S : PoolState ℕ, Run Spare (unused .default) S ∧
    S.pool.peerConnections 7 = 2 ∧ S.Limited := by
  have hexec : (Runs.exec next Spare ([.call 7, .call 7] ++ twoSteps 0 ++ twoSteps 1 ++
      [.cleanup allOpen] ++ twoSteps 0 ++ twoSteps 1) (unused .default)).map
        (fun S => S.pool.peerConnections 7) = some 2 := by
    decide +kernel
  obtain ⟨S, hS, hcount⟩ := Option.map_eq_some_iff.mp hexec
  have hrun := Runs.run_of_exec hS
  exact ⟨S, hrun, hcount, (limited_of_run hrun).1⟩

/-- **Three calls for one peer** check before any of them connects, and make three connections. -/
theorem not_limited_threeCalls : ¬ ∀ S : PoolState ℕ, Reach (unused .default) S → S.Limited := by
  have hexec : (Runs.exec next (fun _ _ => True) ([.call 7, .call 7, .call 7] ++ twoSteps 0 ++
      twoSteps 1 ++ twoSteps 2 ++ twoSteps 0 ++ twoSteps 1 ++ twoSteps 2) (unused .default)).map
        (fun S => (S.pool.peerConnections 7, S.pool.config.maxConnectionsPerPeer)) =
          some (3, 2) := by
    decide +kernel
  intro h
  obtain ⟨S, hS, hfacts⟩ := Option.map_eq_some_iff.mp hexec
  obtain ⟨hcount, hmax⟩ := Prod.mk.inj hfacts
  have hle := (h S (Runs.run_of_exec hS)).1 7
  rw [hcount, hmax] at hle
  omega

end PoolState

end Landropic
