import Mathlib.Algebra.Order.BigOperators.Group.Finset
import Landropic.Foundations.HashMap

set_option autoImplicit false

/-!
# Connection pools

A pool keeps the connections to each peer. Who wants one gets an idle connection of the pool, or
makes a new one if the limits allow that, and puts it into the pool.

## Main definitions

* `ConnectError` — the errors of the transport.
* `PooledConnection`, `PoolConfig`, `ConnectionPool` — the data.
* `ConnectionPool.findAvailableConnection`, `canCreateNewConnection`, `addToPool` — the parts of
  `get_connection` that hold the lock of the pool.
* `ConnectionPool.cleanup`, `removePeerConnections`, `shutdown` — what takes connections out.

## Main results

* `ConnectionPool.totalConnections_addToPool`, `ConnectionPool.totalConnections_le` — how the total
  changes.

## Design

A connection is known by a number, and whether it is closed is an input of the operations that ask.
Times and durations are in nanoseconds.
-/

namespace Landropic

/-- Errors of the transport, of every kind. -/
inductive ConnectError
  | io (msg : String)
  | connection (msg : String)
  | connect (msg : String)
  | tlsConfig (msg : String)
  | stream (msg : String)
  | protocol (msg : String)
  | timeout
  | handshakeTimeout (timeoutSecs : UInt64)
  | handshakeFailed (reason : String)
  | versionMismatch (details : String)
  | authenticationFailed (reason : String)
  | serverAlreadyRunning
  | crypto (msg : String)
  | pairingError (msg : String)
  deriving DecidableEq

namespace ConnectError

/-- Check if this error is recoverable (could retry). -/
def isRecoverable : ConnectError → Bool
  | timeout => true
  | handshakeTimeout _ => true
  | io _ => true
  | connect _ => true
  | connection _ => false -- usually permanent
  | versionMismatch _ => false -- incompatible versions
  | authenticationFailed _ => false -- authentication issues are permanent
  | handshakeFailed _ => false -- protocol issues usually permanent
  | _ => false

/-- The copy of an error. The errors that cannot be copied become protocol errors. -/
def clone : ConnectError → ConnectError
  | io e => protocol ("IO error: " ++ e)
  | connection e => protocol ("Connection error: " ++ e)
  | connect e => protocol ("Connect error: " ++ e)
  | crypto e => protocol ("Crypto error: " ++ e)
  | e => e

end ConnectError

/-- A connection. -/
abbrev Connection := ℕ

/-- Connection pool entry with metadata. -/
structure PooledConnection (A : Type) where
  connection : Connection
  peerAddr : A
  lastUsed : ℕ
  activeStreams : UInt32
  deriving DecidableEq

/-- What the operations of a pool see: the time, the connections that are closed, and the order in
which the peers are visited. -/
structure PoolView (A : Type) where
  now : ℕ
  isClosed : Connection → Bool
  order : IterOrder A

namespace PooledConnection

variable {A : Type} (view : PoolView A) (conn : PooledConnection A)

/-- A connection that has just been made. -/
def new (connection : Connection) (peerAddr : A) : PooledConnection A where
  connection := connection
  peerAddr := peerAddr
  lastUsed := view.now
  activeStreams := 0

/-- Update last used time and increment stream count. -/
def useConnection : PooledConnection A :=
  { conn with lastUsed := view.now, activeStreams := conn.activeStreams + 1 }

/-- Check if connection is idle (no active streams). -/
def isIdle : Bool := conn.activeStreams = 0

/-- Check if connection is stale (unused for too long). -/
def isStale (maxIdleTime : ℕ) : Bool := view.now - conn.lastUsed > maxIdleTime ∧ conn.isIdle

/-- Check if connection is still healthy. -/
def isHealthy : Bool := !view.isClosed conn.connection

end PooledConnection

/-- Connection pool configuration. -/
structure PoolConfig where
  maxConnectionsPerPeer : ℕ
  maxTotalConnections : ℕ
  maxIdleTime : ℕ
  maxRetryAttempts : UInt32
  /-- Base retry delay. -/
  retryDelay : ℕ

/-- Default configuration. -/
def PoolConfig.default : PoolConfig where
  maxConnectionsPerPeer := 2
  maxTotalConnections := 50
  maxIdleTime := 300 * 1000000000
  maxRetryAttempts := 3
  retryDelay := 500 * 1000000

/-- Wait before retry (exponential backoff), unless that is more than the numbers hold. -/
def PoolConfig.delay (config : PoolConfig) (attempt : ℕ) : Option ℕ :=
  if 2 ^ (attempt - 1) < 2 ^ 32 ∧ config.retryDelay * 2 ^ (attempt - 1) < 2 ^ 64 * 1000000000 then
    some (config.retryDelay * 2 ^ (attempt - 1))
  else none

/-- Connection pool for managing peer connections. -/
structure ConnectionPool (A : Type) where
  connections : HashMap A (List (PooledConnection A))
  config : PoolConfig

namespace ConnectionPool

variable {A : Type} [DecidableEq A] (view : PoolView A) (pool : ConnectionPool A) (peerAddr : A)

/-- Create a new connection pool. -/
def new (config : PoolConfig) : ConnectionPool A := ⟨∅, config⟩

/-- How many connections there are to a peer. -/
def peerConnections : ℕ := ((pool.connections.lookup peerAddr).map List.length).getD 0

/-- How many connections there are in total. -/
def totalConnections : ℕ := ∑ peer ∈ pool.connections.keys, pool.peerConnections peer

/-- Find a healthy, idle connection, and use it. -/
def useFirst : List (PooledConnection A) → Option (PooledConnection A × List (PooledConnection A))
  | [] => none
  | conn :: rest =>
    if conn.isHealthy view ∧ conn.isIdle then
      some (conn.useConnection view, conn.useConnection view :: rest)
    else (useFirst rest).map fun found => (found.1, conn :: found.2)

/-- Find an available healthy connection for the peer. -/
def findAvailableConnection : Option (PooledConnection A) × ConnectionPool A :=
  match pool.connections.lookup peerAddr with
  | none => (none, pool)
  | some conns =>
    match useFirst view conns with
    | none => (none, pool)
    | some (conn, conns) =>
      (some conn, { pool with connections := pool.connections.insert peerAddr conns })

/-- Check if we can create a new connection. -/
def canCreateNewConnection : Bool :=
  if pool.totalConnections ≥ pool.config.maxTotalConnections then false
  else
    match pool.connections.lookup peerAddr with
    | some conns => ¬ conns.length ≥ pool.config.maxConnectionsPerPeer
    | none => true

/-- Add connection to the pool. -/
def addToPool (connection : Connection) : ConnectionPool A :=
  let conns := (pool.connections.lookup peerAddr).getD []
  let conns := conns ++ [.new view connection peerAddr]
  { pool with connections := pool.connections.insert peerAddr conns }

/-- Remove stale connections, and then empty peer entries. -/
def cleanup : ConnectionPool A :=
  let shouldKeep (conn : PooledConnection A) : Bool :=
    conn.isHealthy view ∧ ¬ conn.isStale view pool.config.maxIdleTime
  let entries := (view.order.entries pool.connections).map fun entry =>
    (entry.1, entry.2.filter shouldKeep)
  let entries := entries.filter fun entry => ¬ entry.2.isEmpty
  { pool with connections := HashMap.collect entries }

/-- Remove all connections for a specific peer, also when they are closed. -/
def removePeerConnections : ConnectionPool A :=
  { pool with connections := pool.connections.erase peerAddr }

/-- Close all connections and shutdown the pool. -/
def shutdown : ConnectionPool A := { pool with connections := ∅ }

/-! ## Counting connections -/

section Counting

variable {view pool} {pool' : ConnectionPool A} {peerAddr peer : A} {connection : Connection}
  {conns : List (PooledConnection A)}

lemma totalConnections_eq {peers : Finset A} (h : pool.connections.keys ⊆ peers) :
    pool.totalConnections = ∑ peer ∈ peers, pool.peerConnections peer := by
  refine Finset.sum_subset h fun peer _ hpeer => ?_
  rw [Finmap.mem_keys, ← Finmap.lookup_eq_none] at hpeer
  rw [peerConnections, hpeer]
  rfl

/-- **With fewer connections to each peer** there are fewer in total. -/
theorem totalConnections_le
    (h : ∀ peer, pool'.peerConnections peer ≤ pool.peerConnections peer) :
    pool'.totalConnections ≤ pool.totalConnections := by
  have hleft : pool.connections.keys ⊆ pool.connections.keys ∪ pool'.connections.keys :=
    Finset.subset_union_left
  have hright : pool'.connections.keys ⊆ pool.connections.keys ∪ pool'.connections.keys :=
    Finset.subset_union_right
  rw [totalConnections_eq hleft, totalConnections_eq hright]
  exact Finset.sum_le_sum fun peer _ => h peer

/-- **With one connection more to one peer** there is one more in total. -/
theorem totalConnections_succ (hpeer : pool'.peerConnections peerAddr =
      pool.peerConnections peerAddr + 1)
    (hother : ∀ peer ≠ peerAddr, pool'.peerConnections peer = pool.peerConnections peer) :
    pool'.totalConnections = pool.totalConnections + 1 := by
  have hleft : pool.connections.keys ⊆
      insert peerAddr (pool.connections.keys ∪ pool'.connections.keys) :=
    fun peer h => Finset.mem_insert_of_mem (Finset.subset_union_left h)
  have hright : pool'.connections.keys ⊆
      insert peerAddr (pool.connections.keys ∪ pool'.connections.keys) :=
    fun peer h => Finset.mem_insert_of_mem (Finset.subset_union_right h)
  have hrest : ∑ peer ∈ (insert peerAddr (pool.connections.keys ∪ pool'.connections.keys)).erase
        peerAddr, pool'.peerConnections peer =
      ∑ peer ∈ (insert peerAddr (pool.connections.keys ∪ pool'.connections.keys)).erase peerAddr,
        pool.peerConnections peer :=
    Finset.sum_congr rfl fun peer h => hother peer (Finset.ne_of_mem_erase h)
  have hsum := Finset.add_sum_erase _ (fun peer => pool.peerConnections peer)
    (Finset.mem_insert_self peerAddr (pool.connections.keys ∪ pool'.connections.keys))
  have hsum' := Finset.add_sum_erase _ (fun peer => pool'.peerConnections peer)
    (Finset.mem_insert_self peerAddr (pool.connections.keys ∪ pool'.connections.keys))
  rw [totalConnections_eq hleft, totalConnections_eq hright, ← hsum, ← hsum', hrest, hpeer]
  omega

omit [DecidableEq A] in
lemma length_useFirst {found : PooledConnection A} {conns' : List (PooledConnection A)}
    (h : useFirst view conns = some (found, conns')) : conns'.length = conns.length := by
  induction conns generalizing conns' with
  | nil => cases h
  | cons conn rest ih =>
    rw [useFirst] at h
    split at h
    · obtain ⟨-, rfl⟩ := Prod.mk.inj (Option.some.inj h)
      rfl
    · obtain ⟨⟨found', rest'⟩, hrest, heq⟩ := Option.map_eq_some_iff.mp h
      obtain ⟨rfl, rfl⟩ := Prod.mk.inj heq
      rw [List.length_cons, List.length_cons, ih hrest]

lemma peerConnections_insert : peerConnections
    { pool with connections := pool.connections.insert peerAddr conns } peerAddr =
      conns.length := by
  simp [peerConnections]

lemma peerConnections_insert_of_ne (h : peer ≠ peerAddr) : peerConnections
    { pool with connections := pool.connections.insert peerAddr conns } peer =
      pool.peerConnections peer := by
  simp [peerConnections, Finmap.lookup_insert_of_ne _ h]

lemma peerConnections_findAvailableConnection :
    (pool.findAvailableConnection view peerAddr).2.peerConnections peer =
      pool.peerConnections peer := by
  unfold findAvailableConnection
  cases hlookup : pool.connections.lookup peerAddr with
  | none => rfl
  | some conns =>
    dsimp only
    cases hfirst : useFirst view conns with
    | none => rfl
    | some found =>
      dsimp only
      by_cases hpeer : peer = peerAddr
      · subst hpeer
        rw [peerConnections_insert, length_useFirst hfirst, peerConnections, hlookup]
        rfl
      · exact peerConnections_insert_of_ne hpeer

variable (view pool peerAddr) in
lemma config_findAvailableConnection :
    (pool.findAvailableConnection view peerAddr).2.config = pool.config := by
  unfold findAvailableConnection
  cases pool.connections.lookup peerAddr with
  | none => rfl
  | some conns =>
    dsimp only
    cases useFirst view conns with
    | none => rfl
    | some found => rfl

/-- **A new connection** counts for its peer. -/
lemma peerConnections_addToPool :
    (pool.addToPool view peerAddr connection).peerConnections peerAddr =
      pool.peerConnections peerAddr + 1 := by
  unfold addToPool
  rw [peerConnections_insert, List.length_append, peerConnections]
  cases pool.connections.lookup peerAddr with
  | none => rfl
  | some conns => rfl

lemma peerConnections_addToPool_of_ne (h : peer ≠ peerAddr) :
    (pool.addToPool view peerAddr connection).peerConnections peer = pool.peerConnections peer :=
  peerConnections_insert_of_ne h

/-- **A new connection** counts in total. -/
theorem totalConnections_addToPool :
    (pool.addToPool view peerAddr connection).totalConnections = pool.totalConnections + 1 :=
  totalConnections_succ peerConnections_addToPool fun _ => peerConnections_addToPool_of_ne

lemma peerConnections_cleanup : (pool.cleanup view).peerConnections peer ≤
    pool.peerConnections peer := by
  unfold cleanup peerConnections
  dsimp only
  cases hlookup : Finmap.lookup peer (HashMap.collect _) with
  | none => exact Nat.zero_le _
  | some conns =>
    obtain ⟨hmem, -⟩ := List.mem_filter.mp (HashMap.mem_of_lookup_collect hlookup)
    obtain ⟨⟨peer', conns'⟩, hentry, heq⟩ := List.mem_map.mp hmem
    obtain ⟨rfl, rfl⟩ := Prod.mk.inj heq
    rw [(view.order.mem_entries).mp hentry]
    exact List.length_filter_le _ _

lemma peerConnections_removePeerConnections :
    (pool.removePeerConnections peerAddr).peerConnections peer ≤ pool.peerConnections peer := by
  unfold removePeerConnections peerConnections
  by_cases h : peer = peerAddr
  · subst h
    simp
  · simp [Finmap.lookup_erase_ne h]

end Counting

end ConnectionPool

end Landropic
