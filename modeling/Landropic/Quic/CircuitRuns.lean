import Landropic.Foundations.Runs
import Landropic.Quic.CircuitBreaker
import Landropic.Quic.ConnectionPool

set_option autoImplicit false

/-!
# Requests behind a circuit breaker

A client asks the circuit breaker of a peer before it connects, and not before its further attempts.
It never asks before an operation, but records how each attempt turns out.

## Main definitions

* `RecoveryClient` — a client, the calls that use it, and what has happened.
* `RecoveryClient.next` — one step of a call.
* `RecoveryClient.Blocking` — an open circuit blocks.
* `RecoveryClient.Consulted` — the steps after which the breaker need not be asked.

## Main results

* `RecoveryClient.moves_of_next` — what each step does.
* `RecoveryClient.blocking_of_run` — in runs of such steps an open circuit blocks.

## Design

The delay before an attempt is random, so the time that passes before each step is an input, as is
the outcome of every attempt. Any number of calls go on at the same time.
-/

namespace Landropic

/-- Retry policy for connection operations. -/
structure RetryPolicy where
  /-- Maximum number of retry attempts. -/
  maxAttempts : ℕ

namespace RetryPolicy

/-- The default policy. -/
def default : RetryPolicy := ⟨3⟩

/-- A more aggressive retry policy. -/
def aggressive : RetryPolicy := ⟨5⟩

end RetryPolicy

/-- What a call does. -/
inductive RetryKind
  /-- Connect with automatic retry and circuit breaking. -/
  | connectWithRecovery
  /-- Execute an operation with retry logic. -/
  | withRetry

/-- What the attempts of a call are called. -/
def RetryKind.attempts : RetryKind → String
  | .connectWithRecovery => "connection attempts"
  | .withRetry => "operation attempts"

/-- Where a call stands. -/
inductive RetryStage (V : Type)
  /-- Check circuit breaker. -/
  | check
  /-- The next attempt comes after a delay. -/
  | waiting (attempt : ℕ) (lastError : Option ConnectError)
  /-- An attempt is under way. -/
  | trying (attempt : ℕ) (lastError : Option ConnectError)
  | done (result : Except ConnectError V)

namespace RetryStage

variable {V : Type}

/-- The number of the attempt that is under way. -/
def underway : RetryStage V → Option ℕ
  | .trying attempt _ => some attempt
  | _ => none

/-- There are attempts to come, or under way. -/
def InFlight : RetryStage V → Prop
  | .waiting _ _ | .trying _ _ => True
  | _ => False

instance (stage : RetryStage V) : Decidable stage.InFlight :=
  match stage with
  | .check => inferInstanceAs (Decidable False)
  | .waiting _ _ => inferInstanceAs (Decidable True)
  | .trying _ _ => inferInstanceAs (Decidable True)
  | .done _ => inferInstanceAs (Decidable False)

end RetryStage

/-- A call of the client. -/
structure RetryCall (A V : Type) where
  kind : RetryKind
  addr : A
  stage : RetryStage V

/-- What is done for a peer. -/
inductive CircuitAction
  /-- The circuit breaker is asked. -/
  | request
  /-- A connection attempt or operation is made. -/
  | attempt
  | success
  | failure
  deriving DecidableEq

/-- What has been done for a peer, with its circuit breaker before and after. -/
structure CircuitRecord (A : Type) where
  addr : A
  action : CircuitAction
  now : ℕ
  before : Option CircuitBreaker
  after : Option CircuitBreaker
  deriving DecidableEq

namespace CircuitRecord

variable {A : Type} (record : CircuitRecord A)

/-- An attempt that is made while the circuit is open, and the timeout has not elapsed. -/
def Blocked : Prop :=
  record.action = .attempt ∧ ∃ breaker ∈ record.before, breaker.state = .opened ∧
    ∃ lastFailure ∈ breaker.lastFailure, ¬ breaker.Elapsed record.now lastFailure

/-- The circuit closes. -/
def Closes : Prop :=
  ∃ before ∈ record.before, before.state ≠ .closed ∧
    ∃ after ∈ record.after, after.state = .closed

/-- An open circuit becomes half open. -/
def Tests : Prop :=
  ∃ before ∈ record.before, before.state = .opened ∧
    ∃ after ∈ record.after, after.state = .halfOpen

/-- The circuit stays half open, and there is no failure. -/
def Probes : Prop :=
  record.action ≠ .failure ∧ ∃ after ∈ record.after, after.state = .halfOpen

/-- Whether an attempt is a success. -/
def isSuccess : Bool := record.action = .success

end CircuitRecord

/-- A client, the calls that use it, and what has happened, with the last first. -/
structure RecoveryClient (A V : Type) where
  circuitBreakers : HashMap A CircuitBreaker
  retryPolicy : RetryPolicy
  now : ℕ
  calls : List (RetryCall A V)
  log : List (CircuitRecord A)

/-- What happens next. -/
inductive RetryEvent (A V : Type)
  | connectWithRecovery (addr : A)
  | withRetry (addr : A)
  /-- A call goes on after some time, with the outcome of its attempt if one is under way. -/
  | advance (index elapsed : ℕ) (outcome : Except ConnectError V)

namespace RecoveryClient

variable {A V : Type} [DecidableEq A] [ToString A]

omit [DecidableEq A] [ToString A] in
/-- The next attempt, if there are any left. -/
def nextAttempt (policy : RetryPolicy) (kind : RetryKind) (attempt : ℕ)
    (lastError : Option ConnectError) : RetryStage V :=
  if attempt < policy.maxAttempts then .waiting attempt lastError
  else .done (.error (lastError.getD
    (.protocol ("All " ++ toString policy.maxAttempts ++ " " ++ kind.attempts ++ " failed"))))

omit [ToString A] in
/-- Do something that concerns the circuit breaker of a peer. -/
def record (S : RecoveryClient A V) (addr : A) (action : CircuitAction)
    (after : Option CircuitBreaker) : RecoveryClient A V :=
  { S with
    circuitBreakers := match after with
      | some breaker => S.circuitBreakers.insert addr breaker
      | none => S.circuitBreakers
    log := ⟨addr, action, S.now, S.circuitBreakers.lookup addr, after⟩ :: S.log }

/-- The next step of a call. -/
def go (S : RecoveryClient A V) (kind : RetryKind) (addr : A) (outcome : Except ConnectError V) :
    RetryStage V → Option (RetryStage V × RecoveryClient A V)
  | .check =>
    let breaker := (S.circuitBreakers.lookup addr).getD (.new 3 2 30000000000)
    match breaker.allowRequest S.now with
    | (false, breaker) =>
      some (.done (.error (.protocol
          s!"Circuit breaker open for peer {addr}, rejecting request")),
        S.record addr .request (some breaker))
    | (true, breaker) =>
      some (nextAttempt S.retryPolicy kind 0 none, S.record addr .request (some breaker))
  | .waiting attempt lastError =>
    some (.trying attempt lastError, S.record addr .attempt (S.circuitBreakers.lookup addr))
  | .trying attempt _ =>
    match outcome with
    | .ok value =>
      some (.done (.ok value), S.record addr .success
        ((S.circuitBreakers.lookup addr).map CircuitBreaker.recordSuccess))
    | .error e =>
      let S' := S.record addr .failure
        ((S.circuitBreakers.lookup addr).map fun breaker => breaker.recordFailure S.now)
      -- don't retry for non-recoverable errors
      if ¬ e.isRecoverable then some (.done (.error e.clone), S')
      else some (nextAttempt S.retryPolicy kind (attempt + 1) (some e.clone), S')
  | .done _ => none

/-- The state after an event, if that is possible. -/
def next (S : RecoveryClient A V) : RetryEvent A V → Option (RecoveryClient A V)
  | .connectWithRecovery addr =>
    some { S with calls := S.calls ++ [⟨.connectWithRecovery, addr, .check⟩] }
  | .withRetry addr =>
    some { S with
      calls := S.calls ++ [⟨.withRetry, addr, nextAttempt S.retryPolicy .withRetry 0 none⟩] }
  | .advance index elapsed outcome =>
    match S.calls[index]? with
    | none => none
    | some call =>
      (go { S with now := S.now + elapsed } call.kind call.addr outcome call.stage).map fun after =>
        { after.2 with calls := S.calls.set index { call with stage := after.1 } }

omit [DecidableEq A] [ToString A] in
/-- A new client, which nobody uses. -/
def unused (policy : RetryPolicy) : RecoveryClient A V := ⟨∅, policy, 0, [], []⟩

/-- Runs all of whose steps meet a condition. -/
abbrev Run (C : RecoveryClient A V → RetryEvent A V → Prop) :
    RecoveryClient A V → RecoveryClient A V → Prop :=
  Runs.Run next C

/-- Any run. -/
abbrev Reach : RecoveryClient A V → RecoveryClient A V → Prop := Run fun _ _ => True

/-! ## What is promised -/

omit [ToString A] in
/-- What has been done for a peer, with the last first. -/
def logOf (S : RecoveryClient A V) (addr : A) : List (CircuitRecord A) :=
  S.log.filter fun record => record.addr = addr

omit [DecidableEq A] [ToString A] in
/-- A circuit that was open has become half open, and there were so many successes since then and no
failure. -/
def Probed (older : List (CircuitRecord A)) (successes : ℕ) : Prop :=
  ∃ recent test oldest, older = recent ++ test :: oldest ∧ test.Tests ∧
    (∀ record ∈ recent, record.Probes) ∧ recent.countP CircuitRecord.isSuccess = successes

omit [DecidableEq A] [ToString A] in
/-- A circuit that closes was half open, and there were enough successes and no failure. -/
def Recovered (record : CircuitRecord A) (older : List (CircuitRecord A)) : Prop :=
  record.isSuccess ∧ ∃ breaker ∈ record.before, breaker.state = .halfOpen ∧
    ∃ successes, Probed older successes ∧ breaker.successThreshold ≤ successes + 1

omit [ToString A] in
/-- **An open circuit blocks**: no attempt is made while it is open and the timeout has not elapsed,
and it only closes when it has recovered. -/
def Blocking (S : RecoveryClient A V) (addr : A) : Prop :=
  (∀ record ∈ S.logOf addr, ¬ record.Blocked) ∧
    ∀ recent record older, S.logOf addr = recent ++ record :: older → record.Closes →
      Recovered record older

omit [ToString A] in
/-- The steps after which no attempt is made before the breaker has been asked. An operation is not
started while the circuit is open, and a failure that opens it ends its call, while no other call
for the peer has attempts to come or under way. -/
def Consulted (S : RecoveryClient A V) : RetryEvent A V → Prop
  | .connectWithRecovery _ => True
  | .withRetry addr => S.retryPolicy.maxAttempts ≠ 0 →
      ∀ breaker ∈ S.circuitBreakers.lookup addr, breaker.state ≠ .opened
  | .advance index _ (.error e) => ∀ call ∈ S.calls[index]?, ∀ attempt ∈ call.stage.underway,
      ∀ breaker ∈ S.circuitBreakers.lookup call.addr, breaker.Opens →
        (e.isRecoverable → ¬ attempt + 1 < S.retryPolicy.maxAttempts) ∧
        ∀ other ∈ S.calls.eraseIdx index, other.addr = call.addr → ¬ other.stage.InFlight
  | .advance _ _ (.ok _) => True

/-! ## The steps -/

section Steps

variable {S S' : RecoveryClient A V} {event : RetryEvent A V}

/-- **What a call does** for its peer, with the breaker before and after. -/
inductive Acts (policy : RetryPolicy) (now : ℕ) (before : Option CircuitBreaker) :
    RetryStage V → Except ConnectError V → CircuitAction → Option CircuitBreaker →
      RetryStage V → Prop
  | request {outcome : Except ConnectError V} {allowed : Bool} {breaker : CircuitBreaker}
      {stage : RetryStage V} :
      (before.getD (.new 3 2 30000000000)).allowRequest now = (allowed, breaker) →
      (stage.InFlight → allowed = true) →
      Acts policy now before .check outcome .request (some breaker) stage
  | attempt {outcome : Except ConnectError V} {number : ℕ} {lastError : Option ConnectError} :
      Acts policy now before (.waiting number lastError) outcome .attempt before
        (.trying number lastError)
  | success {number : ℕ} {lastError : Option ConnectError} {value : V} :
      Acts policy now before (.trying number lastError) (.ok value) .success
        (before.map CircuitBreaker.recordSuccess) (.done (.ok value))
  | failure {number : ℕ} {lastError : Option ConnectError} {e : ConnectError}
      {stage : RetryStage V} :
      (stage.InFlight ↔ e.isRecoverable ∧ number + 1 < policy.maxAttempts) →
      Acts policy now before (.trying number lastError) (.error e) .failure
        (before.map fun breaker => breaker.recordFailure now) stage

/-- **What a step does.** -/
inductive Moves (S : RecoveryClient A V) : RetryEvent A V → RecoveryClient A V → Prop
  | call {event : RetryEvent A V} {call : RetryCall A V} :
      (event = .connectWithRecovery call.addr ∧ ¬ call.stage.InFlight ∨
        event = .withRetry call.addr ∧
          (call.stage.InFlight ↔ S.retryPolicy.maxAttempts ≠ 0)) →
      Moves S event { S with calls := S.calls ++ [call] }
  | act {index elapsed : ℕ} {outcome : Except ConnectError V} {call : RetryCall A V}
      {action : CircuitAction} {after : Option CircuitBreaker} {stage : RetryStage V} :
      S.calls[index]? = some call →
      Acts S.retryPolicy (S.now + elapsed) (S.circuitBreakers.lookup call.addr) call.stage outcome
        action after stage →
      Moves S (.advance index elapsed outcome)
        { record { S with now := S.now + elapsed } call.addr action after with
          calls := S.calls.set index { call with stage := stage } }

omit [DecidableEq A] [ToString A] in
lemma inFlight_nextAttempt {policy : RetryPolicy} {kind : RetryKind} {attempt : ℕ}
    {lastError : Option ConnectError} :
    (nextAttempt policy kind attempt lastError : RetryStage V).InFlight ↔
      attempt < policy.maxAttempts := by
  unfold nextAttempt
  split
  · next h => exact iff_of_true trivial h
  · next h => exact iff_of_false not_false h

variable {addr : A}

/-- Every step of a call is one of these. -/
lemma acts_of_go {kind : RetryKind} {outcome : Except ConnectError V} {stage stage' : RetryStage V}
    (h : go S kind addr outcome stage = some (stage', S')) :
    ∃ action after, S' = S.record addr action after ∧
      Acts S.retryPolicy S.now (S.circuitBreakers.lookup addr) stage outcome action after
        stage' := by
  cases stage with
  | check =>
    unfold go at h
    dsimp only at h
    split at h
    · next breaker hallow =>
      obtain ⟨rfl, rfl⟩ := Prod.mk.inj (Option.some.inj h)
      exact ⟨_, _, rfl, .request hallow False.elim⟩
    · next breaker hallow =>
      obtain ⟨rfl, rfl⟩ := Prod.mk.inj (Option.some.inj h)
      exact ⟨_, _, rfl, .request hallow fun _ => rfl⟩
  | waiting attempt lastError =>
    obtain ⟨rfl, rfl⟩ := Prod.mk.inj (Option.some.inj h)
    exact ⟨_, _, rfl, .attempt⟩
  | trying attempt lastError =>
    cases outcome with
    | ok value =>
      obtain ⟨rfl, rfl⟩ := Prod.mk.inj (Option.some.inj h)
      exact ⟨_, _, rfl, .success⟩
    | error e =>
      unfold go at h
      dsimp only at h
      split at h
      · next hfatal =>
        obtain ⟨rfl, rfl⟩ := Prod.mk.inj (Option.some.inj h)
        exact ⟨_, _, rfl, .failure (iff_of_false not_false fun hretry => hfatal hretry.1)⟩
      · next hfatal =>
        obtain ⟨rfl, rfl⟩ := Prod.mk.inj (Option.some.inj h)
        refine ⟨_, _, rfl, .failure (inFlight_nextAttempt.trans ?_)⟩
        rw [iff_and_self]
        exact fun _ => not_not.mp hfatal
  | done result => cases h

/-- Every step is one of these. -/
theorem moves_of_next (h : S.next event = some S') : Moves S event S' := by
  cases event with
  | connectWithRecovery addr =>
    obtain rfl := Option.some.inj h
    exact .call (.inl ⟨rfl, not_false⟩)
  | withRetry addr =>
    obtain rfl := Option.some.inj h
    exact .call (.inr ⟨rfl, inFlight_nextAttempt.trans Nat.pos_iff_ne_zero⟩)
  | advance index elapsed outcome =>
    rw [next] at h
    split at h
    · cases h
    · next call hcall =>
      obtain ⟨⟨stage, S₁⟩, hgo, rfl⟩ := Option.map_eq_some_iff.mp h
      obtain ⟨action, after, rfl, hacts⟩ := acts_of_go hgo
      exact .act hcall hacts

omit [ToString A] in
lemma lookup_record (peer : A) (action : CircuitAction) (after : Option CircuitBreaker)
    (hafter : after = none → S.circuitBreakers.lookup addr = none) :
    (S.record addr action after).circuitBreakers.lookup peer =
      if peer = addr then after else S.circuitBreakers.lookup peer := by
  cases after with
  | none =>
    show S.circuitBreakers.lookup peer = _
    split
    · next h => rw [h, hafter rfl]
    · rfl
  | some breaker =>
    show (S.circuitBreakers.insert addr breaker).lookup peer = _
    split
    · next h =>
      rw [h]
      exact Finmap.lookup_insert _
    · next h => exact Finmap.lookup_insert_of_ne _ h

omit [ToString A] in
/-- The log after something has been done for a peer. -/
lemma logOf_record (addr peer : A) (action : CircuitAction) (after : Option CircuitBreaker) :
    (S.record addr action after).logOf peer =
      if peer = addr then
        ⟨addr, action, S.now, S.circuitBreakers.lookup addr, after⟩ :: S.logOf peer
      else S.logOf peer := by
  unfold logOf record
  by_cases h : peer = addr
  · simp [h]
  · simp [h, Ne.symm h]

omit [ToString A] in
/-- A breaker does not vanish. -/
lemma Acts.lookup_eq_none {policy : RetryPolicy} {now : ℕ} {before after : Option CircuitBreaker}
    {stage stage' : RetryStage V} {outcome : Except ConnectError V} {action : CircuitAction}
    (h : Acts policy now before stage outcome action after stage') (hafter : after = none) :
    before = none := by
  cases h with
  | request _ _ => cases hafter
  | attempt => exact hafter
  | success => exact Option.map_eq_none_iff.mp hafter
  | failure _ => exact Option.map_eq_none_iff.mp hafter

/-! ## Steps before which the breaker is asked -/

/-- The state of a peer: nobody makes an attempt while the circuit is open, and while it is half
open there has been no failure. -/
structure Sound (S : RecoveryClient A V) (addr : A) : Prop where
  idle : ∀ breaker ∈ S.circuitBreakers.lookup addr, breaker.state = .opened →
    ∀ call ∈ S.calls, call.addr = addr → ¬ call.stage.InFlight
  failed : ∀ breaker ∈ S.circuitBreakers.lookup addr, breaker.state = .opened →
    ∃ lastFailure, breaker.lastFailure = some lastFailure
  probed : ∀ breaker ∈ S.circuitBreakers.lookup addr, breaker.state = .halfOpen →
    Probed (S.logOf addr) breaker.successCount
  blocking : S.Blocking addr

omit [DecidableEq A] [ToString A] in
lemma Probed.cons {older : List (CircuitRecord A)} {successes : ℕ} (h : Probed older successes)
    (record : CircuitRecord A) (hprobes : record.Probes) :
    Probed (record :: older) (successes + record.isSuccess.toNat) := by
  obtain ⟨recent, test, oldest, rfl, htest, hrecent, hcount⟩ := h
  refine ⟨record :: recent, test, oldest, rfl, htest, ?_, ?_⟩
  · exact List.forall_mem_cons.mpr ⟨hprobes, hrecent⟩
  · rw [List.countP_cons, hcount]
    cases record.isSuccess <;> rfl

omit [ToString A] in
lemma Blocking.cons {record : CircuitRecord A} (h : S.Blocking addr)
    (hlog : S'.logOf addr = record :: S.logOf addr) (hblocked : ¬ record.Blocked)
    (hcloses : record.Closes → Recovered record (S.logOf addr)) : S'.Blocking addr := by
  refine ⟨fun r hmem => ?_, fun recent r older hsplit hr => ?_⟩
  · rw [hlog] at hmem
    obtain rfl | hmem := List.mem_cons.mp hmem
    · exact hblocked
    · exact h.1 r hmem
  · rw [hlog] at hsplit
    cases recent with
    | nil =>
      obtain ⟨rfl, rfl⟩ := List.cons.inj hsplit
      exact hcloses hr
    | cons newest recent => exact h.2 recent r older (List.cons.inj hsplit).2 hr

omit [ToString A] in
/-- What is done for another peer. -/
lemma Sound.frame (h : S.Sound addr)
    (hlookup : S'.circuitBreakers.lookup addr = S.circuitBreakers.lookup addr)
    (hlog : S'.logOf addr = S.logOf addr)
    (hcalls : ∀ breaker ∈ S.circuitBreakers.lookup addr, breaker.state = .opened →
      ∀ call ∈ S'.calls, call ∉ S.calls → call.addr = addr → ¬ call.stage.InFlight) :
    S'.Sound addr := by
  refine ⟨fun breaker hbreaker hstate call hmem haddr => ?_, ?_, ?_, ?_⟩
  · rw [hlookup] at hbreaker
    by_cases hold : call ∈ S.calls
    · exact h.idle breaker hbreaker hstate call hold haddr
    · exact hcalls breaker hbreaker hstate call hmem hold haddr
  · rw [hlookup]
    exact h.failed
  · rw [hlookup, hlog]
    exact h.probed
  · rw [Blocking, hlog]
    exact h.blocking

omit [ToString A] in
/-- One more record for a peer. -/
lemma Sound.cons {record : CircuitRecord A} (h : S.Sound addr)
    (hlog : S'.logOf addr = record :: S.logOf addr)
    (hafter : S'.circuitBreakers.lookup addr = record.after)
    (hidle : ∀ breaker ∈ record.after, breaker.state = .opened →
      (∃ lastFailure, breaker.lastFailure = some lastFailure) ∧
        ∀ call ∈ S'.calls, call.addr = addr → ¬ call.stage.InFlight)
    (hprobed : ∀ breaker ∈ record.after, breaker.state = .halfOpen →
      Probed (record :: S.logOf addr) breaker.successCount) (hblocked : ¬ record.Blocked)
    (hcloses : record.Closes → Recovered record (S.logOf addr)) : S'.Sound addr := by
  refine ⟨?_, ?_, ?_, h.blocking.cons hlog hblocked hcloses⟩
  · rw [hafter]
    exact fun breaker hbreaker hstate => (hidle breaker hbreaker hstate).2
  · rw [hafter]
    exact fun breaker hbreaker hstate => (hidle breaker hbreaker hstate).1
  · rw [hafter, hlog]
    exact hprobed

section Acts

variable {addr : A} {now : ℕ}

omit [ToString A] in
/-- The breaker of a peer is asked. -/
lemma Sound.request {allowed : Bool} {breaker : CircuitBreaker} (h : S.Sound addr)
    (hallow : ((S.circuitBreakers.lookup addr).getD (.new 3 2 30000000000)).allowRequest now =
      (allowed, breaker))
    (hlog : S'.logOf addr =
      ⟨addr, .request, now, S.circuitBreakers.lookup addr, some breaker⟩ :: S.logOf addr)
    (hafter : S'.circuitBreakers.lookup addr = some breaker)
    (hcalls : ∀ call ∈ S'.calls, call.addr = addr → call.stage.InFlight →
      (∃ call ∈ S.calls, call.addr = addr ∧ call.stage.InFlight) ∨ allowed = true) :
    S'.Sound addr := by
  -- a new breaker is closed
  have hknown (hstate : (((S.circuitBreakers.lookup addr).getD
      (.new 3 2 30000000000)).state ≠ .closed)) : S.circuitBreakers.lookup addr =
        some ((S.circuitBreakers.lookup addr).getD (.new 3 2 30000000000)) := by
    cases hlookup : S.circuitBreakers.lookup addr with
    | none =>
      rw [hlookup] at hstate
      exact absurd rfl hstate
    | some b => rfl
  have hold (before : CircuitBreaker) (hbefore : S.circuitBreakers.lookup addr = some before) :
      (S.circuitBreakers.lookup addr).getD (.new 3 2 30000000000) = before := by
    rw [hbefore]
    rfl
  generalize (S.circuitBreakers.lookup addr).getD (.new 3 2 30000000000) = b at hallow hknown hold
  -- the breaker is as it was, unless a test begins
  have hsame (hbreaker : breaker = b) (hopened : b.state = .opened → allowed ≠ true) :
      S'.Sound addr := by
    subst hbreaker
    refine h.cons hlog hafter (fun _ hmem hstate => ?_) (fun _ hmem hstate => ?_) nofun ?_
    · obtain rfl := Option.some.inj hmem
      have hlookup := hknown (by rw [hstate]; decide)
      refine ⟨h.failed breaker hlookup hstate, fun call hcall haddr hflight => ?_⟩
      obtain ⟨call', hcall', haddr', hflight'⟩ | hallowed := hcalls call hcall haddr hflight
      · exact h.idle breaker hlookup hstate call' hcall' haddr' hflight'
      · exact hopened hstate hallowed
    · obtain rfl := Option.some.inj hmem
      have hlookup := hknown (by rw [hstate]; decide)
      exact (h.probed breaker hlookup hstate).cons _ ⟨nofun, breaker, rfl, hstate⟩
    · rintro ⟨before, hbefore, hstate, _, hmem, hclosed⟩
      obtain rfl := Option.some.inj hmem
      obtain rfl := hold before hbefore
      exact absurd hclosed hstate
  obtain hcase | ⟨hcase, hopen⟩ | ⟨hcase, hnone⟩ :=
    b.allowRequest_cases now
  · obtain ⟨rfl, hbreaker⟩ := Prod.mk.inj (hallow.symm.trans hcase)
    exact hsame hbreaker fun _ => Bool.false_ne_true
  · obtain ⟨-, rfl⟩ := Prod.mk.inj (hallow.symm.trans hcase)
    have hlookup := hknown (by rw [hopen]; decide)
    refine h.cons hlog hafter (fun _ hmem hstate => ?_) (fun _ hmem hstate => ?_) nofun ?_
    · obtain rfl := Option.some.inj hmem
      cases hstate
    · obtain rfl := Option.some.inj hmem
      exact ⟨[], _, _, rfl, ⟨b, hlookup, hopen, _, rfl, rfl⟩, nofun, rfl⟩
    · rintro ⟨_, _, _, _, hmem, hclosed⟩
      obtain rfl := Option.some.inj hmem
      cases hclosed
  · obtain ⟨-, hbreaker⟩ := Prod.mk.inj (hallow.symm.trans hcase)
    refine hsame hbreaker fun hopen => ?_
    obtain ⟨lastFailure, hlast⟩ := h.failed b (hknown (by rw [hopen]; decide)) hopen
    rw [hnone hopen] at hlast
    cases hlast

omit [ToString A] in
/-- An attempt is made while the circuit is not open. -/
lemma Sound.attempt (h : S.Sound addr)
    (hlog : S'.logOf addr = ⟨addr, .attempt, now, S.circuitBreakers.lookup addr,
      S.circuitBreakers.lookup addr⟩ :: S.logOf addr)
    (hafter : S'.circuitBreakers.lookup addr = S.circuitBreakers.lookup addr)
    (hopened : ∀ breaker ∈ S.circuitBreakers.lookup addr, breaker.state ≠ .opened) :
    S'.Sound addr := by
  refine h.cons hlog hafter (fun breaker hmem hstate => absurd hstate (hopened breaker hmem))
    (fun breaker hmem hstate => ?_) ?_ ?_
  · exact (h.probed breaker hmem hstate).cons _ ⟨nofun, breaker, hmem, hstate⟩
  · rintro ⟨-, breaker, hmem, hstate, -⟩
    exact hopened breaker hmem hstate
  · rintro ⟨before, hbefore, hstate, after, hmem, hclosed⟩
    obtain rfl := Option.some.inj (hbefore.symm.trans hmem)
    exact absurd hclosed hstate

omit [ToString A] in
/-- An attempt succeeds while the circuit is not open. -/
lemma Sound.success (h : S.Sound addr)
    (hlog : S'.logOf addr = ⟨addr, .success, now, S.circuitBreakers.lookup addr,
      (S.circuitBreakers.lookup addr).map CircuitBreaker.recordSuccess⟩ :: S.logOf addr)
    (hafter : S'.circuitBreakers.lookup addr =
      (S.circuitBreakers.lookup addr).map CircuitBreaker.recordSuccess)
    (hopened : ∀ breaker ∈ S.circuitBreakers.lookup addr, breaker.state ≠ .opened) :
    S'.Sound addr := by
  -- the breaker is closed afterwards, or goes on with the test
  have hcases (b : CircuitBreaker) : b.recordSuccess.state = .closed ∨ b.state = .halfOpen ∧
      b.recordSuccess = { b with successCount := b.successCount + 1 } := by
    by_cases hhalf : b.state = .halfOpen
    · obtain ⟨-, hclosed⟩ | hcount := CircuitBreaker.recordSuccess_of_halfOpen hhalf
      · exact .inl hclosed
      · exact .inr ⟨hhalf, hcount⟩
    · exact .inl (CircuitBreaker.state_recordSuccess hhalf)
  refine h.cons hlog hafter (fun _ hmem hstate => ?_) (fun _ hmem hstate => ?_) nofun ?_
  · obtain ⟨b, hlookup, rfl⟩ := Option.map_eq_some_iff.mp hmem
    obtain hclosed | ⟨hhalf, hcount⟩ := hcases b
    · rw [hclosed] at hstate
      cases hstate
    · rw [hcount, hhalf] at hstate
      cases hstate
  · obtain ⟨b, hlookup, rfl⟩ := Option.map_eq_some_iff.mp hmem
    obtain hclosed | ⟨hhalf, hcount⟩ := hcases b
    · rw [hclosed] at hstate
      cases hstate
    · have hprobed := (h.probed b hlookup hhalf).cons
        ⟨addr, .success, now, _, _⟩ ⟨nofun, b.recordSuccess, hmem, hstate⟩
      have hsuccesses : b.recordSuccess.successCount = b.successCount + 1 := by rw [hcount]
      rw [hsuccesses]
      exact hprobed
  · rintro ⟨b, hlookup, hstate, _, hmem, hclosed⟩
    obtain ⟨b', hlookup', rfl⟩ := Option.map_eq_some_iff.mp hmem
    obtain rfl := Option.some.inj (hlookup.symm.trans hlookup')
    have hhalf : b.state = .halfOpen := by
      cases hcase : b.state with
      | closed => exact absurd hcase hstate
      | opened => exact absurd hcase (hopened b hlookup)
      | halfOpen => rfl
    refine ⟨rfl, b, hlookup, hhalf, b.successCount, h.probed b hlookup hhalf, ?_⟩
    obtain ⟨henough, -⟩ | hcount := CircuitBreaker.recordSuccess_of_halfOpen hhalf
    · exact henough
    · rw [hcount, hhalf] at hclosed
      cases hclosed

omit [ToString A] in
/-- An attempt fails while the circuit is not open. When that opens it, no others are to come. -/
lemma Sound.failure (h : S.Sound addr)
    (hlog : S'.logOf addr = ⟨addr, .failure, now, S.circuitBreakers.lookup addr,
      (S.circuitBreakers.lookup addr).map fun breaker => breaker.recordFailure now⟩ ::
        S.logOf addr)
    (hafter : S'.circuitBreakers.lookup addr =
      (S.circuitBreakers.lookup addr).map fun breaker => breaker.recordFailure now)
    (hopened : ∀ breaker ∈ S.circuitBreakers.lookup addr, breaker.state ≠ .opened)
    (hlast : ∀ breaker ∈ S.circuitBreakers.lookup addr, breaker.Opens →
      ∀ call ∈ S'.calls, call.addr = addr → ¬ call.stage.InFlight) :
    S'.Sound addr := by
  refine h.cons hlog hafter (fun _ hmem hstate => ?_) (fun _ hmem hstate => ?_) nofun ?_
  · obtain ⟨b, hlookup, rfl⟩ := Option.map_eq_some_iff.mp hmem
    obtain ⟨-, hfailed, hwas⟩ | ⟨hclosed, -⟩ := b.state_recordFailure now
    · exact ⟨⟨now, hfailed⟩, hlast b hlookup (hwas.resolve_left (hopened b hlookup))⟩
    · rw [hclosed] at hstate
      cases hstate
  · obtain ⟨b, hlookup, rfl⟩ := Option.map_eq_some_iff.mp hmem
    obtain ⟨hopen, -⟩ | ⟨hclosed, -⟩ := b.state_recordFailure now
    · rw [hopen] at hstate
      cases hstate
    · rw [hclosed] at hstate
      cases hstate
  · rintro ⟨b, hlookup, hstate, _, hmem, hclosed⟩
    obtain ⟨b', hlookup', rfl⟩ := Option.map_eq_some_iff.mp hmem
    obtain rfl := Option.some.inj (hlookup.symm.trans hlookup')
    obtain ⟨hopen, -⟩ | ⟨-, hwas, -⟩ := b.state_recordFailure now
    · rw [hopen] at hclosed
      cases hclosed
    · exact absurd hwas hstate

end Acts

omit [DecidableEq A] [ToString A] in
lemma mem_set_iff {calls : List (RetryCall A V)} {index : ℕ} {call call' other : RetryCall A V}
    (h : calls[index]? = some call) :
    other ∈ calls.set index call' ↔ other = call' ∨ other ∈ calls.eraseIdx index := by
  induction calls generalizing index with
  | nil => cases h
  | cons c calls ih =>
    cases index with
    | zero => simp
    | succ index =>
      rw [List.set_cons_succ, List.eraseIdx_cons_succ, List.mem_cons, List.mem_cons, ih h]
      exact or_left_comm

omit [ToString A] in
/-- **Every step before which the breaker is asked** keeps each peer sound. -/
theorem Sound.step (h : S.Sound addr) (hC : S.Consulted event) (hmove : Moves S event S') :
    S'.Sound addr := by
  cases hmove with
  | @call _ call hcall =>
    refine h.frame rfl rfl fun breaker hbreaker hstate c hmem hnew haddr hflight => ?_
    obtain hmem | hmem := List.mem_append.mp hmem
    · exact hnew hmem
    · obtain rfl := List.mem_singleton.mp hmem
      obtain ⟨rfl, hidle⟩ | ⟨rfl, hattempts⟩ := hcall
      · exact hidle hflight
      · exact hC (hattempts.mp hflight) breaker (haddr ▸ hbreaker) hstate
  | @act index elapsed outcome call action after stage hcall hacts =>
    have hlookup (peer : A) := lookup_record (S := { S with now := S.now + elapsed }) peer action
      after hacts.lookup_eq_none
    have hlog (peer : A) := logOf_record (S := { S with now := S.now + elapsed }) call.addr peer
      action after
    by_cases hsame : addr = call.addr
    · subst hsame
      have hafter' := (hlookup call.addr).trans (if_pos rfl)
      have hlog' := (hlog call.addr).trans (if_pos rfl)
      have hopened (hflight : call.stage.InFlight) (breaker : CircuitBreaker)
          (hbreaker : breaker ∈ S.circuitBreakers.lookup call.addr) : breaker.state ≠ .opened :=
        fun hstate => h.idle breaker hbreaker hstate call (List.mem_of_getElem? hcall) rfl hflight
      cases hstage : call.stage with
      | check =>
        rw [hstage] at hacts
        cases hacts with
        | request hallow hattempt =>
          refine h.request hallow hlog' hafter' fun c hmem haddr hflight => ?_
          obtain hmem | rfl := List.mem_or_eq_of_mem_set hmem
          · exact .inl ⟨c, hmem, haddr, hflight⟩
          · exact .inr (hattempt hflight)
      | waiting number lastError =>
        rw [hstage] at hacts hopened
        cases hacts with
        | attempt => exact h.attempt hlog' hafter' (hopened trivial)
      | trying number lastError =>
        rw [hstage] at hacts hopened
        cases hacts with
        | success => exact h.success hlog' hafter' (hopened trivial)
        | @failure _ _ e _ hretry =>
          refine h.failure hlog' hafter' (hopened trivial)
            fun breaker hbreaker hopens c hmem haddr hflight => ?_
          have hunderway : number ∈ call.stage.underway := by rw [hstage]; rfl
          obtain ⟨hend, hothers⟩ := hC call hcall number hunderway breaker hbreaker hopens
          obtain rfl | hmem := (mem_set_iff hcall).mp hmem
          · obtain ⟨hrecoverable, hless⟩ := hretry.mp hflight
            exact hend hrecoverable hless
          · exact hothers c hmem haddr hflight
      | done result =>
        rw [hstage] at hacts
        cases hacts
    · refine h.frame ((hlookup addr).trans (if_neg hsame)) ((hlog addr).trans (if_neg hsame))
        fun _ _ _ c hmem hnew haddr => ?_
      obtain hmem | rfl := List.mem_or_eq_of_mem_set hmem
      · exact absurd hmem hnew
      · exact absurd haddr.symm hsame

/-! ## Steps before which the breaker is not asked -/

/-- **An attempt while the circuit is open** may succeed, and then closes the circuit. -/
lemma exists_not_blocking_of_inFlight [Inhabited V] {call : RetryCall A V}
    {breaker : CircuitBreaker} (hmem : call ∈ S.calls) (hflight : call.stage.InFlight)
    (hbreaker : S.circuitBreakers.lookup call.addr = some breaker)
    (hstate : breaker.state = .opened) : ∃ S', Reach S S' ∧ ¬ S'.Blocking call.addr := by
  obtain ⟨index, hcall⟩ := List.mem_iff_getElem?.mp hmem
  -- an attempt that is under way succeeds
  have htrying {S : RecoveryClient A V} (call : RetryCall A V) {attempt : ℕ}
      {lastError : Option ConnectError} (hcall : S.calls[index]? = some call)
      (hstage : call.stage = .trying attempt lastError)
      (hbreaker : S.circuitBreakers.lookup call.addr = some breaker) :
      ∃ S', Reach S S' ∧ ¬ S'.Blocking call.addr := by
    have hnext : S.next (.advance index 0 (.ok default)) = some
        { S.record call.addr .success (some breaker.recordSuccess) with
          calls := S.calls.set index { call with stage := .done (.ok default) } } := by
      rw [next, hcall]
      dsimp only
      rw [hstage]
      simp only [go, Nat.add_zero, hbreaker, Option.map_some]
    refine ⟨_, Runs.Run.step trivial hnext, fun hblocking => ?_⟩
    have hclosed : breaker.recordSuccess.state = .closed :=
      CircuitBreaker.state_recordSuccess (by rw [hstate]; decide)
    have hlog := (logOf_record (S := S) call.addr call.addr .success
      (some breaker.recordSuccess)).trans (if_pos rfl)
    obtain ⟨-, b, hb, hhalf, -⟩ := hblocking.2 [] _ _ hlog
      ⟨breaker, hbreaker, by rw [hstate]; decide, _, rfl, hclosed⟩
    obtain rfl := Option.some.inj (hbreaker.symm.trans hb)
    rw [hstate] at hhalf
    cases hhalf
  cases hstage : call.stage with
  | waiting attempt lastError =>
    -- an attempt that is to come is made first
    have hnext : S.next (.advance index 0 (.ok default)) = some
        { S.record call.addr .attempt (some breaker) with
          calls := S.calls.set index { call with stage := .trying attempt lastError } } := by
      rw [next, hcall]
      dsimp only
      rw [hstage]
      simp only [go, Nat.add_zero, hbreaker, Option.map_some]
    obtain ⟨hlt, -⟩ := List.getElem?_eq_some_iff.mp hcall
    obtain ⟨S', hrun, hblocking⟩ := htrying (S := { S.record call.addr .attempt (some breaker) with
        calls := S.calls.set index { call with stage := .trying attempt lastError } })
      { call with stage := .trying attempt lastError } (by simp [hlt]) rfl (Finmap.lookup_insert _)
    exact ⟨S', .head ⟨_, trivial, hnext⟩ hrun, hblocking⟩
  | trying attempt lastError => exact htrying call hcall hstage hbreaker
  | check =>
    rw [hstage] at hflight
    exact hflight.elim
  | done result =>
    rw [hstage] at hflight
    exact hflight.elim

/-- **A step before which the breaker is not asked** leads to a circuit that does not block. -/
theorem exists_not_blocking_of_not_consulted [Inhabited V] (hnext : S.next event = some S')
    (h : ¬ S.Consulted event) : ∃ S'' addr, Reach S' S'' ∧ ¬ S''.Blocking addr := by
  have hmove := moves_of_next hnext
  cases hmove with
  | @call _ call hcall =>
    obtain ⟨rfl, -⟩ | ⟨rfl, hattempts⟩ := hcall
    · exact absurd trivial h
    · obtain ⟨hmax, breaker, hbreaker, hstate⟩ : S.retryPolicy.maxAttempts ≠ 0 ∧
          ∃ breaker, S.circuitBreakers.lookup call.addr = some breaker ∧
            breaker.state = .opened := by
        simpa [Consulted] using h
      obtain ⟨S'', hrun, hblocking⟩ := exists_not_blocking_of_inFlight
        (S := { S with calls := S.calls ++ [call] })
        (List.mem_append_right _ (List.mem_singleton_self call)) (hattempts.mpr hmax) hbreaker
        hstate
      exact ⟨S'', _, hrun, hblocking⟩
  | @act index elapsed outcome call action after stage hcall hacts =>
    cases outcome with
    | ok value => exact absurd trivial h
    | error e =>
      obtain ⟨number, hunderway, breaker, hbreaker, hopens, hnot⟩ :
          ∃ number ∈ call.stage.underway,
            ∃ breaker, S.circuitBreakers.lookup call.addr = some breaker ∧ breaker.Opens ∧
            ¬ ((e.isRecoverable → ¬ number + 1 < S.retryPolicy.maxAttempts) ∧
              ∀ other ∈ S.calls.eraseIdx index, other.addr = call.addr →
                ¬ other.stage.InFlight) := by
        by_contra hnone
        refine h fun c hc number hunderway breaker hbreaker hopens => ?_
        obtain rfl := Option.some.inj (hcall.symm.trans hc)
        by_contra hnot
        exact hnone ⟨number, hunderway, breaker, hbreaker, hopens, hnot⟩
      obtain ⟨lastError, hstage⟩ : ∃ lastError, call.stage = .trying number lastError := by
        cases hstage : call.stage with
        | trying attempt lastError =>
          rw [hstage] at hunderway
          obtain rfl := Option.some.inj hunderway
          exact ⟨lastError, rfl⟩
        | _ =>
          rw [hstage] at hunderway
          cases hunderway
      rw [hstage] at hacts
      cases hacts with
      | failure hretry =>
        have hlookup := lookup_record (S := { S with now := S.now + elapsed }) call.addr .failure
          ((S.circuitBreakers.lookup call.addr).map fun breaker =>
            breaker.recordFailure (S.now + elapsed)) Option.map_eq_none_iff.mp
        rw [if_pos rfl, hbreaker, Option.map_some] at hlookup
        have hopened : (breaker.recordFailure (S.now + elapsed)).state = .opened := by
          obtain ⟨hopened, -⟩ | ⟨-, -, hcloses⟩ :=
            breaker.state_recordFailure (S.now + elapsed)
          · exact hopened
          · exact absurd hopens hcloses
        -- the call itself goes on, or another one does
        obtain ⟨c, hmem, haddr, hflight⟩ : ∃ c ∈ S.calls.set index { call with stage := stage },
            c.addr = call.addr ∧ c.stage.InFlight := by
          by_cases hgoes : e.isRecoverable ∧ number + 1 < S.retryPolicy.maxAttempts
          · exact ⟨_, (mem_set_iff hcall).mpr (.inl rfl), rfl, hretry.mpr hgoes⟩
          · by_contra hnone
            refine hnot ⟨fun hrecoverable hless => hgoes ⟨hrecoverable, hless⟩,
              fun other hother haddr hflight => ?_⟩
            exact hnone ⟨other, (mem_set_iff hcall).mpr (.inr hother), haddr, hflight⟩
        rw [← haddr] at hlookup
        rw [hbreaker, Option.map_some, ← haddr]
        obtain ⟨S'', hrun, hblocking⟩ := exists_not_blocking_of_inFlight
          (S := { record { S with now := S.now + elapsed } c.addr .failure
              (some (breaker.recordFailure (S.now + elapsed))) with
            calls := S.calls.set index ⟨call.kind, c.addr, stage⟩ })
          (haddr ▸ hmem) hflight hlookup hopened
        exact ⟨S'', _, hrun, hblocking⟩

end Steps

/-- **An open circuit blocks in runs in which the breaker is asked** before every attempt that needs
it. Any other step leads to a circuit that does not block.

**Proof sketch.** Along such a run no call has attempts to come or under way for a peer whose
circuit is open. So all attempts are made while it is closed or half open, and since a failure opens
it, it closes after enough successes only. After any other step such a call remains, and when its
attempt succeeds, the circuit closes without having been half open. -/
theorem blocking_of_run [Inhabited V] {S : RecoveryClient A V} {policy : RetryPolicy}
    (hrun : Run Consulted (unused policy) S) : (∀ addr, S.Blocking addr) ∧
      ∀ event S', S.next event = some S' → ¬ S.Consulted event →
        ∃ S'' addr, Reach S' S'' ∧ ¬ S''.Blocking addr := by
  refine ⟨fun addr => ?_, fun _ _ => exists_not_blocking_of_not_consulted⟩
  have hunused : Sound (unused policy : RecoveryClient A V) addr := by
    refine ⟨nofun, nofun, nofun, nofun, fun recent record older hlog => ?_⟩
    cases recent <;> cases hlog
  have hsound : S.Sound addr := hrun.invariant (I := fun S => S.Sound addr) hunused
    fun _ hI hC hnext => hI.step hC (moves_of_next hnext)
  exact hsound.blocking

/-! ## An attempt while the circuit is open -/

omit [ToString A] in
instance (S : RecoveryClient A V) (event : RetryEvent A V) : Decidable (Consulted S event) :=
  match event with
  | .connectWithRecovery _ => inferInstanceAs (Decidable True)
  | .withRetry addr => inferInstanceAs (Decidable (S.retryPolicy.maxAttempts ≠ 0 →
      ∀ breaker ∈ S.circuitBreakers.lookup addr, breaker.state ≠ .opened))
  | .advance index _ (.error e) => inferInstanceAs (Decidable (∀ call ∈ S.calls[index]?,
      ∀ attempt ∈ call.stage.underway, ∀ breaker ∈ S.circuitBreakers.lookup call.addr,
        breaker.Opens → (e.isRecoverable → ¬ attempt + 1 < S.retryPolicy.maxAttempts) ∧
          ∀ other ∈ S.calls.eraseIdx index, other.addr = call.addr → ¬ other.stage.InFlight))
  | .advance _ _ (.ok _) => inferInstanceAs (Decidable True)

/-- An attempt to connect, and how it turns out. -/
def attempted (index : ℕ) (outcome : Except ConnectError ℕ) : List (RetryEvent ℕ ℕ) :=
  List.replicate 2 (.advance index 0 outcome)

/-- A connection that is rejected after three failures, and two that succeed after a minute. -/
theorem blocking_of_run_recovered : ∃ S : RecoveryClient ℕ ℕ, Run Consulted (unused .default) S ∧
    ((S.circuitBreakers.lookup 7).map CircuitBreaker.state = some .closed ∧ S.log.length = 14) ∧
      S.Blocking 7 := by
  have hexec : (Runs.exec next Consulted
      ([.connectWithRecovery 7, .advance 0 0 (.ok 0)] ++ attempted 0 (.error .timeout) ++
        attempted 0 (.error .timeout) ++ attempted 0 (.error .timeout) ++
        [.connectWithRecovery 7, .advance 1 1000 (.ok 0)] ++
        [.connectWithRecovery 7, .advance 2 60000000000 (.ok 0)] ++ attempted 2 (.ok 1) ++
        [.connectWithRecovery 7, .advance 3 0 (.ok 0)] ++ attempted 3 (.ok 2))
      (unused .default)).map (fun S =>
        ((S.circuitBreakers.lookup 7).map CircuitBreaker.state, S.log.length)) =
          some (some .closed, 14) := by
    decide +kernel
  obtain ⟨S, hS, hfacts⟩ := Option.map_eq_some_iff.mp hexec
  have hrun := Runs.run_of_exec hS
  exact ⟨S, hrun, Prod.mk.inj hfacts, (blocking_of_run hrun).1 7⟩

/-- **The fourth attempt of a connection** is made at once after three failures have opened the
circuit. -/
theorem not_blocking_fourAttempts : ¬ ∀ S : RecoveryClient ℕ ℕ,
    Reach (unused .aggressive) S → ∀ addr, S.Blocking addr := by
  have hexec : (Runs.exec next (fun _ _ => True)
      ([.connectWithRecovery 7, .advance 0 0 (.ok 0)] ++ attempted 0 (.error .timeout) ++
        attempted 0 (.error .timeout) ++ attempted 0 (.error .timeout) ++ [.advance 0 0 (.ok 0)])
      (unused .aggressive)).map (fun S => (S.logOf 7).head?) =
        some (some ⟨7, .attempt, 0, some ⟨.opened, 3, 0, some 0, 3, 2, 30000000000⟩,
          some ⟨.opened, 3, 0, some 0, 3, 2, 30000000000⟩⟩) := by
    decide +kernel
  intro h
  obtain ⟨S, hS, hhead⟩ := Option.map_eq_some_iff.mp hexec
  refine (h S (Runs.run_of_exec hS) 7).1 _ (List.mem_of_head? hhead) ⟨rfl, _, rfl, rfl, 0, rfl, ?_⟩
  decide

end RecoveryClient

end Landropic
