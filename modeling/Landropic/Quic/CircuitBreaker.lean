import Mathlib.Data.Nat.Notation

set_option autoImplicit false

/-!
# Circuit breakers

A circuit breaker counts the failures of a peer, and opens when there are too many. When it has been
open for long enough, it lets requests through to test the peer, and closes after enough successes.

## Main definitions

* `CircuitBreaker` — a circuit breaker.
* `CircuitBreaker.allowRequest`, `recordSuccess`, `recordFailure` — its operations.
* `CircuitBreaker.Opens` — the next failure opens it.

## Main results

* `CircuitBreaker.allowRequest_cases`, `CircuitBreaker.recordSuccess_of_halfOpen`,
  `CircuitBreaker.state_recordFailure` — when the state changes.

## Design

Times and durations are in nanoseconds. The counters are below the thresholds before each step, so
they are numbers of any size.
-/

namespace Landropic

/-- Circuit breaker state for connection health management. -/
inductive CircuitState
  /-- Normal operation. -/
  | closed
  /-- Failing, reject requests. -/
  | opened
  /-- Testing if service recovered. -/
  | halfOpen
  deriving DecidableEq

/-- Circuit breaker for connection failure detection. -/
structure CircuitBreaker where
  state : CircuitState
  failureCount : ℕ
  successCount : ℕ
  lastFailure : Option ℕ
  failureThreshold : ℕ
  successThreshold : ℕ
  timeout : ℕ
  deriving DecidableEq

namespace CircuitBreaker

variable (breaker : CircuitBreaker) (now : ℕ)

/-- A closed circuit breaker. -/
def new (failureThreshold successThreshold timeout : ℕ) : CircuitBreaker where
  state := .closed
  failureCount := 0
  successCount := 0
  lastFailure := none
  failureThreshold := failureThreshold
  successThreshold := successThreshold
  timeout := timeout

/-- The timeout has elapsed since the last failure. -/
def Elapsed (lastFailure : ℕ) : Prop := now - lastFailure > breaker.timeout

instance (lastFailure : ℕ) : Decidable (breaker.Elapsed now lastFailure) :=
  inferInstanceAs (Decidable (now - lastFailure > breaker.timeout))

/-- Check if requests should be allowed through. -/
def allowRequest : Bool × CircuitBreaker :=
  match breaker.state with
  | .closed => (true, breaker)
  | .opened =>
    match breaker.lastFailure with
    | some lastFailure =>
      if breaker.Elapsed now lastFailure then
        (true, { breaker with state := .halfOpen, successCount := 0 })
      else (false, breaker)
    | none => (true, breaker)
  | .halfOpen => (true, breaker)

/-- Record a successful operation. -/
def recordSuccess : CircuitBreaker :=
  match breaker.state with
  | .closed => { breaker with failureCount := 0 }
  | .halfOpen =>
    if breaker.successCount + 1 ≥ breaker.successThreshold then
      { breaker with state := .closed, failureCount := 0, successCount := 0, lastFailure := none }
    else { breaker with successCount := breaker.successCount + 1 }
  | .opened => -- should not happen, but reset if it does
    { breaker with state := .closed, failureCount := 0, successCount := 0, lastFailure := none }

/-- Record a failed operation. -/
def recordFailure : CircuitBreaker :=
  match breaker.state with
  | .closed =>
    if breaker.failureCount + 1 ≥ breaker.failureThreshold then
      { breaker with
        state := .opened, failureCount := breaker.failureCount + 1, lastFailure := some now }
    else { breaker with failureCount := breaker.failureCount + 1, lastFailure := some now }
  | .halfOpen => { breaker with state := .opened, successCount := 0, lastFailure := some now }
  | .opened => { breaker with lastFailure := some now } -- already open, just update timestamp

/-- The next failure opens the breaker. -/
def Opens : Prop :=
  breaker.state = .closed ∧ breaker.failureCount + 1 ≥ breaker.failureThreshold ∨
    breaker.state = .halfOpen

instance : Decidable breaker.Opens :=
  inferInstanceAs (Decidable
    (breaker.state = .closed ∧ breaker.failureCount + 1 ≥ breaker.failureThreshold ∨
      breaker.state = .halfOpen))

/-! ## When the state changes -/

variable {breaker}

/-- **A request** is rejected by a breaker that is open, which begins to test the peer when the
timeout has elapsed. Any other breaker lets it through. -/
lemma allowRequest_cases (breaker : CircuitBreaker) (now : ℕ) :
    breaker.allowRequest now = (false, breaker) ∨
      breaker.allowRequest now = (true, { breaker with state := .halfOpen, successCount := 0 }) ∧
        breaker.state = .opened ∨
      breaker.allowRequest now = (true, breaker) ∧
        (breaker.state = .opened → breaker.lastFailure = none) := by
  cases hstate : breaker.state with
  | closed => simp [allowRequest, hstate]
  | opened =>
    cases hlast : breaker.lastFailure with
    | none => simp [allowRequest, hstate, hlast]
    | some lastFailure =>
      by_cases helapsed : breaker.Elapsed now lastFailure
      · simp [allowRequest, hstate, hlast, helapsed]
      · simp [allowRequest, hstate, hlast, helapsed]
  | halfOpen => simp [allowRequest, hstate]

/-- **A success in a test** is counted, or closes the breaker when there are enough. -/
lemma recordSuccess_of_halfOpen (hstate : breaker.state = .halfOpen) :
    breaker.successThreshold ≤ breaker.successCount + 1 ∧ breaker.recordSuccess.state = .closed ∨
      breaker.recordSuccess = { breaker with successCount := breaker.successCount + 1 } := by
  unfold recordSuccess
  rw [hstate]
  dsimp only
  split
  · next h => exact .inl ⟨h, rfl⟩
  · exact .inr rfl

lemma state_recordSuccess (hstate : breaker.state ≠ .halfOpen) :
    breaker.recordSuccess.state = .closed := by
  unfold recordSuccess
  split
  · next h => exact h
  · next h => exact absurd h hstate
  · rfl

/-- **A failure opens the breaker** or leaves it closed. -/
lemma state_recordFailure (breaker : CircuitBreaker) (now : ℕ) :
    (breaker.recordFailure now).state = .opened ∧
        (breaker.recordFailure now).lastFailure = some now ∧
        (breaker.state = .opened ∨ breaker.Opens) ∨
      (breaker.recordFailure now).state = .closed ∧ breaker.state = .closed ∧ ¬ breaker.Opens := by
  cases hstate : breaker.state with
  | closed =>
    by_cases hcount : breaker.failureCount + 1 ≥ breaker.failureThreshold
    · simp [recordFailure, Opens, hstate, hcount]
    · simp [recordFailure, Opens, hstate, hcount]
  | opened => simp [recordFailure, hstate]
  | halfOpen => simp [recordFailure, Opens, hstate]

end CircuitBreaker

end Landropic
