import Landropic.Foundations.HashMap
import Landropic.Foundations.Lines
import Landropic.Foundations.Runs

set_option autoImplicit false

/-!
# The reconnection manager

When the failure of a connection is reported, the manager starts a task that tries to connect to the
peer again and again, with growing delays, until it succeeds or has tried often enough.

## Main definitions

* `PeerConnectionState` — what is known of a peer.
* `ReconnectionManager.next` — the steps of calls and tasks.
* `ReconnectionManager.Retrying` — failed peers are being retried, or have been given up.
* `ReconnectionManager.View` — the part of a state that belongs to one peer.

## Main results

* `ReconnectionManager.view_next` — a step changes what belongs to one peer.
* `ReconnectionManager.retrying_of_run` — when failed peers are being retried.
* `ReconnectionManager.not_retrying_recentSuccess` — they are not when the connection fails soon
  after it has been made.

## Design

Times and durations are in nanoseconds. A report holds the lock on the states of the peers until it
returns, so neither another call nor a task can use them meanwhile. That a task puts a connection
into the pool is part of its end. The multiplication by the backoff multiplier is a parameter, and
the jitter of an attempt any number. Retries are counted up to their maximum only.
-/

namespace Landropic

/-- Connection state for tracking reconnection attempts. -/
inductive ConnectionState
  | connected
  | connecting
  | reconnecting
  | failed
  | backoff
  deriving DecidableEq

/-- Reconnection configuration. -/
structure ReconnectionConfig where
  /-- Maximum retry delay. -/
  maxRetryDelay : ℕ
  /-- A number of milliseconds times the backoff multiplier, without its fraction. -/
  backoff : ℕ → ℕ
  /-- Maximum retry attempts before giving up. -/
  maxRetryAttempts : ℕ
  /-- Connection timeout for each attempt. -/
  connectionTimeout : ℕ
  /-- Enable jitter to avoid thundering herd. -/
  enableJitter : Bool

/-- A number of milliseconds. -/
def fromMillis (ms : ℕ) : ℕ := ms * 10 ^ 6

/-- The whole milliseconds of a duration. -/
def asMillis (duration : ℕ) : ℕ := duration / 10 ^ 6

/-- The default configuration. -/
protected def ReconnectionConfig.default : ReconnectionConfig where
  maxRetryDelay := fromMillis 30000
  backoff := fun ms => ms * 2
  maxRetryAttempts := 10
  connectionTimeout := fromMillis 10000
  enableJitter := true

/-- Peer connection tracking. -/
structure PeerConnectionState (C : Type) where
  state : ConnectionState
  retryCount : ℕ
  lastAttempt : Option ℕ
  lastSuccess : Option ℕ
  currentDelay : ℕ
  connection : Option C
  failureReason : Option Text
  deriving DecidableEq

namespace PeerConnectionState

variable {C : Type}

/-- A new peer. -/
def new (now : ℕ) : PeerConnectionState C where
  state := .connected
  retryCount := 0
  lastAttempt := none
  lastSuccess := some now
  currentDelay := fromMillis 100
  connection := none
  failureReason := none

variable (config : ReconnectionConfig) (now : ℕ) (peer : PeerConnectionState C)

/-- Check if ready for retry attempt. -/
def isReadyForRetry : Bool :=
  if peer.retryCount ≥ config.maxRetryAttempts then false
  else
    match peer.lastAttempt with
    | some lastAttempt => now - lastAttempt ≥ peer.currentDelay
    | none => true

/-- Update state for new retry attempt. -/
def startRetryAttempt (jitter : ℕ) : PeerConnectionState C :=
  let delay := min (fromMillis (config.backoff (asMillis peer.currentDelay))) config.maxRetryDelay
  { peer with
    retryCount := peer.retryCount + 1
    lastAttempt := some now
    state := .reconnecting
    currentDelay := if config.enableJitter then fromMillis (asMillis delay + jitter) else delay }

/-- Mark connection as successful. -/
def markSuccess (connection : C) : PeerConnectionState C :=
  { peer with
    state := .connected
    retryCount := 0
    lastSuccess := some now
    currentDelay := fromMillis 100
    connection := some connection
    failureReason := none }

/-- Mark connection as failed. -/
def markFailed (reason : Text) : PeerConnectionState C :=
  { peer with state := .failed, connection := none, failureReason := some reason }

variable {config now peer}

lemma isReadyForRetry_iff : peer.isReadyForRetry config now = true ↔
    peer.retryCount < config.maxRetryAttempts ∧
      ∀ lastAttempt ∈ peer.lastAttempt, peer.currentDelay ≤ now - lastAttempt := by
  unfold isReadyForRetry
  by_cases hcount : peer.retryCount ≥ config.maxRetryAttempts
  · simp [hcount, Nat.not_lt.mpr hcount]
  · rw [if_neg hcount, and_iff_right (Nat.not_le.mp hcount)]
    cases peer.lastAttempt with
    | none => simp
    | some lastAttempt => simp

lemma isReadyForRetry_mono {now' : ℕ} (h : peer.isReadyForRetry config now = true)
    (hle : now ≤ now') : peer.isReadyForRetry config now' = true := by
  rw [isReadyForRetry_iff] at h ⊢
  exact ⟨h.1, fun last hlast => (h.2 last hlast).trans (Nat.sub_le_sub_right hle last)⟩

end PeerConnectionState

/-- How an attempt to connect ends. -/
inductive ConnectOutcome (C : Type)
  | success (connection : C)
  | error (message : Text)
  | timeout

/-- Where a reconnection task stands. -/
inductive ReconnectionPhase
  /-- Check if it should continue reconnecting. -/
  | checking
  /-- It goes on to an attempt. -/
  | attempting
  /-- It has been connecting since then. -/
  | connecting (since : ℕ)
  /-- The attempt failed. -/
  | backingOff
  /-- Wait before next retry attempt. -/
  | sleeping (wake : ℕ)
  /-- It has left the loop. -/
  | finishing
  deriving DecidableEq

/-- Where a report of a failure stands, after it has marked the peer. -/
inductive ReportPhase
  /-- Check if a reconnection is active. -/
  | checking
  /-- Start a reconnection. -/
  | starting
  deriving DecidableEq

namespace ReconnectionManager

/-- What the manager and its tasks share, the tasks, and the report that is in progress. -/
structure State (A C : Type) where
  clock : ℕ
  peerStates : HashMap A (PeerConnectionState C)
  activeReconnections : HashMap A ℕ
  tasks : HashMap ℕ (A × ReconnectionPhase)
  nextTask : ℕ
  reporting : Option (A × ReportPhase)
  deriving DecidableEq

/-- The steps of calls and tasks. -/
inductive Step (A C : Type)
  /-- Time passes. -/
  | elapse (duration : ℕ)
  /-- Track a new peer connection. -/
  | trackPeer (peer : A) (connection : C)
  /-- Report connection failure for a peer: mark it. -/
  | reportConnectionFailure (peer : A) (reason : Text)
  /-- The report checks if a reconnection is active. -/
  | isReconnectionActive
  /-- The report starts a reconnection task. -/
  | startReconnectionTask
  /-- A task checks if it should continue. -/
  | check (task : ℕ)
  /-- A task begins an attempt. -/
  | attempt (task jitter : ℕ)
  /-- An attempt ends. -/
  | connected (task : ℕ) (outcome : ConnectOutcome C)
  /-- A task looks up how long to wait. -/
  | sleep (task : ℕ)
  /-- A task has waited. -/
  | wake (task : ℕ)
  /-- A task removes itself from the active reconnections. -/
  | remove (task : ℕ)

variable {A C : Type} [DecidableEq A]

namespace State

variable (s : State A C) (peer : A)

/-- Change what is known of a peer. -/
def update (f : PeerConnectionState C → PeerConnectionState C) : State A C :=
  { s with peerStates := s.peerStates.modify peer f }

/-- A task goes on. -/
def setPhase (task : ℕ) (phase : ReconnectionPhase) : State A C :=
  { s with tasks := s.tasks.insert task (peer, phase) }

/-- What is known of a peer, which may be new. -/
def entry : PeerConnectionState C := (s.peerStates.lookup peer).getD (.new s.clock)

/-- No call has happened yet. -/
def start (clock : ℕ) : State A C where
  clock := clock
  peerStates := ∅
  activeReconnections := ∅
  tasks := ∅
  nextTask := 0
  reporting := none

end State

variable (config : ReconnectionConfig)

/-- Check if a task should continue reconnecting. -/
def shouldContinue (peer : A) (s : State A C) : Bool :=
  (s.peerStates.lookup peer).elim false fun st =>
    st.isReadyForRetry config s.clock && decide (st.state ≠ .connected)

/-- What a task does when its attempt has ended. -/
def handleOutcome (task : ℕ) (peer : A) (s : State A C) : ConnectOutcome C → State A C
  | .success connection =>
    (s.update peer fun st => st.markSuccess s.clock connection).setPhase peer task .finishing
  | .error message =>
    match s.peerStates.lookup peer with
    | some st =>
      if st.retryCount ≥ config.maxRetryAttempts then
        (s.update peer fun st => st.markFailed
          ("Max retry attempts exceeded: ".toList ++ message)).setPhase peer task .finishing
      else (s.update peer fun st => { st with state := .backoff }).setPhase peer task .backingOff
    | none => s.setPhase peer task .backingOff
  | .timeout =>
    (s.update peer fun st => { st with state := .backoff }).setPhase peer task .backingOff

/-- The steps. All that read or change the states of the peers wait for a report to end. -/
def next (s : State A C) : Step A C → Option (State A C)
  | .elapse duration => some { s with clock := s.clock + duration }
  | .trackPeer peer connection =>
    match s.reporting with
    | none => some { s with
        peerStates := s.peerStates.insert peer ((s.entry peer).markSuccess s.clock connection) }
    | some _ => none
  | .reportConnectionFailure peer reason =>
    match s.reporting with
    | none => some { s with
        peerStates := s.peerStates.insert peer ((s.entry peer).markFailed reason)
        reporting := some (peer, .checking) }
    | some _ => none
  | .isReconnectionActive =>
    match s.reporting with
    | some (peer, .checking) => some { s with
        reporting := if peer ∈ s.activeReconnections then none else some (peer, .starting) }
    | _ => none
  | .startReconnectionTask =>
    match s.reporting with
    | some (peer, .starting) => some { s with
        tasks := s.tasks.insert s.nextTask (peer, .checking)
        activeReconnections := s.activeReconnections.insert peer s.nextTask
        nextTask := s.nextTask + 1
        reporting := none }
    | _ => none
  | .check task =>
    match s.reporting, s.tasks.lookup task with
    | none, some (peer, .checking) =>
      some (s.setPhase peer task (if shouldContinue config peer s then .attempting else .finishing))
    | _, _ => none
  | .attempt task jitter =>
    match s.reporting, s.tasks.lookup task with
    | none, some (peer, .attempting) =>
      some ((s.update peer fun st => st.startRetryAttempt config s.clock jitter).setPhase peer task
        (.connecting s.clock))
    | _, _ => none
  | .connected task outcome =>
    match s.reporting, s.tasks.lookup task with
    | none, some (peer, .connecting since) =>
      match outcome with
      | .timeout =>
        if since + config.connectionTimeout ≤ s.clock then
          some (handleOutcome config task peer s .timeout)
        else none
      | outcome => some (handleOutcome config task peer s outcome)
    | _, _ => none
  | .sleep task =>
    match s.reporting, s.tasks.lookup task with
    | none, some (peer, .backingOff) =>
      let delay := (s.peerStates.lookup peer).elim (fromMillis 5000)
        PeerConnectionState.currentDelay
      some (s.setPhase peer task (.sleeping (s.clock + delay)))
    | _, _ => none
  | .wake task =>
    match s.tasks.lookup task with
    | some (peer, .sleeping wake) =>
      if wake ≤ s.clock then some (s.setPhase peer task .checking) else none
    | _ => none
  | .remove task =>
    match s.tasks.lookup task with
    | some (peer, .finishing) => some { s with
        tasks := s.tasks.erase task
        activeReconnections := s.activeReconnections.erase peer }
    | _ => none

/-! ## What is to hold -/

/-- A task will still attempt a connection: it is on its way to one, or the peer is ready when the
task checks, at the earliest. -/
def WillAttempt (clock : ℕ) (st : PeerConnectionState C) : ReconnectionPhase → Prop
  | .checking => st.isReadyForRetry config clock = true
  | .attempting | .connecting _ | .backingOff => True
  | .sleeping wake => st.isReadyForRetry config (max wake clock) = true
  | .finishing => False

/-- Each peer that has failed has a task that will still attempt a connection, unless it has been
retried too often. Such a peer is marked as failed once no attempt is under way. -/
def Retrying (s : State A C) : Prop :=
  ∀ peer st, s.peerStates.lookup peer = some st →
    ((st.state = .failed ∨ st.state = .backoff) → st.retryCount < config.maxRetryAttempts →
      ∃ task phase, s.tasks.lookup task = some (peer, phase) ∧
        WillAttempt config s.clock st phase) ∧
    (st.state ≠ .connected → config.maxRetryAttempts ≤ st.retryCount →
      (∀ task since, s.tasks.lookup task ≠ some (peer, .connecting since)) → st.state = .failed)

/-- Where the reconnection task of a peer stands. -/
def State.phase (s : State A C) (peer : A) : Option ReconnectionPhase :=
  (s.activeReconnections.lookup peer).bind fun task => (s.tasks.lookup task).map Prod.snd

/-- A report finds a task that will still attempt a connection, or starts one when the peer is
ready, and the last attempt does not time out. -/
def Heeded (s : State A C) : Step A C → Prop
  | .isReconnectionActive => ∀ call ∈ s.reporting, ∀ st ∈ s.peerStates.lookup call.1,
      ∀ phase ∈ s.phase call.1, st.retryCount < config.maxRetryAttempts →
        WillAttempt config s.clock st phase
  | .startReconnectionTask => ∀ call ∈ s.reporting, ∀ st ∈ s.peerStates.lookup call.1,
      st.retryCount < config.maxRetryAttempts → st.isReadyForRetry config s.clock = true
  | .connected task .timeout => ∀ entry ∈ s.tasks.lookup task,
      ∀ st ∈ s.peerStates.lookup entry.1, st.retryCount < config.maxRetryAttempts
  | _ => True

instance (clock : ℕ) (st : PeerConnectionState C) (phase : ReconnectionPhase) :
    Decidable (WillAttempt config clock st phase) := by
  cases phase <;> unfold WillAttempt <;> infer_instance

instance (s : State A C) (step : Step A C) : Decidable (Heeded config s step) :=
  match step with
  | .isReconnectionActive => by unfold Heeded; infer_instance
  | .startReconnectionTask => by unfold Heeded; infer_instance
  | .connected _ .timeout => by unfold Heeded; infer_instance
  | .connected _ (.success _) => .isTrue trivial
  | .connected _ (.error _) => .isTrue trivial
  | .elapse _ => .isTrue trivial
  | .trackPeer _ _ => .isTrue trivial
  | .reportConnectionFailure _ _ => .isTrue trivial
  | .check _ => .isTrue trivial
  | .attempt _ _ => .isTrue trivial
  | .sleep _ => .isTrue trivial
  | .wake _ => .isTrue trivial
  | .remove _ => .isTrue trivial

/-! ## One peer -/

/-- The part of a state that belongs to one peer. -/
structure View (C : Type) where
  peer : Option (PeerConnectionState C)
  phase : Option ReconnectionPhase
  report : Option ReportPhase

/-- Where the report on a peer stands. -/
def State.report (s : State A C) (peer : A) : Option ReportPhase :=
  s.reporting.bind fun call => if call.1 = peer then some call.2 else none

/-- The part of a state that belongs to a peer. -/
def State.view (s : State A C) (peer : A) : View C :=
  ⟨s.peerStates.lookup peer, s.phase peer, s.report peer⟩

namespace View

/-- The steps, as far as they concern one peer, if they are heeded. -/
inductive Step (clock : ℕ) : View C → View C → Prop
  | trackPeer {peer phase} (connection : C) : Step clock ⟨peer, phase, none⟩
      ⟨some ((peer.getD (.new clock)).markSuccess clock connection), phase, none⟩
  | report {peer phase} (reason : Text) : Step clock ⟨peer, phase, none⟩
      ⟨some ((peer.getD (.new clock)).markFailed reason), phase, some .checking⟩
  | active {peer phase} :
      (∀ st ∈ peer, st.retryCount < config.maxRetryAttempts → WillAttempt config clock st phase) →
      Step clock ⟨peer, some phase, some .checking⟩ ⟨peer, some phase, none⟩
  | inactive {peer} : Step clock ⟨peer, none, some .checking⟩ ⟨peer, none, some .starting⟩
  | startTask {peer phase} :
      (∀ st ∈ peer, st.retryCount < config.maxRetryAttempts →
        st.isReadyForRetry config clock = true) →
      Step clock ⟨peer, phase, some .starting⟩ ⟨peer, some .checking, none⟩
  | goOn {st : PeerConnectionState C} : st.isReadyForRetry config clock = true →
      Step clock ⟨some st, some .checking, none⟩ ⟨some st, some .attempting, none⟩
  | giveUp {peer} :
      (∀ st ∈ peer, st.isReadyForRetry config clock = true → st.state = .connected) →
      Step clock ⟨peer, some .checking, none⟩ ⟨peer, some .finishing, none⟩
  | attempt {peer} (jitter : ℕ) : Step clock ⟨peer, some .attempting, none⟩
      ⟨peer.map fun st => st.startRetryAttempt config clock jitter, some (.connecting clock), none⟩
  | succeed {peer since} (connection : C) : Step clock ⟨peer, some (.connecting since), none⟩
      ⟨peer.map fun st => st.markSuccess clock connection, some .finishing, none⟩
  | exhaust {peer since} (reason : Text) : (∀ st ∈ peer, config.maxRetryAttempts ≤ st.retryCount) →
      Step clock ⟨peer, some (.connecting since), none⟩
        ⟨peer.map fun st => st.markFailed reason, some .finishing, none⟩
  | backOff {peer since} : (∀ st ∈ peer, st.retryCount < config.maxRetryAttempts) →
      Step clock ⟨peer, some (.connecting since), none⟩
        ⟨peer.map fun st => { st with state := .backoff }, some .backingOff, none⟩
  | sleep {peer delay} : (∀ st ∈ peer, st.currentDelay = delay) →
      Step clock ⟨peer, some .backingOff, none⟩ ⟨peer, some (.sleeping (clock + delay)), none⟩
  | wake {peer report wake} : wake ≤ clock →
      Step clock ⟨peer, some (.sleeping wake), report⟩ ⟨peer, some .checking, report⟩
  | remove {peer report} :
      Step clock ⟨peer, some .finishing, report⟩ ⟨peer, none, report⟩

/-- What holds of a peer at every time. -/
structure Fit (clock : ℕ) (v : View C) : Prop where
  lastAttempt_le : ∀ st ∈ v.peer, ∀ last ∈ st.lastAttempt, last ≤ clock
  retryCount_le : ∀ st ∈ v.peer, st.retryCount ≤ config.maxRetryAttempts
  attempting : v.phase = some .attempting →
    ∃ st ∈ v.peer, st.retryCount < config.maxRetryAttempts
  starting : v.report = some .starting → v.phase = none
  retried : v.report = none → ∀ st ∈ v.peer, st.state = .failed ∨ st.state = .backoff →
    st.retryCount < config.maxRetryAttempts → ∃ phase ∈ v.phase, WillAttempt config clock st phase
  givenUp : ∀ st ∈ v.peer, st.state ≠ .connected → config.maxRetryAttempts ≤ st.retryCount →
    (∀ since, v.phase ≠ some (.connecting since)) → st.state = .failed

variable {config} {clock : ℕ} {v v' : View C}

lemma willAttempt_mono {clock' : ℕ} {st : PeerConnectionState C} {phase : ReconnectionPhase}
    (h : WillAttempt config clock st phase) (hle : clock ≤ clock') :
    WillAttempt config clock' st phase := by
  cases phase with
  | checking => exact st.isReadyForRetry_mono h hle
  | attempting => trivial
  | connecting since => trivial
  | backingOff => trivial
  | sleeping wake => exact st.isReadyForRetry_mono h (max_le_max_left wake hle)
  | finishing => exact h

lemma Fit.elapse (h : v.Fit config clock) {clock' : ℕ} (hle : clock ≤ clock') :
    v.Fit config clock' where
  lastAttempt_le st hst last hlast := (h.lastAttempt_le st hst last hlast).trans hle
  retryCount_le := h.retryCount_le
  attempting := h.attempting
  starting := h.starting
  retried hreport st hst hstate hcount := by
    obtain ⟨phase, hphase, hwill⟩ := h.retried hreport st hst hstate hcount
    exact ⟨phase, hphase, willAttempt_mono hwill hle⟩
  givenUp := h.givenUp

lemma Fit.bounds_getD (h : v.Fit config clock) :
    (∀ last ∈ (v.peer.getD (.new clock)).lastAttempt, last ≤ clock) ∧
      (v.peer.getD (.new clock)).retryCount ≤ config.maxRetryAttempts := by
  cases hpeer : v.peer with
  | none => exact ⟨nofun, Nat.zero_le _⟩
  | some st => exact ⟨h.lastAttempt_le st hpeer, h.retryCount_le st hpeer⟩

/-- The end of an attempt changes nothing about when it began, and counts no further one. -/
lemma Fit.bounds_map (h : v.Fit config clock) {f : PeerConnectionState C → PeerConnectionState C}
    (hlast : ∀ st, (f st).lastAttempt = st.lastAttempt)
    (hcount : ∀ st, (f st).retryCount ≤ st.retryCount) :
    (∀ st ∈ v.peer.map f, ∀ last ∈ st.lastAttempt, last ≤ clock) ∧
      ∀ st ∈ v.peer.map f, st.retryCount ≤ config.maxRetryAttempts := by
  refine ⟨fun st hst => ?_, fun st hst => ?_⟩
  · obtain ⟨before, hbefore, rfl⟩ := Option.map_eq_some_iff.mp hst
    rw [hlast]
    exact h.lastAttempt_le before hbefore
  · obtain ⟨before, hbefore, rfl⟩ := Option.map_eq_some_iff.mp hst
    exact (hcount before).trans (h.retryCount_le before hbefore)

section Calls

variable {peer : Option (PeerConnectionState C)} {phase : Option ReconnectionPhase}

lemma Fit.trackPeer (h : Fit config clock ⟨peer, phase, none⟩) (connection : C) :
    Fit config clock
      ⟨some ((peer.getD (.new clock)).markSuccess clock connection), phase, none⟩ := by
  refine ⟨?_, ?_, ?_, h.starting, ?_, ?_⟩
  · rintro _ ⟨⟩
    exact h.bounds_getD.1
  · rintro _ ⟨⟩
    exact Nat.zero_le _
  · intro hphase
    obtain ⟨st, -, hcount⟩ := h.attempting hphase
    exact ⟨_, rfl, (Nat.zero_le _).trans_lt hcount⟩
  · rintro - _ ⟨⟩ (hstate | hstate)
    · cases hstate
    · cases hstate
  · rintro _ ⟨⟩ hstate
    exact absurd rfl hstate

lemma Fit.report (h : Fit config clock ⟨peer, phase, none⟩) (reason : Text) :
    Fit config clock
      ⟨some ((peer.getD (.new clock)).markFailed reason), phase, some .checking⟩ := by
  refine ⟨?_, ?_, ?_, nofun, nofun, ?_⟩
  · rintro _ ⟨⟩
    exact h.bounds_getD.1
  · rintro _ ⟨⟩
    exact h.bounds_getD.2
  · intro hphase
    obtain ⟨st, hst, hcount⟩ := h.attempting hphase
    obtain rfl : peer = some st := hst
    exact ⟨_, rfl, hcount⟩
  · rintro _ ⟨⟩ - - -
    rfl

end Calls

section Attempts

variable {peer : Option (PeerConnectionState C)} {since : ℕ}

lemma Fit.attempt (h : Fit config clock ⟨peer, some .attempting, none⟩) (jitter : ℕ) :
    Fit config clock ⟨peer.map fun st => st.startRetryAttempt config clock jitter,
      some (.connecting clock), none⟩ := by
  refine ⟨fun st hst last hlast => ?_, fun st hst => ?_, nofun, nofun,
    fun _ _ _ _ _ => ⟨_, rfl, trivial⟩, fun _ _ _ _ hnot => absurd rfl (hnot clock)⟩
  · obtain ⟨before, -, rfl⟩ := Option.map_eq_some_iff.mp hst
    obtain rfl := Option.some.inj hlast
    exact le_rfl
  · obtain ⟨before, hbefore, rfl⟩ := Option.map_eq_some_iff.mp hst
    obtain ⟨st, hst, hcount⟩ := h.attempting rfl
    obtain rfl := Option.some.inj (hbefore.symm.trans hst)
    exact hcount

lemma Fit.succeed (h : Fit config clock ⟨peer, some (.connecting since), none⟩) (connection : C) :
    Fit config clock
      ⟨peer.map fun st => st.markSuccess clock connection, some .finishing, none⟩ := by
  have hbounds := h.bounds_map (f := fun st => st.markSuccess clock connection) (fun _ => rfl)
    fun _ => Nat.zero_le _
  refine ⟨hbounds.1, hbounds.2, nofun, nofun, fun _ st hst hstate => ?_, fun st hst hstate => ?_⟩
  · obtain ⟨before, hbefore, rfl⟩ := Option.map_eq_some_iff.mp hst
    obtain hstate | hstate := hstate
    · cases hstate
    · cases hstate
  · obtain ⟨before, hbefore, rfl⟩ := Option.map_eq_some_iff.mp hst
    exact absurd rfl hstate

lemma Fit.exhaust (h : Fit config clock ⟨peer, some (.connecting since), none⟩) (reason : Text)
    (hcount : ∀ st ∈ peer, config.maxRetryAttempts ≤ st.retryCount) :
    Fit config clock ⟨peer.map fun st => st.markFailed reason, some .finishing, none⟩ := by
  have hbounds := h.bounds_map (f := fun st => st.markFailed reason) (fun _ => rfl) fun _ => le_rfl
  refine ⟨hbounds.1, hbounds.2, nofun, nofun, fun _ st hst _ hless => ?_, fun st hst _ _ _ => ?_⟩
  · obtain ⟨before, hbefore, rfl⟩ := Option.map_eq_some_iff.mp hst
    exact absurd hless (Nat.not_lt.mpr (hcount before hbefore))
  · obtain ⟨before, -, rfl⟩ := Option.map_eq_some_iff.mp hst
    rfl

lemma Fit.backOff (h : Fit config clock ⟨peer, some (.connecting since), none⟩)
    (hcount : ∀ st ∈ peer, st.retryCount < config.maxRetryAttempts) :
    Fit config clock
      ⟨peer.map fun st => { st with state := .backoff }, some .backingOff, none⟩ := by
  have hbounds := h.bounds_map (f := fun st => { st with state := .backoff }) (fun _ => rfl)
    fun _ => le_rfl
  refine ⟨hbounds.1, hbounds.2, nofun, nofun, fun _ _ _ _ _ => ⟨_, rfl, trivial⟩,
    fun st hst _ hmax _ => ?_⟩
  obtain ⟨before, hbefore, rfl⟩ := Option.map_eq_some_iff.mp hst
  exact absurd (hcount before hbefore) (Nat.not_lt.mpr hmax)

end Attempts

/-- **Heeded steps keep what holds of a peer.** -/
lemma Fit.step (h : v.Fit config clock) (hstep : Step config clock v v') :
    v'.Fit config clock := by
  cases hstep with
  | trackPeer connection => exact h.trackPeer connection
  | report reason => exact h.report reason
  | @active peer phase hwill =>
    exact ⟨h.lastAttempt_le, h.retryCount_le, h.attempting, nofun,
      fun _ st hst _ hcount => ⟨phase, rfl, hwill st hst hcount⟩, h.givenUp⟩
  | inactive =>
    exact ⟨h.lastAttempt_le, h.retryCount_le, h.attempting, fun _ => rfl, nofun, h.givenUp⟩
  | @startTask peer phase hready =>
    obtain rfl : phase = none := h.starting rfl
    exact ⟨h.lastAttempt_le, h.retryCount_le, nofun, nofun,
      fun _ st hst _ hcount => ⟨.checking, rfl, hready st hst hcount⟩,
      fun st hst hstate hcount _ => h.givenUp st hst hstate hcount fun since => by simp⟩
  | @goOn st hready =>
    exact ⟨h.lastAttempt_le, h.retryCount_le,
      fun _ => ⟨st, rfl, (PeerConnectionState.isReadyForRetry_iff.mp hready).1⟩,
      nofun, fun _ _ _ _ _ => ⟨.attempting, rfl, trivial⟩,
      fun st hst hstate hcount _ => h.givenUp st hst hstate hcount fun since => by simp⟩
  | @giveUp peer hstop =>
    refine ⟨h.lastAttempt_le, h.retryCount_le, nofun, nofun, fun _ st hst hstate hcount => ?_,
      fun st hst hstate hcount _ => h.givenUp st hst hstate hcount fun since => by simp⟩
    obtain ⟨phase, hphase, hwill⟩ := h.retried rfl st hst hstate hcount
    obtain rfl := Option.some.inj hphase
    rw [hstop st hst hwill] at hstate
    obtain hstate | hstate := hstate
    · cases hstate
    · cases hstate
  | attempt jitter => exact h.attempt jitter
  | succeed connection => exact h.succeed connection
  | exhaust reason hcount => exact h.exhaust reason hcount
  | backOff hcount => exact h.backOff hcount
  | @sleep peer delay hdelay =>
    refine ⟨h.lastAttempt_le, h.retryCount_le, nofun, nofun,
      fun _ st hst _ hcount => ⟨_, rfl, ?_⟩,
      fun st hst hstate hmax _ => h.givenUp st hst hstate hmax fun since => by simp⟩
    -- the last attempt was not later than now, so the delay will have passed
    refine PeerConnectionState.isReadyForRetry_iff.mpr ⟨hcount, fun last hlast => ?_⟩
    have hle := h.lastAttempt_le st hst last hlast
    rw [hdelay st hst]
    omega
  | @wake peer report wake hwake =>
    refine ⟨h.lastAttempt_le, h.retryCount_le, nofun,
      fun hreport => absurd (h.starting hreport) (by simp), fun hreport st hst hstate hcount => ?_,
      fun st hst hstate hmax _ => h.givenUp st hst hstate hmax fun since => by simp⟩
    obtain ⟨phase, hphase, hwill⟩ := h.retried hreport st hst hstate hcount
    obtain rfl := Option.some.inj hphase
    refine ⟨.checking, rfl, ?_⟩
    rwa [WillAttempt, max_eq_right hwake] at hwill
  | remove =>
    refine ⟨h.lastAttempt_le, h.retryCount_le, nofun, fun _ => rfl,
      fun hreport st hst hstate hcount => ?_,
      fun st hst hstate hmax _ => h.givenUp st hst hstate hmax fun since => by simp⟩
    obtain ⟨phase, hphase, hwill⟩ := h.retried hreport st hst hstate hcount
    obtain rfl := Option.some.inj hphase
    exact hwill.elim

end View

/-! ## The steps, peer by peer -/

section Views

variable {config : ReconnectionConfig} {s s' : State A C} {peer : A} {task : ℕ}
  {phase : ReconnectionPhase}

/-- The tasks are those of the active reconnections, and a reconnection is only started where none
is active. -/
structure Linked (s : State A C) : Prop where
  active : ∀ {task peer phase}, s.tasks.lookup task = some (peer, phase) →
    s.activeReconnections.lookup peer = some task
  task : ∀ {peer task}, s.activeReconnections.lookup peer = some task →
    ∃ phase, s.tasks.lookup task = some (peer, phase)
  lt_next : ∀ {task entry}, s.tasks.lookup task = some entry → task < s.nextTask
  starting : ∀ {peer}, s.reporting = some (peer, .starting) →
    s.activeReconnections.lookup peer = none

lemma linked_start (clock : ℕ) : Linked (State.start clock : State A C) where
  active h := by cases h
  task h := by cases h
  lt_next h := by cases h
  starting h := by cases h

lemma Linked.phase_eq (h : Linked s) (htask : s.tasks.lookup task = some (peer, phase)) :
    s.phase peer = some phase := by
  rw [State.phase, h.active htask, Option.bind_some, htask]
  rfl

lemma Linked.phase_eq_some_iff (h : Linked s) :
    s.phase peer = some phase ↔ ∃ task, s.tasks.lookup task = some (peer, phase) := by
  refine ⟨fun hphase => ?_, fun ⟨task, htask⟩ => h.phase_eq htask⟩
  obtain ⟨task, hactive, htask⟩ := Option.bind_eq_some_iff.mp hphase
  obtain ⟨phase', hlookup⟩ := h.task hactive
  rw [hlookup] at htask
  obtain rfl : phase' = phase := Option.some.inj htask
  exact ⟨task, hlookup⟩

lemma report_of_none (h : s.reporting = none) : s.report peer = none := by
  rw [State.report, h]
  rfl

lemma Linked.update (h : Linked s) (f : PeerConnectionState C → PeerConnectionState C) :
    Linked (s.update peer f) := ⟨h.active, h.task, h.lt_next, h.starting⟩

lemma Linked.setPhase (h : Linked s) (htask : s.tasks.lookup task = some (peer, phase))
    (phase' : ReconnectionPhase) : Linked (s.setPhase peer task phase') := by
  have hactive := h.active htask
  refine ⟨fun {t p ph} ht => ?_, fun {p t} hp => ?_, fun {t entry} ht => ?_, h.starting⟩
  · change (s.tasks.insert task (peer, phase')).lookup t = some (p, ph) at ht
    obtain ⟨rfl, heq⟩ | ⟨-, ht⟩ := HashMap.lookup_insert_cases ht
    · obtain ⟨rfl, rfl⟩ := Prod.mk.inj heq
      exact hactive
    · exact h.active ht
  · change ∃ ph, (s.tasks.insert task (peer, phase')).lookup t = some (p, ph)
    obtain ⟨ph, ht⟩ := h.task hp
    by_cases heq : t = task
    · subst heq
      rw [htask] at ht
      obtain ⟨rfl, rfl⟩ := Prod.mk.inj (Option.some.inj ht)
      exact ⟨phase', Finmap.lookup_insert _⟩
    · exact ⟨ph, by rw [Finmap.lookup_insert_of_ne _ heq, ht]⟩
  · change (s.tasks.insert task (peer, phase')).lookup t = some entry at ht
    obtain ⟨rfl, -⟩ | ⟨-, ht⟩ := HashMap.lookup_insert_cases ht
    · exact h.lt_next htask
    · exact h.lt_next ht

lemma Linked.view_setPhase (h : Linked s) (htask : s.tasks.lookup task = some (peer, phase))
    (phase' : ReconnectionPhase) (other : A) : (s.setPhase peer task phase').view other =
      if other = peer then ⟨s.peerStates.lookup peer, some phase', s.report peer⟩
      else s.view other := by
  split_ifs with heq
  · subst heq
    have hphase := (h.setPhase htask phase').phase_eq (Finmap.lookup_insert _)
    rw [State.view, hphase]
    rfl
  · have hphase : (s.setPhase peer task phase').phase other = s.phase other := by
      unfold State.phase
      show (s.activeReconnections.lookup other).bind _ = _
      cases hactive : s.activeReconnections.lookup other with
      | none => rfl
      | some t =>
        have hne : t ≠ task := by
          rintro rfl
          obtain ⟨ph, ht⟩ := h.task hactive
          rw [htask] at ht
          exact heq (Prod.mk.inj (Option.some.inj ht)).1.symm
        show ((s.tasks.insert task (peer, phase')).lookup t).map Prod.snd = _
        rw [Finmap.lookup_insert_of_ne _ hne]
        rfl
    rw [State.view, hphase]
    rfl

/-- What is known of a peer, and the phase of its task. -/
lemma Linked.view_update_setPhase (h : Linked s)
    (htask : s.tasks.lookup task = some (peer, phase)) (phase' : ReconnectionPhase)
    (f : PeerConnectionState C → PeerConnectionState C) (other : A) :
    ((s.update peer f).setPhase peer task phase').view other =
      if other = peer then ⟨(s.peerStates.lookup peer).map f, some phase', s.report peer⟩
      else s.view other := by
  rw [(h.update f).view_setPhase htask]
  split_ifs with heq
  · show View.mk ((s.peerStates.modify peer f).lookup peer) _ _ = _
    rw [HashMap.lookup_modify, if_pos rfl]
    rfl
  · show View.mk ((s.peerStates.modify peer f).lookup other) _ _ = _
    rw [HashMap.lookup_modify, if_neg heq]
    rfl

lemma Linked.view_task (h : Linked s) (hreporting : s.reporting = none)
    (htask : s.tasks.lookup task = some (peer, phase)) :
    s.view peer = ⟨s.peerStates.lookup peer, some phase, none⟩ := by
  rw [State.view, h.phase_eq htask, report_of_none hreporting]

variable {e : Step A C}

lemma connected_cases {outcome : ConnectOutcome C}
    (hnext : next config s (.connected task outcome) = some s') :
    ∃ peer since, s.reporting = none ∧ s.tasks.lookup task = some (peer, .connecting since) ∧
      s' = handleOutcome config task peer s outcome := by
  simp only [ReconnectionManager.next] at hnext
  split at hnext
  · next peer since hreporting htask =>
    refine ⟨peer, since, hreporting, htask, ?_⟩
    cases outcome with
    | timeout =>
      dsimp only at hnext
      split at hnext
      · exact (Option.some.inj hnext).symm
      · cases hnext
    | success connection => exact (Option.some.inj hnext).symm
    | error message => exact (Option.some.inj hnext).symm
  · cases hnext

lemma Linked.handleOutcome (h : Linked s) (htask : s.tasks.lookup task = some (peer, phase))
    (outcome : ConnectOutcome C) :
    Linked (ReconnectionManager.handleOutcome config task peer s outcome) := by
  cases outcome with
  | success connection => exact (h.update _).setPhase htask _
  | timeout => exact (h.update _).setPhase htask _
  | error message =>
    rw [ReconnectionManager.handleOutcome]
    split
    · split
      · exact (h.update _).setPhase htask _
      · exact (h.update _).setPhase htask _
    · exact h.setPhase htask _

lemma Linked.startTask (h : Linked s) (hnone : s.activeReconnections.lookup peer = none)
    (phase : ReconnectionPhase) : Linked { s with
      tasks := s.tasks.insert s.nextTask (peer, phase)
      activeReconnections := s.activeReconnections.insert peer s.nextTask
      nextTask := s.nextTask + 1
      reporting := none } := by
  refine ⟨fun {t p ph} ht => ?_, fun {p t} hp => ?_, fun {t entry} ht => ?_, by rintro p ⟨⟩⟩
  · dsimp only at ht ⊢
    obtain ⟨rfl, heq⟩ | ⟨-, ht⟩ := HashMap.lookup_insert_cases ht
    · obtain ⟨rfl, rfl⟩ := Prod.mk.inj heq
      exact Finmap.lookup_insert _
    · have hactive := h.active ht
      rw [Finmap.lookup_insert_of_ne _ ?_, hactive]
      rintro rfl
      rw [hnone] at hactive
      cases hactive
  · dsimp only at hp ⊢
    obtain ⟨rfl, rfl⟩ | ⟨-, hp⟩ := HashMap.lookup_insert_cases hp
    · exact ⟨_, Finmap.lookup_insert _⟩
    · obtain ⟨ph, ht⟩ := h.task hp
      exact ⟨ph, by rw [Finmap.lookup_insert_of_ne _ (h.lt_next ht).ne, ht]⟩
  · dsimp only at ht ⊢
    obtain ⟨rfl, -⟩ | ⟨-, ht⟩ := HashMap.lookup_insert_cases ht
    · exact Nat.lt_succ_self _
    · exact (h.lt_next ht).trans (Nat.lt_succ_self _)

lemma Linked.remove (h : Linked s) (htask : s.tasks.lookup task = some (peer, phase)) :
    Linked { s with
      tasks := s.tasks.erase task
      activeReconnections := s.activeReconnections.erase peer } := by
  have hne_of_lookup : ∀ {t entry}, (s.tasks.erase task).lookup t = some entry → t ≠ task := by
    rintro t entry ht rfl
    rw [Finmap.lookup_erase] at ht
    cases ht
  refine ⟨fun {t p ph} ht => ?_, fun {p t} hp => ?_, fun {t entry} ht => ?_, fun {p} hp => ?_⟩
  · dsimp only at ht ⊢
    have hne := hne_of_lookup ht
    rw [Finmap.lookup_erase_ne hne] at ht
    have hp := h.active ht
    rw [Finmap.lookup_erase_ne ?_, hp]
    rintro rfl
    exact hne (Option.some.inj (hp.symm.trans (h.active htask)))
  · dsimp only at hp ⊢
    have hne : p ≠ peer := by
      rintro rfl
      rw [Finmap.lookup_erase] at hp
      cases hp
    rw [Finmap.lookup_erase_ne hne] at hp
    obtain ⟨ph, ht⟩ := h.task hp
    refine ⟨ph, ?_⟩
    rw [Finmap.lookup_erase_ne ?_, ht]
    rintro rfl
    rw [htask] at ht
    exact hne (Prod.mk.inj (Option.some.inj ht)).1.symm
  · dsimp only at ht
    rw [Finmap.lookup_erase_ne (hne_of_lookup ht)] at ht
    exact h.lt_next ht
  · have hnone := h.starting hp
    dsimp only
    by_cases heq : p = peer
    · rw [heq, Finmap.lookup_erase]
    · rw [Finmap.lookup_erase_ne heq, hnone]

lemma Linked.next (h : Linked s) (hnext : next config s e = some s') : Linked s' := by
  cases e with
  | elapse duration =>
    obtain rfl := Option.some.inj hnext
    exact ⟨h.active, h.task, h.lt_next, h.starting⟩
  | trackPeer peer connection =>
    simp only [ReconnectionManager.next] at hnext
    split at hnext
    · obtain rfl := Option.some.inj hnext
      exact ⟨h.active, h.task, h.lt_next, h.starting⟩
    · cases hnext
  | reportConnectionFailure peer reason =>
    simp only [ReconnectionManager.next] at hnext
    split at hnext
    · obtain rfl := Option.some.inj hnext
      exact ⟨h.active, h.task, h.lt_next, by rintro p ⟨⟩⟩
    · cases hnext
  | isReconnectionActive =>
    simp only [ReconnectionManager.next] at hnext
    split at hnext
    · next peer hreporting =>
      obtain rfl := Option.some.inj hnext
      refine ⟨h.active, h.task, h.lt_next, fun {p} hp => ?_⟩
      dsimp only at hp
      split_ifs at hp with hmem
      obtain rfl := (Prod.mk.inj (Option.some.inj hp)).1
      exact Finmap.lookup_eq_none.mpr hmem
    · cases hnext
  | startReconnectionTask =>
    simp only [ReconnectionManager.next] at hnext
    split at hnext
    · next peer hreporting =>
      obtain rfl := Option.some.inj hnext
      exact h.startTask (h.starting hreporting) _
    · cases hnext
  | check task =>
    simp only [ReconnectionManager.next] at hnext
    split at hnext
    · next peer hreporting htask =>
      obtain rfl := Option.some.inj hnext
      exact h.setPhase htask _
    · cases hnext
  | attempt task jitter =>
    simp only [ReconnectionManager.next] at hnext
    split at hnext
    · next peer hreporting htask =>
      obtain rfl := Option.some.inj hnext
      exact (h.update _).setPhase htask _
    · cases hnext
  | connected task outcome =>
    obtain ⟨peer, since, -, htask, rfl⟩ := connected_cases hnext
    exact h.handleOutcome htask outcome
  | sleep task =>
    simp only [ReconnectionManager.next] at hnext
    split at hnext
    · next peer hreporting htask =>
      obtain rfl := Option.some.inj hnext
      exact h.setPhase htask _
    · cases hnext
  | wake task =>
    simp only [ReconnectionManager.next] at hnext
    split at hnext
    · next peer wake htask =>
      split at hnext
      · obtain rfl := Option.some.inj hnext
        exact h.setPhase htask _
      · cases hnext
    · cases hnext
  | remove task =>
    simp only [ReconnectionManager.next] at hnext
    split at hnext
    · next peer htask =>
      obtain rfl := Option.some.inj hnext
      exact h.remove htask
    · cases hnext

lemma report_of_ne {other : A} {phase : ReportPhase} (h : s.reporting = some (peer, phase))
    (hne : other ≠ peer) : s.report other = none := by
  rw [State.report, h, Option.bind_some, if_neg (Ne.symm hne)]

lemma report_of_eq {phase : ReportPhase} (h : s.reporting = some (peer, phase)) :
    s.report peer = some phase := by
  rw [State.report, h, Option.bind_some, if_pos rfl]

/-- What a step of a task does to its peer is all it does. -/
lemma Linked.step_setPhase (h : Linked s) (htask : s.tasks.lookup task = some (peer, phase))
    {phase' : ReconnectionPhase} (f : PeerConnectionState C → PeerConnectionState C)
    (hstep : View.Step config s.clock (s.view peer)
      ⟨(s.peerStates.lookup peer).map f, some phase', s.report peer⟩) (other : A) :
    ((s.update peer f).setPhase peer task phase').view other = s.view other ∨
      View.Step config s.clock (s.view other)
        (((s.update peer f).setPhase peer task phase').view other) := by
  rw [h.view_update_setPhase htask]
  split_ifs with heq
  · exact .inr (heq ▸ hstep)
  · exact .inl rfl

/-- The same for a step that changes nothing but the phase. -/
lemma Linked.step_phase (h : Linked s) (htask : s.tasks.lookup task = some (peer, phase))
    {phase' : ReconnectionPhase} (hstep : View.Step config s.clock (s.view peer)
      ⟨s.peerStates.lookup peer, some phase', s.report peer⟩) (other : A) :
    (s.setPhase peer task phase').view other = s.view other ∨
      View.Step config s.clock (s.view other) ((s.setPhase peer task phase').view other) := by
  rw [h.view_setPhase htask]
  split_ifs with heq
  · exact .inr (heq ▸ hstep)
  · exact .inl rfl

lemma view_report (h : Linked s) (hheeded : Heeded config s .isReconnectionActive)
    (hnext : next config s .isReconnectionActive = some s') (other : A) :
    s'.view other = s.view other ∨ View.Step config s.clock (s.view other) (s'.view other) := by
  simp only [ReconnectionManager.next] at hnext
  split at hnext
  · next peer hreporting =>
    obtain rfl := Option.some.inj hnext
    by_cases heq : other = peer
    · subst heq
      refine .inr ?_
      by_cases hmem : other ∈ s.activeReconnections
      · obtain ⟨task, hactive⟩ := Finmap.mem_iff.mp hmem
        obtain ⟨phase, htask⟩ := h.task hactive
        have hphase := h.phase_eq htask
        rw [if_pos hmem]
        show View.Step config s.clock ⟨_, s.phase other, s.report other⟩
          ⟨s.peerStates.lookup other, s.phase other, none⟩
        rw [hphase, report_of_eq hreporting]
        exact .active fun st hst hcount => hheeded _ hreporting st hst phase hphase hcount
      · have hphase : s.phase other = none := by
          rw [State.phase, Finmap.lookup_eq_none.mpr hmem]
          rfl
        rw [if_neg hmem]
        show View.Step config s.clock ⟨_, s.phase other, s.report other⟩
          ⟨s.peerStates.lookup other, s.phase other,
            if other = other then some .starting else none⟩
        rw [hphase, report_of_eq hreporting, if_pos rfl]
        exact .inactive
    · refine .inl ?_
      show View.mk _ (s.phase other) _ = View.mk _ (s.phase other) (s.report other)
      rw [report_of_ne hreporting heq]
      congr 1
      by_cases hmem : peer ∈ s.activeReconnections
      · rw [if_pos hmem]
        exact report_of_none rfl
      · rw [if_neg hmem]
        exact report_of_ne rfl heq
  · cases hnext

lemma view_startTask (h : Linked s) (hheeded : Heeded config s .startReconnectionTask)
    (hnext : next config s .startReconnectionTask = some s') (other : A) :
    s'.view other = s.view other ∨ View.Step config s.clock (s.view other) (s'.view other) := by
  have hlinked := h.next hnext
  simp only [ReconnectionManager.next] at hnext
  split at hnext
  · next peer hreporting =>
    obtain rfl := Option.some.inj hnext
    by_cases heq : other = peer
    · subst heq
      refine .inr ?_
      rw [State.view, report_of_eq hreporting, State.view,
        hlinked.phase_eq (Finmap.lookup_insert _), report_of_none rfl]
      exact .startTask fun st hst hcount => hheeded _ hreporting st hst hcount
    · refine .inl ?_
      have hphase : State.phase { s with
          tasks := s.tasks.insert s.nextTask (peer, .checking)
          activeReconnections := s.activeReconnections.insert peer s.nextTask
          nextTask := s.nextTask + 1
          reporting := none } other = s.phase other := by
        unfold State.phase
        dsimp only
        rw [Finmap.lookup_insert_of_ne _ heq]
        cases hactive : s.activeReconnections.lookup other with
        | none => rfl
        | some task =>
          obtain ⟨phase, htask⟩ := h.task hactive
          rw [Option.bind_some, Option.bind_some,
            Finmap.lookup_insert_of_ne _ (h.lt_next htask).ne]
      rw [State.view, hphase, report_of_none rfl, State.view, report_of_ne hreporting heq]
  · cases hnext

lemma view_connected (h : Linked s) {outcome : ConnectOutcome C}
    (hheeded : Heeded config s (.connected task outcome))
    (hnext : next config s (.connected task outcome) = some s') (other : A) :
    s'.view other = s.view other ∨ View.Step config s.clock (s.view other) (s'.view other) := by
  obtain ⟨peer, since, hreporting, htask, rfl⟩ := connected_cases hnext
  have hview := h.view_task hreporting htask
  cases outcome with
  | success connection =>
    refine h.step_setPhase htask _ ?_ other
    rw [hview, report_of_none hreporting]
    exact .succeed connection
  | timeout =>
    refine h.step_setPhase htask _ ?_ other
    rw [hview, report_of_none hreporting]
    exact .backOff fun st hst => hheeded _ htask st hst
  | error message =>
    rw [handleOutcome]
    split
    · next st hst =>
      split
      · next hmax =>
        refine h.step_setPhase htask _ ?_ other
        rw [hview, report_of_none hreporting, hst]
        exact .exhaust _ (by rintro _ ⟨⟩; exact hmax)
      · next hless =>
        refine h.step_setPhase htask _ ?_ other
        rw [hview, report_of_none hreporting, hst]
        exact .backOff (by rintro _ ⟨⟩; exact Nat.lt_of_not_le hless)
    · next hnone =>
      refine h.step_phase htask ?_ other
      rw [hview, report_of_none hreporting, hnone]
      have hcount : ∀ st ∈ (none : Option (PeerConnectionState C)),
          st.retryCount < config.maxRetryAttempts := by rintro _ ⟨⟩
      exact .backOff hcount

lemma view_remove (h : Linked s) (hnext : next config s (.remove task) = some s') (other : A) :
    s'.view other = s.view other ∨ View.Step config s.clock (s.view other) (s'.view other) := by
  simp only [ReconnectionManager.next] at hnext
  split at hnext
  · next peer htask =>
    obtain rfl := Option.some.inj hnext
    by_cases heq : other = peer
    · subst heq
      refine .inr ?_
      have hphase : State.phase { s with
          tasks := s.tasks.erase task
          activeReconnections := s.activeReconnections.erase other } other = none := by
        unfold State.phase
        dsimp only
        rw [Finmap.lookup_erase]
        rfl
      rw [State.view, h.phase_eq htask, State.view, hphase]
      exact .remove
    · refine .inl ?_
      have hphase : State.phase { s with
          tasks := s.tasks.erase task
          activeReconnections := s.activeReconnections.erase peer } other = s.phase other := by
        unfold State.phase
        dsimp only
        rw [Finmap.lookup_erase_ne heq]
        cases hactive : s.activeReconnections.lookup other with
        | none => rfl
        | some t =>
          have hne : t ≠ task := by
            rintro rfl
            obtain ⟨phase, ht⟩ := h.task hactive
            rw [htask] at ht
            exact heq (Prod.mk.inj (Option.some.inj ht)).1.symm
          rw [Option.bind_some, Option.bind_some, Finmap.lookup_erase_ne hne]
      rw [State.view, hphase]
      rfl
  · cases hnext

/-- **A step changes what belongs to one peer**, as far as it is heeded. -/
theorem view_next (h : Linked s) (hheeded : Heeded config s e) (hnext : next config s e = some s')
    (other : A) :
    s'.view other = s.view other ∨ View.Step config s.clock (s.view other) (s'.view other) := by
  cases e with
  | elapse duration =>
    obtain rfl := Option.some.inj hnext
    exact .inl rfl
  | trackPeer peer connection =>
    simp only [ReconnectionManager.next] at hnext
    split at hnext
    · next hreporting =>
      obtain rfl := Option.some.inj hnext
      by_cases heq : other = peer
      · subst heq
        refine .inr ?_
        show View.Step config s.clock ⟨_, s.phase other, s.report other⟩
          ⟨(s.peerStates.insert other _).lookup other, s.phase other, s.report other⟩
        rw [Finmap.lookup_insert, report_of_none hreporting]
        exact .trackPeer connection
      · refine .inl ?_
        show View.mk ((s.peerStates.insert peer _).lookup other) _ _ = _
        rw [Finmap.lookup_insert_of_ne _ heq]
        rfl
    · cases hnext
  | reportConnectionFailure peer reason =>
    simp only [ReconnectionManager.next] at hnext
    split at hnext
    · next hreporting =>
      obtain rfl := Option.some.inj hnext
      by_cases heq : other = peer
      · subst heq
        refine .inr ?_
        show View.Step config s.clock ⟨_, s.phase other, s.report other⟩
          ⟨(s.peerStates.insert other _).lookup other, s.phase other,
            if other = other then some .checking else none⟩
        rw [Finmap.lookup_insert, report_of_none hreporting, if_pos rfl]
        exact .report reason
      · refine .inl ?_
        show View.mk ((s.peerStates.insert peer _).lookup other) (s.phase other) _ =
          View.mk _ (s.phase other) (s.report other)
        rw [Finmap.lookup_insert_of_ne _ heq, report_of_none hreporting, report_of_ne rfl heq]
    · cases hnext
  | isReconnectionActive => exact view_report h hheeded hnext other
  | startReconnectionTask => exact view_startTask h hheeded hnext other
  | check task =>
    simp only [ReconnectionManager.next] at hnext
    split at hnext
    · next peer hreporting htask =>
      obtain rfl := Option.some.inj hnext
      refine h.step_phase htask ?_ other
      rw [h.view_task hreporting htask, report_of_none hreporting]
      unfold shouldContinue
      cases hst : s.peerStates.lookup peer with
      | none => exact .giveUp (by rintro _ ⟨⟩)
      | some st =>
        show View.Step config s.clock _ ⟨_, some (if (st.isReadyForRetry config s.clock &&
          decide (st.state ≠ .connected)) = true then _ else _), _⟩
        split_ifs with hcontinue
        · exact .goOn (Bool.and_eq_true_iff.mp hcontinue).1
        · refine .giveUp ?_
          rintro _ ⟨⟩ hready
          by_contra hne
          exact hcontinue (Bool.and_eq_true_iff.mpr ⟨hready, decide_eq_true hne⟩)
    · cases hnext
  | attempt task jitter =>
    simp only [ReconnectionManager.next] at hnext
    split at hnext
    · next peer hreporting htask =>
      obtain rfl := Option.some.inj hnext
      refine h.step_setPhase htask _ ?_ other
      rw [h.view_task hreporting htask, report_of_none hreporting]
      exact .attempt jitter
    · cases hnext
  | connected task outcome => exact view_connected h hheeded hnext other
  | sleep task =>
    simp only [ReconnectionManager.next] at hnext
    split at hnext
    · next peer hreporting htask =>
      obtain rfl := Option.some.inj hnext
      refine h.step_phase htask ?_ other
      rw [h.view_task hreporting htask, report_of_none hreporting]
      refine .sleep fun st hst => ?_
      rw [show s.peerStates.lookup peer = some st from hst]
      rfl
    · cases hnext
  | wake task =>
    simp only [ReconnectionManager.next] at hnext
    split at hnext
    · next peer wake htask =>
      split at hnext
      · next hwake =>
        obtain rfl := Option.some.inj hnext
        refine h.step_phase htask ?_ other
        rw [State.view, h.phase_eq htask]
        exact .wake hwake
      · cases hnext
    · cases hnext
  | remove task => exact view_remove h hnext other

lemma clock_le (hnext : next config s e = some s') : s.clock ≤ s'.clock := by
  cases e with
  | elapse duration =>
    obtain rfl := Option.some.inj hnext
    exact Nat.le_add_right _ _
  | connected task outcome =>
    obtain ⟨peer, since, -, -, rfl⟩ := connected_cases hnext
    cases outcome with
    | success connection => exact le_rfl
    | timeout => exact le_rfl
    | error message =>
      rw [handleOutcome]
      split
      · split
        · exact le_rfl
        · exact le_rfl
      · exact le_rfl
  | _ =>
    simp only [ReconnectionManager.next] at hnext
    split at hnext
    · first
      | obtain rfl := Option.some.inj hnext
        exact le_rfl
      | split at hnext
        · obtain rfl := Option.some.inj hnext
          exact le_rfl
        · cases hnext
    · cases hnext

/-! ## The runs -/

variable (config) in
/-- Every peer is as it should be. -/
structure Sound (s : State A C) : Prop where
  linked : Linked s
  fit : ∀ peer, (s.view peer).Fit config s.clock

lemma sound_start (clock : ℕ) : Sound config (State.start clock : State A C) where
  linked := linked_start clock
  fit peer := {
    lastAttempt_le := by rintro st ⟨⟩
    retryCount_le := by rintro st ⟨⟩
    attempting := by rintro ⟨⟩
    starting := fun _ => rfl
    retried := by rintro - st ⟨⟩
    givenUp := by rintro st ⟨⟩ }

lemma Sound.next (h : Sound config s) (hheeded : Heeded config s e)
    (hnext : next config s e = some s') : Sound config s' := by
  refine ⟨h.linked.next hnext, fun peer => ?_⟩
  have hle := clock_le hnext
  rcases view_next h.linked hheeded hnext peer with heq | hstep
  · rw [heq]
    exact (h.fit peer).elapse hle
  · exact ((h.fit peer).step hstep).elapse hle

lemma Sound.retrying (h : Sound config s) (hreporting : s.reporting = none) :
    Retrying config s := by
  intro peer st hst
  refine ⟨fun hstate hcount => ?_, fun hstate hmax hnot => ?_⟩
  · obtain ⟨phase, hphase, hwill⟩ :=
      (h.fit peer).retried (report_of_none hreporting) st hst hstate hcount
    obtain ⟨task, htask⟩ := h.linked.phase_eq_some_iff.mp hphase
    exact ⟨task, phase, htask, hwill⟩
  · refine (h.fit peer).givenUp st hst hstate hmax fun since hphase => ?_
    obtain ⟨task, htask⟩ := h.linked.phase_eq_some_iff.mp hphase
    exact hnot task since htask

/-- **Failed peers are being retried**, and those that have been retried too often are given up, in
every run in which reports find a task that will still attempt a connection, or start one when the
peer is ready, and no last attempt times out.

**Proof sketch.** A peer has one task at most, so that every step concerns one peer and its task. A
task that backs off sleeps until the peer is ready again, since the peer's last attempt was
earlier, and a peer that has been reported as failed is left alone until its task goes on. -/
theorem retrying_of_run {clock : ℕ}
    (hrun : Runs.Run (next config) (Heeded config) (State.start clock) s)
    (hreporting : s.reporting = none) : Retrying config s := by
  have h : Sound config s := Runs.Run.invariant hrun (sound_start clock)
    fun _ h hheeded hnext => h.next hheeded hnext
  exact h.retrying hreporting

/-- An attempt fails, and another failure is reported while the task backs off. -/
theorem retrying_of_run_twice : ∃ s : State ℕ Unit,
    Runs.exec (next .default) (Heeded .default) [.reportConnectionFailure 7 [],
      .isReconnectionActive, .startReconnectionTask, .check 0, .attempt 0 0,
      .connected 0 (.error []), .reportConnectionFailure 7 [], .isReconnectionActive]
      (State.start 0) = some s ∧ Retrying .default s := by
  have hexec : ((Runs.exec (next .default) (Heeded .default) [.reportConnectionFailure 7 [],
      .isReconnectionActive, .startReconnectionTask, .check 0, .attempt 0 0,
      .connected 0 (.error []), .reportConnectionFailure 7 [], .isReconnectionActive]
      (State.start 0 : State ℕ Unit)).map fun s => decide (s.reporting = none)) = some true := by
    decide +kernel
  obtain ⟨s, hs, hreporting⟩ := Option.map_eq_some_iff.mp hexec
  exact ⟨s, hs, retrying_of_run (Runs.run_of_exec hs) (of_decide_eq_true hreporting)⟩

/-- The connection fails as soon as it has been made: the last attempt was less than 100
milliseconds ago, so the new task gives up at once. -/
theorem not_retrying_recentSuccess : ¬ ∀ (config : ReconnectionConfig) (clock : ℕ)
    (s : State ℕ Unit), Runs.Run (next config) (fun _ _ => True) (State.start clock) s →
    s.reporting = none → Retrying config s := by
  intro h
  have hexec : ((Runs.exec (next .default) (fun _ _ => True) [.reportConnectionFailure 7 [],
      .isReconnectionActive, .startReconnectionTask, .check 0, .attempt 0 0,
      .connected 0 (.success ()), .remove 0, .reportConnectionFailure 7 [], .isReconnectionActive,
      .startReconnectionTask, .check 1, .remove 1] (State.start 0 : State ℕ Unit)).map fun s =>
        (decide (s.reporting = none),
          (s.peerStates.lookup 7).map fun st => (st.state, st.retryCount), s.tasks)) =
      some (true, some (.failed, 0), ∅) := by
    decide +kernel
  obtain ⟨s, hs, hend⟩ := Option.map_eq_some_iff.mp hexec
  simp only [Prod.mk.injEq, decide_eq_true_eq] at hend
  obtain ⟨hreporting, hpeer, htasks⟩ := hend
  obtain ⟨st, hst, hpair⟩ := Option.map_eq_some_iff.mp hpeer
  obtain ⟨hstate, hcount⟩ := Prod.mk.inj hpair
  obtain ⟨task, phase, htask, -⟩ := (h _ 0 s (Runs.run_of_exec hs) hreporting 7 st hst).1
    (.inl hstate) (hcount ▸ Nat.succ_pos 9)
  rw [htasks] at htask
  cases htask

end Views

end ReconnectionManager

end Landropic
