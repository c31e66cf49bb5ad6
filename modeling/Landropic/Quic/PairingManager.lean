import Landropic.Foundations.HashMap
import Landropic.Foundations.Lines

set_option autoImplicit false

/-!
# Pairing by passphrase

The manager keeps a context for every device that pairs: the passphrase it is to present, and how
far the pairing has come. A context does not look at its state before it verifies a passphrase, so
an attempt after a failed one can complete the pairing, and one after a completed one can undo it.

## Main definitions

* `PairingContext.verifyPassphrase` — one attempt.
* `PairingManager` — the manager, and its calls.
* `PairingRequest.latest` — the latest pairing of a device among some calls.
* `PairingManager.OutcomesFinal` — the first attempt decides.
* `PairingRequest.Alike` — no pairing has both a right and a wrong attempt.

## Main results

* `PairingManager.lookup_run` — what is kept of a device after any calls.
* `PairingManager.outcomesFinal_iff` — the first attempt decides exactly when all the attempts of a
  pairing are alike.

## Design

The calls hold the lock on the contexts from the moment they look one up until they have changed it,
so they come one after the other. The comparison in constant time belongs to the `subtle` crate and
is a parameter.
-/

namespace Landropic

/-- Simplified pairing state. -/
inductive PairingState
  /-- Waiting for passphrase. -/
  | waitingForPassphrase
  /-- Pairing completed. -/
  | completed
  /-- Pairing failed. -/
  | failed (reason : String)
  deriving DecidableEq

/-- The error of a pairing. -/
inductive PairingError
  | pairingError (msg : String)
  deriving DecidableEq

/-- Create a pairing failure error. -/
def PairingError.pairingFailed (reason : String) : PairingError :=
  .pairingError s!"Pairing failed: {reason}"

/-- Simplified pairing context: basic passphrase verification. -/
structure PairingContext where
  state : PairingState
  expectedPassphrase : Option Text
  deriving DecidableEq

/-- What is documented of the comparison in constant time: for slices of the same length, it says
whether they are equal. -/
def ComparesBytes (ctEq : Bytes → Bytes → Bool) : Prop :=
  ∀ a b : Bytes, a.length = b.length → (ctEq a b = true ↔ a = b)

section Calls

variable (ctEq : Bytes → Bytes → Bool)

namespace PairingContext

/-- Create new pairing context. -/
def new : PairingContext where
  state := .waitingForPassphrase
  expectedPassphrase := none

/-- Set expected passphrase for pairing. -/
def setPassphrase (context : PairingContext) (passphrase : Text) : PairingContext :=
  { context with expectedPassphrase := some passphrase }

/-- Whether the passphrase received is the expected one. For different lengths the source makes a
comparison too, and drops its result. -/
def passphraseMatches (expected received : Text) : Bool :=
  if expected.utf8.length = received.utf8.length then ctEq expected.utf8 received.utf8 else false

/-- Verify passphrase from peer. -/
def verifyPassphrase (context : PairingContext) (receivedPassphrase : Text) :
    Bool × PairingContext :=
  match context.expectedPassphrase with
  | some expected =>
    if passphraseMatches ctEq expected receivedPassphrase then
      (true, { context with state := .completed })
    else (false, { context with state := .failed "Passphrase mismatch" })
  | none => (false, { context with state := .failed "No passphrase set" })

/-- Check if pairing is complete. -/
def isComplete (context : PairingContext) : Bool := context.state = .completed

end PairingContext

/-- Simple pairing manager for basic passphrase-based pairing. -/
structure PairingManager where
  contexts : HashMap Text PairingContext

/-- A call of the pairing manager. -/
inductive PairingRequest
  | startPairing (deviceId passphrase : Text)
  | verifyPairing (deviceId passphrase : Text)
  deriving DecidableEq

namespace PairingManager

/-- A manager without contexts. -/
def new : PairingManager := ⟨∅⟩

/-- Start pairing with a device using passphrase. -/
def startPairing (m : PairingManager) (deviceId passphrase : Text) : PairingManager :=
  { m with contexts := m.contexts.insert deviceId (PairingContext.new.setPassphrase passphrase) }

/-- Verify pairing attempt. -/
def verifyPairing (m : PairingManager) (deviceId passphrase : Text) :
    Except PairingError Bool × PairingManager :=
  match m.contexts.lookup deviceId with
  | some context =>
    let (verdict, context) := context.verifyPassphrase ctEq passphrase
    (.ok verdict, { m with contexts := m.contexts.insert deviceId context })
  | none => (.error (.pairingFailed "No pairing context found"), m)

/-- Check if device is paired. -/
def isPaired (m : PairingManager) (deviceId : Text) : Bool :=
  match m.contexts.lookup deviceId with
  | some context => context.isComplete
  | none => false

/-- The manager after a call. -/
def apply (m : PairingManager) : PairingRequest → PairingManager
  | .startPairing deviceId passphrase => m.startPairing deviceId passphrase
  | .verifyPairing deviceId passphrase => (m.verifyPairing ctEq deviceId passphrase).2

/-- The manager after some calls. -/
def run (calls : List PairingRequest) : PairingManager := calls.foldl (apply ctEq) new

end PairingManager

end Calls

/-! ## The attempts of a pairing -/

namespace PairingRequest

/-- How a call changes the latest pairing of a device: its passphrase and the attempts so far. -/
def note (device : Text) (pairing : Option (Text × List Text)) :
    PairingRequest → Option (Text × List Text)
  | startPairing deviceId passphrase => if deviceId = device then some (passphrase, []) else pairing
  | verifyPairing deviceId passphrase =>
    if deviceId = device then pairing.map fun (expected, attempts) =>
      (expected, attempts ++ [passphrase])
    else pairing

/-- The latest pairing of a device among some calls: its passphrase and the attempts since it was
started, if it was. -/
def latest (device : Text) (calls : List PairingRequest) : Option (Text × List Text) :=
  calls.foldl (note device) none

/-- No pairing has both a right and a wrong attempt. -/
def Alike (calls : List PairingRequest) : Prop :=
  ∀ calls' device expected attempts, calls' <+: calls →
    latest device calls' = some (expected, attempts) →
      ∀ a ∈ attempts, ∀ b ∈ attempts, (a = expected ↔ b = expected)

lemma latest_concat (device : Text) (calls : List PairingRequest) (call : PairingRequest) :
    latest device (calls ++ [call]) = note device (latest device calls) call := by
  rw [latest, List.foldl_append]
  rfl

end PairingRequest

namespace PairingManager

open PairingRequest PairingContext

/-- The first attempt decides, and it does so for good: after any of the calls, a device is paired
if and only if the first attempt since its latest start presented the right passphrase. -/
def OutcomesFinal (ctEq : Bytes → Bytes → Bool) (calls : List PairingRequest) : Prop :=
  ∀ calls' device, calls' <+: calls → ((run ctEq calls').isPaired device = true ↔
    ∃ expected rest, latest device calls' = some (expected, expected :: rest))

/-- The context of a pairing: its last attempt has decided. -/
def contextOf (expected : Text) (attempts : List Text) : PairingContext where
  state := match attempts.getLast? with
    | none => .waitingForPassphrase
    | some a => if a = expected then .completed else .failed "Passphrase mismatch"
  expectedPassphrase := some expected

lemma isComplete_contextOf (expected : Text) (attempts : List Text) :
    (contextOf expected attempts).isComplete = true ↔ attempts.getLast? = some expected := by
  rw [isComplete, decide_eq_true_iff]
  cases hlast : attempts.getLast? with
  | none => simp [contextOf, hlast]
  | some a =>
    by_cases ha : a = expected
    · simp [contextOf, hlast, ha]
    · simp [contextOf, hlast, ha]

section Runs

variable {ctEq : Bytes → Bytes → Bool}

lemma passphraseMatches_iff (hctEq : ComparesBytes ctEq) (expected received : Text) :
    passphraseMatches ctEq expected received = true ↔ received = expected := by
  unfold passphraseMatches
  by_cases hlength : expected.utf8.length = received.utf8.length
  · rw [if_pos hlength, hctEq _ _ hlength]
    constructor
    · intro hbytes
      have htext := congrArg Text.fromUtf8 hbytes
      rw [Text.fromUtf8_utf8, Text.fromUtf8_utf8] at htext
      exact (Option.some.inj htext).symm
    · rintro rfl
      rfl
  · rw [if_neg hlength]
    refine iff_of_false Bool.false_ne_true fun h => hlength ?_
    rw [h]

lemma verifyPassphrase_contextOf (hctEq : ComparesBytes ctEq) (expected a : Text)
    (attempts : List Text) : ((contextOf expected attempts).verifyPassphrase ctEq a).2 =
      contextOf expected (attempts ++ [a]) := by
  have hlast : (attempts ++ [a]).getLast? = some a := List.getLast?_concat
  show (if passphraseMatches ctEq expected a = true then _ else _ : Bool × PairingContext).2 = _
  by_cases ha : a = expected
  · rw [if_pos ((passphraseMatches_iff hctEq expected a).mpr ha)]
    simp [contextOf, ha]
  · rw [if_neg (mt (passphraseMatches_iff hctEq expected a).mp ha)]
    simp [contextOf, ha]

lemma verifyPairing_of_lookup {m : PairingManager} {deviceId : Text} {context : PairingContext}
    (h : m.contexts.lookup deviceId = some context) (passphrase : Text) :
    (m.verifyPairing ctEq deviceId passphrase).2.contexts =
      m.contexts.insert deviceId (context.verifyPassphrase ctEq passphrase).2 := by
  rw [verifyPairing, h]

/-- A call changes what is kept of a device as it changes its latest pairing. -/
lemma lookup_apply (hctEq : ComparesBytes ctEq) {m : PairingManager} {device : Text}
    {pairing : Option (Text × List Text)}
    (h : m.contexts.lookup device = pairing.map fun p => contextOf p.1 p.2)
    (call : PairingRequest) :
    (m.apply ctEq call).contexts.lookup device =
      (note device pairing call).map fun p => contextOf p.1 p.2 := by
  cases call with
  | startPairing deviceId passphrase =>
    show (m.contexts.insert deviceId _).lookup device = _
    by_cases hdevice : deviceId = device
    · subst hdevice
      rw [Finmap.lookup_insert, note, if_pos rfl]
      rfl
    · rw [Finmap.lookup_insert_of_ne _ (Ne.symm hdevice), h, note, if_neg hdevice]
  | verifyPairing deviceId passphrase =>
    show (m.verifyPairing ctEq deviceId passphrase).2.contexts.lookup device = _
    rw [note]
    by_cases hdevice : deviceId = device
    · subst hdevice
      rw [if_pos rfl]
      cases pairing with
      | none =>
        rw [verifyPairing, h]
        exact h
      | some pairing =>
        rw [verifyPairing_of_lookup h, Finmap.lookup_insert, verifyPassphrase_contextOf hctEq]
        rfl
    · rw [if_neg hdevice, ← h]
      cases hlookup : m.contexts.lookup deviceId with
      | none => rw [verifyPairing, hlookup]
      | some context =>
        rw [verifyPairing_of_lookup hlookup, Finmap.lookup_insert_of_ne _ (Ne.symm hdevice)]

/-- **What is kept of a device** after any calls is the context of its latest pairing.

**Proof sketch.** Induction on the calls: a start replaces the context, an attempt decides it anew,
and calls for other devices leave it alone. -/
theorem lookup_run (hctEq : ComparesBytes ctEq) (calls : List PairingRequest) (device : Text) :
    (run ctEq calls).contexts.lookup device =
      (latest device calls).map fun p => contextOf p.1 p.2 := by
  induction calls using List.reverseRecOn with
  | nil => rfl
  | append_singleton calls call ih =>
    rw [run, List.foldl_append, latest_concat]
    exact lookup_apply hctEq ih call

lemma isPaired_run_iff (hctEq : ComparesBytes ctEq) (calls : List PairingRequest) (device : Text) :
    (run ctEq calls).isPaired device = true ↔ ∃ expected attempts,
      latest device calls = some (expected, attempts) ∧ attempts.getLast? = some expected := by
  rw [isPaired, lookup_run hctEq]
  cases latest device calls with
  | none => exact iff_of_false Bool.false_ne_true nofun
  | some pairing =>
    obtain ⟨expected, attempts⟩ := pairing
    show (contextOf expected attempts).isComplete = true ↔ _
    rw [isComplete_contextOf]
    constructor
    · exact fun hlast => ⟨expected, attempts, rfl, hlast⟩
    · rintro ⟨_, _, heq, hlast⟩
      cases heq
      exact hlast

/-- After an attempt, the first one has decided if both were right or both were wrong. -/
lemma isPaired_run_iff_first (hctEq : ComparesBytes ctEq) {calls : List PairingRequest}
    {device expected first last : Text} {attempts : List Text}
    (hlatest : latest device calls = some (expected, attempts))
    (hfirst : attempts.head? = some first) (hlast : attempts.getLast? = some last) :
    ((run ctEq calls).isPaired device = true ↔
        ∃ expected rest, latest device calls = some (expected, expected :: rest)) ↔
      (last = expected ↔ first = expected) := by
  obtain ⟨rest, rfl⟩ := List.head?_eq_some_iff.mp hfirst
  have hpaired : (run ctEq calls).isPaired device = true ↔ last = expected := by
    rw [isPaired_run_iff hctEq, hlatest]
    constructor
    · rintro ⟨_, _, heq, hlast'⟩
      cases heq
      exact Option.some.inj (hlast.symm.trans hlast')
    · rintro rfl
      exact ⟨_, _, rfl, hlast⟩
  have hright : (∃ expected rest, latest device calls = some (expected, expected :: rest)) ↔
      first = expected := by
    rw [hlatest]
    constructor
    · rintro ⟨_, _, heq⟩
      cases heq
      rfl
    · rintro rfl
      exact ⟨_, _, rfl⟩
  rw [hpaired, hright]

/-- Where the first attempt decides after every call, every attempt is as right as the first one. -/
lemma OutcomesFinal.eq_iff_first (hctEq : ComparesBytes ctEq) {calls : List PairingRequest}
    (h : OutcomesFinal ctEq calls) {calls' : List PairingRequest} (hbegins : calls' <+: calls)
    {device expected first : Text} {rest : List Text}
    (hlatest : latest device calls' = some (expected, first :: rest)) :
    ∀ a ∈ first :: rest, (a = expected ↔ first = expected) := by
  induction calls' using List.reverseRecOn generalizing rest with
  | nil => cases hlatest
  | append_singleton calls' call ih =>
    have hbegins' := (List.prefix_append calls' [call]).trans hbegins
    have hnote := hlatest
    rw [latest_concat] at hnote
    cases call with
    | startPairing deviceId passphrase =>
      rw [note] at hnote
      split at hnote
      · cases hnote
      · exact ih hbegins' hnote
    | verifyPairing deviceId passphrase =>
      rw [note] at hnote
      split at hnote
      · obtain ⟨⟨expected', attempts⟩, hbefore, heq⟩ := Option.map_eq_some_iff.mp hnote
        obtain ⟨rfl, hattempts⟩ := Prod.mk.inj heq
        have hdecided := (isPaired_run_iff_first hctEq hlatest rfl
          (hattempts ▸ List.getLast?_concat)).mp (h _ device hbegins)
        intro a ha
        rw [← hattempts] at ha
        rcases List.mem_append.mp ha with ha | ha
        · -- an earlier attempt, so the first one was there before
          cases attempts with
          | nil => cases ha
          | cons first' attempts =>
            obtain ⟨rfl, -⟩ := List.cons.inj hattempts
            exact ih hbegins' hbefore a ha
        · rw [List.mem_singleton.mp ha]
          exact hdecided
      · exact ih hbegins' hnote

/-- **The first attempt decides exactly when all the attempts of a pairing are alike**, all right or
all wrong.

**Proof sketch.** A device is paired when the last attempt was right. So if the first attempt has
decided after every call, the attempt of that call was right exactly if the first one was. -/
theorem outcomesFinal_iff (hctEq : ComparesBytes ctEq) (calls : List PairingRequest) :
    OutcomesFinal ctEq calls ↔ Alike calls := by
  constructor
  · intro hfinal calls' device expected attempts hbegins hlatest a ha b hb
    cases attempts with
    | nil => cases ha
    | cons first rest =>
      have hfirst := hfinal.eq_iff_first hctEq hbegins hlatest
      rw [hfirst a ha, hfirst b hb]
  · intro halike calls' device hbegins
    cases hlatest : latest device calls' with
    | none =>
      rw [isPaired_run_iff hctEq, hlatest]
      exact iff_of_false nofun nofun
    | some pairing =>
      obtain ⟨expected, attempts⟩ := pairing
      cases attempts with
      | nil =>
        rw [isPaired_run_iff hctEq, hlatest]
        refine iff_of_false ?_ nofun
        rintro ⟨_, _, heq, hlast⟩
        cases heq
        cases hlast
      | cons first rest =>
        have hne : first :: rest ≠ [] := List.cons_ne_nil _ _
        rw [← hlatest]
        exact (isPaired_run_iff_first hctEq hlatest rfl (List.getLast?_eq_some_getLast hne)).mpr
          (halike _ _ _ _ hbegins hlatest _ (List.getLast_mem hne) _ List.mem_cons_self)

end Runs

/-- The calls of a pairing that is completed by its second attempt. -/
def secondGuess : List PairingRequest :=
  [.startPairing ['d'] ['a'], .verifyPairing ['d'] ['b'], .verifyPairing ['d'] ['a']]

/-- The second attempt completes a pairing whose first one failed. -/
theorem not_outcomesFinal_secondGuess :
    ¬ OutcomesFinal (fun a b => decide (a = b)) secondGuess := by
  intro h
  obtain ⟨expected, rest, hlatest⟩ := (h secondGuess ['d'] List.prefix_rfl).mp (by decide)
  cases hlatest

/-- Two wrong attempts leave a pairing failed. -/
theorem outcomesFinal_iff_twoWrong :
    OutcomesFinal (fun a b => decide (a = b))
      [.startPairing ['d'] ['a'], .verifyPairing ['d'] ['b'], .verifyPairing ['d'] ['c']] ↔
    Alike [.startPairing ['d'] ['a'], .verifyPairing ['d'] ['b'], .verifyPairing ['d'] ['c']] :=
  outcomesFinal_iff (fun _ _ _ => decide_eq_true_iff) _

end PairingManager

end Landropic
