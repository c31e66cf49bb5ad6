import Landropic.Crypto.Certificates
import Landropic.Foundations.Pool
import Landropic.Foundations.RwLock

set_option autoImplicit false

/-!
# Pairing once

A verifier for pairing accepts one certificate, within a time after it was made. Whether it has been
used is checked and marked under locks, but the locks are dropped in between.

## Main definitions

* `SecurePairingCertVerifier` — the verifier.
* `PairingTask.isPairingWindowValid`, `markUsed`, `verifyServerCert` — its functions, as processes.
* `PairingPool.PairsOnce` — the verifier pairs once, and in time.
* `PairingPool.Alone` — no other call has checked the verifier and not yet marked it.

## Main results

* `PairingPool.late_of_run` — a call that starts too late does not accept.
* `PairingPool.pairsOnce_of_run` — the verifier pairs once if calls check it alone.

## Design

Time passes with every action, by as much as the input of the action says, and is counted in
nanoseconds. Nothing is assumed about who gets a lock that several calls wait for. What a guard
shows is read when the guard is taken, since nobody can change it until it is dropped. -/

namespace Landropic

/-- Time-limited certificate verifier for secure device pairing. -/
structure SecurePairingCertVerifier where
  pairingStart : Option ℤ
  pairingWindow : ℤ
  used : Bool
  deriving DecidableEq

/-- Create a new secure pairing verifier. -/
def SecurePairingCertVerifier.new (now pairingWindow : ℤ) : SecurePairingCertVerifier where
  pairingStart := some now
  pairingWindow := pairingWindow
  used := false

/-- The locks of the verifier. -/
inductive PairingLock
  | pairingStart
  | used
  deriving DecidableEq

/-- What a call is about to do. -/
inductive PairingOp
  /-- Take a lock. -/
  | enter (lock : PairingLock) (mode : LockMode)
  /-- Drop the guard of a lock, with what the check of the verifier has found, if it was taken for
  that. -/
  | leave (lock : PairingLock) (valid : Option Bool)
  | readClock
  | setUsed
  | clearStart
  deriving DecidableEq

/-- A verifier that several calls use, and the time. -/
structure SharedPairing (κ : Type) where
  verifier : SecurePairingCertVerifier
  locks : PairingLock → RwLock κ
  now : ℤ

namespace SharedPairing

variable {κ : Type} (s : SharedPairing κ)

/-- Time passes. -/
def pass (elapsed : ℕ) : SharedPairing κ := { s with now := s.now + elapsed }

/-- Change a lock. -/
def onLock (lock : PairingLock) (f : RwLock κ → RwLock κ) : SharedPairing κ :=
  { s with locks := Function.update s.locks lock (f (s.locks lock)) }

end SharedPairing

/-- A part of the code of a call. -/
abbrev PairingTask (κ α : Type) := Proc (SharedPairing κ) ℕ PairingOp CertificateError α

/-- The certificates that a call gets, and the time that the handshake sees. -/
structure PairingCall where
  endEntity : CertificateDer
  intermediates : List CertificateDer
  now : UInt64
  deriving DecidableEq

/-- The checks of the certificate: it can be read, is valid now, and is alone. -/
def PairingCall.check (fromDer : Bytes → Option X509Certificate) (call : PairingCall) :
    Except CertificateError Unit :=
  match fromDer call.endEntity with
  | none => .error .badEncoding
  | some cert => do
    checkValidity cert call.now
    if call.intermediates ≠ [] then throw .badEncoding

namespace PairingTask

open Proc

variable {κ : Type} [DecidableEq κ] (t : κ)

/-- Take a lock as soon as those who hold it allow that, and look at the verifier. -/
def acquire (lock : PairingLock) (mode : LockMode) : PairingTask κ SecurePairingCertVerifier :=
  .act (.enter lock mode) (fun s => (s.locks lock).admits mode)
    (fun elapsed s => (s.pass elapsed).onLock lock fun L => L.enter t mode)
    fun _ s => .ret (.ok s.verifier)

/-- Drop the guard of a lock. -/
def release (lock : PairingLock) (valid : Option Bool) : PairingTask κ Unit :=
  atom (.leave lock valid) fun elapsed s =>
    (.ok (), (s.pass elapsed).onLock lock fun L => L.leave t)

/-- Read the clock. -/
def readClock : PairingTask κ ℤ :=
  atom .readClock fun elapsed s => (.ok (s.now + elapsed), s.pass elapsed)

/-- Change the verifier. -/
def change (op : PairingOp) (f : SecurePairingCertVerifier → SecurePairingCertVerifier) :
    PairingTask κ Unit :=
  atom op fun elapsed s => (.ok (), { s.pass elapsed with verifier := f s.verifier })

/-- The end of the check: the guards are dropped in the reverse order. -/
def releaseBoth (valid : Bool) : PairingTask κ Bool := do
  release t .used (some valid)
  release t .pairingStart (some valid)
  pure valid

/-- The check of the pairing window, when the guard of its start has been taken. -/
def checkWindow (pairingStart : Option ℤ) : PairingTask κ Bool := do
  let v ← acquire t .used .read
  if v.used then releaseBoth t false
  else
    match pairingStart with
    | some startTime => do
      let now ← readClock
      releaseBoth t (now - startTime < v.pairingWindow)
    | none => releaseBoth t false

/-- Check if the pairing window is still valid. -/
def isPairingWindowValid : PairingTask κ Bool := do
  let v ← acquire t .pairingStart .read
  checkWindow t v.pairingStart

/-- Disable the verifier permanently after first use. -/
def markUsed : PairingTask κ Unit := do
  let _ ← acquire t .used .write
  change .setUsed fun v => { v with used := true }
  let _ ← acquire t .pairingStart .write
  change .clearStart fun v => { v with pairingStart := none }
  release t .pairingStart none
  release t .used none

/-- What follows the check of the pairing window. -/
def conclude (fromDer : Bytes → Option X509Certificate) (call : PairingCall) (valid : Bool) :
    PairingTask κ Unit :=
  if ¬ valid then
    fail (.other (.certificateValidation "Pairing window has expired or verifier has been used"))
  else do
    ofExcept (call.check fromDer)
    markUsed t

/-- Verify the certificate of a server during pairing. -/
def verifyServerCert (fromDer : Bytes → Option X509Certificate) (call : PairingCall) :
    PairingTask κ Unit := do
  let valid ← isPairingWindowValid t
  conclude t fromDer call valid

end PairingTask

/-- Calls that verify certificates during pairing. -/
abbrev PairingPool (κ : Type) := Pool κ (SharedPairing κ) ℕ PairingOp CertificateError Unit

namespace PairingPool

open Proc PairingTask

variable {κ : Type} [DecidableEq κ] {fromDer : Bytes → Option X509Certificate}
  {calls : κ → PairingCall} {start window : ℤ}

/-- Calls of a verifier that has just been made. -/
def new (fromDer : Bytes → Option X509Certificate) (calls : κ → PairingCall) (start window : ℤ) :
    PairingPool κ where
  state := ⟨.new start window, fun _ => .free, start⟩
  task t := verifyServerCert t fromDer (calls t)

/-- The verifier pairs once, and in time: at most one call accepts, and none that takes its first
action when the pairing window has elapsed. -/
def PairsOnce (fromDer : Bytes → Option X509Certificate) (calls : κ → PairingCall)
    (start window : ℤ) (P : PairingPool κ) : Prop :=
  (∀ t u, P.task t = .ret (.ok ()) → P.task u = .ret (.ok ()) → t = u) ∧
    ∀ t i P₁ P', P.task t = verifyServerCert t fromDer (calls t) → P.advance t i = some P₁ →
      start + window ≤ P₁.state.now → Pool.Run (fun _ _ _ => True) P₁ P' →
        P'.task t ≠ .ret (.ok ())

/-- A call that is about to do this has found the verifier unused, has not found that the pairing
window has expired, and has not marked the verifier. -/
def Pending : PairingOp → Prop
  | .readClock => True
  | .leave _ valid => valid = some true
  | .enter lock mode => lock = .used ∧ mode = .write
  | .setUsed => True
  | .clearStart => False

instance : DecidablePred Pending
  | .readClock | .setUsed => isTrue trivial
  | .leave _ valid => inferInstanceAs (Decidable (valid = some true))
  | .enter lock mode => inferInstanceAs (Decidable (lock = .used ∧ mode = .write))
  | .clearStart => isFalse not_false

/-- A call with a valid certificate checks whether the verifier has been used only when no other
call with a valid certificate has checked that and is still to mark it. -/
def Alone (fromDer : Bytes → Option X509Certificate) (calls : κ → PairingCall) (P : PairingPool κ)
    (t : κ) (_ : ℕ) : Prop :=
  (P.task t).head = some (.enter .used .read) → (calls t).check fromDer = .ok () →
    ∀ u ≠ t, (calls u).check fromDer = .ok () → ∀ op, (P.task u).head = some op → ¬ Pending op

instance [Fintype κ] {fromDer : Bytes → Option X509Certificate} {calls : κ → PairingCall}
    {P : PairingPool κ} {t : κ} {elapsed : ℕ} : Decidable (Alone fromDer calls P t elapsed) :=
  inferInstanceAs (Decidable (_ → _ → ∀ u ≠ t, _ → ∀ op ∈ (P.task u).head, ¬ Pending op))

/-! ## What a call does -/

/-- How far a call is. -/
inductive PairingPhase
  | checking
  /-- It has found the verifier unused, and nothing against the certificate. -/
  | checked
  | marked
  | refused
  deriving DecidableEq

/-- What the actions of a call do. -/
inductive Moves (accepts : Prop) (b : PairingPhase) (op : PairingOp) (s s' : SharedPairing κ) :
    PairingPhase → Prop
  | check : op = .enter .used .read → b = .checking → s.verifier.used ≠ true →
      s'.verifier.used = s.verifier.used → Moves accepts b op s s' .checked
  | turnAway : op = .enter .used .read → b = .checking →
      s'.verifier.used = s.verifier.used → Moves accepts b op s s' .refused
  | mark : op = .setUsed → accepts → b = .checked → s'.verifier.used = true →
      Moves accepts b op s s' .marked
  | stay : op ≠ .enter .used .read → (b = .checked → Pending op) →
      s'.verifier.used = s.verifier.used → Moves accepts b op s s' b
  | refuse : b = .checked → Pending op → s'.verifier.used = s.verifier.used →
      Moves accepts b op s s' .refused

/-- How far a call is when it has ended. -/
def Ends (accepts : Prop) (r : Except CertificateError Unit) (b : PairingPhase) : Prop :=
  (r = .ok () → b = .marked) ∧ (accepts → b ≠ .checked)

section Tracks

variable {accepts : Prop} {b : PairingPhase} {t : κ}

omit [DecidableEq κ] in
/-- Taking a lock changes nothing, unless it is for the check. -/
lemma tracks_acquire {Q : Except CertificateError SecurePairingCertVerifier → PairingPhase → Prop}
    {lock : PairingLock} {mode : LockMode} (hop : PairingOp.enter lock mode ≠ .enter .used .read)
    (hpending : b = .checked → Pending (.enter lock mode)) (h : ∀ v, Q (.ok v) b) :
    Tracks (Moves accepts) Q b (acquire t lock mode) :=
  fun _ s _ => ⟨b, .stay hop hpending rfl, h s.verifier⟩

lemma tracks_release {Q : Except CertificateError Unit → PairingPhase → Prop} {lock : PairingLock}
    {valid : Option Bool} (hpending : b = .checked → valid = some true) (h : Q (.ok ()) b) :
    Tracks (Moves accepts) Q b (release t lock valid) :=
  .atom fun _ _ => ⟨b, .stay nofun hpending rfl, h⟩

lemma tracks_releaseBoth {Q : Except CertificateError Bool → PairingPhase → Prop} {valid : Bool}
    (hpending : b = .checked → valid = true) (h : Q (.ok valid) b) :
    Tracks (Moves accepts) Q b (releaseBoth t valid) := by
  have hfound : b = .checked → some valid = some true := fun hb => congrArg some (hpending hb)
  exact .bind (tracks_release hfound (.bind (tracks_release hfound h)))

lemma tracks_checkWindow {Q : Except CertificateError Bool → PairingPhase → Prop}
    (pairingStart : Option ℤ) (hvalid : Q (.ok true) .checked) (hinvalid : Q (.ok false) .refused) :
    Tracks (Moves accepts) Q .checking (checkWindow t pairingStart) := by
  refine Tracks.bind fun _ s _ => ?_
  by_cases hused : s.verifier.used = true
  · refine ⟨.refused, .turnAway rfl rfl rfl, ?_⟩
    show Tracks _ Q _ (if s.verifier.used then _ else _)
    rw [if_pos hused]
    exact tracks_releaseBoth nofun hinvalid
  cases pairingStart with
  | none =>
    refine ⟨.refused, .turnAway rfl rfl rfl, ?_⟩
    show Tracks _ Q _ (if s.verifier.used then _ else _)
    rw [if_neg hused]
    exact tracks_releaseBoth nofun hinvalid
  | some startTime =>
    refine ⟨.checked, .check rfl rfl hused rfl, ?_⟩
    show Tracks _ Q _ (if s.verifier.used then _ else _)
    rw [if_neg hused]
    refine .bind (.atom fun elapsed s' => ?_)
    by_cases hlate : s'.now + elapsed - startTime < s.verifier.pairingWindow
    · refine ⟨.checked, .stay nofun (fun _ => trivial) rfl, ?_⟩
      exact tracks_releaseBoth (fun _ => decide_eq_true hlate) (decide_eq_true hlate ▸ hvalid)
    · refine ⟨.refused, .refuse rfl trivial rfl, ?_⟩
      exact tracks_releaseBoth nofun (decide_eq_false hlate ▸ hinvalid)

lemma tracks_markUsed (haccepts : accepts) :
    Tracks (Moves accepts) (Ends accepts) .checked (markUsed t) := by
  refine .bind (tracks_acquire nofun (fun _ => ⟨rfl, rfl⟩) fun _ => ?_)
  refine .bind (.atom fun _ _ => ⟨.marked, .mark rfl haccepts rfl rfl, ?_⟩)
  refine .bind (tracks_acquire nofun nofun fun _ => ?_)
  refine .bind (.atom fun _ _ => ⟨.marked, .stay nofun nofun rfl, ?_⟩)
  exact .bind (tracks_release nofun (tracks_release nofun ⟨fun _ => rfl, nofun⟩))

/-- **What a call does**: it checks the verifier, and marks it if it accepts. -/
lemma tracks_verifyServerCert (call : PairingCall) :
    Tracks (Moves (call.check fromDer = .ok ())) (Ends (call.check fromDer = .ok ())) .checking
      (verifyServerCert t fromDer call) := by
  refine .bind (.bind (tracks_acquire nofun nofun fun v => ?_))
  refine tracks_checkWindow v.pairingStart ?_ ⟨nofun, nofun⟩
  show Tracks _ _ _ (ofExcept (call.check fromDer) >>= fun _ => markUsed t)
  cases hcheck : call.check fromDer with
  | error e => exact ⟨nofun, nofun⟩
  | ok u => exact tracks_markUsed rfl

lemma enabled_verifyServerCert (call : PairingCall) :
    Enabled (verifyServerCert t fromDer call) := by
  have hstate : Nonempty (SharedPairing κ) := ⟨⟨.new 0 0, fun _ => .free, 0⟩⟩
  have hacquire (lock : PairingLock) (mode : LockMode) : Enabled (acquire t lock mode) :=
    ⟨⟨⟨.new 0 0, fun _ => .free, 0⟩, rfl⟩, fun _ _ => trivial⟩
  have hboth (valid : Bool) : Enabled (releaseBoth t valid) :=
    Enabled.atom.bind fun _ => Enabled.atom.bind fun _ => trivial
  have hwindow (pairingStart : Option ℤ) : Enabled (checkWindow t pairingStart) := by
    refine (hacquire _ _).bind fun v => ?_
    split
    · exact hboth false
    · cases pairingStart with
      | none => exact hboth false
      | some startTime => exact Enabled.atom.bind fun _ => hboth _
  have hmark : Enabled (markUsed t) :=
    (hacquire _ _).bind fun _ => Enabled.atom.bind fun _ => (hacquire _ _).bind fun _ =>
      Enabled.atom.bind fun _ => Enabled.atom.bind fun _ => Enabled.atom
  refine Enabled.bind ((hacquire _ _).bind fun v => hwindow v.pairingStart) fun valid => ?_
  cases valid with
  | false => trivial
  | true =>
    show Enabled (ofExcept (call.check fromDer) >>= fun _ => markUsed t)
    cases call.check fromDer with
    | error e => trivial
    | ok u => exact hmark

end Tracks

/-! ## Runs of calls that check alone -/

/-- Where the calls are: the verifier has been used if one of them has marked it, and of the calls
with a valid certificate one at most has checked the verifier. -/
structure Placed (fromDer : Bytes → Option X509Certificate) (calls : κ → PairingCall)
    (P : PairingPool κ) (phase : κ → PairingPhase) : Prop where
  tracks : ∀ t, Tracks (Moves ((calls t).check fromDer = .ok ()))
    (Ends ((calls t).check fromDer = .ok ())) (phase t) (P.task t)
  enabled : ∀ t, Enabled (P.task t)
  accepts : ∀ t, phase t = .marked → (calls t).check fromDer = .ok ()
  used : ∀ t, phase t = .marked → P.state.verifier.used = true
  alone : ∀ t u, phase t = .checked ∨ phase t = .marked → phase u = .checked ∨ phase u = .marked →
    (calls t).check fromDer = .ok () → (calls u).check fromDer = .ok () → t = u

variable {P P' : PairingPool κ} {phase : κ → PairingPhase} {t : κ} {i : ℕ}

omit [DecidableEq κ] in
lemma Placed.exists_pending (h : Placed fromDer calls P phase) {u : κ} (hphase : phase u = .checked)
    (hcheck : (calls u).check fromDer = .ok ()) : ∃ op, (P.task u).head = some op ∧ Pending op := by
  cases htask : P.task u with
  | ret r =>
    have hends := h.tracks u
    rw [htask] at hends
    exact absurd hphase (hends.2 hcheck)
  | act op ready eff next =>
    have hhead : (P.task u).head = some op := by rw [htask]; rfl
    obtain ⟨s, s', b', hmoves⟩ := (h.tracks u).of_head (h.enabled u) hhead
    refine ⟨op, by rw [← htask, hhead], ?_⟩
    rw [hphase] at hmoves
    cases hmoves with
    | check _ hchecking => cases hchecking
    | turnAway _ hchecking => cases hchecking
    | mark hop => exact hop ▸ trivial
    | stay _ hpending => exact hpending rfl
    | refuse _ hpending => exact hpending

variable {s s' : SharedPairing κ}

omit [DecidableEq κ] in
lemma Moves.used {accepts : Prop} {b b' : PairingPhase} {op : PairingOp}
    (h : Moves accepts b op s s' b') (hused : s.verifier.used = true) :
    s'.verifier.used = true := by
  cases h with
  | check _ _ _ hsame => rwa [hsame]
  | turnAway _ _ hsame => rwa [hsame]
  | mark _ _ _ hmarked => exact hmarked
  | stay _ _ hsame => rwa [hsame]
  | refuse _ _ hsame => rwa [hsame]

omit [DecidableEq κ] in
lemma Moves.of_marked {accepts : Prop} {b : PairingPhase} {op : PairingOp}
    (h : Moves accepts b op s s' .marked) : b = .marked ∨ accepts ∧ s'.verifier.used = true := by
  cases h with
  | mark _ haccepts _ hmarked => exact .inr ⟨haccepts, hmarked⟩
  | stay => exact .inl rfl

omit [DecidableEq κ] in
/-- A call is checked or marked because it was before, or because it now finds the verifier unused.
-/
lemma Moves.of_active {accepts : Prop} {b b' : PairingPhase} {op : PairingOp}
    (h : Moves accepts b op s s' b') (hb' : b' = .checked ∨ b' = .marked) :
    (b = .checked ∨ b = .marked) ∨ op = .enter .used .read ∧ s.verifier.used ≠ true := by
  cases h with
  | check hop _ hunused => exact .inr ⟨hop, hunused⟩
  | turnAway => simp at hb'
  | mark _ _ hchecked => exact .inl (.inl hchecked)
  | stay => exact .inl hb'
  | refuse => simp at hb'

/-- **One step.** A call finds the verifier unused only if no other one has marked it, nor is going
to. -/
lemma Placed.step (h : Placed fromDer calls P phase) (halone : Alone fromDer calls P t i)
    (hstep : Pool.Step P t i P') : ∃ phase', Placed fromDer calls P' phase' := by
  obtain ⟨op, b', hhead, hmoves, htracks⟩ := (h.tracks t).step hstep.proc
  refine ⟨Function.update phase t b', fun u => ?_, fun u => ?_, fun u hu => ?_, fun u hu => ?_,
    fun u v hu hv hcu hcv => ?_⟩
  · by_cases hut : u = t
    · subst hut
      rwa [Function.update_self]
    · rw [Function.update_of_ne hut, hstep.task_of_ne hut]
      exact h.tracks u
  · by_cases hut : u = t
    · subst hut
      exact (h.enabled u).step hstep.proc
    · rw [hstep.task_of_ne hut]
      exact h.enabled u
  · by_cases hut : u = t
    · subst hut
      rw [Function.update_self] at hu
      subst hu
      exact hmoves.of_marked.elim (h.accepts u) And.left
    · rw [Function.update_of_ne hut] at hu
      exact h.accepts u hu
  · by_cases hut : u = t
    · subst hut
      rw [Function.update_self] at hu
      subst hu
      exact hmoves.of_marked.elim (fun hmarked => hmoves.used (h.used u hmarked)) And.right
    · rw [Function.update_of_ne hut] at hu
      exact hmoves.used (h.used u hu)
  · -- another call is neither going to mark the verifier nor has marked it
    have hother : ∀ w ≠ t, (calls w).check fromDer = .ok () →
        phase w = .checked ∨ phase w = .marked → (calls t).check fromDer = .ok () →
        ¬ (b' = .checked ∨ b' = .marked) := by
      intro w hwt hcw hw hct hb'
      obtain hactive | ⟨rfl, hunused⟩ := hmoves.of_active hb'
      · exact hwt (h.alone w t hw hactive hcw hct)
      obtain hchecked | hmarked := hw
      · obtain ⟨op, hop, hpending⟩ := h.exists_pending hchecked hcw
        exact halone hhead hct w hwt hcw op hop hpending
      · exact hunused (h.used w hmarked)
    by_cases hut : u = t
    · subst hut
      by_cases hvt : v = u
      · exact hvt.symm
      · rw [Function.update_self] at hu
        rw [Function.update_of_ne hvt] at hv
        exact absurd hu (hother v hvt hcv hv hcu)
    · rw [Function.update_of_ne hut] at hu
      by_cases hvt : v = t
      · subst hvt
        rw [Function.update_self] at hv
        exact absurd hv (hother u hut hcu hu hcv)
      · rw [Function.update_of_ne hvt] at hv
        exact h.alone u v hu hv hcu hcv

/-! ## Calls that start too late -/

/-- What every action does: time passes, and the start of the pairing window stays or is cleared. -/
structure Forward (s s' : SharedPairing κ) : Prop where
  now : s.now ≤ s'.now
  pairingWindow : s'.verifier.pairingWindow = s.verifier.pairingWindow
  pairingStart : s'.verifier.pairingStart = s.verifier.pairingStart ∨
    s'.verifier.pairingStart = none

omit [DecidableEq κ] in
lemma Forward.refl (s : SharedPairing κ) : Forward s s := ⟨le_rfl, rfl, .inl rfl⟩

omit [DecidableEq κ] in
lemma Forward.trans {s'' : SharedPairing κ} (h : Forward s s') (h' : Forward s' s'') :
    Forward s s'' where
  now := h.now.trans h'.now
  pairingWindow := h'.pairingWindow.trans h.pairingWindow
  pairingStart := h'.pairingStart.elim (fun h' => h' ▸ h.pairingStart) .inr

/-- The other calls let time pass. -/
def forward (κ : Type) : Spec (SharedPairing κ) ℕ PairingOp where
  env _ := Forward
  env_refl _ := .refl
  env_trans := .trans
  input _ _ _ := True
  guar _ := Forward
  progress := False

omit [DecidableEq κ] in
lemma forward_pass {elapsed : ℕ} (hnow : s'.now = s.now + elapsed)
    (hwindow : s'.verifier.pairingWindow = s.verifier.pairingWindow)
    (hstart : s'.verifier.pairingStart = s.verifier.pairingStart ∨
      s'.verifier.pairingStart = none) : Forward s s' :=
  ⟨by omega, hwindow, hstart⟩

lemma guarantees_verifyServerCert (t : κ) (call : PairingCall) :
    Guarantees (fun _ => Forward) (fun _ => True) (verifyServerCert t fromDer call) := by
  have hacquire (lock : PairingLock) (mode : LockMode) :
      Guarantees (fun _ => Forward) (fun _ => True) (acquire t lock mode) :=
    fun _ _ _ => ⟨forward_pass rfl rfl (.inl rfl), trivial⟩
  have hrelease (lock : PairingLock) (valid : Option Bool) :
      Guarantees (fun _ => Forward) (fun _ => True) (release t lock valid) :=
    .atom fun _ _ => ⟨forward_pass rfl rfl (.inl rfl), trivial⟩
  have hboth (valid : Bool) :
      Guarantees (fun _ => Forward) (fun _ => True) (releaseBoth t valid) :=
    (hrelease _ _).bind (fun _ _ => trivial) fun _ _ =>
      (hrelease _ _).bind (fun _ _ => trivial) fun _ _ => trivial
  have hwindow (pairingStart : Option ℤ) :
      Guarantees (fun _ => Forward) (fun _ => True) (checkWindow t pairingStart) := by
    refine (hacquire _ _).bind (fun _ _ => trivial) fun v _ => ?_
    split
    · exact hboth false
    · cases pairingStart with
      | none => exact hboth false
      | some startTime =>
        exact Guarantees.bind (Q := fun _ => True)
          (.atom fun _ _ => ⟨forward_pass rfl rfl (.inl rfl), trivial⟩) (fun _ _ => trivial)
          fun _ _ => hboth _
  have hmark : Guarantees (fun _ => Forward) (fun _ => True) (markUsed t) := by
    refine (hacquire _ _).bind (fun _ _ => trivial) fun _ _ => ?_
    refine Guarantees.bind (Q := fun _ => True)
      (.atom fun _ _ => ⟨forward_pass rfl rfl (.inl rfl), trivial⟩) (fun _ _ => trivial)
      fun _ _ => ?_
    refine (hacquire _ _).bind (fun _ _ => trivial) fun _ _ => ?_
    refine Guarantees.bind (Q := fun _ => True)
      (.atom fun _ _ => ⟨forward_pass rfl rfl (.inr rfl), trivial⟩) (fun _ _ => trivial)
      fun _ _ => ?_
    exact (hrelease _ _).bind (fun _ _ => trivial) fun _ _ => hrelease _ _
  refine ((hacquire _ _).bind (fun _ _ => trivial) fun v _ => hwindow v.pairingStart).bind
    (fun _ _ => trivial) fun valid _ => ?_
  cases valid with
  | false => trivial
  | true =>
    show Guarantees _ _ (ofExcept (call.check fromDer) >>= fun _ => markUsed t)
    cases call.check fromDer with
    | error e => trivial
    | ok u => exact hmark

lemma wp_releaseBoth_false {t : κ} {Q : Except CertificateError Bool → SharedPairing κ → Prop}
    (h : ∀ s, Q (.ok false) s) : wp (forward κ) Q (releaseBoth t false) s :=
  wp_bind (wp_atom fun _ _ _ _ => ⟨forward_pass rfl rfl (.inl rfl),
    wp_bind (wp_atom fun _ _ _ _ => ⟨forward_pass rfl rfl (.inl rfl), h _⟩)⟩)

/-- A call that holds the start of the pairing window, too late, finds the verifier invalid. -/
lemma wp_checkWindow_late {t : κ} {Q : Except CertificateError Bool → SharedPairing κ → Prop}
    {pairingStart : Option ℤ} (hlate : ∀ startTime, pairingStart = some startTime →
      startTime + s.verifier.pairingWindow ≤ s.now) (h : ∀ s, Q (.ok false) s) :
    wp (forward κ) Q (checkWindow t pairingStart) s := by
  refine wp_bind fun s₁ (henv : Forward s s₁) => ⟨False.elim, fun _ elapsed _ =>
    ⟨forward_pass rfl rfl (.inl rfl), ?_⟩⟩
  show wp _ _ (if s₁.verifier.used then _ else _) _
  split
  · exact wp_releaseBoth_false h
  cases pairingStart with
  | none => exact wp_releaseBoth_false h
  | some startTime =>
    refine wp_bind (wp_atom fun s₂ (henv' : Forward _ s₂) elapsed' _ =>
      ⟨forward_pass rfl rfl (.inl rfl), ?_⟩)
    have hnow : s₁.now + elapsed ≤ s₂.now := henv'.now
    have hpassed : ¬ s₂.now + elapsed' - startTime < s₁.verifier.pairingWindow := by
      have hstart := hlate startTime rfl
      have hsame := henv.pairingWindow
      have hlater := henv.now
      omega
    show wp _ _ (releaseBoth t
      (decide (s₂.now + elapsed' - startTime < s₁.verifier.pairingWindow))) _
    rw [decide_eq_false hpassed]
    exact wp_releaseBoth_false h

lemma started_of_run {C : PairingPool κ → κ → ℕ → Prop} {P : PairingPool κ}
    (hrun : Pool.Run C (new fromDer calls start window) P) :
    (∀ t, Guarantees (fun _ => Forward) (fun _ => True) (P.task t)) ∧
      Forward (new fromDer calls start window).state P.state := by
  refine Pool.Run.invariant (I := fun P => (∀ t, Guarantees (fun _ => Forward) (fun _ => True)
    (P.task t)) ∧ Forward (new fromDer calls start window).state P.state) hrun
    ⟨fun t => guarantees_verifyServerCert t (calls t), .refl _⟩ ?_
  intro P P' t i ⟨hguar, hforward⟩ _ hstep
  obtain ⟨⟨_, -, hnext⟩, htask⟩ := (hguar t).step hstep.proc
  refine ⟨fun u => ?_, hforward.trans hnext⟩
  by_cases hut : u = t
  · exact hut ▸ htask
  · rw [hstep.task_of_ne hut]
    exact hguar u

/-- **A call that starts too late does not accept.**

**Proof sketch.** Its first action shows it when the pairing window has started, and it reads the
clock later. -/
theorem late_of_run {C : PairingPool κ → κ → ℕ → Prop} {P P₁ P' : PairingPool κ} {t : κ} {i : ℕ}
    (hrun : Pool.Run C (new fromDer calls start window) P)
    (htask : P.task t = verifyServerCert t fromDer (calls t)) (hstep : P.advance t i = some P₁)
    (hlate : start + window ≤ P₁.state.now) (hrun' : Pool.Run (fun _ _ _ => True) P₁ P') :
    P'.task t ≠ .ret (.ok ()) := by
  have hP₁ : Pool.Run (fun _ _ _ => True) (new fromDer calls start window) P₁ :=
    Relation.ReflTransGen.tail (Runs.Run.strengthen (I := fun _ => True) hrun trivial
      (fun _ _ _ => trivial) fun _ _ _ => trivial).1 ⟨(t, i), trivial, hstep⟩
  obtain ⟨hguar, -⟩ := started_of_run hP₁
  obtain ⟨-, hforward⟩ := started_of_run hrun
  have hwp : wp (forward κ) (fun r _ => r ≠ .ok ()) (P₁.task t) P₁.state := by
    rw [Pool.advance, htask] at hstep
    change (if _ then _ else _) = _ at hstep
    split at hstep
    · obtain rfl := Option.some.inj hstep
      show wp _ _ (Function.update P.task t (checkWindow t P.state.verifier.pairingStart >>=
        conclude t fromDer (calls t)) t) _
      rw [Function.update_self]
      refine wp_bind (wp_checkWindow_late (fun startTime hstart => ?_) fun _ => nofun)
      have hsame : startTime = start := by
        obtain hsame | hnone := hforward.pairingStart
        · rw [hsame] at hstart
          exact (Option.some.inj hstart).symm
        · rw [hnone] at hstart
          cases hstart
      have hwindow : P.state.verifier.pairingWindow = window := hforward.pairingWindow
      show startTime + P.state.verifier.pairingWindow ≤ _
      rw [hsame, hwindow]
      exact hlate
    · cases hstep
  have hall : ∀ u, wp (forward κ) (fun r _ => u = t → r ≠ .ok ()) (P'.task u) P'.state := by
    refine Pool.Run.invariant (I := fun P => ∀ u, wp (forward κ) (fun r _ => u = t → r ≠ .ok ())
      (P.task u) P.state) hrun' (fun u => ?_) ?_
    · by_cases hut : u = t
      · subst hut
        exact wp_mono hwp fun _ _ h _ => h
      · refine wp_mono ((hguar u).wp (I := fun _ => True) trivial id ?_) fun _ _ _ h => absurd h hut
        exact fun _ _ _ _ _ _ h => ⟨h, trivial⟩
    · intro P P' v j h _ hnext
      exact Pool.wp_step h hnext (fun _ _ => trivial) (fun _ _ _ _ h => h) fun _ _ _ _ _ h => h
  intro hok
  have hlast := hall t
  rw [hok] at hlast
  exact hlast rfl rfl

/-- **The verifier pairs once, and in time**, in every run in which no call with a valid certificate
checks whether the verifier has been used while another one has checked that and is still to mark
it.

**Proof sketch.** Of the calls with a valid certificate one at most has checked the verifier, and a
call only accepts after it has marked it. -/
theorem pairsOnce_of_run {P : PairingPool κ}
    (hrun : Pool.Run (Alone fromDer calls) (new fromDer calls start window) P) :
    PairsOnce fromDer calls start window P := by
  obtain ⟨phase, h⟩ : ∃ phase, Placed fromDer calls P phase := by
    refine hrun.invariant (I := fun P => ∃ phase, Placed fromDer calls P phase)
      ⟨fun _ => .checking, fun t => tracks_verifyServerCert (calls t),
        fun t => enabled_verifyServerCert (calls t), nofun, nofun, fun _ _ h => by simp at h⟩ ?_
    intro P P' t i ⟨phase, h⟩ halone hstep
    exact h.step halone hstep
  refine ⟨fun t u ht hu => ?_, fun t i P₁ P' htask hstep hlate hrun' =>
    late_of_run hrun htask hstep hlate hrun'⟩
  have hmarked (v : κ) (hv : P.task v = .ret (.ok ())) : phase v = .marked := by
    have hends := h.tracks v
    rw [hv] at hends
    exact hends.1 rfl
  have htm := hmarked t ht
  have hum := hmarked u hu
  exact h.alone t u (.inr htm) (.inr hum) (h.accepts t htm) (h.accepts u hum)

/-! ## Two handshakes -/

/-- A call with a certificate that is valid for ten seconds. -/
def sampleCall : PairingCall := ⟨sampleDer sampleSignature, [], 5⟩

/-- A call has accepted. -/
def hasAccepted (P : PairingPool κ) (t : κ) : Bool :=
  match P.task t with
  | .ret (.ok ()) => true
  | _ => false

omit [DecidableEq κ] in
lemma task_of_hasAccepted {P : PairingPool κ} {t : κ} (h : hasAccepted P t = true) :
    P.task t = .ret (.ok ()) := by
  unfold hasAccepted at h
  split at h
  · next htask => exact htask
  · cases h

/-- The second of two calls checks the verifier after the first has marked it, and is refused. -/
theorem pairsOnce_of_run_twoHandshakes : ∃ P : PairingPool Bool,
    Pool.Run (Alone sampleParser fun _ => sampleCall)
        (new sampleParser (fun _ => sampleCall) 0 300000000000) P ∧
      hasAccepted P false = true ∧ (P.task true).head = none ∧ hasAccepted P true = false ∧
      PairsOnce sampleParser (fun _ => sampleCall) 0 300000000000 P := by
  have hexec : (Pool.exec (Alone sampleParser fun _ => sampleCall)
      (List.replicate 10 (false, 1) ++ [(true, 1), (false, 1)] ++ List.replicate 3 (true, 1))
      (new sampleParser (fun _ : Bool => sampleCall) 0 300000000000)).map
        (fun P => (hasAccepted P false, (P.task true).head, hasAccepted P true)) =
          some (true, none, false) := by decide +kernel
  obtain ⟨P, hP, hends⟩ := Option.map_eq_some_iff.mp hexec
  obtain ⟨hfirst, hends⟩ := Prod.mk.inj hends
  obtain ⟨hhead, hsecond⟩ := Prod.mk.inj hends
  have hrun := Pool.run_of_exec hP
  exact ⟨P, hrun, hfirst, hhead, hsecond, pairsOnce_of_run hrun⟩

/-- **Two handshakes both check the verifier before either marks it**, and both accept. -/
theorem not_pairsOnce_twoHandshakes : ¬ ∀ P : PairingPool Bool,
    Pool.Run (fun _ _ _ => True) (new sampleParser (fun _ => sampleCall) 0 300000000000) P →
      PairsOnce sampleParser (fun _ => sampleCall) 0 300000000000 P := by
  have hexec : (Pool.exec (fun _ _ _ => True)
      (List.replicate 5 (false, 1) ++ List.replicate 5 (true, 1) ++
        List.replicate 6 (false, 1) ++ List.replicate 6 (true, 1))
      (new sampleParser (fun _ : Bool => sampleCall) 0 300000000000)).map
        (fun P => hasAccepted P false && hasAccepted P true) = some true := by decide +kernel
  obtain ⟨P, hP, haccepted⟩ := Option.map_eq_some_iff.mp hexec
  obtain ⟨hfalse, htrue⟩ := Bool.and_eq_true_iff.mp haccepted
  intro h
  exact absurd ((h P (Pool.run_of_exec hP)).1 false true (task_of_hasAccepted hfalse)
    (task_of_hasAccepted htrue)) (by simp)

end PairingPool

end Landropic
