import Mathlib.Data.Char
import Landropic.Cas.Recovery
import Landropic.Cas.Writers

set_option autoImplicit false

/-!
# Recovery from a crash

Any number of atomic writes are in flight when the store crashes, each after any of its steps; then
a new store recovers. An atomic write does not check that its data has the hash it is given, so
that what recovery can promise depends on its callers.

## Main definitions

* `Cas.ContentStore.InFlight` — atomic writes in flight, of different objects in any order and of
  the same object one after the other.
* `Cas.ContentStore.Recovered` — what a recovery is to leave behind.

## Main results

* `Cas.ContentStore.recover_correct_iff` — every crash is recovered from if and only if every write
  was given the hash of its data.
-/

namespace Landropic.Cas

open Proc

namespace ContentStore

variable (store : ContentStore)

/-- The content of an object has its hash. -/
def HashesTo (hash : ContentHash) (data : Bytes) : Prop := store.blake3 data = hash

/-- Atomic writes in flight, each one of the given calls. A call for an object starts when an
earlier one for it has ended, or has been cut off. -/
inductive InFlight (calls : Set (ContentHash × Bytes)) (s₀ : StoreState) :
    Pool ContentHash StoreState Io Op CasError ObjectRef → Prop
  | none : InFlight calls s₀ ⟨s₀, fun hash => pure ⟨hash, 0⟩⟩
  | start {P hash data} : InFlight calls s₀ P → (hash, data) ∈ calls →
      InFlight calls s₀ (P.withTask hash (store.writeIndividual data hash))
  | step {P P' hash i} : InFlight calls s₀ P → P.Step hash i P' → InFlight calls s₀ P'

/-- What the recovery after a crash is to leave behind. -/
structure Recovered (calls : Set (ContentHash × Bytes)) (fs fs' : Fs) : Prop where
  /-- No temporary file is left. -/
  noTemps : store.NoTemps fs'
  /-- Every object that was complete is unchanged. -/
  complete : ∀ hash data, fs.content (store.objectPath hash) = some data →
    store.blake3 data = hash → fs'.content (store.objectPath hash) = some data
  /-- Every object of an interrupted call is absent or complete. -/
  interrupted : ∀ call ∈ calls, fs'.content (store.objectPath call.1) = none ∨
    ∃ data, fs'.content (store.objectPath call.1) = some data ∧ store.blake3 data = call.1

/-- A recovery without faults, which may take enough turns, leaves behind what it is to leave, and
after it there is nothing to recover or to clean up. -/
def RecoversFrom (order : IterOrder FilePath) (calls : Set (ContentHash × Bytes)) (fs : Fs) :
    Prop :=
  ∀ now fuel, 2 * fs.nodes.keys.card ≤ fuel →
    Ensures noFault (fun r s' => (∃ stats, r = .ok stats) ∧ store.Recovered calls fs s'.fs ∧
      ∀ fuel', 2 * s'.fs.nodes.keys.card ≤ fuel' →
        Ensures noFault (fun r' _ => ∃ stats, r' = .ok stats ∧
          stats.recovered = 0 ∧ stats.cleaned = 0) (store.recover order fuel') s')
      (store.recover order fuel) (store.opened fs now)

variable {store} {fs fs' : Fs} {hash : ContentHash} {data : Bytes}

/-! ## The objects after a recovery -/

section Objects

variable (hdata : fs'.data = fs.data)
  (hlookup : ∀ q, fs'.nodes.lookup q = store.recoveredNode fs q)

include hlookup in
lemma noTemps_of_recovered : store.NoTemps fs' := by
  intro p i htemp hunder hfile
  rw [hlookup, recoveredNode, deciding_of_isTemp htemp, if_pos ⟨hunder, htemp⟩] at hfile
  split at hfile
  · cases hfile
  · rw [if_pos htemp] at hfile
    cases hfile
  · next hnone =>
    rw [hnone] at hfile
    cases hfile

include hdata hlookup in
lemma content_of_recovered (h : fs.content (store.objectPath hash) = some data) :
    fs'.content (store.objectPath hash) = some data := by
  obtain ⟨i, hi, hd⟩ := Fs.content_eq_some.mp h
  have hnode : fs'.nodes.lookup (store.objectPath hash) = some (.file i) := by
    rw [hlookup, store.recoveredNode_of_some (store.not_isTemp_objectPath hash) hi]
  rw [Fs.content_of_lookup hnode, hdata, hd]

include hdata hlookup in
lemma content_recovered (h : fs'.content (store.objectPath hash) = some data) :
    fs.content (store.objectPath hash) = some data ∨ store.blake3 data = hash := by
  obtain ⟨i, hi, hd⟩ := Fs.content_eq_some.mp h
  rw [hdata] at hd
  rw [hlookup] at hi
  cases hold : fs.nodes.lookup (store.objectPath hash) with
  | some node =>
    rw [store.recoveredNode_of_some (store.not_isTemp_objectPath hash) hold] at hi
    exact .inl (by rw [Fs.content_of_lookup (hold.trans hi), hd])
  | none =>
    have hpath := store.objectPath_of_recoveredNode hold hi
    exact .inr (store.objectPath_injective (hd ▸ hpath))

end Objects

lemma recoversFrom_of_tidy (order : IterOrder FilePath) (calls : Set (ContentHash × Bytes))
    (h : store.Tidy store.HashesTo fs) : store.RecoversFrom order calls fs := by
  intro now fuel hfuel
  refine ensures_of_wp exists_noFault (wp_mono (store.wp_recover order _ hfuel) ?_)
  rintro _ _ ⟨stats, fs', rfl, rfl, hdata, hlookup, -⟩
  refine ⟨⟨stats, rfl⟩, ⟨noTemps_of_recovered hlookup,
    fun hash data hd _ => content_of_recovered hdata hlookup hd, fun call _ => ?_⟩, ?_⟩
  · cases hd : fs'.content (store.objectPath call.1) with
    | none => exact .inl rfl
    | some data =>
      refine .inr ⟨data, rfl, ?_⟩
      rcases content_recovered hdata hlookup hd with hold | hhash
      · exact h.good_content hold
      · exact hhash
  · intro fuel' hfuel'
    refine ensures_of_wp exists_noFault (wp_mono (store.wp_recover order _ hfuel') ?_)
    rintro _ _ ⟨stats', -, rfl, -, -, -, hno⟩
    exact ⟨stats', rfl, hno (noTemps_of_recovered hlookup)⟩

/-! ## The writes in flight -/

variable {calls : Set (ContentHash × Bytes)} {s₀ : StoreState}
  {P : Pool ContentHash StoreState Io Op CasError ObjectRef}

/-- Writes that are given the hashes of their data leave every object complete, wherever they are
cut off. -/
lemma InFlight.tidy (hP : store.InFlight calls s₀ P) (h₀ : store.Tidy store.HashesTo s₀.fs)
    (hcalls : ∀ call ∈ calls, store.blake3 call.2 = call.1) :
    store.Tidy store.HashesTo P.state.fs ∧ ∀ hash,
      wp (store.writerSpec store.HashesTo hash True) (fun _ _ => True) (P.task hash) P.state := by
  induction hP with
  | none => exact ⟨h₀, fun _ => trivial⟩
  | @start P hash data _ hmem ih =>
    obtain ⟨htidy, hwp⟩ := ih
    refine ⟨htidy, P.forall_withTask (J := fun hash p =>
      wp (store.writerSpec store.HashesTo hash True) (fun _ _ => True) p P.state) hwp ?_⟩
    exact wp_mono (wp_writeIndividual htidy (hcalls _ hmem)) fun _ _ _ => trivial
  | @step P P' hash i _ hstep ih =>
    obtain ⟨htidy, hwp⟩ := ih
    obtain ⟨⟨l, -, hdist⟩, -⟩ := Proc.wp_step (hwp hash) hstep.proc fun _ _ _ => trivial
    refine ⟨hdist.tidy, Pool.wp_step (S := fun hash => store.writerSpec store.HashesTo hash True)
      hwp hstep (fun _ _ _ => trivial) ?_ fun _ _ _ _ _ _ => trivial⟩
    intro other ho l _ hdist
    exact hdist.undisturbed htidy (fun heq => absurd heq ho) fun heq => absurd heq ho

lemma InFlight.exists_complete (hmem : (hash, data) ∈ calls)
    (h₀ : store.Tidy store.HashesTo s₀.fs) :
    ∃ P, store.InFlight calls s₀ P ∧ P.state.fs.content (store.objectPath hash) = some data := by
  have h₀' : store.Tidy (fun _ _ => True) s₀.fs :=
    ⟨h₀.not_file, h₀.object_not_dir, h₀.temp_not_dir, fun _ => trivial⟩
  have hwrite : wp (store.writerSpec (fun _ _ => True) hash False) _
    (store.writeIndividual data hash) s₀ := wp_writeIndividual h₀' trivial
  have hwp : wp (.alone Op noFault) _ (store.writeIndividual data hash) s₀ :=
    wp_weaken hwrite (fun l s s' heq => heq ▸ Spec.env_refl _ l s) (fun _ _ _ hi hfail => hi hfail)
      (fun _ _ _ _ => trivial) fun _ => trivial
  obtain ⟨r, s', hrun, -, hr⟩ := exists_returns exists_noFault hwp
  have hdone : s'.fs.content (store.objectPath hash) = some data := by
    cases r with
    | ok ref => exact hr.2
    | error e => exact hr.elim
  obtain ⟨P, hP, hstate, -⟩ := Pool.exists_of_returns (J := store.InFlight calls s₀) (t := hash)
    (fun hP hstep => hP.step hstep) hrun (.start .none hmem) (Pool.task_withTask_self ..) rfl
  exact ⟨P, hP, hstate ▸ hdone⟩

lemma hash_eq_of_recoversFrom {order : IterOrder FilePath} (h₀ : store.Tidy store.HashesTo s₀.fs)
    (h : ∀ P, store.InFlight calls s₀ P → store.RecoversFrom order calls P.state.fs)
    (hmem : (hash, data) ∈ calls) : store.blake3 data = hash := by
  obtain ⟨P, hP, hdone⟩ := InFlight.exists_complete hmem h₀
  have hrec := h P hP 0 _ le_rfl
  obtain ⟨r, s', hrun⟩ := hrec.2
  obtain ⟨stats, fs', -, rfl, hdata, hlookup, -⟩ := post_of_returns hrun
    (store.wp_recover order (store.opened P.state.fs 0) le_rfl)
  have hkept := content_of_recovered hdata hlookup hdone
  rcases (hrec.1 _ _ hrun).2.1.interrupted _ hmem with hnone | ⟨data', hdata', hhash⟩
  · rw [hkept] at hnone
    cases hnone
  · rw [hkept, Option.some.injEq] at hdata'
    exact hdata' ▸ hhash

variable (store) in
/-- **Crash recovery.** On a disk of complete objects, every crash among the given calls is
recovered from if and only if every call is given the hash of its data.

**Proof sketch.** Calls that are given the hashes of their data leave every object absent or
complete at every moment, since an object only comes into being by the rename of a complete
temporary file, and recovery moves a temporary file only where its content belongs. A call that is
given another hash may run to its end, and recovery leaves what it finds at the path of an
object. -/
theorem recover_correct_iff (order : IterOrder FilePath) {s₀ : StoreState}
    (h₀ : store.Tidy store.HashesTo s₀.fs) (calls : Set (ContentHash × Bytes)) :
    (∀ P, store.InFlight calls s₀ P → store.RecoversFrom order calls P.state.fs) ↔
      ∀ call ∈ calls, store.blake3 call.2 = call.1 :=
  ⟨fun h _ hmem => hash_eq_of_recoversFrom h₀ h hmem,
    fun h _ hP => recoversFrom_of_tidy order calls (hP.tidy h₀ h).1⟩

/-- One write of one byte on an empty disk. -/
theorem recover_correct_iff_of_empty :
    (∀ P, (default .blake3Sample .identity).InFlight {(.blake3Sample [1], [1])}
        ((default .blake3Sample .identity).opened .empty 0) P →
      (default .blake3Sample .identity).RecoversFrom (.sorted FilePath) {(.blake3Sample [1], [1])}
        P.state.fs) ↔
      ∀ call ∈ ({(.blake3Sample [1], [1])} : Set (ContentHash × Bytes)),
        (default .blake3Sample .identity).blake3 call.2 = call.1 :=
  recover_correct_iff _ (.sorted FilePath) tidy_empty _

/-- In no store is every crash recovered from: a write of one byte under another hash than its own
may crash when it has just renamed its temporary file. -/
theorem not_forall_recover_correct : ¬ ∃ (store : ContentStore) (order : IterOrder FilePath),
    ∀ s₀ : StoreState, store.Tidy store.HashesTo s₀.fs → ∀ calls P, store.InFlight calls s₀ P →
      store.RecoversFrom order calls P.state.fs := by
  rintro ⟨store, order, h⟩
  obtain ⟨hash, hne⟩ := ContentHash.exists_ne (store.blake3 [1])
  have hempty : store.Tidy store.HashesTo (store.opened .empty 0).fs := tidy_empty
  exact hne (hash_eq_of_recoversFrom hempty (h _ hempty {(hash, [1])}) rfl).symm

end ContentStore

end Landropic.Cas
