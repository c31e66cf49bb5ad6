import Landropic.Cas.Writers

set_option autoImplicit false

/-!
# Concurrent writes of the same data

Any number of tasks write the same data at once, and their actions interleave in any order. All of
them use one temporary file, so that what they do is atomic only as long as no task creates the
temporary file while another one is still at work on it.

## Main definitions

* `Cas.ContentStore.writers` — tasks that write the same data.
* `Cas.ContentStore.Atomic` — the object is absent or complete, and no write has failed.
* `Cas.ContentStore.Separate` — the steps that keep the writes apart.

## Main results

* `Cas.ContentStore.wp_write`, `Cas.ContentStore.orderly_write` — what a write achieves, and in
  which order.
* `Cas.ContentStore.Writing.step` — two writes that are kept apart never hold the temporary file at
  once.
* `Cas.ContentStore.atomic_of_separate` — writes that are kept apart are atomic.
-/

namespace Landropic.Cas

open Proc

namespace ContentStore

variable (store : ContentStore)

/-! ## What a write achieves -/

section Write

variable {store} {good : ContentHash → Bytes → Prop} {faults : Prop} {s : StoreState}
  {hash : ContentHash} {data : Bytes} {ε : Type}

/-- An action that leaves the disk as it is. -/
lemma wp_write_atom {α : Type} {op : Op} {f : Io → StoreState → Except ε α × StoreState}
    {Q : Except ε α → StoreState → Prop} (htouches : op.touches = none)
    (htidy : store.Tidy good s.fs) (hfs : ∀ i s, (f i s).2.fs = s.fs)
    (hQ : ∀ i s', store.Tidy good (f i s').2.fs → Q (f i s').1 (f i s').2) :
    wp (store.writerSpec good hash faults) Q (.atom op f) s := by
  refine wp_atom fun s' henv i _ => ⟨?_, hQ i s' ?_⟩
  · show store.Disturbs good hash op s'.fs (f i s').2.fs
    rw [hfs]
    exact .refl (henv.tidy htidy) fun hp => by simp [htouches] at hp
  · rw [hfs]
    exact henv.tidy htidy

variable (store good faults) in
/-- A write has ended: the tree is in order, and the write succeeded unless an action failed. -/
def Written (r : Except CasError ObjectRef) (s : StoreState) : Prop :=
  store.Tidy good s.fs ∧ ∀ e, r = .error e → faults

lemma wp_existsObject (htidy : store.Tidy good s.fs) {other : ContentHash} :
    wp (store.writerSpec good hash faults)
      (fun r s => store.Tidy good s.fs ∧ ∃ found, r = .ok found)
      (store.existsObject other : Task ε Bool) s := by
  refine wp_bind (wp_write_atom rfl htidy (fun _ _ => rfl) fun i s₁ htidy₁ => ?_)
  dsimp only
  split
  · exact ⟨htidy₁, true, rfl⟩
  · refine wp_bind ?_
    unfold readPacked
    split
    · exact wp_write_atom rfl htidy₁ (fun _ _ => rfl) fun i s₂ htidy₂ => ⟨htidy₂, _, rfl⟩
    · exact ⟨htidy₁, _, rfl⟩

lemma wp_writeNew (htidy : store.Tidy good s.fs) (hgood : good hash data) :
    wp (store.writerSpec good hash faults) (store.Written good faults) (store.writeNew data hash)
      s := by
  have hindividual : ∀ s : StoreState, store.Tidy good s.fs →
      wp (store.writerSpec good hash faults) (store.Written good faults)
        (store.writeIndividual data hash) s := by
    intro s htidy
    refine wp_mono (wp_writeIndividual htidy hgood) ?_
    rintro (e | ref) s' ⟨htidy', hr⟩
    · exact ⟨htidy', fun _ _ => hr⟩
    · exact ⟨htidy', by rintro e ⟨⟩⟩
  refine wp_bind (wp_mono (wp_existsObject htidy) ?_)
  rintro _ s₁ ⟨htidy₁, found, rfl⟩
  cases found with
  | true =>
    exact wp_bind (wp_write_atom rfl htidy₁ (fun _ _ => rfl) fun _ _ h => ⟨h, by rintro e ⟨⟩⟩)
  | false =>
    dsimp only
    rw [if_neg Bool.false_ne_true]
    split
    · exact hindividual s₁ htidy₁
    · exact hindividual s₁ htidy₁

/-- **A write** of what is good for the object leaves the tree in order, and succeeds unless an
action fails. -/
theorem wp_write (hsize : data.length ≤ MAX_OBJECT_SIZE) (htidy : store.Tidy good s.fs)
    (hgood : good (store.blake3 data) data) :
    wp (store.writerSpec good (store.blake3 data) faults) (store.Written good faults)
      (store.write data) s := by
  unfold write
  rw [validateObjectSize_eq_ok_iff.mpr hsize]
  refine wp_bind (wp_write_atom rfl htidy (fun _ _ => rfl) fun i s₁ htidy₁ => ?_)
  dsimp only
  split
  · exact ⟨htidy₁, by rintro e ⟨⟩⟩
  · exact wp_writeNew htidy₁ hgood

/-! ## The order of its actions -/

variable (store) in
lemma orderly_existsObject : Orderly (store.existsObject hash : Task ε Bool) := by
  refine Orderly.bind (orderly_atom rfl) fun found => ?_
  split
  · exact fun _ => trivial
  · refine Orderly.bind ?_ fun _ _ => trivial
    unfold readPacked
    split
    · exact orderly_atom rfl
    · exact fun _ => trivial

variable (store) in
/-- The actions of a write come in order. -/
theorem orderly_write (data : Bytes) : Orderly (store.write data) := by
  have hnew : ∀ hash, Orderly (store.writeNew data hash) := by
    intro hash
    refine Orderly.bind store.orderly_existsObject fun found => ?_
    split
    · exact Orderly.bind (orderly_atom rfl) fun _ _ => trivial
    · split
      · exact store.orderly_writeIndividual data hash
      · exact store.orderly_writeIndividual data hash
  unfold write
  split
  · exact fun _ => trivial
  · refine Orderly.bind (orderly_atom rfl) fun found => ?_
    split
    · exact fun _ => trivial
    · exact hnew _

end Write

/-! ## Any number of writers -/

variable {τ : Type}

/-- What the object of some data may hold: the data, and nothing else. -/
def IsOf (data : Bytes) (hash : ContentHash) (content : Bytes) : Prop :=
  hash = store.blake3 data → content = data

/-- Tasks that all write the same data. -/
def writers (τ : Type) (data : Bytes) (s : StoreState) :
    Pool τ StoreState Io Op CasError ObjectRef := ⟨s, fun _ => store.write data⟩

/-- Writes of the same data are atomic at this point. -/
structure Atomic (data : Bytes) (P : Pool τ StoreState Io Op CasError ObjectRef) : Prop where
  /-- The object is absent or complete. -/
  object : P.state.fs.content (store.objectPath (store.blake3 data)) = none ∨
    P.state.fs.content (store.objectPath (store.blake3 data)) = some data
  /-- A write that has ended succeeded. -/
  result : ∀ t r, P.task t = .ret r → ∃ ref, r = .ok ref
  /-- A write that has not ended can go on. -/
  ready : ∀ t label ready eff next, P.task t = .act label ready eff next → ready P.state = true

/-- A step that does not fail, and does not create a temporary file that another task holds. -/
def Separate (temp : FilePath) (P : Pool τ StoreState Io Op CasError ObjectRef) (t : τ) (i : Io) :
    Prop :=
  i ≠ .fail ∧ ((P.task t).head = some (.create temp) →
    ∀ u, u ≠ t → (P.task u).head.bind Op.holds ≠ some temp)

instance [Fintype τ] [DecidableEq τ] (temp : FilePath)
    (P : Pool τ StoreState Io Op CasError ObjectRef) (t : τ) (i : Io) :
    Decidable (Separate temp P t i) := inferInstanceAs (Decidable (_ ∧ _))

/-- Writes of the same data at work, no two of them holding the temporary file at once. -/
structure Writing (data : Bytes) (P : Pool τ StoreState Io Op CasError ObjectRef) : Prop where
  tidy : store.Tidy (store.IsOf data) P.state.fs
  wp : ∀ t, wp (store.writerSpec (store.IsOf data) (store.blake3 data) False)
    (store.Written (store.IsOf data) False) (P.task t) P.state
  orderly : ∀ t, ∃ last, Follows LastTouched (fun _ _ => True) last (P.task t)
  exclusive : ∀ t u, (P.task t).head.bind Op.holds = some (store.objectTemp (store.blake3 data)) →
    (P.task u).head.bind Op.holds = some (store.objectTemp (store.blake3 data)) → t = u

variable {store} {data : Bytes} {P P' : Pool τ StoreState Io Op CasError ObjectRef} {t : τ} {i : Io}

/-- An action that changes a temporary file in a step that keeps apart: no other task holds it. -/
lemma Writing.not_held (h : store.Writing data P)
    (hC : Separate (store.objectTemp (store.blake3 data)) P t i) {op : Op}
    (hop : (P.task t).head = some op)
    (htouches : op.touches = some (store.objectTemp (store.blake3 data))) {u : τ} (hu : u ≠ t) :
    (P.task u).head.bind Op.holds ≠ some (store.objectTemp (store.blake3 data)) := by
  rcases eq_create_or_holds htouches with rfl | hholds
  · exact hC.2 hop u hu
  · intro hheld
    exact hu (h.exclusive u t hheld (by rw [hop]; exact hholds))

lemma writing_writers {s₀ : StoreState} (hsize : data.length ≤ MAX_OBJECT_SIZE)
    (h₀ : store.Tidy (store.IsOf data) s₀.fs) : store.Writing data (store.writers τ data s₀) where
  tidy := h₀
  wp _ := wp_write hsize h₀ fun _ => rfl
  orderly _ := ⟨none, store.orderly_write data none⟩
  exclusive t u ht := by
    -- the first action of a write holds nothing
    exfalso
    unfold writers write at ht
    rw [validateObjectSize_eq_ok_iff.mpr hsize] at ht
    cases ht

lemma Writing.atomic (h : store.Writing data P) : store.Atomic data P where
  object := by
    cases hc : P.state.fs.content (store.objectPath (store.blake3 data)) with
    | none => exact .inl rfl
    | some d => exact .inr (congrArg some (h.tidy.good_content hc rfl))
  result t r hr := by
    have hwp := h.wp t
    rw [hr] at hwp
    cases r with
    | error e => exact (hwp.2 e rfl).elim
    | ok ref => exact ⟨ref, rfl⟩
  ready t label ready eff next ht := by
    have hwp := h.wp t
    rw [ht] at hwp
    exact (hwp P.state (Spec.env_refl _ _ _)).1 trivial

variable [DecidableEq τ]

/-- **A step that keeps the writes apart** leaves them so. -/
theorem Writing.step (h : store.Writing data P)
    (hC : Separate (store.objectTemp (store.blake3 data)) P t i) (hstep : P.Step t i P') :
    store.Writing data P' := by
  have hinput : ∀ op, (P.task t).head = some op → i = .fail → False := fun _ _ hi => hC.1 hi
  obtain ⟨⟨op, hop, hdist⟩, -⟩ := wp_step (h.wp t) hstep.proc hinput
  refine ⟨hdist.tidy, ?_, ?_, ?_⟩
  · refine Pool.wp_step (S := fun _ => store.writerSpec (store.IsOf data) (store.blake3 data) False)
      h.wp hstep hinput ?_ ?_
    · intro u hu op' hop' hdist'
      refine hdist'.undisturbed h.tidy (fun _ d d' hd hd' => (hd rfl).trans (hd' rfl).symm) ?_
      intro _ hheld htouches
      exact h.not_held hC hop' htouches hu hheld
    · intro u r s s' henv hr
      exact ⟨henv.tidy hr.1, hr.2⟩
  · intro u
    by_cases hu : u = t
    · subst hu
      exact orderly_of_step (h.orderly u) hstep
    · rw [hstep.task_of_ne hu]
      exact h.orderly u
  · -- a task that comes to hold the file created it or held it, and no other task holds it then
    have hnew : ∀ u, u ≠ t →
        (P'.task t).head.bind Op.holds = some (store.objectTemp (store.blake3 data)) →
        (P'.task u).head.bind Op.holds ≠ some (store.objectTemp (store.blake3 data)) := by
      intro u hu ht
      obtain ⟨op', hop', htouches⟩ := touched_of_held (h.orderly t) hstep ht
      rw [hstep.task_of_ne hu]
      exact h.not_held hC hop' htouches hu
    intro u v hu hv
    by_cases hut : u = t
    · subst hut
      by_contra hne
      exact hnew v (fun hvu => hne hvu.symm) hu hv
    · by_cases hvt : v = t
      · subst hvt
        exact absurd hu (hnew u hut hv)
      · rw [hstep.task_of_ne hut] at hu
        rw [hstep.task_of_ne hvt] at hv
        exact h.exclusive u v hu hv

variable (store) in
/-- **Concurrent writes of the same data.** On a tree in order in which the object is absent or
complete, writes that are kept apart are atomic at every point, whatever their number and the order
of their actions.

**Proof sketch.** A task holds the temporary file from when it creates it until it has renamed it.
The last action of a task that holds the file created it or held it already, so a task comes to
hold the file only by creating it, which is when no other task holds it. What each task
does is then among what the others allow, and each write runs as if it were alone. -/
theorem atomic_of_separate {s₀ : StoreState} (hsize : data.length ≤ MAX_OBJECT_SIZE)
    (h₀ : store.Tidy (store.IsOf data) s₀.fs)
    (hrun : Pool.Run (Separate (store.objectTemp (store.blake3 data)))
      (store.writers τ data s₀) P) : store.Atomic data P :=
  (hrun.invariant (I := store.Writing data) (writing_writers hsize h₀) fun h hC hstep =>
    h.step hC hstep).atomic

/-- Two writers of one byte that are both past their look whether the object exists, and then write
it one after the other. -/
theorem atomic_of_separate_two : ∃ P,
    Runs.exec (fun P e => P.advance e.1 e.2)
      (fun P e => Separate ((default .blake3Sample .identity).objectTemp (.blake3Sample [1]))
        P e.1 e.2)
      (List.replicate 2 (false, .ok 0) ++ List.replicate 8 (true, .ok 0) ++
        List.replicate 6 (false, .ok 0))
      ((default .blake3Sample .identity).writers Bool [1]
        ((default .blake3Sample .identity).opened .empty 0)) = some P ∧
      (default .blake3Sample .identity).Atomic [1] P := by
  refine (Option.isSome_iff_exists.mp ?_).imp fun P hP =>
    ⟨hP, atomic_of_separate _ (by decide) tidy_empty (Runs.run_of_exec hP)⟩
  decide +kernel

/-- One writer of a byte has just written it to the temporary file when another one truncates the
file; then the first one renames it. The object is there and empty. -/
theorem not_forall_atomic : ¬ ∀ (store : ContentStore) (data : Bytes)
    (P : Pool Bool StoreState Io Op CasError ObjectRef), data.length ≤ MAX_OBJECT_SIZE →
    Pool.Run (fun _ _ i => i ≠ .fail) (store.writers Bool data (store.opened .empty 0)) P →
    store.Atomic data P := by
  intro h
  have hexec : (Runs.exec (fun P e => P.advance e.1 e.2) (fun _ e => e.2 ≠ .fail)
      (List.replicate 6 (true, .ok 0) ++ List.replicate 4 (false, .ok 0) ++ [(true, .ok 0)])
      ((default .blake3Sample .identity).writers Bool [1]
        ((default .blake3Sample .identity).opened .empty 0))).map (fun P =>
          P.state.fs.content ((default .blake3Sample .identity).objectPath (.blake3Sample [1]))) =
      some (some []) := by decide +kernel
  obtain ⟨P, hP, hcontent⟩ := Option.map_eq_some_iff.mp hexec
  have hobject := (h _ [1] P (by decide) (Runs.run_of_exec hP)).object
  rw [show (default .blake3Sample .identity).blake3 [1] = .blake3Sample [1] from rfl, hcontent]
    at hobject
  rcases hobject with hnone | hsome
  · cases hnone
  · cases hsome

end ContentStore

end Landropic.Cas
