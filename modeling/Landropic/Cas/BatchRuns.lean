import Landropic.Cas.Batches

set_option autoImplicit false

/-!
# Runs of batched writes

Batches are written and flushed, one call after the other, while the batched writes are at work.
Draining the batch is not undone when a batched write fails, so that what was promised is safe only
as long as none does.

## Main definitions

* `Cas.ContentStore.queued` — the writes that calls have promised to carry out.
* `Cas.ContentStore.Concluded` — what the calls that have returned leave.
* `Cas.ContentStore.Reliable` — the steps with which no batched write fails.

## Main results

* `Cas.ContentStore.wp_serve_batch` — what a call leaves.
* `Cas.ContentStore.batching_of_run` — what holds in every state.
* `Cas.ContentStore.saved_or_pending` — what was promised is queued or stored, and stored after a
  flush.
-/

namespace Landropic.Cas

open Proc

namespace ContentStore

variable (store : ContentStore) (fs₀ : Fs) (bytes : ContentHash → Bytes) (compresses : Prop)

/-- The writes for which batches have returned references. -/
def queued (log : List (Call × Except CasError Reply)) : List (ContentHash × Bytes) :=
  log.flatMap fun entry => match entry with
    | (.writeBatch chunks, .ok _) => chunks.map store.toWrite
    | _ => []

/-- What was promised for sure: everything where compressions succeed, and otherwise as long as no
call has failed. -/
def Promised (log : List (Call × Except CasError Reply)) (w : ContentHash × Bytes) : Prop :=
  w ∈ store.queued log ∧ (compresses ∨ ∀ entry ∈ log, ∃ reply, entry.2 = .ok reply)

/-- What the calls that have returned leave: what was promised is pending or stored, and nothing is
pending after a flush. -/
def Concluded (log : List (Call × Except CasError Reply)) (s : StoreState) : Prop :=
  ∃ pending, store.Saves fs₀ bytes compresses pending pending (store.Promised compresses log) s ∧
    (log.getLast? = some (.flushBatch, .ok .done) → pending = [])

/-- A batched write does not create a temporary file that another one holds. -/
def Apart (S : System) (job : ℕ) : Prop :=
  match (S.pool.task (some job)).head with
  | some (.create p) => ∀ e ∈ S.started, e.1 ≠ job →
    (S.pool.task (some e.1)).head.bind Op.holds ≠ some p
  | _ => True

instance (S : System) (job : ℕ) : Decidable (Apart S job) := by
  unfold Apart
  split <;> infer_instance

/-- Batches are only written and flushed, each write being of the data of its object; no action of a
batched write fails, and no two of them use one temporary file at once. -/
def Reliable (S : System) : Event → Prop
  | .call (.writeBatch chunks) =>
    ∀ chunk ∈ chunks, store.Belongs bytes compresses (store.toWrite chunk)
  | .call .flushBatch => True
  | .call _ => False
  | .start _ => True
  | .act none _ => True
  | .act (some job) i => i ≠ .fail ∧ Apart S job

/-- Batches are only written and flushed. -/
def BatchesOnly (_ : System) : Event → Prop
  | .call (.writeBatch _) => True
  | .call .flushBatch => True
  | .call _ => False
  | _ => True

instance (S : System) (e : Event) : Decidable (BatchesOnly S e) := by
  unfold BatchesOnly
  split <;> infer_instance

instance (w : ContentHash × Bytes) : Decidable (store.Belongs bytes True w) :=
  decidable_of_iff (w.2 = bytes w.1 ∧ (store.storedForm w.2).isOk = true) <| by
    refine and_congr_right fun _ => ?_
    cases store.storedForm w.2 <;> simp [Except.isOk, Except.toBool]

instance (S : System) (e : Event) : Decidable (store.Reliable bytes True S e) := by
  unfold Reliable
  split <;> infer_instance

/-- What holds in every state: the store is sound, the call at work and the batched writes will do
as they should, no two batched writes hold one temporary file, and what the calls that have returned
leave is there. -/
structure Batching (S : System) : Prop where
  sound : store.BatchSound fs₀ bytes compresses S.pool.state
  call : wp (store.flushSpec fs₀ bytes compresses) (fun r s => ∀ call, S.call = some call →
    store.Concluded fs₀ bytes compresses (S.log ++ [(call, r)]) s) (S.pool.task none) S.pool.state
  idle : S.call = none → store.Concluded fs₀ bytes compresses S.log S.pool.state
  quiet : S.call = none → ∃ r, S.pool.task none = .ret r
  job : ∀ job, (∃ r, S.pool.task (some job) = .ret r) ∨ ∃ hash data, (job, hash, data) ∈ S.started ∧
    wp (store.jobSpec fs₀ bytes compresses hash) (fun _ _ => True) (S.pool.task (some job))
      S.pool.state
  orderly : ∀ job, ∃ last, Follows LastTouched (fun _ _ => True) last (S.pool.task (some job))
  exclusive : ∀ job job' p, (S.pool.task (some job)).head.bind Op.holds = some p →
    (S.pool.task (some job')).head.bind Op.holds = some p → job = job'

variable {store fs₀ bytes compresses} {s s' : StoreState} {S : System}
  {log : List (Call × Except CasError Reply)} {call : Call} {r : Except CasError Reply}
  {w : ContentHash × Bytes} {P : Pool (Option ℕ) StoreState Io Op CasError Reply}

/-! ## The calls -/

lemma promised_append (h : store.Promised compresses (log ++ [(call, r)]) w) :
    store.Promised compresses log w ∨ w ∈ store.queued [(call, r)] := by
  obtain ⟨hw, hok⟩ := h
  rw [queued, List.flatMap_append, List.mem_append] at hw
  refine hw.imp_left fun hold => ⟨hold, hok.imp_right fun hall entry hentry => ?_⟩
  exact hall entry (List.mem_append_left _ hentry)

lemma concluded_of_error {e : CasError} (hs : store.BatchSound fs₀ bytes compresses s)
    (hnot : ¬ compresses) : store.Concluded fs₀ bytes compresses (log ++ [(call, .error e)]) s := by
  refine ⟨_, ⟨hs, rfl, fun w hw => ?_⟩, by simp⟩
  obtain ⟨reply, hreply⟩ := hw.2.resolve_left hnot (call, .error e) (by simp)
  cases hreply

lemma Concluded.of_env {l : Option Op} (h : store.Concluded fs₀ bytes compresses log s)
    (henv : (store.flushSpec fs₀ bytes compresses).env l s s') :
    store.Concluded fs₀ bytes compresses log s' := by
  obtain ⟨pending, hsaves, hlast⟩ := h
  exact ⟨pending, hsaves.of_env henv, hlast⟩

/-- **What a call leaves**, whatever the batched writes do. -/
theorem wp_serve_batch (hS : store.Reliable bytes compresses S (.call call))
    (hs : store.Concluded fs₀ bytes compresses log s) :
    wp (store.flushSpec fs₀ bytes compresses)
      (fun r s => store.Concluded fs₀ bytes compresses (log ++ [(call, r)]) s)
      (store.serve call) s := by
  obtain ⟨pending, hsaves, -⟩ := hs
  have hsound : ∀ {α : Type} {Q : Except CasError α → StoreState → Prop} {t : Task CasError α},
      wp (store.flushSpec fs₀ bytes compresses) Q t s →
      wp (store.flushSpec fs₀ bytes compresses)
        (fun r s => Q r s ∧ store.BatchSound fs₀ bytes compresses s) t s := fun ht =>
    wp_frame ht hsaves.sound (fun _ _ _ henv => henv.1) fun _ _ _ hguar => hguar.2.2
  cases call with
  | writeBatch chunks =>
    refine wp_bind (wp_mono (hsound (wp_writeBatch hS hsaves)) ?_)
    rintro (e | refs) s₁ ⟨⟨⟨_, hfailed⟩, hnot⟩ | ⟨pending₁, hsaves₁⟩, hsound₁⟩
    · exact concluded_of_error hsound₁ hnot
    · refine ⟨pending₁, hsaves₁.mono fun w hw => ?_, by simp⟩
      exact (promised_append hw).imp_right (by rintro ⟨⟩)
    · cases hfailed
    · refine ⟨pending₁, hsaves₁.mono fun w hw => ?_, by simp⟩
      refine (promised_append hw).imp_right fun hnew => ⟨⟨refs, rfl⟩, ?_⟩
      simpa [queued] using hnew
  | flushBatch =>
    refine wp_bind (wp_mono (hsound (wp_flushBatch hsaves)) ?_)
    rintro (e | u) s₁ ⟨h₁, hsound₁⟩
    · exact concluded_of_error hsound₁ h₁
    · refine ⟨[], h₁.mono fun w hw => ?_, fun _ => rfl⟩
      exact (promised_append hw).resolve_right (by rintro ⟨⟩)
  | _ => exact hS.elim

/-! ## The order of the actions of a batched write -/

lemma orderly_serveJob (store : ContentStore) (job : ℕ) (hash : ContentHash) (data : Bytes) :
    Orderly (store.serveJob job hash data) := by
  have hcache : Orderly (store.cachePut hash data : Task CasError Unit) := by
    intro last
    refine ⟨none, ⟨by rintro p ⟨⟩, rfl⟩, fun i s => ?_⟩
    dsimp only
    split
    · exact trivial
    · exact ⟨none, ⟨by rintro p ⟨⟩, rfl⟩, fun _ _ => trivial⟩
  have hwrite : Orderly (store.writeIndividualOptimized data hash) := by
    refine Orderly.bind (orderly_atom rfl) fun found => ?_
    split
    · exact fun _ => trivial
    · refine Orderly.bind (fun _ => trivial) fun stored => ?_
      refine Orderly.bind (fun last => .mapErr (follows_disk (by rintro p ⟨⟩) fun _ => trivial))
        fun _ => ?_
      refine (store.orderly_writeAtomic _ _).bind fun _ => hcache.bind fun _ => ?_
      exact Orderly.bind (orderly_atom rfl) fun _ _ => trivial
  refine Orderly.bind ?_ fun _ _ => trivial
  exact Orderly.bind (fun last => .attempt ((hwrite last).mono fun _ _ _ => trivial)) fun r =>
    orderly_atom rfl

/-! ## Steps -/

/-- No other batched write holds a temporary file that one is about to change. -/
lemma Batching.not_held (h : store.Batching fs₀ bytes compresses S) {job other : ℕ}
    (hapart : Apart S job) (hne : other ≠ job) {op : Op} {p : FilePath}
    (hop : (S.pool.task (some job)).head = some op) (htouches : op.touches = some p) :
    (S.pool.task (some other)).head.bind Op.holds ≠ some p := by
  intro hheld
  rcases eq_create_or_holds htouches with rfl | hholds
  · rw [Apart, hop] at hapart
    rcases h.job other with ⟨r, hr⟩ | ⟨hash, data, hmem, -⟩
    · rw [hr] at hheld
      cases hheld
    · exact hapart _ hmem hne hheld
  · exact hne (h.exclusive other job p hheld (by rw [hop]; exact hholds))

/-- What a batched write does leaves the other batched writes to their work. -/
lemma jobEnv_of_guar {hash other : ContentHash} {op : Op} {l : Option Op}
    (hs : store.BatchSound fs₀ bytes compresses s)
    (hguar : (store.jobSpec fs₀ bytes compresses hash).guar op s s')
    (hheld : ∀ p, op.touches = some p → l.bind Op.holds ≠ some p) :
    (store.jobSpec fs₀ bytes compresses other).env l s s' := by
  obtain ⟨hdist, -, hspawned, -, -⟩ := hguar
  refine ⟨hdist.undisturbed hs.tidy (fun _ _ _ => Kept.unique) ?_, hspawned ▸ List.prefix_refl _,
    ?_⟩
  · rintro rfl hheld' htouches
    exact hheld _ htouches hheld'
  · exact fun hfirst hash data hdata => hdist.stored (hfirst hash data hdata)

lemma flushEnv_of_guar {hash : ContentHash} {op : Op} {l : Option Op}
    (hguar : (store.jobSpec fs₀ bytes compresses hash).guar op s s') :
    (store.flushSpec fs₀ bytes compresses).env l s s' :=
  ⟨fun hs => hs.of_guar hguar, fun _ => hguar.1.stored, hguar.2.1, hguar.2.2.1⟩

lemma jobEnv_of_flush {hash : ContentHash} {op : Op} {l : Option Op}
    (hguar : (store.flushSpec fs₀ bytes compresses).guar op s s') :
    (store.jobSpec fs₀ bytes compresses hash).env l s s' := by
  obtain ⟨hfs, hspawned, -⟩ := hguar
  refine ⟨?_, hspawned, ?_⟩
  · rw [hfs]
    exact ((store.writerSpec (store.Kept fs₀ bytes) hash False).env_refl l s)
  · unfold Stored
    rw [hfs]
    exact id

lemma Batching.call_step (h : store.Batching fs₀ bytes compresses S) {i : Io}
    (hstep : S.pool.Step none i P) : store.Batching fs₀ bytes compresses { S with pool := P } := by
  obtain ⟨⟨op, -, hguar⟩, hrest⟩ := Proc.wp_step h.call hstep.proc fun _ _ => trivial
  have hjob : ∀ job, P.task (some job) = S.pool.task (some job) :=
    fun job => hstep.task_of_ne (by simp)
  have hbusy : S.call = none → False := by
    intro hnone
    obtain ⟨r, hr⟩ := h.quiet hnone
    exact hstep.ne_ret _ hr
  refine ⟨hguar.2.2 h.sound, hrest, fun hnone => (hbusy hnone).elim,
    fun hnone => (hbusy hnone).elim,
    fun job => ?_, fun job => ?_, fun job job' p => ?_⟩
  · show (∃ r, P.task (some job) = _) ∨ ∃ hash data, _ ∧ wp _ _ (P.task (some job)) P.state
    rw [hjob]
    refine (h.job job).imp_right ?_
    rintro ⟨hash, data, hmem, hwp⟩
    exact ⟨hash, data, hmem, wp_of_env hwp (fun _ _ _ => trivial) (jobEnv_of_flush hguar)⟩
  · show ∃ last, Follows _ _ last (P.task (some job))
    rw [hjob]
    exact h.orderly job
  · show (P.task (some job)).head.bind _ = _ → (P.task (some job')).head.bind _ = _ → _
    rw [hjob, hjob]
    exact h.exclusive job job' p

lemma Batching.job_step (h : store.Batching fs₀ bytes compresses S) {job : ℕ} {i : Io}
    (hi : i ≠ .fail) (hapart : Apart S job) (hstep : S.pool.Step (some job) i P) :
    store.Batching fs₀ bytes compresses { S with pool := P } := by
  have hnone : P.task none = S.pool.task none := hstep.task_of_ne (by simp)
  have hother : ∀ {other}, other ≠ job → P.task (some other) = S.pool.task (some other) :=
    fun ho => hstep.task_of_ne fun heq => ho (Option.some.inj heq)
  rcases h.job job with ⟨r, hr⟩ | ⟨hash, data, hmem, hwp⟩
  · exact absurd hr (hstep.ne_ret r)
  obtain ⟨⟨op, hop, hguar⟩, hrest⟩ := Proc.wp_step hwp hstep.proc fun _ _ => hi
  -- a batched write that comes to hold a file has touched it in this step, so no other holds it
  have hnew : ∀ {other p}, other ≠ job → (P.task (some job)).head.bind Op.holds = some p →
      (P.task (some other)).head.bind Op.holds ≠ some p := by
    intro other p ho hheld
    obtain ⟨op', hop', htouches⟩ := touched_of_held (h.orderly job) hstep hheld
    rw [hother ho]
    exact h.not_held hapart ho hop' htouches
  refine ⟨h.sound.of_guar hguar, ?_, fun hidle => ?_, fun hidle => ?_, fun other => ?_,
    fun other => ?_, fun other other' p hp hp' => ?_⟩
  · show wp _ _ (P.task none) P.state
    rw [hnone]
    exact wp_of_env h.call (fun r _ hr call hcall => (hr call hcall).of_env (l := none)
      (flushEnv_of_guar hguar)) (flushEnv_of_guar hguar)
  · exact (h.idle hidle).of_env (l := none) (flushEnv_of_guar hguar)
  · show ∃ r, P.task none = _
    rw [hnone]
    exact h.quiet hidle
  · by_cases ho : other = job
    · subst ho
      exact .inr ⟨hash, data, hmem, hrest⟩
    · show (∃ r, P.task (some other) = _) ∨ ∃ hash data, _ ∧ wp _ _ (P.task (some other)) P.state
      rw [hother ho]
      refine (h.job other).imp_right ?_
      rintro ⟨hash', data', hmem', hwp'⟩
      refine ⟨hash', data', hmem', wp_of_env hwp' (fun _ _ _ => trivial) ?_⟩
      exact jobEnv_of_guar h.sound hguar fun p htouches => h.not_held hapart ho hop htouches
  · by_cases ho : other = job
    · subst ho
      exact orderly_of_step (h.orderly other) hstep
    · show ∃ last, Follows _ _ last (P.task (some other))
      rw [hother ho]
      exact h.orderly other
  · by_cases ho : other = job
    · subst ho
      by_contra hne
      exact hnew (fun heq => hne heq.symm) hp hp'
    · by_cases ho' : other' = job
      · subst ho'
        exact absurd hp (hnew ho hp')
      · change (P.task (some other)).head.bind _ = _ at hp
        change (P.task (some other')).head.bind _ = _ at hp'
        rw [hother ho] at hp
        rw [hother ho'] at hp'
        exact h.exclusive other other' p hp hp'

/-! ## Runs -/

lemma tidy_kept {fs : Fs} (h : store.Tidy (fun _ _ => True) fs) :
    store.Tidy (store.Kept fs bytes) fs where
  not_file := h.not_file
  object_not_dir := h.object_not_dir
  temp_not_dir := h.temp_not_dir
  good_content hdata := by
    unfold Kept
    rw [hdata]

/-- **In every run** of batches whose batched writes do not fail, the store is sound, and what was
promised is safe. -/
theorem batching_of_run {now : ℕ} (htidy : store.Tidy (fun _ _ => True) fs₀)
    (hrun : store.Run (store.Reliable bytes compresses) (store.system fs₀ now) S) :
    store.Batching fs₀ bytes compresses S := by
  refine hrun.invariant ?_ ?_ ?_ ?_ ?_
  · have hsound : store.BatchSound fs₀ bytes compresses (store.opened fs₀ now) :=
      ⟨tidy_kept htidy, fun _ _ h => ⟨_, h⟩, by rintro hash ref ⟨⟩, by rintro w ⟨⟩, by rintro w ⟨⟩,
        by rintro job r ⟨⟩⟩
    exact ⟨hsound, by rintro call ⟨⟩,
      fun _ => ⟨[], ⟨hsound, rfl, by rintro w ⟨⟨⟩, -⟩⟩, fun _ => rfl⟩,
      fun _ => ⟨_, rfl⟩, fun _ => .inl ⟨_, rfl⟩, fun _ => ⟨none, trivial⟩, by rintro job job' p ⟨⟩⟩
  · intro S call _ hS hC hnone _
    have hjob : ∀ job, (S.called store call).pool.task (some job) = S.pool.task (some job) :=
      fun job => Pool.task_withTask_of_ne _ _ (by simp)
    refine ⟨hS.sound, ?_, by rintro ⟨⟩, by rintro ⟨⟩, fun job => ?_, fun job => ?_,
      fun job job' p => ?_⟩
    · rw [show (S.called store call).pool.task none = store.serve call from
        Pool.task_withTask_self ..]
      refine wp_mono (wp_serve_batch hC (hS.idle hnone)) fun r s hr call' hcall => ?_
      obtain rfl := Option.some.inj hcall
      exact hr
    · rw [hjob]
      exact hS.job job
    · rw [hjob]
      exact hS.orderly job
    · rw [hjob, hjob]
      exact hS.exclusive job job' p
  · intro S job hash data _ hS _ hspawned _
    have hnone : (S.startedJob store job hash data).pool.task none = S.pool.task none :=
      Pool.task_withTask_of_ne _ _ (by simp)
    have hself : (S.startedJob store job hash data).pool.task (some job) =
      store.serveJob job hash data := Pool.task_withTask_self ..
    have hother : ∀ {other}, other ≠ job →
        (S.startedJob store job hash data).pool.task (some other) = S.pool.task (some other) :=
      fun ho => Pool.task_withTask_of_ne _ _ (by simpa using ho)
    refine ⟨hS.sound, ?_, hS.idle, ?_, fun other => ?_, fun other => ?_,
      fun other other' p hp hp' => ?_⟩
    · rw [hnone]
      exact hS.call
    · rw [hnone]
      exact hS.quiet
    · by_cases ho : other = job
      · subst ho
        refine .inr ⟨hash, data, List.mem_cons_self, ?_⟩
        rw [hself]
        exact wp_serveJob hS.sound hspawned
      · rw [hother ho]
        refine (hS.job other).imp_right ?_
        rintro ⟨hash', data', hmem, hwp⟩
        exact ⟨hash', data', List.mem_cons_of_mem _ hmem, hwp⟩
    · by_cases ho : other = job
      · subst ho
        rw [hself]
        exact ⟨none, store.orderly_serveJob other hash data none⟩
      · rw [hother ho]
        exact hS.orderly other
    · -- the first action of a batched write holds nothing
      have hfirst : ∀ {other}, ((S.startedJob store job hash data).pool.task (some other)).head.bind
          Op.holds = some p → other ≠ job := by
        rintro other hheld rfl
        rw [hself] at hheld
        cases hheld
      rw [hother (hfirst hp)] at hp
      rw [hother (hfirst hp')] at hp'
      exact hS.exclusive other other' p hp hp'
  · intro S t i P _ hS hC hstep
    cases t with
    | none => exact hS.call_step hstep
    | some job => exact hS.job_step hC.1 hC.2 hstep
  · intro S call r hS hcall hr
    have hret : (S.returned call r).pool.task none = .ret r := hr
    have hdone := hS.call
    rw [hr] at hdone
    refine ⟨hS.sound, ?_, fun _ => hdone call hcall, fun _ => ⟨r, hr⟩, hS.job, hS.orderly,
      hS.exclusive⟩
    rw [hret]
    rintro call' ⟨⟩

variable (store) in
/-- A write was carried out: its object holds the stored form of its data, or what it held already
when the store was opened. -/
def CarriedOut (first fs : Fs) (w : ContentHash × Bytes) : Prop :=
  ∃ content, fs.content (store.objectPath w.1) = some content ∧
    (store.storedForm w.2 = .ok content ∨ first.content (store.objectPath w.1) = some content)

lemma Saves.carriedOut {pending : List (ContentHash × Bytes)} {K : ContentHash × Bytes → Prop}
    (h : store.Saves fs₀ bytes compresses pending pending K s) (hw : K w) :
    w ∈ pending ∨ store.CarriedOut fs₀ s.fs w := by
  obtain ⟨hbelongs, hsaved⟩ := h.saved w hw
  refine hsaved.imp_right ?_
  rintro ⟨content, hcontent⟩
  refine ⟨content, hcontent, ?_⟩
  have hkept := h.sound.tidy.good_content hcontent
  unfold Kept at hkept
  split at hkept
  · next first hfirst => exact .inr (hkept ▸ hfirst)
  · exact .inl (hbelongs.1 ▸ hkept)

variable (store bytes) in
/-- **Batched writes are not lost as long as none fails.** On a disk on which the tree of objects is
in order, whatever batches are written and flushed: if no action of a batched write fails, no
compression does, no two batched writes use one temporary file at once, and no hash is given for
different data, then whenever no call is at work everything that was promised is pending or was
carried out, and all of it was carried out when a flush has just succeeded.

**Proof sketch.** A flush that drains the batch waits for every write it has drained. A batched
write that has ended has stored its object, since it ran as if it were alone, and no object
disappears. -/
theorem saved_or_pending (fs : Fs) (now : ℕ) (htidy : store.Tidy (fun _ _ => True) fs)
    (hrun : store.Run (store.Reliable bytes True) (store.system fs now) S) (hidle : S.call = none) :
    (∀ w ∈ store.queued S.log,
      w ∈ S.pool.state.batchWriter.pending ∨ store.CarriedOut fs S.pool.state.fs w) ∧
    (S.log.getLast? = some (.flushBatch, .ok .done) →
      ∀ w ∈ store.queued S.log, store.CarriedOut fs S.pool.state.fs w) := by
  obtain ⟨pending, hsaves, hlast⟩ := (batching_of_run htidy hrun).idle hidle
  have hsaved : ∀ w ∈ store.queued S.log, w ∈ pending ∨ store.CarriedOut fs S.pool.state.fs w :=
    fun w hw => hsaves.carriedOut ⟨hw, .inl trivial⟩
  refine ⟨fun w hw => hsaves.pending_eq ▸ hsaved w hw, fun hflushed w hw => ?_⟩
  have hmem := hsaved w hw
  rw [hlast hflushed] at hmem
  exact hmem.resolve_left (by rintro ⟨⟩)

/-- A byte is written in a batch and flushed. -/
private def flushed (input : Io) : List Event :=
  .call (.writeBatch [([1], none)]) :: List.replicate 3 (.act none (.ok 0)) ++
    .call .flushBatch :: List.replicate 4 (.act none (.ok 0)) ++
    .start 0 :: .act (some 0) (.ok 0) :: .act (some 0) input :: []

/-- A byte is written in a batch, which is flushed. -/
theorem saved_or_pending_flushed : ∃ S,
    Runs.exec (default .blake3Sample .identity).next
      ((default .blake3Sample .identity).Reliable (fun _ => [1]) True)
      (flushed (.ok 0) ++ List.replicate 8 (.act (some 0) (.ok 0)) ++
        List.replicate 3 (.act none (.ok 0)))
      ((default .blake3Sample .identity).system .empty 0) = some S ∧
      (default .blake3Sample .identity).queued S.log = [(.blake3Sample [1], [1])] ∧
      (∀ w ∈ (default .blake3Sample .identity).queued S.log,
        w ∈ S.pool.state.batchWriter.pending ∨
          (default .blake3Sample .identity).CarriedOut .empty S.pool.state.fs w) ∧
      (S.log.getLast? = some (.flushBatch, .ok .done) →
        ∀ w ∈ (default .blake3Sample .identity).queued S.log,
          (default .blake3Sample .identity).CarriedOut .empty S.pool.state.fs w) := by
  have hexec : (Runs.exec (default .blake3Sample .identity).next
      ((default .blake3Sample .identity).Reliable (fun _ => [1]) True)
      (flushed (.ok 0) ++ List.replicate 8 (.act (some 0) (.ok 0)) ++
        List.replicate 3 (.act none (.ok 0)))
      ((default .blake3Sample .identity).system .empty 0)).map (fun S =>
        (S.call.isNone, (default .blake3Sample .identity).queued S.log)) =
      some (true, [(.blake3Sample [1], [1])]) := by decide +kernel
  obtain ⟨S, hS, hend⟩ := Option.map_eq_some_iff.mp hexec
  obtain ⟨hidle, hqueued⟩ := Prod.mk.inj hend
  exact ⟨S, hS, hqueued, saved_or_pending _ _ .empty 0 tidy_empty (Runs.run_of_exec hS)
    (Option.isNone_iff_eq_none.mp hidle)⟩

/-- A byte is written in a batch, and the batched write fails, so that the flush does; the next
flush has nothing to do and succeeds, and the byte is neither pending nor stored. -/
theorem not_forall_saved_or_pending : ¬ ∀ (store : ContentStore) (fs : Fs) (now : ℕ) (S : System),
    store.Tidy (fun _ _ => True) fs → store.Run BatchesOnly (store.system fs now) S →
    S.call = none →
    (∀ w ∈ store.queued S.log,
      w ∈ S.pool.state.batchWriter.pending ∨ store.CarriedOut fs S.pool.state.fs w) ∧
    (S.log.getLast? = some (.flushBatch, .ok .done) →
      ∀ w ∈ store.queued S.log, store.CarriedOut fs S.pool.state.fs w) := by
  intro h
  have hexec : (Runs.exec (default .blake3Sample .identity).next BatchesOnly
      (flushed .fail ++ [.act (some 0) (.ok 0), .act none (.ok 0), .call .flushBatch,
        .act none (.ok 0)])
      ((default .blake3Sample .identity).system .empty 0)).map (fun S =>
        (S.call.isNone, (default .blake3Sample .identity).queued S.log,
          S.pool.state.batchWriter.pending.isEmpty, S.pool.state.fs.content
            ((default .blake3Sample .identity).objectPath (.blake3Sample [1])))) =
      some (true, [(.blake3Sample [1], [1])], true, none) := by decide +kernel
  obtain ⟨S, hS, hend⟩ := Option.map_eq_some_iff.mp hexec
  simp only [Prod.mk.injEq] at hend
  obtain ⟨hidle, hqueued, hpending, hmissing⟩ := hend
  rcases (h _ .empty 0 S tidy_empty (Runs.run_of_exec hS)
    (Option.isNone_iff_eq_none.mp hidle)).1 _ (by rw [hqueued]; exact List.mem_cons_self)
      with hp | hp
  · rw [List.isEmpty_iff.mp hpending] at hp
    cases hp
  · obtain ⟨content, hcontent, -⟩ := hp
    rw [hmissing] at hcontent
    cases hcontent

end ContentStore

end Landropic.Cas
