import Landropic.Cas.Frames

set_option autoImplicit false

/-!
# Batched writes

Flushing the batch drains it before the writes are done, and returns at the first one that failed.
As long as none fails, what was queued is stored when the flush returns.

## Main definitions

* `Cas.ContentStore.Kept` — what an object may hold: what was there at first, or else the stored
  form of its data.
* `Cas.ContentStore.BatchSound` — what is queued belongs where it goes, and what was written is
  stored.
* `Cas.ContentStore.jobSpec`, `Cas.ContentStore.flushSpec` — the specifications of a batched write
  and of the calls that queue and flush.
* `Cas.ContentStore.Saves` — what was promised is queued, drained or stored.

## Main results

* `Cas.ContentStore.wp_serveJob` — a batched write stores its object, or its compression fails.
* `Cas.ContentStore.wp_writeBatch`, `Cas.ContentStore.wp_flushBatch` — nothing that was queued is
  lost, and a flush that succeeds stores everything.
-/

namespace Landropic.Cas

open Proc

namespace ContentStore

variable (store : ContentStore) (fs₀ : Fs) (bytes : ContentHash → Bytes) (compresses : Prop)

/-- What an object may hold: what was there at first, or else the stored form of its data. -/
def Kept (hash : ContentHash) (content : Bytes) : Prop :=
  match fs₀.content (store.objectPath hash) with
  | some first => content = first
  | none => store.storedForm (bytes hash) = .ok content

/-- An object has a content on the disk. -/
def Stored (s : StoreState) (hash : ContentHash) : Prop :=
  ∃ content, s.fs.content (store.objectPath hash) = some content

/-- A write is of the data of its object, and can be compressed where compressions succeed. -/
def Belongs (w : ContentHash × Bytes) : Prop :=
  w.2 = bytes w.1 ∧ (compresses → ∃ stored, store.storedForm w.2 = .ok stored)

/-- A batched write has ended: its object is stored, or its compression has failed. -/
def Accounts (s : StoreState) (job : ℕ) (r : Except CasError ObjectRef) : Prop :=
  ∃ w, s.spawned[job]? = some w ∧ match r with
    | .ok _ => store.Stored s w.1
    | .error _ => ¬ compresses

/-- What holds of a store while batched writes are at work. -/
structure BatchSound (s : StoreState) : Prop where
  tidy : store.Tidy (store.Kept fs₀ bytes) s.fs
  /-- What was there at first is still stored. -/
  first : ∀ hash data, fs₀.content (store.objectPath hash) = some data → store.Stored s hash
  /-- What the dedup index has is stored. -/
  index : ∀ hash ref, s.dedupIndex.lookup hash = some ref → store.Stored s hash
  pending : ∀ w ∈ s.batchWriter.pending, store.Belongs bytes compresses w
  spawned : ∀ w ∈ s.spawned, store.Belongs bytes compresses w
  results : ∀ job r, s.results job = some r → store.Accounts compresses s job r

/-- The specification of a batched write. -/
def jobSpec (hash : ContentHash) : Spec StoreState Io Op where
  env l s s' :=
    store.Undisturbed (store.Kept fs₀ bytes) hash (l.bind Op.holds = some (store.objectTemp hash))
      s.fs s'.fs ∧ s.spawned <+: s'.spawned ∧
        ((∀ hash data, fs₀.content (store.objectPath hash) = some data → store.Stored s hash) →
          ∀ hash data, fs₀.content (store.objectPath hash) = some data → store.Stored s' hash)
  env_refl l s := ⟨(store.writerSpec (store.Kept fs₀ bytes) hash False).env_refl l s,
    List.prefix_refl _, id⟩
  env_trans h h' := ⟨(store.writerSpec (store.Kept fs₀ bytes) hash False).env_trans h.1 h'.1,
    h.2.1.trans h'.2.1, h'.2.2 ∘ h.2.2⟩
  input _ _ i := i ≠ .fail
  guar op s s' := store.Disturbs (store.Kept fs₀ bytes) hash op s.fs s'.fs ∧
    s'.batchWriter = s.batchWriter ∧ s'.spawned = s.spawned ∧
    (∀ hash ref, s'.dedupIndex.lookup hash = some ref →
      s.dedupIndex.lookup hash = some ref ∨ store.Stored s' hash) ∧
    ∀ job r, s'.results job = some r → s.results job = some r ∨ store.Accounts compresses s' job r
  progress := False

/-- The specification of the calls that queue writes and flush them. -/
def flushSpec : Spec StoreState Io Op where
  env _ s s' := (store.BatchSound fs₀ bytes compresses s →
    store.BatchSound fs₀ bytes compresses s') ∧
    (∀ hash, store.Stored s hash → store.Stored s' hash) ∧ s'.batchWriter = s.batchWriter ∧
    s'.spawned = s.spawned
  env_refl _ _ := ⟨id, fun _ => id, rfl, rfl⟩
  env_trans h h' := ⟨h'.1 ∘ h.1, fun hash => h'.2.1 hash ∘ h.2.1 hash, h'.2.2.1.trans h.2.2.1,
    h'.2.2.2.trans h.2.2.2⟩
  input _ _ _ := True
  guar _ s s' := s'.fs = s.fs ∧ s.spawned <+: s'.spawned ∧
    (store.BatchSound fs₀ bytes compresses s → store.BatchSound fs₀ bytes compresses s')
  progress := False

/-- All writes of `K` are of the data of their objects, and are among those that are still to be
carried out, or stored; the batch has `pending` in it, and everything is sound. -/
structure Saves (pending rest : List (ContentHash × Bytes)) (K : ContentHash × Bytes → Prop)
    (s : StoreState) : Prop where
  sound : store.BatchSound fs₀ bytes compresses s
  pending_eq : s.batchWriter.pending = pending
  saved : ∀ w, K w → store.Belongs bytes compresses w ∧ (w ∈ rest ∨ store.Stored s w.1)

variable {store fs₀ bytes compresses} {ε α : Type} {hash : ContentHash} {data : Bytes}
  {s s' : StoreState} {w : ContentHash × Bytes}

/-! ## What is stored -/

lemma Kept.unique {content content' : Bytes} (h : store.Kept fs₀ bytes hash content)
    (h' : store.Kept fs₀ bytes hash content') : content = content' := by
  unfold Kept at h h'
  split at h
  · next first hfirst =>
    rw [hfirst] at h'
    exact h.trans h'.symm
  · next hnone =>
    rw [hnone] at h'
    exact Except.ok.inj (h.symm.trans h')

lemma Disturbs.stored {good : ContentHash → Bytes → Prop} {op : Op}
    (h : store.Disturbs good hash op s.fs s'.fs) {other : ContentHash}
    (hs : store.Stored s other) : store.Stored s' other := by
  obtain ⟨content, hcontent⟩ := hs
  by_cases ho : other = hash
  · subst ho
    exact h.content hcontent
  · exact ⟨content, (h.content_of_ne ho).trans hcontent⟩

lemma stored_of_pathExists {good : ContentHash → Bytes → Prop} (htidy : store.Tidy good s.fs)
    (h : s.fs.pathExists (store.objectPath hash) = true) : store.Stored s hash := by
  rcases Fs.pathExists_iff.mp h with hnil | ⟨node, hnode⟩
  · exact absurd (congrArg List.length hnil) (by simp)
  · cases node with
    | dir => exact absurd hnode (htidy.object_not_dir hash)
    | file i => exact ⟨_, Fs.content_of_lookup hnode⟩

lemma pathExists_of_stored (h : store.Stored s hash) :
    s.fs.pathExists (store.objectPath hash) = true := by
  obtain ⟨content, hcontent⟩ := h
  obtain ⟨i, hi, -⟩ := Fs.content_eq_some.mp hcontent
  exact Fs.pathExists_of_lookup hi

lemma getElem?_of_prefix {l l' : List α} {i : ℕ} {a : α} (h : l <+: l') (ha : l[i]? = some a) :
    l'[i]? = some a := by
  obtain ⟨hlt, rfl⟩ := List.getElem?_eq_some_iff.mp ha
  exact List.prefix_iff_getElem?.mp h i hlt

lemma Accounts.mono {job : ℕ} {r : Except CasError ObjectRef}
    (h : store.Accounts compresses s job r) (hspawned : s.spawned <+: s'.spawned)
    (hstored : ∀ hash, store.Stored s hash → store.Stored s' hash) :
    store.Accounts compresses s' job r := by
  obtain ⟨w, hw, hr⟩ := h
  refine ⟨w, getElem?_of_prefix hspawned hw, ?_⟩
  cases r with
  | ok ref => exact hstored _ hr
  | error e => exact hr

lemma BatchSound.of_guar (hs : store.BatchSound fs₀ bytes compresses s) {op : Op}
    (h : (store.jobSpec fs₀ bytes compresses hash).guar op s s') :
    store.BatchSound fs₀ bytes compresses s' := by
  obtain ⟨hdist, hbatch, hspawned, hindex, hresults⟩ := h
  have hstored : ∀ hash, store.Stored s hash → store.Stored s' hash := fun _ => hdist.stored
  refine ⟨hdist.tidy, fun hash data hfirst => hstored _ (hs.first hash data hfirst),
    fun other ref hlookup => ?_, ?_, ?_, fun job r hr => ?_⟩
  · rcases hindex other ref hlookup with hold | hnew
    · exact hstored _ (hs.index other ref hold)
    · exact hnew
  · rw [hbatch]
    exact hs.pending
  · rw [hspawned]
    exact hs.spawned
  · rcases hresults job r hr with hold | hnew
    · exact (hs.results job r hold).mono (hspawned ▸ List.prefix_refl _) hstored
    · exact hnew

/-! ## A batched write -/

section Job

lemma wp_job_of_writer {Q : Except ε α → StoreState → Prop} {t : Task ε α}
    (h : wp (store.writerSpec (store.Kept fs₀ bytes) hash False) Q t s)
    (hcalm : store.Calmly (fun _ => True) t) :
    wp (store.jobSpec fs₀ bytes compresses hash) Q t s := by
  refine wp_weaken (wp_mono (wp_of_guarantees h hcalm) fun _ _ hr => hr.1)
    (fun _ _ _ henv => henv.1) (fun _ _ _ hi hfail => hi hfail) ?_ False.elim
  rintro op s s' ⟨hdist, hcalm⟩
  obtain ⟨fs, pending, rfl⟩ := hcalm.memory
  exact ⟨hdist, rfl, rfl, fun _ _ => .inl, fun _ _ => .inl⟩

/-- A batched write has its object: the tree is in order, and the object is stored. -/
def HasObject (store : ContentStore) (fs₀ : Fs) (bytes : ContentHash → Bytes) (hash : ContentHash)
    (s : StoreState) : Prop := store.Tidy (store.Kept fs₀ bytes) s.fs ∧ store.Stored s hash

lemma HasObject.of_env {l : Option Op} (h : store.HasObject fs₀ bytes hash s)
    (henv : (store.jobSpec fs₀ bytes compresses hash).env l s s') :
    store.HasObject fs₀ bytes hash s' := by
  obtain ⟨htidy, content, hcontent⟩ := h
  exact ⟨henv.1.tidy htidy, content, henv.1.content hcontent⟩

/-- An action in memory of a batched write that has its object. -/
lemma wp_job_memory {G : Op → StoreState → StoreState → Prop} {Q : Except ε α → Prop}
    {t : Task ε α} (h : Guarantees G Q t) (hs : store.HasObject fs₀ bytes hash s)
    (hG : ∀ op s s', G op s s' → op.touches = none ∧ s'.fs = s.fs ∧ s'.batchWriter = s.batchWriter ∧
      s'.spawned = s.spawned ∧ s'.results = s.results ∧ ∀ other ref,
        s'.dedupIndex.lookup other = some ref →
          s.dedupIndex.lookup other = some ref ∨ other = hash) :
    wp (store.jobSpec fs₀ bytes compresses hash)
      (fun r s => Q r ∧ store.HasObject fs₀ bytes hash s) t s := by
  refine Guarantees.wp h hs id ?_
  intro op s s' s'' hs henv hop
  obtain ⟨htouches, hfs, hbatch, hspawned, hresults, hindex⟩ := hG op s' s'' hop
  obtain ⟨htidy, hstored⟩ := hs.of_env henv
  have hstored' : store.Stored s'' hash := by
    rw [Stored, hfs]
    exact hstored
  refine ⟨⟨?_, hbatch, hspawned, fun other ref hlookup => ?_, fun job r hr => ?_⟩, ?_, hstored'⟩
  · rw [hfs]
    exact .refl htidy fun hp => by simp [htouches] at hp
  · refine (hindex other ref hlookup).imp_right ?_
    rintro rfl
    exact hstored'
  · rw [hresults] at hr
    exact .inl hr
  · rw [hfs]
    exact htidy

/-- A batched write of data that belongs to its object stores it, or its compression fails. -/
lemma wp_writeIndividualOptimized (htidy : store.Tidy (store.Kept fs₀ bytes) s.fs)
    (hfirst : ∀ hash data, fs₀.content (store.objectPath hash) = some data → store.Stored s hash)
    (hw : store.Belongs bytes compresses (hash, data)) :
    wp (store.jobSpec fs₀ bytes compresses hash)
      (fun r s => store.Tidy (store.Kept fs₀ bytes) s.fs ∧ match r with
        | .ok _ => store.Stored s hash
        | .error _ => ¬ compresses)
      (store.writeIndividualOptimized data hash) s := by
  refine wp_bind (wp_pathExists (fun s' _ hi => absurd rfl hi) fun s₁ n henv _ => ?_)
  have htidy₁ := henv.1.tidy htidy
  have hfirst₁ := henv.2.2 hfirst
  refine ⟨⟨.refl htidy₁ (by rintro p ⟨⟩), rfl, rfl, fun _ _ => .inl, fun _ _ => .inl⟩, ?_⟩
  dsimp only
  split
  · next hexists => exact ⟨htidy₁, stored_of_pathExists htidy₁ hexists⟩
  · next hmissing =>
    cases hform : store.storedForm data with
    | error e =>
      refine ⟨htidy₁, fun hcompresses => ?_⟩
      obtain ⟨stored, hstored⟩ := hw.2 hcompresses
      cases hform.symm.trans hstored
    | ok stored =>
      have hkept : store.Kept fs₀ bytes hash stored := by
        unfold Kept
        split
        · next first hsome =>
          exact absurd (pathExists_of_stored (hfirst₁ hash first hsome)) hmissing
        · rw [← hw.1]
          exact hform
      rw [ofExcept_ok_bind]
      refine wp_bind (wp_mono (wp_job_of_writer (wp_createShardDir htidy₁)
        (store.calmly_createShardDir hash)) ?_)
      rintro (e | u) s₂ ⟨htidy₂, hdir⟩
      · exact hdir.elim
      refine wp_bind (wp_mono (wp_job_of_writer (wp_writeAtomic htidy₂ hdir hkept)
        (store.calmly_writeAtomic hash stored)) ?_)
      rintro (e | u) s₃ ⟨htidy₃, -, hdone⟩
      · exact hdone.elim
      refine wp_bind (wp_mono (wp_job_memory (store.onCache_cachePut hash data)
        ⟨htidy₃, stored, hdone⟩ ?_) ?_)
      · rintro op s s' ⟨⟨cache, stuck, rfl⟩, hop⟩
        have htouches : op.touches = none := by
          rcases hop with rfl | rfl
          · rfl
          · rfl
        exact ⟨htouches, rfl, rfl, rfl, rfl, fun _ _ => .inl⟩
      rintro _ s₄ ⟨⟨u, rfl⟩, hobject⟩
      refine wp_bind (wp_mono (wp_job_memory (G := fun op s s' => op = .dedupIndex ∧
        s' = { s with dedupIndex := s.dedupIndex.insert hash ⟨hash, data.length⟩ })
        (Q := fun r => ∃ u, r = .ok u) (Guarantees.atom fun _ _ => ⟨⟨rfl, rfl⟩, _, rfl⟩) hobject
        ?_) ?_)
      · rintro op s s' ⟨rfl, rfl⟩
        refine ⟨rfl, rfl, rfl, rfl, rfl, fun other ref hlookup => ?_⟩
        obtain ⟨rfl, -⟩ | ⟨-, hlookup⟩ := HashMap.lookup_insert_cases hlookup
        · exact .inr rfl
        · exact .inl hlookup
      rintro _ s₅ ⟨⟨u, rfl⟩, hobject⟩
      exact hobject

/-- **A batched write** leaves what it returns accounted for. -/
theorem wp_serveJob {job : ℕ} (hs : store.BatchSound fs₀ bytes compresses s)
    (hjob : s.spawned[job]? = some (hash, data)) :
    wp (store.jobSpec fs₀ bytes compresses hash) (fun _ _ => True)
      (store.serveJob job hash data) s := by
  have hbelongs := hs.spawned _ (List.mem_of_getElem? hjob)
  refine wp_bind (wp_bind (wp_attempt (wp_mono (wp_frame
    (wp_writeIndividualOptimized hs.tidy hs.first hbelongs) hjob
    (fun l s s' henv => getElem?_of_prefix henv.2.1)
    fun l s s' hguar => getElem?_of_prefix (hguar.2.2.1 ▸ List.prefix_refl _)) ?_)))
  rintro r s ⟨⟨htidy, hr⟩, hw⟩
  refine wp_modify fun s' henv => ?_
  have hw' := getElem?_of_prefix henv.2.1 hw
  refine ⟨⟨.refl (henv.1.tidy htidy) (by rintro p ⟨⟩), rfl, rfl, fun _ _ => .inl, ?_⟩, trivial⟩
  intro other r' hr'
  by_cases ho : other = job
  · subst ho
    obtain rfl : r = r' := by simpa using hr'
    refine .inr ⟨_, hw', ?_⟩
    cases r with
    | error e => exact hr
    | ok ref =>
      obtain ⟨content, hcontent⟩ := hr
      exact ⟨content, henv.1.content hcontent⟩
  · dsimp only at hr'
    rw [Function.update_of_ne ho] at hr'
    exact .inl hr'

end Job

/-! ## Queueing and flushing -/

section Flush

variable {pending rest : List (ContentHash × Bytes)} {K K' : ContentHash × Bytes → Prop}

/-- The write that a chunk of a batch asks for. -/
def toWrite (store : ContentStore) (chunk : Bytes × Option ContentHash) : ContentHash × Bytes :=
  (chunk.2.getD (store.blake3 chunk.1), chunk.1)

lemma Saves.of_env {l : Option Op} (h : store.Saves fs₀ bytes compresses pending rest K s)
    (henv : (store.flushSpec fs₀ bytes compresses).env l s s') :
    store.Saves fs₀ bytes compresses pending rest K s' :=
  ⟨henv.1 h.sound, henv.2.2.1 ▸ h.pending_eq,
    fun w hw => (h.saved w hw).imp_right fun hs => hs.imp_right (henv.2.1 w.1)⟩

lemma Saves.mono (h : store.Saves fs₀ bytes compresses pending rest K s) (hK : ∀ w, K' w → K w) :
    store.Saves fs₀ bytes compresses pending rest K' s :=
  ⟨h.sound, h.pending_eq, fun w hw => h.saved w (hK w hw)⟩

lemma BatchSound.withBatch (h : store.BatchSound fs₀ bytes compresses s) {batch : BatchWriter}
    (hpending : ∀ w ∈ batch.pending, store.Belongs bytes compresses w) :
    store.BatchSound fs₀ bytes compresses { s with batchWriter := batch } :=
  ⟨h.tidy, h.first, h.index, hpending, h.spawned, h.results⟩

lemma BatchSound.acquired (h : store.BatchSound fs₀ bytes compresses s) :
    store.BatchSound fs₀ bytes compresses { s with permits := s.permits - 1 } :=
  ⟨h.tidy, h.first, h.index, h.pending, h.spawned, h.results⟩

lemma BatchSound.withSpawned (h : store.BatchSound fs₀ bytes compresses s)
    (hw : store.Belongs bytes compresses w) :
    store.BatchSound fs₀ bytes compresses { s with spawned := s.spawned ++ [w] } where
  tidy := h.tidy
  first := h.first
  index := h.index
  pending := h.pending
  spawned w' hmem := by
    rcases List.mem_append.mp hmem with hold | hnew
    · exact h.spawned w' hold
    · exact List.mem_singleton.mp hnew ▸ hw
  results job r hr :=
    (h.results job r hr).mono (List.prefix_append _ _) fun _ hstored => hstored

lemma wp_drainPending (hs : store.Saves fs₀ bytes compresses pending pending K s) :
    wp (store.flushSpec fs₀ bytes compresses) (fun r s => r = .ok pending ∧
        (∀ w ∈ pending, store.Belongs bytes compresses w) ∧
        store.Saves fs₀ bytes compresses [] pending K s)
      (drainPending : Task ε (List (ContentHash × Bytes))) s := by
  refine wp_modify fun s' henv => ?_
  have hs' := hs.of_env henv
  refine ⟨⟨rfl, List.prefix_refl _, fun h => h.withBatch (by rintro w ⟨⟩)⟩,
    congrArg Except.ok hs'.pending_eq, hs'.pending_eq ▸ hs'.sound.pending,
    hs'.sound.withBatch (by rintro w ⟨⟩), rfl, hs'.saved⟩

/-- The writes are given to the runtime under their numbers. -/
lemma wp_spawnAll (writes : List (ContentHash × Bytes))
    (hbelongs : ∀ w ∈ writes, store.Belongs bytes compresses w)
    (hs : store.Saves fs₀ bytes compresses pending rest K s) :
    wp (store.flushSpec fs₀ bytes compresses) (fun r s => ∃ jobs, r = .ok jobs ∧
        List.Forall₂ (fun job w => s.spawned[job]? = some w) jobs writes ∧
        store.Saves fs₀ bytes compresses pending rest K s)
      (spawnAll writes : Task ε (List ℕ)) s := by
  induction writes generalizing s with
  | nil => exact ⟨[], rfl, .nil, hs⟩
  | cons w writes ih =>
    obtain ⟨hw, hwrites⟩ := List.forall_mem_cons.mp hbelongs
    refine wp_bind fun s₁ henv => ⟨False.elim, fun _ i _ => ?_⟩
    have hs₁ := hs.of_env henv
    refine ⟨⟨rfl, List.prefix_refl _, BatchSound.acquired⟩, ?_⟩
    have hs₁' : store.Saves fs₀ bytes compresses pending rest K
        { s₁ with permits := s₁.permits - 1 } :=
      ⟨hs₁.sound.acquired, hs₁.pending_eq, hs₁.saved⟩
    refine wp_bind (wp_modify fun s₂ henv₂ => ?_)
    have hs₂ := hs₁'.of_env henv₂
    have hprefix := List.prefix_append s₂.spawned [w]
    refine ⟨⟨rfl, hprefix, fun h => h.withSpawned hw⟩, ?_⟩
    have hs₂' : store.Saves fs₀ bytes compresses pending rest K
        { s₂ with spawned := s₂.spawned ++ [w] } :=
      ⟨hs₂.sound.withSpawned hw, hs₂.pending_eq, hs₂.saved⟩
    refine wp_bind (wp_mono (wp_frame (ih hwrites hs₂')
      (I := fun s => s.spawned[s₂.spawned.length]? = some w) (by simp)
      (fun _ _ _ henv => getElem?_of_prefix (henv.2.2.2 ▸ List.prefix_refl _))
      fun _ _ _ hguar => getElem?_of_prefix hguar.2.1) ?_)
    rintro _ s₃ ⟨⟨jobs, rfl, hjobs, hs₃⟩, hjob⟩
    exact ⟨_, rfl, .cons hjob hjobs, hs₃⟩

/-- Waiting for batched writes: all of them are stored, or a compression has failed. -/
lemma wp_awaitAll {jobs : List ℕ} (hs : store.Saves fs₀ bytes compresses pending rest K s)
    (hjobs : List.Forall₂ (fun job w => s.spawned[job]? = some w) jobs rest) :
    wp (store.flushSpec fs₀ bytes compresses) (fun r s => match r with
        | .ok _ => store.Saves fs₀ bytes compresses pending [] K s
        | .error _ => ¬ compresses) (awaitAll jobs) s := by
  induction jobs generalizing s rest with
  | nil =>
    cases hjobs
    exact hs
  | cons job jobs ih =>
    cases hjobs with
    | @cons _ w _ rest hjob hjobs =>
      refine wp_bind fun s₁ henv => ⟨False.elim, fun hready i _ => ?_⟩
      refine ⟨⟨rfl, List.prefix_refl _, id⟩, ?_⟩
      have hs₁ := hs.of_env henv
      rw [← henv.2.2.2] at hjob hjobs
      obtain ⟨r, hr⟩ := Option.isSome_iff_exists.mp hready
      obtain ⟨w', hw', haccount⟩ := hs₁.sound.results job r hr
      obtain rfl := Option.some.inj (hjob.symm.trans hw')
      simp only [hr, Option.getD_some]
      cases r with
      | error e => exact haccount
      | ok ref =>
        refine ih ⟨hs₁.sound, hs₁.pending_eq, fun w' hK => (hs₁.saved w' hK).imp_right ?_⟩ hjobs
        rintro (hmem | hstored)
        · rcases List.mem_cons.mp hmem with rfl | hrest
          · exact .inr haccount
          · exact .inl hrest
        · exact .inr hstored

/-- An action of a call that leaves the state as it is. -/
lemma wp_flush_still {op : Op} {f : Io → StoreState → Except ε α × StoreState}
    {Q : Except ε α → StoreState → Prop}
    (hs : store.Saves fs₀ bytes compresses pending rest K s) (hf : ∀ i s, (f i s).2 = s)
    (h : ∀ i s, store.Saves fs₀ bytes compresses pending rest K s → Q (f i s).1 s) :
    wp (store.flushSpec fs₀ bytes compresses) Q (Proc.atom op f) s := by
  refine wp_atom fun s' henv i _ => ?_
  rw [hf]
  exact ⟨⟨rfl, List.prefix_refl _, id⟩, h i s' (hs.of_env henv)⟩

/-- **Flushing the batch** stores everything, unless a compression fails. -/
theorem wp_flushBatchInternal (hs : store.Saves fs₀ bytes compresses pending pending K s) :
    wp (store.flushSpec fs₀ bytes compresses) (fun r s => match r with
        | .ok _ => store.Saves fs₀ bytes compresses [] [] K s
        | .error _ => ¬ compresses) flushBatchInternal s := by
  refine wp_bind (wp_mono (wp_drainPending hs) ?_)
  rintro _ s₁ ⟨rfl, hbelongs, hs₁⟩
  dsimp only
  split
  · next hempty =>
    rw [List.isEmpty_iff.mp hempty] at hs₁
    exact hs₁
  · refine wp_bind (wp_mono (wp_spawnAll pending hbelongs hs₁) ?_)
    rintro _ s₂ ⟨jobs, rfl, hjobs, hs₂⟩
    refine wp_bind (wp_mono (wp_awaitAll hs₂ hjobs) ?_)
    rintro (e | u) s₃ hs₃
    · exact hs₃
    · refine wp_bind (wp_flush_still hs₃ (fun _ _ => rfl) fun i s₄ hs₄ =>
        wp_modify fun s₅ henv => ?_)
      have hs₅ := hs₄.of_env henv
      exact ⟨⟨rfl, List.prefix_refl _, fun h => h.withBatch h.pending⟩,
        hs₅.sound.withBatch hs₅.sound.pending, hs₅.pending_eq, hs₅.saved⟩

/-- **Flushing the batch**, if there is anything in it. -/
theorem wp_flushBatch (hs : store.Saves fs₀ bytes compresses pending pending K s) :
    wp (store.flushSpec fs₀ bytes compresses) (fun r s => match r with
        | .ok _ => store.Saves fs₀ bytes compresses [] [] K s
        | .error _ => ¬ compresses) flushBatch s := by
  refine wp_bind (wp_flush_still hs (fun _ _ => rfl) fun i s₁ hs₁ => ?_)
  dsimp only
  split
  · next hempty =>
    rw [hs₁.pending_eq] at hempty
    rw [List.isEmpty_iff.mp hempty] at hs₁
    exact hs₁
  · exact wp_flushBatchInternal hs₁

/-- A write is queued, or its object is stored. -/
lemma wp_queue (hw : store.Belongs bytes compresses (hash, data))
    (hs : store.Saves fs₀ bytes compresses pending pending K s) :
    wp (store.flushSpec fs₀ bytes compresses) (fun r s => ∃ ref pending', r = .ok ref ∧
        store.Saves fs₀ bytes compresses pending' pending' (fun w => K w ∨ w = (hash, data)) s)
      (queue hash data) s := by
  refine wp_bind (wp_flush_still hs (fun _ _ => rfl) fun i s₁ hs₁ => ?_)
  dsimp only
  split
  · next ref hlookup =>
    refine ⟨ref, pending, rfl, hs₁.sound, hs₁.pending_eq, ?_⟩
    rintro w (hK | rfl)
    · exact hs₁.saved w hK
    · exact ⟨hw, .inr (hs₁.sound.index hash ref hlookup)⟩
  · refine wp_bind (wp_modify fun s₂ henv => ?_)
    have hs₂ := hs₁.of_env henv
    have hall : ∀ s : StoreState, store.BatchSound fs₀ bytes compresses s →
        ∀ w ∈ s.batchWriter.pending ++ [(hash, data)], store.Belongs bytes compresses w := by
      intro s h w hmem
      rcases List.mem_append.mp hmem with hold | hnew
      · exact h.pending w hold
      · exact List.mem_singleton.mp hnew ▸ hw
    refine ⟨⟨rfl, List.prefix_refl _, fun h => h.withBatch (hall _ h)⟩, _, _, rfl,
      hs₂.sound.withBatch (hall _ hs₂.sound), rfl, ?_⟩
    rw [hs₂.pending_eq]
    rintro w (hK | rfl)
    · exact (hs₂.saved w hK).imp_right (Or.imp_left (List.mem_append_left _))
    · exact ⟨hw, .inl (by simp)⟩

lemma wp_queueAll {chunks : List (Bytes × Option ContentHash)}
    (hchunks : ∀ chunk ∈ chunks, store.Belongs bytes compresses (store.toWrite chunk))
    (hs : store.Saves fs₀ bytes compresses pending pending K s) :
    wp (store.flushSpec fs₀ bytes compresses) (fun r s => ∃ pending',
        store.Saves fs₀ bytes compresses pending' pending'
          (fun w => K w ∨ (∃ refs, r = .ok refs) ∧ w ∈ chunks.map store.toWrite) s)
      (store.queueAll chunks) s := by
  induction chunks generalizing s pending K with
  | nil => exact ⟨pending, hs.mono (by simp)⟩
  | cons chunk chunks ih =>
    obtain ⟨hchunk, hrest⟩ := List.forall_mem_cons.mp hchunks
    rw [queueAll]
    split
    · exact ⟨pending, hs.mono (by simp)⟩
    · refine wp_bind (wp_mono (wp_queue hchunk hs) ?_)
      rintro _ s₁ ⟨ref, pending₁, rfl, hs₁⟩
      refine wp_bind (wp_mono (ih hrest hs₁) ?_)
      rintro (e | refs) s₂ ⟨pending₂, hs₂⟩
      · exact ⟨pending₂, hs₂.mono (by simp +contextual)⟩
      · refine ⟨pending₂, hs₂.mono ?_⟩
        rintro w (hK | ⟨-, hmem⟩)
        · exact .inl (.inl hK)
        · rcases List.mem_cons.mp hmem with rfl | hmem
          · exact .inl (.inr rfl)
          · exact .inr ⟨⟨_, rfl⟩, hmem⟩

/-- **Writing a batch** queues its writes or stores them, unless a compression fails. -/
theorem wp_writeBatch {chunks : List (Bytes × Option ContentHash)}
    (hchunks : ∀ chunk ∈ chunks, store.Belongs bytes compresses (store.toWrite chunk))
    (hs : store.Saves fs₀ bytes compresses pending pending K s) :
    wp (store.flushSpec fs₀ bytes compresses) (fun r s => (∃ e, r = .error e) ∧ ¬ compresses ∨
        ∃ pending', store.Saves fs₀ bytes compresses pending' pending'
          (fun w => K w ∨ (∃ refs, r = .ok refs) ∧ w ∈ chunks.map store.toWrite) s)
      (store.writeBatch chunks) s := by
  refine wp_bind (wp_mono (wp_queueAll hchunks hs) ?_)
  rintro (e | refs) s₁ ⟨pending₁, hs₁⟩
  · exact .inr ⟨pending₁, hs₁⟩
  · refine wp_bind (wp_flush_still hs₁ (fun _ _ => rfl) fun i s₂ hs₂ => ?_)
    dsimp only
    generalize s₂.batchWriter.shouldFlush _ = flush
    cases flush with
    | true =>
      refine wp_bind (wp_mono (wp_flushBatchInternal hs₂) ?_)
      rintro (e | u) s₃ hs₃
      · exact .inl ⟨⟨e, rfl⟩, hs₃⟩
      · exact .inr ⟨[], hs₃⟩
    | false => exact .inr ⟨pending₁, hs₂⟩

end Flush

end ContentStore

end Landropic.Cas
