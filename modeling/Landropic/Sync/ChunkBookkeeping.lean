import Landropic.Foundations.Pool
import Landropic.Sync.SessionPersistence

set_option autoImplicit false

/-!
# The chunks of a sync session

A session divides its chunks into those that are pending, those that were transferred and those
whose transfer failed, and counts the bytes transferred. Calls report chunks as completed or failed,
in any order and several at once. The division and the count stay right exactly as long as no call
is about a chunk that was completed before: a late failure enters the chunk among the failed ones
and leaves it among the completed ones, and a repeated completion counts its bytes again.

## Main definitions

* `PersistedSyncSession.Partition` — the chunks are divided.
* `ChunkCall` — a call about a chunk.
* `ChunkCall.CountedOnce` — the bytes of each chunk are counted at most once.
* `SyncPersistenceManager.marking` — any number of such calls on a session.
* `SyncPersistenceManager.BooksBalance` — the division and the count are right.
* `SyncPersistenceManager.OnOpenChunks` — the steps that change no completed chunk.

## Main results

* `SyncPersistenceManager.sessions_of_startSession` — what is started is in memory.
* `SyncPersistenceManager.mark_step_cases` — what a step of a call can be.
* `SyncPersistenceManager.booksBalance_of_run` — when division and count are right.
-/

namespace Landropic

namespace PersistedSyncSession

/-- The chunks of a session. -/
def chunks (session : PersistedSyncSession) : Finset Text :=
  session.pendingChunks ∪ session.completedChunks ∪ session.failedChunks

/-- No chunk of a session is in two of its sets. -/
structure Divided (session : PersistedSyncSession) : Prop where
  pending_completed : Disjoint session.pendingChunks session.completedChunks
  pending_failed : Disjoint session.pendingChunks session.failedChunks
  completed_failed : Disjoint session.completedChunks session.failedChunks

/-- The sets of a session divide the given chunks. -/
structure Partition (session : PersistedSyncSession) (all : Finset Text) : Prop
    extends session.Divided where
  chunks_eq : session.chunks = all

end PersistedSyncSession

/-- A call about a chunk of a session. -/
inductive ChunkCall
  | markChunkCompleted (chunkHash : Text) (chunkSize : UInt64)
  | markChunkFailed (chunkHash : Text)

namespace ChunkCall

/-- The chunk of a call. -/
def chunkHash : ChunkCall → Text
  | markChunkCompleted chunkHash _ => chunkHash
  | markChunkFailed chunkHash => chunkHash

/-- A call counts the bytes of its chunk. -/
def Counts : ChunkCall → Prop
  | markChunkCompleted _ _ => True
  | markChunkFailed _ => False

instance (c : ChunkCall) : Decidable c.Counts :=
  match c with
  | markChunkCompleted _ _ => .isTrue trivial
  | markChunkFailed _ => .isFalse id

/-- The bytes that a call counts. -/
def bytes : ChunkCall → ℕ
  | markChunkCompleted _ chunkSize => chunkSize.toNat
  | markChunkFailed _ => 0

/-- What a call makes of the session. -/
def update (now : DateTime) (session : PersistedSyncSession) : ChunkCall → PersistedSyncSession
  | markChunkCompleted chunkHash chunkSize =>
    { session.markChunkCompleted now chunkHash with
      transferredBytes := session.transferredBytes + chunkSize }
  | markChunkFailed chunkHash => session.markChunkFailed now chunkHash

variable {τ : Type}

/-- The total is what was transferred at first and what the calls made so far have counted, and they
count no chunk twice and none that was completed at first. -/
structure CountedOnce (calls : τ → ChunkCall) (made : Finset τ)
    (started session : PersistedSyncSession) : Prop where
  total : session.transferredBytes.toNat =
    (started.transferredBytes.toNat + ∑ t ∈ made, (calls t).bytes) % 2 ^ 64
  once : ∀ t ∈ made, ∀ u ∈ made, (calls t).Counts → (calls u).Counts →
    (calls t).chunkHash = (calls u).chunkHash → t = u
  fresh : ∀ t ∈ made, (calls t).Counts → (calls t).chunkHash ∉ started.completedChunks

section Update

variable {τ : Type} {session started : PersistedSyncSession} {all : Finset Text} {now : DateTime}
  {c : ChunkCall}

lemma completedChunks_update : (c.update now session).completedChunks =
    if c.Counts then insert c.chunkHash session.completedChunks else session.completedChunks := by
  cases c with
  | markChunkCompleted chunkHash chunkSize => exact (if_pos trivial).symm
  | markChunkFailed chunkHash => exact (if_neg id).symm

lemma chunks_update : (c.update now session).chunks = insert c.chunkHash session.chunks := by
  ext chunk
  cases c with
  | markChunkCompleted chunkHash chunkSize =>
    simp only [update, PersistedSyncSession.markChunkCompleted, PersistedSyncSession.chunks,
      ChunkCall.chunkHash, Finset.mem_union, Finset.mem_insert, Finset.mem_erase]
    tauto
  | markChunkFailed chunkHash =>
    simp only [update, PersistedSyncSession.markChunkFailed, PersistedSyncSession.chunks,
      ChunkCall.chunkHash, Finset.mem_union, Finset.mem_insert, Finset.mem_erase]
    tauto

lemma divided_update (h : session.Divided) : (c.update now session).Divided ↔
    (c.chunkHash ∈ session.completedChunks → c.Counts) := by
  cases c with
  | markChunkCompleted chunkHash chunkSize =>
    refine iff_of_true ⟨?_, ?_, ?_⟩ fun _ => trivial
    · refine Finset.disjoint_insert_right.mpr ⟨Finset.notMem_erase _ _, ?_⟩
      exact Finset.disjoint_of_subset_left (Finset.erase_subset _ _) h.pending_completed
    · exact Finset.disjoint_of_subset_left (Finset.erase_subset _ _)
        (Finset.disjoint_of_subset_right (Finset.erase_subset _ _) h.pending_failed)
    · refine Finset.disjoint_insert_left.mpr ⟨Finset.notMem_erase _ _, ?_⟩
      exact Finset.disjoint_of_subset_right (Finset.erase_subset _ _) h.completed_failed
  | markChunkFailed chunkHash =>
    constructor
    · exact fun hdivided hmem => Finset.disjoint_left.mp hdivided.completed_failed hmem
        (Finset.mem_insert_self _ _)
    · intro hopen
      refine ⟨?_, ?_, ?_⟩
      · exact Finset.disjoint_of_subset_left (Finset.erase_subset _ _) h.pending_completed
      · refine Finset.disjoint_insert_right.mpr ⟨Finset.notMem_erase _ _, ?_⟩
        exact Finset.disjoint_of_subset_left (Finset.erase_subset _ _) h.pending_failed
      · exact Finset.disjoint_insert_right.mpr ⟨hopen, h.completed_failed⟩

/-- A call about a chunk of the session leaves the chunks divided, unless it reports the failure of
a completed one. -/
lemma partition_update (h : session.Partition all) (hmem : c.chunkHash ∈ all) :
    (c.update now session).Partition all ↔ (c.chunkHash ∈ session.completedChunks → c.Counts) := by
  have hdivided : (c.update now session).Divided ↔ _ := divided_update h.toDivided
  rw [← hdivided]
  refine ⟨fun hpartition => hpartition.toDivided, fun hdivided => ⟨hdivided, ?_⟩⟩
  rw [chunks_update, h.chunks_eq, Finset.insert_eq_of_mem hmem]

lemma transferredBytes_update : (c.update now session).transferredBytes.toNat =
    (session.transferredBytes.toNat + c.bytes) % 2 ^ 64 := by
  cases c with
  | markChunkCompleted chunkHash chunkSize => exact UInt64.toNat_add _ _
  | markChunkFailed chunkHash => exact (Nat.mod_eq_of_lt session.transferredBytes.toNat_lt).symm

variable [DecidableEq τ] {calls : τ → ChunkCall} {made : Finset τ} {t : τ}

/-- A call counts its bytes once exactly when it does not complete a chunk again. -/
lemma countedOnce_update (h : CountedOnce calls made started session) (ht : t ∉ made)
    (hcompleted : ∀ chunk, chunk ∈ session.completedChunks ↔ chunk ∈ started.completedChunks ∨
      ∃ u ∈ made, (calls u).Counts ∧ (calls u).chunkHash = chunk) :
    CountedOnce calls (insert t made) started ((calls t).update now session) ↔
      ((calls t).chunkHash ∈ session.completedChunks → ¬ (calls t).Counts) := by
  constructor
  · intro hcounted hmem hcounts
    obtain hstarted | ⟨u, hu, hucounts, hchunk⟩ := (hcompleted _).mp hmem
    · exact hcounted.fresh t (Finset.mem_insert_self _ _) hcounts hstarted
    · obtain rfl := hcounted.once u (Finset.mem_insert_of_mem hu) t (Finset.mem_insert_self _ _)
        hucounts hcounts hchunk
      exact ht hu
  · intro hopen
    have hnew (hcounts : (calls t).Counts) : (calls t).chunkHash ∉ started.completedChunks ∧
        ∀ u ∈ made, (calls u).Counts → (calls u).chunkHash ≠ (calls t).chunkHash := by
      have hnot := mt (fun h => hopen h) (not_not_intro hcounts)
      rw [hcompleted, not_or] at hnot
      exact ⟨hnot.1, fun u hu hucounts hchunk => hnot.2 ⟨u, hu, hucounts, hchunk⟩⟩
    refine ⟨?_, fun u hu v hv hucounts hvcounts hchunk => ?_, fun u hu hucounts => ?_⟩
    · rw [transferredBytes_update, h.total, Finset.sum_insert ht, Nat.mod_add_mod]
      congr 1
      omega
    · obtain rfl | humade := Finset.mem_insert.mp hu
      · obtain rfl | hvmade := Finset.mem_insert.mp hv
        · rfl
        · exact absurd hchunk.symm ((hnew hucounts).2 v hvmade hvcounts)
      · obtain rfl | hvmade := Finset.mem_insert.mp hv
        · exact absurd hchunk ((hnew hvcounts).2 u humade hucounts)
        · exact h.once u humade v hvmade hucounts hvcounts hchunk
    · obtain rfl | humade := Finset.mem_insert.mp hu
      · exact (hnew hucounts).1
      · exact h.fresh u humade hucounts

end Update

end ChunkCall

namespace SyncPersistenceManager

open Proc

variable (manager : SyncPersistenceManager) (id : Text)

/-- The process of a call. -/
def markCode : ChunkCall → PersistenceTask Unit
  | .markChunkCompleted chunkHash chunkSize => manager.markChunkCompleted id chunkHash chunkSize
  | .markChunkFailed chunkHash => manager.markChunkFailed id chunkHash

/-- The state of a manager and some calls on it. -/
abbrev MarkPool (τ : Type) :=
  Pool τ PersistenceState PersistenceInput PersistenceOp PersistenceError Unit

variable {τ : Type}

/-- Tasks that each make a call about a chunk of a session. -/
def marking (calls : τ → ChunkCall) (s : PersistenceState) : MarkPool τ :=
  ⟨s, fun t => manager.markCode id (calls t)⟩

/-- The calls that have changed the session. -/
def made [Fintype τ] (P : MarkPool τ) : Finset τ :=
  Finset.univ.filter fun t => (P.task t).head ≠ some .update

/-- The session in memory divides the chunks it was started with, and their bytes are counted at
most once. -/
def BooksBalance [Fintype τ] (calls : τ → ChunkCall) (started : PersistedSyncSession)
    (P : MarkPool τ) : Prop :=
  ∃ session, P.state.sessions.lookup started.sessionId = some session ∧
    session.Partition started.chunks ∧ ChunkCall.CountedOnce calls (made P) started session

/-- A step that, if it changes the session, is about a chunk that is not completed yet. -/
def OnOpenChunks (calls : τ → ChunkCall) (P : MarkPool τ) (t : τ) (_ : PersistenceInput) : Prop :=
  (P.task t).head = some .update → ∀ session, P.state.sessions.lookup id = some session →
    (calls t).chunkHash ∉ session.completedChunks

/-! ## The steps of a call -/

/-- What is left of a call that has changed the session: it changes no session. -/
structure Saves (task : PersistenceTask Unit) : Prop where
  unchanged :
    task.Guarantees (fun label s s' => label ≠ .update ∧ s'.sessions = s.sessions) fun _ => True
  enabled : task.Enabled

variable {manager id} {s s' : PersistenceState} {task task' : PersistenceTask Unit}
  {i : PersistenceInput} {c : ChunkCall} {session started : PersistedSyncSession}

lemma Saves.head_ne (h : Saves task) : task.head ≠ some .update := by
  cases task with
  | ret r => nofun
  | act label ready eff next =>
    obtain ⟨⟨s, hready⟩, -⟩ := h.enabled
    obtain ⟨⟨hlabel, -⟩, -⟩ := h.unchanged ⟨⟨0, 0⟩, 0, none⟩ s hready
    exact fun hhead => hlabel (Option.some.inj hhead)

lemma Saves.step (h : Saves task) (hstep : Proc.Step task s i task' s') :
    Saves task' ∧ s'.sessions = s.sessions := by
  obtain ⟨⟨l, -, -, hsessions⟩, hnext⟩ := h.unchanged.step hstep
  exact ⟨⟨hnext, h.enabled.step hstep⟩, hsessions⟩

lemma enabled_atom {α : Type} (label : PersistenceOp)
    (f : PersistenceInput → PersistenceState → Except PersistenceError α × PersistenceState) :
    (atom label f).Enabled :=
  ⟨⟨⟨∅, ∅, ∅⟩, rfl⟩, fun _ _ => trivial⟩

lemma saves_ret {r : Except PersistenceError Unit} : Saves (.ret r) := ⟨trivial, trivial⟩

lemma saves_saveSession : Saves (manager.saveSession id) := by
  constructor
  · refine Guarantees.bind (Q := fun _ => True)
      (Guarantees.atom fun _ _ => ⟨⟨nofun, rfl⟩, trivial⟩) (fun _ _ => trivial) fun json _ => ?_
    cases json with
    | none => exact trivial
    | some content =>
      refine Guarantees.bind (Q := fun _ => True)
        (Guarantees.atom fun i s => ⟨⟨nofun, ?_⟩, trivial⟩) (fun _ _ => trivial) fun _ _ =>
          Guarantees.atom fun _ _ => ⟨⟨nofun, rfl⟩, trivial⟩
      cases i.refused <;> rfl
  · refine Enabled.bind (enabled_atom _ _) fun json => ?_
    cases json with
    | none => exact trivial
    | some content => exact Enabled.bind (enabled_atom _ _) fun _ => enabled_atom _ _

lemma saves_count {f : HashMap Text ℕ → HashMap Text ℕ} : Saves (do
    atom .count fun _ s => (.ok (), { s with chunkCounter := f s.chunkCounter })
    manager.saveSession id) where
  unchanged := Guarantees.bind (Q := fun _ => True)
    (Guarantees.atom fun _ _ => ⟨⟨nofun, rfl⟩, trivial⟩) (fun _ _ => trivial)
    fun _ _ => saves_saveSession.unchanged
  enabled := Enabled.bind (enabled_atom _ _) fun _ => saves_saveSession.enabled

/-- **What is started is in memory** when the call has returned, also when it could not be saved. -/
theorem sessions_of_startSession {A : PersistenceInput → Prop} {r : Except PersistenceError Unit}
    (h : Proc.Returns A (manager.startSession started) s r s') :
    s'.sessions.lookup started.sessionId = some started := by
  cases h with
  | act _ _ hrest =>
    refine (post_of_returns_mayBlock hrest (saves_count.unchanged.wp (S := .mayBlock _ A)
      (I := fun s => s.sessions.lookup started.sessionId = some started)
      (Finmap.lookup_insert _) id ?_)).2
    rintro l s₁ s₂ s₃ hs₁ rfl ⟨-, hsessions⟩
    exact ⟨trivial, by rw [hsessions]; exact hs₁⟩

lemma head_markCode : (manager.markCode id c).head = some .update := by
  cases c <;> rfl

/-- **What a step of a call can be**: the change of the session, or a step of saving it. -/
theorem mark_step_cases (h : Proc.Step task s i task' s')
    (htask : task = manager.markCode id c ∨ Saves task)
    (hsession : s.sessions.lookup id = some session) :
    Saves task' ∧ (task.head = some .update ∧
        s'.sessions = s.sessions.insert id (c.update i.now session) ∨
      task.head ≠ some .update ∧ s'.sessions = s.sessions) := by
  rcases htask with rfl | hsaves
  · rw [head_markCode]
    cases c with
    | markChunkCompleted chunkHash chunkSize =>
      cases h with
      | act _ =>
        simp only [hsession]
        refine ⟨?_, .inl ⟨trivial, rfl⟩⟩
        show Saves (if decide _ = true then _ else _)
        split
        · exact saves_count
        · exact saves_ret
    | markChunkFailed chunkHash =>
      cases h with
      | act _ =>
        simp only [hsession]
        exact ⟨saves_saveSession, .inl ⟨trivial, rfl⟩⟩
  · obtain ⟨hnext, hsessions⟩ := hsaves.step h
    exact ⟨hnext, .inr ⟨hsaves.head_ne, hsessions⟩⟩

/-! ## Any number of calls -/

variable [Fintype τ] {calls : τ → ChunkCall} {P P' : MarkPool τ} {t : τ}

lemma mem_made : t ∈ made P ↔ (P.task t).head ≠ some .update := by simp [made]

variable (manager calls started) in
/-- Calls at work on a session in memory. -/
structure Marking (P : MarkPool τ) : Prop where
  task : ∀ u, P.task u = manager.markCode started.sessionId (calls u) ∨ Saves (P.task u)
  session : ∃ session, P.state.sessions.lookup started.sessionId = some session
  /-- A chunk is completed if it was at first or a call has completed it. -/
  completed : ∀ session, P.state.sessions.lookup started.sessionId = some session → ∀ chunk,
    chunk ∈ session.completedChunks ↔ chunk ∈ started.completedChunks ∨
      ∃ u ∈ made P, (calls u).Counts ∧ (calls u).chunkHash = chunk

lemma made_marking : made (manager.marking id calls s) = ∅ := by
  apply Finset.filter_eq_empty_iff.mpr
  exact fun u _ => not_not_intro head_markCode

lemma Marking.start (h : s.sessions.lookup started.sessionId = some started) :
    Marking manager started calls (manager.marking started.sessionId calls s) := by
  refine ⟨fun u => .inl rfl, ⟨started, h⟩, fun session hsession chunk => ?_⟩
  obtain rfl := Option.some.inj (h.symm.trans hsession)
  rw [made_marking]
  simp

variable [DecidableEq τ]

/-- **What a step can be**: a call about a chunk changes the session and is made, or nothing that
counts is changed. -/
theorem Marking.step_cases (h : Marking manager started calls P) (hstep : P.Step t i P')
    (hsession : P.state.sessions.lookup started.sessionId = some session) :
    ((P.task t).head = some .update ∧ t ∉ made P ∧ made P' = insert t (made P) ∧
      P'.state.sessions.lookup started.sessionId = some ((calls t).update i.now session)) ∨
    ((P.task t).head ≠ some .update ∧ made P' = made P ∧
      P'.state.sessions = P.state.sessions) := by
  obtain ⟨hsaves, hcase⟩ := mark_step_cases hstep.proc (h.task t) hsession
  have hother {u : τ} (hu : u ≠ t) : u ∈ made P' ↔ u ∈ made P := by
    rw [mem_made, mem_made, hstep.task_of_ne hu]
  have hmade : t ∈ made P' := mem_made.mpr hsaves.head_ne
  rcases hcase with ⟨hhead, hsessions⟩ | ⟨hhead, hsessions⟩
  · refine .inl ⟨hhead, fun ht => mem_made.mp ht hhead, ?_, ?_⟩
    · ext u
      rw [Finset.mem_insert]
      by_cases hu : u = t
      · exact iff_of_true (hu ▸ hmade) (.inl hu)
      · rw [hother hu, or_iff_right hu]
    · rw [hsessions, Finmap.lookup_insert]
  · refine .inr ⟨hhead, ?_, hsessions⟩
    ext u
    by_cases hu : u = t
    · exact iff_of_true (hu ▸ hmade) (hu ▸ mem_made.mpr hhead)
    · exact hother hu

lemma Marking.step (h : Marking manager started calls P) (hstep : P.Step t i P') :
    Marking manager started calls P' := by
  obtain ⟨session, hsession⟩ := h.session
  have htask (u : τ) :
      P'.task u = manager.markCode started.sessionId (calls u) ∨ Saves (P'.task u) := by
    by_cases hu : u = t
    · subst hu
      exact .inr (mark_step_cases hstep.proc (h.task u) hsession).1
    · rw [hstep.task_of_ne hu]
      exact h.task u
  rcases h.step_cases hstep hsession with ⟨-, -, hmade, hlookup⟩ | ⟨-, hmade, hsessions⟩
  · refine ⟨htask, ⟨_, hlookup⟩, fun next hnext chunk => ?_⟩
    obtain rfl := Option.some.inj (hlookup.symm.trans hnext)
    rw [ChunkCall.completedChunks_update, hmade]
    have hcompleted := h.completed session hsession chunk
    split
    · next hcounts =>
      rw [Finset.mem_insert, hcompleted, Finset.exists_mem_insert]
      constructor
      · rintro (rfl | hstarted | hcalls)
        · exact .inr (.inl ⟨hcounts, rfl⟩)
        · exact .inl hstarted
        · exact .inr (.inr hcalls)
      · rintro (hstarted | ⟨-, hchunk⟩ | hcalls)
        · exact .inr (.inl hstarted)
        · exact .inl hchunk.symm
        · exact .inr (.inr hcalls)
    · next hcounts =>
      have hnot : ¬ ((calls t).Counts ∧ (calls t).chunkHash = chunk) := fun hcall => hcounts hcall.1
      rw [hcompleted, Finset.exists_mem_insert, or_iff_right hnot]
  · refine ⟨htask, by rw [hsessions]; exact h.session, ?_⟩
    rw [hsessions, hmade]
    exact h.completed

/-- **A step leaves division and count right exactly when** it is not about a completed chunk.

**Proof sketch.** The failure of a completed chunk enters it among the failed ones as well, and its
completion counts its bytes again; otherwise the chunk only moves. -/
lemma Marking.booksBalance_iff (h : Marking manager started calls P)
    (hbooks : BooksBalance calls started P) (hmem : ∀ u, (calls u).chunkHash ∈ started.chunks)
    (hstep : P.Step t i P') :
    BooksBalance calls started P' ↔ OnOpenChunks started.sessionId calls P t i := by
  obtain ⟨session, hsession, hpartition, hcounted⟩ := hbooks
  rcases h.step_cases hstep hsession with ⟨hhead, ht, hmade, hlookup⟩ | ⟨hhead, hmade, hsessions⟩
  · have hopen : OnOpenChunks started.sessionId calls P t i ↔
        (calls t).chunkHash ∉ session.completedChunks := by
      refine ⟨fun hopen => hopen hhead session hsession, fun hopen _ other hother => ?_⟩
      obtain rfl := Option.some.inj (hsession.symm.trans hother)
      exact hopen
    have hbooks : BooksBalance calls started P' ↔
        ((calls t).update i.now session).Partition started.chunks ∧
          ChunkCall.CountedOnce calls (insert t (made P)) started
            ((calls t).update i.now session) := by
      rw [BooksBalance, hlookup, hmade]
      simp
    rw [hopen, hbooks, ChunkCall.partition_update hpartition (hmem t),
      ChunkCall.countedOnce_update hcounted ht (h.completed session hsession)]
    exact ⟨fun hcase hcompleted => hcase.2 hcompleted (hcase.1 hcompleted),
      fun hopen => ⟨fun hcompleted => absurd hcompleted hopen,
        fun hcompleted => absurd hcompleted hopen⟩⟩
  · refine iff_of_true ⟨session, by rw [hsessions]; exact hsession, hpartition, ?_⟩
      fun hupdate => absurd hupdate hhead
    rw [hmade]
    exact hcounted

/-- **When division and count are right.** A session is started, and calls about its chunks are made
in any order and several at once. Division and count are right at first exactly when the session
was started with its chunks divided. They are right after every step of a run exactly as long as no
step changes a chunk that was completed before.

**Proof sketch.** By induction along the run, with the completed chunks being those that were at
first and those that a call has completed. -/
theorem booksBalance_of_run {A : PersistenceInput → Prop} {s₀ : PersistenceState}
    {r : Except PersistenceError Unit} (hmem : ∀ u, (calls u).chunkHash ∈ started.chunks)
    (hstarted : Proc.Returns A (manager.startSession started) s₀ r s)
    (hrun : Pool.Run (OnOpenChunks started.sessionId calls)
      (manager.marking started.sessionId calls s) P) :
    (BooksBalance calls started (manager.marking started.sessionId calls s) ↔ started.Divided) ∧
      (started.Divided → BooksBalance calls started P ∧ ∀ t i P', P.Step t i P' →
        (BooksBalance calls started P' ↔ OnOpenChunks started.sessionId calls P t i)) := by
  have hsession := sessions_of_startSession hstarted
  have hfirst :
      BooksBalance calls started (manager.marking started.sessionId calls s) ↔ started.Divided := by
    constructor
    · rintro ⟨session, hlookup, hpartition, -⟩
      obtain rfl := Option.some.inj (hsession.symm.trans hlookup)
      exact hpartition.toDivided
    · intro hdivided
      refine ⟨started, hsession, ⟨hdivided, rfl⟩, ?_⟩
      rw [made_marking]
      refine ⟨?_, by simp, by simp⟩
      exact (Nat.mod_eq_of_lt started.transferredBytes.toNat_lt).symm
  refine ⟨hfirst, fun hdivided => ?_⟩
  obtain ⟨hmarking, hbooks⟩ : Marking manager started calls P ∧ BooksBalance calls started P := by
    refine Pool.Run.invariant
      (I := fun P => Marking manager started calls P ∧ BooksBalance calls started P) hrun
      ⟨.start hsession, hfirst.mpr hdivided⟩ ?_
    intro P P' t i ⟨hmarking, hbooks⟩ hopen hstep
    exact ⟨hmarking.step hstep, (hmarking.booksBalance_iff hbooks hmem hstep).mpr hopen⟩
  exact ⟨hbooks, fun t i P' => hmarking.booksBalance_iff hbooks hmem⟩

/-! ## A chunk that fails after it was completed -/

/-- One call completes the chunk of the sample session, and another one reports its failure. -/
def completedAndFailed (failed : Bool) : ChunkCall :=
  if failed then .markChunkFailed ['c'] else .markChunkCompleted ['c'] 4

/-- A manager over an empty directory. -/
def noSessions : PersistenceState := { sessions := ∅, chunkCounter := ∅, files := ∅ }

/-- The first moment of the year 2024. -/
def newYear : PersistenceInput := ⟨⟨1704067200, 0⟩, 0, none⟩

variable (manager) in
/-- The sample session has been started. -/
def sampleStarted : PersistenceState where
  sessions := (∅ : HashMap Text PersistedSyncSession).insert ['s'] syncing
  chunkCounter := (∅ : HashMap Text ℕ).insert ['s'] 0
  files := (∅ : HashMap Text Bytes).insert (fileName ['s']) (manager.json.toBytes 0 syncing)

lemma startSession_syncing : Proc.Returns (fun _ => True) (manager.startSession syncing) noSessions
    (.ok ()) (sampleStarted manager) := by
  have hreturns : Proc.Returns (fun _ => True) (manager.startSession syncing) noSessions (.ok ())
      { sampleStarted manager with
        files := (∅ : HashMap Text Bytes).insert (fileName ['s'])
          (overlay [] (manager.json.toBytes 0 syncing)) } :=
    .act (i := newYear) rfl trivial (.act (i := newYear) rfl trivial
      (.act (i := newYear) rfl trivial (.act (i := newYear) rfl trivial
        (.act (i := newYear) rfl trivial .ret))))
  rwa [overlay_nil] at hreturns

/-- A chunk is completed: division and count are right. -/
theorem booksBalance_of_run_completed : ∃ manager : SyncPersistenceManager,
    (∀ way, ∀ sample ∈ syncingSamples, manager.json.toBytes way sample.1 = sample.2) ∧
      ∃ P : MarkPool Bool, made P = {false} ∧
        Pool.Run (OnOpenChunks ['s'] completedAndFailed)
          (manager.marking ['s'] completedAndFailed (sampleStarted manager)) P ∧
        BooksBalance completedAndFailed syncing P ∧ ∀ t i P', P.Step t i P' →
          (BooksBalance completedAndFailed syncing P' ↔
            OnOpenChunks ['s'] completedAndFailed P t i) := by
  obtain ⟨manager, hinterval, htexts⟩ := exists_syncing
  have hmem : ∀ u, (completedAndFailed u).chunkHash ∈ syncing.chunks := by decide
  have hdivided : syncing.Divided := ⟨by decide, by decide, by decide⟩
  obtain ⟨P, hP, hmade⟩ : ∃ P, (manager.marking ['s'] completedAndFailed
      (sampleStarted manager)).advance false newYear = some P ∧ made P = {false} := by
    refine ⟨_, rfl, ?_⟩
    rw [hinterval]
    rfl
  have hrun : Pool.Run (OnOpenChunks ['s'] completedAndFailed)
      (manager.marking ['s'] completedAndFailed (sampleStarted manager)) P := by
    refine Runs.Run.step (e := (false, newYear)) (fun _ session hsession => ?_) hP
    obtain rfl := Option.some.inj hsession
    decide
  exact ⟨manager, htexts, P, hmade, hrun,
    (booksBalance_of_run hmem startSession_syncing hrun).2 hdivided⟩

/-- The chunk is reported as failed after it was completed: **it is in both sets**. -/
theorem not_booksBalance_lateFailure : ∃ manager : SyncPersistenceManager,
    (∀ way, ∀ sample ∈ syncingSamples, manager.json.toBytes way sample.1 = sample.2) ∧
      ¬ ∀ r s P, Proc.Returns (fun _ => True) (manager.startSession syncing) noSessions r s →
        Pool.Run (fun _ _ _ => True) (manager.marking ['s'] completedAndFailed s) P →
        BooksBalance completedAndFailed syncing P := by
  obtain ⟨manager, -, htexts⟩ := exists_syncing
  refine ⟨manager, htexts, fun h => ?_⟩
  have hexec : (Pool.exec (fun _ _ _ => True) [(false, newYear), (true, newYear)]
      (manager.marking ['s'] completedAndFailed (sampleStarted manager))).map (fun P =>
        (P.state.sessions.lookup ['s']).map fun session =>
          (session.completedChunks, session.failedChunks)) =
      some (some ({['c']}, {['c']})) := rfl
  obtain ⟨P, hP, hend⟩ := Option.map_eq_some_iff.mp hexec
  obtain ⟨session, hsession, hpartition, -⟩ :=
    h _ _ P startSession_syncing (Pool.run_of_exec hP)
  have hsets : (session.completedChunks, session.failedChunks) =
      (({['c']}, {['c']}) : Finset Text × Finset Text) := by
    rw [show P.state.sessions.lookup ['s'] = some session from hsession] at hend
    exact Option.some.inj hend
  obtain ⟨hcompleted, hfailed⟩ := Prod.mk.inj hsets
  have hdisjoint := hpartition.completed_failed
  rw [hcompleted, hfailed] at hdisjoint
  exact absurd hdisjoint (by decide)

end SyncPersistenceManager

end Landropic
