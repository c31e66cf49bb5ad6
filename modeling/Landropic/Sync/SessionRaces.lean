import Landropic.Foundations.Pool
import Landropic.Sync.SessionPersistence

set_option autoImplicit false

/-!
# Concurrent saves of a session

Any number of calls change one session at once and save it. Each copies the session after it has
changed it, and truncates the file and writes the copy later, so that the order of the writes may
differ from the order of the copies, and two writes may be mixed. The file ends with what memory
holds if the writes come one after the other and the last one is not of an old copy.

## Main definitions

* `SavingCall` — a call that changes a session and saves it.
* `SyncPersistenceManager.Phase` — the steps of such a call.
* `SyncPersistenceManager.Owes` — a call that will yet write what memory holds.
* `SyncPersistenceManager.UpToDate` — the steps that mix no writes and write no old copy last.

## Main results

* `SyncPersistenceManager.step_cases` — what a step of a call can be.
* `SyncPersistenceManager.Saving.step` — as long as a write is owed or the file is right, this
  remains so.
* `SyncPersistenceManager.saved_of_upToDate` — the file ends with what memory holds.
-/

namespace Landropic

/-- A call that changes a session and saves it. -/
inductive SavingCall
  | markChunkFailed (chunkHash : Text)
  | completeSession
  | interruptSession

/-- What a call makes of the session. -/
def SavingCall.update (c : SavingCall) (now : DateTime) (session : PersistedSyncSession) :
    PersistedSyncSession :=
  match c with
  | markChunkFailed chunkHash => session.markChunkFailed now chunkHash
  | completeSession => session.complete now
  | interruptSession => session.interrupt now

namespace SyncPersistenceManager

open Proc

variable (manager : SyncPersistenceManager) (id : Text)

/-- The process of a call. -/
def savingCode : SavingCall → PersistenceTask Unit
  | .markChunkFailed chunkHash => manager.markChunkFailed id chunkHash
  | .completeSession => manager.completeSession id
  | .interruptSession => manager.interruptSession id

/-- The state of a manager and some calls on it. -/
abbrev SavingPool (τ : Type) :=
  Pool τ PersistenceState PersistenceInput PersistenceOp PersistenceError Unit

variable {τ : Type}

/-- Tasks that each make a call for a session. -/
def saving (calls : τ → SavingCall) (s : PersistenceState) : SavingPool τ :=
  ⟨s, fun t => manager.savingCode id (calls t)⟩

/-- A task that is yet to change the session, to copy it, or to write what memory holds. -/
def Owes (s : PersistenceState) (task : PersistenceTask Unit) : Prop :=
  match task.head with
  | some .update | some .snapshot => True
  | some (.openFile _ content) | some (.writeFile _ content) =>
    manager.json.fromBytes content = s.sessions.lookup id
  | _ => False

/-- A task that has truncated the file and is yet to write to it. -/
def Writing (task : PersistenceTask Unit) : Prop :=
  ∃ name content, task.head = some (.writeFile name content)

/-- A step that truncates the file only when no other call is writing, and that, if it writes a copy
that is not what memory holds, leaves another call to write that. -/
structure UpToDate (P : SavingPool τ) (t : τ) (_ : PersistenceInput) : Prop where
  alone : ∀ name content, (P.task t).head = some (.openFile name content) →
    ∀ u, u ≠ t → ¬ Writing (P.task u)
  current : ∀ name content, (P.task t).head = some (.writeFile name content) →
    manager.json.fromBytes content = P.state.sessions.lookup id ∨
      ∃ u, u ≠ t ∧ manager.Owes id P.state (P.task u)

/-! ## The steps of a call -/

/-- What a call is about to do. -/
inductive Phase
  | updating
  | copying
  | opening (content : Bytes)
  | writing (content : Bytes)
  | cleaning

/-- What a call does after a save. -/
def closing (c : SavingCall) (save : PersistenceTask Unit) : PersistenceTask Unit :=
  match c with
  | .completeSession => do
    save
    atom .count fun _ s => (.ok (), { s with chunkCounter := s.chunkCounter.erase id })
  | _ => save

/-- What is left of a call. -/
def taskAt (c : SavingCall) : Phase → PersistenceTask Unit
  | .updating => closing id c (manager.updateSession id c.update)
  | .copying => closing id c (manager.saveSession id)
  | .opening content => closing id c (writeWhole (fileName id) content)
  | .writing content => closing id c (overwrite (fileName id) content)
  | .cleaning => closing id c (pure ())

lemma savingCode_eq (c : SavingCall) : manager.savingCode id c = manager.taskAt id c .updating := by
  cases c <;> rfl

variable {manager id} {c : SavingCall} {phase : Phase} {s s' : PersistenceState}
  {task : PersistenceTask Unit} {i : PersistenceInput} {session : PersistedSyncSession}

/-- **What a step of a call can be**, as long as its session is in memory. -/
theorem step_cases (h : Proc.Step (manager.taskAt id c phase) s i task s')
    (hsession : s.sessions.lookup id = some session) :
    (phase = .updating ∧ task = manager.taskAt id c .copying ∧
      s' = { s with sessions := s.sessions.insert id (c.update i.now session) }) ∨
    (phase = .copying ∧ task = manager.taskAt id c (.opening (manager.json.toBytes i.way session)) ∧
      s' = s) ∨
    (∃ content, phase = .opening content ∧ ((∃ e, task = .ret (.error e) ∧ s' = s) ∨
      task = manager.taskAt id c (.writing content) ∧
        s' = { s with files := s.files.insert (fileName id) [] })) ∨
    (∃ content, phase = .writing content ∧ task = manager.taskAt id c .cleaning ∧
      s'.sessions = s.sessions ∧ s'.files = s.files.insert (fileName id)
        (overlay ((s.files.lookup (fileName id)).getD []) content)) ∨
    (phase = .cleaning ∧ task = .ret (.ok ()) ∧ s'.sessions = s.sessions ∧ s'.files = s.files) := by
  cases phase with
  | updating =>
    refine .inl ⟨rfl, ?_⟩
    cases c <;>
    · cases h with
      | act _ => exact ⟨by simp only [hsession]; rfl, by simp only [hsession]⟩
  | copying =>
    refine .inr (.inl ⟨rfl, ?_⟩)
    cases c <;>
    · cases h with
      | act _ => exact ⟨by simp only [hsession]; rfl, rfl⟩
  | opening content =>
    refine .inr (.inr (.inl ⟨content, rfl, ?_⟩))
    cases c <;>
    · cases h with
      | act _ =>
        cases hrefused : i.refused with
        | some e => exact .inl ⟨_, by simp only [hrefused]; rfl, by simp only [hrefused]⟩
        | none => exact .inr ⟨by simp only [hrefused]; rfl, by simp only [hrefused]⟩
  | writing content =>
    refine .inr (.inr (.inr (.inl ⟨content, rfl, ?_⟩)))
    cases c <;>
    · cases h with
      | act _ => exact ⟨rfl, rfl, rfl⟩
  | cleaning =>
    refine .inr (.inr (.inr (.inr ⟨rfl, ?_⟩)))
    cases c with
    | completeSession =>
      cases h with
      | act _ => exact ⟨rfl, rfl, rfl⟩
    | markChunkFailed chunkHash => cases h
    | interruptSession => cases h

/-! ## Any number of calls -/

variable {calls : τ → SavingCall} {P P' : SavingPool τ} {t : τ}

variable (manager id calls) in
/-- Calls at work on a session in memory. -/
structure Saving (P : SavingPool τ) : Prop where
  session : ∃ session, P.state.sessions.lookup id = some session
  task : ∀ u, (∃ phase, P.task u = manager.taskAt id (calls u) phase) ∨ ∃ r, P.task u = .ret r
  /-- One call at most is writing, to a file that is still empty. -/
  writing : ∀ u, Writing (P.task u) → P.state.files.lookup (fileName id) = some [] ∧
    ∀ v, Writing (P.task v) → v = u
  /-- The file is right, or a call is writing or will yet write what memory holds, or a call has
  failed. -/
  file : manager.saved P.state id = P.state.sessions.lookup id ∨ (∃ u, Writing (P.task u)) ∨
    (∃ u, manager.Owes id P.state (P.task u)) ∨ ∃ u e, P.task u = .ret (.error e)

lemma owes_copying : manager.Owes id s (manager.taskAt id c .copying) := by
  cases c <;> trivial

lemma owes_opening {content : Bytes} :
    manager.Owes id s (manager.taskAt id c (.opening content)) ↔
      manager.json.fromBytes content = s.sessions.lookup id := by
  cases c <;> rfl

lemma head_opening (content : Bytes) : (manager.taskAt id c (.opening content)).head =
    some (.openFile (fileName id) content) := by
  cases c <;> rfl

lemma head_writing (content : Bytes) : (manager.taskAt id c (.writing content)).head =
    some (.writeFile (fileName id) content) := by
  cases c <;> rfl

lemma writing_taskAt :
    Writing (manager.taskAt id c phase) ↔ ∃ content, phase = .writing content := by
  cases phase with
  | writing content => exact iff_of_true ⟨_, _, head_writing content⟩ ⟨content, rfl⟩
  | _ => cases c <;> exact iff_of_false (fun ⟨_, _, h⟩ => by cases h) nofun

lemma not_writing_ret {r : Except PersistenceError Unit} :
    ¬ Writing (.ret r : PersistenceTask Unit) := fun ⟨_, _, h⟩ => by cases h

lemma not_owes_cleaning : ¬ manager.Owes id s (manager.taskAt id c .cleaning) := by
  cases c <;> exact fun h => h

lemma Owes.congr (h : manager.Owes id s task) (hsessions : s'.sessions = s.sessions) :
    manager.Owes id s' task := by
  unfold Owes at h ⊢
  rwa [hsessions]

variable [DecidableEq τ]

lemma Saving.writing_step (h : manager.Saving id calls P) (hstep : P.Step t i P')
    (hfiles : P'.state.files = P.state.files) (ht : ¬ Writing (P'.task t)) (u : τ)
    (hu : Writing (P'.task u)) : P'.state.files.lookup (fileName id) = some [] ∧
      ∀ v, Writing (P'.task v) → v = u := by
  have hother : ∀ v, Writing (P'.task v) → Writing (P.task v) := by
    intro v hv
    by_cases hvt : v = t
    · subst hvt
      exact absurd hv ht
    · rwa [hstep.task_of_ne hvt] at hv
  obtain ⟨hempty, hunique⟩ := h.writing u (hother u hu)
  exact ⟨by rw [hfiles]; exact hempty, fun v hv => hunique v (hother v hv)⟩

/-- **A step that mixes no writes and writes no old copy last** leaves the file right, or a write
under way or owed. -/
theorem Saving.step (h : manager.Saving id calls P) (hC : manager.UpToDate id P t i)
    (hstep : P.Step t i P') : manager.Saving id calls P' := by
  obtain ⟨session, hsession⟩ := h.session
  obtain ⟨phase, hphase⟩ : ∃ phase, P.task t = manager.taskAt id (calls t) phase := by
    refine (h.task t).resolve_right ?_
    rintro ⟨r, hr⟩
    exact hstep.ne_ret _ hr
  have hproc := hstep.proc
  rw [hphase] at hproc
  -- the other tasks stay where they are
  have htask : (∃ phase, P'.task t = manager.taskAt id (calls t) phase) ∨
      (∃ r, P'.task t = .ret r) →
      ∀ u, (∃ phase, P'.task u = manager.taskAt id (calls u) phase) ∨ ∃ r, P'.task u = .ret r := by
    intro ht u
    by_cases hu : u = t
    · subst hu
      exact ht
    · rw [hstep.task_of_ne hu]
      exact h.task u
  rcases step_cases hproc hsession with ⟨-, hnext, hstate⟩ | ⟨-, hnext, hstate⟩ |
    ⟨content, rfl, ⟨e, hnext, hstate⟩ | ⟨hnext, hstate⟩⟩ |
    ⟨content, rfl, hnext, hsessions, hfiles⟩ | ⟨rfl, hnext, hsessions, hfiles⟩
  · refine ⟨⟨_, by rw [hstate]; exact Finmap.lookup_insert _⟩, htask (.inl ⟨_, hnext⟩),
      h.writing_step hstep (by rw [hstate]) (by simp [hnext, writing_taskAt]), ?_⟩
    exact .inr (.inr (.inl ⟨t, by rw [hnext]; exact owes_copying⟩))
  · refine ⟨⟨session, by rw [hstate]; exact hsession⟩, htask (.inl ⟨_, hnext⟩),
      h.writing_step hstep (by rw [hstate]) (by simp [hnext, writing_taskAt]), ?_⟩
    refine .inr (.inr (.inl ⟨t, ?_⟩))
    rw [hnext, owes_opening, hstate, hsession, manager.json.fromBytes_toBytes]
  · refine ⟨⟨session, by rw [hstate]; exact hsession⟩, htask (.inr ⟨_, hnext⟩),
      h.writing_step hstep (by rw [hstate]) (by rw [hnext]; exact not_writing_ret), ?_⟩
    exact .inr (.inr (.inr ⟨t, e, hnext⟩))
  · have hwriting : Writing (P'.task t) := by
      rw [hnext]
      exact writing_taskAt.mpr ⟨content, rfl⟩
    have honly : ∀ v, Writing (P'.task v) → v = t := by
      intro v hv
      by_contra hne
      rw [hstep.task_of_ne hne] at hv
      exact hC.alone _ _ (by rw [hphase, head_opening]) v hne hv
    refine ⟨⟨session, by rw [hstate]; exact hsession⟩, htask (.inl ⟨_, hnext⟩), fun u hu => ?_,
      .inr (.inl ⟨t, hwriting⟩)⟩
    obtain rfl := honly u hu
    exact ⟨by rw [hstate]; exact Finmap.lookup_insert _, honly⟩
  · have hwriting : Writing (P.task t) := by
      rw [hphase]
      exact writing_taskAt.mpr ⟨content, rfl⟩
    obtain ⟨hempty, honly⟩ := h.writing t hwriting
    have hnone : ∀ v, ¬ Writing (P'.task v) := by
      intro v hv
      by_cases hvt : v = t
      · rw [hvt, hnext, writing_taskAt] at hv
        simp at hv
      · rw [hstep.task_of_ne hvt] at hv
        exact hvt (honly v hv)
    refine ⟨⟨session, by rw [hsessions]; exact hsession⟩, htask (.inl ⟨_, hnext⟩),
      fun u hu => absurd hu (hnone u), ?_⟩
    rcases hC.current _ _ (by rw [hphase, head_writing]) with hright | ⟨u, hu, howes⟩
    · left
      rw [hsessions, saved, hfiles, hempty, Option.getD_some, overlay_nil, Finmap.lookup_insert,
        Option.bind_some, hright]
    · exact .inr (.inr (.inl ⟨u, by rw [hstep.task_of_ne hu]; exact howes.congr hsessions⟩))
  · have hquiet : ¬ Writing (P'.task t) := by
      rw [hnext]
      exact not_writing_ret
    have hne : ∀ u, Writing (P.task u) → u ≠ t := by
      rintro _ hu rfl
      rw [hphase, writing_taskAt] at hu
      simp at hu
    refine ⟨⟨session, by rw [hsessions]; exact hsession⟩, htask (.inr ⟨_, hnext⟩),
      h.writing_step hstep hfiles hquiet, ?_⟩
    rcases h.file with hright | ⟨u, hu⟩ | ⟨u, howes⟩ | ⟨u, e, he⟩
    · left
      rw [saved, hfiles, hsessions]
      exact hright
    · exact .inr (.inl ⟨u, by rw [hstep.task_of_ne (hne u hu)]; exact hu⟩)
    · have hu : u ≠ t := by
        rintro rfl
        rw [hphase] at howes
        exact not_owes_cleaning howes
      exact .inr (.inr (.inl ⟨u, by rw [hstep.task_of_ne hu]; exact howes.congr hsessions⟩))
    · have hu : u ≠ t := by
        rintro rfl
        exact hstep.ne_ret _ he
      exact .inr (.inr (.inr ⟨u, e, by rw [hstep.task_of_ne hu]; exact he⟩))

variable (calls) in
/-- **The last save wins.** Any number of calls change one session that is in memory and save it, in
every order of their steps in which the file is truncated only when no other call is writing to it,
and a copy that is not what memory holds is written only when another call is yet to write that.
Once all have succeeded, the file of the session holds what memory holds.

**Proof sketch.** A call that has changed the session is yet to copy it, and one that has copied it
is yet to write the copy. So after every step the file is right, or a call is writing to the empty
file, or some call will still write what memory holds. At the end there is no such call. -/
theorem saved_of_upToDate [Nonempty τ] (hsession : s.sessions.lookup id = some session)
    (hrun : Pool.Run (manager.UpToDate id) (manager.saving id calls s) P)
    (hreturned : ∀ t, P.task t = .ret (.ok ())) :
    manager.saved P.state id = P.state.sessions.lookup id := by
  have hsaving : manager.Saving id calls P := by
    refine hrun.invariant ⟨⟨session, hsession⟩, fun u => .inl ⟨.updating, ?_⟩, fun u hu => ?_, ?_⟩
      fun h hC hstep => h.step hC hstep
    · exact manager.savingCode_eq id (calls u)
    · rw [show (manager.saving id calls s).task u = _ from manager.savingCode_eq id (calls u),
        writing_taskAt] at hu
      simp at hu
    · obtain ⟨u⟩ := ‹Nonempty τ›
      refine .inr (.inr (.inl ⟨u, ?_⟩))
      show manager.Owes id s (manager.savingCode id (calls u))
      cases calls u <;> trivial
  rcases hsaving.file with hright | ⟨u, hwriting⟩ | ⟨u, howes⟩ | ⟨u, e, he⟩
  · exact hright
  · rw [hreturned u] at hwriting
    exact absurd hwriting not_writing_ret
  · rw [hreturned u] at howes
    exact howes.elim
  · rw [hreturned u] at he
    cases he

/-! ## An interruption that overtakes a completion -/

/-- One call interrupts the session, and another one completes it. -/
def cutOffAndFinished (second : Bool) : SavingCall :=
  if second then .completeSession else .interruptSession

/-- The session in memory, before it has been saved. -/
def inMemory : PersistenceState :=
  { sessions := (∅ : HashMap Text PersistedSyncSession).insert ['s'] syncing
    chunkCounter := ∅
    files := ∅ }

/-- It is the new year, and no file is refused. -/
def atNewYear : PersistenceInput := ⟨⟨1704067200, 0⟩, 0, none⟩

/-- Both calls change the session before either copies it: the file ends with the completed session.
-/
theorem saved_finished : ∃ manager : SyncPersistenceManager,
    (∀ way, ∀ sample ∈ syncingSamples, manager.json.toBytes way sample.1 = sample.2) ∧
      ∃ P, Pool.Run (manager.UpToDate ['s']) (manager.saving ['s'] cutOffAndFinished inMemory) P ∧
        (∀ t, P.task t = .ret (.ok ())) ∧ P.state.sessions.lookup ['s'] = some finished ∧
        manager.saved P.state ['s'] = P.state.sessions.lookup ['s'] := by
  obtain ⟨manager, -, htexts⟩ := exists_syncing
  have hrun : ∃ P, Pool.Run (manager.UpToDate ['s'])
      (manager.saving ['s'] cutOffAndFinished inMemory) P ∧
        (P.task false = .ret (.ok ()) ∧ P.task true = .ret (.ok ())) ∧
          P.state.sessions.lookup ['s'] = some finished := by
    refine ⟨_, ((((((((Relation.ReflTransGen.single ⟨(false, atNewYear), ?_, rfl⟩).tail
      ⟨(true, atNewYear), ?_, rfl⟩).tail ⟨(false, atNewYear), ?_, rfl⟩).tail
      ⟨(true, atNewYear), ?_, rfl⟩).tail ⟨(false, atNewYear), ?_, rfl⟩).tail
      ⟨(false, atNewYear), ?_, rfl⟩).tail ⟨(true, atNewYear), ?_, rfl⟩).tail
      ⟨(true, atNewYear), ?_, rfl⟩).tail ⟨(true, atNewYear), ?_, rfl⟩, ⟨rfl, rfl⟩, rfl⟩
    all_goals
      refine ⟨fun name content hhead => ?_, fun name content hhead => ?_⟩ <;> cases hhead
    -- when a file is truncated, the other call has not yet done so, or has ended
    · rintro (_ | _) hu
      · exact absurd rfl hu
      · rintro ⟨name, content, hwrite⟩
        cases hwrite
    · exact .inl (manager.json.fromBytes_toBytes 0 finished)
    · rintro (_ | _) hu
      · exact not_writing_ret
      · exact absurd rfl hu
    · exact .inl (manager.json.fromBytes_toBytes 0 finished)
  obtain ⟨P, hrun, ⟨hfalse, htrue⟩, hfinished⟩ := hrun
  have hreturned : ∀ t, P.task t = .ret (.ok ()) := fun t => by
    cases t with
    | false => exact hfalse
    | true => exact htrue
  have hsession : inMemory.sessions.lookup ['s'] = some syncing := rfl
  exact ⟨manager, htexts, P, hrun, hreturned, hfinished,
    saved_of_upToDate cutOffAndFinished hsession hrun hreturned⟩

/-- The interruption copies the session, the completion changes, copies and writes it, and then the
copy is written: **the completed session is stored as interrupted**. -/
theorem not_saved_finished : ∃ manager : SyncPersistenceManager,
    (∀ way, ∀ sample ∈ syncingSamples, manager.json.toBytes way sample.1 = sample.2) ∧
      ¬ ∀ P, Pool.Run (fun _ _ _ => True) (manager.saving ['s'] cutOffAndFinished inMemory) P →
        (∀ t, P.task t = .ret (.ok ())) →
        manager.saved P.state ['s'] = P.state.sessions.lookup ['s'] := by
  obtain ⟨manager, -, htexts⟩ := exists_syncing
  refine ⟨manager, htexts, fun h => ?_⟩
  have hexec : (Runs.exec (fun P e => P.advance e.1 e.2) (fun _ _ => True)
      ([false, false, true, true, true, true, true, false, false].map fun t => (t, atNewYear))
      (manager.saving ['s'] cutOffAndFinished inMemory)).map (fun P => (P.task false, P.task true,
        P.state.files.lookup (fileName ['s']), P.state.sessions.lookup ['s'])) =
      some (.ret (.ok ()), .ret (.ok ()), some (overlay [] (manager.json.toBytes 0 cutOff)),
        some finished) := rfl
  obtain ⟨P, hP, hend⟩ := Option.map_eq_some_iff.mp hexec
  simp only [Prod.mk.injEq] at hend
  obtain ⟨hfalse, htrue, hfile, hsession⟩ := hend
  have hsaved := h P (Runs.run_of_exec hP) fun t => by
    cases t with
    | false => exact hfalse
    | true => exact htrue
  rw [saved, hfile, hsession, overlay_nil, Option.bind_some,
    manager.json.fromBytes_toBytes] at hsaved
  exact absurd (congrArg (fun session => session.map PersistedSyncSession.status) hsaved)
    (by decide)

end SyncPersistenceManager

end Landropic
