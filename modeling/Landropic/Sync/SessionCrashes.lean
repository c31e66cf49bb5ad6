import Landropic.Foundations.Crashes
import Landropic.Sync.SessionPersistence

set_option autoImplicit false

/-!
# Crashes of a persistence manager

A manager tracks sync sessions until it crashes, and is created again over the same directory. Of a
session whose file was not being written then, the last save is loaded; of one whose file was, the
new save if it was complete, and nothing otherwise.

## Main definitions

* `PersistenceCall` — the calls of a manager.
* `SyncPersistenceManager.component` — a manager that may crash.
* `SyncPersistenceManager.LastSaved` — what the last save of a session has left.
* `SyncPersistenceManager.Resumes` — a session can be resumed.
* `SyncPersistenceManager.Survives` — a crash leaves a session that can be resumed.

## Main results

* `SyncPersistenceManager.keepsNames_code` — every call leaves the files named by their sessions,
  also when it is cut off.
* `SyncPersistenceManager.resumes_iff` — which sessions can be resumed after a crash.
-/

namespace Landropic

/-- The calls of a manager on sessions that are not completed. -/
inductive PersistenceCall
  | startSession (session : PersistedSyncSession)
  | markChunkCompleted (id chunkHash : Text) (chunkSize : UInt64)
  | markChunkFailed (id chunkHash : Text)
  | interruptSession (id : Text)

/-- Chunks are not yet transferred: they are pending or have failed. -/
def PersistedSyncSession.HasRemaining (session : PersistedSyncSession) : Prop :=
  session.pendingChunks ≠ ∅ ∨ session.failedChunks ≠ ∅

namespace SyncPersistenceManager

open Proc

variable (manager : SyncPersistenceManager)

/-- The process of a call. -/
def code : PersistenceCall → PersistenceTask Unit
  | .startSession session => manager.startSession session
  | .markChunkCompleted id chunkHash chunkSize => manager.markChunkCompleted id chunkHash chunkSize
  | .markChunkFailed id chunkHash => manager.markChunkFailed id chunkHash
  | .interruptSession id => manager.interruptSession id

/-- The files that a crash leaves. A file that is being written was truncated before and holds what
was written so far. -/
def leftFiles : Option PersistenceOp → ℕ → HashMap Text Bytes → HashMap Text Bytes
  | some (.writeFile name content), kept, files => files.insert name (content.take kept)
  | _, _, files => files

/-- A manager that may crash, and is then created again. -/
def component : Crashable PersistenceCall PersistenceState PersistenceInput PersistenceOp
    PersistenceError Unit where
  code := manager.code
  crash label kept s := manager.new (leftFiles label kept s.files)

/-- Nothing is remembered of the calls. -/
def noHistory : Crashable.History PersistenceCall PersistenceError Unit Unit :=
  ⟨fun _ past => past, fun _ _ past => past⟩

/-- A manager at some moment. -/
abbrev Moment := Crashable.Machine PersistenceCall PersistenceState Unit PersistenceInput
  PersistenceOp PersistenceError Unit

/-- A manager that has just been created over some files. -/
def created (files : HashMap Text Bytes) : Moment :=
  { state := manager.new files, past := (), running := none }

/-- Until the crash: no id of a session leads out of the directory. -/
def untilCrash : Crashable.Condition PersistenceCall PersistenceState Unit PersistenceOp where
  call
    | .startSession session, _, _ => '/' ∉ session.sessionId
    | _, _, _ => True
  crash _ _ _ _ := False

/-- What the last save of a session has left at some moment: what its file holds, or held before it
was truncated for the write that comes next. -/
def LastSaved (start m : Moment) (id : Text) (last : PersistedSyncSession) : Prop :=
  ∃ m₀, manager.component.Run noHistory untilCrash start m₀ ∧
    manager.saved m₀.state id = some last ∧ (m = m₀ ∨
      (∃ i, manager.component.next noHistory m₀ (.act i) = some m) ∧
        ∃ content, m.head = some (.writeFile (fileName id) content))

/-- A session can be resumed. -/
def Resumes (s : PersistenceState) (id : Text) : Prop :=
  ∃ session ∈ manager.getResumableSessions s, session.sessionId = id

/-- A crash leaves a session that can be resumed: its file is one that is loaded, and either the
file was not being written and the last save can be resumed, or the whole of a save that can be
resumed had been written. -/
def Survives (label : Option PersistenceOp) (kept : ℕ) (id : Text) (last : PersistedSyncSession) :
    Prop :=
  '/' ∉ id ∧ id ≠ [] ∧
    match label with
    | some (.writeFile name content) =>
      if name = fileName id then
        content.length ≤ kept ∧
          ∃ next, manager.json.fromBytes content = some next ∧ next.canResume = true
      else last.canResume = true
    | _ => last.canResume = true

/-! ## What is written -/

/-- Sessions and files have the names of their sessions. -/
structure Named (s : PersistenceState) : Prop where
  files : manager.WellNamed s.files
  sessions : ∀ id session, s.sessions.lookup id = some session → session.sessionId = id

/-- What is about to be written is a session, to the file of its name. -/
def WritesSession (label : Option PersistenceOp) : Prop :=
  ∀ name content, label = some (.writeFile name content) →
    ∃ way session, content = manager.json.toBytes way session ∧ name = fileName session.sessionId

/-- What holds of every action and the state it is taken in. -/
def Orderly (label : Option PersistenceOp) (s : PersistenceState) : Prop :=
  manager.Named s ∧ manager.WritesSession label

variable {manager} {s : PersistenceState} {files : HashMap Text Bytes} {id : Text}
  {session : PersistedSyncSession} {α : Type} {kept : ℕ}

lemma WellNamed.insert (h : manager.WellNamed files) (session : PersistedSyncSession)
    (way kept : ℕ) : manager.WellNamed
      (files.insert (fileName session.sessionId)
        ((manager.json.toBytes way session).take kept)) := by
  intro name content session' hlookup hname hload
  obtain ⟨rfl, rfl⟩ | ⟨-, hlookup⟩ := HashMap.lookup_insert_cases hlookup
  · rw [(FileCodec.fromBytes_take_eq_some _).mp hload |>.2]
  · exact h name content session' hlookup hname hload

lemma WellNamed.leftFiles {label : Option PersistenceOp} (h : manager.WellNamed files)
    (hlabel : manager.WritesSession label) : manager.WellNamed (leftFiles label kept files) := by
  unfold SyncPersistenceManager.leftFiles
  split
  · next name content =>
    obtain ⟨way, session, rfl, rfl⟩ := hlabel name content rfl
    exact h.insert _ way _
  · exact h

lemma named_new (h : manager.WellNamed files) : manager.Named (manager.new files) :=
  ⟨h, fun _ _ hlookup => ((lookup_loadSessions h).mp hlookup).2.1⟩

lemma Named.insert (h : manager.Named s) (session : PersistedSyncSession)
    (hid : session.sessionId = id) :
    manager.Named { s with sessions := s.sessions.insert id session } := by
  refine ⟨h.files, HashMap.forall_lookup_insert.mpr ⟨hid, fun id' session' hlookup _ => ?_⟩⟩
  exact h.sessions id' session' hlookup

/-! ## What the calls keep -/

variable (manager) in
/-- Every action of the process is orderly, and it leaves the sessions named. -/
abbrev KeepsNames (t : PersistenceTask α) (s : PersistenceState) : Prop :=
  Throughout (fun l => manager.Orderly (some l)) (fun _ s => manager.Named s) t s

/-- An action that writes no file. -/
lemma throughout_atom {Q : Except PersistenceError α → PersistenceState → Prop}
    {label : PersistenceOp}
    {f : PersistenceInput → PersistenceState → Except PersistenceError α × PersistenceState}
    (h : manager.Named s) (hlabel : ∀ name content, label ≠ .writeFile name content)
    (hQ : ∀ i, Q (f i s).1 (f i s).2) :
    Throughout (fun l => manager.Orderly (some l)) Q (.atom label f) s :=
  .atom ⟨h, fun name content heq => absurd (Option.some.inj heq) (hlabel name content)⟩ hQ

/-- **A save** writes a session to the file of its name. -/
theorem keepsNames_saveSession (h : manager.Named s) :
    manager.KeepsNames (manager.saveSession id) s := by
  refine .bind (throughout_atom h (by simp) fun i => ?_)
  cases hlookup : s.sessions.lookup id with
  | none =>
    dsimp only [Option.map_none]
    exact h
  | some session =>
    have hid := h.sessions id session hlookup
    subst hid
    dsimp only [Option.map_some]
    refine .bind (throughout_atom h (by simp) fun i' => ?_)
    cases i'.refused with
    | some e => exact h
    | none =>
      have hopened :
          manager.Named { s with files := s.files.insert (fileName session.sessionId) [] } :=
        ⟨h.files.insert session i.way 0, h.sessions⟩
      refine .atom ⟨hopened, ?_⟩ fun _ => ⟨?_, h.sessions⟩
      · intro name content heq
        obtain ⟨rfl, rfl⟩ := PersistenceOp.writeFile.inj (Option.some.inj heq)
        exact ⟨_, session, rfl, rfl⟩
      · have hinsert :=
          hopened.files.insert session i.way (manager.json.toBytes i.way session).length
        dsimp only
        rwa [Finmap.lookup_insert, Option.getD_some, overlay_nil,
          ← List.take_length (l := manager.json.toBytes i.way session)]

lemma keepsNames_updateSession (update : DateTime → PersistedSyncSession → PersistedSyncSession)
    (h : manager.Named s)
    (hid : ∀ now session, (update now session).sessionId = session.sessionId) :
    manager.KeepsNames (manager.updateSession id update) s := by
  refine .bind (throughout_atom h (by simp) fun i => ?_)
  cases hlookup : s.sessions.lookup id with
  | none => exact h
  | some session =>
    exact keepsNames_saveSession
      (h.insert _ ((hid i.now session).trans (h.sessions id session hlookup)))

/-- **Every call** leaves sessions and files named by their sessions, also when it is cut off. -/
theorem keepsNames_code (c : PersistenceCall) (h : manager.Named s) :
    manager.KeepsNames (manager.code c) s := by
  cases c with
  | startSession session =>
    refine .bind (throughout_atom h (by simp) fun _ => ?_)
    have hinsert := h.insert session rfl
    exact .bind (throughout_atom hinsert (by simp) fun _ =>
      keepsNames_saveSession ⟨hinsert.files, hinsert.sessions⟩)
  | markChunkCompleted id chunkHash chunkSize =>
    refine .bind (throughout_atom h (by simp) fun i => ?_)
    cases hlookup : s.sessions.lookup id with
    | none => exact h
    | some session =>
      have hinsert := h.insert { session.markChunkCompleted i.now chunkHash with
        transferredBytes := session.transferredBytes + chunkSize } (h.sessions id session hlookup)
      have hcounted : ∀ counter, manager.Named { s with
          sessions := s.sessions.insert id { session.markChunkCompleted i.now chunkHash with
            transferredBytes := session.transferredBytes + chunkSize }
          chunkCounter := counter } := fun _ => ⟨hinsert.files, hinsert.sessions⟩
      dsimp only
      split
      · exact .bind (throughout_atom (hcounted _) (by simp) fun _ =>
          keepsNames_saveSession (hcounted _))
      · exact hcounted _
  | markChunkFailed id chunkHash =>
    exact keepsNames_updateSession (fun now session => session.markChunkFailed now chunkHash) h
      fun _ _ => rfl
  | interruptSession id =>
    exact keepsNames_updateSession (fun now session => session.interrupt now) h fun _ _ => rfl

/-! ## What can be resumed -/

lemma resumes_new (h : manager.WellNamed files) : manager.Resumes (manager.new files) id ↔
    '/' ∉ id ∧ id ≠ [] ∧ ∃ session,
      (files.lookup (fileName id)).bind manager.json.fromBytes = some session ∧
        session.canResume = true := by
  unfold Resumes getResumableSessions
  constructor
  · rintro ⟨session, hmem, rfl⟩
    obtain ⟨hmem, hresume⟩ := List.mem_filter.mp hmem
    obtain ⟨⟨id, session⟩, hentry, rfl⟩ := List.mem_map.mp hmem
    obtain ⟨hname, hid, hload⟩ := (lookup_loadSessions h).mp (manager.order.mem_entries.mp hentry)
    subst hid
    obtain ⟨hslash, hne⟩ := isSessionFile_fileName.mp hname
    exact ⟨hslash, hne, session, hload, hresume⟩
  · rintro ⟨hslash, hne, session, hload, hresume⟩
    have hname := isSessionFile_fileName.mpr ⟨hslash, hne⟩
    obtain ⟨content, hcontent, hread⟩ := Option.bind_eq_some_iff.mp hload
    have hid : session.sessionId = id := (fileName_injective (h _ _ _ hcontent hname hread)).symm
    refine ⟨session, List.mem_filter.mpr ⟨List.mem_map.mpr ⟨(id, session), ?_, rfl⟩, hresume⟩, hid⟩
    exact manager.order.mem_entries.mpr ((lookup_loadSessions h).mpr ⟨hname, hid, hload⟩)

/-- **Which sessions can be resumed after a crash.** A manager tracks sessions, from any directory
whose files are named by their sessions, and crashes at any moment; a manager is then created over
what is left. A session that has been saved can be resumed if and only if its file was not being
written and its last save is interrupted with chunks pending, or the whole of such a save had been
written, provided that its id is not empty.

**Proof sketch.** Every save writes a session to the file of its name, and only these files are
written, so each session is loaded from the file of its name. A crash changes at most the file that
is being written, and one that was cut short is not read. -/
theorem resumes_iff {m : Moment} {last : PersistedSyncSession} (h : manager.WellNamed files)
    (hlast : manager.LastSaved (manager.created files) m id last) (kept : ℕ) :
    manager.Resumes (manager.component.crash m.head kept m.state) id ↔
      manager.Survives m.head kept id last := by
  obtain ⟨m₀, hrun₀, hsaved, hm⟩ := hlast
  have hrun : manager.component.Run noHistory untilCrash (manager.created files) m := by
    rcases hm with rfl | ⟨⟨i, hnext⟩, -⟩
    · exact hrun₀
    · exact hrun₀.tail ⟨.act i, trivial, hnext⟩
  have horderly : manager.Orderly m.head m.state := by
    refine (hrun.holds (I := fun s _ => manager.Named s) (P := fun _ => manager.Orderly) rfl
      (named_new h) (fun c s _ hs _ => ?_) ?_ fun _ _ _ _ _ hcrash => hcrash.elim).head ?_
    · exact (keepsNames_code c hs).mono fun _ s hs => ⟨hs, hs, by rintro name content ⟨⟩⟩
    · exact fun s _ hs => ⟨hs, by rintro name content ⟨⟩⟩
    · exact fun s _ hs => ⟨hs, by rintro name content ⟨⟩⟩
  obtain ⟨hnamed, hwrites⟩ := horderly
  show manager.Resumes (manager.new (leftFiles m.head kept m.state.files)) id ↔ _
  rw [resumes_new (hnamed.files.leftFiles hwrites)]
  unfold Survives
  refine and_congr_right fun _ => and_congr_right fun _ => ?_
  have hsame (hother : ∀ content, m.head ≠ some (.writeFile (fileName id) content)) :
      (∃ session, (m.state.files.lookup (fileName id)).bind manager.json.fromBytes =
        some session ∧ session.canResume = true) ↔ last.canResume = true := by
    obtain rfl : m = m₀ := hm.resolve_right fun ⟨_, content, hhead⟩ => hother content hhead
    rw [show (m.state.files.lookup (fileName id)).bind manager.json.fromBytes =
        some last from hsaved]
    simp
  cases hhead : m.head with
  | none => exact hsame (by simp [hhead])
  | some op =>
    cases op with
    | writeFile name content =>
      obtain ⟨way, session, rfl, -⟩ := hwrites name content hhead
      dsimp only [leftFiles]
      by_cases hname : name = fileName id
      · rw [if_pos hname, hname, Finmap.lookup_insert]
        simp only [Option.bind_some, FileCodec.fromBytes_take_eq_some,
          manager.json.fromBytes_toBytes]
        constructor
        · rintro ⟨next, ⟨hkept, rfl⟩, hresume⟩
          exact ⟨hkept, session, rfl, hresume⟩
        · rintro ⟨hkept, next, hnext, hresume⟩
          exact ⟨next, ⟨hkept, Option.some.inj hnext⟩, hresume⟩
      · rw [if_neg hname, Finmap.lookup_insert_of_ne _ (Ne.symm hname)]
        exact hsame fun other heq => hname
          (PersistenceOp.writeFile.inj (Option.some.inj (hhead.symm.trans heq))).1
    | _ => exact hsame (by simp [hhead])

/-! ## A session that is cut off -/

/-- The start of the session. -/
def startSyncing : List (Crashable.Event PersistenceCall PersistenceInput) :=
  .call (.startSession syncing) :: List.replicate 5 (.act ⟨⟨1704067200, 0⟩, 0, none⟩) ++ [.finish]

/-- The start of the session, and its interruption. -/
def cutOffSyncing : List (Crashable.Event PersistenceCall PersistenceInput) :=
  startSyncing ++ .call (.interruptSession ['s']) ::
    List.replicate 4 (.act ⟨⟨1704067200, 0⟩, 0, none⟩) ++ [.finish]

lemma created_empty (manager : SyncPersistenceManager) :
    manager.created ∅ = ⟨⟨∅, ∅, ∅⟩, (), none⟩ := by
  have hempty : manager.loadSessions ∅ = ∅ := by
    refine Finmap.ext_lookup fun id => Option.eq_none_iff_forall_ne_some.mpr fun session hload => ?_
    have hread := ((lookup_loadSessions (by simp [WellNamed])).mp hload).2.2
    simp at hread
  rw [created, new, hempty]

lemma meets_untilCrash : ∀ e ∈ cutOffSyncing, ∀ m : Moment, untilCrash.Meets m e := by
  intro e he m
  simp only [cutOffSyncing, startSyncing, List.cons_append, List.mem_cons, List.mem_append,
    List.mem_replicate, List.not_mem_nil, or_false] at he
  rcases he with rfl | ((⟨-, rfl⟩ | rfl) | rfl | ⟨-, rfl⟩) | rfl
  · show '/' ∉ ['s']
    decide
  all_goals trivial

/-- A session that was interrupted with a chunk pending can be resumed after a crash. -/
theorem resumes_cutOff : ∃ manager : SyncPersistenceManager,
    (∀ way, ∀ sample ∈ syncingSamples, manager.json.toBytes way sample.1 = sample.2) ∧
      ∃ m : Moment, manager.component.Run noHistory untilCrash (manager.created ∅) m ∧
        manager.saved m.state ['s'] = some cutOff ∧
        manager.Resumes (manager.component.crash m.head 0 m.state) ['s'] := by
  obtain ⟨manager, -, htexts⟩ := exists_syncing
  have hexec : (Runs.exec (manager.component.next noHistory) (fun _ _ => True) cutOffSyncing
      ⟨⟨∅, ∅, ∅⟩, (), none⟩).map (fun m => (m.head, m.state.files.lookup (fileName ['s']))) =
      some (none, some (overlay [] (manager.json.toBytes 0 cutOff))) := rfl
  obtain ⟨m, hm, hend⟩ := Option.map_eq_some_iff.mp hexec
  obtain ⟨hhead, hfile⟩ := Prod.mk.inj hend
  have hrun : manager.component.Run noHistory untilCrash (manager.created ∅) m := by
    rw [created_empty]
    exact Runs.run_of_exec_of_forall hm meets_untilCrash
  have hsaved : manager.saved m.state ['s'] = some cutOff := by
    rw [saved, hfile, overlay_nil, Option.bind_some, manager.json.fromBytes_toBytes]
  refine ⟨manager, htexts, m, hrun, hsaved,
    (resumes_iff (by simp [WellNamed]) ⟨m, hrun, hsaved, .inl rfl⟩ 0).mpr ?_⟩
  rw [hhead]
  exact ⟨by decide, by decide, (by decide : cutOff.canResume = true)⟩

/-- **A session that is cut off while it is active is not resumed**, although its last save has a
chunk pending. -/
theorem not_resumes_syncing : ∃ manager : SyncPersistenceManager,
    (∀ way, ∀ sample ∈ syncingSamples, manager.json.toBytes way sample.1 = sample.2) ∧
      ¬ ∀ (m : Moment) (kept : ℕ) (id : Text) (last : PersistedSyncSession),
        manager.component.Run noHistory untilCrash (manager.created ∅) m →
        manager.saved m.state id = some last → last.HasRemaining →
        manager.Resumes (manager.component.crash m.head kept m.state) id := by
  obtain ⟨manager, -, htexts⟩ := exists_syncing
  refine ⟨manager, htexts, fun h => ?_⟩
  have hexec : (Runs.exec (manager.component.next noHistory) (fun _ _ => True) startSyncing
      ⟨⟨∅, ∅, ∅⟩, (), none⟩).map (fun m => (m.head, m.state.files)) =
      some (none, (∅ : HashMap Text Bytes).insert (fileName syncing.sessionId)
        (overlay [] (manager.json.toBytes 0 syncing))) := rfl
  obtain ⟨m, hm, hend⟩ := Option.map_eq_some_iff.mp hexec
  obtain ⟨hhead, hfiles⟩ := Prod.mk.inj hend
  rw [overlay_nil] at hfiles
  have hrun : manager.component.Run noHistory untilCrash (manager.created ∅) m := by
    rw [created_empty]
    refine Runs.run_of_exec_of_forall hm fun e he => meets_untilCrash e ?_
    simp only [cutOffSyncing, List.append_assoc, List.mem_append]
    exact .inl he
  have hread : (m.state.files.lookup (fileName ['s'])).bind manager.json.fromBytes =
      some syncing := by
    rw [hfiles, show fileName ['s'] = fileName syncing.sessionId from rfl, Finmap.lookup_insert,
      Option.bind_some, manager.json.fromBytes_toBytes]
  have hresumes := h m 0 ['s'] syncing hrun hread (.inl (by decide))
  have hnamed : manager.WellNamed m.state.files := by
    have hempty : manager.WellNamed ∅ := by simp [WellNamed]
    have hinsert := hempty.insert syncing 0 (manager.json.toBytes 0 syncing).length
    rwa [List.take_length, ← hfiles] at hinsert
  rw [show manager.component.crash m.head 0 m.state = manager.new (leftFiles m.head 0 m.state.files)
    from rfl, hhead] at hresumes
  obtain ⟨-, -, session, hload, hresume⟩ := (resumes_new hnamed).mp hresumes
  obtain rfl := Option.some.inj (hread.symm.trans hload)
  exact absurd hresume (by decide)

end SyncPersistenceManager

end Landropic
