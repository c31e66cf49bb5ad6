import Landropic.Cas.TempFiles
import Landropic.Cas.VerifyIntegrity

set_option autoImplicit false

/-!
# What is left behind by writes that fail

Writes, streamed writes and resumable writes run side by side, any action of them may fail, and a
crash may cut all of them off. Recovery takes the temporary files of objects away, and the cleanup
of expired transfers those of resumable writes, so that only the files of streamed writes can stay
for ever: they do if the write ends between creating its file and moving it.

## Main definitions

* `Cas.ContentStore.cancelResumableWrite`, `Cas.ContentStore.cleanupExpiredPartials` — the cleanup
  of resumable writes.
* `Cas.WriteCall`, `Cas.Work` — the calls that write, and a store at work on any number of them.
* `Cas.ContentStore.StrandsNone` — the steps that do not end a streamed write while its file is
  there.
* `Cas.ContentStore.CleansUp` — recovery and cleanup leave nothing but objects.

## Main results

* `Cas.ContentStore.wp_cleanupExpiredPartials` — what the cleanup removes.
* `Cas.ContentStore.cleansUp_iff` — nothing but objects is left if and only if no file of a streamed
  write is there.
* `Cas.ContentStore.cleansUp_of_run` — the runs after which this is so.
-/

namespace Landropic.Cas

open Proc

/-! ## Cancelling and cleaning up -/

/-- A file of a resumable write, by its name. -/
def IsPartial (p : FilePath) : Prop := ".partial".toList <:+ fileName p

instance (p : FilePath) : Decidable (IsPartial p) := by unfold IsPartial; infer_instance

/-- When a directory entry was created, where the file system tells. -/
def creationTime (created : FilePath → Option ℕ) (p : FilePath) (fs : Fs) :
    Except IoError (Option ℕ) :=
  if fs.pathExists p then .ok (created p) else .error .notFound

/-- More than 24 hours in whole seconds have passed, for times in milliseconds. -/
def isOld (now : ℕ) : Except IoError (Option ℕ) → Bool
  | .ok (some created) => 24 * 3600 < (now - created) / 1000
  | _ => false

/-- Clean up those of the entries that are old files of resumable writes, and count them. -/
def cleanupEntries (created : FilePath → Option ℕ) (now : ℕ) :
    List FilePath → ℕ → Task CasError ℕ
  | [], cleanedCount => do
    (look .nextEntry fun _ => .ok ()).mapErr .io
    pure cleanedCount
  | entry :: rest, cleanedCount => do
    (look .nextEntry fun _ => .ok ()).mapErr .io
    if IsPartial entry then
      let metadata ← (look (.metadata entry) (creationTime created entry)).attempt
      if isOld now metadata then
        let _ ← (disk (.removeFile entry) (Fs.removeFile entry)).attempt
        cleanupEntries created now rest (cleanedCount + 1)
      else cleanupEntries created now rest cleanedCount
    else cleanupEntries created now rest cleanedCount

namespace ContentStore

variable (store : ContentStore)

/-- Cancel a resumable write operation, cleaning up temporary files. -/
def cancelResumableWrite (transfer : PartialTransfer) : Task CasError Unit := do
  if ← pathExists transfer.tempPath then
    (disk (.removeFile transfer.tempPath) (Fs.removeFile transfer.tempPath)).mapErr .io
  else pure ()

/-- Clean up expired partial transfers: `created` says when the file system has created a file. -/
def cleanupExpiredPartials (order : IterOrder FilePath) (created : FilePath → Option ℕ) :
    Task CasError ℕ := do
  if ← pathExists store.tempDir then
    let now ← ask .clock
    let entries ← (look (.readDir store.tempDir) fun fs =>
      fs.readDir order store.tempDir).mapErr .io
    cleanupEntries created now entries 0
  else pure 0

end ContentStore

/-! ## Calls that write -/

/-- The calls that write. -/
inductive WriteCall
  | write (data : Bytes)
  | writeStream (reader : Reader) (expectedHash : Option ContentHash)
  | startResumableWrite (expectedHash : Option ContentHash) (totalSize : Option ℕ)
  | continueResumableWrite (transfer : PartialTransfer) (reader : Reader)
  | completeResumableWrite (transfer : PartialTransfer)
  | cancelResumableWrite (transfer : PartialTransfer)

/-- A streamed write whose reader fails. -/
def WriteCall.readerFails : WriteCall → Bool
  | .writeStream reader _ => reader.error.isSome
  | _ => false

/-- The temporary files that a later recovery or cleanup takes away. -/
def Owner.Covered : Owner → Prop
  | .stream _ => False
  | _ => True

instance : (owner : Owner) → Decidable owner.Covered
  | .stream _ => inferInstanceAs (Decidable False)
  | .object _ | .transfer _ => inferInstanceAs (Decidable True)

/-- A store at work on any number of calls, one for each temporary file. -/
structure Work where
  pool : Pool Owner StoreState Io Op CasError Unit
  /-- The last call for each temporary file. -/
  call : Owner → WriteCall

namespace Work

/-- What can happen next. -/
inductive Event
  | call (owner : Owner) (call : WriteCall)
  /-- A call takes its next action. -/
  | act (owner : Owner) (i : Io)
  /-- All calls are cut off, and the store is opened again. -/
  | crash (now : ℕ)

/-- No call is running. -/
def Idle (S : Work) : Prop := ∀ owner, ∃ r, S.pool.task owner = .ret r

end Work

namespace ContentStore

variable (store : ContentStore)

/-- The call has this temporary file. A call for a transfer has the one its record names. -/
def BelongsTo : WriteCall → Owner → Prop
  | .write data, .object hash => store.blake3 data = hash
  | .writeStream _ _, .stream _ => True
  | .startResumableWrite _ _, .transfer _ => True
  | .continueResumableWrite transfer _, .transfer name =>
    transfer.tempPath = store.fileOf (.transfer name)
  | .completeResumableWrite transfer, .transfer name =>
    transfer.tempPath = store.fileOf (.transfer name)
  | .cancelResumableWrite transfer, .transfer name =>
    transfer.tempPath = store.fileOf (.transfer name)
  | _, _ => False

instance : (call : WriteCall) → (owner : Owner) → Decidable (store.BelongsTo call owner)
  | .write data, .object hash => inferInstanceAs (Decidable (store.blake3 data = hash))
  | .writeStream _ _, .stream _ | .startResumableWrite _ _, .transfer _ =>
    inferInstanceAs (Decidable True)
  | .continueResumableWrite transfer _, .transfer name
  | .completeResumableWrite transfer, .transfer name
  | .cancelResumableWrite transfer, .transfer name =>
    inferInstanceAs (Decidable (transfer.tempPath = store.fileOf (.transfer name)))
  | .write _, .stream _ | .write _, .transfer _ | .writeStream _ _, .object _
  | .writeStream _ _, .transfer _ | .startResumableWrite _ _, .object _
  | .startResumableWrite _ _, .stream _ | .continueResumableWrite _ _, .object _
  | .continueResumableWrite _ _, .stream _ | .completeResumableWrite _, .object _
  | .completeResumableWrite _, .stream _ | .cancelResumableWrite _, .object _
  | .cancelResumableWrite _, .stream _ => inferInstanceAs (Decidable False)

/-- The task of a call; what it returns is of no interest here. -/
def serveWrite : WriteCall → Task CasError Unit
  | .write data => do
    let _ ← store.write data
    pure ()
  | .writeStream reader expectedHash => do
    let _ ← store.writeStream reader expectedHash
    pure ()
  | .startResumableWrite expectedHash totalSize => do
    let _ ← store.startResumableWrite expectedHash totalSize
    pure ()
  | .continueResumableWrite transfer reader => do
    let _ ← store.continueResumableWrite transfer reader
    pure ()
  | .completeResumableWrite transfer => do
    let _ ← store.completeResumableWrite transfer
    pure ()
  | .cancelResumableWrite transfer => cancelResumableWrite transfer

/-- A store that was just opened, before any call. -/
def work (fs : Fs) (now : ℕ) : Work where
  pool := ⟨store.opened fs now, fun _ => pure ()⟩
  call _ := .write []

/-- What an event leads to, if it can happen. -/
def workNext (S : Work) : Work.Event → Option Work
  | .call owner call =>
    match S.pool.task owner with
    | .ret _ =>
      if store.BelongsTo call owner then
        some ⟨S.pool.withTask owner (store.serveWrite call), Function.update S.call owner call⟩
      else none
    | .act _ _ _ _ => none
  | .act owner i =>
    if (S.pool.task owner).head = some .uuid → owner.Draws i then
      (S.pool.advance owner i).map fun P => { S with pool := P }
    else none
  | .crash now => some ⟨⟨store.opened S.pool.state.fs now, fun _ => pure ()⟩, S.call⟩

/-- Runs whose steps all meet a condition on the store before the step and the event. -/
def WorkRun (C : Work → Work.Event → Prop) : Work → Work → Prop := Runs.Run store.workNext C

/-- The path of a file of a streamed write. -/
def IsStream (p : FilePath) : Prop := p.tail = store.tempDir ∧ ".tmp".toList <:+ fileName p

instance (p : FilePath) : Decidable (store.IsStream p) := inferInstanceAs (Decidable (_ ∧ _))

/-- No file of a streamed write is there. -/
def NoStreams (fs : Fs) : Prop := ∀ p ∈ fs.nodes.keys, ¬ store.IsStream p

instance (fs : Fs) : Decidable (store.NoStreams fs) := by unfold NoStreams; infer_instance

/-- **A step that does not end a streamed write while its file is there.** No action of it fails
then, except for the look whether the object exists, a write whose reader fails does not get as far
as to create its file, and no crash comes. -/
def StrandsNone (S : Work) : Work.Event → Prop
  | .call _ _ => True
  | .act owner i =>
    (i = .fail → (S.pool.task owner).head.any Op.isPathExists = true ∨ owner.Covered ∨
      S.pool.state.fs.content (store.fileOf owner) = none) ∧
    ((S.call owner).readerFails = true →
      (S.pool.task owner).head = some (.create (store.fileOf owner)) → i = .fail)
  | .crash _ => store.NoStreams S.pool.state.fs

instance (S : Work) (e : Work.Event) : Decidable (store.StrandsNone S e) := by
  cases e <;> unfold StrandsNone <;> infer_instance

/-- Every file in the directories of the store is an object with the hash that it is named by. -/
def OnlyObjects (fs : Fs) : Prop :=
  ∀ p data, store.objectsDir <:+ p ∨ store.tempDir <:+ p → fs.content p = some data →
    p = store.objectPath (store.blake3 data)

/-- The inputs when no action fails and the clock shows this time or a later one. -/
def Since (time : ℕ) (i : Io) : Prop := ∃ now, time ≤ now ∧ i = .ok now

/-- **Recovery and cleanup**, one after the other and without faults, succeed and leave nothing but
objects. -/
def CleansUp (order order' : IterOrder FilePath) (fuel : ℕ) (created : FilePath → Option ℕ)
    (time : ℕ) (s : StoreState) : Prop :=
  Ensures noFault (fun r s₁ => (∃ stats, r = .ok stats) ∧
      Ensures (Since time) (fun r s₂ => (∃ count, r = .ok count) ∧ store.OnlyObjects s₂.fs)
        (store.cleanupExpiredPartials order' created) s₁)
    (store.recover order fuel) s

/-! ## What a call does -/

section Calls

variable {store} {owner : Owner} {faults broken : Prop} {s : StoreState} {hash : ContentHash}
  {data : Bytes} {ε α : Type} {ino : ℕ} {op : Op} {p : FilePath} {transfer : PartialTransfer}
  {name : Text}

lemma part_true {P : α → Fs → Prop} {t : Task ε α}
    (h : wp (store.ownerSpec owner True broken) (store.Part owner True P) t s) :
    wp (store.ownerSpec owner True broken) (store.Part owner True fun _ _ => True) t s := by
  refine wp_mono h ?_
  rintro (e | a) s' ⟨hclean, -⟩
  · exact ⟨hclean, .inl trivial⟩
  · exact ⟨hclean, trivial⟩

/-! ### Writes -/

lemma part_look_true {f : Fs → Except IoError α} (h : store.Clean s.fs)
    (hop : op.isPathExists = false) :
    wp (store.ownerSpec owner True broken) (store.Part owner True fun _ _ => True) (look op f)
      s := by
  refine part_look h hop fun fs _ _ => ?_
  cases f fs with
  | ok a => trivial
  | error e => exact .inl trivial

lemma part_fsyncTemp (h : store.Clean s.fs) (hold : Holding (store.fileOf owner) ino data s.fs) :
    wp (store.ownerSpec owner faults broken)
      (store.Part owner faults fun _ => Holding (store.fileOf owner) ino data)
      (store.fsyncTemp p) s := by
  unfold fsyncTemp
  split
  · exact part_mapErr (part_look h rfl fun fs henv _ => henv.file.holding hold)
  · exact ⟨h, hold⟩

lemma part_renameTemp (h : store.Clean s.fs)
    (hold : Holding (store.fileOf owner) ino data s.fs) (hhash : store.HashesTo hash data) :
    wp (store.ownerSpec owner True broken) (store.Part owner True fun _ _ => True)
      (renameTemp (store.fileOf owner) (store.objectPath hash)) s := by
  have hrename : wp (store.ownerSpec owner True broken) (store.Part owner True fun _ _ => True)
      (disk (.rename (store.fileOf owner) (store.objectPath hash))
        (Fs.rename (store.fileOf owner) (store.objectPath hash))) s := by
    refine part_disk h rfl fun fs henv hclean _ r fs' heq => ?_
    have hold' := henv.file.holding hold
    cases r with
    | ok u =>
      refine ⟨(moves_rename hclean heq fun data' hdata' => ?_).1, trivial⟩
      rw [Fs.content_of_lookup hold'.1, hold'.2, Option.some.injEq] at hdata'
      exact hdata' ▸ hhash
    | error e =>
      obtain rfl := Fs.rename_error heq
      exact ⟨.refl, .inl trivial⟩
  refine wp_bind (wp_attempt (wp_mono hrename ?_))
  rintro (e | u) s' ⟨h', -⟩
  · refine wp_bind (wp_attempt (wp_mono (part_removeFile h') ?_))
    rintro (e' | u) s'' ⟨h'', -⟩
    · exact ⟨h'', .inl trivial⟩
    · exact ⟨h'', .inl trivial⟩
  · exact ⟨h', trivial⟩

lemma part_fsyncParent (h : store.Clean s.fs) (dir : FilePath) :
    wp (store.ownerSpec owner True broken) (store.Part owner True fun _ _ => True)
      (store.fsyncParent dir) s := by
  unfold fsyncParent fsyncDirectory
  split
  · exact part_mapErr (part_mapErr (part_look_true h rfl))
  · exact ⟨h, trivial⟩

lemma part_countPendingSync (h : store.Clean s.fs) :
    wp (store.ownerSpec owner True broken) (store.Part owner True fun _ _ => True)
      store.countPendingSync s := by
  unfold countPendingSync
  split
  · refine part_bind (P := fun _ _ => True) (part_still h (fun _ _ => rfl) (fun _ _ => ⟨_, rfl⟩)
      fun _ _ _ => trivial) fun pending s' h' _ => ?_
    split
    · exact part_still h' (fun _ _ => rfl) (fun _ _ => ⟨_, rfl⟩) fun _ _ _ => trivial
    · exact ⟨h', trivial⟩
  · exact ⟨h, trivial⟩

lemma part_writeAtomic (h : store.Clean s.fs) (hhash : store.HashesTo hash data) :
    wp (store.ownerSpec (.object hash) True broken)
      (store.Part (.object hash) True fun _ _ => True)
      (store.writeAtomic (store.objectPath hash) data) s := by
  refine part_bind (part_mapErr (part_create h (.inl trivial))) fun ino s₁ h₁ hold => ?_
  refine part_bind (part_mapErr (part_writeAll data h₁ (.inr rfl) hold.2)) fun _ s₂ h₂ hold => ?_
  refine part_bind (part_fsyncTemp h₂ hold) fun _ s₃ h₃ hold => ?_
  refine part_bind (part_renameTemp h₃ hold hhash) fun _ s₄ h₄ _ => ?_
  exact part_bind (part_fsyncParent h₄ _) fun _ s₅ h₅ _ => part_countPendingSync h₅

lemma part_writeIndividual (h : store.Clean s.fs) (hhash : store.HashesTo hash data) :
    wp (store.ownerSpec (.object hash) True broken)
      (store.Part (.object hash) True fun _ _ => True) (store.writeIndividual data hash) s := by
  refine part_bind (part_mapErr (part_createDirAll (A := fun _ => True) h isDirPath_shardDir trivial
    fun _ => id)) fun _ s₁ h₁ _ => ?_
  exact part_bind (part_writeAtomic h₁ hhash) fun _ s₂ h₂ _ => ⟨h₂, trivial⟩

lemma part_existsObject (h : store.Clean s.fs) :
    wp (store.ownerSpec owner True broken) (store.Part owner True fun _ _ => True)
      (store.existsObject hash : Task ε Bool) s := by
  refine part_bind (P := fun _ _ => True) (part_still h (fun _ _ => rfl) (fun _ _ => ⟨_, rfl⟩)
    fun _ _ _ => trivial) fun found s₁ h₁ _ => ?_
  split
  · exact ⟨h₁, trivial⟩
  · refine part_bind (P := fun _ _ => True) ?_ fun _ s₂ h₂ _ => ⟨h₂, trivial⟩
    unfold readPacked
    split
    · exact part_still h₁ (fun _ _ => rfl) (fun _ _ => ⟨_, rfl⟩) fun _ _ _ => trivial
    · exact ⟨h₁, trivial⟩

/-- **A write** may leave its temporary file behind, but never an object that is not its own. -/
theorem part_write (h : store.Clean s.fs) (hhash : store.blake3 data = hash) :
    wp (store.ownerSpec (.object hash) True broken)
      (store.Part (.object hash) True fun _ _ => True) (store.write data) s := by
  subst hhash
  unfold write
  split
  · exact ⟨h, .inl trivial⟩
  · refine part_bind (P := fun _ _ => True) (part_still h (fun _ _ => rfl) (fun _ _ => ⟨_, rfl⟩)
      fun _ _ _ => trivial) fun found s₁ h₁ _ => ?_
    split
    · exact ⟨h₁, trivial⟩
    · refine part_bind (part_existsObject h₁) fun found s₂ h₂ _ => ?_
      split
      · refine part_bind (part_dedupInsert h₂ (A := fun _ => True) trivial fun _ => id) ?_
        exact fun _ s₃ h₃ _ => ⟨h₃, trivial⟩
      · split
        · exact part_writeIndividual h₂ rfl
        · exact part_writeIndividual h₂ rfl

/-! ### Streamed writes -/

/-- Drawing the name of the temporary file. -/
lemma part_uuid {A : Fs → Prop} (h : store.Clean s.fs) (hA : A s.fs)
    (hstable : ∀ {fs fs'}, store.Respects owner fs fs' → A fs → A fs') :
    wp (store.ownerSpec owner faults broken)
      (store.Part owner faults fun id fs => owner.Draws (.ok id) ∧ A fs) (ask .uuid : Task ε ℕ)
      s := by
  refine wp_atom fun s' henv i hi => ⟨.refl, henv.clean h, ?_, hstable henv hA⟩
  have hdraws := hi.1 rfl
  cases i with
  | ok n => exact hdraws
  | fail =>
    cases owner with
    | object hash => trivial
    | stream name => exact hdraws
    | transfer name => exact hdraws

lemma part_createTempDir (h : store.Clean s.fs) (hgone : store.Gone owner faults s.fs) :
    wp (store.ownerSpec owner faults broken)
      (store.Part owner faults fun _ => store.Gone owner faults) store.createTempDir s := by
  refine wp_mono (part_mapErr (part_createDirAll h isDirPath_tempDir hgone
    fun henv => henv.gone)) ?_
  rintro (e | u) s' ⟨hclean, hr⟩
  · exact ⟨hclean, hr⟩
  · exact ⟨hclean, hr.2⟩

lemma part_fsyncStream (h : store.Clean s.fs) (hold : Holding (store.fileOf owner) ino data s.fs) :
    wp (store.ownerSpec owner faults broken)
      (store.Part owner faults fun _ => Holding (store.fileOf owner) ino data)
      (store.fsyncStream p) s := by
  unfold fsyncStream
  split
  · exact part_mapErr (part_look h rfl fun fs henv _ => henv.file.holding hold)
  · exact ⟨h, hold⟩

/-- **A streamed write** leaves no temporary file behind, if faults are allowed only while there is
none and a write whose reader fails does not get as far as to create it. -/
theorem part_writeStream (reader : Reader) (expectedHash : Option ContentHash)
    (h : store.Clean s.fs) (hgone : store.Gone (.stream name) faults s.fs)
    (hbroken : reader.error ≠ none → broken) :
    wp (store.ownerSpec (.stream name) faults broken)
      (store.Part (.stream name) faults fun _ => store.Gone (.stream name) faults)
      (store.writeStream reader expectedHash) s := by
  refine part_bind (part_uuid h hgone fun henv => henv.gone) ?_
  rintro id s₁ h₁ ⟨hid, hgone₁⟩
  obtain rfl : uuidText id = name := hid
  refine part_bind (part_createTempDir h₁ hgone₁) fun _ s₂ h₂ hgone₂ => ?_
  refine part_bind (part_mapErr (part_create h₂ hgone₂)) ?_
  rintro ino s₃ h₃ ⟨hok, hold₃⟩
  have hreader : reader.error = none := by
    by_contra herr
    exact hok (hbroken herr)
  refine part_bind (store.part_streamFrom reader h₃ (.inr rfl) hold₃ (.inr hreader))
    fun _ s₄ h₄ hold₄ => ?_
  refine part_bind (part_fsyncStream h₄ hold₄) fun _ s₅ h₅ hold₅ => ?_
  refine part_bind (part_verifyHash h₅ hold₅) fun _ s₆ h₆ hold₆ => ?_
  exact part_moveIntoPlace h₆ hold₆ rfl

/-! ### Resumable writes -/

/-- A call that checks first whether the transfer has expired. -/
lemma part_clock {t : ℕ → Task ε α} {P : α → Fs → Prop} (h : store.Clean s.fs)
    (ht : ∀ now s', store.Clean s'.fs →
      wp (store.ownerSpec owner faults broken) (store.Part owner faults P) (t now) s') :
    wp (store.ownerSpec owner faults broken) (store.Part owner faults P) (do
      let now ← ask .clock
      t now) s :=
  part_bind (P := fun _ _ => True) (part_still h (fun _ _ => rfl) (fun _ _ => ⟨_, rfl⟩)
    fun _ _ _ => trivial) fun now s' h' _ => ht now s' h'

lemma part_startResumableWrite (expectedHash : Option ContentHash) (totalSize : Option ℕ)
    (h : store.Clean s.fs) :
    wp (store.ownerSpec owner True broken) (store.Part owner True fun _ _ => True)
      (store.startResumableWrite expectedHash totalSize) s := by
  refine part_bind (part_uuid (A := fun _ => True) h trivial fun _ => id) fun id s₁ h₁ _ => ?_
  refine part_bind (part_createTempDir h₁ (.inl trivial)) fun _ s₂ h₂ _ => ?_
  exact part_clock h₂ fun now s₃ h₃ => ⟨h₃, trivial⟩

/-- Continuing a transfer. -/
theorem part_continueResumableWrite (reader : Reader) (h : store.Clean s.fs)
    (htransfer : transfer.tempPath = store.fileOf owner) :
    wp (store.ownerSpec owner True broken) (store.Part owner True fun _ _ => True)
      (store.continueResumableWrite transfer reader) s := by
  refine part_clock h fun now s₁ h₁ => ?_
  split
  · exact ⟨h₁, .inl trivial⟩
  · have hopen : wp (store.ownerSpec owner True broken)
        (store.Part owner True fun out fs => ∃ done, AtEnd out.2 done ∧
          Holding (store.fileOf owner) out.1 done fs) (openPartial transfer) s₁ := by
      unfold openPartial
      rw [htransfer]
      split
      · refine part_bind (part_mapErr (part_create h₁ (.inl trivial))) ?_
        exact fun ino s₂ h₂ hold => ⟨h₂, [], .inr rfl, hold.2⟩
      · refine part_bind (P := fun ino fs => ∃ done, Holding (store.fileOf owner) ino done fs)
          (part_mapErr (part_look h₁ rfl fun fs _ _ => ?_)) ?_
        · cases hlookup : fs.nodes.lookup (store.fileOf owner) with
          | none => simp [Fs.openFile, hlookup, Gone]
          | some node =>
            cases node with
            | dir => simp [Fs.openFile, hlookup, Gone]
            | file ino =>
              rw [Fs.openFile_of_lookup hlookup]
              exact ⟨_, hlookup, rfl⟩
        · rintro ino s₂ h₂ ⟨done, hold⟩
          exact ⟨h₂, done, .inl rfl, hold⟩
    refine part_bind hopen ?_
    rintro ⟨ino, pos⟩ s₂ h₂ ⟨done, hpos, hold⟩
    refine part_bind (P := fun _ => Holding (store.fileOf owner) ino done) ?_
      fun _ s₃ h₃ hold₃ => ?_
    · unfold restoreHasher
      split
      · refine part_bind (P := fun _ => Holding (store.fileOf owner) ino done)
          (part_mapErr (part_look h₂ rfl fun fs henv _ => ?_)) fun _ s₃ h₃ hold₃ => ⟨h₃, hold₃⟩
        rw [htransfer, Fs.readFile_of_lookup (henv.file.holding hold).1]
        exact henv.file.holding hold
      · exact ⟨h₂, hold⟩
    · rw [htransfer]
      refine part_bind (store.part_streamFrom reader h₃ hpos hold₃ (.inl trivial)) ?_
      exact fun _ s₄ h₄ _ => ⟨h₄, trivial⟩

/-- Completing a transfer. -/
theorem part_completeResumableWrite (h : store.Clean s.fs)
    (htransfer : transfer.tempPath = store.fileOf owner) :
    wp (store.ownerSpec owner True broken) (store.Part owner True fun _ _ => True)
      (store.completeResumableWrite transfer) s := by
  refine part_clock h fun now s₁ h₁ => ?_
  rw [htransfer]
  split
  · exact part_discard h₁ _
  · refine part_bind (P := fun _ _ => True) (part_still h₁ (fun _ _ => rfl) (fun _ _ => ⟨_, rfl⟩)
      fun _ _ _ => trivial) fun found s₂ h₂ _ => ?_
    split
    · refine part_bind (P := fun data fs => ∃ ino, Holding (store.fileOf owner) ino data fs)
        (part_mapErr (part_look h₂ rfl fun fs _ _ => ?_)) ?_
      · cases hread : fs.readFile (store.fileOf owner) with
        | error e => exact .inl trivial
        | ok data => exact Fs.content_eq_some.mp (Fs.readFile_eq_ok.mp hread)
      · rintro data s₃ h₃ ⟨ino, hold⟩
        refine part_bind (part_verifyHash h₃ hold) fun _ s₄ h₄ hold₄ => ?_
        refine part_bind (part_verifySize h₄ hold₄) fun _ s₅ h₅ hold₅ => ?_
        exact part_true (part_moveIntoPlace h₅ hold₅ rfl)
    · exact ⟨h₂, .inl trivial⟩

lemma part_cancelResumableWrite (h : store.Clean s.fs)
    (htransfer : transfer.tempPath = store.fileOf owner) :
    wp (store.ownerSpec owner True broken) (store.Part owner True fun _ _ => True)
      (cancelResumableWrite transfer) s := by
  unfold cancelResumableWrite
  rw [htransfer]
  refine part_bind (P := fun _ _ => True) (part_still h (fun _ _ => rfl) (fun _ _ => ⟨_, rfl⟩)
    fun _ _ _ => trivial) fun found s₁ h₁ _ => ?_
  split
  · exact part_true (part_mapErr (part_removeFile h₁))
  · exact ⟨h₁, trivial⟩

end Calls

/-! ## What the runs achieve -/

section Runs

variable {store} {owner : Owner} {s : StoreState} {fs : Fs} {call : WriteCall} {S S' : Work}

/-- The task of a call leaves no temporary file behind that is not taken away later. -/
theorem part_serveWrite (h : store.Clean s.fs) (hgone : store.Gone owner owner.Covered s.fs)
    (hcall : store.BelongsTo call owner) :
    wp (store.ownerSpec owner owner.Covered (call.readerFails = true))
      (store.Part owner owner.Covered fun _ => store.Gone owner owner.Covered)
      (store.serveWrite call) s := by
  cases owner with
  | object hash =>
    cases call with
    | write data => exact part_bind (part_write h hcall) fun _ s' h' _ => ⟨h', .inl trivial⟩
    | _ => exact hcall.elim
  | stream name =>
    cases call with
    | writeStream reader expectedHash =>
      refine part_bind (part_writeStream reader expectedHash h hgone fun herr => ?_)
        fun _ s' h' hgone' => ⟨h', hgone'⟩
      exact Option.isSome_iff_ne_none.mpr herr
    | _ => exact hcall.elim
  | transfer name =>
    cases call with
    | startResumableWrite expectedHash totalSize =>
      exact part_bind (part_startResumableWrite _ _ h) fun _ s' h' _ => ⟨h', .inl trivial⟩
    | continueResumableWrite transfer reader =>
      exact part_bind (part_continueResumableWrite reader h hcall)
        fun _ s' h' _ => ⟨h', .inl trivial⟩
    | completeResumableWrite transfer =>
      exact part_bind (part_completeResumableWrite h hcall) fun _ s' h' _ => ⟨h', .inl trivial⟩
    | cancelResumableWrite transfer =>
      refine wp_mono (part_cancelResumableWrite h hcall) ?_
      rintro (e | u) s' ⟨h', -⟩
      · exact ⟨h', .inl trivial⟩
      · exact ⟨h', .inl trivial⟩
    | _ => exact hcall.elim

variable (store) in
/-- A store at work: the disk is that of a store, and no call will leave a temporary file behind
that is not taken away later. -/
structure AtWork (S : Work) : Prop where
  clean : store.Clean S.pool.state.fs
  wp : ∀ owner, wp (store.ownerSpec owner owner.Covered ((S.call owner).readerFails = true))
    (fun _ s => store.Gone owner owner.Covered s.fs) (S.pool.task owner) S.pool.state

lemma gone_of_noStreams (h : store.NoStreams fs) : store.Gone owner owner.Covered fs := by
  cases owner with
  | object hash => exact .inl trivial
  | transfer name => exact .inl trivial
  | stream name =>
    refine .inr (Fs.content_eq_none.mpr fun i hi => ?_)
    exact h _ (Finmap.mem_keys.mpr (Finmap.mem_iff.mpr ⟨_, hi⟩)) ⟨rfl, List.suffix_append _ _⟩

lemma isStream_iff {p : FilePath} : store.IsStream p ↔ ∃ name, p = store.fileOf (.stream name) := by
  constructor
  · rintro ⟨htail, stem, hstem⟩
    cases p with
    | nil => cases htail
    | cons name dir =>
      obtain rfl : dir = store.tempDir := htail
      obtain rfl : stem ++ ".tmp".toList = name := hstem
      exact ⟨stem, rfl⟩
  · rintro ⟨name, rfl⟩
    exact ⟨rfl, List.suffix_append _ _⟩

lemma AtWork.noStreams (h : store.AtWork S) (hidle : S.Idle) :
    store.NoStreams S.pool.state.fs := by
  intro p hp hstream
  obtain ⟨name, rfl⟩ := isStream_iff.mp hstream
  obtain ⟨node, hnode⟩ := Finmap.mem_iff.mp (Finmap.mem_keys.mp hp)
  cases node with
  | dir => exact h.clean.not_dir isFilePath_fileOf hnode
  | file i =>
    obtain ⟨r, hr⟩ := hidle (.stream name)
    have hgone := h.wp (.stream name)
    rw [hr] at hgone
    exact Fs.content_eq_none.mp (hgone.resolve_left id) i hnode

/-- **A step that does not end a streamed write while its file is there** leaves the store at
work. -/
theorem AtWork.next (h : store.AtWork S) {e : Work.Event} (hC : store.StrandsNone S e)
    (hnext : store.workNext S e = some S') : store.AtWork S' := by
  cases e with
  | call owner call =>
    rw [workNext] at hnext
    split at hnext
    · next r htask =>
      split at hnext
      · next hcall =>
        obtain rfl := Option.some.inj hnext
        have hgone := h.wp owner
        rw [htask] at hgone
        refine ⟨h.clean, fun u => ?_⟩
        by_cases hu : u = owner
        · subst hu
          dsimp only
          rw [Pool.task_withTask_self, Function.update_self]
          refine wp_mono (part_serveWrite h.clean hgone hcall) ?_
          rintro (e | a) s' ⟨-, hr⟩
          · exact hr
          · exact hr
        · dsimp only
          rw [Pool.task_withTask_of_ne _ _ hu, Function.update_of_ne hu]
          exact h.wp u
      · cases hnext
    · cases hnext
  | act owner i =>
    rw [workNext] at hnext
    split at hnext
    · next hdraws =>
      obtain ⟨P, hadvance, rfl⟩ := Option.map_eq_some_iff.mp hnext
      have hstep := Pool.step_of_advance hadvance
      have hinput : ∀ l, (S.pool.task owner).head = some l →
          (store.ownerSpec owner owner.Covered ((S.call owner).readerFails = true)).input l
            S.pool.state i := by
        intro l hl
        obtain ⟨hfail, hcreate⟩ := hC
        rw [hl] at hdraws hfail hcreate
        exact ⟨fun hop => hdraws (congrArg some hop), hfail,
          fun hbroken hop => hcreate hbroken (congrArg some hop)⟩
      obtain ⟨⟨l, -, hmoves⟩, -⟩ := Proc.wp_step (h.wp owner) hstep.proc hinput
      refine ⟨hmoves.clean h.clean, Pool.wp_step (S := fun u =>
        store.ownerSpec u u.Covered ((S.call u).readerFails = true)) h.wp hstep hinput ?_ ?_⟩
      · exact fun u hu l _ hguar => hguar.respects hu
      · exact fun u r s s' henv hgone => henv.gone hgone
    · cases hnext
  | crash now =>
    obtain rfl := Option.some.inj hnext
    exact ⟨h.clean, fun u => gone_of_noStreams hC⟩

theorem atWork_of_run {now : ℕ} (h₀ : store.Clean fs) (hno : store.NoStreams fs)
    (hrun : store.WorkRun store.StrandsNone (store.work fs now) S) : store.AtWork S :=
  Runs.Run.invariant hrun ⟨h₀, fun _ => gone_of_noStreams hno⟩ fun _ h hC hnext => h.next hC hnext

end Runs

/-! ## What recovery and cleanup leave -/

section Cleanup

variable {store} {created : FilePath → Option ℕ} {recovered time now : ℕ} {s : StoreState} {fs : Fs}
  {p : FilePath} {name : Text}

variable (store) in
/-- The file system can tell for the files in the directory of the streamed and resumable writes
that it has created them by a certain time. -/
def CreatedBy (created : FilePath → Option ℕ) (time : ℕ) (fs : Fs) : Prop :=
  ∀ p, p.tail = store.tempDir → fs.content p ≠ none → ∃ t ≤ time, created p = some t

lemma isOld_of_le {t : ℕ} (ht : t ≤ recovered)
    (hnow : recovered + (24 * 3600 + 1) * 1000 ≤ now) : isOld now (.ok (some t)) = true := by
  simp only [isOld, decide_eq_true_eq]
  omega

/-- Of the files at some paths all old ones of resumable writes are gone, and nothing else is. -/
structure CleanedUp (created : FilePath → Option ℕ) (now : ℕ) (entries : List FilePath)
    (fs fs' : Fs) : Prop where
  kept : ∀ q, fs'.content q = fs.content q ∨ IsPartial q ∧ fs'.content q = none
  gone : ∀ recovered, recovered + (24 * 3600 + 1) * 1000 ≤ now →
    (∀ q ∈ entries, fs.content q ≠ none → ∃ t ≤ recovered, created q = some t) →
    ∀ q ∈ entries, IsPartial q → fs'.content q = none

lemma CleanedUp.nil : CleanedUp created now [] fs fs where
  kept _ := .inl rfl
  gone _ _ _ q hq := by cases hq

lemma CleanedUp.cons {fs₁ fs₂ : Fs} {rest : List FilePath} (h₁ : CleanedUp created now [p] fs fs₁)
    (h₂ : CleanedUp created now rest fs₁ fs₂) : CleanedUp created now (p :: rest) fs fs₂ where
  kept q := by
    rcases h₂.kept q with heq | hgone
    · rw [heq]
      exact h₁.kept q
    · exact .inr hgone
  gone recovered hnow hcreated q hq hpartial := by
    rcases List.mem_cons.mp hq with rfl | hq
    · have hnone := h₁.gone recovered hnow
        (fun p hp => hcreated p (List.mem_singleton.mp hp ▸ List.mem_cons_self)) q
        List.mem_cons_self hpartial
      rcases h₂.kept q with heq | hgone
      · rw [heq, hnone]
      · exact hgone.2
    · refine h₂.gone recovered hnow
        (fun p hmem hp => hcreated p (List.mem_cons_of_mem _ hmem) ?_) q hq hpartial
      rcases h₁.kept p with heq | hgone
      · exact heq ▸ hp
      · exact absurd hgone.2 hp

lemma cleanedUp_of_not_isPartial (h : ¬ IsPartial p) : CleanedUp created now [p] fs fs where
  kept _ := .inl rfl
  gone _ _ _ q hq hpartial := by
    obtain rfl := List.mem_singleton.mp hq
    exact absurd hpartial h

lemma cleanedUp_of_not_isOld (h : ¬ isOld now (creationTime created p fs) = true) :
    CleanedUp created now [p] fs fs where
  kept _ := .inl rfl
  gone recovered hnow hcreated q hq _ := by
    obtain rfl := List.mem_singleton.mp hq
    -- a file would have been old enough
    by_contra hfile
    obtain ⟨t, ht, htime⟩ := hcreated q List.mem_cons_self hfile
    obtain ⟨data, hdata⟩ := Option.ne_none_iff_exists'.mp hfile
    obtain ⟨i, hi, -⟩ := Fs.content_eq_some.mp hdata
    rw [creationTime, if_pos (Fs.pathExists_of_lookup hi), htime] at h
    exact h (isOld_of_le ht hnow)

lemma cleanedUp_removeFile {fs' : Fs} {r : Except IoError Unit} (h : IsPartial p)
    (heq : fs.removeFile p = (r, fs')) : CleanedUp created now [p] fs fs' := by
  have hcontent := Fs.content_removeFile_of_eq heq
  refine ⟨fun q => ?_, fun _ _ _ q hq _ => ?_⟩
  · by_cases hq : q = p
    · exact .inr ⟨hq ▸ h, by rw [hcontent, if_pos hq]⟩
    · exact .inl (by rw [hcontent, if_neg hq])
  · rw [hcontent, if_pos (List.mem_singleton.mp hq)]

lemma wp_cleanupEntries (entries : List FilePath) (cleanedCount : ℕ) (s : StoreState) :
    wp (.alone Op noFault)
      (fun r s' => (∃ count, r = .ok count) ∧ CleanedUp created now entries s.fs s'.fs)
      (cleanupEntries created now entries cleanedCount) s := by
  induction entries generalizing cleanedCount s with
  | nil =>
    refine wp_bind (wp_mapErr (wp_alone_look ?_))
    exact ⟨⟨_, rfl⟩, .nil⟩
  | cons entry rest ih =>
    have hrest : ∀ (count : ℕ) (s₁ : StoreState), CleanedUp created now [entry] s.fs s₁.fs →
        wp (.alone Op noFault)
          (fun r s' => (∃ count, r = .ok count) ∧ CleanedUp created now (entry :: rest) s.fs s'.fs)
          (cleanupEntries created now rest count) s₁ := fun count s₁ h =>
      wp_mono (ih count s₁) fun _ _ hr => ⟨hr.1, h.cons hr.2⟩
    refine wp_bind (wp_mapErr (wp_alone_look ?_))
    dsimp only [Except.mapError]
    by_cases hpartial : IsPartial entry
    · rw [if_pos hpartial]
      refine wp_bind (wp_attempt (wp_alone_look ?_))
      dsimp only
      split
      · exact wp_bind (wp_attempt (wp_alone_disk fun r fs' heq =>
          hrest _ _ (cleanedUp_removeFile hpartial heq)))
      · next hyoung => exact hrest _ s (cleanedUp_of_not_isOld hyoung)
    · rw [if_neg hpartial]
      exact hrest _ s (cleanedUp_of_not_isPartial hpartial)

/-- **The cleanup** removes nothing but files of resumable writes, and all that are old. -/
theorem wp_cleanupExpiredPartials (order : IterOrder FilePath)
    (hdir : ∀ i, s.fs.nodes.lookup store.tempDir ≠ some (.file i)) :
    wp (.alone Op (Since time)) (fun r s' => (∃ count, r = .ok count) ∧
        (∀ q, s'.fs.content q = s.fs.content q ∨ IsPartial q ∧ s'.fs.content q = none) ∧
        ∀ recovered, recovered + (24 * 3600 + 1) * 1000 ≤ time →
          store.CreatedBy created recovered s.fs →
          ∀ q, q.tail = store.tempDir → IsPartial q → s'.fs.content q = none)
      (store.cleanupExpiredPartials order created) s := by
  have hentry : ∀ {q data}, q.tail = store.tempDir → s.fs.content q = some data →
      s.fs.isDir store.tempDir = true ∧ q ∈ s.fs.children store.tempDir := by
    intro q data hq hdata
    obtain ⟨i, hi, -⟩ := Fs.content_eq_some.mp hdata
    cases q with
    | nil => cases hq
    | cons name dir =>
      obtain rfl : dir = store.tempDir := hq
      exact ⟨Fs.isDir_of_lookup hi, Fs.mem_children.mpr ⟨rfl, _, hi⟩⟩
  refine wp_bind (wp_pathExists (by rintro _ _ ⟨now, -, ⟨⟩⟩) ?_)
  rintro s' n rfl -
  refine ⟨trivial, ?_⟩
  cases hexists : s.fs.pathExists store.tempDir with
  | false =>
    refine ⟨⟨_, rfl⟩, fun _ => .inl rfl, fun _ _ _ q hq _ => ?_⟩
    by_contra hfile
    obtain ⟨data, hdata⟩ := Option.ne_none_iff_exists'.mp hfile
    have hisDir := Fs.isDir_iff.mp (hentry hq hdata).1
    rw [Fs.pathExists_iff.mpr (hisDir.imp_right fun h => ⟨_, h⟩)] at hexists
    cases hexists
  | true =>
    refine wp_bind (wp_atom ?_)
    rintro s' rfl i ⟨now, hnow, rfl⟩
    refine ⟨trivial, wp_weaken (S := .alone Op noFault) ?_ (fun _ _ _ => id) ?_ (fun _ _ _ => id)
      id⟩
    · have hisDir : s.fs.isDir store.tempDir = true := by
        rw [Fs.isDir_iff]
        refine (Fs.pathExists_iff.mp hexists).imp_right ?_
        rintro ⟨node, hnode⟩
        cases node with
        | dir => exact hnode
        | file i => exact absurd hnode (hdir i)
      refine wp_bind (wp_mapErr (wp_alone_look ?_))
      rw [Fs.readDir, if_pos hisDir]
      refine wp_mono (wp_cleanupEntries _ 0 s) ?_
      rintro r s' ⟨hr, hclean⟩
      refine ⟨hr, hclean.kept, fun recovered htime hcreated q hq hpartial => ?_⟩
      rcases hclean.kept q with heq | hgone
      · by_contra hfile
        rw [heq] at hfile
        obtain ⟨data, hdata⟩ := Option.ne_none_iff_exists'.mp hfile
        have hnone := hclean.gone recovered (htime.trans hnow) (fun p hp => hcreated p
          (Fs.mem_children.mp (order.mem_iter.mp hp)).1) q (order.mem_iter.mpr (hentry hq hdata).2)
          hpartial
        exact hfile (heq ▸ hnone)
      · exact hgone.2
    · rintro l s i ⟨now', -, rfl⟩ ⟨⟩

lemma not_temp_of_object (hobject : store.objectsDir <:+ p) : ¬ store.tempDir <:+ p := by
  intro htemp
  have hsuffix := List.suffix_of_suffix_length_le hobject htemp (by simp [objectsDir, tempDir])
  have heq := hsuffix.eq_of_length (by simp [objectsDir, tempDir])
  exact absurd (List.cons.inj heq).1 (by decide)

lemma recoveredNode_temp (h : store.tempDir <:+ p) :
    store.recoveredNode fs p = fs.nodes.lookup p := by
  rw [recoveredNode, if_neg]
  rintro ⟨hobject, -⟩
  unfold deciding at hobject
  split_ifs at hobject
  · exact not_temp_of_object hobject h
  · cases p with
    | nil => exact absurd h.length_le (by simp [tempDir])
    | cons name dir =>
      rcases List.suffix_cons_iff.mp h with heq | hdir
      · -- beside the directory itself there is no directory of objects
        obtain ⟨rfl, rfl⟩ := List.cons.inj heq
        have heq := hobject.eq_of_length (by simp [objectsDir, tempPath])
        exact absurd (List.cons.inj heq).1 (by decide)
      · exact not_temp_of_object hobject (hdir.trans (List.suffix_cons _ _))

lemma suffix_fileOf_stream : store.tempDir <:+ store.fileOf (.stream name) := List.suffix_cons _ _

lemma not_isPartial_stream : ¬ IsPartial (store.fileOf (.stream name)) := by
  rintro ⟨stem, hstem⟩
  have hlast := congrArg List.getLast? hstem
  simp only [fileOf, fileName, List.head?_cons, Option.getD_some] at hlast
  rw [List.getLast?_append_of_ne_nil _ (by decide),
    List.getLast?_append_of_ne_nil _ (by decide)] at hlast
  exact absurd hlast (by decide)

lemma exists_since (time : ℕ) : ∃ i, Since time i := ⟨.ok time, time, le_rfl, rfl⟩

lemma object_of_recovered {fs' : Fs} (h : store.Clean fs) (hdata : fs'.data = fs.data)
    (hlookup : ∀ q, fs'.nodes.lookup q = store.recoveredNode fs q) {data : Bytes}
    (hp : store.objectsDir <:+ p) (hcontent : fs'.content p = some data) :
    p = store.objectPath (store.blake3 data) := by
  obtain ⟨i, hi, rfl⟩ := Fs.content_eq_some.mp hcontent
  have htemp : ¬ IsTemp p := fun htemp => noTemps_of_recovered hlookup p i htemp hp hi
  rw [hlookup] at hi
  rw [hdata]
  cases hold : fs.nodes.lookup p with
  | none => exact (store.objectPath_of_recoveredNode hold hi).symm
  | some node =>
    rw [store.recoveredNode_of_some htemp hold] at hi
    rw [hi] at hold
    rcases h.isFilePath (.inl hp) hold with ⟨hash, rfl⟩ | ⟨owner, rfl⟩
    · have hhash : store.blake3 (fs.data i) = hash := h.hashesTo (Fs.content_of_lookup hold)
      rw [hhash]
    · cases owner with
      | object hash => exact absurd (isTemp_tempPath _ (fun hnil => by
          have hlen := congrArg List.length hnil
          simp at hlen)) htemp
      | stream name => exact absurd (List.suffix_cons _ _) (not_temp_of_object hp)
      | transfer name => exact absurd (List.suffix_cons _ _) (not_temp_of_object hp)

/-- **Where no file of a streamed write is there, nothing but objects is left.** -/
theorem cleansUp_of_noStreams (order order' : IterOrder FilePath) {fuel : ℕ}
    (h : store.Clean s.fs) (hno : store.NoStreams s.fs)
    (hfuel : 2 * s.fs.nodes.keys.card ≤ fuel) (hcreated : store.CreatedBy created recovered s.fs)
    (htime : recovered + (24 * 3600 + 1) * 1000 ≤ time) :
    store.CleansUp order order' fuel created time s := by
  refine ensures_of_wp exists_noFault (wp_mono (store.wp_recover order s hfuel) ?_)
  rintro _ _ ⟨stats, fs', rfl, rfl, hdata, hlookup, -⟩
  have htemp : ∀ q, store.tempDir <:+ q → fs'.content q = s.fs.content q := by
    intro q hq
    unfold Fs.content
    rw [hlookup, recoveredNode_temp hq, hdata]
  have hdir : ∀ i, fs'.nodes.lookup store.tempDir ≠ some (.file i) := by
    rw [hlookup, recoveredNode_temp (List.suffix_refl _)]
    exact h.not_file isDirPath_tempDir
  refine ⟨⟨stats, rfl⟩, ensures_of_wp (exists_since time) (wp_mono
    (store.wp_cleanupExpiredPartials order' hdir) ?_)⟩
  rintro r s₂ ⟨hr, hkeep, hold⟩
  refine ⟨hr, fun p data hp hcontent => ?_⟩
  have hbefore : fs'.content p = some data := by
    rcases hkeep p with heq | hgone
    · exact heq ▸ hcontent
    · rw [hgone.2] at hcontent
      cases hcontent
  rcases hp with hp | hp
  · exact object_of_recovered h hdata hlookup hp hbefore
  · -- of the files beside the objects, those of resumable writes are gone
    obtain ⟨i, hi, -⟩ := Fs.content_eq_some.mp ((htemp p hp).symm.trans hbefore)
    rcases h.isFilePath (.inr hp) hi with ⟨hash, rfl⟩ | ⟨owner, rfl⟩
    · refine absurd hp (not_temp_of_object ?_)
      exact (List.suffix_cons _ _).trans ((List.suffix_cons _ _).trans (List.suffix_cons _ _))
    · cases owner with
      | object hash =>
        refine absurd hp (not_temp_of_object ?_)
        exact (List.suffix_cons _ _).trans ((List.suffix_cons _ _).trans (List.suffix_cons _ _))
      | stream name =>
        exact absurd (isStream_iff.mpr ⟨name, rfl⟩)
          (hno _ (Finmap.mem_keys.mpr (Finmap.mem_iff.mpr ⟨_, hi⟩)))
      | transfer name =>
        have hcreated' : store.CreatedBy created recovered fs' := by
          intro q hq hne
          rw [htemp q (by rw [← hq]; exact List.tail_suffix q)] at hne
          exact hcreated q hq hne
        have hgone := hold recovered htime hcreated' (store.fileOf (.transfer name)) rfl
          (List.suffix_append _ _)
        rw [hcontent] at hgone
        cases hgone

/-- **A file of a streamed write stays for ever**: neither recovery nor cleanup takes it away. -/
theorem not_cleansUp_of_content (order order' : IterOrder FilePath) {fuel : ℕ} {data : Bytes}
    (hfuel : 2 * s.fs.nodes.keys.card ≤ fuel)
    (hfile : s.fs.content (store.fileOf (.stream name)) = some data) :
    ¬ store.CleansUp order order' fuel created time s := by
  rintro ⟨hensures, r₁, s₁, hrecover⟩
  obtain ⟨-, honly, r₂, s₂, hcleanup⟩ := hensures r₁ s₁ hrecover
  obtain ⟨stats, fs', -, rfl, hdata, hlookup, -⟩ :=
    post_of_returns hrecover (store.wp_recover order s hfuel)
  obtain ⟨i, hi, hdatai⟩ := Fs.content_eq_some.mp hfile
  have hfile₁ : fs'.nodes.lookup (store.fileOf (.stream name)) = some (.file i) := by
    rw [hlookup, recoveredNode_temp suffix_fileOf_stream, hi]
  have hdir : ∀ j, fs'.nodes.lookup store.tempDir ≠ some (.file j) := by
    intro j hj
    rcases Fs.isDir_iff.mp (Fs.isDir_of_lookup hfile₁) with hnil | hdir
    · cases hnil
    · rw [hj] at hdir
      cases hdir
  obtain ⟨-, hkeep, -⟩ := post_of_returns hcleanup (store.wp_cleanupExpiredPartials order' hdir)
  have hfile₂ := (hkeep (store.fileOf (.stream name))).resolve_right fun h =>
    not_isPartial_stream h.1
  rw [Fs.content_of_lookup hfile₁] at hfile₂
  exact fileOf_ne_objectPath ((honly r₂ s₂ hcleanup).2 _ _ (.inr suffix_fileOf_stream) hfile₂)

/-- **Recovery and cleanup leave nothing but objects** if and only if no file of a streamed write is
there. -/
theorem cleansUp_iff (order order' : IterOrder FilePath) {fuel : ℕ} (h : store.Clean s.fs)
    (hfuel : 2 * s.fs.nodes.keys.card ≤ fuel) (hcreated : store.CreatedBy created recovered s.fs)
    (htime : recovered + (24 * 3600 + 1) * 1000 ≤ time) :
    store.CleansUp order order' fuel created time s ↔ store.NoStreams s.fs := by
  refine ⟨fun hcleans p hp hstream => ?_, fun hno =>
    cleansUp_of_noStreams order order' h hno hfuel hcreated htime⟩
  obtain ⟨name, rfl⟩ := isStream_iff.mp hstream
  obtain ⟨node, hnode⟩ := Finmap.mem_iff.mp (Finmap.mem_keys.mp hp)
  cases node with
  | dir => exact h.not_dir isFilePath_fileOf hnode
  | file i =>
    exact not_cleansUp_of_content order order' hfuel (Fs.content_of_lookup hnode) hcleans

variable (store) in
/-- **Nothing is left behind** by a run in which no streamed write ends while its file is there:
when no call is running any more, recovery, and the cleanup of transfers from one second past
24 hours after the last of the files was created, leave nothing but objects with the hashes that
they are named by.

**Proof sketch.** Each call has its temporary file to itself, and a call never leaves the file of
an object with other content than its own: what is moved there is a file that the call holds, of
which it knows the hash. The files of writes and of resumable writes may stay where a call fails or
is cut off, and recovery takes the former and the cleanup the latter away. A streamed write, once it
has created its file, gets to move or remove it. -/
theorem cleansUp_of_run {fs₀ : Fs} {now₀ fuel : ℕ} {S : Work} (order order' : IterOrder FilePath)
    (created : FilePath → Option ℕ) (h₀ : store.Clean fs₀) (hno : store.NoStreams fs₀)
    (hrun : store.WorkRun store.StrandsNone (store.work fs₀ now₀) S) (hidle : S.Idle)
    (hfuel : 2 * S.pool.state.fs.nodes.keys.card ≤ fuel)
    (hcreated : store.CreatedBy created recovered S.pool.state.fs)
    (htime : recovered + (24 * 3600 + 1) * 1000 ≤ time) :
    store.CleansUp order order' fuel created time S.pool.state := by
  have hwork := atWork_of_run h₀ hno hrun
  exact cleansUp_of_noStreams order order' hwork.clean (hwork.noStreams hidle) hfuel hcreated htime

/-- A reader that yields one byte. -/
private def byteReader (b : UInt8) (error : Option IoError) : Reader where
  blocks := [[b]]
  error := error
  ne_nil := by simp
  length_le := by simp

/-- A write of one byte that fails when it has created its temporary file, a streamed write of
another byte, and a resumable write whose reader fails. -/
private def mixedCalls : List Work.Event :=
  let object := Owner.object (.blake3Sample [1])
  let stream := Owner.stream (uuidText 0)
  let transfer := Owner.transfer (uuidText 1)
  .call object (.write [1]) :: List.replicate 4 (.act object (.ok 0)) ++ [.act object .fail] ++
    .call stream (.writeStream (byteReader 2 none) none) ::
      List.replicate 9 (.act stream (.ok 0)) ++
    .call transfer (.startResumableWrite none none) :: List.replicate 3 (.act transfer (.ok 1)) ++
    .call transfer (.continueResumableWrite
        (.new ((default .blake3Sample .identity).fileOf transfer) none none 1)
        (byteReader 3 (some .fault))) :: List.replicate 2 (.act transfer (.ok 1))

/-- The files of the write and of the resumable write are there after a crash. -/
private lemma exists_run_mixedCalls : ∃ S, (default .blake3Sample .identity).WorkRun
      (default .blake3Sample .identity).StrandsNone
      ((default .blake3Sample .identity).work .empty 0) S ∧ S.Idle ∧
    S.pool.state.fs.content ((default .blake3Sample .identity).fileOf
        (.object (.blake3Sample [1]))) = some [] ∧
      S.pool.state.fs.content ((default .blake3Sample .identity).fileOf
        (.transfer (uuidText 1))) = some [] := by
  have hexec : ((Runs.exec (default .blake3Sample .identity).workNext
      (default .blake3Sample .identity).StrandsNone mixedCalls
      ((default .blake3Sample .identity).work .empty 0)).map fun S =>
        decide ((default .blake3Sample .identity).NoStreams S.pool.state.fs ∧
          S.pool.state.fs.content ((default .blake3Sample .identity).fileOf
            (.object (.blake3Sample [1]))) = some [] ∧
          S.pool.state.fs.content ((default .blake3Sample .identity).fileOf
            (.transfer (uuidText 1))) = some [])) = some true := by decide +kernel
  obtain ⟨S, hS, hfiles⟩ := Option.map_eq_some_iff.mp hexec
  obtain ⟨hno, hfiles⟩ := of_decide_eq_true hfiles
  have hrun := (Runs.run_of_exec hS).tail ⟨.crash 0, hno, rfl⟩
  exact ⟨_, hrun, fun _ => ⟨_, rfl⟩, hfiles⟩

/-- A write and a resumable write fail and leave their files behind, and a crash comes. -/
theorem cleansUp_of_run_crash : ∃ S, (default .blake3Sample .identity).WorkRun
      (default .blake3Sample .identity).StrandsNone
      ((default .blake3Sample .identity).work .empty 0) S ∧
    (S.pool.state.fs.content ((default .blake3Sample .identity).fileOf
        (.object (.blake3Sample [1]))) = some [] ∧
      S.pool.state.fs.content ((default .blake3Sample .identity).fileOf
        (.transfer (uuidText 1))) = some []) ∧
    (default .blake3Sample .identity).CleansUp (.sorted FilePath) (.sorted FilePath)
      (2 * S.pool.state.fs.nodes.keys.card) (fun _ => some 1) (1 + (24 * 3600 + 1) * 1000)
      S.pool.state := by
  obtain ⟨S, hrun, hidle, hfiles⟩ := exists_run_mixedCalls
  exact ⟨S, hrun, hfiles, cleansUp_of_run _ _ _ _ clean_empty
    (fun p hp => by simp [Fs.empty] at hp) hrun hidle le_rfl (fun _ _ _ => ⟨1, le_rfl, rfl⟩) le_rfl⟩

/-- A disk with the files of a write and of a resumable write is cleaned up. -/
theorem cleansUp_iff_mixedCalls : ∃ S : Work,
    S.pool.state.fs.content ((default .blake3Sample .identity).fileOf
        (.object (.blake3Sample [1]))) = some [] ∧
      S.pool.state.fs.content ((default .blake3Sample .identity).fileOf
        (.transfer (uuidText 1))) = some [] ∧
    (default .blake3Sample .identity).CleansUp (.sorted FilePath) (.sorted FilePath)
      (2 * S.pool.state.fs.nodes.keys.card) (fun _ => some 1) (1 + (24 * 3600 + 1) * 1000)
      S.pool.state := by
  obtain ⟨S, hrun, hidle, hobject, htransfer⟩ := exists_run_mixedCalls
  have hwork := atWork_of_run clean_empty (fun p hp => by simp [Fs.empty] at hp) hrun
  exact ⟨S, hobject, htransfer, (cleansUp_iff _ _ hwork.clean le_rfl
    (fun _ _ _ => ⟨1, le_rfl, rfl⟩) le_rfl).mpr (hwork.noStreams hidle)⟩

/-- The reader of a streamed write fails: the file stays. -/
theorem not_forall_cleansUp : ¬ ∀ (store : ContentStore) (order order' : IterOrder FilePath)
    (created : FilePath → Option ℕ) (fuel now₀ recovered time : ℕ) (S : Work),
    store.WorkRun (fun _ _ => True) (store.work .empty now₀) S → S.Idle →
    2 * S.pool.state.fs.nodes.keys.card ≤ fuel → store.CreatedBy created recovered S.pool.state.fs →
    recovered + (24 * 3600 + 1) * 1000 ≤ time →
    store.CleansUp order order' fuel created time S.pool.state := by
  intro h
  have hexec : ((Runs.exec (default .blake3Sample .identity).workNext (fun _ _ => True)
      (.call (.stream (uuidText 0)) (.writeStream (byteReader 2 (some .fault)) none) ::
        List.replicate 3 (.act (.stream (uuidText 0)) (.ok 0)))
      ((default .blake3Sample .identity).work .empty 0)).map fun S =>
        ((S.pool.task (.stream (uuidText 0))).head.isNone, S.pool.state.fs.content
          ((default .blake3Sample .identity).fileOf (.stream (uuidText 0))))) =
      some (true, some []) := by decide +kernel
  obtain ⟨S, hS, hfile⟩ := Option.map_eq_some_iff.mp hexec
  -- the store is opened again before recovery
  have hrun := (Runs.run_of_exec hS).tail ⟨.crash 0, trivial, rfl⟩
  have hcleans := h _ (.sorted FilePath) (.sorted FilePath) (fun _ => some 0) _ 0 0 _ _ hrun
    (fun _ => ⟨_, rfl⟩) le_rfl (fun _ _ _ => ⟨0, le_rfl, rfl⟩) le_rfl
  exact absurd hcleans (not_cleansUp_of_content (.sorted FilePath) (.sorted FilePath) le_rfl
    (Prod.mk.inj hfile).2)

end Cleanup

end ContentStore

end Landropic.Cas
