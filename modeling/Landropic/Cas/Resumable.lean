import Landropic.Cas.ConcurrentWrites
import Landropic.Cas.Streams

set_option autoImplicit false

/-!
# Resumable writes

A transfer is delivered by any number of calls, some of which fail because their readers do; each
call starts at the position that the record of the transfer gives. A call that fails leaves the
record as it is, but not the file: what went through the buffer before the failure stays there, and
the next call appends to it, unless it starts from the beginning.

## Main definitions

* `Cas.ContentStore.Delivers` — one call of a delivery.
* `Cas.ContentStore.Recoverable` — the calls after which the transfer can be resumed.
* `Cas.ContentStore.Receiving` — the file of a transfer holds what the record says.
* `Cas.ContentStore.Underway` — a transfer of some data is under way.

## Main results

* `Cas.ContentStore.wp_continueResumableWrite` — what a call puts into the file.
* `Cas.ContentStore.wp_completeResumableWrite` — what the last call stores.
* `Cas.ContentStore.resumable_of_recoverable` — a delivery by calls after which the transfer can be
  resumed stores what was sent.
-/

namespace Landropic.Cas

open Proc

namespace PartialTransfer

/-- The inputs of a call as long as a transfer has not expired; no action fails. -/
def Unexpired (transfer : PartialTransfer) (i : Io) : Prop :=
  ∃ now ≤ transfer.expiresAt, i = .ok now

/-- What a call makes of the record of a transfer: a failure leaves it as it is. -/
def after (transfer : PartialTransfer) : Except CasError PartialTransfer → PartialTransfer
  | .ok transfer' => transfer'
  | .error _ => transfer

lemma exists_unexpired (transfer : PartialTransfer) : ∃ i, transfer.Unexpired i :=
  ⟨.ok 0, 0, Nat.zero_le _, rfl⟩

end PartialTransfer

namespace ContentStore

variable (store : ContentStore) (data : Bytes)

/-- A call of a delivery of some data, of a kind `C`: the reader yields what comes next. -/
def Delivers (C : PartialTransfer → Reader → Prop)
    (before after : PartialTransfer × StoreState) : Prop :=
  ∃ reader r, reader.bytes <+: data.drop before.1.bytesReceived ∧ C before.1 reader ∧
    Returns before.1.Unexpired (store.continueResumableWrite before.1 reader) before.2 r after.2 ∧
    after.1 = before.1.after r

/-- A call after which a transfer can be resumed: it starts from the beginning, or its reader does
not fail, or what the reader has yielded is still in the buffer. -/
def Recoverable (transfer : PartialTransfer) (reader : Reader) : Prop :=
  transfer.bytesReceived = 0 ∨ reader.error = none ∨ store.spilled [] reader.blocks = []

/-- The file of a transfer holds what the record says, whenever a call would append to it. -/
def InStep (transfer : PartialTransfer) (s : StoreState) : Prop :=
  0 < transfer.bytesReceived →
    s.fs.content transfer.tempPath = some (data.take transfer.bytesReceived)

/-- A transfer of some data is under way. -/
structure Underway (transfer : PartialTransfer) (s : StoreState) : Prop where
  staging : store.Staging (store.IsOf data) s.fs
  dir : s.fs.isDir store.tempDir = true
  path : store.HandsOut transfer
  hash : ∀ expected ∈ transfer.expectedHash, expected = store.blake3 data
  size : ∀ size ∈ transfer.totalSize, size = data.length
  le : transfer.bytesReceived ≤ data.length
  inStep : InStep data transfer s

/-- The file of a transfer takes in data, on a disk in order. -/
structure Receiving (good : ContentHash → Bytes → Prop) (transfer : PartialTransfer)
    (s : StoreState) : Prop where
  staging : store.Staging good s.fs
  dir : s.fs.isDir store.tempDir = true
  path : store.HandsOut transfer
  inStep : InStep data transfer s

variable {store data} {good : ContentHash → Bytes → Prop} {transfer : PartialTransfer}
  {s : StoreState} {α : Type}

lemma Underway.receiving (h : store.Underway data transfer s) :
    store.Receiving data (store.IsOf data) transfer s := ⟨h.staging, h.dir, h.path, h.inStep⟩

/-! ## The calls -/

lemma wp_unexpired {Q : Except CasError α → StoreState → Prop} {expired rest : Task CasError α}
    (h : wp (.alone Op noFault) Q rest s) : wp (.alone Op transfer.Unexpired) Q (do
      let now ← ask .clock
      if now > transfer.expiresAt then expired else rest) s := by
  refine wp_bind (wp_atom ?_)
  rintro s' rfl i ⟨now, hnow, rfl⟩
  refine ⟨trivial, ?_⟩
  dsimp only
  rw [if_neg (not_lt.mpr hnow)]
  refine wp_weaken h (fun _ _ _ => id) ?_ (fun _ _ _ => id) id
  rintro l s i ⟨now', -, rfl⟩ ⟨⟩

/-- The file of a transfer is opened where the record says. -/
lemma wp_openPartial (h : store.Receiving data good transfer s) :
    wp (.alone Op noFault) (fun r s' => ∃ ino pos, r = .ok (ino, pos) ∧
        AtEnd pos (data.take transfer.bytesReceived) ∧
        store.Staging good s'.fs ∧ s'.fs.isDir store.tempDir = true ∧
        (∀ q, q ≠ transfer.tempPath → s'.fs.content q = s.fs.content q) ∧
        Holding transfer.tempPath ino (data.take transfer.bytesReceived) s'.fs)
      (openPartial transfer) s := by
  obtain ⟨name, hname⟩ := h.path
  unfold openPartial
  split
  · next hzero =>
    refine wp_bind (wp_mapErr (wp_alone_disk fun r fs' heq => ?_))
    rw [hname] at heq ⊢
    obtain ⟨ino, fs'', hok⟩ := Fs.exists_create h.dir (h.staging.not_dir name)
    obtain ⟨rfl, rfl⟩ := Prod.mk.inj (hok.symm.trans heq)
    have hcontent := Fs.content_create hok
    have hother (q) (hq : q ≠ name :: store.tempDir) : fs''.content q = s.fs.content q := by
      rw [hcontent, if_neg hq]
    obtain ⟨hfile, hempty, hnodes, -⟩ := Fs.create_ok hok
    refine ⟨ino, some 0, rfl, .inr (by simp [hzero]), ?_, ?_, hother, hfile,
      by simpa [hzero] using hempty⟩
    · exact h.staging.of_file hnodes hother (by simp [hfile])
    · have hdir := h.dir
      rw [Fs.isDir_iff] at hdir ⊢
      rwa [hnodes _ (ne_temp (by simp [tempDir]))]
  · next hpos =>
    obtain ⟨ino, hfile, hdata⟩ := Fs.content_eq_some.mp (h.inStep (Nat.pos_of_ne_zero hpos))
    refine wp_bind (wp_mapErr (wp_alone_look ?_))
    rw [Fs.openFile_of_lookup hfile]
    exact ⟨ino, none, rfl, .inl rfl, h.staging, h.dir, fun _ _ => rfl, hfile, hdata⟩

lemma wp_restoreHasher {ino : ℕ} {done : Bytes} (h : Holding transfer.tempPath ino done s.fs) :
    wp (.alone Op noFault) (fun r s' => r = .ok () ∧ s' = s) (restoreHasher transfer) s := by
  unfold restoreHasher
  split
  · refine wp_bind (wp_mapErr (wp_alone_look ?_))
    rw [Fs.readFile_of_lookup h.1]
    exact ⟨rfl, rfl⟩
  · exact ⟨rfl, rfl⟩

/-- **Continuing a transfer**: what has arrived is put after what the record says was received. -/
theorem wp_continueResumableWrite (h : store.Receiving data good transfer s) (reader : Reader) :
    wp (.alone Op transfer.Unexpired) (fun r s' => (match reader.error with
        | some e => r = .error (.io e)
        | none => r = .ok { transfer with
            bytesReceived := transfer.bytesReceived + reader.bytes.length
            hashState := some "state_placeholder" }) ∧
        store.Staging good s'.fs ∧ s'.fs.isDir store.tempDir = true ∧
        (∀ q, q ≠ transfer.tempPath → s'.fs.content q = s.fs.content q) ∧
        s'.fs.content transfer.tempPath =
          some (data.take transfer.bytesReceived ++ store.arrived reader))
      (store.continueResumableWrite transfer reader) s := by
  obtain ⟨name, hname⟩ := h.path
  refine wp_unexpired (wp_bind (wp_mono (wp_openPartial h) ?_))
  rintro _ s₁ ⟨ino, pos, rfl, hpos, hstaging, hdir, hother, hold⟩
  refine wp_bind (wp_mono (wp_restoreHasher hold) ?_)
  rintro _ s₁ ⟨rfl, rfl⟩
  refine wp_bind (wp_mono (wp_streamFrom reader hpos hold.2) ?_)
  rintro r s₂ ⟨hr, rfl⟩
  have hcontent := Fs.content_setData hold.1
    (data.take transfer.bytesReceived ++ store.arrived reader)
  have hend : store.Staging good (s₁.fs.setData ino
      (data.take transfer.bytesReceived ++ store.arrived reader)) := by
    rw [hname] at hold hcontent
    exact hstaging.of_file (fun _ _ => rfl) (fun q hq => by rw [hcontent, if_neg hq])
      (hstaging.not_dir name)
  have hkept (q) (hq : q ≠ transfer.tempPath) : (s₁.fs.setData ino
      (data.take transfer.bytesReceived ++ store.arrived reader)).content q = s.fs.content q := by
    rw [hcontent, if_neg hq, hother q hq]
  have hfile := (hcontent transfer.tempPath).trans (if_pos rfl)
  cases he : reader.error with
  | some e =>
    rw [he] at hr
    subst hr
    exact ⟨rfl, hend, hdir, hkept, hfile⟩
  | none =>
    rw [he] at hr
    subst hr
    exact ⟨rfl, hend, hdir, hkept, hfile⟩

/-- A call after which a transfer can be resumed leaves it under way. -/
lemma Underway.continued {s' : StoreState} {r : Except CasError PartialTransfer} {reader : Reader}
    (h : store.Underway data transfer s)
    (hreader : reader.bytes <+: data.drop transfer.bytesReceived)
    (hrecoverable : store.Recoverable transfer reader)
    (hrun : Returns transfer.Unexpired (store.continueResumableWrite transfer reader) s r s') :
    store.Underway data (transfer.after r) s' ∧
      ((transfer.after r).bytesReceived = data.length →
        s'.fs.content (transfer.after r).tempPath = some data) := by
  obtain ⟨hr, hstaging, hdir, -, hcontent⟩ :=
    post_of_returns hrun (wp_continueResumableWrite h.receiving reader)
  have hle := hreader.length_le
  rw [List.length_drop] at hle
  have htotal := h.le
  cases he : reader.error with
  | none =>
    rw [he] at hr
    subst hr
    obtain ⟨rest, hrest⟩ := hreader
    have htake : data.take transfer.bytesReceived ++ store.arrived reader =
        data.take (transfer.bytesReceived + reader.bytes.length) := by
      rw [arrived, he, List.take_add, ← hrest, List.take_left]
    rw [htake] at hcontent
    refine ⟨⟨hstaging, hdir, h.path, h.hash, h.size, ?_, fun _ => hcontent⟩, fun hall => ?_⟩
    · show transfer.bytesReceived + reader.bytes.length ≤ data.length
      omega
    · change transfer.bytesReceived + reader.bytes.length = data.length at hall
      rwa [hall, List.take_length] at hcontent
  | some e =>
    rw [he] at hr
    subst hr
    refine ⟨⟨hstaging, hdir, h.path, h.hash, h.size, h.le, fun hpos => ?_⟩, fun hall => ?_⟩
    · have hspilled : store.arrived reader = [] := by
        rw [arrived, he]
        rcases hrecoverable with hzero | hnone | hspilled
        · exact absurd hzero hpos.ne'
        · rw [he] at hnone
          cases hnone
        · exact hspilled
      rwa [hspilled, List.append_nil] at hcontent
    · change transfer.bytesReceived = data.length at hall
      have hnothing : store.arrived reader = [] := by
        have hbegins := (store.arrived_prefix reader).trans hreader
        rwa [hall, List.drop_length, List.prefix_nil] at hbegins
      rwa [hnothing, List.append_nil, hall, List.take_length] at hcontent

/-- **Completing a transfer** of which everything is in the file: the object holds what it did, or
else what was sent. -/
theorem wp_completeResumableWrite (hs : store.Staging good s.fs) (hpath : store.HandsOut transfer)
    (hhash : ∀ expected ∈ transfer.expectedHash, expected = store.blake3 data)
    (htotal : ∀ size ∈ transfer.totalSize, size = data.length)
    (hfile : s.fs.content transfer.tempPath = some data)
    (hgood : s.fs.content (store.objectPath (store.blake3 data)) = none →
      good (store.blake3 data) data) :
    wp (.alone Op transfer.Unexpired) (fun r s' => r = .ok ⟨store.blake3 data, data.length⟩ ∧
        store.Staging good s'.fs ∧ s'.fs.content (store.objectPath (store.blake3 data)) =
          some ((s.fs.content (store.objectPath (store.blake3 data))).getD data))
      (store.completeResumableWrite transfer) s := by
  obtain ⟨name, hname⟩ := hpath
  obtain ⟨ino, hino, hdata⟩ := Fs.content_eq_some.mp hfile
  refine wp_unexpired (wp_bind (wp_alone_pathExists ?_))
  rw [Fs.pathExists_of_lookup hino]
  refine wp_bind (wp_mapErr (wp_alone_look ?_))
  rw [Fs.readFile_of_lookup hino, hdata]
  have hsize : verifySize transfer.tempPath transfer.totalSize data.length = pure () := by
    unfold verifySize
    split
    · next size hsize =>
      rw [if_neg (not_not.mpr (htotal size hsize).symm)]
    · rfl
  show wp _ _ (do
    verifyHash transfer.tempPath transfer.expectedHash (store.blake3 data)
    verifySize transfer.tempPath transfer.totalSize data.length
    store.moveIntoPlace transfer.tempPath (store.blake3 data) data.length) s
  rw [verifyHash_of_expected hhash, pure_bind', hsize, pure_bind', hname]
  rw [hname] at hfile
  exact wp_moveIntoPlace hs hfile hgood

/-- Completing a transfer that is under way and of which everything is in the file. -/
lemma Underway.wp_complete (h : store.Underway data transfer s)
    (hfile : s.fs.content transfer.tempPath = some data) :
    wp (.alone Op transfer.Unexpired) (fun r s' => r = .ok ⟨store.blake3 data, data.length⟩ ∧
        s'.fs.content (store.objectPath (store.blake3 data)) = some data)
      (store.completeResumableWrite transfer) s := by
  refine wp_mono (wp_completeResumableWrite h.staging h.path h.hash h.size hfile fun _ _ => rfl) ?_
  rintro r s' ⟨hr, hstaging, hcontent⟩
  refine ⟨hr, ?_⟩
  rw [hstaging.tidy.good_content hcontent rfl] at hcontent
  exact hcontent

variable (data) in
/-- **Starting a transfer.** -/
theorem wp_startResumableWrite (expectedHash : Option ContentHash) (totalSize : Option ℕ)
    (hs : store.Staging good s.fs) :
    wp (.alone Op noFault) (fun r s' => ∃ transfer, r = .ok transfer ∧ transfer.bytesReceived = 0 ∧
        transfer.expectedHash = expectedHash ∧ transfer.totalSize = totalSize ∧
        (∀ q, s'.fs.content q = s.fs.content q) ∧ store.Receiving data good transfer s')
      (store.startResumableWrite expectedHash totalSize) s := by
  refine wp_bind (wp_ask ?_)
  rintro s' id rfl
  refine ⟨trivial, wp_bind (wp_mono (wp_createTempDir hs) ?_)⟩
  rintro _ s₁ ⟨rfl, hstaging, hdir, hcontent⟩
  refine wp_bind (wp_ask ?_)
  rintro s₂ now rfl
  exact ⟨trivial, _, rfl, rfl, rfl, rfl, hcontent, hstaging, hdir, ⟨_, rfl⟩,
    fun hpos => absurd hpos (lt_irrefl _)⟩

/-- A transfer of some data that has just been started is under way. -/
lemma wp_startUnderway (expectedHash : Option ContentHash) (totalSize : Option ℕ)
    (hs : store.Staging (store.IsOf data) s.fs)
    (hexpected : ∀ expected ∈ expectedHash, expected = store.blake3 data)
    (htotal : ∀ size ∈ totalSize, size = data.length) :
    wp (.alone Op noFault) (fun r s' => ∃ transfer, r = .ok transfer ∧ transfer.bytesReceived = 0 ∧
        store.Underway data transfer s') (store.startResumableWrite expectedHash totalSize) s := by
  refine wp_mono (wp_startResumableWrite data expectedHash totalSize hs) ?_
  rintro _ s' ⟨transfer, rfl, hzero, rfl, rfl, -, h⟩
  exact ⟨transfer, rfl, hzero, h.staging, h.dir, h.path, hexpected, htotal, by omega, h.inStep⟩

/-! ## Deliveries -/

variable (store data) in
/-- **A delivery by calls after which the transfer can be resumed.** Whatever the disk is, as long
as it is in order: after every call the file of the transfer holds what its record says, whenever
the next call would append to it, and when everything was received the transfer can be completed,
which stores what was sent.

**Proof sketch.** A call that does not fail appends all that its reader yields, and counts it. A
call that fails leaves the count as it was, and either nothing has reached the file, or the next
call starts from the beginning and truncates the file. -/
theorem resumable_of_recoverable {s₀ s₁ s : StoreState} {expectedHash : Option ContentHash}
    {totalSize : Option ℕ} {started transfer : PartialTransfer}
    (hs : store.Staging (store.IsOf data) s₀.fs)
    (hexpected : ∀ expected ∈ expectedHash, expected = store.blake3 data)
    (htotal : ∀ size ∈ totalSize, size = data.length)
    (hstart : Returns noFault (store.startResumableWrite expectedHash totalSize) s₀
      (.ok started) s₁)
    (hrun : Relation.TransGen (store.Delivers data store.Recoverable) (started, s₁) (transfer, s)) :
    InStep data transfer s ∧ (transfer.bytesReceived = data.length →
      Ensures transfer.Unexpired (fun r s' => r = .ok ⟨store.blake3 data, data.length⟩ ∧
          s'.fs.content (store.objectPath (store.blake3 data)) = some data)
        (store.completeResumableWrite transfer) s) := by
  have hcall : ∀ {before after : PartialTransfer × StoreState},
      store.Underway data before.1 before.2 → store.Delivers data store.Recoverable before after →
      store.Underway data after.1 after.2 ∧ (after.1.bytesReceived = data.length →
        after.2.fs.content after.1.tempPath = some data) := by
    rintro before ⟨_, s'⟩ h ⟨reader, r, hreader, hrecoverable, hreturns, rfl⟩
    exact h.continued hreader hrecoverable hreturns
  obtain ⟨_, ⟨⟩, -, hstarted⟩ := post_of_returns hstart (wp_startUnderway _ _ hs hexpected htotal)
  have hall : ∀ {before}, Relation.ReflTransGen (store.Delivers data store.Recoverable)
      (started, s₁)
      before → store.Underway data before.1 before.2 := by
    intro before hmany
    induction hmany with
    | refl => exact hstarted
    | tail _ hlast ih => exact (hcall ih hlast).1
  obtain ⟨before, hmany, hlast⟩ := Relation.TransGen.tail'_iff.mp hrun
  obtain ⟨hunderway, hcomplete⟩ := hcall (hall hmany) hlast
  exact ⟨hunderway.inStep, fun hreceived => ensures_of_wp transfer.exists_unexpired
    (hunderway.wp_complete (hcomplete hreceived))⟩

/-- A reader that yields one block. -/
private def oneBlock (block : Bytes) (error : Option IoError) (hne : block ≠ [])
    (hle : block.length ≤ 64 * 1024) : Reader where
  blocks := [block]
  error := error
  ne_nil := by simpa using hne
  length_le := by simpa using hle

/-- A call that delivers a block can be made, and what it leaves. -/
private lemma exists_delivers {C : PartialTransfer → Reader → Prop} (reader : Reader)
    (h : store.Underway data transfer s)
    (hreader : reader.bytes <+: data.drop transfer.bytesReceived)
    (hC : C transfer reader) : ∃ transfer' s', store.Delivers data C (transfer, s) (transfer', s') ∧
      transfer'.bytesReceived = (match reader.error with
        | some _ => transfer.bytesReceived
        | none => transfer.bytesReceived + reader.bytes.length) ∧
      s'.fs.content transfer'.tempPath =
        some (data.take transfer.bytesReceived ++ store.arrived reader) ∧
      (store.Recoverable transfer reader → store.Underway data transfer' s') := by
  obtain ⟨r, s', hrun, hr, -, -, -, hcontent⟩ :=
    exists_returns transfer.exists_unexpired (wp_continueResumableWrite h.receiving reader)
  refine ⟨transfer.after r, s', ⟨reader, r, hreader, hC, hrun, rfl⟩, ?_, ?_,
    fun hrecoverable => (h.continued hreader hrecoverable hrun).1⟩
  · split at hr
    · subst hr
      rfl
    · subst hr
      rfl
  · split at hr
    · subst hr
      exact hcontent
    · subst hr
      exact hcontent

/-- A reader fails after it has yielded a byte, and the next one yields it again. -/
theorem resumable_of_recoverable_interrupted : ∃ started s₁ transfer s,
    Returns noFault ((default .blake3Sample .identity).startResumableWrite none none)
      ((default .blake3Sample .identity).opened .empty 0) (.ok started) s₁ ∧
    Relation.TransGen ((default .blake3Sample .identity).Delivers [1]
      (default .blake3Sample .identity).Recoverable) (started, s₁) (transfer, s) ∧
    InStep [1] transfer s ∧
    Ensures transfer.Unexpired (fun r s' => r = .ok ⟨.blake3Sample [1], 1⟩ ∧
        s'.fs.content ((default .blake3Sample .identity).objectPath (.blake3Sample [1])) = some [1])
      ((default .blake3Sample .identity).completeResumableWrite transfer) s := by
  have hs : (default .blake3Sample .identity).Staging
      ((default .blake3Sample .identity).IsOf [1]) Fs.empty := staging_empty
  obtain ⟨_, s₁, hstart, started, rfl, hzero, hunderway⟩ := exists_returns exists_noFault
    (wp_startUnderway (s := (default .blake3Sample .identity).opened .empty 0) none none hs
      (by simp) (by simp))
  obtain ⟨t₂, s₂, h₂, hbytes₂, -, hunder₂⟩ := exists_delivers
    (C := (default .blake3Sample .identity).Recoverable)
    (oneBlock [1] (some .fault) (by simp) (by simp)) hunderway
    (by rw [hzero]; exact List.prefix_refl _) (.inl hzero)
  have hunderway₂ := hunder₂ (.inl hzero)
  have hzero₂ : t₂.bytesReceived = 0 := hbytes₂.trans hzero
  obtain ⟨t₃, s₃, h₃, hbytes₃, -, -⟩ := exists_delivers
    (C := (default .blake3Sample .identity).Recoverable)
    (oneBlock [1] none (by simp) (by simp)) hunderway₂
    (by rw [hzero₂]; exact List.prefix_refl _) (.inl hzero₂)
  have hrun := Relation.TransGen.tail (Relation.TransGen.single h₂) h₃
  obtain ⟨hinStep, hcomplete⟩ := resumable_of_recoverable _ [1] hs (by simp) (by simp) hstart hrun
  exact ⟨started, s₁, t₃, s₃, hstart, hrun, hinStep, hcomplete (by rw [hbytes₃, hzero₂]; rfl)⟩

/-- A byte is received, and the next reader fails after it has yielded 8 KiB, which do not fit the
buffer: they stay in the file, and the next call appends to them. -/
theorem not_forall_resumable : ¬ ∀ (store : ContentStore) (data : Bytes) (s₀ s₁ s : StoreState)
    (expectedHash : Option ContentHash) (totalSize : Option ℕ) (started transfer : PartialTransfer),
    store.Staging (store.IsOf data) s₀.fs →
    (∀ expected ∈ expectedHash, expected = store.blake3 data) →
    (∀ size ∈ totalSize, size = data.length) →
    Returns noFault (store.startResumableWrite expectedHash totalSize) s₀ (.ok started) s₁ →
    Relation.TransGen (store.Delivers data fun _ _ => True) (started, s₁) (transfer, s) →
    InStep data transfer s ∧ (transfer.bytesReceived = data.length →
      Ensures transfer.Unexpired (fun r s' => r = .ok ⟨store.blake3 data, data.length⟩ ∧
          s'.fs.content (store.objectPath (store.blake3 data)) = some data)
        (store.completeResumableWrite transfer) s) := by
  intro h
  obtain ⟨block, hblock⟩ : ∃ block : Bytes, block.length = 8 * 1024 :=
    ⟨List.replicate _ 0, List.length_replicate⟩
  have hne : block ≠ [] := by
    rintro rfl
    cases hblock
  have hle : block.length ≤ 64 * 1024 := by omega
  have hs : (default .blake3Sample .identity).Staging
      ((default .blake3Sample .identity).IsOf (0 :: block)) Fs.empty := staging_empty
  obtain ⟨_, s₁, hstart, started, rfl, hzero, hunderway⟩ := exists_returns exists_noFault
    (wp_startUnderway (s := (default .blake3Sample .identity).opened .empty 0) none none hs
      (by simp) (by simp))
  obtain ⟨t₂, s₂, h₂, hbytes₂, -, hunder₂⟩ := exists_delivers (C := fun _ _ => True)
    (oneBlock [0] none (by simp) (by simp)) hunderway (by rw [hzero]; exact ⟨block, rfl⟩) trivial
  have hunderway₂ := hunder₂ (.inl hzero)
  have hone₂ : t₂.bytesReceived = 1 := by
    rw [hbytes₂, hzero]
    rfl
  obtain ⟨t₃, s₃, h₃, hbytes₃, hcontent₃, -⟩ := exists_delivers (C := fun _ _ => True)
    (oneBlock block (some .fault) hne hle) hunderway₂
    (by rw [hone₂]; exact ⟨[], by simp [oneBlock, Reader.bytes]⟩) trivial
  have hone₃ : t₃.bytesReceived = 1 := hbytes₃.trans hone₂
  have hspilled : (default .blake3Sample .identity).arrived
      (oneBlock block (some .fault) hne hle) = block := by
    simp [arrived, oneBlock, spilled, default, BufWriter.withCapacity, hblock]
  have hinStep := (h _ _ _ _ _ none none _ _ hs (by simp) (by simp) hstart
    (.tail (.single h₂) h₃)).1 (by omega)
  rw [hcontent₃, hspilled, hone₃, hone₂, Option.some.injEq] at hinStep
  have hlength := congrArg List.length hinStep
  simp [hblock] at hlength

end ContentStore

end Landropic.Cas
