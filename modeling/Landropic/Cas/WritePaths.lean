import Landropic.Cas.BatchProgress
import Landropic.Cas.DedupIndex
import Landropic.Cas.Resumable

set_option autoImplicit false

/-!
# The four ways of storing a byte string

A byte string can be written, streamed, written in a batch that is flushed, or sent as a resumable
transfer. Each way has its own code for the checks, for the look whether the object exists, and for
moving the file to its place.

## Main definitions

* `Cas.WritePath` — the four ways.
* `Cas.ContentStore.Outcome` — what a way may return, and the state it leaves.
* `Cas.ContentStore.Agree` — all four ways succeed alike, or all of them are rejected.
* `Cas.ContentStore.Concordant` — what the state has to be like for them to agree.

## Main results

* `Cas.ContentStore.wp_alone_write`, `Cas.ContentStore.wp_writeStream` — what a write and a streamed
  write leave.
* `Cas.ContentStore.agree_iff` — the four ways agree exactly in such states.
-/

namespace Landropic.Cas

open Proc

/-- The ways of storing a byte string. -/
inductive WritePath
  | write
  | writeStream
  /-- A batch of it alone, which is then flushed. -/
  | writeBatch
  | resumableWrite
  deriving DecidableEq

/-- A reader that yields bytes one by one. -/
def Reader.ofBytes (data : Bytes) : Reader where
  blocks := data.map fun b => [b]
  error := none
  ne_nil := by simp
  length_le := by simp

@[simp] lemma Reader.bytes_ofBytes (data : Bytes) : (Reader.ofBytes data).bytes = data := by
  rw [Reader.bytes, ofBytes, ← List.flatMap_def, List.flatMap_singleton']

namespace ContentStore

variable (store : ContentStore) (data : Bytes)

/-- A call of a resumable write that sends what comes next. -/
def Sends (before after : PartialTransfer × StoreState) : Prop :=
  ∃ reader : Reader, reader.error = none ∧ reader.bytes <+: data.drop before.1.bytesReceived ∧
    Returns before.1.Unexpired (store.continueResumableWrite before.1 reader) before.2
      (.ok after.1) after.2

/-- A resumable write of some data: a transfer is started, continued by calls that send the data,
and completed; or one of these calls fails. -/
inductive Resumes (s : StoreState) : Except CasError ObjectRef → StoreState → Prop
  | refused {expectedHash : Option ContentHash} {totalSize : Option ℕ} {e : CasError}
      {s' : StoreState} :
      Returns noFault (store.startResumableWrite expectedHash totalSize) s (.error e) s' →
      Resumes s (.error e) s'
  | interrupted {expectedHash : Option ContentHash} {totalSize : Option ℕ}
      {started transfer : PartialTransfer} {reader : Reader} {e : CasError}
      {s₁ s₂ s' : StoreState} :
      Returns noFault (store.startResumableWrite expectedHash totalSize) s (.ok started) s₁ →
      Relation.ReflTransGen (store.Sends data) (started, s₁) (transfer, s₂) →
      reader.error = none →
      Returns transfer.Unexpired (store.continueResumableWrite transfer reader) s₂ (.error e) s' →
      Resumes s (.error e) s'
  | completed {expectedHash : Option ContentHash} {totalSize : Option ℕ}
      {started transfer : PartialTransfer} {r : Except CasError ObjectRef} {s₁ s₂ s' : StoreState} :
      (∀ expected ∈ expectedHash, expected = store.blake3 data) →
      (∀ size ∈ totalSize, size = data.length) →
      Returns noFault (store.startResumableWrite expectedHash totalSize) s (.ok started) s₁ →
      Relation.TransGen (store.Sends data) (started, s₁) (transfer, s₂) →
      transfer.bytesReceived = data.length →
      Returns transfer.Unexpired (store.completeResumableWrite transfer) s₂ r s' →
      Resumes s r s'

/-- What a way of storing some data may return, and the state it leaves; nothing fails. -/
def Outcome (s : StoreState) (r : Except CasError ObjectRef) (s' : StoreState) : WritePath → Prop
  | .write => Returns noFault (store.write data) s r s'
  | .writeStream => ∃ reader expectedHash, reader.bytes = data ∧ reader.error = none ∧
    (∀ expected ∈ expectedHash, expected = store.blake3 data) ∧
    Returns noFault (store.writeStream reader expectedHash) s r s'
  | .writeBatch => ∃ S, store.Run (PutAndFlush data) s.atRest S ∧ S.call = none ∧
    S.pool.state = s' ∧ batchReply S.log = some r
  | .resumableWrite => store.Resumes data s r s'

/-- A way of storing some data returns, and what it returns and leaves is as `Q` says. -/
def Yields (s : StoreState) (path : WritePath) (Q : Except CasError ObjectRef → StoreState → Prop) :
    Prop :=
  (∀ r s', store.Outcome data s r s' path → Q r s') ∧ ∃ r s', store.Outcome data s r s' path

/-- The data has been stored: its reference was returned, and the file of its object is this. -/
def Stores (object : Bytes) (r : Except CasError ObjectRef) (s : StoreState) : Prop :=
  r = .ok ⟨store.blake3 data, data.length⟩ ∧
    s.fs.content (store.objectPath (store.blake3 data)) = some object

/-- The four ways of storing some data agree: all of them return its reference and leave the same
object file, or all of them are rejected. -/
def Agree (s : StoreState) : Prop :=
  (∃ object, ∀ path, store.Yields data s path (store.Stores data object)) ∨
    ∀ path, store.Yields data s path fun r _ => ∃ e, r = .error e

/-- The state is one in which the four ways agree on data that is not too large. If the dedup index
has the object, it has its reference, and the object has a file. Else a batched write can get a
permit, and the object has a file, or it is not packed and can be put into the cache. -/
def Concordant (s : StoreState) : Prop :=
  data.length ≤ MAX_OBJECT_SIZE ∧ match s.dedupIndex.lookup (store.blake3 data) with
    | some ref => ref = ⟨store.blake3 data, data.length⟩ ∧ store.Stored s (store.blake3 data)
    | none => 0 < s.permits ∧ (store.Stored s (store.blake3 data) ∨
      store.packed (store.blake3 data) = none ∧ s.cacheStuck = false ∧
        (s.cache.insert store.config.cacheConfig (store.blake3 data) (.new data)).isSome = true)

variable {store data} {s : StoreState} {good : ContentHash → Bytes → Prop} {hash : ContentHash}
  {ε α : Type}

lemma pathExists_iff_stored (htidy : store.Tidy good s.fs) :
    s.fs.pathExists (store.objectPath hash) = true ↔ store.Stored s hash :=
  ⟨stored_of_pathExists htidy, pathExists_of_stored⟩

lemma not_stored_iff : ¬ store.Stored s hash ↔ s.fs.content (store.objectPath hash) = none := by
  rw [Stored, ← Option.isSome_iff_exists, Bool.not_eq_true, Option.isSome_eq_false_iff,
    Option.isNone_iff_eq_none]

/-! ## A write -/

variable (store) in
/-- A write finds nothing under a hash. -/
def Misses (s : StoreState) (hash : ContentHash) : Prop :=
  s.dedupIndex.lookup hash = none ∧ ¬ store.Present s hash

lemma wp_alone_existsObject :
    wp (.alone Op noFault) (fun r s' => s' = s ∧
        ∃ found, r = .ok found ∧ (found = true ↔ store.Present s hash))
      (store.existsObject hash : Task ε Bool) s := by
  refine wp_bind (wp_alone_pathExists ?_)
  dsimp only
  split
  · next hfile => exact ⟨rfl, true, rfl, by simp [Present, hfile]⟩
  · next hfile =>
    refine wp_bind ?_
    unfold readPacked
    split
    · next henabled =>
      refine wp_atom ?_
      rintro s' rfl i hi
      refine ⟨trivial, rfl, _, rfl, ?_⟩
      cases i with
      | ok n => simp [Present, hfile, packed, henabled]
      | fail => exact absurd rfl hi
    · next hdisabled => exact ⟨rfl, false, rfl, by simp [Present, hfile, packed, hdisabled]⟩

/-- **A write** of what is not too large returns what the dedup index has, if it has something; the
object has a file after the write if it had one before, or if it was neither indexed nor packed. -/
theorem wp_alone_write (htidy : store.Tidy (fun _ _ => True) s.fs)
    (hsize : data.length ≤ MAX_OBJECT_SIZE) :
    wp (.alone Op noFault) (fun r s' => r = .ok (store.promisedRef s data) ∧
        (store.Misses s (store.blake3 data) →
          s'.fs.content (store.objectPath (store.blake3 data)) = some data) ∧
        (¬ store.Misses s (store.blake3 data) →
          s'.fs.content (store.objectPath (store.blake3 data)) =
            s.fs.content (store.objectPath (store.blake3 data))))
      (store.write data) s := by
  unfold write promisedRef
  rw [validateObjectSize_eq_ok_iff.mpr hsize]
  refine wp_bind (wp_alone_modify ?_)
  dsimp only
  cases hlookup : s.dedupIndex.lookup (store.blake3 data) with
  | some ref => exact ⟨rfl, fun h => absurd (hlookup.symm.trans h.1) (by simp), fun _ => rfl⟩
  | none =>
    refine wp_bind (wp_mono wp_alone_existsObject ?_)
    rintro _ s₁ ⟨rfl, found, rfl, hfound⟩
    cases found with
    | true =>
      exact wp_bind (wp_alone_modify ⟨rfl, fun h => absurd (hfound.mp rfl) h.2, fun _ => rfl⟩)
    | false =>
      have hmisses : store.Misses s₁ (store.blake3 data) :=
        ⟨hlookup, fun h => Bool.false_ne_true (hfound.mpr h)⟩
      have hwrite : wp (.alone Op noFault) (fun r s' => r = .ok ⟨store.blake3 data, data.length⟩ ∧
          (store.Misses s₁ (store.blake3 data) →
            s'.fs.content (store.objectPath (store.blake3 data)) = some data) ∧
          (¬ store.Misses s₁ (store.blake3 data) →
            s'.fs.content (store.objectPath (store.blake3 data)) =
              s₁.fs.content (store.objectPath (store.blake3 data))))
          (store.writeIndividual data (store.blake3 data)) s₁ := by
        refine wp_mono (wp_alone_of_writer (wp_writeIndividual htidy trivial)) ?_
        rintro (e | ref) s₂ ⟨-, hr⟩
        · exact hr.elim
        · exact ⟨by rw [hr.1], fun _ => hr.2, fun h => absurd hmisses h⟩
      dsimp only
      rw [if_neg Bool.false_ne_true]
      split
      · exact hwrite
      · exact hwrite

/-! ## A streamed write -/

/-- **A streamed write** stores what the reader yields, unless the object has a file. -/
theorem wp_writeStream (hs : store.Staging good s.fs) (reader : Reader)
    (expectedHash : Option ContentHash) (hreader : reader.error = none)
    (hexpected : ∀ expected ∈ expectedHash, expected = store.blake3 reader.bytes)
    (hgood : s.fs.content (store.objectPath (store.blake3 reader.bytes)) = none →
      good (store.blake3 reader.bytes) reader.bytes) :
    wp (.alone Op noFault) (store.Stores reader.bytes
        ((s.fs.content (store.objectPath (store.blake3 reader.bytes))).getD reader.bytes))
      (store.writeStream reader expectedHash) s := by
  refine wp_bind (wp_ask ?_)
  rintro s' id rfl
  refine ⟨trivial, wp_bind (wp_mono (wp_createTempDir hs) ?_)⟩
  rintro _ s₁ ⟨rfl, hstaging, hdir, hcontent₁⟩
  refine wp_bind (wp_mapErr (wp_alone_disk fun r fs' heq => ?_))
  obtain ⟨ino, fs'', hok⟩ := Fs.exists_create hdir (hstaging.not_dir _)
  obtain ⟨rfl, rfl⟩ := Prod.mk.inj (hok.symm.trans heq)
  have hcontent₂ := Fs.content_create hok
  obtain ⟨hfile, hempty, hnodes, -⟩ := Fs.create_ok hok
  refine wp_bind (wp_mono (wp_streamFrom reader (.inr rfl) hempty) ?_)
  rintro r s₃ ⟨hr, rfl⟩
  rw [hreader] at hr
  subst hr
  have harrived : store.arrived reader = reader.bytes := by rw [arrived, hreader]
  rw [List.nil_append, harrived]
  have hfsync : wp (.alone Op noFault)
      (fun r s' => r = .ok () ∧ s' = { s₁ with fs := fs''.setData ino reader.bytes })
      (store.fsyncStream ((uuidText id ++ ".tmp".toList) :: store.tempDir))
      { s₁ with fs := fs''.setData ino reader.bytes } := by
    unfold fsyncStream
    split
    · exact wp_mapErr (wp_alone_look ⟨rfl, rfl⟩)
    · exact ⟨rfl, rfl⟩
  refine wp_bind (wp_mono hfsync ?_)
  rintro _ _ ⟨rfl, rfl⟩
  dsimp only
  rw [verifyHash_of_expected hexpected, pure_bind']
  -- the streamed file is complete, and no object has changed
  have hcontent₃ := Fs.content_setData hfile reader.bytes
  have hother (q) (hq : q ≠ (uuidText id ++ ".tmp".toList) :: store.tempDir) :
      (fs''.setData ino reader.bytes).content q = s.fs.content q := by
    rw [hcontent₃, if_neg hq, hcontent₂, if_neg hq, hcontent₁]
  have hobject := hother (store.objectPath (store.blake3 reader.bytes)) (noObject_temp _ _).symm
  have hstaging₃ : store.Staging good (fs''.setData ino reader.bytes) :=
    hstaging.of_file hnodes (fun q hq => by rw [hother q hq, hcontent₁])
      fun hdir => by cases hfile.symm.trans hdir
  refine wp_mono (wp_moveIntoPlace hstaging₃ (by rw [hcontent₃, if_pos rfl])
    fun hnone => hgood (hobject ▸ hnone)) ?_
  rintro r s₄ ⟨rfl, -, hend⟩
  exact ⟨rfl, by rw [hend, hobject]⟩

lemma yields_writeStream (hs : store.Staging (fun _ _ => True) s.fs) :
    store.Yields data s .writeStream (store.Stores data
      ((s.fs.content (store.objectPath (store.blake3 data))).getD data)) := by
  constructor
  · rintro r s' ⟨reader, expectedHash, rfl, hreader, hexpected, hrun⟩
    exact post_of_returns hrun
      (wp_writeStream hs reader expectedHash hreader hexpected fun _ => trivial)
  · obtain ⟨r, s', hrun, -⟩ := exists_returns exists_noFault
      (wp_writeStream hs (.ofBytes data) none rfl (by simp) fun _ => trivial)
    exact ⟨r, s', .ofBytes data, none, Reader.bytes_ofBytes data, rfl, by simp, hrun⟩

/-! ## A resumable write -/

variable (hash) in
/-- **A call that sends what comes next** leaves in the file what the record says. -/
lemma Receiving.sends {before after : PartialTransfer × StoreState}
    (h : store.Receiving data good before.1 before.2) (hsends : store.Sends data before after) :
    store.Receiving data good after.1 after.2 ∧
      after.1.expectedHash = before.1.expectedHash ∧ after.1.totalSize = before.1.totalSize ∧
      after.2.fs.content (store.objectPath hash) = before.2.fs.content (store.objectPath hash) ∧
      after.2.fs.content after.1.tempPath = some (data.take after.1.bytesReceived) := by
  obtain ⟨transfer, s⟩ := before
  obtain ⟨transfer', s'⟩ := after
  obtain ⟨reader, hreader, ⟨rest, hrest⟩, hrun⟩ := hsends
  obtain ⟨hr, hstaging, hdir, hother, hcontent⟩ :=
    post_of_returns hrun (wp_continueResumableWrite h reader)
  rw [hreader] at hr
  obtain rfl := Except.ok.inj hr
  have htake : data.take transfer.bytesReceived ++ store.arrived reader =
      data.take (transfer.bytesReceived + reader.bytes.length) := by
    rw [arrived, hreader, List.take_add, ← hrest, List.take_left]
  rw [htake] at hcontent
  obtain ⟨name, hname⟩ := h.path
  refine ⟨⟨hstaging, hdir, h.path, fun _ => hcontent⟩, rfl, rfl, hother _ ?_, hcontent⟩
  rw [hname]
  exact (noObject_temp name hash).symm

variable (hash) in
/-- Any number of such calls. -/
lemma Receiving.sends_many {before after : PartialTransfer × StoreState}
    (h : store.Receiving data good before.1 before.2)
    (hsends : Relation.ReflTransGen (store.Sends data) before after) :
    store.Receiving data good after.1 after.2 ∧
      after.1.expectedHash = before.1.expectedHash ∧ after.1.totalSize = before.1.totalSize ∧
      after.2.fs.content (store.objectPath hash) = before.2.fs.content (store.objectPath hash) := by
  induction hsends with
  | refl => exact ⟨h, rfl, rfl, rfl⟩
  | tail _ hlast ih =>
    obtain ⟨hreceiving, hhash, hsize, hobject⟩ := ih
    obtain ⟨hreceiving', hhash', hsize', hobject', -⟩ := hreceiving.sends hash hlast
    exact ⟨hreceiving', hhash'.trans hhash, hsize'.trans hsize, hobject'.trans hobject⟩

/-- **A resumable write of some data** stores it, unless the object has a file. -/
theorem stores_of_resumes (hs : store.Staging (fun _ _ => True) s.fs)
    {r : Except CasError ObjectRef} {s' : StoreState} (h : store.Resumes data s r s') :
    store.Stores data ((s.fs.content (store.objectPath (store.blake3 data))).getD data) r s' := by
  cases h with
  | refused hstart =>
    obtain ⟨_, ⟨⟩, -⟩ := post_of_returns hstart (wp_startResumableWrite data _ _ hs)
  | interrupted hstart hsends hreader hrun =>
    obtain ⟨_, ⟨⟩, -, -, -, -, hreceiving⟩ :=
      post_of_returns hstart (wp_startResumableWrite data _ _ hs)
    obtain ⟨hreceiving', -⟩ := hreceiving.sends_many (store.blake3 data) hsends
    obtain ⟨hr, -⟩ := post_of_returns hrun (wp_continueResumableWrite hreceiving' _)
    rw [hreader] at hr
    cases hr
  | @completed expectedHash totalSize started transfer r s₁ s₂ s' hexpected htotal hstart hsends
      hall hrun =>
    obtain ⟨_, ⟨⟩, -, rfl, rfl, hcontent, hreceiving⟩ :=
      post_of_returns hstart (wp_startResumableWrite data _ _ hs)
    obtain ⟨before, hmany, hlast⟩ := Relation.TransGen.tail'_iff.mp hsends
    obtain ⟨hbefore, hhash, hsize, hobject⟩ :=
      hreceiving.sends_many (store.blake3 data) hmany
    obtain ⟨hafter, hhash', hsize', hobject', hfile⟩ :=
      hbefore.sends (store.blake3 data) hlast
    have hcomplete := wp_completeResumableWrite hafter.staging hafter.path
      (by rwa [hhash', hhash]) (by rwa [hsize', hsize]) (by rw [hfile, hall, List.take_length])
      fun _ => trivial
    obtain ⟨hr, -, hend⟩ := post_of_returns hrun hcomplete
    exact ⟨hr, by rw [hend, hobject', hobject, hcontent]⟩

lemma yields_resumableWrite (hs : store.Staging (fun _ _ => True) s.fs) :
    store.Yields data s .resumableWrite (store.Stores data
      ((s.fs.content (store.objectPath (store.blake3 data))).getD data)) := by
  refine ⟨fun r s' h => stores_of_resumes hs h, ?_⟩
  obtain ⟨_, s₁, hstart, started, rfl, hzero, hhash, hsize, -, hreceiving⟩ :=
    exists_returns exists_noFault (wp_startResumableWrite data none none hs)
  obtain ⟨r, s₂, hrun, hr, -⟩ := exists_returns started.exists_unexpired
    (wp_continueResumableWrite hreceiving (.ofBytes data))
  obtain rfl := hr
  have hbytes := Reader.bytes_ofBytes data
  have hsends : store.Sends data (started, s₁) (_, s₂) :=
    ⟨.ofBytes data, rfl, by rw [hbytes, hzero]; exact List.prefix_refl _, hrun⟩
  obtain ⟨hafter, hhash', hsize', -, hfile⟩ := hreceiving.sends (store.blake3 data) hsends
  have hall : started.bytesReceived + (Reader.ofBytes data).bytes.length = data.length := by
    rw [hzero, hbytes, Nat.zero_add]
  have hfile' : s₂.fs.content started.tempPath = some data :=
    hfile.trans (congrArg some (by rw [hall, List.take_length]))
  obtain ⟨r, s', hcomplete, -⟩ := exists_returns (PartialTransfer.exists_unexpired _)
    (wp_completeResumableWrite hafter.staging hafter.path (by rw [hhash', hhash]; simp)
      (by rw [hsize', hsize]; simp) hfile' fun _ => trivial)
  exact ⟨r, s', .completed (by simp) (by simp) hstart (.single hsends) hall hcomplete⟩

/-! ## When the four ways agree -/

lemma getD_of_stored {object : Bytes} (h : s.fs.content (store.objectPath hash) = some object) :
    some ((s.fs.content (store.objectPath hash)).getD data) =
      s.fs.content (store.objectPath hash) := by
  rw [h, Option.getD_some]

lemma getD_of_not_stored (h : ¬ store.Stored s hash) :
    (s.fs.content (store.objectPath hash)).getD data = data := by
  rw [not_stored_iff.mp h, Option.getD_none]

lemma misses_iff (htidy : store.Tidy good s.fs) : store.Misses s hash ↔
    s.dedupIndex.lookup hash = none ∧ ¬ store.Stored s hash ∧ store.packed hash = none := by
  rw [Misses, Present, not_or, pathExists_iff_stored htidy, Bool.not_eq_true,
    Option.isSome_eq_false_iff, Option.isNone_iff_eq_none]

/-- **The reference** that a write and a batch return is that of the data. -/
lemma Concordant.promisedRef_eq (h : store.Concordant data s) :
    store.promisedRef s data = ⟨store.blake3 data, data.length⟩ := by
  obtain ⟨-, h⟩ := h
  unfold promisedRef
  split at h
  · next ref hlookup => rw [hlookup, Option.getD_some, h.1]
  · next hlookup => rw [hlookup, Option.getD_none]

lemma Concordant.stored_of_not_misses (h : store.Concordant data s)
    (htidy : store.Tidy good s.fs) (hmisses : ¬ store.Misses s (store.blake3 data)) :
    store.Stored s (store.blake3 data) := by
  obtain ⟨-, h⟩ := h
  split at h
  · exact h.2
  · next hlookup =>
    by_contra hnot
    exact hmisses ((misses_iff htidy).mpr ⟨hlookup, hnot, (h.2.resolve_left hnot).1⟩)

/-- **A write** in such a state. -/
lemma Concordant.yields_write (h : store.Concordant data s)
    (htidy : store.Tidy (fun _ _ => True) s.fs) :
    store.Yields data s .write (store.Stores data
      ((s.fs.content (store.objectPath (store.blake3 data))).getD data)) := by
  refine ensures_of_wp exists_noFault (wp_mono (wp_alone_write htidy h.1) ?_)
  rintro _ s' ⟨rfl, hmissing, hthere⟩
  refine ⟨congrArg Except.ok (h.promisedRef_eq), ?_⟩
  by_cases hmisses : store.Misses s (store.blake3 data)
  · rw [hmissing hmisses, getD_of_not_stored ((misses_iff htidy).mp hmisses).2.1]
  · obtain ⟨object, hobject⟩ := h.stored_of_not_misses htidy hmisses
    rw [hthere hmisses, getD_of_stored hobject]

/-- **A batch** in such a state. -/
lemma Concordant.yields_writeBatch (h : store.Concordant data s) (hfresh : store.Fresh s)
    (hcompression : store.config.compression = .none) :
    store.Yields data s .writeBatch (store.Stores data
      ((s.fs.content (store.objectPath (store.blake3 data))).getD data)) := by
  constructor
  · rintro r s' ⟨S, hrun, hidle, rfl, hreply⟩
    obtain ⟨rfl, hdone⟩ := flushed_of_batchReply hcompression h.1 hfresh hrun hidle hreply
    refine ⟨congrArg Except.ok (h.promisedRef_eq), ?_⟩
    rcases (hdone.flushed hfresh).state with hcached | ⟨hsame, hknown⟩
    · obtain ⟨stored, hform, hobject⟩ := hcached.object
      obtain rfl := Except.ok.inj ((storedForm_of_none hcompression).symm.trans hform)
      rw [hobject, hcached.missing.2, Option.getD_none]
    · obtain ⟨object, hobject⟩ : store.Stored s (store.blake3 data) := by
        obtain ⟨-, h⟩ := h
        split at h
        · exact h.2
        · next hlookup =>
          have hfile := hknown.resolve_left fun hindexed => hindexed hlookup
          exact Option.ne_none_iff_exists'.mp hfile
      rw [hsame.object, getD_of_stored hobject]
  · obtain ⟨S, r, hrun, hidle, hlog⟩ := exists_run_putAndFlush h.1 hfresh fun hlookup => by
      obtain ⟨-, h⟩ := h
      rw [hlookup] at h
      exact ⟨h.1, hcompression, hfresh.tidy, h.2.imp id And.right⟩
    exact ⟨_, S.pool.state, S, hrun, hidle, rfl, by rw [hlog]; rfl⟩

/-- **States in which the four ways agree** are of that kind. -/
lemma concordant_of_agree (hcompression : store.config.compression = .none)
    (hfresh : store.Fresh s) (hs : store.Staging (fun _ _ => True) s.fs)
    (h : store.Agree data s) : store.Concordant data s := by
  obtain ⟨object, hall⟩ : ∃ object, ∀ path,
      store.Yields data s path (store.Stores data object) := by
    refine h.resolve_right fun hrejected => ?_
    obtain ⟨hstores, r, s', hrun⟩ := @yields_writeStream store data s hs
    obtain ⟨e, he⟩ := (hrejected .writeStream).1 r s' hrun
    cases he.symm.trans (hstores r s' hrun).1
  obtain ⟨hwrites, r, s₁, hwrite⟩ := hall .write
  have hsize : data.length ≤ MAX_OBJECT_SIZE := by
    by_contra hlarge
    have hstored := hwrites r s₁ hwrite
    obtain ⟨e, he⟩ : ∃ e, validateObjectSize data.length = .error e := by
      unfold validateObjectSize
      rw [if_pos (by omega)]
      exact ⟨_, rfl⟩
    change Returns noFault (store.write data) s r s₁ at hwrite
    rw [write, he] at hwrite
    cases hwrite
    cases hstored.1
  obtain ⟨hr, hmissing, hthere⟩ := post_of_returns hwrite (wp_alone_write hs.tidy hsize)
  obtain ⟨hr', hobject⟩ := hwrites r s₁ hwrite
  refine ⟨hsize, ?_⟩
  split
  · next ref hlookup =>
    have hnot : ¬ store.Misses s (store.blake3 data) := fun hmisses => by
      cases hlookup.symm.trans hmisses.1
    refine ⟨?_, object, (hthere hnot).symm.trans hobject⟩
    rw [hr, promisedRef, hlookup, Option.getD_some, Except.ok.injEq] at hr'
    exact hr'
  · next hlookup =>
    obtain ⟨-, r₂, s₂, S, hrun, hidle, -, hreply⟩ := hall .writeBatch
    obtain ⟨-, hdone⟩ := flushed_of_batchReply hcompression hsize hfresh hrun hidle hreply
    constructor
    · -- without a permit the data would never have been given to the runtime
      by_contra hnone
      have hstopped := stopped_of_run ⟨by omega, hfresh.spawned⟩ hrun
      obtain ⟨-, hstanding, -⟩ := hdone.resolve_left fun hindexed => hindexed.1 hlookup
      cases hstanding.spawned_eq.symm.trans hstopped.2
    · by_cases hstored : store.Stored s (store.blake3 data)
      · exact .inl hstored
      · right
        have hpacked : store.packed (store.blake3 data) = none := by
          by_contra hsome
          have hnot : ¬ store.Misses s (store.blake3 data) :=
            fun hmisses => hsome ((misses_iff hs.tidy).mp hmisses).2.2
          exact hstored ⟨object, (hthere hnot).symm.trans hobject⟩
        rcases (hdone.flushed hfresh).state with hcached | ⟨-, hknown⟩
        · exact ⟨hpacked, hcached.free, by rw [hcached.cache]; rfl⟩
        · have hfile := hknown.resolve_left fun hindexed => hindexed hlookup
          exact absurd (Option.ne_none_iff_exists'.mp hfile) hstored

/-- **When the four ways of storing data agree.** Nothing is compressed, nothing waits in the batch
and no batched write is at work. Then the four ways agree on some data if and only if it is not too
large and the state is concordant for it: what the dedup index has of it is right and has a file, or
else a batched write can get a permit, and the object has a file or can be stored and cached.

**Proof sketch.** A streamed and a resumable write never look at the size of the data, nor at the
dedup index or the packfiles, so that they always store the data, unless its object has a file. A
write refuses what is too large, and leaves what is indexed or packed as it is. A batch refuses and
leaves the same, and waits for ever if it gets no permit or if the eviction does not end. -/
theorem agree_iff (hcompression : store.config.compression = .none) (hfresh : store.Fresh s)
    (hs : store.Staging (fun _ _ => True) s.fs) :
    store.Agree data s ↔ store.Concordant data s := by
  refine ⟨concordant_of_agree hcompression hfresh hs, fun h => .inl
    ⟨(s.fs.content (store.objectPath (store.blake3 data))).getD data, fun path => ?_⟩⟩
  cases path with
  | write => exact h.yields_write hs.tidy
  | writeStream => exact yields_writeStream hs
  | writeBatch => exact h.yields_writeBatch hfresh hcompression
  | resumableWrite => exact yields_resumableWrite hs

/-- The ways agree on a byte that is written to an empty store. -/
theorem agree_iff_byte :
    (default .blake3Sample .identity).Agree [1]
      ((default .blake3Sample .identity).opened .empty 0) := by
  refine (agree_iff rfl ⟨rfl, rfl, rfl, tidy_empty⟩ staging_empty).mpr ⟨by decide, ?_⟩
  exact ⟨by decide, .inr ⟨rfl, rfl,
    Option.isSome_iff_exists.mpr (ChunkCache.exists_insert_new _ _ (by decide))⟩⟩

/-- Data of one byte more than the maximum is refused by a write and stored by a streamed write. -/
theorem not_forall_agree : ¬ ∀ (store : ContentStore) (data : Bytes) (s : StoreState),
    store.config.compression = .none → store.Fresh s →
    store.Staging (fun _ _ => True) s.fs → store.Agree data s := by
  intro h
  have hagree := h (default .blake3Sample .identity) (List.replicate (MAX_OBJECT_SIZE + 1) 0)
    ((default .blake3Sample .identity).opened .empty 0) rfl ⟨rfl, rfl, rfl, tidy_empty⟩
    staging_empty
  have hsize := (concordant_of_agree rfl ⟨rfl, rfl, rfl, tidy_empty⟩ staging_empty hagree).1
  rw [List.length_replicate] at hsize
  omega

end ContentStore

end Landropic.Cas
