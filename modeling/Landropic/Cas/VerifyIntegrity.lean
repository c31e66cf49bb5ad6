import Landropic.Cas.Reads

set_option autoImplicit false

/-!
# Verification of the object tree

A walk over the object tree that reads the object of every file in it and reports what is not in
order. It looks a file up by the hash that its directories and its name make up, as any read does:
in the cache, in the packfiles, and only then on the disk, at the path of that hash. So it can find
something else than what the file has.

## Main definitions

* `Cas.VerificationReport` — what a verification has found.
* `Cas.ContentStore.verifyIntegrity` — the walk.
* `Cas.ContentStore.Healthy` — every file of the tree has the bytes that its name stands for.
* `Cas.ContentStore.Exposed` — a file that does not is found out.

## Main results

* `Cas.ContentStore.ensures_verifySingleObject_iff` — which objects pass.
* `Cas.ContentStore.visits_verifyObjects` — what the walk looks at.
* `Cas.ContentStore.verifyIntegrity_sound` — reports add up, and a healthy one means that the tree
  is healthy if its other files are exposed.
* `Cas.ContentStore.exists_passedOver` — a file that is not exposed can be passed over.
-/

namespace Landropic.Cas

open Proc

/-- Report from integrity verification operation. -/
structure VerificationReport where
  /-- Total objects examined. -/
  totalObjects : ℕ
  /-- Objects that passed verification. -/
  verifiedCount : ℕ
  /-- Objects that failed integrity checks. -/
  corruptionCount : ℕ
  /-- Objects that caused errors during verification. -/
  errorCount : ℕ
  /-- List of corrupted object hashes. -/
  corruptedObjects : List ContentHash
  /-- Objects with verification errors and their error messages. -/
  errorObjects : List (ContentHash × String)
  /-- Invalid filenames that couldn't be parsed as hashes. -/
  invalidFilenames : List FilePath
  deriving DecidableEq

namespace VerificationReport

/-- A report of nothing. -/
def new : VerificationReport := ⟨0, 0, 0, 0, [], [], []⟩

/-- The report for a store without objects. -/
def empty : VerificationReport := new

/-- All objects passed verification. -/
def isHealthy (report : VerificationReport) : Bool :=
  report.corruptionCount == 0 && report.errorCount == 0

/-- Every object examined is counted once. -/
def Counted (report : VerificationReport) : Prop :=
  report.verifiedCount + report.corruptionCount + report.errorCount = report.totalObjects

/-- The report with one more object that passed. -/
def verified (report : VerificationReport) : VerificationReport :=
  { report with
    verifiedCount := report.verifiedCount + 1
    totalObjects := report.totalObjects + 1 }

/-- The report with one more object that is corrupted. -/
def corrupted (report : VerificationReport) (hash : ContentHash) : VerificationReport :=
  { report with
    corruptedObjects := report.corruptedObjects ++ [hash]
    corruptionCount := report.corruptionCount + 1
    totalObjects := report.totalObjects + 1 }

/-- The report with one more object that could not be verified. -/
def failed (report : VerificationReport) (hash : ContentHash) (e : CasError) :
    VerificationReport :=
  { report with
    errorObjects := report.errorObjects ++ [(hash, e.display)]
    errorCount := report.errorCount + 1
    totalObjects := report.totalObjects + 1 }

/-- The report with one more file whose name is none of an object. -/
def invalid (report : VerificationReport) (path : FilePath) : VerificationReport :=
  { report with
    invalidFilenames := report.invalidFilenames ++ [path]
    errorCount := report.errorCount + 1
    totalObjects := report.totalObjects + 1 }

end VerificationReport

/-- The last component of a path. -/
def fileName (p : FilePath) : Text := p.head?.getD []

/-- Take the entries of a directory one after the other. -/
def forEntries (visit : FilePath → VerificationReport → Task CasError VerificationReport) :
    List FilePath → VerificationReport → Task CasError VerificationReport
  | [], report => do
    (look .nextEntry fun _ => .ok ()).mapErr .io
    pure report
  | entry :: rest, report => do
    (look .nextEntry fun _ => .ok ()).mapErr .io
    let report ← visit entry report
    forEntries visit rest report

/-- Take the entries of a directory, in some order, if it is one. -/
def forEntriesOf (order : IterOrder FilePath)
    (visit : FilePath → VerificationReport → Task CasError VerificationReport) (dir : FilePath)
    (report : VerificationReport) : Task CasError VerificationReport := do
  let entries ← (look (.readDir dir) fun fs => fs.readDir order dir).mapErr .io
  forEntries visit entries report

/-- Take the entries of a directory entry, if it is a directory. -/
def forSubdir (order : IterOrder FilePath)
    (visit : FilePath → VerificationReport → Task CasError VerificationReport) (entry : FilePath)
    (report : VerificationReport) : Task CasError VerificationReport := do
  if ← (look (.fileType entry) fun fs => .ok (fs.isDir entry)).mapErr .io then
    forEntriesOf order visit entry report
  else pure report

namespace ContentStore

variable (store : ContentStore)

/-- Verify a single object's integrity without returning its data. -/
def verifySingleObject (hash : ContentHash) : Task CasError Bool := do
  match ← (store.read hash).attempt with
  | .ok _ => pure true
  | .error (.objectNotFound _) => pure false
  | .error (.hashMismatch _ _) => pure false
  | .error (.corruptObject _) => pure false
  | .error e => .fail e

/-- Verify the object of a directory entry, if it is a file. -/
def verifyEntry (shard1 shard2 : Text) (entry : FilePath) (report : VerificationReport) :
    Task CasError VerificationReport := do
  if ← (look (.fileType entry) fun fs => .ok (fs.content entry).isSome).mapErr .io then
    match ContentHash.fromHex (shard1 ++ shard2 ++ fileName entry) with
    | some expectedHash =>
      match ← (store.verifySingleObject expectedHash).attempt with
      | .ok true => pure report.verified
      | .ok false => pure (report.corrupted expectedHash)
      | .error e => pure (report.failed expectedHash e)
    | none => pure (report.invalid entry)
  else pure report

/-- Walk through the two levels of directories of the objects. -/
def verifyObjects (order : IterOrder FilePath) : Task CasError VerificationReport :=
  forEntriesOf order
    (fun shard1 => forSubdir order
      (fun shard2 => forSubdir order (store.verifyEntry (fileName shard1) (fileName shard2)) shard2)
      shard1)
    store.objectsDir .new

/-- Verify the integrity of all objects in the store. -/
def verifyIntegrity (order : IterOrder FilePath) : Task CasError VerificationReport := do
  if ← pathExists store.objectsDir then store.verifyObjects order else pure .empty

/-- A file of the object tree, in its two directories with names of two characters. -/
structure TreeFile (fs : Fs) (shard1 shard2 name : Text) (data : Bytes) : Prop where
  content : fs.content (name :: shard2 :: shard1 :: store.objectsDir) = some data
  shard1 : shard1.length = 2
  shard2 : shard2.length = 2

/-- Every file of the object tree has a name that completes to a content hash, and bytes with that
hash. -/
def Healthy (fs : Fs) : Prop :=
  ∀ shard1 shard2 name data, store.TreeFile fs shard1 shard2 name data →
    ContentHash.fromHex (shard1 ++ shard2 ++ name) = some (store.blake3 data)

/-- A file of the object tree that has other bytes than those of the hash that its name completes to
is found out: nothing is cached or packed under that hash, nor is the file at the path of that hash,
which may be another one, intact. -/
def Exposed (s : StoreState) : Prop :=
  ∀ shard1 shard2 name data hash, store.TreeFile s.fs shard1 shard2 name data →
    ContentHash.fromHex (shard1 ++ shard2 ++ name) = some hash → store.blake3 data ≠ hash →
    s.cache.chunks.lookup hash = none ∧ store.packed hash = none ∧ store.intact s.fs hash = none

end ContentStore

/-! ## Reports -/

namespace VerificationReport

variable {report report' report'' : VerificationReport} {G G' : Prop}

/-- What a part of a verification does to a report: it still adds up, and it is healthy only if it
was and if what that part has looked at is in order. -/
structure Extends (G : Prop) (report report' : VerificationReport) : Prop where
  counted : report.Counted → report'.Counted
  healthy : report'.isHealthy = true → report.isHealthy = true ∧ G

lemma isHealthy_iff : report.isHealthy = true ↔
    report.corruptionCount = 0 ∧ report.errorCount = 0 := by
  simp [isHealthy]

lemma Extends.refl (hG : G) : Extends G report report := ⟨id, fun h => ⟨h, hG⟩⟩

lemma Extends.mono (h : Extends G report report') (hG : G → G') : Extends G' report report' :=
  ⟨h.counted, fun hhealthy => (h.healthy hhealthy).imp_right hG⟩

lemma Extends.trans (h : Extends G report report') (h' : Extends G' report' report'') :
    Extends (G ∧ G') report report'' := by
  refine ⟨h'.counted ∘ h.counted, fun hhealthy => ?_⟩
  obtain ⟨hhealthy', hG'⟩ := h'.healthy hhealthy
  obtain ⟨hhealthy'', hG⟩ := h.healthy hhealthy'
  exact ⟨hhealthy'', hG, hG'⟩

lemma extends_verified (hG : G) : Extends G report report.verified := by
  refine ⟨fun h => ?_, fun h => ⟨h, hG⟩⟩
  rw [Counted] at h
  simp only [Counted, verified]
  omega

lemma extends_corrupted (hash : ContentHash) : Extends G report (report.corrupted hash) := by
  refine ⟨fun h => ?_, fun h => ?_⟩
  · rw [Counted] at h
    simp only [Counted, corrupted]
    omega
  · exact absurd (isHealthy_iff.mp h).1 (Nat.succ_ne_zero _)

lemma extends_failed (hash : ContentHash) (e : CasError) :
    Extends G report (report.failed hash e) := by
  refine ⟨fun h => ?_, fun h => ?_⟩
  · rw [Counted] at h
    simp only [Counted, failed]
    omega
  · exact absurd (isHealthy_iff.mp h).2 (Nat.succ_ne_zero _)

lemma extends_invalid (path : FilePath) : Extends G report (report.invalid path) := by
  refine ⟨fun h => ?_, fun h => ?_⟩
  · rw [Counted] at h
    simp only [Counted, invalid]
    omega
  · exact absurd (isHealthy_iff.mp h).2 (Nat.succ_ne_zero _)

end VerificationReport

open VerificationReport

section Walk

variable {fs : Fs} {unserved : ContentHash → Prop}

/-- The disk is as it was, and nothing is cached under some hashes. -/
def Unserved (fs : Fs) (unserved : ContentHash → Prop) (s : StoreState) : Prop :=
  s.fs = fs ∧ ∀ hash, unserved hash → s.cache.chunks.lookup hash = none

/-- A part of a verification that looks at `G`. -/
abbrev Visits (fs : Fs) (unserved : ContentHash → Prop) (G : Prop) (report : VerificationReport)
    (t : Task CasError VerificationReport) : Prop :=
  Keeps (Unserved fs unserved) (fun r => ∀ report', r = .ok report' → Extends G report report') t

lemma Visits.mono {G G' : Prop} {report : VerificationReport}
    {t : Task CasError VerificationReport} (h : Visits fs unserved G report t) (hG : G → G') :
    Visits fs unserved G' report t :=
  Keeps.mono h fun _ hr report' heq => (hr report' heq).mono hG

lemma visits_pure {G : Prop} {report report' : VerificationReport} (h : Extends G report report') :
    Visits fs unserved G report (pure report') := by
  rintro _ ⟨⟩
  exact h

lemma keeps_look {α : Type} {op : Op} {f : Fs → Except IoError α} :
    Keeps (Unserved fs unserved) (fun r => ∀ a, r = .ok a → f fs = .ok a)
      ((look op f).mapErr CasError.io : Task CasError α) := by
  refine Keeps.mapErr (Q := fun r => ∀ a, r = .ok a → f fs = .ok a) (Keeps.atom fun i s hs => ?_)
    (fun a h a' ha' => ?_) (by rintro e - a ⟨⟩)
  · cases i with
    | fail => exact ⟨hs, nofun⟩
    | ok n => exact ⟨hs, fun a ha => hs.1 ▸ ha⟩
  · obtain rfl := Except.ok.inj ha'
    exact h a rfl

variable {visit : FilePath → VerificationReport → Task CasError VerificationReport}
  {G : FilePath → Prop}

lemma visits_forEntries {entries : List FilePath}
    (h : ∀ entry ∈ entries, ∀ report, Visits fs unserved (G entry) report (visit entry report))
    (report : VerificationReport) :
    Visits fs unserved (∀ entry ∈ entries, G entry) report (forEntries visit entries report) := by
  induction entries generalizing report with
  | nil =>
    refine Keeps.bind keeps_look (by rintro e - report' ⟨⟩) fun _ _ => ?_
    exact visits_pure (.refl nofun)
  | cons entry rest ih =>
    refine Keeps.bind keeps_look (by rintro e - report' ⟨⟩) fun _ _ => ?_
    refine Keeps.bind (h entry List.mem_cons_self report) (by rintro e - report' ⟨⟩) ?_
    intro report₁ hreport₁
    refine Keeps.mono (ih (fun entry' hentry' => h entry' (List.mem_cons_of_mem _ hentry')) report₁)
      fun r hr report' heq => ?_
    exact ((hreport₁ report₁ rfl).trans (hr report' heq)).mono fun hG => List.forall_mem_cons.mpr hG

/-- All entries of a directory are looked at. -/
lemma visits_forEntriesOf {order : IterOrder FilePath} {dir : FilePath}
    (h : ∀ entry report, Visits fs unserved (G entry) report (visit entry report))
    (report : VerificationReport) :
    Visits fs unserved (∀ entry ∈ fs.children dir, G entry) report
      (forEntriesOf order visit dir report) := by
  refine Keeps.bind keeps_look (by rintro e - report' ⟨⟩) fun entries hentries => ?_
  refine (visits_forEntries (fun entry _ => h entry) report).mono fun hG entry hentry => hG entry ?_
  have hread := hentries entries rfl
  rw [Fs.readDir] at hread
  split at hread
  · rw [← Except.ok.inj hread, order.mem_iter]
    exact hentry
  · cases hread

/-- All entries of a directory entry are looked at. -/
lemma visits_forSubdir {order : IterOrder FilePath} {entry : FilePath}
    (h : ∀ entry report, Visits fs unserved (G entry) report (visit entry report))
    (report : VerificationReport) :
    Visits fs unserved (fs.isDir entry = true → ∀ entry' ∈ fs.children entry, G entry') report
      (forSubdir order visit entry report) := by
  refine Keeps.bind keeps_look (by rintro e - report' ⟨⟩) fun isDir hisDir => ?_
  have hdir := Except.ok.inj (hisDir isDir rfl)
  split
  · exact (visits_forEntriesOf h report).mono fun hG _ => hG
  · next hnot => exact visits_pure (.refl fun hentry => absurd (hdir.symm.trans hentry) hnot)

end Walk

namespace ContentStore

variable {store : ContentStore} {fs : Fs} {unserved : ContentHash → Prop} {hash : ContentHash}

/-! ## What passes -/

lemma keeps_readIndividual (hash : ContentHash) :
    Keeps (Unserved fs unserved) (fun r => ∀ data, r = .ok data → store.intact fs hash = some data)
      (store.readIndividual hash) := by
  refine Keeps.bind (Q := fun _ => True) (Keeps.atom fun i s hs => ⟨hs, trivial⟩)
    (by rintro e - data ⟨⟩) fun found _ => ?_
  split
  · refine Keeps.bind keeps_look (by rintro e - data ⟨⟩) fun len hlen => ?_
    split
    · rintro data ⟨⟩
    · next hpos =>
      refine Keeps.bind keeps_look (by rintro e - data ⟨⟩) fun data hdata => ?_
      split
      · rintro data' ⟨⟩
      · next hlength =>
        split
        · rintro data' ⟨⟩
        · next hhash =>
          rintro _ ⟨⟩
          refine intact_eq_some.mpr ⟨Fs.readFile_eq_ok.mp (hdata data rfl), ?_, not_not.mp hhash⟩
          rintro rfl
          exact hpos (not_not.mp hlength).symm
  · rintro data ⟨⟩

lemma keeps_cachePut_unserved {data : Bytes} (h : ¬ unserved hash) :
    Keeps (Unserved fs unserved) (fun _ => True)
      (store.cachePut hash data : Task CasError Unit) := by
  intro i s hs _
  dsimp only
  split
  · next cache hinsert =>
    refine ⟨⟨hs.1, fun other hother => ?_⟩, trivial⟩
    refine Option.eq_none_iff_forall_ne_some.mpr fun chunk hchunk => ?_
    rcases ChunkCache.mem_insert hinsert (LruCache.mem_of_lookup hchunk) with heq | hold
    · exact h ((Prod.mk.inj heq).1 ▸ hother)
    · exact LruCache.notMem_of_lookup (hs.2 other hother) chunk hold
  · exact ⟨hs, fun i s hs _ => ⟨hs, trivial⟩⟩

/-- **A read** of a hash that nothing is cached, packed or intact under does not succeed. -/
theorem keeps_read_unserved (h : ∀ hash, unserved hash →
      store.packed hash = none ∧ store.intact fs hash = none) (hash : ContentHash) :
    Keeps (Unserved fs unserved) (fun r => ∀ data, r = .ok data → ¬ unserved hash)
      (store.read hash) := by
  have hget : Keeps (Unserved fs unserved) (fun r => ∀ data, r = .ok (some data) → ¬ unserved hash)
      (cacheGet hash : Task CasError (Option Bytes)) := by
    intro i s hs _
    refine ⟨⟨hs.1, fun other hother => ?_⟩, fun data hdata hunserved => ?_⟩
    · refine Option.eq_none_iff_forall_ne_some.mpr fun chunk hchunk => ?_
      have hmem := LruCache.mem_promote (LruCache.mem_of_lookup hchunk)
      exact LruCache.notMem_of_lookup (hs.2 other hother) chunk hmem
    · obtain ⟨chunk, hchunk, -⟩ := Option.map_eq_some_iff.mp (Except.ok.inj hdata)
      rw [hs.2 hash hunserved] at hchunk
      cases hchunk
  have hpacked : Keeps (Unserved fs unserved)
      (fun r => ∀ data, r = .ok (some data) → ¬ unserved hash)
      (store.readPacked hash : Task CasError (Option Bytes)) := by
    unfold readPacked
    split
    · next henabled =>
      refine Keeps.atom fun i s hs => ⟨hs, fun data hdata hunserved => ?_⟩
      have hnone := (h hash hunserved).1
      rw [packed, if_pos henabled] at hnone
      cases i with
      | fail => cases hdata
      | ok n =>
        have hsome := Except.ok.inj hdata
        dsimp only at hsome
        rw [hnone] at hsome
        cases hsome
    · rintro data ⟨⟩
  unfold read
  split
  · rintro data ⟨⟩
  · refine Keeps.bind hget (by rintro e - data ⟨⟩) fun found hfound => ?_
    split
    · exact fun _ _ => hfound _ rfl
    · refine Keeps.bind hpacked (by rintro e - data ⟨⟩) fun found hfound => ?_
      split
      · exact fun _ _ => hfound _ rfl
      · refine Keeps.bind (keeps_readIndividual hash) (by rintro e - data ⟨⟩) fun data hdata => ?_
        have hserved : ¬ unserved hash := by
          intro hunserved
          have hintact := hdata data rfl
          rw [(h hash hunserved).2] at hintact
          cases hintact
        exact Keeps.bind (keeps_cachePut_unserved hserved) (by rintro e - data ⟨⟩)
          fun _ _ _ _ => hserved

lemma keeps_verifySingleObject (h : ∀ hash, unserved hash →
      store.packed hash = none ∧ store.intact fs hash = none) (hash : ContentHash) :
    Keeps (Unserved fs unserved) (fun r => r = .ok true → ¬ unserved hash)
      (store.verifySingleObject hash) := by
  refine Keeps.bind (Keeps.attempt (keeps_read_unserved h hash)) (by rintro e - ⟨⟩) fun r hr => ?_
  split
  · next data => exact fun _ => hr _ rfl data rfl
  · rintro ⟨⟩
  · rintro ⟨⟩
  · rintro ⟨⟩
  · rintro ⟨⟩

/-- A file passes only if the hash that its name completes to is served. -/
lemma visits_verifyEntry (h : ∀ hash, unserved hash →
      store.packed hash = none ∧ store.intact fs hash = none) (shard1 shard2 : Text)
    (entry : FilePath) (report : VerificationReport) :
    Visits fs unserved ((fs.content entry).isSome = true → ∃ hash,
        ContentHash.fromHex (shard1 ++ shard2 ++ fileName entry) = some hash ∧ ¬ unserved hash)
      report (store.verifyEntry shard1 shard2 entry report) := by
  refine Keeps.bind keeps_look (by rintro e - report' ⟨⟩) fun isFile hisFile => ?_
  have hfile := Except.ok.inj (hisFile isFile rfl)
  split
  · split
    · next hash hhash =>
      refine Keeps.bind (Keeps.attempt (keeps_verifySingleObject h hash))
        (by rintro e - report' ⟨⟩) fun r hr => ?_
      split
      · exact visits_pure (extends_verified fun _ => ⟨hash, hhash, hr _ rfl rfl⟩)
      · exact visits_pure (extends_corrupted hash)
      · exact visits_pure (extends_failed hash _)
    · exact visits_pure (extends_invalid entry)
  · next hnot => exact visits_pure (.refl fun hentry => absurd (hfile.symm.trans hentry) hnot)

lemma wp_verifySingleObject {s : StoreState} {data : Bytes} (hfree : s.cacheStuck = false)
    (hfound : store.found s hash = some data) (htakes : store.Takes s hash data) :
    wp (.alone Op noFault) (fun r _ => r = .ok true) (store.verifySingleObject hash) s := by
  refine wp_bind (wp_attempt (wp_mono (wp_read hfree hfound htakes) fun r s₁ hr => ?_))
  subst hr
  exact rfl

variable (store hash) in
/-- **Which objects pass**: those that a read finds, wherever it finds them, if the cache can take
what it has found. -/
theorem ensures_verifySingleObject_iff (s : StoreState) :
    Ensures noFault (fun r _ => r = .ok true) (store.verifySingleObject hash) s ↔
      s.cacheStuck = false ∧ ∃ data, store.found s hash = some data ∧ store.Takes s hash data := by
  constructor
  · rintro ⟨hall, r, s', hrun⟩
    obtain rfl := hall r s' hrun
    have hwp : wp (.mayBlock Op noFault) (fun r _ => r = .ok true → s.cacheStuck = false ∧
        ∃ data, store.found s hash = some data ∧ store.Takes s hash data)
        (store.verifySingleObject hash) s := by
      refine wp_bind (wp_attempt (wp_mono (store.wp_read_mayBlock hash s) fun r s₁ hr => ?_))
      dsimp only
      split
      · next data =>
        obtain ⟨hfree, hfound, htakes⟩ := hr data rfl
        exact fun _ => ⟨hfree, data, hfound, htakes⟩
      · rintro ⟨⟩
      · rintro ⟨⟩
      · rintro ⟨⟩
      · rintro ⟨⟩
    exact post_of_returns_mayBlock hrun hwp rfl
  · rintro ⟨hfree, data, hfound, htakes⟩
    exact ensures_of_wp exists_noFault (wp_verifySingleObject hfree hfound htakes)

/-! ## The whole walk -/

/-- The files that the walk looks at. -/
def Looked (store : ContentStore) (fs : Fs) (unserved : ContentHash → Prop) : Prop :=
  ∀ shard1 shard2 name data, fs.content (name :: shard2 :: shard1 :: store.objectsDir) = some data →
    ∃ hash, ContentHash.fromHex (shard1 ++ shard2 ++ name) = some hash ∧ ¬ unserved hash

/-- The directories that a file of the tree lies in. -/
lemma lookup_shards {shard1 shard2 name : Text} {data : Bytes}
    (h : fs.content (name :: shard2 :: shard1 :: store.objectsDir) = some data) :
    (∃ ino, fs.nodes.lookup (name :: shard2 :: shard1 :: store.objectsDir) = some (.file ino)) ∧
      fs.nodes.lookup (shard2 :: shard1 :: store.objectsDir) = some .dir ∧
      fs.nodes.lookup (shard1 :: store.objectsDir) = some .dir := by
  obtain ⟨ino, hlookup, -⟩ := Fs.content_eq_some.mp h
  have hdir2 := (fs.parent_dir hlookup).resolve_left (List.cons_ne_nil _ _)
  have hdir1 := (fs.parent_dir hdir2).resolve_left (List.cons_ne_nil _ _)
  exact ⟨⟨ino, hlookup⟩, hdir2, hdir1⟩

/-- **The walk** looks at every file two directories below that of the objects. -/
theorem visits_verifyObjects (h : ∀ hash, unserved hash →
      store.packed hash = none ∧ store.intact fs hash = none) (order : IterOrder FilePath) :
    Visits fs unserved (Looked store fs unserved) .new (store.verifyObjects order) := by
  refine Visits.mono (visits_forEntriesOf (fun shard1 report₁ => visits_forSubdir
    (fun shard2 report₂ => visits_forSubdir (visits_verifyEntry h _ _) report₂) report₁) .new) ?_
  intro hlooked shard1 shard2 name data hdata
  obtain ⟨⟨ino, hlookup⟩, hdir2, hdir1⟩ := lookup_shards hdata
  exact hlooked _ (Fs.mem_children.mpr ⟨rfl, _, hdir1⟩) (Fs.isDir_iff.mpr (.inr hdir1))
    _ (Fs.mem_children.mpr ⟨rfl, _, hdir2⟩) (Fs.isDir_iff.mpr (.inr hdir2))
    _ (Fs.mem_children.mpr ⟨rfl, _, hlookup⟩) (Option.isSome_iff_exists.mpr ⟨data, hdata⟩)

section PassedOver

variable {s : StoreState} {order : IterOrder FilePath} {dir entry : FilePath}
  {rest : List FilePath} {visit : FilePath → VerificationReport → Task CasError VerificationReport}

lemma returns_look {α : Type} {op : Op} {f : Fs → Except IoError α} {a : α}
    (h : f s.fs = .ok a) : Returns noFault ((look op f).mapErr CasError.io : Task CasError α) s
      (.ok a) s := by
  have hwp : wp (.alone Op noFault) (fun r s' => r = .ok a ∧ s' = s)
      ((look op f).mapErr CasError.io : Task CasError α) s := by
    refine wp_mapErr (wp_alone_look ?_)
    rw [h]
    exact ⟨rfl, rfl⟩
  obtain ⟨_, _, hreturns, rfl, rfl⟩ := exists_returns exists_noFault hwp
  exact hreturns

variable (visit) in
lemma reaches_forEntriesOf (report : VerificationReport) (hdir : s.fs.isDir dir = true)
    (hfirst : order.iter (s.fs.children dir) = entry :: rest) :
    ∃ k, Reaches noFault (forEntriesOf order visit dir report) s (visit entry report >>= k) s := by
  have hread : s.fs.readDir order dir = .ok (entry :: rest) := by
    rw [Fs.readDir, if_pos hdir, hfirst]
  refine ⟨fun report => forEntries visit rest report, (returns_look hread).reaches_bind ?_⟩
  exact (returns_look (f := fun _ => .ok ()) rfl).reaches_bind .refl

variable (visit) in
lemma reaches_forSubdir (report : VerificationReport) (hdir : s.fs.isDir dir = true)
    (hfirst : order.iter (s.fs.children dir) = entry :: rest) :
    ∃ k, Reaches noFault (forSubdir order visit dir report) s (visit entry report >>= k) s := by
  obtain ⟨k, hk⟩ := reaches_forEntriesOf visit report hdir hfirst
  refine ⟨k, (returns_look (f := fun fs => .ok (fs.isDir dir)) rfl).reaches_bind ?_⟩
  rwa [if_pos hdir]

lemma exists_order (fs : Fs) (path : FilePath) : ∃ order : IterOrder FilePath,
    ∀ component p node, fs.nodes.lookup (component :: p) = some node → component :: p <:+ path →
      ∃ rest, order.iter (fs.children p) = (component :: p) :: rest := by
  obtain ⟨order, horder⟩ := IterOrder.exists_iter_first (· <:+ path)
  refine ⟨order, fun component p node hnode hsuffix =>
    horder _ _ (Fs.mem_children.mpr ⟨rfl, node, hnode⟩) hsuffix fun q hq hsuffix' => ?_⟩
  obtain ⟨hparent, node', hnode'⟩ := Fs.mem_children.mp hq
  cases q with
  | nil =>
    rw [fs.root_notMem] at hnode'
    cases hnode'
  | cons component' p' =>
    obtain rfl : p' = p := hparent
    exact (List.suffix_of_suffix_length_le hsuffix' hsuffix le_rfl).eq_of_length rfl

variable (store) in
/-- The walk comes to a file whose directories are visited first. -/
lemma reaches_verifyEntry {shard1 shard2 name : Text} {data : Bytes}
    (hdata : s.fs.content (name :: shard2 :: shard1 :: store.objectsDir) = some data) :
    ∃ order k, Reaches noFault (store.verifyObjects order) s (store.verifyEntry shard1 shard2
      (name :: shard2 :: shard1 :: store.objectsDir) .new >>= k) s := by
  obtain ⟨⟨ino, hlookup⟩, hdir2, hdir1⟩ := lookup_shards hdata
  obtain ⟨order, horder⟩ := exists_order s.fs (name :: shard2 :: shard1 :: store.objectsDir)
  obtain ⟨_, hfirst1⟩ := horder _ _ _ hdir1 ((List.suffix_cons ..).trans (List.suffix_cons ..))
  obtain ⟨_, hfirst2⟩ := horder _ _ _ hdir2 (List.suffix_cons ..)
  obtain ⟨_, hfirst3⟩ := horder _ _ _ hlookup (List.suffix_refl _)
  let inShard (shard1 : Text) : FilePath → VerificationReport → Task CasError VerificationReport :=
    fun shard2 => forSubdir order (store.verifyEntry shard1 (fileName shard2)) shard2
  obtain ⟨k₁, h₁⟩ := reaches_forEntriesOf (fun shard1 => forSubdir order (inShard (fileName shard1))
    shard1) .new (Fs.isDir_iff.mpr (s.fs.parent_dir hdir1)) hfirst1
  obtain ⟨k₂, h₂⟩ := reaches_forSubdir (inShard shard1) .new (Fs.isDir_iff.mpr (.inr hdir1)) hfirst2
  obtain ⟨k₃, h₃⟩ := reaches_forSubdir (store.verifyEntry shard1 shard2) .new
    (Fs.isDir_iff.mpr (.inr hdir2)) hfirst3
  have hreaches := h₁.trans ((h₂.bind k₁).trans ((h₃.bind k₂).bind k₁))
  rw [bind_assoc', bind_assoc'] at hreaches
  exact ⟨order, _, hreaches⟩

/-- A file whose hash a read finds somewhere passes. -/
lemma ensures_verifyEntry {shard1 shard2 : Text} {data data' : Bytes} {hash : ContentHash}
    (hentry : s.fs.content entry = some data)
    (hhex : ContentHash.fromHex (shard1 ++ shard2 ++ fileName entry) = some hash)
    (hfree : s.cacheStuck = false) (hfound : store.found s hash = some data')
    (htakes : store.Takes s hash data') (report : VerificationReport) :
    Ensures noFault (fun r _ => r = .ok report.verified)
      (store.verifyEntry shard1 shard2 entry report) s := by
  refine ensures_of_wp exists_noFault (wp_bind (wp_mapErr (wp_alone_look ?_)))
  rw [hentry]
  show wp _ _ (if true = true then _ else _) s
  rw [if_pos rfl, hhex]
  refine wp_bind (wp_attempt (wp_mono (wp_verifySingleObject hfree hfound htakes) ?_))
  rintro _ s' rfl
  exact rfl

/-- **A file that is not exposed can be passed over**: in some order the walk comes to it first, and
it passes whatever bytes it has. -/
theorem exists_passedOver (hfree : s.cacheStuck = false)
    (htakes : ∀ hash data, store.found s hash = some data → store.Takes s hash data)
    (h : ¬ store.Exposed s) : ∃ order shard1 shard2 name data hash k,
      store.TreeFile s.fs shard1 shard2 name data ∧
      ContentHash.fromHex (shard1 ++ shard2 ++ name) = some hash ∧ store.blake3 data ≠ hash ∧
      Reaches noFault (store.verifyObjects order) s (store.verifyEntry shard1 shard2
        (name :: shard2 :: shard1 :: store.objectsDir) .new >>= k) s ∧
      Ensures noFault (fun r _ => r = .ok (verified .new)) (store.verifyEntry shard1 shard2
        (name :: shard2 :: shard1 :: store.objectsDir) .new) s := by
  simp only [Exposed, not_forall] at h
  obtain ⟨shard1, shard2, name, data, hash, hfile, hhex, hne, hserved⟩ := h
  obtain ⟨order, k, hreaches⟩ := store.reaches_verifyEntry hfile.content
  obtain ⟨data', hfound⟩ : ∃ data', store.found s hash = some data' := by
    refine Option.isSome_iff_exists.mp (Option.isSome_iff_ne_none.mpr fun hnone => hserved ?_)
    unfold found at hnone
    split at hnone
    · cases hnone
    · next hcached =>
      split at hnone
      · cases hnone
      · next hpacked => exact ⟨hcached, hpacked, hnone⟩
  exact ⟨order, shard1, shard2, name, data, hash, k, hfile, hhex, hne, hreaches,
    ensures_verifyEntry hfile.content hhex hfree hfound (htakes hash data' hfound) .new⟩

end PassedOver

variable {s s₁ s' : StoreState} {order : IterOrder FilePath} {i : Io}
  {t : Task CasError VerificationReport} {report : VerificationReport}

variable (store order) in
lemma verifyIntegrity_eq : store.verifyIntegrity order = .act (.pathExists store.objectsDir)
    (fun _ => true) (fun _ s => s) fun i s =>
      if decide (i ≠ .fail) && s.fs.pathExists store.objectsDir then store.verifyObjects order
      else pure .empty := rfl

lemma step_verifyIntegrity_iff : Step (store.verifyIntegrity order) s i t s₁ ↔
    s₁ = s ∧ t = if decide (i ≠ .fail) && s.fs.pathExists store.objectsDir then
      store.verifyObjects order else pure .empty := by
  rw [verifyIntegrity_eq]
  constructor
  · intro hstep
    cases hstep with
    | act hready => exact ⟨rfl, rfl⟩
  · rintro ⟨rfl, rfl⟩
    exact .act rfl

lemma healthy_of_not_exists (h : s.fs.pathExists store.objectsDir = false) :
    store.Healthy s.fs := by
  intro shard1 shard2 name data hfile
  obtain ⟨-, -, hdir1⟩ := lookup_shards hfile.content
  have hexists : s.fs.pathExists store.objectsDir = true :=
    Fs.pathExists_iff.mpr ((s.fs.parent_dir hdir1).imp_right fun hdir => ⟨_, hdir⟩)
  rw [hexists] at h
  cases h

/-- **A healthy report means a healthy tree**, and every report adds up: whatever fails on the way,
unless it is the look whether there is a tree at all, and in whatever order directories are listed,
if the files that are not in order are exposed.

**Proof sketch.** The walk looks at every file. Nothing but what a read has found intact gets into
the cache on the way, so that the hash of a file that is not in order stays as it was: without
anything that a read of it could return. Such a file is counted as corrupted or as an error. -/
theorem verifyIntegrity_sound (store : ContentStore)
    (hstep : Step (store.verifyIntegrity order) s i t s₁)
    (hreturns : Returns (fun _ => True) t s₁ (.ok report) s') :
    report.Counted ∧
      (i ≠ .fail → store.Exposed s → report.isHealthy = true → store.Healthy s.fs) := by
  obtain ⟨rfl, rfl⟩ := step_verifyIntegrity_iff.mp hstep
  split at hreturns
  · have hserves : Visits s₁.fs (fun _ => False) (Looked store s₁.fs fun _ => False) .new
        (store.verifyObjects order) := visits_verifyObjects nofun order
    have hcounted := hserves.of_returns hreturns ⟨rfl, nofun⟩ report rfl
    refine ⟨hcounted.counted rfl, fun _ hexposed hhealthy => ?_⟩
    -- what the names of the files that are not in order complete to is not served
    let unserved : ContentHash → Prop := fun hash =>
      ∃ shard1 shard2 name data, store.TreeFile s₁.fs shard1 shard2 name data ∧
        ContentHash.fromHex (shard1 ++ shard2 ++ name) = some hash ∧ store.blake3 data ≠ hash
    have hvisits : Visits s₁.fs unserved (Looked store s₁.fs unserved) .new
        (store.verifyObjects order) := visits_verifyObjects
      (fun hash ⟨_, _, _, _, hfile, hhex, hne⟩ => (hexposed _ _ _ _ _ hfile hhex hne).2) order
    have hlooked := ((hvisits.of_returns hreturns ⟨rfl, fun hash ⟨_, _, _, _, hfile, hhex, hne⟩ =>
      (hexposed _ _ _ _ _ hfile hhex hne).1⟩ report rfl).healthy hhealthy).2
    intro shard1 shard2 name data hfile
    obtain ⟨hash, hhex, hserved⟩ := hlooked shard1 shard2 name data hfile.content
    have hhash : store.blake3 data = hash := by
      by_contra hne
      exact hserved ⟨shard1, shard2, name, data, hfile, hhex, hne⟩
    rw [hhex, hhash]
  · next hnot =>
    cases hreturns
    refine ⟨rfl, fun hi _ _ => healthy_of_not_exists ?_⟩
    rw [decide_eq_true hi, Bool.true_and] at hnot
    exact Bool.eq_false_iff.mpr hnot

/-! ## A byte -/

/-- A store and its state after a byte was written to it in a batch. -/
private def byteStore : ContentStore := default .blake3Sample .identity

private def written : StoreState :=
  match (byteStore.writeIndividualOptimized [1] (.blake3Sample [1])).runWith (.ok 0) 20
      (byteStore.opened .empty 0) with
  | some (_, s) => s
  | none => byteStore.opened .empty 0

private lemma files_written : ∀ p ∈ written.fs.nodes.keys, written.fs.content p ≠ none →
    p = byteStore.objectPath (.blake3Sample [1]) ∧ written.fs.content p = some [1] := by
  decide +kernel

private lemma exposed_written : byteStore.Exposed written := by
  intro shard1 shard2 name data hash hfile hhex hne
  have hcontent := hfile.content
  obtain ⟨⟨ino, hlookup⟩, -, -⟩ := lookup_shards hcontent
  have hmem := Finmap.mem_keys.mpr (Finmap.mem_iff.mpr ⟨_, hlookup⟩)
  obtain ⟨hpath, hbyte⟩ := files_written _ hmem (by rw [hcontent]; exact Option.some_ne_none _)
  simp only [objectPath, shardDir, List.cons.injEq, and_true] at hpath
  obtain ⟨rfl, rfl, rfl⟩ := hpath
  rw [hbyte] at hcontent
  obtain rfl := Option.some.inj hcontent
  refine absurd (Option.some.inj (Eq.trans ?_ hhex)) hne
  decide +kernel

/-- What a verification returns that finds everything in order. -/
private lemma exists_report {t : Task CasError VerificationReport} {s : StoreState}
    (h : (t.runWith (.ok 0) 20 s).map (fun out => out.1.toOption.map VerificationReport.isHealthy) =
      some (some true)) :
    ∃ report s', t.runWith (.ok 0) 20 s = some (.ok report, s') ∧ report.isHealthy = true := by
  obtain ⟨⟨r, s'⟩, hrun, hr⟩ := Option.map_eq_some_iff.mp h
  obtain ⟨report, hreport, hhealthy⟩ := Option.map_eq_some_iff.mp hr
  cases r with
  | error e => cases hreport
  | ok report' =>
    obtain rfl := Option.some.inj hreport
    exact ⟨report', s', hrun, hhealthy⟩

/-- The byte is verified. -/
theorem verifyIntegrity_sound_written : ∃ t report s',
    Step (byteStore.verifyIntegrity (.sorted _)) written (.ok 0) t written ∧
      Returns (fun _ => True) t written (.ok report) s' ∧ report.Counted ∧
      byteStore.Healthy written.fs := by
  have hexec : ((byteStore.verifyObjects (.sorted _)).runWith (.ok 0) 20 written).map
      (fun out => out.1.toOption.map VerificationReport.isHealthy) = some (some true) := by
    decide +kernel
  obtain ⟨report, s', hrun, hhealthy⟩ := exists_report hexec
  have hexists : written.fs.pathExists byteStore.objectsDir = true := by decide +kernel
  have hstep : Step (byteStore.verifyIntegrity (.sorted _)) written (.ok 0)
      (byteStore.verifyObjects (.sorted _)) written :=
    step_verifyIntegrity_iff.mpr ⟨rfl, by rw [hexists]; rfl⟩
  have hreturns := returns_of_runWith (A := fun _ => True) hrun trivial
  obtain ⟨hcounted, hsound⟩ := verifyIntegrity_sound byteStore hstep hreturns
  exact ⟨_, _, s', hstep, hreturns, hcounted, hsound nofun exposed_written hhealthy⟩

/-- The file of the byte is altered after it was put into the cache: the report is healthy. -/
theorem not_forall_healthy : ¬ ∀ (store : ContentStore) (order : IterOrder FilePath)
    (s s' : StoreState) (report : VerificationReport),
    Returns noFault (store.verifyIntegrity order) s (.ok report) s' → report.isHealthy = true →
      store.Healthy s.fs := by
  intro h
  have hexec : ((byteStore.verifyIntegrity (.sorted _)).runWith (.ok 0) 20
      { written with fs := written.fs.setData 0 [2] }).map
      (fun out => out.1.toOption.map VerificationReport.isHealthy) = some (some true) := by
    decide +kernel
  obtain ⟨report, s', hrun, hhealthy⟩ := exists_report hexec
  have hall := h byteStore (.sorted _) _ s' _ (returns_of_runWith hrun (by simp [noFault])) hhealthy
  have hhex := hall ((ContentHash.blake3Sample [1]).toHex.take 2)
    (((ContentHash.blake3Sample [1]).toHex.drop 2).take 2)
    ((ContentHash.blake3Sample [1]).toHex.drop 4) [2]
    ⟨by decide +kernel, by decide +kernel, by decide +kernel⟩
  revert hhex
  decide +kernel

end ContentStore

end Landropic.Cas
