import Landropic.Daemon.BloomExchange
import Landropic.Daemon.StoredFilters

set_option autoImplicit false

/-!
# Summaries from the network

The filters of a summary that a peer has sent consist of numbers and bytes that need not fit
together. Nobody checks them before local files are looked up.

## Main definitions

* `Daemon.ReceivedSummary` — a summary as it is received.
* `Daemon.ReceivedSummary.handleSummaryResponse`, `processBloomDiffExchange` — how it is handled,
  with the panics of the look-ups.
* `Daemon.StoredFilter.InRange` — looking an item up stays within the bytes of a filter.
* `Daemon.Survives` — a calculation neither divides by zero nor indexes out of range.

## Main results

* `Daemon.ReceivedSummary.handleSummaryResponse_eq`, `processBloomDiffExchange_eq` — the handling
  without panics.
* `Daemon.ReceivedSummary.survives_handling_iff` — which summaries are handled without them.

## Design

The summary of the local manifest, of which a similarity is logged, is left out: it does not depend
on the peer.
-/

namespace Landropic.Daemon

/-- A calculation neither divides by zero nor indexes out of range. -/
def Survives {α : Type} (result : Except Panic α) : Prop :=
  result ≠ .error .divisionByZero ∧ result ≠ .error .outOfRange

namespace Survives

variable {α β : Type}

lemma ok (a : α) : Survives (.ok a) := ⟨nofun, nofun⟩

lemma bind_iff {x : Except Panic α} {f : α → Except Panic β} :
    Survives (x >>= f) ↔ Survives x ∧ ∀ a, x = .ok a → Survives (f a) := by
  cases x with
  | error e => simp [Survives]
  | ok a => simp [Survives]

end Survives

/-- A manifest summary that a peer has sent. -/
structure ReceivedSummary where
  deviceId : Text
  rootPath : FilePath
  pathFilter : StoredFilter
  hashFilter : StoredFilter
  fileCount : UInt64
  totalSize : UInt64

/-- The files that pass a check, which may panic. -/
def filterFiles (check : ManifestEntry → Except Panic Bool) :
    List ManifestEntry → Except Panic (List ManifestEntry)
  | [] => .ok []
  | file :: rest => do
    let kept ← check file
    let others ← filterFiles check rest
    .ok (if kept then file :: others else others)

namespace ReceivedSummary

/-- The summary with its filters as lists of bits. -/
def view (summary : ReceivedSummary) : ManifestSummary where
  deviceId := summary.deviceId
  rootPath := summary.rootPath
  pathFilter := summary.pathFilter.view
  hashFilter := summary.hashFilter.view
  fileCount := summary.fileCount.toNat
  totalSize := summary.totalSize

section Handling

variable (hash : ItemHash) (tools : DiffTools) (handler : DiffProtocolHandler)
  (localManifest : Manifest) (summary : ReceivedSummary)

/-- A file is suspected if the filter does not contain its path. -/
def isSuspected (file : ManifestEntry) : Except Panic Bool := do
  let found ← summary.pathFilter.contains hash file.path
  .ok (!found)

/-- Handle summary response. -/
def handleSummaryResponse (requestId : Text) :
    Except Panic (Option DiffProtocolMessage × DiffProtocolHandler) :=
  -- store remote summary, and update progress
  let stored := { handler with
    summaries := handler.summaries.insert summary.deviceId summary.view
    progress := handler.progress.modify summary.deviceId fun progress =>
      { progress with stage := .comparingManifests, progressPercent := 25 } }
  -- compare with local manifest
  match handler.manifests.lookup summary.rootPath with
  | none => .ok (none, stored)
  | some localManifest => do
    let suspectedFiles ← filterFiles (summary.isSuspected hash) localManifest.files
    let suspected := suspectedFiles.map ManifestEntry.path
    let compared := { stored with
      progress := stored.progress.modify summary.deviceId fun progress =>
        { progress with
          bytesSaved := tools.manifestSize localManifest - tools.summarySize summary.view
          differencesFound := suspected.length } }
    if suspected ≠ [] then .ok (some (.requestDiffDetails suspected requestId), compared)
    else .ok (some (.acknowledge requestId true (some "No differences found")), compared)

/-- A file likely needs to be transferred if its path or its contents are not in the filters, both
of which are looked at. -/
def mightBeMissing (file : ManifestEntry) : Except Panic Bool := do
  let mightExistRemote ← summary.pathFilter.contains hash file.path
  let hashMightExist ← summary.hashFilter.contains hash file.contentHash
  .ok (!mightExistRemote || !hashMightExist)

/-- The changes that the sync engine finds between its manifest and a summary. -/
def processBloomDiffExchange : Except Panic (List FileChange) := do
  let files ← filterFiles (summary.mightBeMissing hash) localManifest.files
  .ok (files.map fun file =>
    { path := file.path
      changeType := .added
      sourceEntry := none
      targetEntry := some file
      requiredChunks := [file.contentHash]
      transferSize := file.size.toNat })

end Handling

end ReceivedSummary

/-! ## Look-ups -/

namespace StoredFilter

section InRange

variable {hash : ItemHash} {filter : StoredFilter} {item : Text}

/-- Looking an item up stays within the bytes of a filter: as long as the bits before were set,
there is a byte with the next one. -/
def InRange (hash : ItemHash) (filter : StoredFilter) (item : Text) : Prop :=
  ∀ i < filter.numHashes.toNat,
    (∀ j < i, isSet filter.bits (filter.position hash item j) = true) →
      filter.numBits ≠ 0 ∧ bytePos (filter.position hash item i) < filter.bits.length

lemma exists_testBits_of_survives {seeds : List ℕ}
    (h : Survives (filter.testBits hash item seeds)) :
    ∃ found, filter.testBits hash item seeds = .ok found := by
  induction seeds with
  | nil => exact ⟨true, rfl⟩
  | cons i seeds ih =>
    rw [testBits, bitPos] at h ⊢
    split_ifs at h ⊢ with hzero
    · exact absurd rfl h.1
    rw [Except.ok_bind] at h ⊢
    by_cases hlt : bytePos (filter.position hash item i) < filter.bits.length
    · rw [byteAt_of_lt hlt, Except.ok_bind] at h ⊢
      split_ifs at h ⊢
      · exact ⟨false, rfl⟩
      · exact ih h
    · rw [byteAt_of_le (not_lt.mp hlt)] at h
      exact absurd rfl h.2

/-- **Testing a bit**: it has to be there, and if it is set, so do those that follow. -/
lemma exists_testBits_cons {i : ℕ} {seeds : List ℕ} :
    (∃ found, filter.testBits hash item (i :: seeds) = .ok found) ↔
      (filter.numBits ≠ 0 ∧ bytePos (filter.position hash item i) < filter.bits.length) ∧
        (isSet filter.bits (filter.position hash item i) = true →
          ∃ found, filter.testBits hash item seeds = .ok found) := by
  rw [testBits, bitPos]
  by_cases hzero : filter.numBits = 0
  · rw [if_pos hzero]
    exact iff_of_false (by rintro ⟨found, ⟨⟩⟩) fun h => h.1.1 hzero
  rw [if_neg hzero, Except.ok_bind]
  by_cases hlt : bytePos (filter.position hash item i) < filter.bits.length
  · rw [byteAt_of_lt hlt, Except.ok_bind, isSet]
    split_ifs with hclear
    · exact iff_of_true ⟨false, rfl⟩
        ⟨⟨hzero, hlt⟩, fun hset => absurd hclear (of_decide_eq_true hset)⟩
    · exact ⟨fun h => ⟨⟨hzero, hlt⟩, fun _ => h⟩, fun h => h.2 (decide_eq_true hclear)⟩
  · rw [byteAt_of_le (not_lt.mp hlt)]
    exact iff_of_false (by rintro ⟨found, ⟨⟩⟩) fun h => hlt h.1.2

/-- The bits for some seeds on end can be tested. -/
lemma exists_testBits_iff (start n : ℕ) :
    (∃ found, filter.testBits hash item (List.range' start n) = .ok found) ↔
      ∀ i < n, (∀ j < i, isSet filter.bits (filter.position hash item (start + j)) = true) →
        filter.numBits ≠ 0 ∧
          bytePos (filter.position hash item (start + i)) < filter.bits.length := by
  induction n generalizing start with
  | zero => simp [testBits]
  | succ n ih =>
    have hnext (i : ℕ) : start + 1 + i = start + (i + 1) := by omega
    rw [List.range'_succ, exists_testBits_cons, ih]
    constructor
    · rintro ⟨hfirst, hrest⟩ i hi hset
      cases i with
      | zero => exact hfirst
      | succ i =>
        have hlater := hrest (hset 0 (by omega)) i (by omega) fun j hj => by
          rw [hnext]
          exact hset (j + 1) (by omega)
        rwa [hnext] at hlater
    · intro h
      refine ⟨h 0 (by omega) (by rintro j ⟨⟩), fun hfirst i hi hset => ?_⟩
      rw [hnext]
      refine h (i + 1) (by omega) fun j hj => ?_
      cases j with
      | zero => exact hfirst
      | succ j => exact hnext j ▸ hset j (by omega)

/-- **A look-up does not panic** if it stays in range. -/
theorem exists_contains_iff :
    (∃ found, filter.contains hash item = .ok found) ↔ filter.InRange hash item := by
  rw [contains, List.range_eq_range', exists_testBits_iff]
  simp only [Nat.zero_add, InRange]

lemma inRange_of_numHashes_eq_zero (h : filter.numHashes = 0) : filter.InRange hash item := by
  intro i hi
  simp [h] at hi

lemma inRange_of_numBits_le (hpos : filter.numBits ≠ 0)
    (hle : filter.numBits.toNat ≤ 8 * filter.bits.length) : filter.InRange hash item := by
  intro i _ _
  have hlt : (filter.position hash item i).toNat < filter.numBits.toNat := by
    rw [position, UInt64.toNat_mod]
    exact Nat.mod_lt _ (Nat.pos_of_ne_zero fun h => hpos (UInt64.toNat_inj.mp h))
  refine ⟨hpos, ?_⟩
  rw [bytePos, UInt64.toNat_div, Nat.div_lt_iff_lt_mul (by decide)]
  exact (hlt.trans_le hle).trans_eq (Nat.mul_comm _ _)

end InRange

end StoredFilter

/-! ## Handling a summary -/

section Filter

variable {check : ManifestEntry → Except Panic Bool} {files : List ManifestEntry}

lemma filterFiles_eq_ok {passes : ManifestEntry → Bool}
    (h : ∀ file ∈ files, check file = .ok (passes file)) :
    filterFiles check files = .ok (files.filter passes) := by
  induction files with
  | nil => rfl
  | cons file rest ih =>
    obtain ⟨hfile, hrest⟩ := List.forall_mem_cons.mp h
    rw [filterFiles, hfile, Except.ok_bind, ih hrest, Except.ok_bind, List.filter_cons]

lemma survives_filterFiles_iff
    (hcheck : ∀ file ∈ files, Survives (check file) → ∃ passes, check file = .ok passes) :
    Survives (filterFiles check files) ↔ ∀ file ∈ files, Survives (check file) := by
  induction files with
  | nil => exact iff_of_true (.ok []) (by simp)
  | cons file rest ih =>
    obtain ⟨hfile, hrest⟩ := List.forall_mem_cons.mp hcheck
    rw [filterFiles, List.forall_mem_cons, ← ih hrest, Survives.bind_iff]
    refine and_congr_right fun hsurvives => ?_
    obtain ⟨passes, hok⟩ := hfile hsurvives
    constructor
    · exact fun h => (Survives.bind_iff.mp (h passes hok)).1
    · exact fun h _ _ => Survives.bind_iff.mpr ⟨h, fun others _ => .ok _⟩

end Filter

namespace StoredFilter

variable {hash : ItemHash} {filter : StoredFilter} {item : Text}

/-- **A look-up survives** if it stays in range. -/
lemma survives_contains_iff :
    Survives (filter.contains hash item) ↔ filter.InRange hash item := by
  rw [← exists_contains_iff]
  refine ⟨exists_testBits_of_survives, ?_⟩
  rintro ⟨found, hfound⟩
  rw [hfound]
  exact .ok found

end StoredFilter

namespace ReceivedSummary

section Survives

variable {hash : ItemHash} {tools : DiffTools} {handler : DiffProtocolHandler}
  {localManifest : Manifest} {summary : ReceivedSummary} {requestId : Text} {file : ManifestEntry}

lemma exists_isSuspected (h : summary.pathFilter.InRange hash file.path) :
    ∃ suspected, summary.isSuspected hash file = .ok suspected := by
  obtain ⟨found, hfound⟩ := StoredFilter.exists_contains_iff.mpr h
  exact ⟨!found, by rw [isSuspected, hfound, Except.ok_bind]⟩

lemma survives_isSuspected_iff :
    Survives (summary.isSuspected hash file) ↔ summary.pathFilter.InRange hash file.path := by
  rw [isSuspected, Survives.bind_iff, StoredFilter.survives_contains_iff]
  exact and_iff_left fun found _ => .ok _

lemma exists_mightBeMissing (h : summary.pathFilter.InRange hash file.path)
    (h' : summary.hashFilter.InRange hash file.contentHash) :
    ∃ missing, summary.mightBeMissing hash file = .ok missing := by
  obtain ⟨found, hfound⟩ := StoredFilter.exists_contains_iff.mpr h
  obtain ⟨found', hfound'⟩ := StoredFilter.exists_contains_iff.mpr h'
  exact ⟨!found || !found', by rw [mightBeMissing, hfound, Except.ok_bind, hfound', Except.ok_bind]⟩

lemma survives_mightBeMissing_iff : Survives (summary.mightBeMissing hash file) ↔
    summary.pathFilter.InRange hash file.path ∧
      summary.hashFilter.InRange hash file.contentHash := by
  rw [mightBeMissing, Survives.bind_iff, StoredFilter.survives_contains_iff]
  refine and_congr_right fun hpath => ?_
  obtain ⟨found, hfound⟩ := StoredFilter.exists_contains_iff.mpr hpath
  constructor
  · intro h
    exact StoredFilter.survives_contains_iff.mp (Survives.bind_iff.mp (h found hfound)).1
  · exact fun h _ _ => Survives.bind_iff.mpr
      ⟨StoredFilter.survives_contains_iff.mpr h, fun _ _ => .ok _⟩

/-- **Handling a response without panics** is what it is with filters as lists of bits. -/
theorem handleSummaryResponse_eq (hhash : StoredFilter.Hashes hash tools.toBloomHashing)
    (h : ∀ manifest, handler.manifests.lookup summary.rootPath = some manifest →
      ∀ file ∈ manifest.files, summary.pathFilter.InRange hash file.path) :
    handleSummaryResponse hash tools handler summary requestId =
      .ok (handler.handleSummaryResponse tools summary.view requestId) := by
  unfold handleSummaryResponse DiffProtocolHandler.handleSummaryResponse
  rw [show summary.view.rootPath = summary.rootPath from rfl]
  cases hlookup : handler.manifests.lookup summary.rootPath with
  | none => rfl
  | some manifest =>
    have hfiles : filterFiles (summary.isSuspected hash) manifest.files =
        .ok (manifest.files.filter fun file =>
          !summary.view.pathFilter.contains tools.toBloomHashing file.path) := by
      refine filterFiles_eq_ok fun file hfile => ?_
      obtain ⟨found, hfound⟩ := StoredFilter.exists_contains_iff.mpr (h manifest hlookup file hfile)
      rw [isSuspected, hfound, Except.ok_bind]
      rw [show summary.view.pathFilter.contains tools.toBloomHashing file.path = found from
        StoredFilter.contains_eq hhash hfound]
    have hsuspected : DiffProtocolHandler.suspectedPaths tools manifest summary.view =
        (manifest.files.filter fun file =>
          !summary.view.pathFilter.contains tools.toBloomHashing file.path).map
            ManifestEntry.path := by
      rw [DiffProtocolHandler.suspectedPaths, List.filter_map]
      rfl
    dsimp only
    rw [hfiles, Except.ok_bind, hsuspected]
    split <;> rfl

/-- **The changes that are found without panics** are those with filters as lists of bits. -/
theorem processBloomDiffExchange_eq {hashing : BloomHashing}
    (hhash : StoredFilter.Hashes hash hashing)
    (h : ∀ file ∈ localManifest.files, summary.pathFilter.InRange hash file.path ∧
      summary.hashFilter.InRange hash file.contentHash) :
    processBloomDiffExchange hash localManifest summary =
      .ok (Daemon.processBloomDiffExchange hashing localManifest summary.view) := by
  have hfiles : filterFiles (summary.mightBeMissing hash) localManifest.files =
      .ok (localManifest.files.filter fun file =>
        !summary.view.pathFilter.contains hashing file.path ||
          !summary.view.hashFilter.contains hashing file.contentHash) := by
    refine filterFiles_eq_ok fun file hfile => ?_
    obtain ⟨hpath, hcontents⟩ := h file hfile
    obtain ⟨found, hfound⟩ := StoredFilter.exists_contains_iff.mpr hpath
    obtain ⟨found', hfound'⟩ := StoredFilter.exists_contains_iff.mpr hcontents
    rw [mightBeMissing, hfound, Except.ok_bind, hfound', Except.ok_bind,
      show summary.view.pathFilter.contains hashing file.path = found from
        StoredFilter.contains_eq hhash hfound,
      show summary.view.hashFilter.contains hashing file.contentHash = found' from
        StoredFilter.contains_eq hhash hfound']
  rw [processBloomDiffExchange, hfiles]
  rfl

variable (hash tools handler localManifest summary requestId) in
/-- **Which summaries are handled without a division by zero or an index out of range**: those where
looking up the local files stays within the bytes of the filters. -/
theorem survives_handling_iff :
    (Survives (handleSummaryResponse hash tools handler summary requestId) ∧
        Survives (processBloomDiffExchange hash localManifest summary)) ↔
      (∀ manifest, handler.manifests.lookup summary.rootPath = some manifest →
        ∀ file ∈ manifest.files, summary.pathFilter.InRange hash file.path) ∧
      ∀ file ∈ localManifest.files, summary.pathFilter.InRange hash file.path ∧
        summary.hashFilter.InRange hash file.contentHash := by
  refine and_congr ?_ ?_
  · rw [handleSummaryResponse]
    cases handler.manifests.lookup summary.rootPath with
    | none => exact iff_of_true (.ok _) nofun
    | some manifest =>
      dsimp only
      rw [Survives.bind_iff, survives_filterFiles_iff fun file _ h =>
        exists_isSuspected (survives_isSuspected_iff.mp h)]
      simp only [survives_isSuspected_iff, Option.some.injEq, forall_eq']
      refine and_iff_left fun files _ => ?_
      split
      · exact .ok _
      · exact .ok _
  · rw [processBloomDiffExchange, Survives.bind_iff, survives_filterFiles_iff fun file _ h =>
      exists_mightBeMissing (survives_mightBeMissing_iff.mp h).1
        (survives_mightBeMissing_iff.mp h).2]
    simp only [survives_mightBeMissing_iff]
    exact and_iff_left fun files _ => .ok _

end Survives

/-- A filter whose eight bits are all set. -/
private def eightBits : StoredFilter := ⟨[255], 8, 1, 1⟩

private lemma inRange_eightBits (item : Text) : eightBits.InRange (fun _ _ => 0) item :=
  StoredFilter.inRange_of_numBits_le (by decide) (by decide)

/-- A summary with such filters, and a folder with one file. -/
theorem handleSummaryResponse_eightBits :
    handleSummaryResponse (fun _ _ => 0) { sampleTools with hash := fun _ _ => 0 }
        (sampleHandler (sampleManifest [(['a'], ['h'])]))
        ⟨['r'], [['t']], eightBits, eightBits, 1, 1⟩ ['1'] =
      .ok ((sampleHandler (sampleManifest [(['a'], ['h'])])).handleSummaryResponse
        { sampleTools with hash := fun _ _ => 0 }
        ⟨['r'], [['t']], eightBits.view, eightBits.view, 1, 1⟩ ['1']) :=
  handleSummaryResponse_eq (fun _ _ => rfl) fun _ _ _ _ => inRange_eightBits _

theorem processBloomDiffExchange_eightBits :
    processBloomDiffExchange (fun _ _ => 0) (sampleManifest [(['a'], ['h'])])
        ⟨['r'], [['t']], eightBits, eightBits, 1, 1⟩ =
      .ok (Daemon.processBloomDiffExchange { sampleTools with hash := fun _ _ => 0 }
        (sampleManifest [(['a'], ['h'])])
        ⟨['r'], [['t']], eightBits.view, eightBits.view, 1, 1⟩) :=
  processBloomDiffExchange_eq (fun _ _ => rfl) fun _ _ =>
    ⟨inRange_eightBits _, inRange_eightBits _⟩

/-- **A filter without bits**: looking up a file divides by zero. -/
theorem not_survives_noBits : ¬ ∀ (hash : ItemHash) (tools : DiffTools)
    (handler : DiffProtocolHandler) (localManifest : Manifest) (summary : ReceivedSummary)
    (requestId : Text), Survives (handleSummaryResponse hash tools handler summary requestId) ∧
      Survives (processBloomDiffExchange hash localManifest summary) := by
  intro hall
  refine (hall (fun _ _ => 0) sampleTools (.new ['l']) (sampleManifest [(['a'], ['h'])])
    ⟨['r'], [['t']], ⟨[], 0, 1, 0⟩, ⟨[], 0, 1, 0⟩, 1, 1⟩ ['1']).2.1 ?_
  rfl

end ReceivedSummary

end Landropic.Daemon
