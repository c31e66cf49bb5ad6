import Landropic.Daemon.BloomDiff

set_option autoImplicit false

/-!
# What a Bloom exchange misses

The receiver of a summary only looks up whether its own paths are in the filter of paths. So it does
not find files that only the sender has, nor files with other contents. The sync engine looks up the
hashes of contents as well, but not together with the paths.

## Main definitions

* `Daemon.processBloomDiffExchange` — the changes that the sync engine finds.
* `Daemon.DetectsDifferences` — an answer misses no difference of two manifests.

## Main results

* `Daemon.missesNothing_iff` — when an exchange misses nothing.
-/

namespace Landropic.Daemon

/-- The changes that the sync engine finds between its manifest and a summary. -/
def processBloomDiffExchange (hashing : BloomHashing) (localManifest : Manifest)
    (remoteSummary : ManifestSummary) : List FileChange :=
  (localManifest.files.filter fun file =>
    !remoteSummary.pathFilter.contains hashing file.path ||
      !remoteSummary.hashFilter.contains hashing file.contentHash).map fun file =>
    { path := file.path
      changeType := .added
      sourceEntry := none
      targetEntry := some file
      requiredChunks := [file.contentHash]
      transferSize := file.size.toNat }

/-- The paths of a manifest with the hashes of their contents. -/
def contents (manifest : Manifest) : List (Text × Text) :=
  manifest.files.map fun file => (file.path, file.contentHash)

/-- Two manifests differ on a path. -/
def Differ (localManifest remote : Manifest) (path : Text) : Prop :=
  ∃ hash, ¬ ((path, hash) ∈ contents localManifest ↔ (path, hash) ∈ contents remote)

/-- An answer to a summary misses no difference: if it says that there are none, the manifests have
the same contents, and otherwise it asks for every path on which they differ. -/
def DetectsDifferences (localManifest remote : Manifest) (requestId : Text)
    (answer : Option DiffProtocolMessage) : Prop :=
  (answer = some (.acknowledge requestId true (some "No differences found")) →
    ∀ entry, entry ∈ contents localManifest ↔ entry ∈ contents remote) ∧
  (answer ≠ some (.acknowledge requestId true (some "No differences found")) →
    ∃ suspected, answer = some (.requestDiffDetails suspected requestId) ∧
      ∀ path, Differ localManifest remote path → path ∈ suspected)

/-- The changes that are found include all contents that the other manifest does not have. -/
def ReportsAll (localManifest remote : Manifest) (changes : List FileChange) : Prop :=
  ∀ file ∈ localManifest.files, (file.path, file.contentHash) ∉ contents remote →
    ∃ change ∈ changes, change.path = file.path ∧ change.targetEntry = some file

/-- The filters of a summary give no false positives for the files of another manifest. -/
def NoFalsePositives (hashing : BloomHashing) (localManifest remote : Manifest)
    (summary : ManifestSummary) : Prop :=
  ∀ file ∈ localManifest.files,
    (summary.pathFilter.contains hashing file.path = true →
      file.path ∈ remote.files.map ManifestEntry.path) ∧
    (summary.hashFilter.contains hashing file.contentHash = true →
      file.contentHash ∈ remote.files.map ManifestEntry.contentHash)

section Exchange

variable {tools : DiffTools} {localManifest remote : Manifest} {deviceId requestId : Text}
  {rootPath : FilePath}

/-- The filters of a summary have no false negatives. -/
lemma contains_fromManifest {hashing : BloomHashing} {file : ManifestEntry}
    (hnone : NoFalsePositives hashing localManifest remote
      (.fromManifest hashing remote deviceId rootPath)) (hfile : file ∈ localManifest.files) :
    ((ManifestSummary.fromManifest hashing remote deviceId rootPath).pathFilter.contains hashing
        file.path = true ↔ file.path ∈ remote.files.map ManifestEntry.path) ∧
    ((ManifestSummary.fromManifest hashing remote deviceId rootPath).hashFilter.contains hashing
        file.contentHash = true ↔
      file.contentHash ∈ remote.files.map ManifestEntry.contentHash) := by
  have hpos : 0 < max remote.files.length 100 := by omega
  exact ⟨⟨(hnone file hfile).1, BloomFilter.contains_of_mem (BloomFilter.sound_new hpos)⟩,
    ⟨(hnone file hfile).2, BloomFilter.contains_of_mem (BloomFilter.sound_new hpos)⟩⟩

/-- The paths that are suspected are those that the other manifest does not have. -/
lemma mem_suspectedPaths
    (hnone : NoFalsePositives tools.toBloomHashing localManifest remote
      (.fromManifest tools.toBloomHashing remote deviceId rootPath)) {path : Text} :
    path ∈ DiffProtocolHandler.suspectedPaths tools localManifest
        (.fromManifest tools.toBloomHashing remote deviceId rootPath) ↔
      path ∈ localManifest.files.map ManifestEntry.path ∧
        path ∉ remote.files.map ManifestEntry.path := by
  rw [DiffProtocolHandler.suspectedPaths, List.mem_filter]
  refine and_congr_right fun hpath => ?_
  obtain ⟨file, hfile, rfl⟩ := List.mem_map.mp hpath
  rw [← (contains_fromManifest hnone hfile).1]
  simp

lemma mem_paths {manifest : Manifest} {path : Text} :
    path ∈ manifest.files.map ManifestEntry.path ↔ ∃ hash, (path, hash) ∈ contents manifest := by
  simp only [contents, List.mem_map, Prod.mk.injEq]
  constructor
  · rintro ⟨file, hfile, rfl⟩
    exact ⟨_, file, hfile, rfl, rfl⟩
  · rintro ⟨hash, file, hfile, rfl, -⟩
    exact ⟨file, hfile, rfl⟩

/-- An answer misses nothing if all paths that differ are suspected. -/
lemma detectsDifferences_iff {handler : DiffProtocolHandler} {summary : ManifestSummary}
    (hlocal : handler.manifests.lookup summary.rootPath = some localManifest) :
    DetectsDifferences localManifest remote requestId
        (handler.handleSummaryResponse tools summary requestId).1 ↔
      ∀ path, Differ localManifest remote path →
        path ∈ DiffProtocolHandler.suspectedPaths tools localManifest summary := by
  have hanswer : (handler.handleSummaryResponse tools summary requestId).1 =
      if DiffProtocolHandler.suspectedPaths tools localManifest summary ≠ [] then
        some (.requestDiffDetails
          (DiffProtocolHandler.suspectedPaths tools localManifest summary) requestId)
      else some (.acknowledge requestId true (some "No differences found")) := by
    unfold DiffProtocolHandler.handleSummaryResponse
    rw [hlocal]
    dsimp only
    split <;> rfl
  rw [hanswer, DetectsDifferences]
  split
  · constructor
    · rintro ⟨-, hdetects⟩
      obtain ⟨suspected, hsuspected, hall⟩ := hdetects (by simp)
      injection Option.some.inj hsuspected with hsame
      rw [hsame]
      exact hall
    · intro hall
      refine ⟨fun h => ?_, fun _ => ⟨_, rfl, hall⟩⟩
      cases Option.some.inj h
  · next hempty =>
    rw [not_not.mp hempty]
    constructor
    · rintro ⟨hsame, -⟩ path ⟨hash, hdiffer⟩
      exact absurd (hsame rfl (path, hash)) hdiffer
    · intro hall
      refine ⟨fun _ entry => by_contra fun hdiffer => ?_, fun h => absurd rfl h⟩
      exact List.not_mem_nil (hall entry.1 ⟨entry.2, hdiffer⟩)

/-- **When a Bloom exchange misses nothing.** An answer to a summary misses no difference if all
files of the summarized manifest are in the manifest of the receiver, with the same contents, and
the other way round for the paths that both have. The sync engine misses none of its files if it has
none whose path and contents are both in the other manifest, but not together.

**Proof sketch.** The filters have no false negatives, so the suspected paths are those that the
other manifest does not have, and the reported files those whose path or whose contents it does not
have. -/
theorem missesNothing_iff {handler : DiffProtocolHandler}
    (hlocal : handler.manifests.lookup rootPath = some localManifest)
    (hnone : NoFalsePositives tools.toBloomHashing localManifest remote
      (.fromManifest tools.toBloomHashing remote deviceId rootPath)) :
    (DetectsDifferences localManifest remote requestId
        (handler.handleSummaryResponse tools
          (.fromManifest tools.toBloomHashing remote deviceId rootPath) requestId).1 ↔
      (∀ entry ∈ contents remote, entry ∈ contents localManifest) ∧
        ∀ entry ∈ contents localManifest, entry.1 ∈ remote.files.map ManifestEntry.path →
          entry ∈ contents remote) ∧
    (ReportsAll localManifest remote (processBloomDiffExchange tools.toBloomHashing localManifest
        (.fromManifest tools.toBloomHashing remote deviceId rootPath)) ↔
      ∀ file ∈ localManifest.files, file.path ∈ remote.files.map ManifestEntry.path →
        file.contentHash ∈ remote.files.map ManifestEntry.contentHash →
          (file.path, file.contentHash) ∈ contents remote) := by
  constructor
  · rw [detectsDifferences_iff hlocal]
    simp only [mem_suspectedPaths hnone]
    constructor
    · intro hall
      refine ⟨fun entry hentry => by_contra fun hmissing => ?_,
        fun entry hentry hpath => by_contra fun hmissing => ?_⟩
      · refine (hall entry.1 ⟨entry.2, fun h => hmissing (h.mpr hentry)⟩).2 ?_
        exact mem_paths.mpr ⟨entry.2, hentry⟩
      · exact (hall entry.1 ⟨entry.2, fun h => hmissing (h.mp hentry)⟩).2 hpath
    · rintro ⟨hremote, hshared⟩ path ⟨hash, hdiffer⟩
      have hlocalEntry : (path, hash) ∈ contents localManifest := by
        by_contra hmissing
        exact hdiffer (iff_of_false hmissing fun h => hmissing (hremote _ h))
      have hremoteEntry : (path, hash) ∉ contents remote := fun h =>
        hdiffer (iff_of_true hlocalEntry h)
      exact ⟨mem_paths.mpr ⟨hash, hlocalEntry⟩, fun h =>
        hremoteEntry (hshared _ hlocalEntry h)⟩
  · refine forall₂_congr fun file hfile => ?_
    obtain ⟨hpath, hhash⟩ := contains_fromManifest hnone hfile
    rw [← hpath, ← hhash]
    constructor
    · intro hreport hinPath hinHash
      by_contra hmissing
      obtain ⟨change, hchange, -, htarget⟩ := hreport hmissing
      obtain ⟨other, hother, rfl⟩ := List.mem_map.mp hchange
      obtain rfl := Option.some.inj htarget
      have hfilter := (List.mem_filter.mp hother).2
      rw [hinPath, hinHash] at hfilter
      cases hfilter
    · intro hshared hmissing
      refine ⟨_, List.mem_map.mpr ⟨file, List.mem_filter.mpr ⟨hfile, ?_⟩, rfl⟩, rfl, rfl⟩
      by_contra hfilter
      simp only [Bool.or_eq_true, Bool.not_eq_true', not_or, Bool.not_eq_false] at hfilter
      exact hmissing (hshared hfilter.1 hfilter.2)

end Exchange

/-- Some tools, with the numbers of bits and of hash functions that filters really have. -/
def sampleTools : DiffTools where
  hash seed text := (text.foldl (fun sum c => 31 * sum + c.toNat) (seed + 7)) % 2 ^ 64
  optimalNumBits n := n * 959 / 100
  optimalNumHashes _ _ := 7
  optimalNumBits_pos h := by omega
  manifestSize manifest := 64 + 256 * manifest.files.length
  summarySize _ := 512

/-- A manifest with some files of given paths and contents. -/
def sampleManifest (files : List (Text × Text)) : Manifest where
  folderId := ['f']
  version := 1
  files := files.map fun file =>
    { path := file.1
      size := 1
      modifiedAt := ⟨0, 0⟩
      contentHash := file.2
      chunkHashes := []
      mode := none }
  createdAt := ⟨0, 0⟩
  manifestHash := none

/-- A handler that has started a diff. -/
def sampleHandler (localManifest : Manifest) : DiffProtocolHandler :=
  ((DiffProtocolHandler.new ['l']).startDiff 0 ['r'] [['t']] localManifest).2

/-- Tools with the real hashes of three texts. -/
private def sipTools : DiffTools :=
  { sampleTools with
    hash := fun seed text =>
      (if text = ['a'] then
        [6318435845428734789, 5410347896352213204, 17038638074830035545, 638302504938049047,
         10961760307327060174, 14102962710213271637, 9045061914222175838]
      else if text = ['b'] then
        [4378888527175401634, 12375114349743400570, 4780140700902233346, 12241774622513042673,
         16489211777958920316, 9662102710834310100, 10635701992182496394]
      else if text = ['h'] then
        [16455044941423608097, 18438245618171194261, 15793623336461556826, 9966917140110857879,
         15404381842229257944, 8469415810014686951, 4844891787793273188]
      else []).getD seed 0 }

/-- A folder with a file. -/
private def remoteFiles : Manifest := sampleManifest [(['a'], ['h'])]

/-- The folder with another file of the same contents. -/
private def localFiles : Manifest := sampleManifest [(['a'], ['h']), (['b'], ['h'])]

/-- A file that only the receiver has is found in both ways. -/
theorem missesNothing_localOnly :
    ¬ (∀ entry, entry ∈ contents localFiles ↔ entry ∈ contents remoteFiles) ∧
    DetectsDifferences localFiles remoteFiles ['1']
      ((sampleHandler localFiles).handleSummaryResponse sipTools
        (.fromManifest sipTools.toBloomHashing remoteFiles ['r'] [['t']]) ['1']).1 ∧
    ReportsAll localFiles remoteFiles (processBloomDiffExchange sipTools.toBloomHashing localFiles
      (.fromManifest sipTools.toBloomHashing remoteFiles ['r'] [['t']])) := by
  have hnone : NoFalsePositives sipTools.toBloomHashing localFiles remoteFiles
      (.fromManifest sipTools.toBloomHashing remoteFiles ['r'] [['t']]) := by
    unfold NoFalsePositives
    decide +kernel
  have hlocal : (sampleHandler localFiles).manifests.lookup [['t']] = some localFiles :=
    Finmap.lookup_insert _
  obtain ⟨hdetects, hreports⟩ := @missesNothing_iff _ _ _ _ ['1'] _ _ hlocal hnone
  refine ⟨fun hsame => ?_, hdetects.mpr (by decide), hreports.mpr (by decide)⟩
  have hnew := (hsame (['b'], ['h'])).mp (by decide)
  exact absurd hnew (by decide)

/-- **A file that only the other device has** is not found. -/
theorem not_missesNothing_remoteOnly :
    ¬ ∀ (tools : DiffTools) (handler : DiffProtocolHandler) (localManifest remote : Manifest)
        (deviceId requestId : Text) (rootPath : FilePath),
      handler.manifests.lookup rootPath = some localManifest →
      NoFalsePositives tools.toBloomHashing localManifest remote
        (.fromManifest tools.toBloomHashing remote deviceId rootPath) →
      DetectsDifferences localManifest remote requestId
          (handler.handleSummaryResponse tools
            (.fromManifest tools.toBloomHashing remote deviceId rootPath) requestId).1 ∧
        ReportsAll localManifest remote (processBloomDiffExchange tools.toBloomHashing localManifest
          (.fromManifest tools.toBloomHashing remote deviceId rootPath)) := by
  intro hall
  have hanswer := hall sipTools (sampleHandler (sampleManifest [])) (sampleManifest [])
    (sampleManifest [(['b'], ['h'])]) ['r'] ['1'] [['t']] (Finmap.lookup_insert _) nofun
  have hsame := hanswer.1.1 (by
    unfold DiffProtocolHandler.handleSummaryResponse
    rw [show (sampleHandler (sampleManifest [])).manifests.lookup
      (ManifestSummary.fromManifest sipTools.toBloomHashing (sampleManifest [(['b'], ['h'])])
        ['r'] [['t']]).rootPath = some (sampleManifest []) from Finmap.lookup_insert _]
    rfl) (['b'], ['h'])
  revert hsame
  decide

end Landropic.Daemon
