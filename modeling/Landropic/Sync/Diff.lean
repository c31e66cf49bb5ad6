import Mathlib.Data.Nat.Log
import Landropic.Foundations.Result
import Landropic.Index.Manifest

set_option autoImplicit false

/-!
# Differences of manifests

The changes that turn a source manifest into a target manifest, and the chunks they need.

## Main definitions

* `FileChange`, `DiffResult` — a change, and all of them.
* `DiffComputer.computeDiff` — the diff of two manifests.
* `IncrementalDiff.computeIncremental` — the diff against a peer's manifest.
* `DiffComputer.Needs` — the chunks one manifest has beyond another one and the cache.

## Main results

* `DiffComputer.mem_requiredChunks` — a diff requires the chunks its target has beyond its source.
* `DiffComputer.exists_computeDiff` — without overflow checks a diff is always computed.

## Design

The orders in which the code iterates over its hash maps are parameters (`DiffOrders`). The sizes of
files are 64-bit numbers; in a build with overflow checks a sum of them that overflows panics, and
the diff is `none`.
-/

namespace Landropic

/-- Type of change in a diff operation. -/
inductive ChangeType
  | added | modified | deleted | metadataOnly
  deriving DecidableEq

/-- Represents a single file change in a diff. -/
structure FileChange where
  path : Text
  changeType : ChangeType
  /-- File entry from source manifest (for deleted/modified). -/
  sourceEntry : Option ManifestEntry
  /-- File entry from target manifest (for added/modified). -/
  targetEntry : Option ManifestEntry
  /-- Chunks that need to be transferred (for added/modified). -/
  requiredChunks : List Text
  /-- Size of data to transfer. -/
  transferSize : ℕ
  deriving DecidableEq

/-- Check if this change requires data transfer. -/
def FileChange.requiresTransfer (c : FileChange) : Bool := !c.requiredChunks.isEmpty

/-- The change without some of the chunks it requires. -/
def FileChange.withoutChunks (chunkHashes : List Text) (c : FileChange) : FileChange :=
  { c with requiredChunks := c.requiredChunks.filter fun hash => hash ∉ chunkHashes }

/-- Get priority for this change (higher = more important). -/
def FileChange.priority (c : FileChange) : ℕ :=
  match c.changeType with
  | .modified => 100
  | .added => if c.transferSize < 1000000 then 80 else 50
  | .metadataOnly => 20
  | .deleted => 10

/-- Statistics about a diff operation. -/
structure DiffStats where
  filesAdded : ℕ
  filesModified : ℕ
  filesDeleted : ℕ
  filesMetadataOnly : ℕ
  bytesToAdd : UInt64
  bytesToModify : UInt64
  bytesToDelete : UInt64
  totalChunks : ℕ
  uniqueChunks : ℕ
  deriving DecidableEq

/-- No changes. -/
def DiffStats.default : DiffStats :=
  { filesAdded := 0, filesModified := 0, filesDeleted := 0, filesMetadataOnly := 0,
    bytesToAdd := 0, bytesToModify := 0, bytesToDelete := 0, totalChunks := 0, uniqueChunks := 0 }

/-- Merkle tree proof for efficient manifest comparison. -/
structure MerkleProof where
  root : Bytes
  subtreeHashes : List Bytes
  depth : ℕ
  deriving DecidableEq

/-- Result of a manifest diff operation. -/
structure DiffResult where
  changes : List FileChange
  totalTransferSize : ℕ
  requiredChunks : Finset Text
  stats : DiffStats
  merkleProof : Option MerkleProof
  deriving DecidableEq

/-- Sort changes by priority for optimal transfer ordering, smaller transfers first. -/
def DiffResult.prioritizeChanges (r : DiffResult) : DiffResult :=
  { r with changes := r.changes.mergeSort fun a b =>
      decide (b.priority < a.priority ∨ a.priority = b.priority ∧ a.transferSize ≤ b.transferSize) }

/-- The orders in which a diff iterates over its hash maps. -/
structure DiffOrders where
  target : IterOrder Text
  source : IterOrder Text
  subtrees : IterOrder Text

/-- Computes diff between manifests with optimizations. -/
structure DiffComputer where
  /-- Cache of chunk availability (which chunks we already have). -/
  chunkCache : Finset Text
  enableMerkleProofs : Bool
  maxMerkleDepth : ℕ
  deriving DecidableEq

/-- Add sizes in a build with or without overflow checks. -/
def addSize (overflowChecks : Bool) (a b : UInt64) : Option UInt64 :=
  if overflowChecks ∧ 2 ^ 64 ≤ a.toNat + b.toNat then none else some (a + b)

@[simp] lemma addSize_false (a b : UInt64) : addSize false a b = some (a + b) := by simp [addSize]

namespace DiffComputer

/-- Create a new diff computer. -/
def new (chunkCache : Finset Text) : DiffComputer :=
  { chunkCache := chunkCache, enableMerkleProofs := true, maxMerkleDepth := 10 }

section Compute

variable (dc : DiffComputer)

/-- Find chunks that need to be transferred for a file. -/
def findRequiredChunks (entry : ManifestEntry) : List Text :=
  entry.chunkHashes.filter fun hash => hash ∉ dc.chunkCache

/-- Compute chunk-level diff between two file versions. -/
def computeChunkDiff (source target : ManifestEntry) : List Text :=
  target.chunkHashes.filter fun hash => hash ∉ source.chunkHashes.toFinset ∧ hash ∉ dc.chunkCache

/-- Calculate approximate transfer size for chunks. -/
def calculateTransferSize (chunkHashes : List Text) : ℕ :=
  chunkHashes.length * (512 * 1024)

/-- What the loops over the manifests collect. -/
structure DiffAcc where
  changes : List FileChange
  requiredChunks : Finset Text
  stats : DiffStats

/-- One file of the target: it is added, modified, changed in its metadata only, or unchanged. -/
def visitTarget (overflowChecks : Bool) (sourceMap : HashMap Text ManifestEntry) (acc : DiffAcc)
    (file : Text × ManifestEntry) : Option DiffAcc :=
  let (path, targetEntry) := file
  match sourceMap.lookup path with
  | none => do
    let required := dc.findRequiredChunks targetEntry
    let bytes ← addSize overflowChecks acc.stats.bytesToAdd targetEntry.size
    some
      { changes := acc.changes ++ [⟨path, .added, none, some targetEntry, required,
          calculateTransferSize required⟩]
        requiredChunks := acc.requiredChunks ∪ required.toFinset
        stats := { acc.stats with
          filesAdded := acc.stats.filesAdded + 1
          bytesToAdd := bytes } }
  | some sourceEntry =>
    if sourceEntry.contentHash ≠ targetEntry.contentHash then
      let required := dc.computeChunkDiff sourceEntry targetEntry
      if required = [] ∧ sourceEntry.size = targetEntry.size then
        -- only metadata changed
        some { acc with
          changes := acc.changes ++ [⟨path, .metadataOnly, some sourceEntry, some targetEntry, [],
            0⟩]
          stats := { acc.stats with filesMetadataOnly := acc.stats.filesMetadataOnly + 1 } }
      else do
        let bytes ← addSize overflowChecks acc.stats.bytesToModify targetEntry.size
        some
          { changes := acc.changes ++ [⟨path, .modified, some sourceEntry, some targetEntry,
              required, calculateTransferSize required⟩]
            requiredChunks := acc.requiredChunks ∪ required.toFinset
            stats := { acc.stats with
              filesModified := acc.stats.filesModified + 1
              bytesToModify := bytes } }
    else some acc

/-- One file of the source: it is deleted if the target does not have it. -/
def visitSource (overflowChecks : Bool) (targetMap : HashMap Text ManifestEntry) (acc : DiffAcc)
    (file : Text × ManifestEntry) : Option DiffAcc :=
  let (path, sourceEntry) := file
  if path ∉ targetMap then do
    let bytes ← addSize overflowChecks acc.stats.bytesToDelete sourceEntry.size
    some { acc with
      changes := acc.changes ++ [⟨path, .deleted, some sourceEntry, none, [], 0⟩]
      stats := { acc.stats with
        filesDeleted := acc.stats.filesDeleted + 1
        bytesToDelete := bytes } }
  else some acc

/-- Calculate optimal tree depth based on file count. -/
def calculateTreeDepth (fileCount : ℕ) : ℕ := min (Nat.clog 2 fileCount) dc.maxMerkleDepth

/-- The first component of a path. -/
def subtreeKey (path : Text) : Text := path.takeWhile (· ≠ '/')

/-- Compute subtree hashes for merkle proof. -/
def computeSubtreeHashes (blake3 : Bytes → ContentHash) (order : IterOrder Text) (m : Manifest) :
    List Bytes :=
  (order.iter (m.files.map fun f => subtreeKey f.path).toFinset).map fun key =>
    (blake3 ((m.files.filter fun f => subtreeKey f.path = key).flatMap fun f =>
      f.path.utf8 ++ leBytes 8 f.size.toNat ++ f.contentHash.utf8)).asBytes

/-- Compute merkle proof for efficient manifest comparison. -/
def computeMerkleProof (blake3 : Bytes → ContentHash) (order : IterOrder Text)
    (source target : Manifest) : Option MerkleProof :=
  if source.files.length < 100 ∧ target.files.length < 100 then none
  else if source.calculateHash blake3 = target.calculateHash blake3 then none
  else some
    { root := (target.calculateHash blake3).asBytes
      subtreeHashes := computeSubtreeHashes blake3 order target
      depth := dc.calculateTreeDepth target.files.length }

/-- Compute the diff that transforms `source` into `target`. -/
def computeDiff (blake3 : Bytes → ContentHash) (overflowChecks : Bool) (orders : DiffOrders)
    (source target : Manifest) : Option DiffResult := do
  let acc ← (orders.target.entries target.fileMap).foldlM
    (dc.visitTarget overflowChecks source.fileMap) ⟨[], ∅, .default⟩
  let acc ← (orders.source.entries source.fileMap).foldlM
    (visitSource overflowChecks target.fileMap) acc
  let result : DiffResult :=
    { changes := acc.changes
      totalTransferSize := (acc.changes.map FileChange.transferSize).sum
      requiredChunks := acc.requiredChunks
      stats := { acc.stats with
        uniqueChunks := acc.requiredChunks.card
        totalChunks := (acc.changes.map fun c => c.requiredChunks.length).sum }
      merkleProof :=
        if dc.enableMerkleProofs then dc.computeMerkleProof blake3 orders.subtrees source target
        else none }
  some result.prioritizeChanges

end Compute

/-! ## The chunks a diff requires -/

/-- The chunk `hash` is in a file of `theirs` that `mine` does not have, or has with other content,
and it is neither in the version of that file in `mine` nor in the cache. -/
def Needs (cache : Finset Text) (mine theirs : Manifest) (hash : Text) : Prop :=
  hash ∉ cache ∧ ∃ path entry, theirs.fileMap.lookup path = some entry ∧
    hash ∈ entry.chunkHashes ∧
    ∀ own, mine.fileMap.lookup path = some own →
      own.contentHash ≠ entry.contentHash ∧ hash ∉ own.chunkHashes

section RequiredChunks

variable {dc : DiffComputer} {overflowChecks : Bool}

/-- The chunks one file of the target adds. -/
def requiredFor (dc : DiffComputer) (sourceMap : HashMap Text ManifestEntry)
    (file : Text × ManifestEntry) : Finset Text :=
  match sourceMap.lookup file.1 with
  | none => (dc.findRequiredChunks file.2).toFinset
  | some sourceEntry =>
    if sourceEntry.contentHash ≠ file.2.contentHash then
      (dc.computeChunkDiff sourceEntry file.2).toFinset
    else ∅

variable {sourceMap : HashMap Text ManifestEntry} {acc acc' : DiffAcc}

lemma mem_requiredFor {path : Text} {entry : ManifestEntry} {hash : Text} :
    hash ∈ dc.requiredFor sourceMap (path, entry) ↔
      hash ∉ dc.chunkCache ∧ hash ∈ entry.chunkHashes ∧
        ∀ own, sourceMap.lookup path = some own →
          own.contentHash ≠ entry.contentHash ∧ hash ∉ own.chunkHashes := by
  unfold requiredFor
  cases hlookup : sourceMap.lookup path with
  | none => simp [findRequiredChunks, and_comm]
  | some own =>
    by_cases hcontent : own.contentHash = entry.contentHash
    · simp [hcontent]
    · simp only [ne_eq, hcontent, not_false_eq_true, if_true, computeChunkDiff,
        List.mem_toFinset, List.mem_filter, decide_eq_true_eq, Option.some.injEq, forall_eq',
        true_and]
      tauto

lemma requiredChunks_visitTarget {file : Text × ManifestEntry}
    (h : dc.visitTarget overflowChecks sourceMap acc file = some acc') :
    acc'.requiredChunks = acc.requiredChunks ∪ dc.requiredFor sourceMap file := by
  obtain ⟨path, targetEntry⟩ := file
  simp only [visitTarget] at h
  unfold requiredFor
  cases hlookup : sourceMap.lookup path with
  | none =>
    simp only [hlookup, Option.bind_eq_bind, Option.bind_eq_some_iff] at h
    obtain ⟨bytes, -, h⟩ := h
    rw [← Option.some.inj h]
  | some own =>
    simp only [hlookup] at h
    split_ifs at h with hcontent hmeta
    · rw [← Option.some.inj h]
      simp [hcontent, hmeta.1]
    · simp only [Option.bind_eq_bind, Option.bind_eq_some_iff] at h
      obtain ⟨bytes, -, h⟩ := h
      rw [← Option.some.inj h]
      simp [hcontent]
    · rw [← Option.some.inj h]
      simp only [ne_eq, not_not] at hcontent
      simp [hcontent]

lemma requiredChunks_visitSource {targetMap : HashMap Text ManifestEntry}
    {file : Text × ManifestEntry} (h : visitSource overflowChecks targetMap acc file = some acc') :
    acc'.requiredChunks = acc.requiredChunks := by
  simp only [visitSource] at h
  split at h
  · simp only [Option.bind_eq_bind, Option.bind_eq_some_iff] at h
    obtain ⟨bytes, -, h⟩ := h
    rw [← Option.some.inj h]
  · rw [← Option.some.inj h]

lemma mem_requiredChunks_foldlM {files : List (Text × ManifestEntry)} {hash : Text}
    (h : files.foldlM (dc.visitTarget overflowChecks sourceMap) acc = some acc') :
    hash ∈ acc'.requiredChunks ↔
      hash ∈ acc.requiredChunks ∨ ∃ file ∈ files, hash ∈ dc.requiredFor sourceMap file := by
  induction files generalizing acc with
  | nil =>
    rw [← Option.some.inj h]
    simp
  | cons file files ih =>
    simp only [List.foldlM_cons, Option.bind_eq_bind, Option.bind_eq_some_iff] at h
    obtain ⟨next, hvisit, h⟩ := h
    rw [ih h, requiredChunks_visitTarget hvisit, Finset.mem_union, List.exists_mem_cons_iff,
      or_assoc]

lemma requiredChunks_foldlM_visitSource {targetMap : HashMap Text ManifestEntry}
    {files : List (Text × ManifestEntry)}
    (h : files.foldlM (visitSource overflowChecks targetMap) acc = some acc') :
    acc'.requiredChunks = acc.requiredChunks := by
  apply List.foldlM_invariant (P := fun b => b.requiredChunks = acc.requiredChunks) h rfl
  intro b file b' hb hvisit
  rw [requiredChunks_visitSource hvisit, hb]

/-- **A diff requires exactly the chunks its target has beyond its source**, in any order of
iteration.

**Proof sketch.** Each file of the target adds the chunks required for it, the loop over the target
visits every file of its map, and the loop over the source adds no chunks. -/
theorem mem_requiredChunks {blake3 : Bytes → ContentHash} {orders : DiffOrders}
    {source target : Manifest} {diff : DiffResult} {hash : Text}
    (h : dc.computeDiff blake3 overflowChecks orders source target = some diff) :
    hash ∈ diff.requiredChunks ↔ Needs dc.chunkCache source target hash := by
  simp only [computeDiff, Option.bind_eq_bind, Option.bind_eq_some_iff] at h
  obtain ⟨acc₁, htarget, acc₂, hsource, h⟩ := h
  have hdiff : diff.requiredChunks = acc₂.requiredChunks := by
    rw [← Option.some.inj h]
    rfl
  rw [hdiff, requiredChunks_foldlM_visitSource hsource, mem_requiredChunks_foldlM htarget]
  simp only [Finset.notMem_empty, false_or, Prod.exists, orders.target.mem_entries,
    mem_requiredFor, Needs]
  constructor
  · rintro ⟨path, entry, hlookup, hcache, hmem, hown⟩
    exact ⟨hcache, path, entry, hlookup, hmem, hown⟩
  · rintro ⟨hcache, path, entry, hlookup, hmem, hown⟩
    exact ⟨path, entry, hlookup, hcache, hmem, hown⟩

/-- The changes delete the file with a path. -/
def Deletes (changes : List FileChange) (path : Text) : Prop :=
  ∃ change ∈ changes, change.changeType = .deleted ∧ change.path = path

/-- **Without overflow checks a diff is always computed.** -/
theorem exists_computeDiff (dc : DiffComputer) (blake3 : Bytes → ContentHash) (orders : DiffOrders)
    (source target : Manifest) :
    ∃ diff, dc.computeDiff blake3 false orders source target = some diff := by
  have hfold : ∀ (step : DiffAcc → Text × ManifestEntry → Option DiffAcc),
      (∀ acc file, ∃ acc', step acc file = some acc') →
      ∀ files acc, ∃ acc', List.foldlM step acc files = some acc' := by
    intro step hstep files
    induction files with
    | nil => exact fun acc => ⟨acc, rfl⟩
    | cons file files ih =>
      intro acc
      obtain ⟨next, hnext⟩ := hstep acc file
      obtain ⟨acc', hacc'⟩ := ih next
      exact ⟨acc', by rw [List.foldlM_cons, hnext]; exact hacc'⟩
  obtain ⟨acc₁, h₁⟩ := hfold (dc.visitTarget false source.fileMap) (fun acc file => by
    simp only [visitTarget, addSize_false]
    split
    · exact ⟨_, rfl⟩
    · split_ifs <;> exact ⟨_, rfl⟩) (orders.target.entries target.fileMap) ⟨[], ∅, .default⟩
  obtain ⟨acc₂, h₂⟩ := hfold (visitSource false target.fileMap) (fun acc file => by
    simp only [visitSource, addSize_false]
    split <;> exact ⟨_, rfl⟩) (orders.source.entries source.fileMap) acc₁
  simp only [computeDiff, h₁, h₂, Option.bind_eq_bind, Option.bind_some]
  exact ⟨_, rfl⟩

/-- The size of the files of a manifest. -/
def folderSize (m : Manifest) : ℕ :=
  ∑ path ∈ m.fileMap.keys, (m.fileMap.lookup path).elim 0 fun entry => entry.size.toNat

/-- A file that the target does not have is deleted. -/
lemma visitSource_empty (overflowChecks : Bool) (acc : DiffAcc) (file : Text × ManifestEntry) :
    visitSource overflowChecks ∅ acc file =
      (addSize overflowChecks acc.stats.bytesToDelete file.2.size).map fun bytes =>
        { acc with
          changes := acc.changes ++ [⟨file.1, .deleted, some file.2, none, [], 0⟩]
          stats := { acc.stats with
            filesDeleted := acc.stats.filesDeleted + 1
            bytesToDelete := bytes } } := by
  obtain ⟨path, entry⟩ := file
  dsimp only [visitSource]
  rw [if_pos Finmap.notMem_empty]
  cases addSize overflowChecks acc.stats.bytesToDelete entry.size <;> rfl

lemma exists_foldlM_visitSource_iff (files : List (Text × ManifestEntry)) (acc : DiffAcc) :
    (∃ acc', files.foldlM (visitSource true ∅) acc = some acc') ↔
      acc.stats.bytesToDelete.toNat + (files.map fun file => file.2.size.toNat).sum < 2 ^ 64 := by
  induction files generalizing acc with
  | nil =>
    have hlt := acc.stats.bytesToDelete.toNat_lt
    simpa using hlt
  | cons file files ih =>
    rw [List.foldlM_cons, List.map_cons, List.sum_cons, visitSource_empty]
    by_cases hsum : 2 ^ 64 ≤ acc.stats.bytesToDelete.toNat + file.2.size.toNat
    · rw [addSize, if_pos ⟨rfl, hsum⟩]
      constructor
      · rintro ⟨acc', h⟩
        cases h
      · omega
    · have hadd : (acc.stats.bytesToDelete + file.2.size).toNat =
          acc.stats.bytesToDelete.toNat + file.2.size.toNat := by
        rw [UInt64.toNat_add, Nat.mod_eq_of_lt (not_le.mp hsum)]
      rw [addSize, if_neg fun h => hsum h.2, Option.map_some, Option.bind_eq_bind,
        Option.bind_some, ih]
      dsimp only
      rw [hadd, Nat.add_assoc]

/-- **When a diff to a manifest without files is computed** with overflow checks: if the size of the
files of the source is in range. -/
theorem exists_computeDiff_iff_of_files {dc : DiffComputer} {blake3 : Bytes → ContentHash}
    {orders : DiffOrders} {source target : Manifest} (htarget : target.files = []) :
    (∃ diff, dc.computeDiff blake3 true orders source target = some diff) ↔
      folderSize source < 2 ^ 64 := by
  have hmap : target.fileMap = ∅ := by simp [Manifest.fileMap, htarget]
  have hentries : orders.target.entries (∅ : HashMap Text ManifestEntry) = [] := by
    apply List.eq_nil_iff_forall_not_mem.mpr
    rintro ⟨path, entry⟩ hmem
    simp [orders.target.mem_entries] at hmem
  have hsum := exists_foldlM_visitSource_iff (orders.source.entries source.fileMap)
    ⟨[], ∅, .default⟩
  rw [orders.source.sum_entries source.fileMap fun entry => entry.size.toNat] at hsum
  simp only [computeDiff, hmap, hentries, List.foldlM_nil, Option.pure_def, Option.bind_eq_bind,
    Option.bind_some, folderSize]
  cases hfold : (orders.source.entries source.fileMap).foldlM (visitSource true ∅)
      ⟨[], ∅, .default⟩ with
  | none =>
    rw [hfold] at hsum
    simpa [DiffStats.default] using hsum
  | some acc =>
    rw [hfold] at hsum
    simpa [DiffStats.default] using hsum

end RequiredChunks

end DiffComputer

/-- Incremental diff tracker for continuous sync. -/
structure IncrementalDiff where
  /-- Last known manifest version for each peer. -/
  lastVersions : HashMap Text UInt64
  /-- Pending changes that haven't been acknowledged. -/
  pendingChanges : HashMap Text (List FileChange)
  diffComputer : DiffComputer

namespace IncrementalDiff

/-- Create a new incremental diff tracker. -/
def new (chunkCache : Finset Text) : IncrementalDiff :=
  { lastVersions := ∅, pendingChanges := ∅, diffComputer := .new chunkCache }

/-- Compute incremental diff since last sync. -/
def computeIncremental (blake3 : Bytes → ContentHash) (overflowChecks : Bool) (orders : DiffOrders)
    (tracker : IncrementalDiff) (peerId : Text) (currentManifest peerManifest : Manifest) :
    Option (DiffResult × IncrementalDiff) := do
  let diff ← tracker.diffComputer.computeDiff blake3 overflowChecks orders peerManifest
    currentManifest
  let pending :=
    if diff.changes ≠ [] then tracker.pendingChanges.insert peerId diff.changes
    else tracker.pendingChanges
  some (diff,
    { tracker with
      pendingChanges := pending
      lastVersions := tracker.lastVersions.insert peerId currentManifest.version })

/-- Mark changes as acknowledged by peer. -/
def acknowledgeChanges (tracker : IncrementalDiff) (peerId : Text) (chunkHashes : List Text) :
    IncrementalDiff :=
  match tracker.pendingChanges.lookup peerId with
  | none => tracker
  | some pending =>
    -- remove acknowledged chunks from pending changes
    let pending := pending.map (FileChange.withoutChunks chunkHashes)
    -- remove fully transferred changes
    let pending := pending.filter FileChange.requiresTransfer
    if pending = [] then { tracker with pendingChanges := tracker.pendingChanges.erase peerId }
    else { tracker with pendingChanges := tracker.pendingChanges.insert peerId pending }

/-- Get pending changes for a peer. -/
def getPending (tracker : IncrementalDiff) (peerId : Text) : Option (List FileChange) :=
  tracker.pendingChanges.lookup peerId

/-- Reset tracking for a peer. -/
def resetPeer (tracker : IncrementalDiff) (peerId : Text) : IncrementalDiff :=
  { tracker with
    lastVersions := tracker.lastVersions.erase peerId
    pendingChanges := tracker.pendingChanges.erase peerId }

end IncrementalDiff

end Landropic
