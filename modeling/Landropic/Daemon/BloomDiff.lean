import Mathlib.Data.UInt
import Landropic.Foundations.Fs
import Landropic.Sync.Diff

set_option autoImplicit false

/-!
# Diffs by Bloom filters

To find the differences of two manifests, a device sends a summary of its manifest: a Bloom filter
of the paths and one of the hashes of contents. The receiver looks its own paths up in it.

## Main definitions

* `Daemon.BloomFilter` — sets of texts with false positives.
* `Daemon.ManifestSummary` — the summary of a manifest.
* `Daemon.DiffProtocolHandler` — the side of one device, with the progress of its peers.
* `Daemon.DiffProtocolHandler.startDiff`, `handleMessage` — its calls.

## Main results

* `Daemon.BloomFilter.contains_of_mem` — a filter has no false negatives.

## Design

The optimal sizes of a filter are calculated with `f64` logarithms, which round and have no
counterpart here; they are a parameter, as is the hash function (`BloomHashing`), and only that
there are bits is assumed. The checksum of a summary, which is only logged, and the times at which
summaries are made are left out. The maps are visited in an order that is a parameter.
-/

namespace Landropic.Daemon

/-! ## Bloom filters -/

/-- What a Bloom filter with a rate of false positives of one percent is made with. -/
structure BloomHashing where
  /-- The hash of a text for a seed. -/
  hash : ℕ → Text → ℕ
  /-- The optimal number of bits for a number of elements. -/
  optimalNumBits : ℕ → ℕ
  /-- The optimal number of hash functions for a number of bits and of elements. -/
  optimalNumHashes : ℕ → ℕ → ℕ
  /-- A filter has bits. -/
  optimalNumBits_pos : ∀ {n}, 0 < n → 0 < optimalNumBits n

/-- Bloom filter implementation for probabilistic set membership testing. -/
structure BloomFilter where
  /-- The bits of all bytes, one after the other. -/
  bits : List Bool
  numBits : ℕ
  numHashes : ℕ
  numElements : ℕ
  deriving DecidableEq

namespace BloomFilter

variable (hashing : BloomHashing) (filter : BloomFilter)

/-- Create a new Bloom filter with optimal parameters. -/
def new (expectedElements : ℕ) : BloomFilter where
  bits := List.replicate ((hashing.optimalNumBits expectedElements + 7) / 8 * 8) false
  numBits := hashing.optimalNumBits expectedElements
  numHashes := hashing.optimalNumHashes (hashing.optimalNumBits expectedElements) expectedElements
  numElements := 0

/-- The bits of an item. -/
def positions (item : Text) : List ℕ :=
  (List.range filter.numHashes).map fun i => hashing.hash i item % filter.numBits

/-- Add an element to the filter. -/
def add (item : Text) : BloomFilter :=
  { filter with
    bits := (filter.positions hashing item).foldl (fun bits pos => bits.set pos true) filter.bits
    numElements := filter.numElements + 1 }

/-- Test if an element might be in the set. -/
def contains (item : Text) : Bool :=
  (filter.positions hashing item).all fun pos => filter.bits.getD pos false

section Bits

variable {bits : List Bool} {pos : ℕ}

lemma length_foldl_set (positions : List ℕ) :
    (positions.foldl (fun bits pos => bits.set pos true) bits).length = bits.length := by
  induction positions generalizing bits with
  | nil => rfl
  | cons p positions ih => rw [List.foldl_cons, ih, List.length_set]

lemma getD_foldl_set (positions : List ℕ) (hpos : pos < bits.length) :
    (positions.foldl (fun bits pos => bits.set pos true) bits).getD pos false =
      (bits.getD pos false || decide (pos ∈ positions)) := by
  induction positions generalizing bits with
  | nil => simp
  | cons p positions ih =>
    rw [List.foldl_cons, ih (by rwa [List.length_set])]
    by_cases h : p = pos
    · subst h
      simp [List.getD_eq_getElem?_getD, List.getElem?_set_self hpos]
    · simp [List.getD_eq_getElem?_getD, List.getElem?_set_ne h, Ne.symm h]

end Bits

/-- A filter has room for its bits. -/
structure Sound (filter : BloomFilter) : Prop where
  pos : 0 < filter.numBits
  le : filter.numBits ≤ filter.bits.length

variable {hashing filter} {item : Text}

lemma sound_new {n : ℕ} (hn : 0 < n) : (new hashing n).Sound where
  pos := hashing.optimalNumBits_pos hn
  le := by
    rw [new, List.length_replicate]
    dsimp only
    omega

lemma Sound.add (h : filter.Sound) : (filter.add hashing item).Sound where
  pos := h.pos
  le := by
    rw [BloomFilter.add, length_foldl_set]
    exact h.le

lemma contains_add_of_contains (h : filter.Sound) {other : Text}
    (hor : other = item ∨ filter.contains hashing other = true) :
    (filter.add hashing item).contains hashing other = true := by
  rw [contains, List.all_eq_true]
  intro pos hpos
  have hlt : pos < filter.bits.length := by
    obtain ⟨i, -, rfl⟩ := List.mem_map.mp hpos
    exact (Nat.mod_lt _ h.pos).trans_le h.le
  rw [add, getD_foldl_set _ hlt, Bool.or_eq_true]
  obtain rfl | hold := hor
  · exact .inr (decide_eq_true hpos)
  · exact .inl (List.all_eq_true.mp hold pos hpos)

/-- Add some elements. -/
def addAll (hashing : BloomHashing) (items : List Text) (filter : BloomFilter) : BloomFilter :=
  items.foldl (fun filter item => filter.add hashing item) filter

/-- **A filter has no false negatives.** -/
theorem contains_of_mem (h : filter.Sound) {items : List Text} (hmem : item ∈ items) :
    (addAll hashing items filter).contains hashing item = true := by
  have hkeep : ∀ (items : List Text) (filter : BloomFilter), filter.Sound →
      filter.contains hashing item = true →
        (addAll hashing items filter).contains hashing item = true := by
    intro items
    induction items with
    | nil => exact fun _ _ hcontains => hcontains
    | cons other items ih =>
      exact fun filter h hcontains => ih _ h.add (contains_add_of_contains h (.inr hcontains))
  induction items generalizing filter with
  | nil => cases hmem
  | cons other items ih =>
    obtain rfl | hmem := List.mem_cons.mp hmem
    · exact hkeep items _ h.add (contains_add_of_contains h (.inl rfl))
    · exact ih h.add hmem

end BloomFilter

/-! ## Summaries -/

/-- Manifest summary using Bloom filters. -/
structure ManifestSummary where
  deviceId : Text
  rootPath : FilePath
  pathFilter : BloomFilter
  hashFilter : BloomFilter
  fileCount : ℕ
  totalSize : UInt64
  deriving DecidableEq

/-- Create a summary from a manifest. -/
def ManifestSummary.fromManifest (hashing : BloomHashing) (manifest : Manifest) (deviceId : Text)
    (rootPath : FilePath) : ManifestSummary where
  deviceId := deviceId
  rootPath := rootPath
  pathFilter := .addAll hashing (manifest.files.map ManifestEntry.path)
    (.new hashing (max manifest.files.length 100))
  hashFilter := .addAll hashing (manifest.files.map ManifestEntry.contentHash)
    (.new hashing (max manifest.files.length 100))
  fileCount := manifest.files.length
  totalSize := (manifest.files.map ManifestEntry.size).sum

/-! ## The protocol -/

/-- Protocol messages for diff exchange. -/
inductive DiffProtocolMessage
  /-- Request manifest summary. -/
  | requestSummary (path : FilePath) (requestId : Text)
  /-- Send manifest summary. -/
  | sendSummary (summary : ManifestSummary) (requestId : Text)
  /-- Request detailed diff for suspected differences. -/
  | requestDiffDetails (suspectedPaths : List Text) (requestId : Text)
  /-- Send detailed diff information. -/
  | sendDiffDetails (fileDetails : HashMap Text ManifestEntry) (requestId : Text)
  /-- Request specific chunks. -/
  | requestChunks (chunkHashes : List Text) (requestId : Text)
  /-- Acknowledge receipt. -/
  | acknowledge (requestId : Text) (success : Bool) (message : Option String)

/-- The stages of a diff. -/
inductive DiffStage
  | initializing
  | exchangingSummaries
  | comparingManifests
  | requestingDetails
  | transferringChunks
  | completed
  deriving DecidableEq

/-- Progress tracking for diff operations. -/
structure DiffProgress where
  peerId : Text
  stage : DiffStage
  progressPercent : ℕ
  filesCompared : ℕ
  differencesFound : ℕ
  bytesSaved : ℕ
  startedAt : ℕ
  deriving DecidableEq

/-- What a handler calculates with: the filters, and the sizes of messages. -/
structure DiffTools extends BloomHashing where
  /-- The size of a manifest when it is sent. -/
  manifestSize : Manifest → ℕ
  /-- The size of a summary when it is sent. -/
  summarySize : ManifestSummary → ℕ

/-- Handler for diff protocol operations. -/
structure DiffProtocolHandler where
  deviceId : Text
  manifests : HashMap FilePath Manifest
  summaries : HashMap Text ManifestSummary
  progress : HashMap Text DiffProgress

namespace DiffProtocolHandler

/-- Create a new diff protocol handler. -/
def new (deviceId : Text) : DiffProtocolHandler := ⟨deviceId, ∅, ∅, ∅⟩

variable (tools : DiffTools) (handler : DiffProtocolHandler)

/-- The id of a request: the device, and the number of milliseconds since the epoch. -/
def requestId (now : ℕ) : Text := handler.deviceId ++ ['-'] ++ (toString now).toList

/-- Start a diff operation with a peer. -/
def startDiff (now : ℕ) (peerId : Text) (path : FilePath) (localManifest : Manifest) :
    DiffProtocolMessage × DiffProtocolHandler :=
  (.requestSummary path (handler.requestId now), { handler with
    manifests := handler.manifests.insert path localManifest
    progress := handler.progress.insert peerId
      { peerId := peerId
        stage := .initializing
        progressPercent := 0
        filesCompared := 0
        differencesFound := 0
        bytesSaved := 0
        startedAt := now } })

/-- Handle summary request. -/
def handleSummaryRequest (path : FilePath) (requestId : Text) : DiffProtocolMessage :=
  match handler.manifests.lookup path with
  | some manifest =>
    .sendSummary (.fromManifest tools.toBloomHashing manifest handler.deviceId path) requestId
  | none => .acknowledge requestId false (some "Manifest not found")

/-- The paths of a manifest that a summary does not contain. -/
def suspectedPaths (localManifest : Manifest) (summary : ManifestSummary) : List Text :=
  (localManifest.files.map ManifestEntry.path).filter fun path =>
    !summary.pathFilter.contains tools.toBloomHashing path

/-- Handle summary response. -/
def handleSummaryResponse (summary : ManifestSummary) (requestId : Text) :
    Option DiffProtocolMessage × DiffProtocolHandler :=
  -- store remote summary, and update progress
  let stored := { handler with
    summaries := handler.summaries.insert summary.deviceId summary
    progress := handler.progress.modify summary.deviceId fun progress =>
      { progress with stage := .comparingManifests, progressPercent := 25 } }
  -- compare with local manifest
  match handler.manifests.lookup summary.rootPath with
  | none => (none, stored)
  | some localManifest =>
    let suspected := suspectedPaths tools localManifest summary
    let compared := { stored with
      progress := stored.progress.modify summary.deviceId fun progress =>
        { progress with
          bytesSaved := tools.manifestSize localManifest - tools.summarySize summary
          differencesFound := suspected.length } }
    if suspected ≠ [] then (some (.requestDiffDetails suspected requestId), compared)
    else (some (.acknowledge requestId true (some "No differences found")), compared)

/-- Handle details request. -/
def handleDetailsRequest (order : IterOrder FilePath) (suspectedPaths : List Text)
    (requestId : Text) : DiffProtocolMessage :=
  .sendDiffDetails (HashMap.collect <| (order.entries handler.manifests).flatMap fun entry =>
    (entry.2.files.filter fun file => file.path ∈ suspectedPaths).map fun file =>
      (file.path, file)) requestId

/-- Handle details response. -/
def handleDetailsResponse (fileDetails : HashMap Text ManifestEntry) : DiffProtocolHandler :=
  { handler with progress := handler.progress.mapValues fun progress =>
    if progress.stage = .requestingDetails then
      { progress with
        stage := .transferringChunks
        progressPercent := 75
        filesCompared := fileDetails.keys.card }
    else progress }

/-- Handle acknowledge message. -/
def handleAcknowledge : DiffProtocolHandler :=
  { handler with progress := handler.progress.mapValues fun progress =>
    if progress.stage ≠ .completed then
      { progress with stage := .completed, progressPercent := 100 }
    else progress }

/-- Handle incoming protocol message. -/
def handleMessage (order : IterOrder FilePath) :
    DiffProtocolMessage → Option DiffProtocolMessage × DiffProtocolHandler
  | .requestSummary path requestId =>
    (some (handler.handleSummaryRequest tools path requestId), handler)
  | .sendSummary summary requestId => handler.handleSummaryResponse tools summary requestId
  | .requestDiffDetails suspectedPaths requestId =>
    (some (handler.handleDetailsRequest order suspectedPaths requestId), handler)
  | .sendDiffDetails fileDetails _ => (none, handler.handleDetailsResponse fileDetails)
  | .requestChunks chunkHashes requestId =>
    (some (.acknowledge requestId true (some (s!"Would send {chunkHashes.length} chunks"))),
      handler)
  | .acknowledge _ _ _ => (none, handler.handleAcknowledge)

end DiffProtocolHandler

end Landropic.Daemon
