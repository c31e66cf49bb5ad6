import Mathlib.Data.Nat.Basic
import Landropic.Chunker.Hash

set_option autoImplicit false

/-!
# The content-defined chunker

The chunker cuts a byte string into chunks. From the start of a chunk it skips `min_size` bytes,
then moves a rolling hash of 48 bytes over the data and cuts where the hash is zero under the
mask, at the latest after `max_size` bytes.

## Main definitions

* `ChunkerConfig`, `ChunkerConfig.validate` — the sizes and their check.
* `Chunker` — a chunker made from a validated configuration.
* `Chunker.findChunkBoundary` — the scan for a cut point.
* `Chunker.chunkBytes` — the chunks of a byte string.

## Design

Reading a byte out of range and slicing out of range panic in the source; here they give `none`,
and so does a loop that runs out of the steps it is given. `Chunker.Tests` lists the
positions the scan reaches with the hash it tests there.
-/

namespace Landropic

/-- Errors of the chunker. -/
inductive ChunkerError
  | invalidConfig (msg : String)
  deriving DecidableEq

/-- Chunking configuration. -/
structure ChunkerConfig where
  /-- Minimum chunk size in bytes. -/
  minSize : ℕ
  /-- Average chunk size in bytes. -/
  avgSize : ℕ
  /-- Maximum chunk size in bytes. -/
  maxSize : ℕ
  /-- Bits for the rolling hash mask. -/
  maskBits : ℕ
  deriving DecidableEq

namespace ChunkerConfig

/-- The default configuration: chunks of 256 KB to 4 MB, 1 MB on average. -/
protected def default : ChunkerConfig :=
  { minSize := 256 * 1024
    avgSize := 1024 * 1024
    maxSize := 4 * 1024 * 1024
    maskBits := 20 }

/-- The smallest `min_size` a configuration may have. -/
def MIN_CHUNK_SIZE : ℕ := 256

/-- The largest `max_size` a configuration may have (16 MB). -/
def MAX_CHUNK_SIZE : ℕ := 16 * 1024 * 1024

/-- Validate the configuration. -/
def validate (c : ChunkerConfig) : Except ChunkerError Unit :=
  if c.minSize ≥ c.avgSize then
    .error (.invalidConfig "min_size must be less than avg_size")
  else if c.avgSize ≥ c.maxSize then
    .error (.invalidConfig "avg_size must be less than max_size")
  else if c.minSize < MIN_CHUNK_SIZE then
    .error (.invalidConfig s!"min_size {c.minSize} is below minimum {MIN_CHUNK_SIZE}")
  else if c.maxSize > MAX_CHUNK_SIZE then
    .error (.invalidConfig s!"max_size {c.maxSize} exceeds maximum {MAX_CHUNK_SIZE}")
  else if c.maskBits = 0 ∨ c.maskBits > 32 then
    .error (.invalidConfig "mask_bits must be between 1 and 32")
  else .ok ()

lemma validate_default : ChunkerConfig.default.validate = .ok () := by decide

lemma validate_eq_ok_iff {c : ChunkerConfig} : c.validate = .ok () ↔
    c.minSize < c.avgSize ∧ c.avgSize < c.maxSize ∧ MIN_CHUNK_SIZE ≤ c.minSize ∧
      c.maxSize ≤ MAX_CHUNK_SIZE ∧ 0 < c.maskBits ∧ c.maskBits ≤ 32 := by
  unfold validate
  split_ifs <;> simp <;> omega

end ChunkerConfig

/-! ## The gear table -/

/-- One round of the xorshift generator. -/
def xorshift (state : BitVec 64) : BitVec 64 :=
  let state := state ^^^ (state <<< 13)
  let state := state ^^^ (state >>> 7)
  state ^^^ (state <<< 17)

/-- The next `n` gear words, from index `i` and generator state `state` on. -/
def gearEntries : ℕ → ℕ → BitVec 64 → List (BitVec 64)
  | 0, _, _ => []
  | n + 1, i, state =>
    let state := xorshift state
    (state + BitVec.ofNat 64 i * 0x517cc1b727220a95#64) :: gearEntries n (i + 1) state

@[simp] lemma length_gearEntries (n i : ℕ) (state : BitVec 64) :
    (gearEntries n i state).length = n := by
  induction n generalizing i state with
  | zero => rfl
  | succ n ih => simp [gearEntries, ih]

/-- Generate the gear table for the rolling hash from its fixed seed. -/
def generateGearTable : Vector (BitVec 64) 256 :=
  ⟨(gearEntries 256 0 0x45aabbccddeeff00#64).toArray, by simp⟩

/-- A content-defined chunk. -/
structure Chunk where
  /-- Chunk data. -/
  data : Bytes
  /-- Hash of the chunk. -/
  hash : ChunkHash
  /-- Offset in the original stream. -/
  offset : ℕ
  deriving DecidableEq

/-- The chunker: a configuration with the mask and the gear table made from it. -/
structure Chunker where
  config : ChunkerConfig
  mask : BitVec 64
  gearTable : Vector (BitVec 64) 256
  /-- Only a validated configuration makes a chunker. -/
  valid : config.validate = .ok ()
  /-- The mask has `mask_bits` low bits. -/
  mask_eq : mask = (1#64 <<< config.maskBits) - 1#64
  /-- The gear table is the generated one. -/
  gearTable_eq : gearTable = generateGearTable

namespace Chunker

/-- Create a new chunker with configuration. -/
def new (config : ChunkerConfig) : Except ChunkerError Chunker :=
  match h : config.validate with
  | .error e => .error e
  | .ok () => .ok ⟨config, (1#64 <<< config.maskBits) - 1#64, generateGearTable, h, rfl, rfl⟩

/-- The chunker of a configuration that is valid. -/
def ofValid (config : ChunkerConfig) (h : config.validate = .ok ()) : Chunker :=
  ⟨config, (1#64 <<< config.maskBits) - 1#64, generateGearTable, h, rfl, rfl⟩

/-- The window of the rolling hash, in bytes. -/
def WINDOW_SIZE : ℕ := 48

/-- The gear word of a byte. -/
def gear (c : Chunker) (b : UInt8) : BitVec 64 := c.gearTable.get ⟨b.toNat, b.toNat_lt⟩

/-- The hash of the first `WINDOW_SIZE` bytes from `startPos` on. -/
def initHash (c : Chunker) (data : Bytes) (startPos : ℕ) : Option (BitVec 64) :=
  (List.range WINDOW_SIZE).foldlM (fun hash i => do
    let byte ← data[startPos + i]?
    some (hash.rotateLeft 1 + c.gear byte)) 0

/-- The hash tested at position `pos`, updated from the hash `hash` before it: the oldest byte's
gear word is rotated left `WINDOW_SIZE` times and subtracted, then the new byte is added. -/
def rollAt (c : Chunker) (data : Bytes) (pos : ℕ) (hash : BitVec 64) : Option (BitVec 64) := do
  let oldByte ← data[pos - WINDOW_SIZE]?
  let newByte ← data[pos]?
  let oldContribution := (c.gear oldByte).rotateLeft WINDOW_SIZE
  some ((hash - oldContribution).rotateLeft 1 + c.gear newByte)

/-- The scan loop over the `n` positions from `pos` to `limit`. -/
def scan (c : Chunker) (data : Bytes) (limit : ℕ) : ℕ → ℕ → BitVec 64 → Option ℕ
  | 0, _, _ => some limit
  | n + 1, pos, hash => do
    let hash ← c.rollAt data pos hash
    if hash &&& c.mask = 0 then some (pos + 1) else scan c data limit n (pos + 1) hash

/-- Find the chunk boundary between `startPos` and `maxPos` by the rolling hash. -/
def findChunkBoundary (c : Chunker) (data : Bytes) (startPos maxPos : ℕ) : Option ℕ :=
  if startPos ≥ data.length ∨ startPos ≥ maxPos then
    some (min maxPos data.length)
  -- short data that does not reach the window size
  else if startPos + WINDOW_SIZE > data.length ∨ startPos + WINDOW_SIZE > maxPos then
    some (min maxPos data.length)
  else do
    let hash ← c.initHash data startPos
    let limit := min maxPos data.length
    c.scan data limit (limit - (startPos + WINDOW_SIZE)) (startPos + WINDOW_SIZE) hash

/-- The end of the chunk that starts at `start`. -/
def chunkEnd (c : Chunker) (data : Bytes) (start : ℕ) : Option ℕ :=
  let remaining := data.length - start
  let chunkEnd := start + min c.config.minSize remaining
  if chunkEnd < data.length ∧ remaining > c.config.minSize then
    c.findChunkBoundary data chunkEnd (min (start + c.config.maxSize) data.length)
  else some chunkEnd

section Chunks

variable (blake3 : Bytes → ContentHash)

/-- The chunks from `offset` on, in at most `fuel` rounds of the loop. -/
def chunksFrom (c : Chunker) (data : Bytes) : ℕ → ℕ → Option (List Chunk)
  | 0, offset => if offset < data.length then none else some []
  | fuel + 1, offset =>
    if offset < data.length then do
      let stop ← c.chunkEnd data offset
      -- the slice `data[start..chunk_end]`
      if offset ≤ stop ∧ stop ≤ data.length then
        let chunkData := (data.drop offset).take (stop - offset)
        let rest ← chunksFrom c data fuel stop
        some (⟨chunkData, blake3 chunkData, offset⟩ :: rest)
      else none
    else some []

/-- Chunk data from a byte slice. -/
def chunkBytes (c : Chunker) (data : Bytes) : Option (List Chunk) :=
  c.chunksFrom blake3 data data.length 0

end Chunks

/-! ## The positions the scan reaches -/

section Scan

variable (c : Chunker) (data : Bytes) (startPos maxPos : ℕ)

/-- The head of the scan loop: it is reached at `pos` with `hash` the hash of the window that ends
just before `pos`. -/
inductive AtHead : ℕ → BitVec 64 → Prop
  | start {hash : BitVec 64} : startPos < data.length → startPos < maxPos →
      startPos + WINDOW_SIZE ≤ data.length → startPos + WINDOW_SIZE ≤ maxPos →
      c.initHash data startPos = some hash → AtHead (startPos + WINDOW_SIZE) hash
  | next {pos : ℕ} {hash hash' : BitVec 64} : AtHead pos hash → pos < min maxPos data.length →
      c.rollAt data pos hash = some hash' → hash' &&& c.mask ≠ 0 → AtHead (pos + 1) hash'

/-- The scan reaches position `pos` and tests `hash` against the mask there. -/
def Tests (pos : ℕ) (hash : BitVec 64) : Prop :=
  ∃ before, c.AtHead data startPos maxPos pos before ∧ pos < min maxPos data.length ∧
    c.rollAt data pos before = some hash

end Scan

section ScanLemmas

variable {c : Chunker} {data : Bytes} {startPos maxPos : ℕ}

lemma le_of_atHead {pos : ℕ} {hash : BitVec 64} (h : c.AtHead data startPos maxPos pos hash) :
    startPos + WINDOW_SIZE ≤ pos := by
  induction h with
  | start => exact le_rfl
  | next _ _ _ _ ih => omega

lemma atHead_unique {pos : ℕ} {hash₁ hash₂ : BitVec 64}
    (h₁ : c.AtHead data startPos maxPos pos hash₁) (h₂ : c.AtHead data startPos maxPos pos hash₂) :
    hash₁ = hash₂ := by
  induction h₁ generalizing hash₂ with
  | start _ _ _ _ hinit₁ =>
    generalize hpos : startPos + WINDOW_SIZE = pos at h₂
    cases h₂ with
    | start _ _ _ _ hinit₂ => exact Option.some.inj (hinit₁.symm.trans hinit₂)
    | next hhead =>
      have := le_of_atHead hhead
      omega
  | @next pos hash hash' hhead₁ _ hroll₁ _ ih =>
    generalize hpos : pos + 1 = pos' at h₂
    cases h₂ with
    | start =>
      have := le_of_atHead hhead₁
      omega
    | next hhead₂ _ hroll₂ _ =>
      obtain rfl := Nat.succ.inj hpos
      rw [ih hhead₂] at hroll₁
      exact Option.some.inj (hroll₁.symm.trans hroll₂)

lemma ne_zero_of_tests_of_lt {pos : ℕ} {hash : BitVec 64}
    (h : c.AtHead data startPos maxPos pos hash) :
    ∀ {pos' : ℕ} {hash' : BitVec 64}, c.Tests data startPos maxPos pos' hash' → pos' < pos →
      hash' &&& c.mask ≠ 0 := by
  induction h with
  | start =>
    rintro pos' hash' ⟨before, hhead, -, -⟩ hlt
    have := le_of_atHead hhead
    omega
  | @next pos hash hash' hhead _ hroll hne ih =>
    intro pos'' hash'' htests hlt
    rcases Nat.lt_succ_iff_lt_or_eq.mp hlt with hlt | rfl
    · exact ih htests hlt
    · obtain ⟨before, hhead', -, hroll'⟩ := htests
      rw [atHead_unique hhead' hhead, hroll] at hroll'
      rwa [← Option.some.inj hroll']

/-- The scan loop, from its head at `pos`, ends one past the first tested hash that is zero under
the mask, or at the limit if there is none. -/
lemma scan_eq_some {n pos stop : ℕ} {hash : BitVec 64}
    (h : c.AtHead data startPos maxPos pos hash) (hn : pos + n = min maxPos data.length)
    (hscan : c.scan data (min maxPos data.length) n pos hash = some stop) :
    (∃ cut hash', c.Tests data startPos maxPos cut hash' ∧ hash' &&& c.mask = 0 ∧
        stop = cut + 1) ∨
      (stop = min maxPos data.length ∧
        ∀ pos' hash', c.Tests data startPos maxPos pos' hash' → hash' &&& c.mask ≠ 0) := by
  induction n generalizing pos hash with
  | zero =>
    refine .inr ⟨(Option.some.inj hscan).symm, fun pos' hash' htests => ?_⟩
    have hlt : pos' < pos := by
      obtain ⟨_, _, hlt, _⟩ := htests
      omega
    exact ne_zero_of_tests_of_lt h htests hlt
  | succ n ih =>
    simp only [scan, Option.bind_eq_bind, Option.bind_eq_some_iff] at hscan
    obtain ⟨hash', hroll, hscan⟩ := hscan
    split at hscan
    · next hcut =>
      exact .inl ⟨pos, hash', ⟨hash, h, by omega, hroll⟩, hcut, (Option.some.inj hscan).symm⟩
    · next hcut => exact ih (.next h (by omega) hroll hcut) (by omega) hscan

/-- **What the scan finds**: the boundary is one past the first tested position whose hash is zero
under the mask; if no tested hash is, it is the end of the range.

**Proof sketch.** Without a first window inside the range nothing is tested and the range's end is
returned at once. Otherwise the loop starts at its head with the initial hash, and `scan_eq_some`
applies. -/
theorem findChunkBoundary_eq_some {stop : ℕ}
    (h : c.findChunkBoundary data startPos maxPos = some stop) :
    (∃ cut hash, c.Tests data startPos maxPos cut hash ∧ hash &&& c.mask = 0 ∧ stop = cut + 1) ∨
      (stop = min maxPos data.length ∧
        ∀ pos hash, c.Tests data startPos maxPos pos hash → hash &&& c.mask ≠ 0) := by
  have hnone : ¬ startPos + WINDOW_SIZE < min maxPos data.length →
      ∀ pos hash, c.Tests data startPos maxPos pos hash → hash &&& c.mask ≠ 0 := by
    rintro hlt pos hash ⟨before, hhead, hpos, -⟩
    have := le_of_atHead hhead
    omega
  unfold findChunkBoundary at h
  split_ifs at h with h₁ h₂
  · exact .inr ⟨(Option.some.inj h).symm, hnone (by omega)⟩
  · exact .inr ⟨(Option.some.inj h).symm, hnone (by omega)⟩
  · simp only [Option.bind_eq_bind, Option.bind_eq_some_iff] at h
    obtain ⟨hash, hinit, hscan⟩ := h
    exact scan_eq_some (.start (by omega) (by omega) (by omega) (by omega) hinit) (by omega) hscan

end ScanLemmas

end Chunker

end Landropic
