import Landropic.Chunker.Boundary

set_option autoImplicit false

/-!
# The chunks of a byte string

Where the chunker cuts, stated by the hashes the scans test, and the chunks `chunk_bytes` makes:
they lie between consecutive cut points, and chunking never fails.

## Main definitions

* `Chunker.NextCut` — the cut that follows a chunk's start.
* `Chunker.CutPoint` — the cut points of a byte string, its start included.

## Main results

* `Chunker.chunkEnd_eq_some_iff` — the chunk that starts at a position ends at the next cut.
* `Chunker.NextCut.bounds` — the sizes a chunk can have.
* `Chunker.exists_chunkBytes` — chunking succeeds, and its chunks are exactly the stretches between
  a cut point and the next one.
-/

namespace Landropic

namespace Chunker

/-! ## Cut points -/

section CutPoints

variable (c : Chunker) (data : Bytes)

/-- The end of the scanned range of the chunk that starts at `start`. -/
def scanLimit (start : ℕ) : ℕ := min (start + c.config.maxSize) data.length

/-- The scan for the end of the chunk that starts at `start` tests `hash` at `pos`. -/
def TestsFrom (start pos : ℕ) (hash : BitVec 64) : Prop :=
  c.Tests data (start + c.config.minSize) (c.scanLimit data start) pos hash

/-- The cut after the chunk that starts at `start`: one past the tested position whose hash is zero
under the mask, or the end of the range if there is none. -/
inductive NextCut (start : ℕ) : ℕ → Prop
  | content {pos : ℕ} {hash : BitVec 64} : c.TestsFrom data start pos hash →
      hash &&& c.mask = 0 → NextCut start (pos + 1)
  | size : (∀ pos hash, c.TestsFrom data start pos hash → hash &&& c.mask ≠ 0) →
      NextCut start (c.scanLimit data start)

/-- The cut points: the start of the data and every cut after a chunk that starts at one. -/
inductive CutPoint : ℕ → Prop
  | start : CutPoint 0
  | next {start stop : ℕ} : CutPoint start → start < data.length → c.NextCut data start stop →
      CutPoint stop

end CutPoints

section Bounds

variable {c : Chunker} {data : Bytes} {start : ℕ}

lemma config_bounds (c : Chunker) : c.config.minSize < c.config.maxSize ∧
    ChunkerConfig.MIN_CHUNK_SIZE ≤ c.config.minSize ∧
    c.config.maxSize ≤ ChunkerConfig.MAX_CHUNK_SIZE := by
  obtain ⟨havg, hmax, hmin, hle, -, -⟩ := ChunkerConfig.validate_eq_ok_iff.mp c.valid
  exact ⟨by omega, hmin, hle⟩

lemma tests_zero_unique {startPos maxPos pos₁ pos₂ : ℕ} {hash₁ hash₂ : BitVec 64}
    (h₁ : c.Tests data startPos maxPos pos₁ hash₁) (hz₁ : hash₁ &&& c.mask = 0)
    (h₂ : c.Tests data startPos maxPos pos₂ hash₂) (hz₂ : hash₂ &&& c.mask = 0) :
    pos₁ = pos₂ := by
  obtain ⟨_, hhead₁, -, -⟩ := id h₁
  obtain ⟨_, hhead₂, -, -⟩ := id h₂
  rcases Nat.lt_trichotomy pos₁ pos₂ with hlt | heq | hgt
  · exact absurd hz₁ (ne_zero_of_tests_of_lt hhead₂ h₁ hlt)
  · exact heq
  · exact absurd hz₂ (ne_zero_of_tests_of_lt hhead₁ h₂ hgt)

lemma NextCut.unique {stop₁ stop₂ : ℕ} (h₁ : c.NextCut data start stop₁)
    (h₂ : c.NextCut data start stop₂) : stop₁ = stop₂ := by
  cases h₁ with
  | content ht₁ hz₁ =>
    cases h₂ with
    | content ht₂ hz₂ => rw [tests_zero_unique ht₁ hz₁ ht₂ hz₂]
    | size hne => exact absurd hz₁ (hne _ _ ht₁)
  | size hne =>
    cases h₂ with
    | content ht₂ hz₂ => exact absurd hz₂ (hne _ _ ht₂)
    | size => rfl

/-- **The sizes of a chunk**: it is not empty, ends within the data and has at most `max_size`
bytes; unless it is the last one it has more than `min_size` bytes. -/
theorem NextCut.bounds {stop : ℕ} (h : c.NextCut data start stop) (hstart : start < data.length) :
    start < stop ∧ stop ≤ data.length ∧ stop ≤ start + c.config.maxSize ∧
      (stop = data.length ∨ start + c.config.minSize < stop) := by
  obtain ⟨hmin, hle, -⟩ := c.config_bounds
  cases h with
  | content htests hzero =>
    obtain ⟨before, hhead, hlt, -⟩ := htests
    have := le_of_atHead hhead
    unfold scanLimit at hlt
    omega
  | size hne =>
    unfold scanLimit ChunkerConfig.MIN_CHUNK_SIZE at *
    omega

lemma exists_scan {limit n pos : ℕ} {hash : BitVec 64} (hpos : WINDOW_SIZE ≤ pos)
    (hn : pos + n ≤ data.length) : ∃ stop, c.scan data limit n pos hash = some stop := by
  induction n generalizing pos hash with
  | zero => exact ⟨limit, rfl⟩
  | succ n ih =>
    have hnew : data[pos]? = some data[pos] := List.getElem?_eq_getElem _
    have hold : data[pos - WINDOW_SIZE]? = some data[pos - WINDOW_SIZE] :=
      List.getElem?_eq_getElem _
    rw [scan, c.rollAt_eq hold hnew]
    simp only [Option.bind_eq_bind, Option.bind_some]
    split_ifs with hcut
    · exact ⟨pos + 1, rfl⟩
    · exact ih (by omega) (by omega)

lemma exists_findChunkBoundary (startPos maxPos : ℕ) :
    ∃ stop, c.findChunkBoundary data startPos maxPos = some stop := by
  unfold findChunkBoundary
  split_ifs with h₁ h₂
  · exact ⟨_, rfl⟩
  · exact ⟨_, rfl⟩
  · rw [c.initHash_eq (by omega)]
    exact exists_scan (by omega) (by omega)

lemma exists_chunkEnd (c : Chunker) (data : Bytes) (start : ℕ) :
    ∃ stop, c.chunkEnd data start = some stop := by
  simp only [chunkEnd]
  split_ifs
  · exact exists_findChunkBoundary _ _
  · exact ⟨_, rfl⟩

/-- **A chunk ends at the next cut.** -/
theorem chunkEnd_eq_some_iff {stop : ℕ} (hstart : start < data.length) :
    c.chunkEnd data start = some stop ↔ c.NextCut data start stop := by
  have hfwd : ∀ stop, c.chunkEnd data start = some stop → c.NextCut data start stop := by
    intro stop h
    simp only [chunkEnd] at h
    split_ifs at h with hscan
    · rw [Nat.min_eq_left (by omega)] at h
      rcases findChunkBoundary_eq_some h with ⟨cut, hash, htests, hzero, rfl⟩ | ⟨rfl, hne⟩
      · exact .content htests hzero
      · rw [Nat.min_eq_left (Nat.min_le_right _ _)]
        exact .size hne
    · -- nothing is left to scan: the chunk is the rest of the data
      obtain ⟨hmin, -, -⟩ := c.config_bounds
      have hlimit : start + min c.config.minSize (data.length - start) =
          c.scanLimit data start := by
        unfold scanLimit
        omega
      rw [← Option.some.inj h, hlimit]
      refine .size fun pos hash htests => ?_
      have := c.lt_of_tests htests
      unfold scanLimit at this
      omega
  refine ⟨hfwd stop, fun h => ?_⟩
  obtain ⟨stop', hstop'⟩ := c.exists_chunkEnd data start
  rw [h.unique (hfwd stop' hstop'), hstop']

end Bounds

/-! ## The list of chunks -/

section Chunks

variable (blake3 : Bytes → ContentHash) (c : Chunker) (data : Bytes)

/-- A chunk is the stretch from its offset to the next cut, with its hash. -/
def IsChunk (chunk : Chunk) : Prop :=
  chunk.offset < data.length ∧ ∃ stop, c.NextCut data chunk.offset stop ∧
    chunk.data = (data.drop chunk.offset).take (stop - chunk.offset) ∧
    chunk.hash = blake3 chunk.data

/-- One round of the loop makes the chunk from `offset` to the next cut. -/
lemma exists_chunksFrom_succ (fuel : ℕ) {offset : ℕ} (h : offset < data.length) :
    ∃ chunk stop, c.NextCut data offset stop ∧ chunk.offset = offset ∧
      IsChunk blake3 c data chunk ∧
      c.chunksFrom blake3 data (fuel + 1) offset =
        (c.chunksFrom blake3 data fuel stop).map (chunk :: ·) := by
  obtain ⟨stop, hstop⟩ := c.exists_chunkEnd data offset
  have hcut := (chunkEnd_eq_some_iff h).mp hstop
  obtain ⟨hlt, hle, -, -⟩ := hcut.bounds h
  let chunkData := (data.drop offset).take (stop - offset)
  refine ⟨⟨chunkData, blake3 chunkData, offset⟩, stop, hcut, rfl, ⟨h, stop, hcut, rfl, rfl⟩, ?_⟩
  rw [chunksFrom, if_pos h, hstop]
  simp only [Option.bind_eq_bind, Option.bind_some]
  rw [if_pos ⟨hlt.le, hle⟩]
  cases c.chunksFrom blake3 data fuel stop <;> rfl

/-- From a cut point on, the loop makes the chunk of every cut point that follows, and no other
chunk.

**Proof sketch.** Induction on the rounds left. A round moves the offset to the next cut, so the
rounds suffice, and each cut point the loop has reached is followed by its own chunk. -/
lemma exists_chunksFrom (fuel : ℕ) {offset : ℕ} (hcut : c.CutPoint data offset)
    (hle : offset ≤ data.length) (hfuel : data.length ≤ offset + fuel) :
    ∃ chunks, c.chunksFrom blake3 data fuel offset = some chunks ∧
      (∀ chunk ∈ chunks, c.CutPoint data chunk.offset ∧ IsChunk blake3 c data chunk) ∧
      (offset < data.length → ∃ chunk ∈ chunks, chunk.offset = offset) ∧
      (∀ chunk ∈ chunks, ∀ stop, c.NextCut data chunk.offset stop → stop < data.length →
        ∃ chunk' ∈ chunks, chunk'.offset = stop) := by
  induction fuel generalizing offset with
  | zero =>
    refine ⟨[], ?_, by simp, by omega, by simp⟩
    rw [chunksFrom, if_neg (by omega)]
  | succ fuel ih =>
    by_cases h : offset < data.length
    · obtain ⟨chunk, stop, hnext, hoffset, hchunk, hrun⟩ :=
        exists_chunksFrom_succ blake3 c data fuel h
      obtain ⟨hlt, hstop, -, -⟩ := hnext.bounds h
      obtain ⟨chunks, hchunks, hall, hfirst, hchain⟩ := ih (.next hcut h hnext) hstop (by omega)
      refine ⟨chunk :: chunks, by rw [hrun, hchunks]; rfl, ?_, ?_, ?_⟩
      · intro chunk' hmem
        rcases List.mem_cons.mp hmem with rfl | hmem
        · exact ⟨hoffset ▸ hcut, hchunk⟩
        · exact hall chunk' hmem
      · exact fun _ => ⟨chunk, List.mem_cons_self, hoffset⟩
      · intro chunk' hmem stop' hnext' hlt'
        rcases List.mem_cons.mp hmem with rfl | hmem
        · rw [hoffset] at hnext'
          obtain rfl := hnext'.unique hnext
          obtain ⟨chunk'', hmem'', hoffset''⟩ := hfirst hlt'
          exact ⟨chunk'', List.mem_cons_of_mem _ hmem'', hoffset''⟩
        · obtain ⟨chunk'', hmem'', hoffset''⟩ := hchain chunk' hmem stop' hnext' hlt'
          exact ⟨chunk'', List.mem_cons_of_mem _ hmem'', hoffset''⟩
    · refine ⟨[], ?_, by simp, fun h' => absurd h' h, by simp⟩
      rw [chunksFrom, if_neg h]

/-- **Chunking succeeds, and makes exactly one stretch for each cut point before the end.** -/
theorem exists_chunkBytes :
    ∃ chunks, c.chunkBytes blake3 data = some chunks ∧
      (∀ chunk ∈ chunks, c.CutPoint data chunk.offset ∧ IsChunk blake3 c data chunk) ∧
      (∀ cut, c.CutPoint data cut → cut < data.length → ∃ chunk ∈ chunks, chunk.offset = cut) := by
  obtain ⟨chunks, hrun, hall, hfirst, hchain⟩ :=
    exists_chunksFrom blake3 c data data.length .start (Nat.zero_le _) (by omega)
  refine ⟨chunks, hrun, hall, fun cut hcut => ?_⟩
  induction hcut with
  | start => exact hfirst
  | next hprev hlt hnext ih =>
    intro hcut
    obtain ⟨chunk, hmem, rfl⟩ := ih hlt
    exact hchain chunk hmem _ hnext hcut

end Chunks

end Chunker

end Landropic
