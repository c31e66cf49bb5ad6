import Landropic.Chunker.Seams

set_option autoImplicit false

/-!
# Files that are processed with streaming

The orchestrator of the daemon reads a file into a buffer. When the buffer is large enough it chunks
all of it but the last 256 KB, stores the chunks, and goes on with the rest of the buffer and the
next bytes of the file.

## Main definitions

* `Daemon.processSingleFile` — the chunks stored of a file that is read as a whole.
* `Daemon.processFileStreaming` — those stored of a file that is read in blocks.
* `Daemon.seams` — where the buffer is cut.

## Main results

* `Daemon.processFileStreaming_iff` — when the two are the same.

## Design

The file is the list of the blocks that its reads return; of a real file they have between one byte
and 1 MB each. The product that the size of the buffer is compared with is calculated with 64 bits,
in a build with overflow checks or without. A panic gives `none`.
-/

namespace Landropic.Daemon

/-- How much is kept for overlap. -/
def OVERLAP : ℕ := 256 * 1024

/-- The size at which a buffer is processed, unless its calculation panics. -/
def threshold (overflowChecks : Bool) (maxConcurrentChunks : ℕ) : Option ℕ :=
  if overflowChecks = true ∧ maxConcurrentChunks * 256 * 1024 ≥ 2 ^ 64 then none
  else some (maxConcurrentChunks * 256 * 1024 % 2 ^ 64)

section Streaming

variable (blake3 : Bytes → ContentHash) (c : Chunker)

/-- The data of the chunks of some bytes, in the order in which they are stored. -/
def storeChunks (data : Bytes) : Option (List Bytes) :=
  (c.chunkBytes blake3 data).map fun chunks => chunks.map Chunk.data

/-- Process a single file: its content is read and chunked as a whole. -/
def processSingleFile (content : Bytes) : Option (List Bytes) := storeChunks blake3 c content

/-- Process the rest of a file of which some bytes are in the buffer. -/
def processBlocks (limit : Option ℕ) : Bytes → List Bytes → Option (List Bytes)
  -- process any remaining data
  | buffer, [] => if buffer ≠ [] then storeChunks blake3 c buffer else some []
  | buffer, block :: blocks => do
    let limit' ← limit
    -- add new data to buffer
    let buffer := buffer ++ block
    if buffer.length ≥ limit' then
      -- the size that is processed would be negative
      if buffer.length < OVERLAP then none
      else
        let processSize := buffer.length - OVERLAP
        let stored ← storeChunks blake3 c (buffer.take processSize)
        let rest ← processBlocks limit (buffer.drop processSize) blocks
        some (stored ++ rest)
    else processBlocks limit buffer blocks

/-- Process a file with streaming. -/
def processFileStreaming (overflowChecks : Bool) (maxConcurrentChunks : ℕ) (blocks : List Bytes) :
    Option (List Bytes) :=
  processBlocks blake3 c (threshold overflowChecks maxConcurrentChunks) [] blocks

end Streaming

/-- The positions in a file at which the buffer is cut, for the sizes of the blocks that are read: a
buffer that starts at `start` and has `buffered` bytes is cut where 256 KB of what has been read are
left, when it has reached the limit. There are none if it is smaller than that. -/
def seams (limit : Option ℕ) : ℕ → ℕ → List ℕ → Option (List ℕ)
  | _, _, [] => some []
  | start, buffered, size :: sizes => do
    let limit' ← limit
    if buffered + size ≥ limit' then
      if buffered + size < OVERLAP then none
      else
        let seam := start + (buffered + size - OVERLAP)
        let rest ← seams limit seam OVERLAP sizes
        some (seam :: rest)
    else seams limit start (buffered + size) sizes

section Seams

variable {blake3 : Bytes → ContentHash} {c : Chunker}

lemma exists_storeChunks (blake3 : Bytes → ContentHash) (c : Chunker) (data : Bytes) :
    ∃ stored, storeChunks blake3 c data = some stored ∧ Chunker.Chunks c data stored := by
  obtain ⟨chunks, hchunks, h⟩ := Chunker.chunks_of_chunkBytes blake3 c data
  exact ⟨_, congrArg _ hchunks, h⟩

/-- Where the buffer is cut, the chunks that are stored are those of the rest of the file if that is
a cut point, and if the rest after it is chunked so. -/
lemma processBlocks_cut_iff {limit : Option ℕ} {blocks : List Bytes} {content buffer : Bytes}
    {start : ℕ} (hcontent : content.drop start = buffer ++ blocks.flatten)
    (hcut : c.CutPoint content start) (hlarge : OVERLAP ≤ buffer.length)
    (hrest : ∀ {buffer : Bytes} {start : ℕ}, content.drop start = buffer ++ blocks.flatten →
      c.CutPoint content start →
      ((∃ stored, processBlocks blake3 c limit buffer blocks = some stored ∧
          Chunker.Chunks c (buffer ++ blocks.flatten) stored) ↔
        ∃ cuts, seams limit start buffer.length (blocks.map List.length) = some cuts ∧
          ∀ seam ∈ cuts, c.CutPoint content seam)) :
    (∃ stored, ((storeChunks blake3 c (buffer.take (buffer.length - OVERLAP))).bind fun first =>
        (processBlocks blake3 c limit (buffer.drop (buffer.length - OVERLAP)) blocks).bind
          fun rest => some (first ++ rest)) = some stored ∧
        Chunker.Chunks c (buffer ++ blocks.flatten) stored) ↔
      ∃ cuts, ((seams limit (start + (buffer.length - OVERLAP)) OVERLAP
        (blocks.map List.length)).bind fun rest =>
          some ((start + (buffer.length - OVERLAP)) :: rest)) = some cuts ∧
        ∀ seam ∈ cuts, c.CutPoint content seam := by
  have hparts : buffer ++ blocks.flatten = buffer.take (buffer.length - OVERLAP) ++
      (buffer.drop (buffer.length - OVERLAP) ++ blocks.flatten) := by
    rw [← List.append_assoc, List.take_append_drop]
  have htake : (buffer.take (buffer.length - OVERLAP)).length = buffer.length - OVERLAP :=
    List.length_take_of_le (Nat.sub_le ..)
  have hdrop : (buffer.drop (buffer.length - OVERLAP)).length = OVERLAP := by
    rw [List.length_drop]
    omega
  have hcontent' : content.drop (start + (buffer.length - OVERLAP)) =
      buffer.drop (buffer.length - OVERLAP) ++ blocks.flatten := by
    rw [← List.drop_drop, hcontent, List.drop_append_of_le_length (Nat.sub_le ..)]
  obtain ⟨first, hfirst, hchunks⟩ := exists_storeChunks blake3 c
    (buffer.take (buffer.length - OVERLAP))
  have happend (rest : List Bytes) :
      Chunker.Chunks c (buffer ++ blocks.flatten) (first ++ rest) ↔
        c.CutPoint content (start + (buffer.length - OVERLAP)) ∧
          Chunker.Chunks c (buffer.drop (buffer.length - OVERLAP) ++ blocks.flatten) rest := by
    rw [hparts, hchunks.append_iff, htake, Chunker.cutPoint_add_iff hcut, hcontent, hparts]
  rw [hfirst, Option.bind_some]
  constructor
  · rintro ⟨stored, hstored, hwhole⟩
    obtain ⟨rest, hprocess, hpair⟩ := Option.bind_eq_some_iff.mp hstored
    obtain rfl := Option.some.inj hpair
    obtain ⟨hseam, hchunks'⟩ := (happend rest).mp hwhole
    have hlater := hrest hcontent' hseam
    rw [hdrop] at hlater
    obtain ⟨cuts, hcuts, hall⟩ := hlater.mp ⟨rest, hprocess, hchunks'⟩
    exact ⟨_, by rw [hcuts]; rfl, List.forall_mem_cons.mpr ⟨hseam, hall⟩⟩
  · rintro ⟨cuts, hcuts, hall⟩
    obtain ⟨rest, hseams, hpair⟩ := Option.bind_eq_some_iff.mp hcuts
    obtain rfl := Option.some.inj hpair
    obtain ⟨hseam, hall'⟩ := List.forall_mem_cons.mp hall
    have hlater := hrest hcontent' hseam
    rw [hdrop] at hlater
    obtain ⟨stored, hprocess, hchunks'⟩ := hlater.mpr ⟨rest, hseams, hall'⟩
    exact ⟨_, by rw [hprocess]; rfl, (happend stored).mpr ⟨hseam, hchunks'⟩⟩

/-- **The chunks of the rest of a file**, whose buffer starts at a cut point, are stored if the
buffer is cut at cut points.

**Proof sketch.** By induction on the blocks. Where the buffer is cut, the chunks of its first part
and those of all that follows are the chunks of the whole if and only if the two parts meet at a cut
point. -/
lemma processBlocks_iff {limit : Option ℕ} {blocks : List Bytes} {content buffer : Bytes}
    {start : ℕ}
    (hcontent : content.drop start = buffer ++ blocks.flatten)
    (hcut : c.CutPoint content start) :
    (∃ stored, processBlocks blake3 c limit buffer blocks = some stored ∧
        Chunker.Chunks c (buffer ++ blocks.flatten) stored) ↔
      ∃ cuts, seams limit start buffer.length (blocks.map List.length) = some cuts ∧
        ∀ seam ∈ cuts, c.CutPoint content seam := by
  induction blocks generalizing start buffer with
  | nil =>
    refine iff_of_true ?_ ⟨[], rfl, nofun⟩
    rw [List.flatten_nil, List.append_nil, processBlocks]
    split
    · exact exists_storeChunks blake3 c buffer
    · next h =>
      rw [not_not.mp h]
      exact ⟨[], rfl, .nil⟩
  | cons block blocks ih =>
    have hwhole : buffer ++ (block :: blocks).flatten = (buffer ++ block) ++ blocks.flatten := by
      simp
    rw [hwhole] at hcontent ⊢
    have hlength : buffer.length + block.length = (buffer ++ block).length :=
      List.length_append.symm
    rw [processBlocks, List.map_cons, seams]
    cases limit with
    | none => exact iff_of_false (fun ⟨_, h, _⟩ => nomatch h) fun ⟨_, h, _⟩ => nomatch h
    | some limit =>
      simp only [Option.bind_eq_bind, Option.bind_some, hlength]
      by_cases hlimit : (buffer ++ block).length ≥ limit
      · rw [if_pos hlimit, if_pos hlimit]
        by_cases hsmall : (buffer ++ block).length < OVERLAP
        · rw [if_pos hsmall, if_pos hsmall]
          exact iff_of_false (fun ⟨_, h, _⟩ => nomatch h) fun ⟨_, h, _⟩ => nomatch h
        · rw [if_neg hsmall, if_neg hsmall]
          exact processBlocks_cut_iff hcontent hcut (not_lt.mp hsmall) ih
      · rw [if_neg hlimit, if_neg hlimit]
        exact ih hcontent hcut

/-- **When streaming stores the chunks of the file**: the limit can be calculated, the buffer never
reaches it with less than 256 KB, and it is always cut at a cut point of the file. -/
theorem processFileStreaming_iff (blake3 : Bytes → ContentHash) (c : Chunker)
    (overflowChecks : Bool) (maxConcurrentChunks : ℕ) (blocks : List Bytes) :
    (∃ stored,
        processFileStreaming blake3 c overflowChecks maxConcurrentChunks blocks = some stored ∧
        processSingleFile blake3 c blocks.flatten = some stored) ↔
      ∃ cuts, seams (threshold overflowChecks maxConcurrentChunks) 0 0 (blocks.map List.length) =
          some cuts ∧ ∀ seam ∈ cuts, c.CutPoint blocks.flatten seam := by
  obtain ⟨whole, hwhole, hchunks⟩ := exists_storeChunks blake3 c blocks.flatten
  have hsame (stored : List Bytes) : processSingleFile blake3 c blocks.flatten = some stored ↔
      Chunker.Chunks c blocks.flatten stored := by
    rw [processSingleFile, hwhole, Option.some_inj]
    exact ⟨fun h => h ▸ hchunks, fun h => hchunks.unique h⟩
  simp only [hsame]
  exact processBlocks_iff (show blocks.flatten.drop 0 = [] ++ blocks.flatten from rfl) .start

/-- The chunker with the default configuration. -/
def defaultChunker : Chunker := .ofValid .default ChunkerConfig.validate_default

lemma not_cutPoint_one {data : Bytes} (h : 1 < data.length) : ¬ c.CutPoint data 1 := by
  intro hcut
  generalize hone : 1 = stop at hcut
  cases hcut with
  | start => cases hone
  | next _ hlt hnext =>
    have hbounds := hnext.bounds hlt
    have hconfig := c.config_bounds
    unfold ChunkerConfig.MIN_CHUNK_SIZE at hconfig
    omega

/-- **A file of one byte more than 256 KB**, with one concurrent chunk: its first byte is stored as
a chunk of its own. -/
theorem not_processFileStreaming_seam :
    ¬ ∀ (blake3 : Bytes → ContentHash) (c : Chunker) (overflowChecks : Bool)
        (maxConcurrentChunks : ℕ) (blocks : List Bytes),
      (∀ block ∈ blocks, block ≠ [] ∧ block.length ≤ 1024 * 1024) →
        ∃ stored,
          processFileStreaming blake3 c overflowChecks maxConcurrentChunks blocks = some stored ∧
            processSingleFile blake3 c blocks.flatten = some stored := by
  intro hall
  obtain ⟨content, hlength⟩ : ∃ content : Bytes, content.length = 262145 :=
    ⟨List.replicate 262145 0, List.length_replicate⟩
  have hblocks : ∀ block ∈ [content], block ≠ [] ∧ block.length ≤ 1024 * 1024 := by
    intro block hblock
    rw [List.mem_singleton.mp hblock]
    exact ⟨List.length_pos_iff.mp (by omega), by omega⟩
  obtain ⟨stored, hstored, hwhole⟩ := hall ContentHash.blake3Sample defaultChunker true 1 [content]
    hblocks
  have hchunks : Chunker.Chunks defaultChunker ([] ++ [content].flatten) stored := by
    obtain ⟨whole, hwhole', hchunks⟩ := exists_storeChunks ContentHash.blake3Sample defaultChunker
      [content].flatten
    rw [processSingleFile, hwhole'] at hwhole
    exact Option.some.inj hwhole ▸ hchunks
  obtain ⟨cuts, hcuts, hcutPoints⟩ := (processBlocks_iff (show content.drop 0 =
    [] ++ [content].flatten by simp) .start).mp ⟨stored, hstored, hchunks⟩
  have hseams : seams (threshold true 1) 0 0 [262145] = some [1] := by decide
  rw [List.map_cons, List.map_nil, hlength, List.length_nil, hseams, Option.some_inj] at hcuts
  exact not_cutPoint_one (by omega) (hcutPoints 1 (hcuts ▸ List.mem_singleton_self 1))

end Seams

end Landropic.Daemon
