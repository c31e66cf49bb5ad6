import Landropic.Foundations.Fs
import Landropic.Chunker.ChunkLists

set_option autoImplicit false

/-!
# Chunking a stream

A stream is read to its end, block by block, and then cut by a loop of its own. That loop clamps the
end of every chunk to the end of the buffer, which changes nothing, so the chunks are those of the
bytes that were read, however the reads have split them.

## Main definitions

* `Chunker.readToEnd` — the loop that reads a stream into memory.
* `Chunker.chunkStream` — the chunks of a stream.
* `Chunker.Fragments` — a way to split a byte string into reads.

## Main results

* `Chunker.chunkStream_eq_chunkBytes` — the chunks of a stream are those of its bytes.

## Design

A reader is the list of what its calls return, and past its last result it is at its end.
-/

namespace Landropic

namespace Chunker

/-- The size of the buffer for one read, 64 KB. -/
def READ_BUFFER_SIZE : ℕ := 64 * 1024

/-- Read the entire stream into memory: a read of zero bytes is its end. -/
def readToEnd : List (Except IoError Bytes) → Bytes → Except IoError Bytes
  | [], buffer => .ok buffer
  | .error e :: _, _ => .error e
  | .ok block :: reads, buffer =>
    if block.length = 0 then .ok buffer else readToEnd reads (buffer ++ block)

section Stream

variable (blake3 : Bytes → ContentHash)

/-- The chunks of the buffer from `offset` on, in at most `fuel` rounds of the loop. -/
def streamChunksFrom (c : Chunker) (buffer : Bytes) : ℕ → ℕ → Option (List Chunk)
  | 0, offset => if offset < buffer.length then none else some []
  | fuel + 1, offset =>
    if offset < buffer.length then do
      let stop ← c.chunkEnd buffer offset
      -- ensure we don't exceed bounds
      let stop := min stop buffer.length
      if offset ≤ stop ∧ stop ≤ buffer.length then
        let chunkData := (buffer.drop offset).take (stop - offset)
        let rest ← streamChunksFrom c buffer fuel stop
        some (⟨chunkData, blake3 chunkData, offset⟩ :: rest)
      else none
    else some []

/-- Chunk data from an async reader. Its only errors are those of the reader. -/
def chunkStream (c : Chunker) (reads : List (Except IoError Bytes)) :
    Except IoError (Option (List Chunk)) := do
  let buffer ← readToEnd reads []
  if buffer = [] then pure (some [])
  else pure (c.streamChunksFrom blake3 buffer buffer.length 0)

end Stream

/-- A way to split a byte string into reads: each of them returns something, and not more than fits
the read buffer. -/
structure Fragments (data : Bytes) where
  blocks : List Bytes
  ne_nil : ∀ block ∈ blocks, block ≠ []
  length_le : ∀ block ∈ blocks, block.length ≤ READ_BUFFER_SIZE
  flatten_eq : blocks.flatten = data

/-- What the calls of such a reader return: the blocks, and then nothing. -/
def Fragments.reads {data : Bytes} (fragments : Fragments data) : List (Except IoError Bytes) :=
  fragments.blocks.map Except.ok ++ [.ok []]

variable {blake3 : Bytes → ContentHash} {c : Chunker}

lemma readToEnd_blocks {blocks : List Bytes} (h : ∀ block ∈ blocks, block ≠ []) (buffer : Bytes) :
    readToEnd (blocks.map Except.ok ++ [.ok []]) buffer = .ok (buffer ++ blocks.flatten) := by
  induction blocks generalizing buffer with
  | nil => simp [readToEnd]
  | cons block blocks ih =>
    obtain ⟨hne, hrest⟩ := List.forall_mem_cons.mp h
    rw [List.map_cons, List.cons_append, readToEnd, if_neg (List.length_eq_zero_iff.not.mpr hne),
      ih hrest, List.append_assoc, List.flatten_cons]

lemma streamChunksFrom_eq (buffer : Bytes) (fuel offset : ℕ) :
    c.streamChunksFrom blake3 buffer fuel offset = c.chunksFrom blake3 buffer fuel offset := by
  induction fuel generalizing offset with
  | zero => rfl
  | succ fuel ih =>
    rw [streamChunksFrom, chunksFrom]
    by_cases hlt : offset < buffer.length
    · obtain ⟨stop, hstop⟩ := c.exists_chunkEnd buffer offset
      obtain ⟨-, hle, -, -⟩ := ((chunkEnd_eq_some_iff hlt).mp hstop).bounds hlt
      simp only [if_pos hlt, hstop, Option.bind_eq_bind, Option.bind_some, Nat.min_eq_left hle, ih]
    · rw [if_neg hlt, if_neg hlt]

variable (blake3) in
/-- **The chunks of a stream are those of its bytes**, for every way to split them into reads.

**Proof sketch.** The reads collect the bytes. The next cut of a byte string does not lie beyond its
end, so the clamp of the stream's loop never applies, and round by round it is the other loop. -/
theorem chunkStream_eq_chunkBytes (c : Chunker) {data : Bytes} (fragments : Fragments data) :
    ∃ chunks, c.chunkBytes blake3 data = some chunks ∧
      c.chunkStream blake3 fragments.reads = .ok (some chunks) := by
  obtain ⟨chunks, hchunks, -⟩ := exists_chunkBytes blake3 c data
  refine ⟨chunks, hchunks, ?_⟩
  have hread : readToEnd fragments.reads [] = .ok data := by
    rw [Fragments.reads, readToEnd_blocks fragments.ne_nil, List.nil_append, fragments.flatten_eq]
  show (readToEnd fragments.reads [] >>= fun buffer => _) = _
  rw [hread]
  show (if data = [] then pure (some [])
    else pure (c.streamChunksFrom blake3 data data.length 0)) = _
  by_cases hnil : data = []
  · subst hnil
    rw [if_pos rfl, ← hchunks]
    rfl
  · rw [if_neg hnil, streamChunksFrom_eq, ← hchunks]
    rfl

end Chunker

end Landropic
