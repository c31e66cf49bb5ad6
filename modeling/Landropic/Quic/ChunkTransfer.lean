import Landropic.Chunker.Chunks
import Landropic.Quic.Protocol

set_option autoImplicit false

/-!
# Which files can be sent

The chunker and the protocol have limits of their own. The chunker's are on all chunks but the
last: it has at least one byte. The protocol rejects chunks of less than 256 bytes, and chunks that
do not fit in a 10 MB message although chunks may have up to 16 MB.

## Main definitions

* `Chunk.toChunkData` — the message a chunk is sent in.
* `Chunk.Deliverable` — both sides of the protocol accept that message.
* `Chunker.Sendable` — where the cuts of a file must lie.

## Main results

* `Chunk.deliverable_iff` — a chunk is accepted exactly when it has the right size.
* `Chunker.all_deliverable_iff` — which files can be sent.
-/

namespace Landropic

/-- The largest chunk whose message fits in `MAX_MESSAGE_SIZE`; the rest is taken by the hash and
the keys and lengths of the fields. -/
def maxDeliverable : ℕ := limits.MAX_MESSAGE_SIZE - 44

namespace Chunk

variable (blake3 : Bytes → ContentHash)

/-- The message a session sends for a wanted chunk. -/
def toChunkData (chunk : Chunk) : ChunkData :=
  { hash := chunk.hash.asBytes
    data := chunk.data
    compressed := false
    uncompressedSize := UInt32.ofNat chunk.data.length }

/-- The chunk's message is valid, fits in a message, and is sent and received without an error. -/
def Deliverable (chunk : Chunk) : Prop :=
  validateChunkData blake3 chunk.toChunkData = .ok () ∧
    chunk.toChunkData.encode.length ≤ limits.MAX_MESSAGE_SIZE ∧
    ∃ stream, StreamProtocol.sendChunkData blake3 chunk.toChunkData = .ok stream ∧
      StreamProtocol.receiveChunkData blake3 stream = .ok chunk.toChunkData

variable {blake3}

/-- **A chunk with its own hash is accepted exactly when its size is within the limits.** -/
theorem deliverable_iff {chunk : Chunk} (hhash : chunk.hash = blake3 chunk.data) :
    chunk.Deliverable blake3 ↔
      limits.MIN_CHUNK_SIZE ≤ chunk.data.length ∧ chunk.data.length ≤ maxDeliverable := by
  have hvalid : validateChunkData blake3 chunk.toChunkData = .ok () ↔
      limits.MIN_CHUNK_SIZE ≤ chunk.data.length ∧ chunk.data.length ≤ limits.MAX_CHUNK_SIZE := by
    rw [validateChunkData_eq_ok_iff]
    simp [toChunkData, hhash]
  have hfits : limits.MIN_CHUNK_SIZE ≤ chunk.data.length →
      chunk.data.length ≤ limits.MAX_CHUNK_SIZE →
      (chunk.toChunkData.encode.length ≤ limits.MAX_MESSAGE_SIZE ↔
        chunk.data.length ≤ maxDeliverable) := by
    intro hmin hmax
    unfold limits.MIN_CHUNK_SIZE at hmin
    unfold limits.MAX_CHUNK_SIZE at hmax
    rw [toChunkData, ChunkData.length_encode_le_iff chunk.hash.length_asBytes (by omega)
      (by omega) (by unfold limits.MAX_MESSAGE_SIZE; omega)]
    unfold maxDeliverable limits.MAX_MESSAGE_SIZE
    omega
  constructor
  · rintro ⟨hok, hsize, -⟩
    obtain ⟨hmin, hmax⟩ := hvalid.mp hok
    exact ⟨hmin, (hfits hmin hmax).mp hsize⟩
  · rintro ⟨hmin, hmax⟩
    have hle : chunk.data.length ≤ limits.MAX_CHUNK_SIZE := by
      unfold maxDeliverable limits.MAX_MESSAGE_SIZE at hmax
      unfold limits.MAX_CHUNK_SIZE
      omega
    have hok := hvalid.mpr ⟨hmin, hle⟩
    have hsize := (hfits hmin hle).mpr hmax
    obtain ⟨stream, hsend⟩ := StreamProtocol.sendChunkData_eq_ok_iff.mpr ⟨hok, hsize⟩
    exact ⟨hok, hsize, stream, hsend, StreamProtocol.receiveChunkData_sendChunkData hsend⟩

end Chunk

namespace Chunker

section Sendable

variable (blake3 : Bytes → ContentHash) (c : Chunker) (data : Bytes)

/-- Every chunk the chunker makes of the data is delivered. -/
def AllDeliverable : Prop :=
  ∃ chunks, c.chunkBytes blake3 data = some chunks ∧ ∀ chunk ∈ chunks, chunk.Deliverable blake3

/-- Where the cuts must lie: none within the last 255 bytes, and in a range longer than
`maxDeliverable` after a cut, a hash that is zero under the mask must be tested within the first
`maxDeliverable` bytes. -/
def Sendable : Prop :=
  (∀ cut, c.CutPoint data cut → cut < data.length → cut + limits.MIN_CHUNK_SIZE ≤ data.length) ∧
  ∀ cut, c.CutPoint data cut → cut + maxDeliverable < c.scanLimit data cut →
    ∃ pos hash, c.TestsFrom data cut pos hash ∧ hash &&& c.mask = 0 ∧ pos < cut + maxDeliverable

variable {blake3 c data}

lemma IsChunk.length_data {chunk : Chunk} (h : IsChunk blake3 c data chunk) :
    ∃ stop, c.NextCut data chunk.offset stop ∧ chunk.data.length = stop - chunk.offset := by
  obtain ⟨hlt, stop, hnext, hdata, -⟩ := h
  obtain ⟨-, hle, -, -⟩ := hnext.bounds hlt
  refine ⟨stop, hnext, ?_⟩
  rw [hdata, List.length_take, List.length_drop]
  omega

variable (blake3 c data)

/-- **A file can be sent exactly when its cuts lie as `Sendable` says.**

**Proof sketch.** Chunks are the stretches between consecutive cuts, so their sizes are the
distances of the cuts. A chunk that is not the last has more than `min_size ≥ 256` bytes; the last
is the one a cut within the last 255 bytes makes too short. A chunk is too long when the scan finds
no zero hash early enough, and there is room to go on. -/
theorem all_deliverable_iff : c.AllDeliverable blake3 data ↔ c.Sendable data := by
  obtain ⟨chunks, hchunks, hall, hcuts⟩ := exists_chunkBytes blake3 c data
  obtain ⟨-, hminSize, -⟩ := c.config_bounds
  have hlimits : limits.MIN_CHUNK_SIZE = ChunkerConfig.MIN_CHUNK_SIZE := rfl
  constructor
  · rintro ⟨chunks', hchunks', hdeliver⟩
    obtain rfl := Option.some.inj (hchunks.symm.trans hchunks')
    have hsize : ∀ cut, c.CutPoint data cut → cut < data.length → ∃ stop,
        c.NextCut data cut stop ∧ limits.MIN_CHUNK_SIZE ≤ stop - cut ∧
          stop - cut ≤ maxDeliverable := by
      intro cut hcut hlt
      obtain ⟨chunk, hmem, rfl⟩ := hcuts cut hcut hlt
      obtain ⟨-, hchunk⟩ := hall chunk hmem
      obtain ⟨stop, hnext, hlen⟩ := hchunk.length_data
      obtain ⟨-, -, -, -, hhash⟩ := hchunk
      obtain ⟨hmin, hmax⟩ := (Chunk.deliverable_iff hhash).mp (hdeliver chunk hmem)
      exact ⟨stop, hnext, by omega, by omega⟩
    refine ⟨fun cut hcut hlt => ?_, fun cut hcut hroom => ?_⟩
    · obtain ⟨stop, hnext, hmin, -⟩ := hsize cut hcut hlt
      obtain ⟨hgt, hle, -, -⟩ := hnext.bounds hlt
      omega
    · have hlt : cut < data.length := by
        unfold scanLimit at hroom
        omega
      obtain ⟨stop, hnext, -, hmax⟩ := hsize cut hcut hlt
      cases hnext with
      | @content pos hash htests hzero => exact ⟨pos, hash, htests, hzero, by omega⟩
      | size => omega
  · rintro ⟨hlast, hearly⟩
    refine ⟨chunks, hchunks, fun chunk hmem => ?_⟩
    obtain ⟨hcut, hchunk⟩ := hall chunk hmem
    obtain ⟨stop, hnext, hlen⟩ := hchunk.length_data
    obtain ⟨hlt, -, -, -, hhash⟩ := hchunk
    obtain ⟨hgt, hle, -, hminOrLast⟩ := hnext.bounds hlt
    rw [Chunk.deliverable_iff hhash, hlen]
    constructor
    · rcases hminOrLast with rfl | hmin
      · have := hlast _ hcut hlt
        omega
      · omega
    · by_contra hlong
      have hroom : chunk.offset + maxDeliverable < c.scanLimit data chunk.offset := by
        have hbound : stop ≤ c.scanLimit data chunk.offset := by
          obtain ⟨-, -, hmax, -⟩ := hnext.bounds hlt
          unfold scanLimit
          omega
        omega
      obtain ⟨pos, hash, htests, hzero, hpos⟩ := hearly _ hcut hroom
      have := hnext.unique (.content htests hzero)
      omega

/-- A file of one byte cannot be sent, whatever the hash function. -/
theorem not_forall_all_deliverable :
    ¬ ∃ blake3 : Bytes → ContentHash, ∀ (c : Chunker) (data : Bytes),
      c.AllDeliverable blake3 data := by
  rintro ⟨blake3, h⟩
  let c : Chunker := .ofValid .default ChunkerConfig.validate_default
  obtain ⟨chunks, hchunks, hall, hcuts⟩ := exists_chunkBytes blake3 c [0]
  obtain ⟨chunks', hchunks', hdeliver⟩ := h c [0]
  obtain rfl := Option.some.inj (hchunks.symm.trans hchunks')
  obtain ⟨chunk, hmem, hoffset⟩ := hcuts 0 .start (by decide)
  obtain ⟨-, hchunk⟩ := hall chunk hmem
  obtain ⟨stop, hnext, hlen⟩ := hchunk.length_data
  obtain ⟨hlt, -, -, -, hhash⟩ := hchunk
  obtain ⟨-, hle, -, -⟩ := hnext.bounds hlt
  obtain ⟨hmin, -⟩ := (Chunk.deliverable_iff hhash).mp (hdeliver chunk hmem)
  simp only [limits.MIN_CHUNK_SIZE, List.length_singleton] at hmin hle
  omega

end Sendable

end Chunker

end Landropic
