import Mathlib.Data.Char
import Landropic.Foundations.Answers
import Landropic.Quic.TransferEngine

set_option autoImplicit false

/-!
# Which chunks a batch transfer collects

A batch transfer asks for chunks and then receives as many messages as it asked for. Each message
counts, also one that brings a chunk again or a chunk nobody asked for.

## Main definitions

* `ChunkPeer` — what a peer sends, and whether the connection is lost behind it.
* `BatchTransferManager.Delivers` — a peer sends chunks.
* `BatchTransferManager.Collects` — a transfer returns each wanted chunk once, and no other.
* `BatchTransferManager.OnceEach` — each wanted chunk comes once in time.

## Main results

* `BatchTransferManager.answered_receiveChunks` — what a transfer receives.
* `BatchTransferManager.collects_iff` — when a transfer collects what was asked for.
-/

namespace Landropic

/-- What a peer sends: the streams that are still to come, and whether the connection is lost behind
them. -/
structure ChunkPeer where
  streams : List Bytes
  closes : Bool

/-- How a peer answers an engine. Requests are sent; a chunk is read off the next stream, and when
there is none it is waited for, unless the connection is lost. -/
def ChunkPeer.answer (blake3 : Bytes → ContentHash) (clock : TransferClock) :
    EngineOp → ChunkPeer → Option (EngineInput × ChunkPeer)
  | .receiveChunk, ⟨stream :: streams, closes⟩ =>
    some (⟨clock, .ok (), StreamProtocol.receiveChunkData blake3 stream⟩, ⟨streams, closes⟩)
  | .receiveChunk, ⟨[], true⟩ =>
    some (⟨clock, .ok (), .error (.stream "connection lost")⟩, ⟨[], true⟩)
  | .receiveChunk, ⟨[], false⟩ => none
  | _, peer => some (⟨clock, .ok (), .error (.stream "not received")⟩, peer)

namespace BatchTransferManager

open Proc

/-- The hash of the data of a chunk. -/
def dataHash (blake3 : Bytes → ContentHash) (chunk : ChunkData) : Bytes :=
  (blake3 chunk.data).asBytes

/-- A peer sends chunks, each in a valid message on a stream of its own. -/
def Delivers (blake3 : Bytes → ContentHash) (peer : ChunkPeer) (chunks : List ChunkData) : Prop :=
  List.Forall₂ (fun chunk stream => StreamProtocol.sendChunkData blake3 chunk = .ok stream) chunks
    peer.streams

/-- **A transfer collects what was asked for**: it returns, and what it returns has each wanted
chunk once, and no other chunk. -/
def Collects (isAlphanumeric : Char → Bool) (blake3 : Bytes → ContentHash) (clock : TransferClock)
    (e : QuicTransferEngine) (peer : ChunkPeer) (wantedChunks : List Bytes) : Prop :=
  ∃ chunks rest, answered (ChunkPeer.answer blake3 clock)
      (transferChunks isAlphanumeric blake3 wantedChunks) e peer = some (.ok chunks, rest) ∧
    (chunks.map (dataHash blake3)).Nodup ∧
    ∀ hash, hash ∈ chunks.map (dataHash blake3) ↔ hash ∈ wantedChunks

/-- The chunks that come in time: as many as were asked for. -/
def inTime (wantedChunks : List Bytes) (chunks : List ChunkData) : List ChunkData :=
  chunks.take wantedChunks.length

/-- **Each wanted chunk comes once in time**: the request is not too long, each wanted chunk is in
one of as many messages as were asked for, and in one only, and if there are not as many the
connection is lost behind them. -/
structure OnceEach (blake3 : Bytes → ContentHash) (wantedChunks : List Bytes)
    (chunks : List ChunkData) (closes : Bool) : Prop where
  length_le : wantedChunks.length ≤ MAX_WANT_HASHES
  once : ∀ hash ∈ wantedChunks,
    ((inTime wantedChunks chunks).map (dataHash blake3)).count hash = 1
  ends : wantedChunks.length ≤ chunks.length ∨ closes = true

section Transfer

variable {isAlphanumeric : Char → Bool} {blake3 : Bytes → ContentHash} {clock : TransferClock}
  {e : QuicTransferEngine} {peer : ChunkPeer} {chunks : List ChunkData} {wantedChunks : List Bytes}

lemma exists_delivers (closes : Bool)
    (h : ∀ chunk ∈ chunks, ∃ stream, StreamProtocol.sendChunkData blake3 chunk = .ok stream) :
    ∃ peer : ChunkPeer, peer.closes = closes ∧ Delivers blake3 peer chunks := by
  suffices ∃ streams, List.Forall₂
      (fun chunk stream => StreamProtocol.sendChunkData blake3 chunk = .ok stream) chunks
        streams by
    obtain ⟨streams, hsent⟩ := this
    exact ⟨⟨streams, closes⟩, rfl, hsent⟩
  induction chunks with
  | nil => exact ⟨[], .nil⟩
  | cons chunk chunks ih =>
    obtain ⟨stream, hstream⟩ := h chunk List.mem_cons_self
    obtain ⟨streams, hstreams⟩ := ih fun chunk hmem => h chunk (List.mem_cons_of_mem _ hmem)
    exact ⟨stream :: streams, .cons hstream hstreams⟩

/-- A chunk that is sent is received, and kept if it is wanted. -/
lemma exists_answered_receiveChunk (clock : TransferClock) (e : QuicTransferEngine)
    (wantedChunks : List Bytes) {chunk : ChunkData} {stream : Bytes} (streams : List Bytes)
    (closes : Bool) (h : StreamProtocol.sendChunkData blake3 chunk = .ok stream) :
    ∃ e', answered (ChunkPeer.answer blake3 clock) (receiveChunk blake3 wantedChunks) e
      ⟨stream :: streams, closes⟩ = some (.ok chunk, e', ⟨streams, closes⟩) := by
  rw [receiveChunk, answered_atom]
  simp only [ChunkPeer.answer, Option.map_some, StreamProtocol.receiveChunkData_sendChunkData h]
  split
  · exact ⟨_, rfl⟩
  · exact ⟨_, rfl⟩

/-- **What a transfer receives**: of so many messages those with wanted chunks. It waits for ever
where there are not so many and the connection is not lost.

**Proof sketch.** Induction on the number of messages that are still waited for. -/
theorem answered_receiveChunks (clock : TransferClock) (e : QuicTransferEngine)
    (wantedChunks : List Bytes) (n : ℕ) (h : Delivers blake3 peer chunks) :
    (answered (ChunkPeer.answer blake3 clock) (receiveChunks blake3 wantedChunks n) e peer).map
        Prod.fst =
      if n ≤ chunks.length ∨ peer.closes = true then
        some (.ok ((chunks.take n).filter fun chunk => dataHash blake3 chunk ∈ wantedChunks))
      else none := by
  induction n generalizing e peer chunks with
  | zero => simp [receiveChunks]
  | succ n ih =>
    obtain ⟨streams, closes⟩ := peer
    rw [receiveChunks, answered_bind, answered_attempt]
    cases h with
    | nil =>
      rw [receiveChunk, answered_atom]
      cases closes with
      | true => simp [ChunkPeer.answer]
      | false => simp [ChunkPeer.answer]
    | @cons chunk stream chunks streams hsent hrest =>
      obtain ⟨e', he'⟩ := exists_answered_receiveChunk clock e wantedChunks streams closes hsent
      have hih := ih e' (show Delivers blake3 ⟨streams, closes⟩ chunks from hrest)
      rw [he', Option.map_some, Option.bind_some]
      simp only [answered_bind, List.length_cons, Nat.add_le_add_iff_right, List.take_succ_cons]
      by_cases hmore : n ≤ chunks.length ∨ closes = true
      · rw [if_pos hmore] at hih ⊢
        obtain ⟨⟨r, e'', peer'⟩, hend, hr⟩ := Option.map_eq_some_iff.mp hih
        obtain rfl : r = _ := hr
        rw [hend, Option.bind_some, List.filter_cons]
        by_cases hwanted : dataHash blake3 chunk ∈ wantedChunks
        · have hkept : (blake3 chunk.data).asBytes ∈ wantedChunks := hwanted
          simp [hwanted, hkept]
        · have hdropped : (blake3 chunk.data).asBytes ∉ wantedChunks := hwanted
          simp [hwanted, hdropped]
      · rw [if_neg hmore] at hih ⊢
        rw [Option.map_eq_none_iff.mp hih]
        rfl

lemma validateWant_wantOf_iff (halpha : ∀ c ∈ "default".toList, isAlphanumeric c = true)
    (hhash : ∀ hash ∈ wantedChunks, hash.length = 32) :
    validateWant isAlphanumeric (wantOf wantedChunks) = .ok () ↔
      wantedChunks.length ≤ MAX_WANT_HASHES := by
  have hfolder : Validator.validateFolderId isAlphanumeric "default".toList = .ok () := by
    unfold Validator.validateFolderId
    rw [if_neg (by decide), if_neg (by decide), if_neg]
    rw [not_not]
    exact List.all_eq_true.mpr fun c hc => by simp [halpha c hc]
  rw [validateWant_eq_ok_iff]
  exact ⟨fun h => h.2.2, fun h => ⟨hfolder, hhash, h⟩⟩

/-- **What a transfer returns**: of as many messages as it asks for those with wanted chunks, if the
request is not too long and it need not wait for ever. -/
theorem exists_answered_transferChunks_iff
    (halpha : ∀ c ∈ "default".toList, isAlphanumeric c = true)
    (hhash : ∀ hash ∈ wantedChunks, hash.length = 32) (h : Delivers blake3 peer chunks)
    {received : List ChunkData} :
    (∃ rest, answered (ChunkPeer.answer blake3 clock)
      (transferChunks isAlphanumeric blake3 wantedChunks) e peer = some (.ok received, rest)) ↔
    wantedChunks.length ≤ MAX_WANT_HASHES ∧
      (wantedChunks.length ≤ chunks.length ∨ peer.closes = true) ∧
      received = (inTime wantedChunks chunks).filter fun chunk =>
        dataHash blake3 chunk ∈ wantedChunks := by
  rw [transferChunks, sendWant, ← validateWant_wantOf_iff halpha hhash, inTime]
  have hreceive := answered_receiveChunks clock e wantedChunks wantedChunks.length h
  cases hvalid : validateWant isAlphanumeric (wantOf wantedChunks) with
  | error err => simp
  | ok _ =>
    simp only [answered_bind, answered_atom, ChunkPeer.answer, Option.map_some, Option.bind_some,
      true_and]
    cases hend : answered (ChunkPeer.answer blake3 clock)
        (receiveChunks blake3 wantedChunks wantedChunks.length) e peer with
    | none =>
      rw [hend, Option.map_none] at hreceive
      split_ifs at hreceive with hmore
      simp [hmore]
    | some result =>
      obtain ⟨r, rest⟩ := result
      rw [hend, Option.map_some] at hreceive
      split_ifs at hreceive with hmore
      obtain rfl := Option.some.inj hreceive
      constructor
      · rintro ⟨rest', hrest⟩
        exact ⟨hmore, (Except.ok.inj (Prod.mk.inj (Option.some.inj hrest)).1).symm⟩
      · rintro ⟨-, rfl⟩
        exact ⟨rest, rfl⟩

lemma nodup_filter_iff {l wanted : List Bytes} :
    ((l.filter fun a => a ∈ wanted).Nodup ∧ ∀ a, a ∈ l.filter (fun a => a ∈ wanted) ↔ a ∈ wanted) ↔
      ∀ a ∈ wanted, l.count a = 1 := by
  simp only [List.nodup_iff_count_le_one, List.mem_filter, decide_eq_true_eq, and_iff_right_iff_imp]
  constructor
  · rintro ⟨hle, hmem⟩ a ha
    have hcount := hle a
    rw [List.count_filter (by simpa using ha)] at hcount
    have hpos := List.count_pos_iff.mpr (hmem a ha)
    omega
  · intro hone
    refine ⟨fun a => ?_, fun a ha => List.count_pos_iff.mp (by rw [hone a ha]; exact Nat.one_pos)⟩
    by_cases ha : a ∈ wanted
    · rw [List.count_filter (by simpa using ha), hone a ha]
    · rw [List.count_eq_zero.mpr fun hmem => ha (by simpa using (List.mem_filter.mp hmem).2)]
      exact Nat.zero_le 1

/-- **When a batch transfer collects what was asked for**, from a peer that sends each wanted chunk
at least once: exactly if each wanted chunk comes once in time.

**Proof sketch.** The transfer returns the wanted chunks among as many messages as it asks for,
however often it asks for a chunk and whatever the other messages are. -/
theorem collects_iff (halpha : ∀ c ∈ "default".toList, isAlphanumeric c = true)
    (h : Delivers blake3 peer chunks)
    (hall : ∀ hash ∈ wantedChunks, hash ∈ chunks.map (dataHash blake3)) :
    Collects isAlphanumeric blake3 clock e peer wantedChunks ↔
      OnceEach blake3 wantedChunks chunks peer.closes := by
  have hhash : ∀ hash ∈ wantedChunks, hash.length = 32 := by
    intro hash hmem
    obtain ⟨chunk, -, rfl⟩ := List.mem_map.mp (hall hash hmem)
    exact ContentHash.length_asBytes _
  have hmap : ((inTime wantedChunks chunks).filter fun chunk =>
      dataHash blake3 chunk ∈ wantedChunks).map (dataHash blake3) =
        ((inTime wantedChunks chunks).map (dataHash blake3)).filter fun hash =>
          hash ∈ wantedChunks := by
    rw [List.filter_map]
    rfl
  constructor
  · rintro ⟨received, rest, hend, hcollected⟩
    obtain ⟨hlength, hends, rfl⟩ :=
      (exists_answered_transferChunks_iff halpha hhash h).mp ⟨rest, hend⟩
    rw [hmap] at hcollected
    exact ⟨hlength, nodup_filter_iff.mp hcollected, hends⟩
  · intro honce
    have hreceived : ∃ rest, answered (ChunkPeer.answer blake3 clock)
        (transferChunks isAlphanumeric blake3 wantedChunks) e peer =
          some (.ok ((inTime wantedChunks chunks).filter fun chunk =>
            dataHash blake3 chunk ∈ wantedChunks), rest) :=
      (exists_answered_transferChunks_iff halpha hhash h).mpr ⟨honce.length_le, honce.ends, rfl⟩
    obtain ⟨rest, hend⟩ := hreceived
    refine ⟨_, rest, hend, ?_⟩
    rw [hmap]
    exact nodup_filter_iff.mpr honce.once

end Transfer

section Examples

/-- A hash function that tells byte strings apart by their first bytes. -/
private def headHash (data : Bytes) : ContentHash := .fill (data.headD 0)

/-- A chunk of equal bytes, of the least size. -/
private def chunkOf (byte : UInt8) : ChunkData :=
  let data := List.replicate limits.MIN_CHUNK_SIZE byte
  ⟨(ContentHash.fill byte).asBytes, data, false, .ofNat data.length⟩

private def sampleClock : TransferClock := ⟨0, 0, 0, .sorted Text⟩

private lemma isAlphanum_default : ∀ c ∈ "default".toList, c.isAlphanum = true :=
  List.all_eq_true.mp (by decide)

private lemma exists_delivers_chunkOf (bytes : List UInt8) (closes : Bool) :
    ∃ peer : ChunkPeer, peer.closes = closes ∧ Delivers headHash peer (bytes.map chunkOf) := by
  apply exists_delivers
  intro chunk hmem
  obtain ⟨byte, -, rfl⟩ := List.mem_map.mp hmem
  have hdata : (chunkOf byte).data.length = limits.MIN_CHUNK_SIZE := List.length_replicate ..
  refine StreamProtocol.sendChunkData_eq_ok_iff.mpr
    ⟨(validateChunkData_eq_ok_iff headHash).mpr ⟨rfl, hdata.ge, by rw [hdata]; decide⟩, ?_⟩
  have hfits := ChunkData.length_encode_le_iff (ContentHash.fill byte).length_asBytes
    (by rw [hdata]; decide) (by rw [hdata]; decide)
    (show 2 ^ 21 + 44 ≤ limits.MAX_MESSAGE_SIZE by decide)
  exact hfits.mpr (by rw [hdata]; decide)

/-- A peer that sends two chunks with a stranger behind them. -/
theorem collects_iff_two : ∃ peer : ChunkPeer, peer.closes = false ∧
    Delivers headHash peer ([2, 1, 3].map chunkOf) ∧
    (Collects Char.isAlphanum headHash sampleClock .new peer
      [(ContentHash.fill 1).asBytes, (ContentHash.fill 2).asBytes] ↔
      OnceEach headHash [(ContentHash.fill 1).asBytes, (ContentHash.fill 2).asBytes]
        ([2, 1, 3].map chunkOf) false) := by
  obtain ⟨peer, hcloses, h⟩ := exists_delivers_chunkOf [2, 1, 3] false
  refine ⟨peer, hcloses, h, ?_⟩
  rw [← hcloses]
  exact collects_iff isAlphanum_default h (by decide)

/-- **A transfer need not collect what was asked for**: the peer sends one of two wanted chunks
twice and then the other one. -/
theorem not_forall_collects : ¬ ∀ (e : QuicTransferEngine) (peer : ChunkPeer)
    (chunks : List ChunkData) (wantedChunks : List Bytes), Delivers headHash peer chunks →
    (∀ hash ∈ wantedChunks, hash ∈ chunks.map (dataHash headHash)) →
    Collects Char.isAlphanum headHash sampleClock e peer wantedChunks := by
  intro hall
  obtain ⟨peer, hcloses, h⟩ := exists_delivers_chunkOf [1, 1, 2] true
  obtain ⟨received, rest, hend, hnodup, -⟩ := hall .new peer _
    [(ContentHash.fill 1).asBytes, (ContentHash.fill 2).asBytes] h (by decide)
  obtain ⟨-, -, rfl⟩ :=
    (exists_answered_transferChunks_iff isAlphanum_default (by decide) h).mp ⟨rest, hend⟩
  revert hnodup
  decide

end Examples

end BatchTransferManager

end Landropic
