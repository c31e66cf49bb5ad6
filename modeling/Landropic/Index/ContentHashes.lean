import Landropic.Chunker.Streams
import Landropic.Index.Indexer

set_option autoImplicit false

/-!
# What the content hash of a file identifies

The content hash of a file is the hash of the hashes of its chunks, written one after the other in
hexadecimal. It does not depend on how the file is read.

## Main definitions

* `FileIndexer.contentHash` — the content hash of a file, given how it is read.
* `FileIndexer.HashedFor` — the byte strings that are hashed for a file.

## Main results

* `FileIndexer.contentHash_identifies` — two files have the same content hash if and only if they
  have the same bytes.
-/

namespace Landropic

/-- Hashes that are written one after the other in hexadecimal. -/
def ContentHash.writeAll (hashes : List ContentHash) : Bytes :=
  hashes.flatMap fun hash => Text.utf8 hash.toHex

namespace ContentHash

lemma writeAll_cons (hash : ContentHash) (hashes : List ContentHash) :
    writeAll (hash :: hashes) = Text.utf8 hash.toHex ++ writeAll hashes := List.flatMap_cons

lemma length_utf8_toHex (hash : ContentHash) : (Text.utf8 hash.toHex).length = 64 := by
  rw [toHex, Hex.length_utf8_encode, length_asBytes]

lemma writeAll_cons_ne_nil (hash : ContentHash) (hashes : List ContentHash) :
    writeAll (hash :: hashes) ≠ [] := by
  intro hnil
  have hlength := congrArg List.length hnil
  rw [writeAll_cons, List.length_append, length_utf8_toHex, List.length_nil] at hlength
  omega

/-- **Hashes that are written one after the other can be told apart**, as all of them have the same
length. -/
theorem writeAll_injective : Function.Injective writeAll := by
  intro a b hab
  induction a generalizing b with
  | nil =>
    cases b with
    | nil => rfl
    | cons hash b => exact absurd hab.symm (writeAll_cons_ne_nil hash b)
  | cons hash a ih =>
    cases b with
    | nil => exact absurd hab (writeAll_cons_ne_nil hash a)
    | cons hash' b =>
      rw [writeAll_cons, writeAll_cons] at hab
      obtain ⟨hfirst, hrest⟩ := List.append_inj hab
        ((length_utf8_toHex hash).trans (length_utf8_toHex hash').symm)
      have htext := congrArg Text.fromUtf8 hfirst
      rw [Text.fromUtf8_utf8, Text.fromUtf8_utf8] at htext
      rw [toHex_injective (Option.some.inj htext), ih hrest]

end ContentHash

namespace FileIndexer

open Chunker

section Definitions

variable (ix : FileIndexer) (blake3 : Bytes → ContentHash)

/-- The content hash that is calculated of a file, given what the calls return that read it. -/
def contentHash (reads : List (Except IoError Bytes)) : Except IoError (Option Text) := do
  let chunks ← ix.chunker.chunkStream blake3 reads
  pure (chunks.map fun chunks =>
    calculateFileHash blake3 (chunks.map fun chunk => chunk.hash.toHex))

/-- The byte strings that are hashed for a file: its chunks, and their hashes one after the other.
-/
def HashedFor (data : Bytes) : Set Bytes :=
  {s | ∃ l, Chunks ix.chunker data l ∧ (s ∈ l ∨ s = ContentHash.writeAll (l.map blake3))}

end Definitions

section Identifies

variable {ix : FileIndexer} {blake3 : Bytes → ContentHash} {data : Bytes} {l : List Bytes}

lemma map_inj_of_injOn {S : Set Bytes} {l' : List Bytes} (h : Set.InjOn blake3 S)
    (hl : ∀ s ∈ l, s ∈ S) (hl' : ∀ s ∈ l', s ∈ S) (heq : l.map blake3 = l'.map blake3) :
    l = l' := by
  induction l generalizing l' with
  | nil => exact (List.map_eq_nil_iff.mp heq.symm).symm
  | cons s l ih =>
    cases l' with
    | nil => cases heq
    | cons s' l' =>
      obtain ⟨hs, hrest⟩ := List.forall_mem_cons.mp hl
      obtain ⟨hs', hrest'⟩ := List.forall_mem_cons.mp hl'
      rw [List.map_cons, List.map_cons, List.cons.injEq] at heq
      rw [h hs hs' heq.1, ih hrest hrest' heq.2]

lemma map_hash_layOut (offset : ℕ) (l : List Bytes) :
    (layOut blake3 offset l).map Chunk.hash = l.map blake3 := by
  induction l generalizing offset with
  | nil => rfl
  | cons data rest ih => rw [layOut, List.map_cons, List.map_cons, ih]

lemma calculateFileHash_layOut (l : List Bytes) :
    calculateFileHash blake3 ((layOut blake3 0 l).map fun chunk => chunk.hash.toHex) =
      (blake3 (ContentHash.writeAll (l.map blake3))).toHex := by
  rw [calculateFileHash, ContentHash.writeAll, ← map_hash_layOut 0 l, List.flatMap_map,
    List.flatMap_map]

/-- **The content hash of a file** does not depend on how it is read. -/
lemma contentHash_eq (hl : Chunks ix.chunker data l) (fragments : Fragments data) :
    ix.contentHash blake3 fragments.reads =
      .ok (some (blake3 (ContentHash.writeAll (l.map blake3))).toHex) := by
  obtain ⟨chunks, hchunks, hstream⟩ := chunkStream_eq_chunkBytes blake3 ix.chunker fragments
  obtain ⟨l', hl', rfl⟩ := chunkBytes_eq_some_iff.mp hchunks
  obtain rfl := hl.unique hl'
  rw [contentHash, hstream, ← calculateFileHash_layOut]
  rfl

/-- **The content hash identifies the content.** Two files have the same content hash if and only if
they have the same bytes, however they are read, if there are no collisions among what is hashed for
them.

**Proof sketch.** The hashes of the chunks are written with the same length each, and so can be told
apart. The chunks with these hashes make up the file. -/
theorem contentHash_identifies (ix : FileIndexer) (blake3 : Bytes → ContentHash) {a b : Bytes}
    (hcoll : Set.InjOn blake3 (ix.HashedFor blake3 a ∪ ix.HashedFor blake3 b))
    (readsA : Fragments a) (readsB : Fragments b) :
    ∃ hashA hashB, ix.contentHash blake3 readsA.reads = .ok (some hashA) ∧
      ix.contentHash blake3 readsB.reads = .ok (some hashB) ∧ (hashA = hashB ↔ a = b) := by
  obtain ⟨l, hl⟩ := exists_chunks ix.chunker a
  obtain ⟨l', hl'⟩ := exists_chunks ix.chunker b
  refine ⟨_, _, contentHash_eq hl readsA, contentHash_eq hl' readsB, ?_⟩
  constructor
  · intro hsame
    have hwritten := hcoll (.inl ⟨l, hl, .inr rfl⟩) (.inr ⟨l', hl', .inr rfl⟩)
      (ContentHash.toHex_injective hsame)
    have hhashes := ContentHash.writeAll_injective hwritten
    have hchunks : l = l' := map_inj_of_injOn hcoll
      (fun chunk hchunk => .inl ⟨l, hl, .inl hchunk⟩)
      (fun chunk hchunk => .inr ⟨l', hl', .inl hchunk⟩) hhashes
    rw [← hl.flatten, hchunks, hl'.flatten]
  · intro hsame
    subst hsame
    rw [hl.unique hl']

end Identifies

/-! ## The empty file and a file with one byte -/

/-- A function with the value of `blake3` on what is hashed for a file with the byte `01` as
well. -/
def hexSample (data : Bytes) : ContentHash :=
  if data = ContentHash.writeAll [ContentHash.blake3Sample [1]] then
    ⟨[195, 214, 172, 221, 128, 178, 116, 23, 106, 64, 155, 98, 190, 221, 119, 80,
      110, 16, 187, 95, 205, 37, 44, 202, 140, 91, 156, 72, 29, 170, 102, 130], rfl⟩
  else ContentHash.blake3Sample data

lemma chunks_singleton {c : Chunker} {byte : UInt8} {l : List Bytes} (h : Chunks c [byte] l) :
    l = [[byte]] := by
  cases h with
  | cons _ hcut hrest =>
    obtain ⟨hpos, hle, -, -⟩ := hcut.bounds (by simp)
    obtain rfl : _ = 1 := le_antisymm hle hpos
    rw [hrest.unique .nil]
    rfl

lemma mem_hashedFor {s : Bytes} (hs : s ∈ FileIndexer.default.HashedFor hexSample [] ∪
      FileIndexer.default.HashedFor hexSample [1]) :
    s ∈ [[], [1], ContentHash.writeAll [ContentHash.blake3Sample [1]]] := by
  have hone : hexSample [1] = ContentHash.blake3Sample [1] := by decide +kernel
  obtain ⟨l, hl, hs⟩ | ⟨l, hl, hs⟩ := hs
  · obtain rfl := hl.unique .nil
    obtain hs | rfl := hs
    · cases hs
    · exact List.mem_cons_self
  · obtain rfl := chunks_singleton hl
    rw [List.map_singleton, hone] at hs
    obtain hs | rfl := hs
    · simp [List.mem_singleton.mp hs]
    · simp

/-- The empty file and the file with the byte `01`. -/
theorem contentHash_identifies_one : ∃ hashA hashB,
    FileIndexer.default.contentHash hexSample [.ok []] = .ok (some hashA) ∧
      FileIndexer.default.contentHash hexSample [.ok [1], .ok []] = .ok (some hashB) ∧
        (hashA = hashB ↔ ([] : Bytes) = [1]) := by
  have hcoll : ∀ s ∈ [[], [1], ContentHash.writeAll [ContentHash.blake3Sample [1]]],
      ∀ s' ∈ [[], [1], ContentHash.writeAll [ContentHash.blake3Sample [1]]],
        hexSample s = hexSample s' → s = s' := by decide +kernel
  exact contentHash_identifies .default hexSample
    (fun s hs s' hs' => hcoll s (mem_hashedFor hs) s' (mem_hashedFor hs'))
    ⟨[], nofun, nofun, rfl⟩ ⟨[[1]], by simp, by simp [READ_BUFFER_SIZE], rfl⟩

end FileIndexer

end Landropic
