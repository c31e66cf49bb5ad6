import Mathlib.Data.Char
import Mathlib.Data.Countable.Basic
import Mathlib.Tactic.DeriveCountable
import Landropic.Chunker.Hash
import Landropic.Foundations.HashMap

set_option autoImplicit false

/-!
# Folder manifests

A manifest lists the files of a folder with the hashes of their contents and chunks. Its own hash
is the root of a merkle tree over the entries in the order of their paths.

## Main definitions

* `ManifestEntry`, `Manifest` — the data.
* `Manifest.calculateHash` — the root hash.
* `Manifest.fileMap` — the entries by path, the last one where a path is listed twice.
-/

namespace Landropic

/-- A point in time: seconds since the epoch, and nanoseconds. -/
structure DateTime where
  timestamp : ℤ
  nanos : ℕ
  deriving DecidableEq, Countable

/-- File entry in a manifest. -/
structure ManifestEntry where
  path : Text
  size : UInt64
  modifiedAt : DateTime
  contentHash : Text
  chunkHashes : List Text
  mode : Option UInt32
  deriving DecidableEq

/-- A folder manifest representing a snapshot in time. -/
structure Manifest where
  folderId : Text
  version : UInt64
  files : List ManifestEntry
  createdAt : DateTime
  manifestHash : Option Text
  deriving DecidableEq

namespace Manifest

/-- Create a new manifest. -/
def new (now : DateTime) (folderId : Text) (version : UInt64) : Manifest :=
  { folderId := folderId
    version := version
    files := []
    createdAt := now
    manifestHash := none }

/-- Add a file entry. -/
def addFile (m : Manifest) (entry : ManifestEntry) : Manifest :=
  { m with files := m.files ++ [entry] }

/-- The bytes of a hash in hexadecimal, or 32 zeros for a text that is not hexadecimal. -/
def hashBytes (hex : Text) : Bytes := (Hex.decode hex).getD (List.replicate 32 0)

section Hash

variable (blake3 : Bytes → ContentHash)

/-- Hash a single file entry for a merkle tree leaf. -/
def hashFileEntry (file : ManifestEntry) : Bytes :=
  (blake3 (file.path.utf8 ++ leBytes 8 file.size.toNat ++ hashBytes file.contentHash ++
    leBytes 4 (file.mode.getD 0).toNat ++
    leBytes 8 (file.modifiedAt.timestamp % 2 ^ 64).toNat ++
    file.chunkHashes.flatMap hashBytes)).asBytes

/-- Hash pairs of hashes to build the next level of the merkle tree; an odd last hash is paired
with itself. -/
def hashPairs : List Bytes → List Bytes
  | [] => []
  | [a] => [(blake3 (a ++ a)).asBytes]
  | a :: b :: rest => (blake3 (a ++ b)).asBytes :: hashPairs rest

/-- The levels of the merkle tree up to its root, in at most `fuel` rounds. -/
def merkleRoot : ℕ → List Bytes → List Bytes
  | 0, hashes => hashes
  | fuel + 1, hashes =>
    if hashes.length > 1 then merkleRoot fuel (hashPairs blake3 hashes) else hashes

/-- The files sorted by path, those with equal paths in their order. -/
def sortedFiles (m : Manifest) : List ManifestEntry :=
  m.files.mergeSort fun a b => decide (a.path ≤ b.path)

/-- Calculate the merkle tree root hash for manifest integrity. -/
def calculateHash (m : Manifest) : ContentHash :=
  match merkleRoot blake3 m.files.length (m.sortedFiles.map (hashFileEntry blake3)) with
  -- an empty manifest gets the hash of empty data
  | [] => blake3 []
  -- the root always has 32 bytes, see `exists_merkleRoot`
  | root :: _ => if h : root.length = 32 then ⟨root, h⟩ else blake3 []

/-- Finalize the manifest by calculating its hash. -/
def finalize (m : Manifest) : Manifest :=
  { m with manifestHash := some (m.calculateHash blake3).toHex }

@[simp] lemma files_finalize (m : Manifest) : (m.finalize blake3).files = m.files := rfl

@[simp] lemma folderId_finalize (m : Manifest) : (m.finalize blake3).folderId = m.folderId := rfl

lemma length_of_mem_hashPairs {hashes : List Bytes} :
    ∀ hash ∈ hashPairs blake3 hashes, hash.length = 32 := by
  induction hashes using hashPairs.induct with
  | case1 => simp [hashPairs]
  | case2 a => simp [hashPairs]
  | case3 a b rest ih =>
    intro hash hmem
    rcases List.mem_cons.mp hmem with rfl | hmem
    · exact ContentHash.length_asBytes _
    · exact ih hash hmem

lemma length_hashPairs (hashes : List Bytes) :
    (hashPairs blake3 hashes).length = (hashes.length + 1) / 2 := by
  induction hashes using hashPairs.induct with
  | case1 => rfl
  | case2 a => simp [hashPairs]
  | case3 a b rest ih =>
    simp only [hashPairs, List.length_cons, ih]
    omega

/-- **The tree has one root**: the rounds suffice to reduce a list of hashes to a single one. -/
theorem exists_merkleRoot {fuel : ℕ} {hashes : List Bytes} (hne : hashes ≠ [])
    (hall : ∀ hash ∈ hashes, hash.length = 32) (hfuel : hashes.length ≤ fuel + 1) :
    ∃ root, merkleRoot blake3 fuel hashes = [root] ∧ root.length = 32 := by
  have hpos := List.length_pos_iff.mpr hne
  induction fuel generalizing hashes with
  | zero =>
    obtain ⟨root, rfl⟩ := List.length_eq_one_iff.mp (show hashes.length = 1 by omega)
    exact ⟨root, rfl, hall root List.mem_cons_self⟩
  | succ fuel ih =>
    rw [merkleRoot]
    split_ifs with h
    · have hlen := length_hashPairs blake3 hashes
      have hpos' : 0 < (hashPairs blake3 hashes).length := by omega
      exact ih (List.length_pos_iff.mp hpos') (length_of_mem_hashPairs blake3) (by omega) hpos'
    · obtain ⟨root, rfl⟩ := List.length_eq_one_iff.mp (show hashes.length = 1 by omega)
      exact ⟨root, rfl, hall root List.mem_cons_self⟩

end Hash

/-- A function with the value of `blake3` on no byte, on `01`, and on what is hashed of
an empty file `/a` of the beginning of time. -/
def leafSample (data : Bytes) : ContentHash :=
  if data = Text.utf8 "/a".toList ++ List.replicate 8 0 ++ (ContentHash.blake3Sample []).asBytes ++
      List.replicate 12 0 then
    ⟨[150, 52, 255, 186, 199, 208, 58, 160, 25, 17, 164, 153, 98, 109, 66, 238,
      120, 79, 249, 84, 52, 143, 249, 7, 81, 87, 177, 91, 238, 134, 112, 193], rfl⟩
  else ContentHash.blake3Sample data

/-- The map of the files by path. -/
def fileMap (m : Manifest) : HashMap Text ManifestEntry :=
  HashMap.collect (m.files.map fun f => (f.path, f))

lemma path_of_lookup_fileMap {m : Manifest} {path : Text} {entry : ManifestEntry}
    (h : m.fileMap.lookup path = some entry) : entry ∈ m.files ∧ entry.path = path := by
  have hmem := HashMap.mem_of_lookup_collect h
  simp only [List.mem_map, Prod.mk.injEq] at hmem
  obtain ⟨f, hf, rfl, rfl⟩ := hmem
  exact ⟨hf, rfl⟩

end Manifest

end Landropic
