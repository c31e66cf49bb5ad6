import Landropic.Foundations.Blake3

set_option autoImplicit false

/-!
# Content hashes

The hash that names a chunk, an object or a file: 32 bytes, written in hexadecimal. The hash
function itself belongs to the `blake3` crate and is a parameter of everything that uses it;
examples take some of its values.

## Main definitions

* `ContentHash` — a 32-byte hash.
* `ContentHash.toHex`, `ContentHash.fromHex` — its hexadecimal form.
-/

namespace Landropic

/-- Content hash wrapper for a 32-byte `blake3` hash. -/
structure ContentHash where
  /-- The bytes of the hash. -/
  asBytes : Bytes
  /-- A hash has 32 bytes. -/
  length_asBytes : asBytes.length = 32
  deriving DecidableEq

/-- Chunk hash (same as content hash but semantically different). -/
abbrev ChunkHash := ContentHash

namespace ContentHash

attribute [simp] length_asBytes

@[ext] lemma ext {a b : ContentHash} (h : a.asBytes = b.asBytes) : a = b := by
  cases a; cases b; simp_all

/-- The hash of 32 equal bytes. -/
def fill (b : UInt8) : ContentHash := ⟨List.replicate 32 b, by simp⟩

/-- The value of `blake3` on at most 1024 bytes. -/
def blake3 (data : Bytes) : ContentHash := ⟨Blake3.hash data, Blake3.length_hash data⟩

/-- A function with the values of `blake3` on no byte and on the bytes `01` and `02`. -/
def blake3Sample (data : Bytes) : ContentHash :=
  if data = [] then
    ⟨[175, 19, 73, 185, 245, 249, 161, 166, 160, 64, 77, 234, 54, 220, 201, 73,
      155, 203, 37, 201, 173, 193, 18, 183, 204, 154, 147, 202, 228, 31, 50, 98], rfl⟩
  else if data = [1] then
    ⟨[72, 252, 114, 31, 187, 193, 114, 224, 146, 95, 162, 122, 241, 103, 29, 226,
      37, 186, 146, 113, 52, 128, 41, 152, 177, 10, 21, 104, 161, 136, 101, 43], rfl⟩
  else if data = [2] then
    ⟨[171, 19, 190, 223, 66, 232, 75, 174, 15, 124, 98, 199, 221, 106, 138, 218,
      87, 30, 136, 41, 190, 214, 234, 85, 130, 23, 240, 54, 27, 94, 37, 208], rfl⟩
  else fill 0

/-- Convert to a hexadecimal string. -/
def toHex (h : ContentHash) : List Char := Hex.encode h.asBytes

/-- Parse from a hexadecimal string: it must decode to exactly 32 bytes. -/
def fromHex (hex : List Char) : Option ContentHash :=
  match Hex.decode hex with
  | none => none
  | some bytes => if h : bytes.length = 32 then some ⟨bytes, h⟩ else none

@[simp] lemma length_toHex (h : ContentHash) : h.toHex.length = 64 := by simp [toHex]

@[simp] lemma fromHex_toHex (h : ContentHash) : fromHex h.toHex = some h := by
  simp [fromHex, toHex]

lemma toHex_injective : Function.Injective toHex := by
  intro a b h
  have := congrArg fromHex h
  simpa using this

lemma exists_ne (h : ContentHash) : ∃ h', h' ≠ h := by
  by_cases h0 : fill 0 = h
  · refine ⟨fill 1, fun h1 => ?_⟩
    have : fill 0 = fill 1 := h0.trans h1.symm
    revert this
    decide
  · exact ⟨fill 0, h0⟩

end ContentHash

end Landropic
