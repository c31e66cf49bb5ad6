import Landropic.Foundations.Protobuf

set_option autoImplicit false

/-!
# The chunk data message

`ChunkData` carries one chunk to the peer that asked for it.

## Main definitions

* `ChunkData` — the message.
* `ChunkData.message` — how it is written and read.

## Main results

* `ChunkData.decode_encode` — the message can be read back.
* `ChunkData.length_encode_le_iff` — how much data fits in an encoding of a given size.
-/

namespace Landropic

open Protobuf

/-- Chunk data transfer. -/
structure ChunkData where
  hash : Bytes
  data : Bytes
  compressed : Bool
  uncompressedSize : UInt32
  deriving DecidableEq

namespace ChunkData

/-- The message with every field at its default. -/
def empty : ChunkData := { hash := [], data := [], compressed := false, uncompressedSize := 0 }

/-- The fields that are written. -/
def toFields (m : ChunkData) : List Field :=
  bytesField 1 m.hash ++ (bytesField 2 m.data ++
    (boolField 3 m.compressed ++ uintField 4 m.uncompressedSize.toNat))

/-- Read one field into the message; unknown fields are skipped. -/
def mergeField (m : ChunkData) : Field → Except DecodeError ChunkData
  | (1, .lengthDelimited data) => .ok { m with hash := data }
  | (2, .lengthDelimited data) => .ok { m with data := data }
  | (3, .varint n) => .ok { m with compressed := n != 0 }
  | (4, .varint n) => .ok { m with uncompressedSize := UInt32.ofNat n }
  | (1, _) => wrongType "LengthDelimited"
  | (2, _) => wrongType "LengthDelimited"
  | (3, _) => wrongType "Varint"
  | (4, _) => wrongType "Varint"
  | (_, _) => .ok m

/-- Write the message. -/
def encode (m : ChunkData) : Bytes := encodeFields m.toFields

/-- Read a message. -/
def decode (buf : Bytes) : Except DecodeError ChunkData := do
  let fields ← decodeFields buf
  fields.foldlM mergeField empty

lemma length_encode (m : ChunkData) : m.encode.length =
    (encodeFields (bytesField 1 m.hash)).length + (encodeFields (bytesField 2 m.data)).length +
      (encodeFields (boolField 3 m.compressed)).length +
      (encodeFields (uintField 4 m.uncompressedSize.toNat)).length := by
  simp only [encode, toFields, encodeFields, List.flatMap_append, List.length_append]
  omega

lemma length_le_encode_bytesField (tag : ℕ) (data : Bytes) :
    data.length ≤ (encodeFields (bytesField tag data)).length := by
  unfold bytesField
  split_ifs with h
  · simp [h]
  · simp [encodeFields, encodeField]
    omega

/-- **A chunk data message can be read back.** -/
theorem decode_encode (m : ChunkData) (h : m.encode.length < 2 ^ 63) :
    decode m.encode = .ok m := by
  have hhash := length_le_encode_bytesField 1 m.hash
  have hdata := length_le_encode_bytesField 2 m.data
  have hsize := m.uncompressedSize.toNat_lt
  have hlen := m.length_encode
  have hencodable : ∀ field ∈ m.toFields, Encodable field := by
    intro field hfield
    simp only [toFields, bytesField, boolField, uintField, List.mem_append] at hfield
    rcases hfield with hfield | hfield | hfield | hfield <;> split_ifs at hfield <;>
      simp only [List.mem_singleton, List.not_mem_nil] at hfield <;> subst hfield
    · exact ⟨by omega, by omega, by omega⟩
    · exact ⟨by omega, by omega, by omega⟩
    · exact ⟨by omega, by omega, by omega⟩
    · exact ⟨by omega, by omega, by omega⟩
  rw [decode, encode, decodeFields_encodeFields hencodable, Except.ok_bind]
  have hash_step : (bytesField 1 m.hash).foldlM mergeField empty =
      .ok { empty with hash := m.hash } := by
    unfold bytesField
    split_ifs with h0
    · rw [h0]; rfl
    · rfl
  have data_step : (bytesField 2 m.data).foldlM mergeField { empty with hash := m.hash } =
      .ok { empty with hash := m.hash, data := m.data } := by
    unfold bytesField
    split_ifs with h0
    · rw [h0]; rfl
    · rfl
  have flag_step : (boolField 3 m.compressed).foldlM mergeField
      { empty with hash := m.hash, data := m.data } =
      .ok { m with uncompressedSize := 0 } := by
    unfold boolField
    cases h0 : m.compressed <;> rfl
  have size_step : (uintField 4 m.uncompressedSize.toNat).foldlM mergeField
      { m with uncompressedSize := 0 } = .ok m := by
    unfold uintField
    split_ifs with h0
    · have : m.uncompressedSize = 0 := UInt32.toNat_inj.mp h0
      rw [← this]; rfl
    · have : UInt32.ofNat m.uncompressedSize.toNat = m.uncompressedSize := UInt32.ofNat_toNat
      simp only [List.foldlM, mergeField, this]
      rfl
  rw [toFields, List.foldlM_append, hash_step, Except.ok_bind, List.foldlM_append, data_step,
    Except.ok_bind, List.foldlM_append, flag_step, Except.ok_bind, size_step]

/-- How chunk data messages are written and read. -/
def message : Message ChunkData := ⟨encode, decode, decode_encode⟩

/-! ## The size of the encoding -/

/-- The size of a byte string field with a short key and a length of `k + 1` digits. -/
lemma length_encode_bytesField (tag : ℕ) {k : ℕ} {data : Bytes} (htag : tag < 16)
    (hne : data ≠ []) (hk : k < 10) (hlow : k = 0 ∨ 128 ^ k ≤ data.length)
    (hhigh : data.length < 128 ^ (k + 1)) :
    (encodeFields (bytesField tag data)).length = data.length + k + 2 := by
  have hkey : (encodeKey tag .lengthDelimited).length = 0 + 1 :=
    length_encodeVarint (by omega) (.inl rfl) (by simp only [WireType.toNat]; omega)
  have hlen := length_encodeVarint hk hlow hhigh
  rw [bytesField, if_neg hne]
  simp only [encodeFields, List.flatMap_cons, List.flatMap_nil, List.append_nil, encodeField,
    List.length_append]
  omega

/-- The size of a number field with a short key and `k + 1` digits. -/
lemma length_encode_uintField (tag : ℕ) {k n : ℕ} (htag : tag < 16) (hne : n ≠ 0) (hk : k < 10)
    (hlow : k = 0 ∨ 128 ^ k ≤ n) (hhigh : n < 128 ^ (k + 1)) :
    (encodeFields (uintField tag n)).length = k + 2 := by
  have hkey : (encodeKey tag .varint).length = 0 + 1 :=
    length_encodeVarint (by omega) (.inl rfl) (by simp only [WireType.toNat]; omega)
  have hlen := length_encodeVarint hk hlow hhigh
  rw [uintField, if_neg hne]
  simp only [encodeFields, List.flatMap_cons, List.flatMap_nil, List.append_nil, encodeField,
    List.length_append]
  omega

/-- The size of the message for uncompressed data whose length has `k + 1` base-128 digits: 34
bytes for the hash, and two keys and two lengths beside the data. -/
lemma length_encode_uncompressed {hash data : Bytes} {k : ℕ} (hhash : hash.length = 32)
    (hpos : 0 < data.length) (hk : k < 4) (hlow : k = 0 ∨ 128 ^ k ≤ data.length)
    (hhigh : data.length < 128 ^ (k + 1)) :
    (encode ⟨hash, data, false, UInt32.ofNat data.length⟩).length =
      data.length + 38 + 2 * k := by
  have hpow : 128 ^ (k + 1) ≤ 128 ^ 4 := Nat.pow_le_pow_right (by omega) (by omega)
  have hsize : (UInt32.ofNat data.length).toNat = data.length := by
    rw [UInt32.toNat_ofNat']
    exact Nat.mod_eq_of_lt (by omega)
  have h1 : (encodeFields (bytesField 1 hash)).length = hash.length + 0 + 2 :=
    length_encode_bytesField 1 (by omega) (by rintro rfl; simp at hhash) (by omega) (.inl rfl)
      (by omega)
  have h2 := length_encode_bytesField 2 (by omega) (List.length_pos_iff.mp hpos)
    (by omega) hlow hhigh
  have h4 := length_encode_uintField 4 (by omega) hpos.ne' (by omega) hlow hhigh
  have h3 : (encodeFields (boolField 3 false)).length = 0 := rfl
  rw [length_encode, hsize, h1, h2, h3, h4]
  omega

/-- **How much data fits**: a message with uncompressed data of less than 256 MB fits in `size`
bytes, where `size` is at least 2 MB, exactly when the data leaves 44 bytes of them free. -/
theorem length_encode_le_iff {hash data : Bytes} {size : ℕ} (hhash : hash.length = 32)
    (hpos : 0 < data.length) (hlt : data.length < 2 ^ 28) (hsize : 2 ^ 21 + 44 ≤ size) :
    (encode ⟨hash, data, false, UInt32.ofNat data.length⟩).length ≤ size ↔
      data.length + 44 ≤ size := by
  by_cases h1 : data.length < 128 ^ 1
  · rw [length_encode_uncompressed hhash hpos (by omega) (.inl rfl) h1]
    omega
  by_cases h2 : data.length < 128 ^ 2
  · rw [length_encode_uncompressed (k := 1) hhash hpos (by omega) (.inr (by omega)) h2]
    omega
  by_cases h3 : data.length < 128 ^ 3
  · rw [length_encode_uncompressed (k := 2) hhash hpos (by omega) (.inr (by omega)) h3]
    omega
  · rw [length_encode_uncompressed (k := 3) hhash hpos (by omega) (.inr (by omega)) (by omega)]

end ChunkData

end Landropic
