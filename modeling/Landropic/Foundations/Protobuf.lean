import Mathlib.Tactic.Ring
import Mathlib.Tactic.IntervalCases
import Landropic.Foundations.Bytes
import Landropic.Foundations.Result

set_option autoImplicit false

/-!
# The protocol buffer wire format

A message on the wire is a sequence of fields, each a key (the field's tag and its wire type)
followed by a payload. Numbers are written as base-128 varints, low digits first.

## Main definitions

* `Protobuf.encodeVarint`, `Protobuf.decodeVarint` — varints of 64-bit numbers.
* `Protobuf.Value` — the payload of a field.
* `Protobuf.encodeFields`, `Protobuf.decodeFields` — a message as the list of its fields.
* `Protobuf.Message` — how the messages of one type are written and read.

## Main results

* `Protobuf.decodeVarint_encodeVarint`, `Protobuf.length_encodeVarint` — varints can be read back,
  and the number of base-128 digits is the length.
* `Protobuf.decodeFields_encodeFields` — a message can be read back.
-/

namespace Protobuf

/-- What went wrong while reading a message. -/
abbrev DecodeError := String

/-! ## Varints -/

/-- At most `fuel` digits of a number, each but the last with the continuation bit. -/
def encodeDigits : ℕ → ℕ → Bytes
  | 0, _ => []
  | fuel + 1, n =>
    if n < 128 then [UInt8.ofNat n]
    else UInt8.ofNat (n % 128 + 128) :: encodeDigits fuel (n / 128)

/-- The varint of a number below `2 ^ 64`. -/
def encodeVarint (n : ℕ) : Bytes := encodeDigits 10 n

/-- Read at most `fuel` digits, where the last one allowed carries a single bit. -/
def decodeDigits : ℕ → Bytes → Except DecodeError (ℕ × Bytes)
  | 0, _ => .error "invalid varint"
  | _ + 1, [] => .error "invalid varint"
  | fuel + 1, b :: buf =>
    if b.toNat < 128 then
      if fuel = 0 ∧ 2 ≤ b.toNat then .error "invalid varint" else .ok (b.toNat, buf)
    else do
      let (n, buf) ← decodeDigits fuel buf
      .ok (b.toNat - 128 + 128 * n, buf)

/-- Read a varint. -/
def decodeVarint (buf : Bytes) : Except DecodeError (ℕ × Bytes) := decodeDigits 10 buf

lemma decodeDigits_encodeDigits (fuel n : ℕ) (h : n < 2 * 128 ^ fuel) (rest : Bytes) :
    decodeDigits (fuel + 1) (encodeDigits (fuel + 1) n ++ rest) = .ok (n, rest) := by
  induction fuel generalizing n with
  | zero =>
    rw [encodeDigits, if_pos (by omega)]
    simp only [List.singleton_append, decodeDigits, UInt8.toNat_ofNat',
      Nat.mod_eq_of_lt (show n < 2 ^ 8 by omega)]
    rw [if_pos (by omega), if_neg (by omega)]
  | succ fuel ih =>
    rw [encodeDigits]
    split_ifs with hn
    · simp only [List.singleton_append, decodeDigits, UInt8.toNat_ofNat',
        Nat.mod_eq_of_lt (show n < 2 ^ 8 by omega)]
      rw [if_pos hn, if_neg (by omega)]
    · have hdiv : n / 128 < 2 * 128 ^ fuel := by
        rw [Nat.div_lt_iff_lt_mul (by omega)]
        calc n < 2 * 128 ^ (fuel + 1) := h
          _ = 2 * 128 ^ fuel * 128 := by ring
      have hbyte : (n % 128 + 128) % 2 ^ 8 = n % 128 + 128 := Nat.mod_eq_of_lt (by omega)
      rw [List.cons_append, decodeDigits, UInt8.toNat_ofNat', hbyte, if_neg (by omega),
        ih (n / 128) hdiv]
      have hn : n % 128 + 128 - 128 + 128 * (n / 128) = n := by omega
      simp only [Except.ok_bind, hn]

/-- **A varint can be read back**, whatever follows it. -/
theorem decodeVarint_encodeVarint {n : ℕ} (h : n < 2 ^ 64) (rest : Bytes) :
    decodeVarint (encodeVarint n ++ rest) = .ok (n, rest) :=
  decodeDigits_encodeDigits 9 n (by omega) rest

lemma length_encodeDigits {fuel k n : ℕ} (hk : k < fuel) (hlow : k = 0 ∨ 128 ^ k ≤ n)
    (hhigh : n < 128 ^ (k + 1)) : (encodeDigits fuel n).length = k + 1 := by
  induction k generalizing fuel n with
  | zero =>
    obtain ⟨fuel, rfl⟩ := Nat.exists_eq_add_of_lt hk
    rw [encodeDigits, if_pos (by omega)]
    rfl
  | succ k ih =>
    obtain ⟨fuel, rfl⟩ : ∃ m, fuel = m + 1 := ⟨fuel - 1, by omega⟩
    have hpos : 0 < 128 ^ k := by positivity
    have hpow : 128 ^ (k + 1) = 128 ^ k * 128 := pow_succ _ _
    have hn : 128 ^ (k + 1) ≤ n := by omega
    rw [encodeDigits, if_neg (by omega), List.length_cons]
    congr 1
    refine ih (by omega) (.inr ?_) ?_
    · rw [Nat.le_div_iff_mul_le (by omega)]
      omega
    · rw [Nat.div_lt_iff_lt_mul (by omega)]
      calc n < 128 ^ (k + 1 + 1) := hhigh
        _ = 128 ^ (k + 1) * 128 := pow_succ _ _

/-- A number with `k + 1` digits in base 128 has a varint of `k + 1` bytes. -/
theorem length_encodeVarint {k n : ℕ} (hk : k < 10) (hlow : k = 0 ∨ 128 ^ k ≤ n)
    (hhigh : n < 128 ^ (k + 1)) : (encodeVarint n).length = k + 1 :=
  length_encodeDigits hk hlow hhigh

lemma encodeVarint_ne_nil (n : ℕ) : encodeVarint n ≠ [] := by
  rw [encodeVarint, encodeDigits]
  split_ifs <;> simp

/-! ## Fields -/

/-- The wire types. -/
inductive WireType
  | varint | sixtyFourBit | lengthDelimited | startGroup | endGroup | thirtyTwoBit
  deriving DecidableEq

namespace WireType

/-- The number of a wire type. -/
def toNat : WireType → ℕ
  | varint => 0
  | sixtyFourBit => 1
  | lengthDelimited => 2
  | startGroup => 3
  | endGroup => 4
  | thirtyTwoBit => 5

/-- The wire type of a number. -/
def ofNumber : ℕ → Option WireType
  | 0 => some varint
  | 1 => some sixtyFourBit
  | 2 => some lengthDelimited
  | 3 => some startGroup
  | 4 => some endGroup
  | 5 => some thirtyTwoBit
  | _ => none

@[simp] lemma ofNumber_toNat (w : WireType) : ofNumber w.toNat = some w := by cases w <;> rfl

lemma toNat_lt (w : WireType) : w.toNat < 8 := by cases w <;> decide

end WireType

/-- The payload of a field. The content of a group is skipped. -/
inductive Value
  | varint (n : ℕ)
  | sixtyFourBit (data : Bytes)
  | lengthDelimited (data : Bytes)
  | group
  | thirtyTwoBit (data : Bytes)
  deriving DecidableEq

/-- A field: its tag and its payload. -/
abbrev Field := ℕ × Value

/-- The key of a field. -/
def encodeKey (tag : ℕ) (wireType : WireType) : Bytes := encodeVarint (8 * tag + wireType.toNat)

/-- Read a key. -/
def decodeKey (buf : Bytes) : Except DecodeError (ℕ × WireType × Bytes) := do
  let (key, buf) ← decodeVarint buf
  if key ≥ 2 ^ 32 then .error s!"invalid key value: {key}"
  else
    match WireType.ofNumber (key % 8) with
    | none => .error s!"invalid wire type value: {key % 8}"
    | some wireType =>
      if key / 8 = 0 then .error "invalid tag value: 0" else .ok (key / 8, wireType, buf)

/-- Take `n` bytes off. -/
def takeBytes (n : ℕ) (buf : Bytes) : Except DecodeError (Bytes × Bytes) :=
  if n ≤ buf.length then .ok (buf.take n, buf.drop n) else .error "buffer underflow"

/-- Take a length and that many bytes off. -/
def takeDelimited (buf : Bytes) : Except DecodeError (Bytes × Bytes) := do
  let (n, buf) ← decodeVarint buf
  takeBytes n buf

/-- How deep groups may be nested. -/
def RECURSION_LIMIT : ℕ := 100

/-- Skip the rest of the open groups `tags`, innermost first. -/
def skipGroups : ℕ → List ℕ → Bytes → Except DecodeError Bytes
  | _, [], buf => .ok buf
  | 0, _ :: _, _ => .error "buffer underflow"
  | fuel + 1, tag :: tags, buf => do
    let (innerTag, wireType, buf) ← decodeKey buf
    match wireType with
    | .endGroup =>
      if innerTag = tag then skipGroups fuel tags buf else .error "unexpected end group tag"
    | .startGroup =>
      if tags.length + 1 < RECURSION_LIMIT then skipGroups fuel (innerTag :: tag :: tags) buf
      else .error "recursion limit reached"
    | .varint =>
      let (_, buf) ← decodeVarint buf
      skipGroups fuel (tag :: tags) buf
    | .sixtyFourBit =>
      let (_, buf) ← takeBytes 8 buf
      skipGroups fuel (tag :: tags) buf
    | .lengthDelimited =>
      let (_, buf) ← takeDelimited buf
      skipGroups fuel (tag :: tags) buf
    | .thirtyTwoBit =>
      let (_, buf) ← takeBytes 4 buf
      skipGroups fuel (tag :: tags) buf

/-- Read the payload of a field with the given key. -/
def decodeValue (tag : ℕ) (wireType : WireType) (buf : Bytes) :
    Except DecodeError (Value × Bytes) :=
  match wireType with
  | .varint => do
    let (n, buf) ← decodeVarint buf
    .ok (.varint n, buf)
  | .sixtyFourBit => do
    let (data, buf) ← takeBytes 8 buf
    .ok (.sixtyFourBit data, buf)
  | .lengthDelimited => do
    let (data, buf) ← takeDelimited buf
    .ok (.lengthDelimited data, buf)
  | .startGroup => do
    let buf ← skipGroups buf.length [tag] buf
    .ok (.group, buf)
  | .endGroup => .error "unexpected end group tag"
  | .thirtyTwoBit => do
    let (data, buf) ← takeBytes 4 buf
    .ok (.thirtyTwoBit data, buf)

/-- Write a field. -/
def encodeField : Field → Bytes
  | (tag, .varint n) => encodeKey tag .varint ++ encodeVarint n
  | (tag, .sixtyFourBit data) => encodeKey tag .sixtyFourBit ++ data
  | (tag, .lengthDelimited data) =>
    encodeKey tag .lengthDelimited ++ encodeVarint data.length ++ data
  | (tag, .group) => encodeKey tag .startGroup ++ encodeKey tag .endGroup
  | (tag, .thirtyTwoBit data) => encodeKey tag .thirtyTwoBit ++ data

/-- Write the fields of a message. -/
def encodeFields (fields : List Field) : Bytes := fields.flatMap encodeField

/-- Read at most `fuel` fields up to the end of the buffer. -/
def decodeFieldsFrom : ℕ → Bytes → Except DecodeError (List Field)
  | _, [] => .ok []
  | 0, _ :: _ => .error "buffer underflow"
  | fuel + 1, b :: buf => do
    let (tag, wireType, buf) ← decodeKey (b :: buf)
    let (value, buf) ← decodeValue tag wireType buf
    let fields ← decodeFieldsFrom fuel buf
    .ok ((tag, value) :: fields)

/-- Read the fields of a message; every field takes at least one byte. -/
def decodeFields (buf : Bytes) : Except DecodeError (List Field) :=
  decodeFieldsFrom buf.length buf

/-- A field with a tag a key can hold and a number or a byte string of the sizes the format
allows. -/
def Encodable : Field → Prop
  | (tag, .varint n) => 0 < tag ∧ tag < 2 ^ 29 ∧ n < 2 ^ 64
  | (tag, .lengthDelimited data) => 0 < tag ∧ tag < 2 ^ 29 ∧ data.length < 2 ^ 64
  | _ => False

lemma decodeKey_encodeKey {tag : ℕ} (hpos : 0 < tag) (hlt : tag < 2 ^ 29) (wireType : WireType)
    (rest : Bytes) : decodeKey (encodeKey tag wireType ++ rest) = .ok (tag, wireType, rest) := by
  have hw := wireType.toNat_lt
  have hmod : (8 * tag + wireType.toNat) % 8 = wireType.toNat := by omega
  have hdiv : (8 * tag + wireType.toNat) / 8 = tag := by omega
  rw [decodeKey, encodeKey, decodeVarint_encodeVarint (by omega)]
  simp only [Except.ok_bind, hmod, hdiv, WireType.ofNumber_toNat]
  rw [if_neg (by omega), if_neg (by omega)]

lemma takeDelimited_encode {data : Bytes} (h : data.length < 2 ^ 64) (rest : Bytes) :
    takeDelimited (encodeVarint data.length ++ data ++ rest) = .ok (data, rest) := by
  rw [takeDelimited, List.append_assoc, decodeVarint_encodeVarint h]
  simp [takeBytes]

lemma encodeField_ne_nil (field : Field) : encodeField field ≠ [] := by
  rcases field with ⟨tag, _ | _ | _ | _ | _⟩ <;>
    simp [encodeField, encodeKey, encodeVarint_ne_nil]

/-- One field is read back and the rest of the buffer is left. -/
lemma decodeFieldsFrom_encodeField {field : Field} (h : Encodable field) (fuel : ℕ)
    (rest : Bytes) :
    decodeFieldsFrom (fuel + 1) (encodeField field ++ rest) =
      (decodeFieldsFrom fuel rest).map (field :: ·) := by
  have hcons : encodeField field ++ rest ≠ [] := by simp [encodeField_ne_nil]
  obtain ⟨b, buf, hbuf⟩ := List.exists_cons_of_ne_nil hcons
  have hread : ∀ r : Except DecodeError (List Field), (do
      let fields ← r
      Except.ok (field :: fields)) = r.map (field :: ·) := by
    intro r
    cases r <;> rfl
  rw [hbuf, decodeFieldsFrom, ← hbuf]
  rcases field with ⟨tag, n | _ | data | _ | _⟩
  · obtain ⟨hpos, hlt, hn⟩ := h
    rw [encodeField, List.append_assoc, decodeKey_encodeKey hpos hlt]
    simp only [Except.ok_bind, decodeValue, decodeVarint_encodeVarint hn]
    exact hread _
  · exact h.elim
  · obtain ⟨hpos, hlt, hlen⟩ := h
    rw [encodeField, List.append_assoc, List.append_assoc, decodeKey_encodeKey hpos hlt,
      ← List.append_assoc]
    simp only [Except.ok_bind, decodeValue, takeDelimited_encode hlen]
    exact hread _
  · exact h.elim
  · exact h.elim

/-- **A message can be read back.**

**Proof sketch.** Induction on the fields; each takes a byte at least, so the length of the
message is enough rounds. -/
theorem decodeFields_encodeFields {fields : List Field} (h : ∀ field ∈ fields, Encodable field) :
    decodeFields (encodeFields fields) = .ok fields := by
  have hrun : ∀ fuel, fields.length ≤ fuel →
      decodeFieldsFrom fuel (encodeFields fields) = .ok fields := by
    induction fields with
    | nil =>
      intro fuel _
      cases fuel <;> rfl
    | cons field fields ih =>
      intro fuel hfuel
      obtain ⟨fuel, rfl⟩ : ∃ m, fuel = m + 1 :=
        ⟨fuel - 1, by rw [List.length_cons] at hfuel; omega⟩
      rw [encodeFields, List.flatMap_cons, decodeFieldsFrom_encodeField (h _ List.mem_cons_self)]
      rw [← encodeFields, ih (fun f hf => h f (List.mem_cons_of_mem _ hf)) fuel
        (by simpa using hfuel)]
      rfl
  refine hrun _ ?_
  clear h hrun
  induction fields with
  | nil => exact Nat.zero_le _
  | cons field fields ih =>
    have := List.length_pos_iff.mpr (encodeField_ne_nil field)
    rw [encodeFields, List.flatMap_cons, List.length_append, List.length_cons, ← encodeFields]
    omega

/-! ## Messages -/

/-- How the messages of type `M` are written and read. -/
structure Message (M : Type) where
  encode : M → Bytes
  decode : Bytes → Except DecodeError M
  /-- A message of a size that fits in memory can be read back. -/
  decode_encode : ∀ m, (encode m).length < 2 ^ 63 → decode (encode m) = .ok m

/-- The field of a byte string; an empty one is not written. -/
def bytesField (tag : ℕ) (data : Bytes) : List Field :=
  if data = [] then [] else [(tag, .lengthDelimited data)]

/-- The field of a number; zero is not written. -/
def uintField (tag n : ℕ) : List Field := if n = 0 then [] else [(tag, .varint n)]

/-- The field of a flag; `false` is not written. -/
def boolField (tag : ℕ) (b : Bool) : List Field := if b then [(tag, .varint 1)] else []

/-- The error for a field of an unexpected wire type. -/
def wrongType {α : Type} (expected : String) : Except DecodeError α :=
  .error s!"invalid wire type (expected {expected})"

end Protobuf
