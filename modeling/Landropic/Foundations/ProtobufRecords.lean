import Landropic.Foundations.Lines
import Landropic.Foundations.Protobuf

set_option autoImplicit false

/-!
# Records in the protocol buffer format

The message of a record type has a field for every component, and may have several ones for a list.
A component at its default is not written. A reader starts with the default of every component,
takes the fields in any order, and skips those it does not know.

## Main definitions

* `Protobuf.Format` — how one value is written and read: numbers, texts, messages.
* `Protobuf.Kind` — how a component is written and read: `Kind.plain`, `Kind.repeated`,
  `Kind.optional`.
* `Protobuf.Record` — how the components of a record are written and read: `Record.nil`,
  `Record.field`, `Record.ofEquiv`.

## Main results

* `Protobuf.Record.decode_encode` — a record can be read back.

## Design

A record is a product of its components, and `Record.ofEquiv` makes a structure of it. The laws are
fields of the three structures, for values of sizes that fit in memory.
-/

namespace Protobuf

/-- The size of the bytes that a payload carries with their length. -/
def Value.size : Value → ℕ
  | .lengthDelimited data => data.length
  | _ => 0

/-- A number or a byte string of the sizes the format allows. -/
def Value.Encodable : Value → Prop
  | .varint n => n < 2 ^ 64
  | .lengthDelimited data => data.length < 2 ^ 64
  | _ => False

/-- The payload fits in memory. -/
abbrev Value.Fits (v : Value) : Prop := v.size < 2 ^ 63

/-! ## Formats -/

/-- How one value is written and read. -/
structure Format (A : Type) where
  write : A → Value
  read : Value → Except DecodeError A
  encodable : ∀ a, (write a).Fits → (write a).Encodable
  read_write : ∀ a, (write a).Fits → read (write a) = .ok a

namespace Format

/-- A value that is written as a number. -/
def varint {A : Type} (toNat : A → ℕ) (ofNat : ℕ → A) (hlt : ∀ a, toNat a < 2 ^ 64)
    (hinv : ∀ a, ofNat (toNat a) = a) : Format A where
  write a := .varint (toNat a)
  read
    | .varint n => .ok (ofNat n)
    | _ => wrongType "Varint"
  encodable a _ := hlt a
  read_write a _ := congrArg Except.ok (hinv a)

/-- A value that is written as a byte string. -/
def delimited {A : Type} (toBytes : A → Bytes) (ofBytes : Bytes → Except DecodeError A)
    (hinv : ∀ a, (toBytes a).length < 2 ^ 63 → ofBytes (toBytes a) = .ok a) : Format A where
  write a := .lengthDelimited (toBytes a)
  read
    | .lengthDelimited data => ofBytes data
    | _ => wrongType "LengthDelimited"
  encodable a hfits := by
    have hlen : (toBytes a).length < 2 ^ 63 := hfits
    show (toBytes a).length < 2 ^ 64
    omega
  read_write a hfits := hinv a hfits

def bool : Format Bool :=
  varint (fun b => if b then 1 else 0) (fun n => n != 0) (fun b => by cases b <;> decide)
    fun b => by cases b <;> rfl

def uint32 : Format UInt32 :=
  varint UInt32.toNat UInt32.ofNat (fun a => a.toNat_lt.trans (by omega))
    fun _ => UInt32.ofNat_toNat

def uint64 : Format UInt64 :=
  varint UInt64.toNat UInt64.ofNat UInt64.toNat_lt fun _ => UInt64.ofNat_toNat

/-- Negative numbers are written in two's complement with 64 bits. -/
def int64 : Format Int64 :=
  varint (fun a => a.toUInt64.toNat) (fun n => (UInt64.ofNat n).toInt64)
    (fun a => a.toUInt64.toNat_lt) fun a => by
    show (UInt64.ofNat a.toUInt64.toNat).toInt64 = a
    rw [UInt64.ofNat_toNat, Int64.toInt64_toUInt64]

/-- Negative numbers are written like those with 64 bits. -/
def int32 : Format Int32 :=
  varint (fun a => a.toInt64.toUInt64.toNat) (fun n => (UInt64.ofNat n).toInt64.toInt32)
    (fun a => a.toInt64.toUInt64.toNat_lt) fun a => by
    show (UInt64.ofNat a.toInt64.toUInt64.toNat).toInt64.toInt32 = a
    rw [UInt64.ofNat_toNat, Int64.toInt64_toUInt64, Int32.toInt32_toInt64]

def bytes : Format Bytes := delimited id .ok fun _ _ => rfl

def string : Format Text :=
  delimited Text.utf8
    (fun data =>
      match Text.fromUtf8 data with
      | some text => .ok text
      | none => .error "invalid string value: data is not UTF-8 encoded")
    fun text _ => by rw [Text.fromUtf8_utf8]

end Format

/-! ## Components -/

/-- How a component of a record is written and read, one field after the other. -/
structure Kind (A : Type) where
  default : A
  write : A → List Value
  merge : A → Value → Except DecodeError A
  encodable : ∀ a, ∀ v ∈ write a, v.Fits → v.Encodable
  merge_write : ∀ a, (∀ v ∈ write a, v.Fits) → (write a).foldlM merge default = .ok a

namespace Kind

variable {A : Type} (format : Format A)

/-- A component that is not written if it is the default. The last value counts. -/
def plain [DecidableEq A] (default : A) : Kind A where
  default := default
  write a := if a = default then [] else [format.write a]
  merge _ v := format.read v
  encodable a v hv := by
    split_ifs at hv with ha
    · cases hv
    · obtain rfl := List.mem_singleton.mp hv
      exact format.encodable a
  merge_write a hfits := by
    split_ifs at hfits ⊢ with ha
    · rw [ha]
      rfl
    · simp [format.read_write a (hfits _ (List.mem_singleton_self _))]

/-- A list, with a field for every element. -/
def repeated : Kind (List A) where
  default := []
  write as := as.map format.write
  merge as v := (format.read v).map fun a => as ++ [a]
  encodable as v hv := by
    obtain ⟨a, -, rfl⟩ := List.mem_map.mp hv
    exact format.encodable a
  merge_write as hfits := by
    have hrun : ∀ (rest done : List A), (∀ a ∈ rest, (format.write a).Fits) →
        (rest.map format.write).foldlM
          (fun as v => (format.read v).map fun a => as ++ [a]) done = .ok (done ++ rest) := by
      intro rest
      induction rest with
      | nil => exact fun done _ => congrArg Except.ok (List.append_nil done).symm
      | cons a rest ih =>
        intro done hfits
        have hread := format.read_write a (hfits a List.mem_cons_self)
        rw [List.map_cons, List.foldlM_cons, hread]
        show (rest.map format.write).foldlM _ (done ++ [a]) = _
        rw [ih (done ++ [a]) fun b hb => hfits b (List.mem_cons_of_mem _ hb)]
        simp
    exact hrun as [] fun a ha => hfits _ (List.mem_map_of_mem ha)

end Kind

/-! ## Records -/

/-- How the components of a record are written and read. -/
structure Record (A : Type) where
  default : A
  toFields : A → List Field
  mergeField : A → Field → Except DecodeError A
  tags : List ℕ
  tags_valid : ∀ tag ∈ tags, 0 < tag ∧ tag < 2 ^ 29
  tag_mem : ∀ a, ∀ field ∈ toFields a, field.1 ∈ tags
  /-- Unknown fields are skipped. -/
  mergeField_of_notMem : ∀ a field, field.1 ∉ tags → mergeField a field = .ok a
  encodable : ∀ a, ∀ field ∈ toFields a, field.2.Fits → field.2.Encodable
  merge_toFields : ∀ a, (∀ field ∈ toFields a, field.2.Fits) →
    (toFields a).foldlM mergeField default = .ok a

namespace Record

section Encoding

variable {A : Type} (record : Record A)

/-- Write a record. -/
def encode (a : A) : Bytes := encodeFields (record.toFields a)

/-- Read more fields into a record. -/
def merge (a : A) (buf : Bytes) : Except DecodeError A := do
  let fields ← decodeFields buf
  fields.foldlM record.mergeField a

/-- Read a record. -/
def decode (buf : Bytes) : Except DecodeError A := record.merge record.default buf

lemma size_le_length_encodeFields {fields : List Field} {field : Field} (h : field ∈ fields) :
    field.2.size ≤ (encodeFields fields).length := by
  obtain ⟨before, rest, rfl⟩ := List.append_of_mem h
  have hfield : field.2.size ≤ (encodeField field).length := by
    obtain ⟨tag, value⟩ := field
    cases value with
    | lengthDelimited data => simp [Value.size, encodeField]; omega
    | _ => simp [Value.size]
  simp only [encodeFields, List.flatMap_append, List.flatMap_cons, List.length_append]
  omega

/-- **A record can be read back.** -/
theorem decode_encode (a : A) (h : (record.encode a).length < 2 ^ 63) :
    record.decode (record.encode a) = .ok a := by
  have hfits : ∀ field ∈ record.toFields a, field.2.Fits := fun field hfield =>
    (size_le_length_encodeFields hfield).trans_lt h
  have hencodable : ∀ field ∈ record.toFields a, Encodable field := by
    intro field hfield
    obtain ⟨hpos, hlt⟩ := record.tags_valid _ (record.tag_mem a field hfield)
    have hvalue := record.encodable a field hfield (hfits field hfield)
    obtain ⟨tag, value⟩ := field
    cases value with
    | varint n => exact ⟨hpos, hlt, hvalue⟩
    | lengthDelimited data => exact ⟨hpos, hlt, hvalue⟩
    | sixtyFourBit data => exact hvalue
    | group => exact hvalue
    | thirtyTwoBit data => exact hvalue
  rw [decode, merge, encode, decodeFields_encodeFields hencodable, Except.ok_bind]
  exact record.merge_toFields a hfits

/-- How the messages of a record are written and read. -/
def message : Message A := ⟨record.encode, record.decode, record.decode_encode⟩

/-- A message inside of a message. -/
def format : Format A := .delimited record.encode record.decode record.decode_encode

end Encoding

/-- The record without components. -/
def nil : Record Unit where
  default := ()
  toFields _ := []
  mergeField _ _ := .ok ()
  tags := []
  tags_valid := by simp
  tag_mem := by simp
  mergeField_of_notMem _ _ _ := rfl
  encodable := by simp
  merge_toFields _ _ := rfl

section Component

variable {A B : Type} (rest : Record B) (tag : ℕ) (kind : Kind A)

/-- The fields of the other components and those of one more. -/
def fieldsOf (ba : B × A) : List Field :=
  rest.toFields ba.1 ++ (kind.write ba.2).map fun v => (tag, v)

/-- A field goes to its component. -/
def mergeInto (ba : B × A) (field : Field) : Except DecodeError (B × A) :=
  if field.1 = tag then (kind.merge ba.2 field.2).map fun a => (ba.1, a)
  else (rest.mergeField ba.1 field).map fun b => (b, ba.2)

lemma foldlM_mergeInto_self (values : List Value) (b : B) (a : A) :
    (values.map fun v => (tag, v)).foldlM (mergeInto rest tag kind) (b, a) =
      (values.foldlM kind.merge a).map fun a => (b, a) := by
  induction values generalizing a with
  | nil => rfl
  | cons v values ih =>
    rw [List.map_cons, List.foldlM_cons, List.foldlM_cons, mergeInto, if_pos rfl]
    cases kind.merge a v with
    | error e => rfl
    | ok a' => exact ih a'

/-- The other fields are read into the others. -/
lemma foldlM_mergeInto_rest {fields : List Field} (h : ∀ field ∈ fields, field.1 ≠ tag) (b : B)
    (a : A) : fields.foldlM (mergeInto rest tag kind) (b, a) =
      (fields.foldlM rest.mergeField b).map fun b => (b, a) := by
  induction fields generalizing b with
  | nil => rfl
  | cons field fields ih =>
    rw [List.foldlM_cons, List.foldlM_cons, mergeInto, if_neg (h field List.mem_cons_self)]
    cases rest.mergeField b field with
    | error e => rfl
    | ok b' => exact ih (fun f hf => h f (List.mem_cons_of_mem _ hf)) b'

/-- A record with one more component. -/
def field (htag : 0 < tag ∧ tag < 2 ^ 29 ∧ tag ∉ rest.tags) : Record (B × A) where
  default := (rest.default, kind.default)
  toFields := fieldsOf rest tag kind
  mergeField := mergeInto rest tag kind
  tags := tag :: rest.tags
  tags_valid t ht := by
    obtain rfl | ht := List.mem_cons.mp ht
    · exact ⟨htag.1, htag.2.1⟩
    · exact rest.tags_valid t ht
  tag_mem ba field hfield := by
    obtain hfield | hfield := List.mem_append.mp hfield
    · exact List.mem_cons_of_mem _ (rest.tag_mem _ field hfield)
    · obtain ⟨v, -, rfl⟩ := List.mem_map.mp hfield
      exact List.mem_cons_self
  mergeField_of_notMem ba field hfield := by
    rw [List.mem_cons, not_or] at hfield
    rw [mergeInto, if_neg hfield.1, rest.mergeField_of_notMem _ field hfield.2]
    rfl
  encodable ba field hfield hfits := by
    obtain hfield | hfield := List.mem_append.mp hfield
    · exact rest.encodable _ field hfield hfits
    · obtain ⟨v, hv, rfl⟩ := List.mem_map.mp hfield
      exact kind.encodable _ v hv hfits
  merge_toFields ba hfits := by
    obtain ⟨b, a⟩ := ba
    have hrest : (rest.toFields b).foldlM rest.mergeField rest.default = .ok b :=
      rest.merge_toFields b fun field hfield => hfits _ (List.mem_append_left _ hfield)
    have hself : (kind.write a).foldlM kind.merge kind.default = .ok a :=
      kind.merge_write a fun v hv =>
        hfits _ (List.mem_append_right _ (List.mem_map.mpr ⟨v, hv, rfl⟩))
    have hothers : ∀ field ∈ rest.toFields b, field.1 ≠ tag := fun field hfield heq =>
      htag.2.2 (heq ▸ rest.tag_mem b field hfield)
    rw [fieldsOf, List.foldlM_append, foldlM_mergeInto_rest rest tag kind hothers, hrest]
    show ((kind.write a).map _).foldlM _ (b, kind.default) = _
    rw [foldlM_mergeInto_self, hself]
    rfl

end Component

/-- A structure with the components of a record. -/
def ofEquiv {A M : Type} (record : Record A) (e : A ≃ M) : Record M where
  default := e record.default
  toFields m := record.toFields (e.symm m)
  mergeField m field := (record.mergeField (e.symm m) field).map e
  tags := record.tags
  tags_valid := record.tags_valid
  tag_mem m := record.tag_mem _
  mergeField_of_notMem m field hfield := by
    rw [record.mergeField_of_notMem _ field hfield]
    exact congrArg Except.ok (e.apply_symm_apply m)
  encodable m := record.encodable _
  merge_toFields m hfits := by
    have hrun : ∀ (fields : List Field) (a : A),
        fields.foldlM (fun m field => (record.mergeField (e.symm m) field).map e) (e a) =
          (fields.foldlM record.mergeField a).map e := by
      intro fields
      induction fields with
      | nil => exact fun _ => rfl
      | cons field fields ih =>
        intro a
        rw [List.foldlM_cons, List.foldlM_cons, e.symm_apply_apply]
        cases record.mergeField a field with
        | error _ => rfl
        | ok a' => exact ih a'
    rw [hrun, record.merge_toFields _ hfits]
    exact congrArg Except.ok (e.apply_symm_apply m)

end Record

/-- A message that may be missing. If it comes again, its fields are merged. -/
def Kind.optional {A : Type} (record : Record A) : Kind (Option A) where
  default := none
  write o := o.toList.map record.format.write
  merge o
    | .lengthDelimited data => (record.merge (o.getD record.default) data).map some
    | _ => wrongType "LengthDelimited"
  encodable o v hv := by
    obtain ⟨a, -, rfl⟩ := List.mem_map.mp hv
    exact record.format.encodable a
  merge_write o hfits := by
    cases o with
    | none => rfl
    | some a =>
      have hread : record.decode (record.encode a) = .ok a :=
        record.decode_encode a (hfits _ (List.mem_singleton_self _))
      show ((record.decode (record.encode a)).map some >>= fun o => Except.ok o) = _
      rw [hread]
      rfl

end Protobuf
