import Mathlib.Algebra.Group.Nat.Defs
import Mathlib.Data.List.Basic

set_option autoImplicit false

/-!
# Byte strings, texts and hexadecimal form

Byte strings are lists of bytes, and texts lists of characters, written to bytes in UTF-8.
Hexadecimal text writes each byte as two lowercase digits, the high half first; it has twice the
length of the byte string and determines it.

## Main definitions

* `Bytes`, `Text` — byte strings and texts.
* `Text.utf8`, `leBytes` — the bytes of a text and of a number.
* `leNat` — the number of a byte string, low byte first.
* `beBytes`, `beNat` — the same, high byte first.
* `Hex.encode`, `Hex.decode` — hexadecimal text, and its partial inverse, which also accepts
  uppercase digits.

## Main results

* `Hex.length_encode`, `Hex.encode_injective` — the text has two digits a byte and determines the
  bytes.
* `Hex.decode_encode` — decoding an encoded byte string gives it back.
* `leNat_leBytes` — the bytes of a number that fits determine it.
-/

/-- A byte string. -/
abbrev Bytes := List UInt8

/-- A text. Texts are ordered by their characters, which is also the order of their bytes. -/
abbrev Text := List Char

instance : LawfulBEq Text := inferInstance

/-- The UTF-8 bytes of a text. -/
def Text.utf8 (text : Text) : Bytes := text.flatMap String.utf8EncodeChar

/-- A character between double quotes: quotes, backslashes and control characters are escaped. Other
characters that cannot be printed, which are none of ASCII, stand as they are. -/
def debugChar (c : Char) : Text :=
  match c.toNat with
  | 0 => ['\\', '0']
  | 9 => ['\\', 't']
  | 10 => ['\\', 'n']
  | 13 => ['\\', 'r']
  | 34 | 92 => ['\\', c]
  | n =>
    if n < 32 ∨ 127 ≤ n ∧ n < 160 then
      "\\u\x7b".toList ++ Nat.toDigits 16 n ++ "\x7d".toList
    else [c]

/-- A text between double quotes. -/
def debugText (text : Text) : String :=
  String.ofList (Char.ofNat 34 :: text.flatMap debugChar ++ [Char.ofNat 34])

/-- The `w` low bytes of a number, low byte first. -/
def leBytes (w n : ℕ) : Bytes := (List.range w).map fun i => UInt8.ofNat (n / 256 ^ i)

@[simp] lemma length_leBytes (w n : ℕ) : (leBytes w n).length = w := by simp [leBytes]

/-- The number of a byte string, low byte first. -/
def leNat : Bytes → ℕ
  | [] => 0
  | b :: rest => b.toNat + 256 * leNat rest

lemma leBytes_succ (w n : ℕ) : leBytes (w + 1) n = UInt8.ofNat n :: leBytes w (n / 256) := by
  simp only [leBytes, List.range_succ_eq_map, List.map_cons, List.map_map]
  congr 1
  · simp
  · apply List.map_congr_left
    intro i _
    simp [Nat.div_div_eq_div_mul, Nat.pow_succ']

lemma leNat_leBytes {w n : ℕ} (h : n < 256 ^ w) : leNat (leBytes w n) = n := by
  induction w generalizing n with
  | zero =>
    simp only [Nat.pow_zero, Nat.lt_one_iff] at h
    subst h
    rfl
  | succ w ih =>
    rw [leBytes_succ, leNat, ih (by rw [Nat.pow_succ] at h; omega), UInt8.toNat_ofNat']
    omega

lemma leNat_lt (bytes : Bytes) : leNat bytes < 256 ^ bytes.length := by
  induction bytes with
  | nil => exact Nat.zero_lt_one
  | cons b rest ih =>
    have hb := b.toNat_lt
    rw [leNat, List.length_cons, Nat.pow_succ]
    omega

lemma leBytes_leNat (bytes : Bytes) : leBytes bytes.length (leNat bytes) = bytes := by
  induction bytes with
  | nil => rfl
  | cons b rest ih =>
    have hb := b.toNat_lt
    rw [List.length_cons, leBytes_succ, leNat, Nat.add_mul_div_left _ _ (by decide),
      Nat.div_eq_of_lt hb, Nat.zero_add, ih]
    congr 1
    refine UInt8.toNat_inj.mp ?_
    rw [UInt8.toNat_ofNat']
    omega

/-- The `w` low bytes of a number, high byte first. -/
def beBytes (w n : ℕ) : Bytes := (leBytes w n).reverse

/-- The number of a byte string, high byte first. -/
def beNat (bytes : Bytes) : ℕ := leNat bytes.reverse

@[simp] lemma length_beBytes (w n : ℕ) : (beBytes w n).length = w := by simp [beBytes]

lemma beBytes_beNat (bytes : Bytes) : beBytes bytes.length (beNat bytes) = bytes := by
  have hle := leBytes_leNat bytes.reverse
  rw [List.length_reverse] at hle
  rw [beBytes, beNat, hle, List.reverse_reverse]

lemma beNat_beBytes {w n : ℕ} (h : n < 256 ^ w) : beNat (beBytes w n) = n := by
  rw [beNat, beBytes, List.reverse_reverse, leNat_leBytes h]

namespace Hex

/-- The lowercase hexadecimal digit of a number below sixteen. -/
def digit (n : ℕ) : Char := if n < 10 then Char.ofNat (48 + n) else Char.ofNat (87 + n)

/-- The value of a hexadecimal digit, in either case. -/
def value (c : Char) : Option ℕ :=
  let n := c.toNat
  if 48 ≤ n ∧ n ≤ 57 then some (n - 48)
  else if 97 ≤ n ∧ n ≤ 102 then some (n - 87)
  else if 65 ≤ n ∧ n ≤ 70 then some (n - 55)
  else none

/-- The hexadecimal text of a byte string, two lowercase digits a byte. -/
def encode (data : Bytes) : List Char :=
  data.flatMap fun b => [digit (b.toNat / 16), digit (b.toNat % 16)]

/-- The byte string of a hexadecimal text: `none` if its length is odd or a character is not a
hexadecimal digit. -/
def decode : List Char → Option Bytes
  | [] => some []
  | [_] => none
  | c :: d :: text =>
    match value c, value d, decode text with
    | some hi, some lo, some data => some (UInt8.ofNat (16 * hi + lo) :: data)
    | _, _, _ => none

@[simp] lemma encode_nil : encode [] = [] := rfl

@[simp] lemma encode_cons (b : UInt8) (data : Bytes) :
    encode (b :: data) = digit (b.toNat / 16) :: digit (b.toNat % 16) :: encode data := rfl

@[simp] lemma length_encode (data : Bytes) : (encode data).length = 2 * data.length := by
  induction data with
  | nil => rfl
  | cons b data ih => simp [ih]; omega

lemma value_digit : ∀ n < 16, value (digit n) = some n := by decide

@[simp] lemma decode_encode (data : Bytes) : decode (encode data) = some data := by
  induction data with
  | nil => rfl
  | cons b data ih =>
    have hb := b.toNat_lt
    have hbyte : UInt8.ofNat (16 * (b.toNat / 16) + b.toNat % 16) = b := by
      rw [Nat.div_add_mod]
      exact UInt8.ofNat_toNat
    simp only [encode_cons, decode, value_digit _ (show b.toNat / 16 < 16 by omega),
      value_digit _ (show b.toNat % 16 < 16 by omega), ih, hbyte]

lemma encode_injective : Function.Injective encode := by
  intro a b h
  have := congrArg decode h
  simpa using this

lemma length_utf8_encode (data : Bytes) : (Text.utf8 (encode data)).length = 2 * data.length := by
  have hdigit : ∀ n < 16, (String.utf8EncodeChar (digit n)).length = 1 := by decide +kernel
  induction data with
  | nil => rfl
  | cons b data ih =>
    have hb := b.toNat_lt
    rw [Text.utf8] at ih ⊢
    rw [encode_cons, List.flatMap_cons, List.flatMap_cons, List.length_append,
      List.length_append, ih, hdigit _ (by omega), hdigit _ (by omega), List.length_cons]
    omega

lemma notMem_encode {c : Char} (hc : ∀ n < 16, digit n ≠ c) {data : Bytes} : c ∉ encode data := by
  induction data with
  | nil => simp
  | cons b data ih =>
    have hb := b.toNat_lt
    simp only [encode_cons, List.mem_cons, not_or]
    exact ⟨(hc _ (by omega)).symm, (hc _ (by omega)).symm, ih⟩

end Hex
