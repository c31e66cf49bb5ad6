import Landropic.Foundations.Lines

set_option autoImplicit false

/-!
# File names

A file name is a text, or a string of bytes that may or may not be one. Its extension is what
follows its last dot, unless the name starts with that dot.

## Main definitions

* `FileName.lastDot` — a name before and behind its last dot.
* `FileName.extension`, `FileName.fileStem`, `FileName.withExtension` — the parts of a name.
* `FileName.IsUtf8`, `FileName.toStr` — a name that is a text.

## Main results

* `FileName.lastDot_eq_some_iff` — where the last dot is.
* `FileName.extension_eq_some_iff` — the names with an extension.
* `FileName.isUtf8_append_cons` — texts are cut at a byte of ASCII.
-/

namespace FileName

/-! ## Dots -/

section Dots

variable {α : Type} [DecidableEq α] {dot : α}

variable (dot) in
/-- A name before and behind its last dot. -/
def lastDot : List α → Option (List α × List α)
  | [] => none
  | c :: rest =>
    match lastDot rest with
    | some (before, after) => some (c :: before, after)
    | none => if c = dot then some ([], rest) else none

variable (dot) in
/-- The extension of a name: what follows its last dot, unless the name starts with it. -/
def extension (name : List α) : Option (List α) :=
  match lastDot dot name with
  | some (before, after) => if before = [] then none else some after
  | none => none

variable (dot) in
/-- A name without its extension. -/
def fileStem (name : List α) : List α :=
  match lastDot dot name with
  | some (before, _) => if before = [] then name else before
  | none => name

variable (dot) in
/-- A name with another extension, which is not empty. -/
def withExtension (name ext : List α) : List α := fileStem dot name ++ dot :: ext

variable {name before after : List α}

lemma lastDot_eq_none_iff : lastDot dot name = none ↔ dot ∉ name := by
  induction name with
  | nil => simp [lastDot]
  | cons c rest ih =>
    rw [lastDot, List.mem_cons, not_or, ← ih]
    cases lastDot dot rest with
    | some parts => simp
    | none =>
      by_cases hc : c = dot
      · simp [hc]
      · simp [hc, Ne.symm hc]

lemma lastDot_append (before : List α) (h : dot ∉ after) :
    lastDot dot (before ++ dot :: after) = some (before, after) := by
  induction before with
  | nil => simp [lastDot, lastDot_eq_none_iff.mpr h]
  | cons c before ih => rw [List.cons_append, lastDot, ih]

/-- **The last dot** has no other one behind it. -/
theorem lastDot_eq_some_iff :
    lastDot dot name = some (before, after) ↔ name = before ++ dot :: after ∧ dot ∉ after := by
  constructor
  · intro h
    induction name generalizing before with
    | nil => cases h
    | cons c rest ih =>
      rw [lastDot] at h
      cases hrest : lastDot dot rest with
      | some parts =>
        rw [hrest] at h
        cases h
        obtain ⟨hparts, hafter⟩ := ih hrest
        exact ⟨by rw [hparts, List.cons_append], hafter⟩
      | none =>
        rw [hrest] at h
        by_cases hc : c = dot
        · rw [if_pos hc] at h
          cases h
          exact ⟨by rw [hc, List.nil_append], lastDot_eq_none_iff.mp hrest⟩
        · rw [if_neg hc] at h
          cases h
  · rintro ⟨rfl, hafter⟩
    exact lastDot_append before hafter

/-- **The names with an extension** without a dot. -/
theorem extension_eq_some_iff {ext : List α} :
    extension dot name = some ext ↔ ∃ stem, stem ≠ [] ∧ name = stem ++ dot :: ext ∧ dot ∉ ext := by
  unfold extension
  constructor
  · intro h
    cases hdot : lastDot dot name with
    | none =>
      rw [hdot] at h
      cases h
    | some parts =>
      rw [hdot] at h
      obtain ⟨hne, hafter⟩ := Option.ite_none_left_eq_some.mp h
      obtain rfl := Option.some.inj hafter
      exact ⟨parts.1, hne, lastDot_eq_some_iff.mp hdot⟩
  · rintro ⟨stem, hstem, hname⟩
    rw [lastDot_eq_some_iff.mpr hname]
    exact if_neg hstem

lemma fileStem_append (h : before ≠ []) (hafter : dot ∉ after) :
    fileStem dot (before ++ dot :: after) = before := by
  rw [fileStem, lastDot_append before hafter]
  exact if_neg h

lemma eq_of_extension {ext : List α} (h : extension dot name = some ext) :
    name = fileStem dot name ++ dot :: ext := by
  obtain ⟨stem, hstem, rfl, hext⟩ := extension_eq_some_iff.mp h
  rw [fileStem_append hstem hext]

lemma fileStem_of_extension (h : extension dot name = none) : fileStem dot name = name := by
  unfold extension at h
  unfold fileStem
  cases hdot : lastDot dot name with
  | none => rfl
  | some parts =>
    rw [hdot] at h
    dsimp only at h ⊢
    by_cases hnil : parts.1 = []
    · rw [if_pos hnil]
    · rw [if_neg hnil] at h
      cases h

lemma notMem_tail_of_extension (h : extension dot name = none) : dot ∉ name.tail := by
  unfold extension at h
  cases hdot : lastDot dot name with
  | none => exact fun hmem => lastDot_eq_none_iff.mp hdot (List.mem_of_mem_tail hmem)
  | some parts =>
    obtain ⟨before, after⟩ := parts
    rw [hdot] at h
    dsimp only at h
    by_cases hnil : before = []
    · obtain ⟨rfl, hafter⟩ := lastDot_eq_some_iff.mp hdot
      rwa [hnil]
    · rw [if_neg hnil] at h
      cases h

/-- An extension with a dot is never the one that was there. -/
lemma withExtension_ne {ext : List α} (h : dot ∈ ext) : withExtension dot name ext ≠ name := by
  intro heq
  rw [withExtension] at heq
  cases hold : extension dot name with
  | none =>
    rw [fileStem_of_extension hold] at heq
    simp at heq
  | some old =>
    obtain ⟨stem, hstem, rfl, hnot⟩ := extension_eq_some_iff.mp hold
    rw [fileStem_append hstem hnot] at heq
    obtain rfl := (List.cons.inj (List.append_cancel_left heq)).2
    exact hnot h

end Dots

/-! ## Texts -/

variable {name before after : Bytes}

/-- The name is a text in UTF-8. -/
def IsUtf8 (name : Bytes) : Prop := (Text.fromUtf8 name).isSome = true

instance (name : Bytes) : Decidable (IsUtf8 name) := inferInstanceAs (Decidable (_ = true))

/-- The bytes of a name that is a text. -/
def toStr (name : Bytes) : Option Bytes := if IsUtf8 name then some name else none

lemma toStr_of_isUtf8 (h : IsUtf8 name) : toStr name = some name := if_pos h

lemma toStr_of_not_isUtf8 (h : ¬ IsUtf8 name) : toStr name = none := if_neg h

lemma isUtf8_iff : IsUtf8 name ↔ ∃ text : Text, text.utf8 = name := by
  constructor
  · intro h
    rw [IsUtf8, Text.fromUtf8, Option.isSome_map, ByteArray.isSome_utf8Decode?_iff] at h
    obtain ⟨text, htext⟩ := h
    exact ⟨text, (List.toByteArray_inj.mp htext).symm⟩
  · rintro ⟨text, rfl⟩
    rw [IsUtf8, Text.fromUtf8_utf8]
    rfl

lemma utf8EncodeChar_of_mem {c : Char} {b : UInt8} (h : b ∈ String.utf8EncodeChar c)
    (hb : b < 128) : String.utf8EncodeChar c = [b] := by
  have hlarge : ∀ n, 128 ≤ n → n < 256 → b ≠ UInt8.ofNat n := by
    rintro n hle hlt rfl
    rw [UInt8.lt_iff_toNat_lt, UInt8.toNat_ofNat'] at hb
    change n % 256 < 128 at hb
    omega
  unfold String.utf8EncodeChar at h ⊢
  dsimp only at h ⊢
  split_ifs at h ⊢
  · rw [List.mem_singleton.mp h]
  -- every byte of a longer character is 128 or more
  · simp only [List.mem_cons, List.not_mem_nil, or_false] at h
    rcases h with h | h <;> exact absurd h (hlarge _ (by omega) (by omega))
  · simp only [List.mem_cons, List.not_mem_nil, or_false] at h
    rcases h with h | h | h <;> exact absurd h (hlarge _ (by omega) (by omega))
  · simp only [List.mem_cons, List.not_mem_nil, or_false] at h
    rcases h with h | h | h | h <;> exact absurd h (hlarge _ (by omega) (by omega))

lemma utf8_singleton {b : UInt8} (hb : b < 128) :
    Text.utf8 [Char.ofNat b.toNat] = [b] := by
  have hascii : ∀ n < 128, Text.utf8 [Char.ofNat n] = [UInt8.ofNat n] := by decide
  rw [hascii _ (UInt8.lt_iff_toNat_lt.mp hb), UInt8.ofNat_toNat]

lemma exists_utf8_of_append_cons {b : UInt8} (hb : b < 128) {text : Text}
    (h : text.utf8 = before ++ b :: after) :
    ∃ front back : Text, front.utf8 = before ∧ back.utf8 = after := by
  induction text generalizing before with
  | nil => exact absurd h (by simp [Text.utf8])
  | cons c text ih =>
    have hcons : Text.utf8 (c :: text) = String.utf8EncodeChar c ++ Text.utf8 text := rfl
    rw [hcons] at h
    rcases List.append_eq_append_iff.mp h with ⟨a, rfl, htext⟩ | ⟨a, hc, htext⟩
    · obtain ⟨front, back, rfl, rfl⟩ := ih htext
      exact ⟨c :: front, back, rfl, rfl⟩
    · cases a with
      | nil =>
        rw [List.append_nil] at hc
        obtain ⟨front, back, hfront, rfl⟩ := @ih [] htext.symm
        refine ⟨c :: front, back, ?_, rfl⟩
        show String.utf8EncodeChar c ++ Text.utf8 front = before
        rw [hfront, List.append_nil, hc]
      | cons b' a =>
        obtain ⟨rfl, hafter⟩ := List.cons.inj htext
        have hsingle := utf8EncodeChar_of_mem (c := c) (by rw [hc]; simp) hb
        rw [hsingle] at hc
        cases before with
        | nil =>
          obtain ⟨-, hnil⟩ := List.cons.inj hc
          subst hnil
          exact ⟨[], text, rfl, hafter.symm⟩
        | cons _ before => simp at hc

/-- **Texts are cut at a byte of ASCII.** -/
theorem isUtf8_append_cons {b : UInt8} (hb : b < 128) :
    IsUtf8 (before ++ b :: after) ↔ IsUtf8 before ∧ IsUtf8 after := by
  rw [isUtf8_iff, isUtf8_iff, isUtf8_iff]
  constructor
  · rintro ⟨text, htext⟩
    obtain ⟨front, back, hfront, hback⟩ := exists_utf8_of_append_cons hb htext
    exact ⟨⟨front, hfront⟩, ⟨back, hback⟩⟩
  · rintro ⟨⟨front, rfl⟩, ⟨back, rfl⟩⟩
    refine ⟨front ++ [Char.ofNat b.toNat] ++ back, ?_⟩
    have happend : ∀ a c : Text, Text.utf8 (a ++ c) = a.utf8 ++ c.utf8 := fun _ _ =>
      List.flatMap_append
    rw [happend, happend, utf8_singleton hb, List.append_assoc]
    rfl

lemma isUtf8_append_ascii {suffix : Bytes} (h : ∀ b ∈ suffix, b < 128) :
    IsUtf8 (name ++ suffix) ↔ IsUtf8 name := by
  induction suffix generalizing name with
  | nil => rw [List.append_nil]
  | cons b suffix ih =>
    obtain ⟨hb, hrest⟩ := List.forall_mem_cons.mp h
    have hsuffix : IsUtf8 suffix := by
      have hnil : IsUtf8 ([] ++ suffix) := (ih hrest).mpr (by decide)
      exact hnil
    rw [isUtf8_append_cons hb]
    exact and_iff_left hsuffix

end FileName
