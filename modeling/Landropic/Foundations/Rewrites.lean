import Landropic.Foundations.FileHandle

set_option autoImplicit false

/-!
# A file that is rewritten by several writers at once

Each writer truncates the file and then writes the same data from the beginning, byte by byte. The
others may truncate it again in between, and a writer that goes on then leaves a gap of zeros.

## Main definitions

* `Rewriting` — what a file holds while there are writers.

## Main results

* `Rewriting.begin`, `Rewriting.write`, `Rewriting.finish` — what a writer keeps.
* `Rewriting.eq_data` — the file holds the data once all have finished.
* `Rewriting.cases` — until then it holds the data, or a part of it, or a zero.
-/

lemma getElem?_takeD {α : Type} (list : List α) (a : α) {n q : ℕ} (h : q < n) :
    (list.takeD n a)[q]? = some (list[q]?.getD a) := by
  induction n generalizing list q with
  | zero => omega
  | succ n ih =>
    cases q with
    | zero => cases list <;> rfl
    | succ q =>
      rw [List.takeD_succ, List.getElem?_cons_succ, ih list.tail (by omega), List.getElem?_tail]

/-- The byte at a position after a byte was written. -/
lemma getElem?_overwrite_singleton (content : Bytes) (pos : ℕ) (b : UInt8) (q : ℕ) :
    (overwrite content pos [b])[q]? =
      if q = pos then some b
      else if q < pos ∧ content.length ≤ q then some 0 else content[q]? := by
  have hfront : (content.takeD pos 0).length = pos := List.takeD_length ..
  rw [overwrite, List.append_assoc]
  rcases Nat.lt_trichotomy q pos with hlt | rfl | hgt
  · rw [List.getElem?_append_left (by omega), if_neg (by omega), getElem?_takeD _ _ hlt]
    by_cases hq : q < content.length
    · rw [if_neg (by omega), List.getElem?_eq_getElem hq, Option.getD_some]
    · rw [if_pos (by omega), List.getElem?_eq_none (by omega), Option.getD_none]
  · rw [List.getElem?_append_right (by omega), hfront, Nat.sub_self, if_pos rfl]
    rfl
  · rw [List.getElem?_append_right (by omega), hfront, if_neg (by omega), if_neg (by omega),
      List.getElem?_append_right (by simp; omega), List.getElem?_drop]
    congr 1
    simp only [List.length_singleton]
    omega

/-- A file while some write the same data to it, each of them at a position. -/
structure Rewriting (data content : Bytes) (positions : Set ℕ) : Prop where
  length_le : content.length ≤ data.length
  /-- A byte is the right one, or is missing or zero and will be written. -/
  written : ∀ q < data.length, content[q]? = data[q]? ∨
    (content[q]? = none ∨ content[q]? = some 0) ∧ ∃ p ∈ positions, p ≤ q

namespace Rewriting

variable {data content : Bytes} {positions positions' : Set ℕ} {pos : ℕ}

lemma begin (h : 0 ∈ positions) : Rewriting data [] positions where
  length_le := Nat.zero_le _
  written q _ := .inr ⟨.inl List.getElem?_nil, 0, h, Nat.zero_le q⟩

/-- One writes the next byte. -/
lemma write (h : Rewriting data content positions) (hpos : pos < data.length)
    (hrest : ∀ p ∈ positions, p = pos ∨ p ∈ positions') (hnext : pos + 1 ∈ positions') :
    Rewriting data (overwrite content pos [data[pos]]) positions' where
  length_le := by
    have hle := h.length_le
    simp only [overwrite, List.length_append, List.takeD_length, List.length_drop,
      List.length_singleton]
    omega
  written q hq := by
    rw [getElem?_overwrite_singleton]
    by_cases heq : q = pos
    · subst heq
      rw [if_pos rfl, List.getElem?_eq_getElem hq]
      exact .inl rfl
    rw [if_neg heq]
    have hlater : (∃ p ∈ positions, p ≤ q) → ∃ p ∈ positions', p ≤ q := by
      rintro ⟨p, hp, hle⟩
      obtain rfl | hp := hrest p hp
      · exact ⟨p + 1, hnext, by omega⟩
      · exact ⟨p, hp, hle⟩
    split
    · next hgap =>
      have hnone : content[q]? = none := List.getElem?_eq_none hgap.2
      obtain hright | ⟨-, hwriter⟩ := h.written q hq
      · rw [hnone, List.getElem?_eq_getElem hq] at hright
        cases hright
      · exact .inr ⟨.inr rfl, hlater hwriter⟩
    · exact (h.written q hq).imp_right fun hmissing => ⟨hmissing.1, hlater hmissing.2⟩

/-- One that has written everything is done. -/
lemma finish (h : Rewriting data content positions)
    (hrest : ∀ p ∈ positions, data.length ≤ p ∨ p ∈ positions') :
    Rewriting data content positions' where
  length_le := h.length_le
  written q hq := by
    refine (h.written q hq).imp_right fun ⟨hmissing, p, hp, hle⟩ => ⟨hmissing, p, ?_, hle⟩
    exact (hrest p hp).resolve_left (by omega)

/-- **The file holds the data** once all have finished. -/
theorem eq_data (h : Rewriting data content ∅) : content = data := by
  refine List.ext_getElem? fun q => ?_
  by_cases hq : q < data.length
  · refine (h.written q hq).resolve_right ?_
    rintro ⟨-, p, hp, -⟩
    exact hp
  · have hle := h.length_le
    rw [List.getElem?_eq_none (by omega), List.getElem?_eq_none (by omega)]

/-- **Until then** it holds the data, or a zero, or only a part of the data. -/
theorem cases (h : Rewriting data content positions) :
    content = data ∨ 0 ∈ content ∨ ∃ kept < data.length, content = data.take kept := by
  by_cases hzero : 0 ∈ content
  · exact .inr (.inl hzero)
  have htake : content = data.take content.length := by
    refine List.ext_getElem? fun q => ?_
    by_cases hq : q < content.length
    · rw [List.getElem?_take_of_lt hq]
      refine (h.written q (hq.trans_le h.length_le)).resolve_right ?_
      rintro ⟨hnone | hsome, -⟩
      · rw [List.getElem?_eq_getElem hq] at hnone
        cases hnone
      · exact hzero (List.mem_of_getElem? hsome)
    · rw [List.getElem?_eq_none (by omega),
        List.getElem?_eq_none (by rw [List.length_take]; omega)]
  obtain hlt | heq := Nat.lt_or_eq_of_le h.length_le
  · exact .inr (.inr ⟨content.length, hlt, htake⟩)
  · rw [heq, List.take_length] at htake
    exact .inl htake

end Rewriting
