import Mathlib.Data.Countable.Basic
import Landropic.Foundations.HashMap
import Landropic.Foundations.RecordLog

set_option autoImplicit false

/-!
# Records that fill a file

A record is written to a file of its own. There may be several ways to write it, all of which are
read back, and a file that was cut short is not read.

## Main definitions

* `FileCodec` — how records are written and read.

## Main results

* `FileCodec.fromBytes_take_eq_some` — what is read from a file that may have been cut short.
* `FileCodec.exists_exact` — records of every kind can be written so, some of them as one likes.
-/

/-- How records are written to a file of their own and read back. -/
structure FileCodec (α : Type) where
  /-- The bytes of a record, written in one of several ways. -/
  toBytes : ℕ → α → Bytes
  fromBytes : Bytes → Option α
  /-- What is written can be read. -/
  fromBytes_toBytes : ∀ way a, fromBytes (toBytes way a) = some a
  /-- What was cut short cannot. -/
  fromBytes_take : ∀ way a kept, kept < (toBytes way a).length →
    fromBytes ((toBytes way a).take kept) = none

namespace FileCodec

variable {α : Type}

/-- **A file that may have been cut short** is read only if it was not. -/
theorem fromBytes_take_eq_some (codec : FileCodec α) {way kept : ℕ} {a b : α} :
    codec.fromBytes ((codec.toBytes way a).take kept) = some b ↔
      (codec.toBytes way a).length ≤ kept ∧ a = b := by
  by_cases h : (codec.toBytes way a).length ≤ kept
  · rw [List.take_of_length_le h, codec.fromBytes_toBytes]
    simp [h]
  · rw [codec.fromBytes_take way a kept (Nat.lt_of_not_le h)]
    simp [h]

/-! ## Writing records of any kind -/

/-- There are countably many maps. -/
instance {K V : Type} [Countable K] [Countable V] : Countable (HashMap K V) :=
  Function.Injective.countable (f := Finmap.entries) fun _ _ => Finmap.ext

/-- A number in unary, with a byte at the end that marks it. -/
def unary (n : ℕ) : Bytes := List.replicate (n + 1) 120 ++ [125]

lemma unary_eq_utf8 (n : ℕ) : unary n = Text.utf8 (List.replicate (n + 1) 'x' ++ ['\x7d']) := by
  rw [Text.utf8, List.flatMap_append, List.flatMap_replicate,
    show String.utf8EncodeChar 'x' = [120] by decide, List.flatten_replicate_singleton]
  rfl

lemma zero_notMem_unary (n : ℕ) : 0 ∉ unary n := by
  simp [unary, List.mem_replicate]

lemma eq_of_unary_starts {n m : ℕ} (h : unary n <+: unary m) : n = m := by
  induction n generalizing m with
  | zero =>
    cases m with
    | zero => rfl
    | succ m =>
      have := (List.cons_prefix_cons.mp h).2
      have := (List.cons_prefix_cons.mp this).1
      exact absurd this (by decide)
  | succ n ih =>
    cases m with
    | zero =>
      have := (List.cons_prefix_cons.mp h).2
      have := (List.cons_prefix_cons.mp this).1
      exact absurd this (by decide)
    | succ m => exact congrArg (· + 1) (ih (List.cons_prefix_cons.mp h).2)

/-- **Records of every kind can be written to files**, some of them as given and the others in
unary, and nothing else is read.

**Proof sketch.** The others are written as their numbers. No text is the beginning of another one,
so that a file is read by looking for the record that is written so. -/
theorem exists_exact [Countable α] (special : α → Option Bytes)
    (hstarts : ∀ a b t u, special a = some t → special b = some u → t <+: u → a = b)
    (hhead : ∀ a t, special a = some t → t.head? = some 123) :
    ∃ codec : FileCodec α, (∀ way a t, special a = some t → codec.toBytes way a = t) ∧
      (∀ way a, special a = none → ∃ n, codec.toBytes way a = unary n) ∧
      ∀ content a, codec.fromBytes content = some a → content = codec.toBytes 0 a := by
  classical
  obtain ⟨f, hf⟩ := exists_injective_nat α
  let write : α → Bytes := fun a => (special a).getD (unary (f a))
  have hhead' : ∀ a t, special a = some t → ∃ rest, t = 123 :: rest := by
    intro a t ht
    have hfirst := hhead a t ht
    cases t with
    | nil => cases hfirst
    | cons b rest => exact ⟨rest, congrArg (· :: rest) (Option.some.inj hfirst)⟩
  have hwrite : ∀ a b, write a <+: write b → a = b := by
    intro a b h
    simp only [write] at h
    cases ha : special a with
    | none =>
      cases hb : special b with
      | none =>
        rw [ha, hb] at h
        exact hf (eq_of_unary_starts h)
      | some t =>
        obtain ⟨rest, rfl⟩ := hhead' b t hb
        rw [ha, hb] at h
        exact absurd (List.cons_prefix_cons.mp h).1 (by decide)
    | some t =>
      cases hb : special b with
      | none =>
        obtain ⟨rest, rfl⟩ := hhead' a t ha
        rw [ha, hb] at h
        exact absurd (List.cons_prefix_cons.mp h).1 (by decide)
      | some t' =>
        rw [ha, hb] at h
        exact hstarts a b t t' ha hb h
  let read : Bytes → Option α := fun bytes =>
    if h : ∃ a, write a = bytes then some h.choose else none
  refine ⟨⟨fun _ => write, read, fun _ a => ?_, fun _ a kept hkept => ?_⟩,
    fun _ a t ha => ?_, fun _ a ha => ⟨f a, ?_⟩, fun content a hread => ?_⟩
  · have hfound : ∃ b, write b = write a := ⟨a, rfl⟩
    have hchoose : write hfound.choose <+: write a := by rw [hfound.choose_spec]
    simp only [read, dif_pos hfound, hwrite _ _ hchoose]
  · have hnone : ¬ ∃ b, write b = (write a).take kept := by
      rintro ⟨b, hb⟩
      obtain rfl := hwrite b a (hb ▸ List.take_prefix kept _)
      have hlength := congrArg List.length hb
      rw [List.length_take] at hlength
      omega
    simp only [read, dif_neg hnone]
  · simp only [write, ha, Option.getD_some]
  · simp only [write, ha, Option.getD_none]
  · simp only [read] at hread
    split at hread
    · next hfound =>
      obtain rfl := Option.some.inj hread
      exact hfound.choose_spec.symm
    · cases hread

/-- Some samples are written as given. -/
theorem exists_exact_of_samples [Countable α] [DecidableEq α] (samples : List (α × Bytes))
    (hrecords : (samples.map Prod.fst).Nodup)
    (hstarts : ∀ p ∈ samples, ∀ q ∈ samples, p.2 <+: q.2 → p.1 = q.1)
    (hhead : ∀ p ∈ samples, p.2.head? = some 123) :
    ∃ codec : FileCodec α, (∀ way, ∀ sample ∈ samples, codec.toBytes way sample.1 = sample.2) ∧
      (∀ way a, (∃ sample ∈ samples, codec.toBytes way a = sample.2) ∨
        ∃ n, codec.toBytes way a = unary n) ∧
      ∀ content a, codec.fromBytes content = some a → content = codec.toBytes 0 a := by
  let special : α → Option Bytes := fun a => (RecordLog.find Prod.fst samples a).map Prod.snd
  have hmem : ∀ a t, special a = some t → (a, t) ∈ samples := by
    intro a t ht
    obtain ⟨sample, hfind, rfl⟩ := Option.map_eq_some_iff.mp ht
    exact RecordLog.key_of_find hfind ▸ RecordLog.mem_of_find hfind
  obtain ⟨codec, hspecial, hothers, hreads⟩ := exists_exact special
    (fun a b t u ha hb => hstarts _ (hmem a t ha) _ (hmem b u hb))
    fun a t ha => hhead _ (hmem a t ha)
  refine ⟨codec, fun way sample hsample => hspecial way _ _ ?_, fun way a => ?_, hreads⟩
  · show (RecordLog.find Prod.fst samples sample.1).map Prod.snd = _
    rw [(RecordLog.mem_iff_find hrecords).mp hsample]
    rfl
  · cases ha : special a with
    | none => exact .inr (hothers way a ha)
    | some t => exact .inl ⟨(a, t), hmem a t ha, hspecial way a t ha⟩

/-- Records of every kind can be written to files, the given ones as given. -/
theorem exists_of_samples [Countable α] [DecidableEq α] (samples : List (α × Bytes))
    (hrecords : (samples.map Prod.fst).Nodup)
    (hstarts : ∀ p ∈ samples, ∀ q ∈ samples, p.2 <+: q.2 → p.1 = q.1)
    (hhead : ∀ p ∈ samples, p.2.head? = some 123) :
    ∃ codec : FileCodec α, ∀ way, ∀ sample ∈ samples, codec.toBytes way sample.1 = sample.2 := by
  obtain ⟨codec, hsamples, -⟩ := exists_exact_of_samples samples hrecords hstarts hhead
  exact ⟨codec, hsamples⟩

end FileCodec
