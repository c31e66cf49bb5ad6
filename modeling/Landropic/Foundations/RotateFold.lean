import Mathlib.Algebra.Order.Ring.Abs
import Mathlib.Data.Int.ModEq
import Mathlib.Tactic.LinearCombination
import Mathlib.Tactic.Linarith
import Mathlib.Tactic.Ring

set_option autoImplicit false

/-!
# Rotate-and-add hashes of machine words

A rolling hash over `w`-bit words folds a sequence of words with `h ↦ rotl(h, 1) + g`, the sum
wrapping at `2ʷ`. A rotation is multiplication by a power of two modulo `2ʷ - 1`, but the
wrapping sum is not a sum modulo `2ʷ - 1`: each carry out of the top bit is lost. So the fold is
not linear in its start value, and the start value cannot in general be taken out of it again.
This module bounds how far it is from linear.

## Main definitions

* `RotateFold.rotAdd` — one step of the fold.
* `RotateFold.rotFold` — the fold from a start value.

## Main results

* `RotateFold.rotateLeft_modEq` — a rotation by `r` multiplies by `2ʳ` modulo `2ʷ - 1`.
* `RotateFold.rotFold_sub_modEq` — folding `n` words from `x` and from `y` gives values that differ
  by `2ⁿ (x - y)` modulo `2ʷ - 1`, up to an error below `2ⁿ`.
* `RotateFold.cancel_modEq` — if subtracting `rotl(x, n + 1)` takes the start value `x` out of a
  fold of `n` words, then `2ⁿ x` is congruent to a number of absolute value at most `2ⁿ`.
-/

namespace RotateFold

variable {w : ℕ}

/-- One step of the fold: rotate the hash left by one and add the next word. -/
def rotAdd (h g : BitVec w) : BitVec w := h.rotateLeft 1 + g

/-- The rotate-and-add fold of the words `gs` from the start value `h`. -/
def rotFold (h : BitVec w) (gs : List (BitVec w)) : BitVec w := gs.foldl rotAdd h

@[simp] lemma rotFold_nil (h : BitVec w) : rotFold h [] = h := rfl

@[simp] lemma rotFold_cons (h g : BitVec w) (gs : List (BitVec w)) :
    rotFold h (g :: gs) = rotFold (rotAdd h g) gs := rfl

@[simp] lemma rotFold_concat (h g : BitVec w) (gs : List (BitVec w)) :
    rotFold h (gs ++ [g]) = rotAdd (rotFold h gs) g := by
  simp [rotFold]

@[simp] lemma rotAdd_zero (g : BitVec w) : rotAdd 0 g = g := by
  simp [rotAdd, BitVec.rotateLeft_def]

/-- The value of a rotation: the high `r` bits come back below the shifted low bits. -/
lemma toNat_rotateLeft {x : BitVec w} {r : ℕ} (hr : r < w) :
    (x.rotateLeft r).toNat =
      2 ^ r * (x.toNat % 2 ^ (w - r)) + x.toNat / 2 ^ (w - r) := by
  have hpow : 2 ^ (w - r) * 2 ^ r = 2 ^ w := by rw [← pow_add]; congr 1; omega
  have hhigh : x.toNat / 2 ^ (w - r) < 2 ^ r := by
    rw [Nat.div_lt_iff_lt_mul (Nat.two_pow_pos _), mul_comm, hpow]
    exact x.isLt
  have hlow : x.toNat <<< r % 2 ^ w = 2 ^ r * (x.toNat % 2 ^ (w - r)) := by
    rw [Nat.shiftLeft_eq, ← hpow, Nat.mul_mod_mul_right, mul_comm]
  rw [BitVec.rotateLeft_def, Nat.mod_eq_of_lt hr, BitVec.toNat_or, BitVec.toNat_shiftLeft,
    BitVec.toNat_ushiftRight, hlow, Nat.shiftRight_eq_div_pow,
    Nat.two_pow_add_eq_or_of_lt hhigh]

/-- Rotation by one loses no bit: its lowest bit is the old top bit, and the others are the old
lower bits. -/
lemma rotateLeft_one_injective (hw : 1 < w) :
    Function.Injective fun h : BitVec w => h.rotateLeft 1 := by
  intro a b hab
  have hval := congrArg BitVec.toNat hab
  simp only [toNat_rotateLeft hw] at hval
  have htop : ∀ v : BitVec w, v.toNat / 2 ^ (w - 1) < 2 := by
    intro v
    rw [Nat.div_lt_iff_lt_mul (Nat.two_pow_pos _), ← pow_succ', Nat.sub_add_cancel hw.le]
    exact v.isLt
  have ha := Nat.div_add_mod a.toNat (2 ^ (w - 1))
  have hb := Nat.div_add_mod b.toNat (2 ^ (w - 1))
  have hqm : ∀ q q' m m' : ℕ, q < 2 → q' < 2 → 2 * m + q = 2 * m' + q' → q = q' ∧ m = m' := by
    omega
  obtain ⟨hq, hm⟩ := hqm _ _ _ _ (htop a) (htop b) hval
  apply BitVec.eq_of_toNat_eq
  rw [← ha, ← hb, hq, hm]

lemma rotAdd_left_inj (hw : 1 < w) {a b g : BitVec w} : rotAdd a g = rotAdd b g ↔ a = b := by
  refine ⟨fun h => ?_, fun h => by rw [h]⟩
  apply rotateLeft_one_injective hw
  have := congrArg (· - g) h
  simpa [rotAdd] using this

/-- A rotation by `r` multiplies by `2ʳ` modulo `2ʷ - 1`. -/
lemma rotateLeft_modEq (x : BitVec w) {r : ℕ} (hr : r < w) :
    ((x.rotateLeft r).toNat : ℤ) ≡ 2 ^ r * x.toNat [ZMOD 2 ^ w - 1] := by
  have hpow : (2 : ℤ) ^ r * 2 ^ (w - r) = 2 ^ w := by rw [← pow_add]; congr 1; omega
  have hdiv : (2 : ℤ) ^ (w - r) * (x.toNat / 2 ^ (w - r) : ℕ) + (x.toNat % 2 ^ (w - r) : ℕ) =
      x.toNat := by
    exact_mod_cast Nat.div_add_mod x.toNat (2 ^ (w - r))
  rw [toNat_rotateLeft hr, ← hdiv, Nat.cast_add, Nat.cast_mul, Nat.cast_pow, Nat.cast_ofNat]
  apply Int.modEq_iff_dvd.mpr
  refine ⟨(x.toNat / 2 ^ (w - r) : ℕ), ?_⟩
  linear_combination (x.toNat / 2 ^ (w - r) : ℕ) * hpow

/-- A wrapping sum is the sum modulo `2ʷ - 1`, less the carry out of the top bit. -/
lemma add_modEq (a b : BitVec w) :
    ∃ c : ℤ, 0 ≤ c ∧ c ≤ 1 ∧ ((a + b).toNat : ℤ) ≡ a.toNat + b.toNat - c [ZMOD 2 ^ w - 1] := by
  have ha := a.isLt
  have hb := b.isLt
  rw [BitVec.toNat_add]
  rcases Nat.lt_or_ge (a.toNat + b.toNat) (2 ^ w) with h | h
  · refine ⟨0, le_rfl, by norm_num, ?_⟩
    rw [Nat.mod_eq_of_lt h]
    simp
  · refine ⟨1, by norm_num, le_rfl, ?_⟩
    rw [Nat.mod_eq_sub_mod h, Nat.mod_eq_of_lt (by omega), Nat.cast_sub h]
    apply Int.modEq_iff_dvd.mpr
    exact ⟨1, by push_cast; ring⟩

/-- **The fold is linear up to its carries**: from `x` and from `y`, the same `n` words are folded
to values that differ by `2ⁿ (x - y)` modulo `2ʷ - 1`, with an error below `2ⁿ`.

**Proof sketch.** Induction on the words. A step doubles the difference of the two hashes (a
rotation by one doubles modulo `2ʷ - 1`) and each of its two wrapping sums loses a carry of at
most one, so an error of at most `1` is added before the remaining `n` steps double it. -/
theorem rotFold_sub_modEq (hw : 1 < w) (gs : List (BitVec w)) (x y : BitVec w) :
    ∃ e : ℤ, |e| < 2 ^ gs.length ∧
      ((rotFold x gs).toNat : ℤ) - (rotFold y gs).toNat ≡
        2 ^ gs.length * (x.toNat - y.toNat) + e [ZMOD 2 ^ w - 1] := by
  induction gs generalizing x y with
  | nil => exact ⟨0, by simp, by simp [Int.ModEq]⟩
  | cons g gs ih =>
    obtain ⟨e, he, hfold⟩ := ih (rotAdd x g) (rotAdd y g)
    obtain ⟨cx, hcx0, hcx1, hx⟩ := add_modEq (x.rotateLeft 1) g
    obtain ⟨cy, hcy0, hcy1, hy⟩ := add_modEq (y.rotateLeft 1) g
    have hstep : ((rotAdd x g).toNat : ℤ) - (rotAdd y g).toNat ≡
        2 * (x.toNat - y.toNat) + (cy - cx) [ZMOD 2 ^ w - 1] := by
      have hrx := rotateLeft_modEq x hw
      have hry := rotateLeft_modEq y hw
      calc ((rotAdd x g).toNat : ℤ) - (rotAdd y g).toNat
          ≡ ((x.rotateLeft 1).toNat + g.toNat - cx) - ((y.rotateLeft 1).toNat + g.toNat - cy)
            [ZMOD 2 ^ w - 1] := hx.sub hy
        _ ≡ (2 ^ 1 * x.toNat + g.toNat - cx) - (2 ^ 1 * y.toNat + g.toNat - cy)
            [ZMOD 2 ^ w - 1] :=
          ((hrx.add_right _).sub_right _).sub ((hry.add_right _).sub_right _)
        _ = 2 * (x.toNat - y.toNat) + (cy - cx) := by ring
    refine ⟨2 ^ gs.length * (cy - cx) + e, ?_, ?_⟩
    · have hc : |cy - cx| ≤ 1 := by rw [abs_le]; omega
      have hp : (0 : ℤ) < 2 ^ gs.length := by positivity
      calc |2 ^ gs.length * (cy - cx) + e| ≤ |2 ^ gs.length * (cy - cx)| + |e| := abs_add_le _ _
        _ = 2 ^ gs.length * |cy - cx| + |e| := by rw [abs_mul, abs_of_pos hp]
        _ < 2 ^ gs.length * 1 + 2 ^ gs.length := by
            have := mul_le_mul_of_nonneg_left hc hp.le
            linarith
        _ = 2 ^ (g :: gs).length := by rw [List.length_cons, pow_succ]; ring
    · rw [rotFold_cons, rotFold_cons]
      refine hfold.trans ?_
      have := (hstep.mul_left (2 ^ gs.length)).add_right e
      refine this.trans ?_
      have hpow : (2 : ℤ) ^ gs.length * (2 * (x.toNat - y.toNat) + (cy - cx)) + e =
          2 ^ (g :: gs).length * (x.toNat - y.toNat) + (2 ^ gs.length * (cy - cx) + e) := by
        rw [List.length_cons, pow_succ]
        ring
      rw [hpow]

/-- **What it takes to cancel a start value.** If folding `n` words from `x` gives the fold from
`0` plus `rotl(x, n + 1)`, then `2ⁿ x` is congruent modulo `2ʷ - 1` to some `e` with
`|e| ≤ 2ⁿ`.

**Proof sketch.** By `rotFold_sub_modEq` the two folds differ by `2ⁿ x` up to an error below
`2ⁿ`; by hypothesis they differ by `2ⁿ⁺¹ x` up to a carry. Subtract. -/
theorem cancel_modEq {gs : List (BitVec w)} {x : BitVec w} (hlen : gs.length + 1 < w)
    (h : rotFold x gs = rotFold 0 gs + x.rotateLeft (gs.length + 1)) :
    ∃ e : ℤ, |e| ≤ 2 ^ gs.length ∧ 2 ^ gs.length * (x.toNat : ℤ) ≡ e [ZMOD 2 ^ w - 1] := by
  obtain ⟨e, he, hfold⟩ := rotFold_sub_modEq (by omega) gs x 0
  obtain ⟨c, hc0, hc1, hadd⟩ := add_modEq (rotFold 0 gs) (x.rotateLeft (gs.length + 1))
  have hrot := rotateLeft_modEq x hlen
  refine ⟨e + c, ?_, ?_⟩
  · rw [abs_lt] at he
    rw [abs_le]
    constructor <;> linarith [he.1, he.2]
  · rw [← h] at hadd
    have hlin : 2 ^ gs.length * (x.toNat : ℤ) + e ≡ 2 ^ (gs.length + 1) * x.toNat - c
        [ZMOD 2 ^ w - 1] := by
      calc 2 ^ gs.length * (x.toNat : ℤ) + e
          = 2 ^ gs.length * (x.toNat - (0 : BitVec w).toNat) + e := by simp
        _ ≡ (rotFold x gs).toNat - (rotFold 0 gs).toNat [ZMOD 2 ^ w - 1] := hfold.symm
        _ ≡ ((rotFold 0 gs).toNat + (x.rotateLeft (gs.length + 1)).toNat - c) -
              (rotFold 0 gs).toNat [ZMOD 2 ^ w - 1] := hadd.sub_right _
        _ = (x.rotateLeft (gs.length + 1)).toNat - c := by ring
        _ ≡ 2 ^ (gs.length + 1) * x.toNat - c [ZMOD 2 ^ w - 1] := hrot.sub_right c
    have := (hlin.add_right (c - 2 ^ gs.length * (x.toNat : ℤ)))
    have hl : 2 ^ gs.length * (x.toNat : ℤ) + e + (c - 2 ^ gs.length * x.toNat) = e + c := by ring
    have hr : 2 ^ (gs.length + 1) * (x.toNat : ℤ) - c + (c - 2 ^ gs.length * x.toNat) =
        2 ^ gs.length * x.toNat := by rw [pow_succ]; ring
    rw [hl, hr] at this
    exact this.symm

end RotateFold
