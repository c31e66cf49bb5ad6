import Landropic.Foundations.RotateFold
import Landropic.Chunker.Chunker

set_option autoImplicit false

/-!
# Which hash the boundary scan tests

A content-defined cut should depend on the 48 bytes before it and on nothing else: the hash tested
at a position should be the one folded from scratch over the window that ends there. The scan
updates its hash instead. It takes the oldest byte out by subtracting that byte's gear word rotated
`WINDOW_SIZE` times, although the word has been rotated one time less, and although a wrapping sum
does not let a rotated summand be taken out again. With this gear table the subtraction is wrong
for every byte, whatever the other 47 bytes of the window are.

## Main definitions

* `Chunker.windowHash` — the hash of the 48 bytes ending at a position, from scratch.
* `Chunker.ContentDefined` — every tested hash is the hash of its window.

## Main results

* `Chunker.gear_not_cancellable` — no gear word can be taken out of a fold.
* `Chunker.first_tested_ne_windowHash` — the first hash a scan tests is not that of its window.
* `Chunker.contentDefined_iff` — a scan is content-defined exactly when it tests nothing.
-/

namespace Landropic

/-! ## The gear words cannot be cancelled -/

/-- The values `x` for which `2⁴⁷ x` can be congruent to a number of size at most `2⁴⁷` modulo
`2⁶⁴ - 1`: the low 17 bits are all equal, up to two exceptions. -/
def cancellable (x : ℕ) : Bool :=
  x % 2 ^ 17 == 0 || x % 2 ^ 17 == 2 ^ 17 - 1 || x == 1 || x == 2 ^ 64 - 2

/-- If `2⁴⁷ x` is congruent to a number of size at most `2⁴⁷`, then `x` is cancellable.

**Proof sketch.** Multiplying by `2¹⁷` turns `2⁴⁷ x` into `x`, as `2⁶⁴ ≡ 1`, and the bound into
`2⁶⁴`. So `x` is a multiple of `2¹⁷` plus `j (2⁶⁴ - 1)` with `j` between `-1` and `2`. -/
lemma cancellable_of_modEq {x : ℕ} (hx : x < 2 ^ 64) {e : ℤ} (he : |e| ≤ 2 ^ 47)
    (h : 2 ^ 47 * (x : ℤ) ≡ e [ZMOD 2 ^ 64 - 1]) : cancellable x = true := by
  obtain ⟨k, hk⟩ := Int.modEq_iff_dvd.mp h
  rw [abs_le] at he
  have hj : (x : ℤ) - 2 ^ 17 * e = (2 ^ 64 - 1) * (-(2 ^ 17 * k) - x) := by linarith
  generalize -(2 ^ 17 * k) - (x : ℤ) = j at hj
  have hj4 : j = 0 ∨ j = 1 ∨ j = -1 ∨ j = 2 := by omega
  have hcases : x % 2 ^ 17 = 0 ∨ x % 2 ^ 17 = 2 ^ 17 - 1 ∨ x = 1 ∨ x = 2 ^ 64 - 2 := by omega
  simpa [cancellable, or_assoc] using hcases

/-- Apply a function to a number, matching on the number first, so that the kernel computes it
once. -/
private def withValue {α : Type} (n : ℕ) (f : ℕ → α) : α := Nat.rec (f 0) (fun k _ => f (k + 1)) n

private lemma withValue_eq {α : Type} (n : ℕ) (f : ℕ → α) : withValue n f = f n := by
  cases n <;> rfl

/-- The next `n` gear words, computed on numbers, are not cancellable. -/
private def noneCancellable : ℕ → ℕ → ℕ → Bool
  | 0, _, _ => true
  | n + 1, i, state =>
    withValue (state ^^^ (state <<< 13 % 2 ^ 64)) fun s =>
    withValue (s ^^^ (s >>> 7)) fun s =>
    withValue (s ^^^ (s <<< 17 % 2 ^ 64)) fun s =>
      !cancellable ((s + i * 0x517cc1b727220a95) % 2 ^ 64) && noneCancellable n (i + 1) s

private lemma noneCancellable_succ (n i : ℕ) (state : BitVec 64) :
    noneCancellable (n + 1) i state.toNat =
      (!cancellable (xorshift state + BitVec.ofNat 64 i * 0x517cc1b727220a95#64).toNat &&
        noneCancellable n (i + 1) (xorshift state).toNat) := by
  have hword : (xorshift state + BitVec.ofNat 64 i * 0x517cc1b727220a95#64).toNat =
      ((xorshift state).toNat + i * 0x517cc1b727220a95) % 2 ^ 64 := by
    rw [BitVec.toNat_add, BitVec.toNat_mul, BitVec.toNat_ofNat, BitVec.toNat_ofNat]
    omega
  rw [hword, noneCancellable, withValue_eq, withValue_eq, withValue_eq]
  simp only [xorshift, BitVec.toNat_xor, BitVec.toNat_shiftLeft, BitVec.toNat_ushiftRight]

private lemma not_cancellable_of_check (n i : ℕ) (state : BitVec 64)
    (h : noneCancellable n i state.toNat = true) :
    ∀ g ∈ gearEntries n i state, cancellable g.toNat = false := by
  induction n generalizing i state with
  | zero => simp [gearEntries]
  | succ n ih =>
    rw [noneCancellable_succ, Bool.and_eq_true, Bool.not_eq_true'] at h
    intro g hg
    rcases List.mem_cons.mp hg with rfl | hg
    · exact h.1
    · exact ih (i + 1) (xorshift state) h.2 g hg

namespace Chunker

variable (c : Chunker)

lemma gear_not_cancellable (b : UInt8) : cancellable (c.gear b).toNat = false := by
  apply not_cancellable_of_check 256 0 0x45aabbccddeeff00#64
  · show noneCancellable 256 0 0x45aabbccddeeff00 = true
    decide +kernel
  · have hmem : c.gear b ∈ c.gearTable.toList := by
      simp [gear, Vector.get]
    rw [c.gearTable_eq] at hmem
    simpa only [generateGearTable, Vector.toList_mk] using hmem

/-! ## The hashes of the scan as folds -/

/-- The gear words of a stretch of `n` bytes from `start` on. -/
def gearsAt (data : Bytes) (start n : ℕ) : List (BitVec 64) :=
  ((data.drop start).take n).map c.gear

/-- The hash computed from scratch over the 48 bytes `data[pos - 47 ..= pos]`. -/
def windowHash (data : Bytes) (pos : ℕ) : BitVec 64 :=
  RotateFold.rotFold 0 (c.gearsAt data (pos - 47) 48)

variable {data : Bytes} {start n startPos maxPos : ℕ} {hash : BitVec 64}

lemma gearsAt_succ {b : UInt8} (h : data[start + n]? = some b) :
    c.gearsAt data start (n + 1) = c.gearsAt data start n ++ [c.gear b] := by
  simp [gearsAt, List.take_add_one, List.getElem?_drop, h]

lemma gearsAt_cons {b : UInt8} (h : data[start]? = some b) :
    c.gearsAt data start (n + 1) = c.gear b :: c.gearsAt data (start + 1) n := by
  obtain ⟨hlt, hb⟩ := List.getElem?_eq_some_iff.mp h
  rw [gearsAt, List.drop_eq_getElem_cons hlt, List.take_succ_cons, List.map_cons, hb]
  rfl

@[simp] lemma length_gearsAt (h : start + n ≤ data.length) :
    (c.gearsAt data start n).length = n := by
  simp [gearsAt]; omega

lemma initHash_eq (h : startPos + WINDOW_SIZE ≤ data.length) :
    c.initHash data startPos = some (RotateFold.rotFold 0 (c.gearsAt data startPos 48)) := by
  have hfold : ∀ n, startPos + n ≤ data.length →
      (List.range n).foldlM (fun hash i => do
          let byte ← data[startPos + i]?
          some (hash.rotateLeft 1 + c.gear byte)) (0 : BitVec 64) =
        some (RotateFold.rotFold 0 (c.gearsAt data startPos n)) := by
    intro n
    induction n with
    | zero => intro _; simp [gearsAt]
    | succ n ih =>
      intro hn
      have hget : data[startPos + n]? = some data[startPos + n] := List.getElem?_eq_getElem _
      rw [List.range_succ, List.foldlM_append, ih (by omega)]
      simp [hget, c.gearsAt_succ hget, RotateFold.rotAdd]
  exact hfold 48 h

lemma rollAt_eq {pos : ℕ} {old new : UInt8} (hold : data[pos - WINDOW_SIZE]? = some old)
    (hnew : data[pos]? = some new) :
    c.rollAt data pos hash =
      some (RotateFold.rotAdd (hash - (c.gear old).rotateLeft WINDOW_SIZE) (c.gear new)) := by
  simp [rollAt, hold, hnew, RotateFold.rotAdd]

lemma lt_of_tests {pos : ℕ} (h : c.Tests data startPos maxPos pos hash) :
    startPos + WINDOW_SIZE < min maxPos data.length := by
  obtain ⟨before, hhead, hlt, -⟩ := h
  have := le_of_atHead hhead
  omega

lemma exists_first_test (h : startPos + WINDOW_SIZE < min maxPos data.length) :
    ∃ hash, c.Tests data startPos maxPos (startPos + WINDOW_SIZE) hash := by
  have hhead : c.AtHead data startPos maxPos (startPos + WINDOW_SIZE) _ :=
    .start (by omega) (by omega) (by omega) (by omega) (c.initHash_eq (by omega))
  have hold : data[startPos + WINDOW_SIZE - WINDOW_SIZE]? = some data[startPos] := by
    rw [Nat.add_sub_cancel]
    exact List.getElem?_eq_getElem _
  have hnew : data[startPos + WINDOW_SIZE]? = some data[startPos + WINDOW_SIZE] :=
    List.getElem?_eq_getElem _
  exact ⟨_, _, hhead, h, c.rollAt_eq hold hnew⟩

lemma atHead_first (h : c.AtHead data startPos maxPos (startPos + WINDOW_SIZE) hash) :
    c.initHash data startPos = some hash := by
  generalize hpos : startPos + WINDOW_SIZE = pos at h
  cases h with
  | start _ _ _ _ hinit => exact hinit
  | next hhead =>
    have := le_of_atHead hhead
    omega

/-- **The first hash a scan tests is not the hash of its window.**

**Proof sketch.** The initial hash folds the window `old :: rest`, so it is the fold of `rest` from
the start value `gear old`. If the updated hash were that of the window `rest ++ [new]`, then
subtracting the 48-fold rotation of `gear old` would have taken this start value out, and by
`RotateFold.cancel_modEq` the gear word would be cancellable, which none is. -/
lemma first_tested_ne_windowHash (h : c.Tests data startPos maxPos (startPos + WINDOW_SIZE) hash) :
    hash ≠ c.windowHash data (startPos + WINDOW_SIZE) := by
  obtain ⟨before, hhead, hlt, hroll⟩ := h
  have hlen : startPos + WINDOW_SIZE < data.length := by omega
  obtain rfl : before = RotateFold.rotFold 0 (c.gearsAt data startPos 48) := by
    have := c.atHead_first hhead
    rw [c.initHash_eq (by omega)] at this
    exact (Option.some.inj this).symm
  have hold : data[startPos]? = some data[startPos] := List.getElem?_eq_getElem _
  have hnew : data[startPos + WINDOW_SIZE]? = some data[startPos + WINDOW_SIZE] :=
    List.getElem?_eq_getElem _
  rw [c.rollAt_eq (by rwa [Nat.add_sub_cancel]) hnew, c.gearsAt_cons (n := 47) hold] at hroll
  set old := c.gear data[startPos]
  set rest := c.gearsAt data (startPos + 1) 47 with hrest
  have hrestlen : rest.length = 47 := c.length_gearsAt (by unfold WINDOW_SIZE at hlen; omega)
  have hnew47 : data[startPos + 1 + 47]? = some data[startPos + WINDOW_SIZE] := by
    rw [← hnew, Nat.add_assoc]
    rfl
  have hwindow : c.windowHash data (startPos + WINDOW_SIZE) =
      RotateFold.rotAdd (RotateFold.rotFold 0 rest) (c.gear data[startPos + WINDOW_SIZE]) := by
    rw [windowHash, show startPos + WINDOW_SIZE - 47 = startPos + 1 by unfold WINDOW_SIZE; omega,
      c.gearsAt_succ (n := 47) hnew47,
      RotateFold.rotFold_concat]
  intro heq
  rw [← Option.some.inj hroll, hwindow, RotateFold.rotAdd_left_inj (by norm_num),
    RotateFold.rotFold_cons, RotateFold.rotAdd_zero] at heq
  -- subtracting the rotated gear word has taken it out of the fold as a start value
  have hcancel : RotateFold.rotFold old rest =
      RotateFold.rotFold 0 rest + old.rotateLeft (rest.length + 1) := by
    rw [hrestlen, ← heq]
    exact (BitVec.sub_add_cancel _ _).symm
  obtain ⟨e, he, hmod⟩ := RotateFold.cancel_modEq (by omega) hcancel
  rw [hrestlen] at he hmod
  have := cancellable_of_modEq old.isLt he hmod
  rw [c.gear_not_cancellable] at this
  exact Bool.false_ne_true this

/-- A scan is content-defined if every hash it tests is the hash of the 48 bytes that end at the
tested position, and so whether it cuts there is decided by these bytes. -/
def ContentDefined (data : Bytes) (startPos maxPos : ℕ) : Prop :=
  ∀ pos hash, c.Tests data startPos maxPos pos hash →
    hash = c.windowHash data pos ∧
      (hash &&& c.mask = 0 ↔ c.windowHash data pos &&& c.mask = 0)

lemma not_contentDefined (h : startPos + WINDOW_SIZE < min maxPos data.length) :
    ¬ c.ContentDefined data startPos maxPos := by
  intro hdef
  obtain ⟨hash, htests⟩ := c.exists_first_test h
  exact c.first_tested_ne_windowHash htests (hdef _ _ htests).1

/-- **The boundary scan is content-defined exactly when it tests no position at all**, that is,
when no byte lies between the end of its first window and its limit. -/
theorem contentDefined_iff (data : Bytes) (startPos maxPos : ℕ) :
    c.ContentDefined data startPos maxPos ↔
      min maxPos data.length ≤ startPos + WINDOW_SIZE := by
  constructor
  · intro hdef
    by_contra hlt
    exact c.not_contentDefined (by omega) hdef
  · intro hle pos hash htests
    have := c.lt_of_tests htests
    omega

/-- The scan of 400 zero bytes from 256 on, with chunks of 256 to 512 bytes, is not
content-defined. -/
theorem not_forall_contentDefined :
    ¬ ∀ (c : Chunker) (data : Bytes) (startPos maxPos : ℕ),
      c.ContentDefined data startPos maxPos := by
  intro h
  let config : ChunkerConfig := { minSize := 256, avgSize := 300, maxSize := 512, maskBits := 8 }
  let c : Chunker := ⟨config, _, _, by decide, rfl, rfl⟩
  have hlt : 256 + WINDOW_SIZE < min 400 (List.replicate 400 (0 : UInt8)).length := by
    rw [List.length_replicate]
    decide
  exact c.not_contentDefined hlt (h c (List.replicate 400 0) 256 400)

end Chunker

end Landropic
