import Landropic.Foundations.Bytes

set_option autoImplicit false

/-!
# The hash function BLAKE3

BLAKE3 for at most 1024 bytes, which are one chunk: its blocks of 64 bytes are compressed one after
the other. Words are natural numbers below `2 ^ 32`. The state of a compression is kept in variables
instead of a list, so that hashes can be computed in proofs.

## Main definitions

* `Blake3.hash` — the hash of at most 1024 bytes.

## Main results

* `Blake3.length_hash` — a hash has 32 bytes.
-/

namespace Landropic.Blake3

/-- Rotate a word to the right. -/
def rotateRight (n x : ℕ) : ℕ := x >>> n ||| x <<< (32 - n) % 2 ^ 32

/-- Mix two words of the message into four words of the state, and go on. -/
def mix {α : Type} (a b c d x y : ℕ) (next : ℕ → ℕ → ℕ → ℕ → α) : α :=
  let a₁ := (a + b + x) % 2 ^ 32
  let d₁ := rotateRight 16 (d ^^^ a₁)
  let c₁ := (c + d₁) % 2 ^ 32
  let b₁ := rotateRight 12 (b ^^^ c₁)
  let a₂ := (a₁ + b₁ + y) % 2 ^ 32
  let d₂ := rotateRight 8 (d₁ ^^^ a₂)
  let c₂ := (c₁ + d₂) % 2 ^ 32
  next a₂ (rotateRight 7 (b₁ ^^^ c₂)) c₂ d₂

/-- Sixteen words. -/
structure Words where
  (w₀ w₁ w₂ w₃ w₄ w₅ w₆ w₇ w₈ w₉ w₁₀ w₁₁ w₁₂ w₁₃ w₁₄ w₁₅ : ℕ)

/-- The rounds that are left, and the result: the columns of the state are mixed and then its
diagonals, and the words of the message are permuted for the next round. -/
def rounds : ℕ → Words → Words → List ℕ
  | 0, _, ⟨v₀, v₁, v₂, v₃, v₄, v₅, v₆, v₇, v₈, v₉, v₁₀, v₁₁, v₁₂, v₁₃, v₁₄, v₁₅⟩ =>
    [v₀ ^^^ v₈, v₁ ^^^ v₉, v₂ ^^^ v₁₀, v₃ ^^^ v₁₁, v₄ ^^^ v₁₂, v₅ ^^^ v₁₃, v₆ ^^^ v₁₄, v₇ ^^^ v₁₅]
  | n + 1, ⟨m₀, m₁, m₂, m₃, m₄, m₅, m₆, m₇, m₈, m₉, m₁₀, m₁₁, m₁₂, m₁₃, m₁₄, m₁₅⟩,
    ⟨v₀, v₁, v₂, v₃, v₄, v₅, v₆, v₇, v₈, v₉, v₁₀, v₁₁, v₁₂, v₁₃, v₁₄, v₁₅⟩ =>
    mix v₀ v₄ v₈ v₁₂ m₀ m₁ fun v₀ v₄ v₈ v₁₂ =>
    mix v₁ v₅ v₉ v₁₃ m₂ m₃ fun v₁ v₅ v₉ v₁₃ =>
    mix v₂ v₆ v₁₀ v₁₄ m₄ m₅ fun v₂ v₆ v₁₀ v₁₄ =>
    mix v₃ v₇ v₁₁ v₁₅ m₆ m₇ fun v₃ v₇ v₁₁ v₁₅ =>
    mix v₀ v₅ v₁₀ v₁₅ m₈ m₉ fun v₀ v₅ v₁₀ v₁₅ =>
    mix v₁ v₆ v₁₁ v₁₂ m₁₀ m₁₁ fun v₁ v₆ v₁₁ v₁₂ =>
    mix v₂ v₇ v₈ v₁₃ m₁₂ m₁₃ fun v₂ v₇ v₈ v₁₃ =>
    mix v₃ v₄ v₉ v₁₄ m₁₄ m₁₅ fun v₃ v₄ v₉ v₁₄ =>
    rounds n ⟨m₂, m₆, m₃, m₁₀, m₇, m₀, m₄, m₁₃, m₁, m₁₁, m₁₂, m₅, m₉, m₁₄, m₁₅, m₈⟩
      ⟨v₀, v₁, v₂, v₃, v₄, v₅, v₆, v₇, v₈, v₉, v₁₀, v₁₁, v₁₂, v₁₃, v₁₄, v₁₅⟩

lemma length_rounds (n : ℕ) (m v : Words) : (rounds n m v).length = 8 := by
  induction n generalizing m v with
  | zero => rfl
  | succ n ih => exact ih _ _

/-- The value that a hash begins with. -/
def IV : List ℕ :=
  [0x6A09E667, 0xBB67AE85, 0x3C6EF372, 0xA54FF53A, 0x510E527F, 0x9B05688C, 0x1F83D9AB, 0x5BE0CD19]

/-- Compress a block, which may be shorter than 64 bytes, into a value. -/
def compress (value : List ℕ) (block : Bytes) (flags : ℕ) : List ℕ :=
  let word i := leNat ((block.drop (4 * i)).take 4)
  let v i := value.getD i 0
  rounds 7
    ⟨word 0, word 1, word 2, word 3, word 4, word 5, word 6, word 7,
      word 8, word 9, word 10, word 11, word 12, word 13, word 14, word 15⟩
    ⟨v 0, v 1, v 2, v 3, v 4, v 5, v 6, v 7,
      IV.getD 0 0, IV.getD 1 0, IV.getD 2 0, IV.getD 3 0, 0, 0, block.length, flags⟩

/-- The flag of the first block. -/
def CHUNK_START : ℕ := 1

/-- The flag of the last block. -/
def CHUNK_END : ℕ := 2

/-- The flag of the last block of the root, which a single chunk is. -/
def ROOT : ℕ := 8

/-- Compress what is left of a chunk, which is at most `blocks` blocks and the last one. -/
def compressChunk : ℕ → List ℕ → ℕ → Bytes → List ℕ
  | 0, value, start, data => compress value data (start + CHUNK_END + ROOT)
  | blocks + 1, value, start, data =>
    if data.length ≤ 64 then compress value data (start + CHUNK_END + ROOT)
    else compressChunk blocks (compress value (data.take 64) start) 0 (data.drop 64)

/-- The hash of at most 1024 bytes. -/
def hash (data : Bytes) : Bytes :=
  (compressChunk 15 IV CHUNK_START data).flatMap (leBytes 4)

/-- **A hash has 32 bytes.** -/
theorem length_hash (data : Bytes) : (hash data).length = 32 := by
  have hchunk (blocks : ℕ) (value : List ℕ) (start : ℕ) (data : Bytes) :
      (compressChunk blocks value start data).length = 8 := by
    induction blocks generalizing value start data with
    | zero => exact length_rounds _ _ _
    | succ blocks ih =>
      rw [compressChunk]
      split
      · exact length_rounds _ _ _
      · exact ih _ _ _
  simp [hash, List.length_flatMap, hchunk]

/-- The hash of two blocks, of which the second has one byte. -/
example : (hash ((List.range 65).map UInt8.ofNat)).take 4 = [222, 30, 95, 160] := by decide +kernel

end Landropic.Blake3
