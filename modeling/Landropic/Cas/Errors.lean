import Landropic.Chunker.Hash
import Landropic.Foundations.Fs

set_option autoImplicit false

/-!
# Errors and validation of the content store

## Main definitions

* `Cas.CasError` — the errors of the content store, with their texts.
* `Cas.validateObjectSize`, `Cas.validateContentHash` — the checks of what a caller passes in.

## Main results

* `Cas.validateContentHash_toHex` — the check of a hash passes for every hash.
-/

namespace Landropic.Cas

/-- Errors of the content store. -/
inductive CasError
  | io (e : IoError)
  | objectNotFound (hash : ContentHash)
  | hashMismatch (expected actual : ContentHash)
  | corruptObject (msg : String)
  | storagePath (msg : String)
  | atomicWriteFailed (msg : String)
  | invalidObjectSize (expected actual : ℕ)
  | inconsistentState (msg : String)
  | invalidOperation (msg : String)
  | internal (msg : String)
  deriving DecidableEq

/-- The text of an error. -/
def CasError.display : CasError → String
  | io e => s!"IO error: {e.display}"
  | objectNotFound hash => s!"Object not found: {String.ofList hash.toHex}"
  | hashMismatch expected actual =>
    s!"Hash mismatch: expected {String.ofList expected.toHex}, got {String.ofList actual.toHex}"
  | corruptObject msg => s!"Corrupt object: {msg}"
  | storagePath msg => s!"Storage path error: {msg}"
  | atomicWriteFailed msg => s!"Atomic write failed: {msg}"
  | invalidObjectSize expected actual =>
    s!"Invalid object size: expected {expected}, got {actual}"
  | inconsistentState msg => s!"Inconsistent store state: {msg}"
  | invalidOperation msg => s!"Invalid operation: {msg}"
  | internal msg => s!"Internal error: {msg}"

/-- Maximum object size (100 MB). -/
def MAX_OBJECT_SIZE : ℕ := 100 * 1024 * 1024

/-- Validation errors of the content store. -/
inductive ValidationError
  | objectTooLarge (size max : ℕ)
  | invalidHash (reason : String)
  deriving DecidableEq

/-- The text of a validation error. -/
def ValidationError.display : ValidationError → String
  | objectTooLarge size max => s!"Object size {size} exceeds maximum {max}"
  | invalidHash reason => s!"Invalid hash format: {reason}"

/-- Validate the size of an object. -/
def validateObjectSize (size : ℕ) : Except ValidationError Unit :=
  if size > MAX_OBJECT_SIZE then .error (.objectTooLarge size MAX_OBJECT_SIZE) else .ok ()

/-- Validate a content hash in its text form. -/
def validateContentHash (hash : Text) : Except ValidationError Unit :=
  if hash.length ≠ 64 then
    .error (.invalidHash s!"Invalid length: {hash.length} (expected 64)")
  else if hash.all fun c => (Hex.value c).isSome then .ok ()
  else .error (.invalidHash "Not valid hexadecimal")

lemma isSome_value_of_mem_encode (data : Bytes) :
    ∀ c ∈ Hex.encode data, (Hex.value c).isSome := by
  induction data with
  | nil => simp
  | cons b data ih =>
    have hb := b.toNat_lt
    intro c hc
    simp only [Hex.encode_cons, List.mem_cons] at hc
    rcases hc with rfl | rfl | hc
    · simp [Hex.value_digit _ (show b.toNat / 16 < 16 by omega)]
    · simp [Hex.value_digit _ (show b.toNat % 16 < 16 by omega)]
    · exact ih c hc

@[simp] lemma validateContentHash_toHex (hash : ContentHash) :
    validateContentHash hash.toHex = .ok () := by
  have hall : hash.toHex.all fun c => (Hex.value c).isSome := by
    rw [List.all_eq_true]
    exact isSome_value_of_mem_encode _
  simp [validateContentHash, hall]

lemma validateObjectSize_eq_ok_iff {size : ℕ} :
    validateObjectSize size = .ok () ↔ size ≤ MAX_OBJECT_SIZE := by
  unfold validateObjectSize
  split_ifs <;> simp <;> omega

end Landropic.Cas
