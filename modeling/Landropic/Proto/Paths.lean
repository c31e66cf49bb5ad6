import Landropic.Proto.Validation

set_option autoImplicit false

/-!
# Which paths pass

A path should pass if it stays in its folder on all platforms. The check looks for two dots anywhere
in the path, not for a component of two dots, and does not know the letters of drives.

## Main definitions

* `Validator.components` — the components of a path on all platforms.
* `Validator.SafePath` — the paths that stay in their folder.
* `Validator.ValidatedExactly` — a path passes exactly if it is safe.

## Main results

* `Validator.validatePath_eq_ok_iff` — which paths pass.
* `Validator.validatedExactly_iff` — when a path is validated exactly.
-/

lemma List.exists_splitOnP {α : Type} (p : α → Bool) (xs : List α) :
    ∃ first rest, xs.splitOnP p = first :: rest ∧ first <+: xs ∧ ∀ part ∈ rest, part <:+: xs := by
  induction xs with
  | nil => exact ⟨[], [], by simp⟩
  | cons x xs ih =>
    obtain ⟨first, rest, heq, hfirst, hrest⟩ := ih
    rw [List.splitOnP_cons_eq_if_modifyHead, heq]
    split_ifs
    · refine ⟨[], first :: rest, rfl, List.nil_prefix, fun part hpart => ?_⟩
      rcases List.mem_cons.mp hpart with rfl | hpart
      · exact hfirst.isInfix.trans (List.suffix_cons x xs).isInfix
      · exact (hrest part hpart).trans (List.suffix_cons x xs).isInfix
    · refine ⟨x :: first, rest, rfl, (List.prefix_cons_inj x).mpr hfirst, fun part hpart => ?_⟩
      exact (hrest part hpart).trans (List.suffix_cons x xs).isInfix

lemma List.infix_of_mem_splitOnP {α : Type} {p : α → Bool} {xs part : List α}
    (h : part ∈ xs.splitOnP p) : part <:+: xs := by
  obtain ⟨first, rest, heq, hfirst, hrest⟩ := List.exists_splitOnP p xs
  rw [heq] at h
  rcases List.mem_cons.mp h with rfl | h
  · exact hfirst.isInfix
  · exact hrest part h

namespace Landropic

namespace Validator

variable {path : Text}

/-- The components of a path, split at the separators of all platforms. -/
def components (path : Text) : List Text := path.splitOnP fun c => c == '/' || c == '\\'

/-- A path begins with the letter of a drive. -/
def hasDrive : Text → Bool
  | letter :: ':' :: _ => letter.isAlpha
  | _ => false

/-- A path begins with a separator. -/
def IsRooted (path : Text) : Prop := ['/'] <+: path ∨ ['\\'] <+: path

/-- A path contains two dots in a row. -/
def HasDots (path : Text) : Prop := ['.', '.'] <:+: path

instance (path : Text) : Decidable (IsRooted path) := inferInstanceAs (Decidable (_ ∨ _))

instance (path : Text) : Decidable (HasDots path) :=
  inferInstanceAs (Decidable (['.', '.'] <:+: path))

/-- **A path that stays in its folder** on all platforms, and that can be stored. -/
structure SafePath (path : Text) : Prop where
  length_le : path.utf8.length ≤ limits.MAX_PATH_LENGTH
  noNul : '\x00' ∉ path
  /-- No component leads out of a folder. -/
  noParent : ['.', '.'] ∉ components path
  notRooted : ¬ IsRooted path
  noDrive : hasDrive path = false

/-- **Which paths pass**: those that are short enough, without zeros, without two dots in a row and
without a separator in front. -/
lemma validatePath_eq_ok_iff : validatePath path = .ok () ↔
    path.utf8.length ≤ limits.MAX_PATH_LENGTH ∧ '\x00' ∉ path ∧ ¬ HasDots path ∧
      ¬ IsRooted path := by
  unfold validatePath HasDots IsRooted
  split_ifs with hlength hnul hdots hroot
  · simp [hlength]
  · simp [hnul]
  · simp [hdots]
  · simp [hroot]
  · simp [not_lt.mp hlength, hnul, hdots, hroot]

lemma hasDots_of_mem_components (h : ['.', '.'] ∈ components path) : HasDots path :=
  List.infix_of_mem_splitOnP h

/-- The hashes of a file entry pass. -/
def ValidHashes (entry : FileEntry) : Prop :=
  entry.contentHash.length = 32 ∧ entry.chunkHashes.length ≤ limits.MAX_CHUNKS_PER_FILE ∧
    ∀ hash ∈ entry.chunkHashes, hash.length = 32

/-- **A path is validated exactly**: it passes exactly if it is safe, alone and in a file entry
whose hashes pass. -/
def ValidatedExactly (path : Text) : Prop :=
  (validatePath path = .ok () ↔ SafePath path) ∧
    ∀ entry : FileEntry, entry.path = path → ValidHashes entry →
      (validateFileEntry entry = .ok () ↔ SafePath path)

lemma validatedExactly_iff_validatePath :
    ValidatedExactly path ↔ (validatePath path = .ok () ↔ SafePath path) := by
  refine ⟨fun h => h.1, fun h => ⟨h, ?_⟩⟩
  rintro entry rfl hhashes
  rw [validateFileEntry_eq_ok_iff, ← h]
  exact and_iff_left hhashes

/-- **When a path is validated exactly**: if it is too long, contains a zero or begins with a
separator, or if it contains two dots in a row exactly if it has a component of two dots or the
letter of a drive.

**Proof sketch.** A path with a component of two dots contains two dots in a row. Of the other paths
that are not refused for another reason, those with two dots in a row are refused although they may
be safe, and those without pass although they may have the letter of a drive. -/
theorem validatedExactly_iff (path : Text) :
    ValidatedExactly path ↔
      (limits.MAX_PATH_LENGTH < path.utf8.length ∨ '\x00' ∈ path ∨ IsRooted path) ∨
      (HasDots path ↔ ['.', '.'] ∈ components path ∨ hasDrive path = true) := by
  have hsafe : SafePath path ↔ path.utf8.length ≤ limits.MAX_PATH_LENGTH ∧ '\x00' ∉ path ∧
      ['.', '.'] ∉ components path ∧ ¬ IsRooted path ∧ hasDrive path = false :=
    ⟨fun h => ⟨h.length_le, h.noNul, h.noParent, h.notRooted, h.noDrive⟩,
      fun ⟨hlength, hnul, hparent, hroot, hdrive⟩ => ⟨hlength, hnul, hparent, hroot, hdrive⟩⟩
  rw [validatedExactly_iff_validatePath, validatePath_eq_ok_iff, hsafe, ← not_le]
  have hdots : ['.', '.'] ∈ components path → HasDots path := hasDots_of_mem_components
  by_cases hlength : path.utf8.length ≤ limits.MAX_PATH_LENGTH
  · by_cases hnul : '\x00' ∈ path
    · simp [hnul]
    · by_cases hroot : IsRooted path
      · simp [hroot]
      · simp only [hlength, hnul, hroot, not_false_eq_true, true_and, and_true, not_true_eq_false,
          or_self, false_or, ← Bool.not_eq_true]
        tauto
  · simp [hlength]

/-- **A file name with two dots in a row is refused.** -/
theorem not_forall_validatedExactly : ¬ ∀ path, ValidatedExactly path := by
  intro hall
  have hsafe : SafePath "a..b".toList :=
    ⟨by decide, by decide, by decide, by decide, by decide⟩
  have hok := (hall "a..b".toList).1.mpr hsafe
  revert hok
  decide

/-- A path with the letter of a drive passes. -/
example : validatePath "C:file".toList = .ok () ∧ hasDrive "C:file".toList = true := by decide

end Validator

end Landropic
