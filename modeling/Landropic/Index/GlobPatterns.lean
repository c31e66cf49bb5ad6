import Landropic.Index.FolderWatcher

set_option autoImplicit false

/-!
# What ignore patterns mean

In a pattern a star stands for any characters, and every other character for itself. The indexer and
the watcher only understand a star at the beginning of a pattern, or at its end: what remains of the
pattern is compared as it is, with further stars in it.

## Main definitions

* `GlobMatches` — a name matches a pattern.
* `MeansWhatItSays` — the indexer and the watcher understand a pattern.
* `StarAtEnd` — a pattern has no star, or one at its beginning or its end.

## Main results

* `meansWhatItSays_iff` — which patterns are understood.
-/

namespace Landropic

/-- A name matches a pattern: each star stands for any characters, and every other character for
itself. -/
inductive GlobMatches : Text → Text → Prop
  | nil : GlobMatches [] []
  | star {pattern name : Text} (skipped : Text) :
    GlobMatches pattern name → GlobMatches ('*' :: pattern) (skipped ++ name)
  | char {c : Char} {pattern name : Text} : c ≠ '*' →
    GlobMatches pattern name → GlobMatches (c :: pattern) (c :: name)

/-- Simple glob pattern matching for ignore patterns, as the watcher has it. -/
def FolderWatcher.globMatch (pattern name : Text) : Bool := Landropic.globMatch pattern name

/-- Check if the watcher ignores a name. A name that is no text counts as empty. -/
def FolderWatcher.ignoresName (patterns : List Text) (name : Bytes) : Bool :=
  shouldIgnorePath [(Text.fromUtf8 name).getD []] patterns

/-- The indexer and the watcher take a pattern for what it says, and ignore the same files for lists
of patterns with it. -/
structure MeansWhatItSays (pattern : Text) : Prop where
  indexer : ∀ name, globMatch pattern name = true ↔ GlobMatches pattern name
  watcher : ∀ name, FolderWatcher.globMatch pattern name = true ↔ GlobMatches pattern name
  agree : ∀ (ix : FileIndexer) (name : Bytes), pattern ∈ ix.config.ignorePatterns →
    FolderWatcher.ignoresName ix.config.ignorePatterns name = ix.shouldIgnore name

/-- A pattern has no star, or only one, at its beginning or its end. -/
def StarAtEnd (pattern : Text) : Prop :=
  '*' ∉ pattern ∨ ∃ rest, '*' ∉ rest ∧ (pattern = '*' :: rest ∨ pattern = rest ++ ['*'])

section Glob

variable {pattern name rest : Text}

lemma globMatches_append (h : '*' ∉ rest) :
    GlobMatches (rest ++ pattern) name ↔
      ∃ tail, name = rest ++ tail ∧ GlobMatches pattern tail := by
  induction rest generalizing name with
  | nil => simp
  | cons c rest ih =>
    obtain ⟨hc, hrest⟩ := not_or.mp (List.mem_cons.not.mp h)
    constructor
    · intro hmatch
      cases hmatch with
      | star => exact absurd rfl hc
      | char _ hmatch =>
        obtain ⟨tail, rfl, htail⟩ := (ih hrest).mp hmatch
        exact ⟨tail, rfl, htail⟩
    · rintro ⟨tail, rfl, htail⟩
      exact .char (Ne.symm hc) ((ih hrest).mpr ⟨tail, rfl, htail⟩)

lemma globMatches_iff_eq (h : '*' ∉ pattern) : GlobMatches pattern name ↔ pattern = name := by
  have hmatch : GlobMatches (pattern ++ []) name ↔
      ∃ tail, name = pattern ++ tail ∧ GlobMatches [] tail := globMatches_append h
  rw [List.append_nil] at hmatch
  rw [hmatch]
  constructor
  · rintro ⟨tail, rfl, htail⟩
    cases htail
    rw [List.append_nil]
  · rintro rfl
    exact ⟨[], (List.append_nil pattern).symm, .nil⟩

lemma globMatches_star_cons (h : '*' ∉ rest) : GlobMatches ('*' :: rest) name ↔ rest <:+ name := by
  constructor
  · intro hmatch
    cases hmatch with
    | star skipped hmatch =>
      obtain rfl := (globMatches_iff_eq h).mp hmatch
      exact ⟨skipped, rfl⟩
    | char hc => exact absurd rfl hc
  · rintro ⟨skipped, rfl⟩
    exact .star skipped ((globMatches_iff_eq h).mpr rfl)

lemma globMatches_append_star (h : '*' ∉ rest) :
    GlobMatches (rest ++ ['*']) name ↔ rest <+: name := by
  rw [globMatches_append h]
  constructor
  · rintro ⟨tail, rfl, -⟩
    exact ⟨tail, rfl⟩
  · rintro ⟨tail, rfl⟩
    refine ⟨tail, rfl, ?_⟩
    have hstar := GlobMatches.star tail .nil
    rwa [List.append_nil] at hstar

/-- What is left of a pattern without its stars. -/
def withoutStars (pattern : Text) : Text := pattern.filter fun c => decide (c ≠ '*')

lemma withoutStars_append (a b : Text) :
    withoutStars (a ++ b) = withoutStars a ++ withoutStars b := List.filter_append ..

/-- **Every pattern matches what is left of it without its stars.** -/
lemma globMatches_withoutStars (pattern : Text) : GlobMatches pattern (withoutStars pattern) := by
  induction pattern with
  | nil => exact .nil
  | cons c pattern ih =>
    by_cases hc : c = '*'
    · subst hc
      exact .star [] ih
    · have hkept : withoutStars (c :: pattern) = c :: withoutStars pattern :=
        List.filter_cons_of_pos (by simpa using hc)
      rw [hkept]
      exact .char hc ih

lemma notMem_of_length_le (h : pattern.length ≤ (withoutStars pattern).length) :
    '*' ∉ pattern := by
  have hall := List.length_filter_eq_length_iff.mp (le_antisymm (List.length_filter_le _ _) h)
  exact fun hmem => of_decide_eq_true (hall '*' hmem) rfl

lemma ignoresName_eq (ix : FileIndexer) (name : Bytes) :
    FolderWatcher.ignoresName ix.config.ignorePatterns name = ix.shouldIgnore name := rfl

lemma starAtEnd_of_globMatch (h : globMatch pattern (withoutStars pattern) = true) :
    StarAtEnd pattern := by
  rw [globMatch] at h
  split_ifs at h with hfirst hlast
  · obtain ⟨rest, rfl⟩ := hfirst
    have hle := (of_decide_eq_true h).length_le
    exact .inr ⟨rest, notMem_of_length_le hle, .inl rfl⟩
  · obtain ⟨rest, rfl⟩ := hlast
    rw [List.dropLast_concat, withoutStars_append, show withoutStars ['*'] = [] from rfl,
      List.append_nil] at h
    have hle := (of_decide_eq_true h).length_le
    exact .inr ⟨rest, notMem_of_length_le hle, .inr rfl⟩
  · have hle := congrArg List.length (of_decide_eq_true h)
    exact .inl (notMem_of_length_le hle.le)

lemma globMatch_iff (h : StarAtEnd pattern) :
    globMatch pattern name = true ↔ GlobMatches pattern name := by
  obtain hnone | ⟨rest, hrest, rfl | rfl⟩ := h
  · have hfirst : ¬ ['*'] <+: pattern := fun hfirst => hnone (hfirst.subset (by simp))
    have hlast : ¬ ['*'] <:+ pattern := fun hlast => hnone (hlast.subset (by simp))
    rw [globMatch, if_neg hfirst, if_neg hlast, globMatches_iff_eq hnone, decide_eq_true_eq]
  · rw [globMatch, if_pos ⟨rest, rfl⟩, globMatches_star_cons hrest, decide_eq_true_eq]
    rfl
  · rw [globMatches_append_star hrest]
    cases rest with
    | nil => simp [globMatch]
    | cons c rest =>
      have hfirst : ¬ ['*'] <+: c :: rest ++ ['*'] := by
        rintro ⟨tail, htail⟩
        injection htail with hc
        exact hrest (by simp [← hc])
      rw [globMatch, if_neg hfirst, if_pos ⟨c :: rest, rfl⟩, List.dropLast_concat,
        decide_eq_true_eq]

/-- **Which patterns mean what they say.**

**Proof sketch.** A pattern matches what is left of it without its stars. That is too short to begin
or to end like a pattern in which a star remains. -/
theorem meansWhatItSays_iff (pattern : Text) : MeansWhatItSays pattern ↔ StarAtEnd pattern := by
  constructor
  · intro h
    exact starAtEnd_of_globMatch ((h.indexer _).mpr (globMatches_withoutStars pattern))
  · intro h
    exact ⟨fun name => globMatch_iff h, fun name => globMatch_iff h,
      fun ix name _ => ignoresName_eq ix name⟩

/-- **A pattern for the backup files of an editor**, with a star in its middle, does not match them.
-/
theorem not_meansWhatItSays_backup : ¬ ∀ pattern, MeansWhatItSays pattern := by
  intro hall
  have hmatches : GlobMatches "#*#".toList "#a#".toList :=
    .char (by decide) (.star ['a'] (.char (by decide) .nil))
  have hmatch := ((hall "#*#".toList).watcher _).mpr hmatches
  revert hmatch
  decide

end Glob

end Landropic
