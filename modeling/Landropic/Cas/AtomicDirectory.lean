import Landropic.Cas.Recover
import Landropic.Foundations.FsTrees
import Landropic.Foundations.Result

set_option autoImplicit false

/-!
# Directories that are replaced

A directory is built at a temporary path beside its target and then committed. The commit removes
what is at the target, piece by piece, before it renames the new directory. So there is a time at
which the target has neither the old tree nor the new one, and what fails then has lost the old
tree.

## Main definitions

* `Cas.AtomicDirectory`, `Cas.AtomicDirectory.new` — a target and the temporary path beside it.
* `Cas.AtomicDirectory.next` — the operations of a commit.
* `Cas.AtomicDirectory.Atomic` — the target has the old tree or the new one.

## Main results

* `Cas.AtomicDirectory.new_ok` — a new operation leaves the target alone.
* `Cas.AtomicDirectory.exists_commit` — a commit may succeed.
* `Cas.AtomicDirectory.atomic_iff` — after which operations a target has the old tree or the new
  one.

## Design

A crash may come between any two operations, and any operation may fail. The entries of a directory
are removed in any order in which a directory comes after what lies in it.
-/

namespace Landropic.Cas

open FilePath

/-- Atomic directory operations. The temporary path is beside the final one. -/
structure AtomicDirectory where
  finalPath : FilePath
  tempPath : FilePath
  apart : Apart tempPath finalPath
  sibling : tempPath.tail = finalPath.tail

namespace AtomicDirectory

/-- The digits of a UUID are put behind `tmp.` -/
def tempExtension (uuid : Fin (2 ^ 128)) : Text := "tmp.".toList ++ Hex.encode (leBytes 16 uuid)

/-- The name of the temporary directory. -/
def tempName (name : Text) (uuid : Fin (2 ^ 128)) : Text :=
  FileName.withExtension '.' name (tempExtension uuid)

lemma apart_tempName (name : Text) (dir : FilePath) (uuid : Fin (2 ^ 128)) :
    Apart (tempName name uuid :: dir) (name :: dir) := by
  have hne : tempName name uuid ≠ name :=
    FileName.withExtension_ne (by simp [tempExtension])
  have hno : ∀ {a b : Text}, a ≠ b → ¬ a :: dir <:+ b :: dir := by
    intro a b hne hsuffix
    have heq := hsuffix.eq_of_length (by simp)
    exact hne (List.cons.inj heq).1
  exact ⟨hno hne, hno hne.symm⟩

/-- Create a new atomic directory operation, for a path with a file name. -/
def new (name : Text) (dir : FilePath) (uuid : Fin (2 ^ 128)) (fs : Fs) :
    Except CasError AtomicDirectory × Fs :=
  match fs.createDirAll (tempName name uuid :: dir) with
  | (.ok (), fs') =>
    (.ok ⟨name :: dir, tempName name uuid :: dir, apart_tempName name dir uuid, rfl⟩, fs')
  | (.error e, fs') => (.error (.io e), fs')

/-- **A new operation** leaves the target alone, and its temporary path is a directory. -/
theorem new_ok {name : Text} {dir : FilePath} {uuid : Fin (2 ^ 128)} {fs fs' : Fs}
    {d : AtomicDirectory} (h : new name dir uuid fs = (.ok d, fs')) :
    d.finalPath = name :: dir ∧ fs'.nodes.lookup d.tempPath = some .dir ∧
      fs'.item d.finalPath = fs.item d.finalPath := by
  have hadds := Fs.addsDirs_createDirAll (tempName name uuid :: dir) fs
  unfold new at h
  split at h
  · next fs₁ hcreate =>
    obtain ⟨hd, rfl⟩ := Prod.mk.inj h
    obtain rfl := Except.ok.inj hd
    rw [hcreate] at hadds
    obtain ⟨hdata, -, hnodes⟩ := hadds
    refine ⟨rfl, (Fs.isDir_iff.mp (Fs.isDir_of_createDirAll hcreate)).resolve_left nofun, ?_⟩
    dsimp only
    rcases hnodes (name :: dir) with hsame | ⟨-, -, hsuffix⟩
    · rw [Fs.item, Fs.item, hsame, hdata]
    · -- the target does not lead to the temporary path
      exact absurd hsuffix (apart_tempName name dir uuid).2
  · cases (Prod.mk.inj h).1

/-! ## Events -/

/-- What happens to a commit. -/
inductive Event
  /-- A question is answered. -/
  | look
  /-- A file or an empty directory is removed. -/
  | remove (p : FilePath)
  | rename
  /-- The operation fails. -/
  | fail (e : IoError)
  deriving DecidableEq

/-! ## Commits -/

/-- What a commit does next. -/
inductive CommitStage
  /-- Ask whether the target exists. -/
  | exists
  /-- Ask whether it is a directory. -/
  | isDir
  | removeDirAll
  | removeFile
  | rename
  | returned (result : Except CasError FilePath)

/-- A commit at some moment. -/
structure Commit where
  fs : Fs
  stage : CommitStage

variable (d : AtomicDirectory)

/-- Commit the directory: the next operation. -/
def next (c : Commit) : Event → Option Commit
  | .look =>
    match c.stage with
    | .exists =>
      some { c with stage := if c.fs.pathExists d.finalPath then .isDir else .rename }
    | .isDir =>
      some { c with stage := if c.fs.isDir d.finalPath then .removeDirAll else .removeFile }
    | _ => none
  | .remove p =>
    match c.stage with
    | .removeDirAll =>
      if d.finalPath <:+ p then
        match c.fs.removeEntry p with
        | (.ok (), fs) => some ⟨fs, if p = d.finalPath then .rename else .removeDirAll⟩
        | (.error _, _) => none
      else none
    | .removeFile =>
      if p = d.finalPath then
        match c.fs.removeFile p with
        | (.ok (), fs) => some ⟨fs, .rename⟩
        | (.error _, _) => none
      else none
    | _ => none
  | .rename =>
    match c.stage with
    | .rename =>
      match c.fs.renameDir d.tempPath d.finalPath with
      | (.ok (), fs) => some ⟨fs, .returned (.ok d.finalPath)⟩
      | (.error _, _) => none
    | _ => none
  | .fail e =>
    match c.stage with
    -- questions that cannot be answered are answered with no
    | .exists => some { c with stage := .rename }
    | .isDir => some { c with stage := .removeFile }
    | .removeDirAll | .removeFile | .rename => some { c with stage := .returned (.error (.io e)) }
    | .returned _ => none

/-- A commit that begins. -/
def Commit.start (fs : Fs) : Commit := ⟨fs, .exists⟩

/-- A commit after these events, if they can come. -/
def after (fs : Fs) (events : List Event) : Option Commit :=
  events.foldlM d.next (.start fs)

/-- **The target is replaced atomically**: it has the complete old tree or the complete new one, and
the old one if the commit has failed. -/
def Atomic (fs : Fs) (c : Commit) : Prop :=
  (c.fs.tree d.finalPath = fs.tree d.finalPath ∨ c.fs.tree d.finalPath = fs.tree d.tempPath) ∧
    ∀ e, c.stage = .returned (.error e) → c.fs.tree d.finalPath = fs.tree d.finalPath

/-- The paths that are removed. -/
def removed (events : List Event) : List FilePath :=
  events.filterMap fun e =>
    match e with
    | .remove p => some p
    | _ => none

/-- What is left of the old tree without these paths is the new tree. -/
def Leaves (fs : Fs) (paths : List FilePath) : Prop :=
  ∀ s, (s ++ d.finalPath ∈ paths → fs.tree d.tempPath s = none) ∧
    (s ++ d.finalPath ∉ paths → fs.tree d.tempPath s = fs.tree d.finalPath s)

/-- What the file system and the events say of a commit. -/
structure Follows (fs : Fs) (events : List Event) (c : Commit) : Prop where
  /-- Only what lies at the target is removed. -/
  ofTarget : ∀ r ∈ removed events, d.finalPath <:+ r ∧ fs.item r ≠ none
  /-- Nothing has been removed yet. -/
  early : c.stage = .exists ∨ c.stage = .isDir ∨ c.stage = .removeFile → removed events = []
  unrenamed : .rename ∉ events → (∀ p, c.stage ≠ .returned (.ok p)) ∧
    ∀ r, c.fs.item r = if r ∈ removed events then none else fs.item r
  renamed : .rename ∈ events → (∃ p, c.stage = .returned (.ok p)) ∧
    c.fs.tree d.finalPath = fs.tree d.tempPath
  failed : .rename ∉ events → removed events ≠ [] →
    ((∃ e, c.stage = .returned (.error e)) ↔ ∃ e, events.getLast? = some (.fail e))

section Follows

variable {d} {fs : Fs} {events : List Event} {c c' : Commit}

lemma follows_start (fs : Fs) : d.Follows fs [] (.start fs) where
  ofTarget r hr := by cases hr
  early _ := rfl
  unrenamed _ := ⟨nofun, fun _ => rfl⟩
  renamed h := by cases h
  failed _ h := absurd rfl h

lemma removed_concat (events : List Event) (e : Event) :
    removed (events ++ [e]) = removed events ++ removed [e] := List.filterMap_append

lemma Follows.not_mem (h : d.Follows fs events c) (hstage : ∀ r, c.stage ≠ .returned r) :
    .rename ∉ events := fun hmem => by
  obtain ⟨⟨p, hp⟩, -⟩ := h.renamed hmem
  exact hstage _ hp

/-- Before anything is removed, what changes no file may lead anywhere but to success. -/
lemma Follows.quiet {e : Event} {stage : CommitStage} (h : d.Follows fs events c)
    (hstage : ∀ r, c.stage ≠ .returned r) (hnone : removed events = []) (he : removed [e] = [])
    (hrename : e ≠ .rename) (hnot : ∀ p, stage ≠ .returned (.ok p)) :
    d.Follows fs (events ++ [e]) ⟨c.fs, stage⟩ := by
  have hempty : removed (events ++ [e]) = [] := by rw [removed_concat, hnone, he]; rfl
  have hmem : .rename ∉ events ++ [e] := by
    simpa [eq_comm] using ⟨h.not_mem hstage, hrename⟩
  exact
    { ofTarget := fun r hr => by rw [hempty] at hr; cases hr
      early := fun _ => hempty
      unrenamed := fun _ => ⟨hnot, fun r => by
        rw [(h.unrenamed (h.not_mem hstage)).2, hempty, hnone]⟩
      renamed := fun hin => absurd hin hmem
      failed := fun _ hne => absurd hempty hne }

lemma Follows.look (h : d.Follows fs events c) (hnext : d.next c .look = some c') :
    d.Follows fs (events ++ [.look]) c' := by
  obtain ⟨fs₁, stage⟩ := c
  cases stage with
  | «exists» =>
    obtain rfl := Option.some.inj hnext
    refine h.quiet nofun (h.early (.inl rfl)) rfl nofun ?_
    split <;> nofun
  | isDir =>
    obtain rfl := Option.some.inj hnext
    refine h.quiet nofun (h.early (.inr (.inl rfl))) rfl nofun ?_
    split <;> nofun
  | removeDirAll => cases hnext
  | removeFile => cases hnext
  | rename => cases hnext
  | returned r => cases hnext

lemma Follows.fail {e : IoError} (h : d.Follows fs events c)
    (hnext : d.next c (.fail e) = some c') : d.Follows fs (events ++ [.fail e]) c' := by
  have hfailed : (∀ r, c.stage ≠ .returned r) →
      d.Follows fs (events ++ [.fail e]) ⟨c.fs, .returned (.error (.io e))⟩ := by
    intro hstage
    have hsame : removed (events ++ [.fail e]) = removed events := by
      rw [removed_concat]
      exact List.append_nil _
    exact
      { ofTarget := fun r hr => h.ofTarget r (hsame ▸ hr)
        early := by rintro (hc | hc | hc) <;> cases hc
        unrenamed := fun _ => ⟨nofun, fun r => by
          rw [(h.unrenamed (h.not_mem hstage)).2, hsame]⟩
        renamed := fun hin => absurd hin (by simpa using h.not_mem hstage)
        failed := fun _ _ => iff_of_true ⟨_, rfl⟩ ⟨e, List.getLast?_concat⟩ }
  obtain ⟨fs₁, stage⟩ := c
  cases stage with
  | «exists» =>
    obtain rfl := Option.some.inj hnext
    exact h.quiet nofun (h.early (.inl rfl)) rfl nofun nofun
  | isDir =>
    obtain rfl := Option.some.inj hnext
    exact h.quiet nofun (h.early (.inr (.inl rfl))) rfl nofun nofun
  | removeDirAll =>
    obtain rfl := Option.some.inj hnext
    exact hfailed nofun
  | removeFile =>
    obtain rfl := Option.some.inj hnext
    exact hfailed nofun
  | rename =>
    obtain rfl := Option.some.inj hnext
    exact hfailed nofun
  | returned r => cases hnext

/-- A path at or below the target is removed. -/
lemma Follows.erase {p : FilePath} {fs₁ : Fs} {stage : CommitStage} (h : d.Follows fs events c)
    (hstage : ∀ r, c.stage ≠ .returned r) (hp : d.finalPath <:+ p) (hthere : c.fs.item p ≠ none)
    (herase : ∀ q, fs₁.item q = if q = p then none else c.fs.item q)
    (hlater : stage = .removeDirAll ∨ stage = .rename) :
    d.Follows fs (events ++ [.remove p]) ⟨fs₁, stage⟩ := by
  have hadd : removed (events ++ [.remove p]) = removed events ++ [p] := removed_concat ..
  have hitem := (h.unrenamed (h.not_mem hstage)).2
  have hnot : ∀ r, stage ≠ .returned r := by
    rintro r rfl
    rcases hlater with hc | hc <;> cases hc
  exact
    { ofTarget := fun r hr => by
        rw [hadd, List.mem_append, List.mem_singleton] at hr
        rcases hr with hr | rfl
        · exact h.ofTarget r hr
        · rw [hitem] at hthere
          split at hthere
          · exact absurd rfl hthere
          · exact ⟨hp, hthere⟩
      early := by
        rintro (rfl | rfl | rfl) <;> rcases hlater with hc | hc <;> cases hc
      unrenamed := fun _ => ⟨fun p => hnot _, fun r => by
        rw [herase, hadd]
        by_cases hr : r = p
        · rw [if_pos hr, if_pos (by simp [hr])]
        · rw [if_neg hr, hitem]
          simp [hr]⟩
      renamed := fun hin => absurd hin (by simpa using h.not_mem hstage)
      failed := fun _ _ => iff_of_false (fun ⟨e, he⟩ => hnot _ he) fun ⟨e, he⟩ => by
        rw [List.getLast?_concat] at he
        cases he }

lemma Follows.remove {p : FilePath} (h : d.Follows fs events c)
    (hnext : d.next c (.remove p) = some c') : d.Follows fs (events ++ [.remove p]) c' := by
  obtain ⟨fs₁, stage⟩ := c
  cases stage with
  | «exists» => cases hnext
  | isDir => cases hnext
  | removeDirAll =>
    simp only [AtomicDirectory.next] at hnext
    split at hnext
    · next hp =>
      split at hnext
      · next fs₂ hremove =>
        obtain rfl := Option.some.inj hnext
        obtain ⟨hthere, -, herase⟩ := Fs.removeEntry_ok hremove
        refine h.erase nofun hp hthere herase ?_
        split
        · exact .inr rfl
        · exact .inl rfl
      · cases hnext
    · cases hnext
  | removeFile =>
    simp only [AtomicDirectory.next] at hnext
    split at hnext
    · next hp =>
      split at hnext
      · next fs₂ hremove =>
        obtain rfl := Option.some.inj hnext
        obtain ⟨hthere, herase⟩ := Fs.item_removeFile hremove
        exact h.erase nofun (hp ▸ List.suffix_refl _) hthere herase (.inr rfl)
      · cases hnext
    · cases hnext
  | rename => cases hnext
  | returned r => cases hnext

lemma Follows.tree_tempPath (h : d.Follows fs events c) (hmem : .rename ∉ events) :
    c.fs.tree d.tempPath = fs.tree d.tempPath := by
  funext s
  rw [Fs.tree, Fs.tree, (h.unrenamed hmem).2, if_neg]
  intro hremoved
  exact d.apart.not_suffix (List.suffix_append s _) (h.ofTarget _ hremoved).1

lemma Follows.rename (h : d.Follows fs events c) (hnext : d.next c .rename = some c') :
    d.Follows fs (events ++ [.rename]) c' := by
  obtain ⟨fs₁, stage⟩ := c
  cases stage with
  | «exists» => cases hnext
  | isDir => cases hnext
  | removeDirAll => cases hnext
  | removeFile => cases hnext
  | rename =>
    simp only [AtomicDirectory.next] at hnext
    split at hnext
    · next fs₂ hrename =>
      obtain rfl := Option.some.inj hnext
      have hne : d.tempPath ≠ d.finalPath := fun heq => d.apart.1 (heq ▸ List.suffix_refl _)
      obtain ⟨htree, -⟩ := Fs.tree_renameDir hne hrename
      have hin : .rename ∈ events ++ [Event.rename] := by simp
      have hsame : removed (events ++ [.rename]) = removed events := by
        rw [removed_concat]
        exact List.append_nil _
      exact
        { ofTarget := fun r hr => h.ofTarget r (hsame ▸ hr)
          early := by rintro (hc | hc | hc) <;> cases hc
          unrenamed := fun hnot => absurd hin hnot
          renamed := fun _ => ⟨⟨_, rfl⟩, htree.trans (h.tree_tempPath (h.not_mem nofun))⟩
          failed := fun hnot => absurd hin hnot }
    · cases hnext
  | returned r => cases hnext

/-- **Every operation** changes the target as its event says. -/
theorem Follows.next {e : Event} (h : d.Follows fs events c)
    (hnext : d.next c e = some c') : d.Follows fs (events ++ [e]) c' := by
  cases e with
  | look => exact h.look hnext
  | remove p => exact h.remove hnext
  | rename => exact h.rename hnext
  | fail e => exact h.fail hnext

/-- **Whatever happens to a commit**, the file system and the events say how the target is. -/
theorem follows_of_after (h : d.after fs events = some c) : d.Follows fs events c := by
  induction events using List.reverseRecOn generalizing c with
  | nil =>
    obtain rfl := Option.some.inj h
    exact follows_start fs
  | append_singleton events e ih =>
    rw [after, List.foldlM_append] at h
    obtain ⟨c₁, hc₁, hlast⟩ := Option.bind_eq_some_iff.mp h
    refine (ih hc₁).next ?_
    simpa using hlast

lemma Follows.tree_ne (h : d.Follows fs events c) (hmem : .rename ∉ events)
    (hsome : removed events ≠ []) : c.fs.tree d.finalPath ≠ fs.tree d.finalPath := by
  obtain ⟨r, hr⟩ := List.exists_mem_of_ne_nil _ hsome
  obtain ⟨⟨s, rfl⟩, hthere⟩ := h.ofTarget r hr
  intro heq
  have hgone := congrFun heq s
  rw [Fs.tree, Fs.tree, (h.unrenamed hmem).2, if_pos hr] at hgone
  exact hthere hgone.symm

lemma Follows.tree_eq (h : d.Follows fs events c) (hmem : .rename ∉ events)
    (hnone : removed events = []) : c.fs.tree d.finalPath = fs.tree d.finalPath := by
  funext s
  rw [Fs.tree, Fs.tree, (h.unrenamed hmem).2, hnone]
  exact if_neg List.not_mem_nil

lemma not_atomic_of_fail {e : IoError} (h : d.after fs (events ++ [.fail e]) = some c)
    (hmem : .rename ∉ events) (hsome : removed events ≠ []) : ¬ d.Atomic fs c := by
  have hfollows := follows_of_after h
  have hmem' : .rename ∉ events ++ [.fail e] := by simpa using hmem
  have hsome' : removed (events ++ [.fail e]) ≠ [] := by
    rw [removed_concat]
    simp [hsome]
  obtain ⟨e', he'⟩ := (hfollows.failed hmem' hsome').mpr ⟨e, List.getLast?_concat⟩
  exact fun hatomic => hfollows.tree_ne hmem' hsome' (hatomic.2 e' he')

end Follows

/-! ## Commits that are not cut off -/

section Whole

variable {d} {fs : Fs} {c : Commit}

lemma after_concat {events : List Event} {e : Event} {c' : Commit}
    (h : d.after fs events = some c) (hnext : d.next c e = some c') :
    d.after fs (events ++ [e]) = some c' := by
  rw [after, List.foldlM_append]
  show (d.after fs events).bind _ = _
  rw [h, Option.bind_some, List.foldlM_cons, hnext]
  rfl

lemma after_look_look (h : fs.pathExists d.finalPath = true) :
    d.after fs [.look, .look] =
      some ⟨fs, if fs.isDir d.finalPath then .removeDirAll else .removeFile⟩ := by
  simp [after, AtomicDirectory.next, Commit.start, h]

lemma exists_next_removeFile {i : ℕ} (h : fs.nodes.lookup d.finalPath = some (.file i)) :
    ∃ fs', d.next ⟨fs, .removeFile⟩ (.remove d.finalPath) = some ⟨fs', .rename⟩ ∧
      fs'.item d.finalPath = none := by
  obtain ⟨fs', hremove⟩ := Fs.exists_removeFile h
  refine ⟨fs', ?_, ?_⟩
  · simp only [AtomicDirectory.next, if_true, hremove]
  · rw [(Fs.item_removeFile hremove).2, if_pos rfl]

/-- The entries at the target are removed one by one, until it is gone. -/
lemma exists_removeDirAll (hstage : c.stage = .removeDirAll)
    (hthere : c.fs.item d.finalPath ≠ none) :
    ∃ (paths : List FilePath) (c' : Commit),
      (paths.map Event.remove).foldlM d.next c = some c' ∧ c'.stage = .rename ∧
        c'.fs.item d.finalPath = none := by
  induction hcard : c.fs.nodes.keys.card using Nat.strong_induction_on generalizing c with
  | h card ih =>
    obtain ⟨s, hs, hleaf⟩ := Fs.exists_leaf hthere
    obtain ⟨fs₁, hremove⟩ := Fs.exists_removeEntry hs hleaf
    obtain ⟨-, -, herase⟩ := Fs.removeEntry_ok hremove
    have hnext : d.next c (.remove (s ++ d.finalPath)) =
        some ⟨fs₁, if s ++ d.finalPath = d.finalPath then .rename else .removeDirAll⟩ := by
      simp only [AtomicDirectory.next, hstage, if_pos (List.suffix_append s d.finalPath), hremove]
    by_cases hlast : s ++ d.finalPath = d.finalPath
    · refine ⟨[s ++ d.finalPath], ⟨fs₁, .rename⟩, ?_, rfl, by rw [herase, if_pos hlast.symm]⟩
      rw [if_pos hlast] at hnext
      simp [hnext]
    · rw [if_neg hlast] at hnext
      have hkeys : ∀ {f : Fs} {r}, r ∈ f.nodes.keys ↔ f.item r ≠ none := by
        intro f r
        rw [Ne, Fs.item_eq_none_iff, ← Ne, Option.ne_none_iff_exists', Finmap.mem_keys,
          Finmap.mem_iff]
      have hfewer : fs₁.nodes.keys.card < card := by
        rw [← hcard]
        apply Finset.card_lt_card
        rw [Finset.ssubset_iff_of_subset]
        · exact ⟨_, hkeys.mpr hs, fun hmem => hkeys.mp hmem (by rw [herase, if_pos rfl])⟩
        · intro r hr
          have hr' := hkeys.mp hr
          rw [herase] at hr'
          split at hr'
          · exact absurd rfl hr'
          · exact hkeys.mpr hr'
      obtain ⟨paths, c', hend, hstage', hgone⟩ := ih _ hfewer (c := ⟨fs₁, .removeDirAll⟩) rfl
        (by rw [herase, if_neg (Ne.symm hlast)]; exact hthere) rfl
      refine ⟨(s ++ d.finalPath) :: paths, c', ?_, hstage', hgone⟩
      rw [List.map_cons, List.foldlM_cons, hnext]
      exact hend

/-- **A commit may succeed**, with the new tree at the target, whatever was there before. -/
theorem exists_commit (d : AtomicDirectory) (htemp : fs.nodes.lookup d.tempPath = some .dir) :
    ∃ events c, d.after fs events = some c ∧ c.stage = .returned (.ok d.finalPath) ∧
      c.fs.tree d.finalPath = fs.tree d.tempPath := by
  -- it is enough to come to where the directory is renamed
  suffices ∃ events c, d.after fs events = some c ∧ c.stage = .rename ∧
      c.fs.item d.finalPath = none by
    obtain ⟨events, c, hc, hstage, hgone⟩ := this
    have hfollows := follows_of_after hc
    have hmem := hfollows.not_mem (by rw [hstage]; nofun)
    have hitem := congrFun (hfollows.tree_tempPath hmem) []
    rw [Fs.tree, Fs.tree, List.nil_append, Fs.item_eq_dir_iff.mpr htemp] at hitem
    have hlookup := Fs.item_eq_dir_iff.mp hitem
    have hdir : c.fs.isDir d.finalPath.tail = true := by
      rw [← d.sibling]
      cases htail : d.tempPath with
      | nil => exact absurd htail d.apart.ne_nil
      | cons name dir =>
        rw [htail] at hlookup
        exact Fs.isDir_iff.mpr (c.fs.parent_dir hlookup)
    obtain ⟨fs', hrename⟩ :=
      Fs.exists_renameDir hlookup d.apart hdir (Fs.item_eq_none_iff.mp hgone)
    have hnext : d.next c .rename = some ⟨fs', .returned (.ok d.finalPath)⟩ := by
      simp only [AtomicDirectory.next, hstage, hrename]
    have hafter := after_concat hc hnext
    exact ⟨_, _, hafter, rfl, ((follows_of_after hafter).renamed (by simp)).2⟩
  cases hlookup : fs.nodes.lookup d.finalPath with
  | none =>
    have hexists : fs.pathExists d.finalPath = false := by
      simp [Fs.pathExists, hlookup, d.apart.symm.ne_nil]
    refine ⟨[.look], ⟨fs, .rename⟩, ?_, rfl, Fs.item_eq_none_iff.mpr hlookup⟩
    simp [after, AtomicDirectory.next, Commit.start, hexists]
  | some node =>
    have hlook := after_look_look (Fs.pathExists_of_lookup hlookup)
    cases node with
    | file i =>
      have hdir : ¬ fs.isDir d.finalPath = true := by
        simp [Fs.isDir, hlookup, d.apart.symm.ne_nil]
      rw [if_neg hdir] at hlook
      obtain ⟨fs', hnext, hgone⟩ := exists_next_removeFile hlookup
      exact ⟨_, _, after_concat hlook hnext, rfl, hgone⟩
    | dir =>
      rw [if_pos (Fs.isDir_iff.mpr (.inr hlookup))] at hlook
      obtain ⟨paths, c, hremove, hstage, hgone⟩ := exists_removeDirAll (c := ⟨fs, .removeDirAll⟩)
        rfl (by rw [Fs.item_eq_dir_iff.mpr hlookup]; exact Option.some_ne_none _)
      refine ⟨[.look, .look] ++ paths.map .remove, c, ?_, hstage, hgone⟩
      rw [after, List.foldlM_append]
      show (d.after fs [.look, .look]).bind _ = _
      rw [hlook]
      exact hremove

/-- If something is at the target then it may be that something is removed and the next operation
fails. -/
lemma exists_not_atomic (d : AtomicDirectory) (h : fs.pathExists d.finalPath = true) :
    ∃ events c, d.after fs events = some c ∧ ¬ d.Atomic fs c := by
  suffices ∃ p c, d.next ⟨fs, if fs.isDir d.finalPath then .removeDirAll else .removeFile⟩
      (.remove p) = some c ∧ (c.stage = .removeDirAll ∨ c.stage = .rename) by
    obtain ⟨p, c, hnext, hstage⟩ := this
    have hfail : d.next c (.fail .fault) =
        some { c with stage := .returned (.error (.io .fault)) } := by
      rcases hstage with hstage | hstage <;> simp only [AtomicDirectory.next, hstage]
    have hafter := after_concat (after_concat (after_look_look h) hnext) hfail
    exact ⟨_, _, hafter, not_atomic_of_fail hafter (by simp) (by simp [removed])⟩
  obtain ⟨node, hlookup⟩ := (Fs.pathExists_iff.mp h).resolve_left d.apart.symm.ne_nil
  cases node with
  | file i =>
    have hdir : ¬ fs.isDir d.finalPath = true := by
      simp [Fs.isDir, hlookup, d.apart.symm.ne_nil]
    rw [if_neg hdir]
    obtain ⟨fs', hnext, -⟩ := exists_next_removeFile hlookup
    exact ⟨_, _, hnext, .inr rfl⟩
  | dir =>
    rw [if_pos (Fs.isDir_iff.mpr (.inr hlookup))]
    have hthere : fs.item d.finalPath ≠ none := by
      rw [Fs.item_eq_dir_iff.mpr hlookup]
      exact Option.some_ne_none _
    obtain ⟨s, hs, hleaf⟩ := Fs.exists_leaf hthere
    obtain ⟨fs₁, hremove⟩ := Fs.exists_removeEntry hs hleaf
    have hnext : d.next ⟨fs, .removeDirAll⟩ (.remove (s ++ d.finalPath)) =
        some ⟨fs₁, if s ++ d.finalPath = d.finalPath then .rename else .removeDirAll⟩ := by
      simp only [AtomicDirectory.next, if_pos (List.suffix_append s d.finalPath), hremove]
    refine ⟨_, _, hnext, ?_⟩
    dsimp only
    split
    · exact .inr rfl
    · exact .inl rfl

end Whole

/-- **When the target is replaced atomically**: before anything is removed; after the new directory
is renamed; and in between where nothing has failed and what is left of the old tree is just the new
one. Whatever is at the target, there are crashes and failures after which it is not.

**Proof sketch.** What is removed is missing in the old tree, and comes with no other operation than
the last one. -/
theorem atomic_iff (d : AtomicDirectory) (fs : Fs) :
    (∀ events c, d.after fs events = some c →
      (d.Atomic fs c ↔ removed events = [] ∨ .rename ∈ events ∨
        (∀ e, events.getLast? ≠ some (.fail e)) ∧ d.Leaves fs (removed events))) ∧
    (fs.pathExists d.finalPath = true →
      ∃ events c, d.after fs events = some c ∧ ¬ d.Atomic fs c) := by
  constructor
  · intro events c hc
    have hfollows := follows_of_after hc
    by_cases hmem : .rename ∈ events
    · obtain ⟨⟨p, hp⟩, htree⟩ := hfollows.renamed hmem
      refine iff_of_true ⟨.inr htree, fun e he => ?_⟩ (.inr (.inl hmem))
      rw [hp] at he
      cases he
    by_cases hnone : removed events = []
    · have htree := hfollows.tree_eq hmem hnone
      exact iff_of_true ⟨.inl htree, fun _ _ => htree⟩ (.inl hnone)
    have hne := hfollows.tree_ne hmem hnone
    have hleaves : c.fs.tree d.finalPath = fs.tree d.tempPath ↔
        d.Leaves fs (removed events) := by
      rw [funext_iff, Leaves]
      refine forall_congr' fun s => ?_
      rw [Fs.tree, (hfollows.unrenamed hmem).2, eq_comm]
      split
      · next hin => simp [hin]
      · next hnot => simp [hnot, Fs.tree]
    have hfail := not_congr (hfollows.failed hmem hnone)
    push Not at hfail
    rw [Atomic, hleaves, or_iff_right hne, or_iff_right hnone, or_iff_right hmem, ← hfail]
    constructor
    · rintro ⟨hleft, herror⟩
      exact ⟨fun e he => hne (herror e he), hleft⟩
    · rintro ⟨hok, hleft⟩
      exact ⟨hleft, fun e he => absurd he (hok e)⟩
  · exact exists_not_atomic d

section Examples

/-- The directory `d` with the file `f`, and a new one beside it with the file `g`. -/
private def sampleFs : Fs :=
  let fs := (Fs.createDirAll ["d".toList] Fs.empty).2
  let fs := (Fs.create ["f".toList, "d".toList] fs).2
  let fs := (Fs.createDirAll ["d.tmp.0".toList] fs).2
  (Fs.create ["g".toList, "d.tmp.0".toList] fs).2

private def sample : AtomicDirectory := ⟨["d".toList], ["d.tmp.0".toList], by decide, rfl⟩

/-- The directory is replaced. -/
theorem exists_commit_sample : ∃ events c, sample.after sampleFs events = some c ∧
    c.stage = .returned (.ok ["d".toList]) ∧
      c.fs.tree ["d".toList] = sampleFs.tree ["d.tmp.0".toList] :=
  exists_commit sample (by decide +kernel)

/-- **A crash may leave neither tree**: once the file of the old directory is removed, the directory
is empty. -/
theorem exists_crash_not_atomic : ∃ c,
    sample.after sampleFs [.look, .look, .remove ["f".toList, "d".toList]] = some c ∧
      ¬ sample.Atomic sampleFs c := by
  have hexec : (sample.after sampleFs
      [.look, .look, .remove ["f".toList, "d".toList]]).map
        (fun c => (c.fs.tree ["d".toList] ["f".toList], c.fs.tree ["d".toList] ["g".toList])) =
      some (none, none) := by decide +kernel
  have hold : sampleFs.tree ["d".toList] ["f".toList] = some (.file []) := by decide +kernel
  have hnew : sampleFs.tree ["d.tmp.0".toList] ["g".toList] = some (.file []) := by decide +kernel
  obtain ⟨c, hc, hend⟩ := Option.map_eq_some_iff.mp hexec
  obtain ⟨hf, hg⟩ := Prod.mk.inj hend
  refine ⟨c, hc, fun hatomic => ?_⟩
  rcases hatomic.1 with htree | htree
  · cases hf.symm.trans ((congrFun htree ["f".toList]).trans hold)
  · cases hg.symm.trans ((congrFun htree ["g".toList]).trans hnew)

end Examples

end AtomicDirectory

end Landropic.Cas
