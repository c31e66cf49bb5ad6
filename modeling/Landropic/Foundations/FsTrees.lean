import Landropic.Foundations.Fs

set_option autoImplicit false

/-!
# Trees of a file system

What lies at a path and below it is a tree. A tree is moved to another path by renaming its
directory, and is removed piece by piece.

## Main definitions

* `Fs.Item`, `Fs.item` — what is at a path, whatever its inode.
* `Fs.tree` — what lies at a path and below it, by the paths from there.
* `Fs.removeEntry` — a file, or a directory without entries, is removed.
* `Fs.renameDir` — a directory is moved with all that lies below it.

## Main results

* `Fs.removeEntry_ok`, `Fs.tree_renameDir` — what is there afterwards.
* `Fs.exists_leaf` — whatever is there has a leaf below it.
-/

namespace FilePath

/-- A path from `p` as one from `q`. -/
def rebase (p q r : FilePath) : FilePath := r.take (r.length - p.length) ++ q

@[simp] lemma rebase_append (p q s : FilePath) : rebase p q (s ++ p) = s ++ q := by
  simp [rebase]

/-- Neither path leads to the other. -/
def Apart (p q : FilePath) : Prop := ¬ p <:+ q ∧ ¬ q <:+ p

instance (p q : FilePath) : Decidable (Apart p q) := inferInstanceAs (Decidable (_ ∧ _))

lemma Apart.symm {p q : FilePath} (h : Apart p q) : Apart q p := ⟨h.2, h.1⟩

lemma Apart.ne_nil {p q : FilePath} (h : Apart p q) : p ≠ [] := fun hp => h.1 (hp ▸ List.nil_suffix)

lemma Apart.not_suffix {p q r : FilePath} (h : Apart p q) (hp : p <:+ r) : ¬ q <:+ r := fun hq =>
  (List.suffix_or_suffix_of_suffix hp hq).elim h.1 h.2

/-- Exchange two paths and what lies below them. -/
def exchange (p q r : FilePath) : FilePath :=
  if p <:+ r then rebase p q r else if q <:+ r then rebase q p r else r

section Exchange

variable {p q r : FilePath}

lemma exchange_left (h : Apart p q) (s : FilePath) : exchange p q (s ++ q) = s ++ p := by
  have hq : q <:+ s ++ q := List.suffix_append s q
  rw [exchange, if_neg (h.symm.not_suffix hq), if_pos hq, rebase_append]

lemma exchange_right (s : FilePath) : exchange p q (s ++ p) = s ++ q := by
  rw [exchange, if_pos (List.suffix_append s p), rebase_append]

lemma exchange_of_not_suffix (hp : ¬ p <:+ r) (hq : ¬ q <:+ r) : exchange p q r = r := by
  rw [exchange, if_neg hp, if_neg hq]

lemma exchange_exchange (h : Apart p q) (r : FilePath) : exchange p q (exchange p q r) = r := by
  by_cases hp : p <:+ r
  · obtain ⟨s, rfl⟩ := hp
    rw [exchange_right, exchange_left h]
  · by_cases hq : q <:+ r
    · obtain ⟨s, rfl⟩ := hq
      rw [exchange_left h, exchange_right]
    · rw [exchange_of_not_suffix hp hq, exchange_of_not_suffix hp hq]

lemma exchange_injective (h : Apart p q) : Function.Injective (exchange p q) :=
  Function.LeftInverse.injective (exchange_exchange h)

end Exchange

end FilePath

namespace Fs

open FilePath

/-- What is at a path. -/
inductive Item
  | dir
  | file (content : Bytes)
  deriving DecidableEq

/-- What a file system has at a path. -/
def item (fs : Fs) (p : FilePath) : Option Item :=
  (fs.nodes.lookup p).map fun node =>
    match node with
    | .dir => .dir
    | .file i => .file (fs.data i)

/-- What lies at a path and below it, by the paths from there. -/
def tree (fs : Fs) (p s : FilePath) : Option Item := fs.item (s ++ p)

section Items

variable {fs : Fs} {p : FilePath}

lemma item_eq_none_iff : fs.item p = none ↔ fs.nodes.lookup p = none := by
  rw [item, Option.map_eq_none_iff]

lemma item_eq_dir_iff : fs.item p = some .dir ↔ fs.nodes.lookup p = some .dir := by
  rw [item]
  cases fs.nodes.lookup p with
  | none => simp
  | some node =>
    cases node with
    | dir => simp
    | file i => simp

end Items

/-! ## Removing -/

section Remove

variable (fs : Fs)

/-- Let the path of a directory without entries name nothing. -/
def eraseDir (p : FilePath) (hp : fs.children p = ∅) : Fs where
  nodes := fs.nodes.erase p
  data := fs.data
  next := fs.next
  root_notMem := fs.lookup_erase_root p
  parent_dir := by
    intro n d m h
    obtain ⟨-, hold⟩ := HashMap.of_lookup_erase h
    have hd : d ≠ p := by
      rintro rfl
      have hmem : n :: d ∈ fs.children d := mem_children.mpr ⟨rfl, m, hold⟩
      rw [hp] at hmem
      cases hmem
    rw [Finmap.lookup_erase_ne hd]
    exact fs.parent_dir hold
  lt_next := @lt_next_erase fs p
  file_inj := @file_inj_erase fs p

/-- Remove a directory, which must have no entries. -/
def removeDir (p : FilePath) (fs : Fs) : Except IoError Unit × Fs :=
  match fs.nodes.lookup p with
  | some .dir =>
    if hp : fs.children p = ∅ then (.ok (), fs.eraseDir p hp) else (.error .directoryNotEmpty, fs)
  | some (.file _) => (.error .notADirectory, fs)
  | none => (.error .notFound, fs)

/-- Remove an entry of a directory: a file, or a directory without entries. -/
def removeEntry (p : FilePath) (fs : Fs) : Except IoError Unit × Fs :=
  if fs.isDir p then removeDir p fs else removeFile p fs

end Remove

section RemoveLemmas

variable {fs fs' : Fs} {p : FilePath}

lemma children_of_not_dir (hp : p ≠ []) (h : fs.nodes.lookup p ≠ some .dir) :
    fs.children p = ∅ := by
  rw [Finset.eq_empty_iff_forall_notMem]
  intro r hr
  obtain ⟨rfl, node, hnode⟩ := mem_children.mp hr
  cases r with
  | nil => exact hp rfl
  | cons name dir => exact h ((fs.parent_dir hnode).resolve_left hp)

lemma ne_nil_of_lookup {node : Node} (h : fs.nodes.lookup p = some node) : p ≠ [] := by
  rintro rfl
  rw [fs.root_notMem] at h
  cases h

lemma item_of_erase (hgone : fs'.nodes.lookup p = none)
    (hkept : ∀ q, q ≠ p → fs'.nodes.lookup q = fs.nodes.lookup q) (hdata : fs'.data = fs.data)
    (q : FilePath) : fs'.item q = if q = p then none else fs.item q := by
  rw [item, item, hdata]
  split
  · next heq => rw [heq, hgone, Option.map_none]
  · next hne => rw [hkept q hne]

lemma item_removeFile (h : removeFile p fs = (.ok (), fs')) :
    fs.item p ≠ none ∧ ∀ q, fs'.item q = if q = p then none else fs.item q := by
  obtain ⟨⟨i, hi⟩, hgone, hkept, hdata, -⟩ := removeFile_ok h
  refine ⟨?_, item_of_erase hgone hkept hdata⟩
  rw [Ne, item_eq_none_iff, hi]
  exact Option.some_ne_none _

/-- **What is removed** is gone, had nothing below it, and all else stays. -/
theorem removeEntry_ok (h : removeEntry p fs = (.ok (), fs')) :
    fs.item p ≠ none ∧ fs.children p = ∅ ∧
      ∀ q, fs'.item q = if q = p then none else fs.item q := by
  rw [removeEntry] at h
  split at h
  · unfold removeDir at h
    split at h
    · next hlookup =>
      split at h
      · next hleaf =>
        obtain rfl := (Prod.mk.inj h).2
        refine ⟨?_, hleaf, item_of_erase (Finmap.lookup_erase _ _)
          (fun q hq => Finmap.lookup_erase_ne hq) rfl⟩
        rw [item_eq_dir_iff.mpr hlookup]
        exact Option.some_ne_none _
      · cases (Prod.mk.inj h).1
    · cases (Prod.mk.inj h).1
    · cases (Prod.mk.inj h).1
  · obtain ⟨⟨i, hi⟩, -⟩ := removeFile_ok h
    obtain ⟨hthere, hrest⟩ := item_removeFile h
    exact ⟨hthere, children_of_not_dir (ne_nil_of_lookup hi) (by simp [hi]), hrest⟩

lemma exists_removeEntry (hp : fs.item p ≠ none) (hleaf : fs.children p = ∅) :
    ∃ fs', removeEntry p fs = (.ok (), fs') := by
  rw [Ne, item_eq_none_iff, ← Ne, Option.ne_none_iff_exists'] at hp
  obtain ⟨node, hnode⟩ := hp
  unfold removeEntry
  cases node with
  | dir =>
    rw [if_pos (isDir_iff.mpr (.inr hnode)), removeDir, hnode]
    exact ⟨_, dif_pos hleaf⟩
  | file i =>
    rw [if_neg]
    · exact exists_removeFile hnode
    · rw [isDir_iff, hnode]
      rintro (hroot | hdir)
      · exact ne_nil_of_lookup hnode hroot
      · cases hdir

/-- **Whatever is there has a leaf**, at its path or below it. -/
theorem exists_leaf (hp : fs.item p ≠ none) :
    ∃ s, fs.item (s ++ p) ≠ none ∧ fs.children (s ++ p) = ∅ := by
  have hmem : ∀ {r}, fs.item r ≠ none ↔ r ∈ fs.nodes.keys := by
    intro r
    rw [Ne, item_eq_none_iff, ← Ne, Option.ne_none_iff_exists', Finmap.mem_keys, Finmap.mem_iff]
  -- the longest of the paths below
  obtain ⟨r, hr, hmax⟩ := Finset.exists_max_image (fs.nodes.keys.filter fun r => p <:+ r)
    List.length ⟨p, Finset.mem_filter.mpr ⟨hmem.mp hp, List.suffix_refl p⟩⟩
  obtain ⟨hkey, s, rfl⟩ := Finset.mem_filter.mp hr
  refine ⟨s, hmem.mpr hkey, ?_⟩
  rw [Finset.eq_empty_iff_forall_notMem]
  intro q hq
  obtain ⟨htail, node, hnode⟩ := mem_children.mp hq
  cases q with
  | nil => exact ne_nil_of_lookup hnode rfl
  | cons name dir =>
    rw [List.tail_cons] at htail
    subst htail
    have hle := hmax (name :: (s ++ p)) (Finset.mem_filter.mpr
      ⟨Finmap.mem_keys.mpr (Finmap.mem_iff.mpr ⟨node, hnode⟩),
        (List.suffix_append s p).trans (List.suffix_cons _ _)⟩)
    rw [List.length_cons] at hle
    omega

end RemoveLemmas

/-! ## Renaming -/

section Rename

variable (fs : Fs) {p q : FilePath}

/-- What lies at and below `p` is moved to `q`, where nothing is left of what was there. -/
def movedNodes (h : Apart p q) : HashMap FilePath Node :=
  (fs.nodes.retain fun r _ => !decide (q <:+ r)).mapKeys (exchange p q) (exchange_injective h)

lemma lookup_movedNodes (h : Apart p q) (r : FilePath) : (fs.movedNodes h).lookup r =
    if p <:+ r then none else fs.nodes.lookup (exchange p q r) := by
  have hto : (fs.movedNodes h).lookup r =
      (fs.nodes.lookup (exchange p q r)).filter fun _ => !decide (q <:+ exchange p q r) := by
    conv_lhs => rw [← exchange_exchange h r]
    rw [movedNodes, HashMap.lookup_mapKeys, HashMap.lookup_retain]
  rw [hto]
  split
  · next hp =>
    obtain ⟨s, rfl⟩ := hp
    rw [exchange_right]
    simp
  · next hp =>
    have hq : ¬ q <:+ exchange p q r := by
      by_cases hq : q <:+ r
      · obtain ⟨s, rfl⟩ := hq
        rw [exchange_left h]
        exact h.not_suffix (List.suffix_append s p)
      · rwa [exchange_of_not_suffix hp hq]
    cases fs.nodes.lookup (exchange p q r) with
    | none => rfl
    | some node => simp [hq]

lemma of_lookup_movedNodes {h : Apart p q} {r : FilePath} {node : Node}
    (hr : (fs.movedNodes h).lookup r = some node) :
    ¬ p <:+ r ∧ fs.nodes.lookup (exchange p q r) = some node := by
  rw [lookup_movedNodes] at hr
  split at hr
  · cases hr
  · next hp => exact ⟨hp, hr⟩

/-- A directory is in a moved tree what it was. -/
lemma lookup_movedNodes_of_dir {h : Apart p q} (hq : fs.isDir q.tail = true) {name : Text}
    {dir : FilePath} {node : Node} (hr : (fs.movedNodes h).lookup (name :: dir) = some node) :
    dir = [] ∨ (fs.movedNodes h).lookup dir = some .dir := by
  obtain ⟨hp, hlookup⟩ := fs.of_lookup_movedNodes hr
  have hpdir : ¬ p <:+ dir := fun hsuffix => hp (hsuffix.trans (List.suffix_cons name dir))
  rw [lookup_movedNodes, if_neg hpdir]
  by_cases hqr : q <:+ name :: dir
  · obtain ⟨s, hs⟩ := hqr
    cases s with
    | nil =>
      -- the directory is the one the tree was moved to
      rw [List.nil_append] at hs
      subst hs
      have hqdir : ¬ name :: dir <:+ dir := fun hsuffix => by
        have hle := hsuffix.length_le
        rw [List.length_cons] at hle
        omega
      rw [exchange_of_not_suffix hpdir hqdir]
      exact isDir_iff.mp hq
    | cons first s =>
      obtain ⟨rfl, rfl⟩ := List.cons.inj hs
      have hold : fs.nodes.lookup (first :: (s ++ p)) = some node := by
        rw [← hlookup]
        exact congrArg (fun r => fs.nodes.lookup r) (exchange_left h (first :: s)).symm
      show s ++ q = [] ∨ fs.nodes.lookup (exchange p q (s ++ q)) = some .dir
      rw [exchange_left h]
      exact .inr ((fs.parent_dir hold).resolve_left (by simp [h.ne_nil]))
  · have hqdir : ¬ q <:+ dir := fun hsuffix => hqr (hsuffix.trans (List.suffix_cons name dir))
    rw [exchange_of_not_suffix hp hqr] at hlookup
    rw [exchange_of_not_suffix hpdir hqdir]
    exact fs.parent_dir hlookup

/-- A file system with a tree moved. -/
def moveTree (h : Apart p q) (hq : fs.isDir q.tail = true) : Fs where
  nodes := fs.movedNodes h
  data := fs.data
  next := fs.next
  root_notMem := by
    have hp : ¬ p <:+ [] := fun hp => h.ne_nil (List.suffix_nil.mp hp)
    have hq : ¬ q <:+ [] := fun hq => h.symm.ne_nil (List.suffix_nil.mp hq)
    rw [lookup_movedNodes, if_neg hp, exchange_of_not_suffix hp hq, fs.root_notMem]
  parent_dir := fs.lookup_movedNodes_of_dir hq
  lt_next hr := fs.lt_next (fs.of_lookup_movedNodes hr).2
  file_inj hr hr' := exchange_injective h
    (fs.file_inj (fs.of_lookup_movedNodes hr).2 (fs.of_lookup_movedNodes hr').2)

end Rename

/-- Rename a directory; a directory at the new path must have no entries, and is replaced. -/
def renameDir (p q : FilePath) (fs : Fs) : Except IoError Unit × Fs :=
  match fs.nodes.lookup p with
  | some .dir =>
    if p = q then (.ok (), fs)
    else if h : Apart p q then
      if hq : fs.isDir q.tail = true then
        match fs.nodes.lookup q with
        | some (.file _) => (.error .notADirectory, fs)
        | _ =>
          if fs.children q = ∅ then (.ok (), fs.moveTree h hq) else (.error .directoryNotEmpty, fs)
      else (.error (fs.noDirError q.tail), fs)
    -- the new path lies in the directory, or the other way round
    else if p <:+ q then (.error .invalidArgument, fs)
    else (.error .directoryNotEmpty, fs)
  | some (.file _) => (.error .notADirectory, fs)
  | none => (.error .notFound, fs)

section RenameLemmas

variable {fs fs' : Fs} {p q : FilePath}

/-- **A directory that is renamed** takes all that lies below it along. -/
theorem tree_renameDir (hpq : p ≠ q) (h : renameDir p q fs = (.ok (), fs')) :
    fs'.tree q = fs.tree p ∧ ∀ r, ¬ p <:+ r → ¬ q <:+ r → fs'.item r = fs.item r := by
  unfold renameDir at h
  split at h
  · rw [if_neg hpq] at h
    split at h
    · next hapart =>
      split at h
      · next hq =>
        have hmoved : fs' = fs.moveTree hapart hq →
            fs'.tree q = fs.tree p ∧ ∀ r, ¬ p <:+ r → ¬ q <:+ r → fs'.item r = fs.item r := by
          rintro rfl
          constructor
          · funext s
            rw [tree, tree, item, item]
            show ((fs.movedNodes hapart).lookup (s ++ q)).map _ = _
            rw [lookup_movedNodes, if_neg (hapart.symm.not_suffix (List.suffix_append s q)),
              exchange_left hapart]
            rfl
          · intro r hp hr
            rw [item, item]
            show ((fs.movedNodes hapart).lookup r).map _ = _
            rw [lookup_movedNodes, if_neg hp, exchange_of_not_suffix hp hr]
            rfl
        split at h
        · cases (Prod.mk.inj h).1
        · split at h
          · exact hmoved (Prod.mk.inj h).2.symm
          · cases (Prod.mk.inj h).1
      · cases (Prod.mk.inj h).1
    · split at h
      · cases (Prod.mk.inj h).1
      · cases (Prod.mk.inj h).1
  · cases (Prod.mk.inj h).1
  · cases (Prod.mk.inj h).1

lemma exists_renameDir (hp : fs.nodes.lookup p = some .dir) (h : Apart p q)
    (hdir : fs.isDir q.tail = true) (hq : fs.nodes.lookup q = none) :
    ∃ fs', renameDir p q fs = (.ok (), fs') := by
  have hne : p ≠ q := by
    rintro rfl
    exact h.1 (List.suffix_refl p)
  have hempty : fs.children q = ∅ :=
    children_of_not_dir h.symm.ne_nil (by simp [hq])
  unfold renameDir
  rw [hp]
  simp only [if_neg hne, dif_pos h, dif_pos hdir, hq, if_pos hempty]
  exact ⟨_, rfl⟩

end RenameLemmas

end Fs
