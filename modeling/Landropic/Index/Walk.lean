import Landropic.Chunker.Chunks
import Landropic.Foundations.Worklist
import Landropic.Index.Database

set_option autoImplicit false

/-!
# The walk through a folder

An indexer walks through a folder and lists its files. Names that match a pattern are ignored, and
with them what is below.

## Main definitions

* `FolderTree` — what is in a folder.
* `FileIndexer.walkDirectory` — the walk.
* `FileIndexer.Listed` — a file is where the walk sees it.

## Main results

* `FileIndexer.walkDirectory_cases` — the walk ends, and lists the files it sees.

## Design

Names are bytes, and paths in a folder lists of names, the innermost first. A tree holds what is to
be seen below the folder, also through links: where links lead in circles, until the operating
system refuses to read a directory.
-/

namespace Landropic

/-- A regular file. -/
structure FileData where
  content : Bytes
  modified : DateTime
  /-- Unix permissions, where there are any. -/
  mode : Option UInt32
  deriving DecidableEq

/-- What the target of a link is, seen from the working directory. -/
inductive LinkTarget
  | file
  | dir
  | neither
  deriving DecidableEq

/-- An entry of a directory. -/
inductive FolderNode
  | file (data : FileData)
  | dir
  /-- A link, with the regular file that it leads to, if it does. -/
  | symlink (target : LinkTarget) (data : Option FileData)
  | other
  deriving DecidableEq

/-- The regular file that is found under the path of an entry. -/
def FolderNode.data : FolderNode → Option FileData
  | .file data => some data
  | .symlink _ data => data
  | _ => none

/-- A path in a folder, from a name up to the folder. -/
abbrev RelPath := List Bytes

/-- What is in a folder, by path. -/
abbrev FolderTree := HashMap RelPath FolderNode

/-- Configuration for the file indexer. -/
structure IndexerConfig where
  /-- Whether to follow symbolic links. -/
  followSymlinks : Bool
  /-- File patterns to ignore (basic glob patterns). -/
  ignorePatterns : List Text

/-- The default configuration. -/
protected def IndexerConfig.default : IndexerConfig where
  followSymlinks := false
  ignorePatterns := [".git", ".DS_Store", "Thumbs.db", "*.tmp"].map String.toList

/-- The file indexer. -/
structure FileIndexer where
  chunker : Chunker
  config : IndexerConfig

/-- What is done with an entry of a directory. -/
inductive WalkAction
  | skip
  | list
  | enter
  deriving DecidableEq

/-- What a walk goes through: the tree, the order in which directories are read, and which of them
cannot be. -/
structure Walked where
  tree : FolderTree
  order : IterOrder RelPath
  dirFault : RelPath → Option IndexError

/-- Simple glob pattern matching for ignore patterns. -/
def globMatch (pattern name : Text) : Bool :=
  if ['*'] <+: pattern then pattern.drop 1 <:+ name
  else if ['*'] <:+ pattern then pattern.dropLast <+: name
  else pattern = name

namespace FileIndexer

variable (ix : FileIndexer)

/-- Check if a name should be ignored based on patterns. A name that is no text counts as empty. -/
def shouldIgnore (name : Bytes) : Bool :=
  let name := (Text.fromUtf8 name).getD []
  ix.config.ignorePatterns.any fun pattern =>
    if '*' ∈ pattern then globMatch pattern name else name = pattern

/-- What is done with an entry. -/
def action (name : Bytes) (node : FolderNode) : WalkAction :=
  if ix.shouldIgnore name then .skip
  else
    match node with
    | .file _ => .list
    | .dir => .enter
    | .symlink target _ =>
      if ix.config.followSymlinks then
        match target with
        | .file => .list
        | .dir => .enter
        | .neither => .skip
      else .skip
    | .other => .skip

/-- What is done with the entry at a path. -/
def actionAt (tree : FolderTree) : RelPath → WalkAction
  | [] => .skip
  | name :: dir => (tree.lookup (name :: dir)).elim .skip (ix.action name)

/-- The entries of a directory, in the order in which they are read. -/
def readDir (w : Walked) (dir : RelPath) : List RelPath :=
  w.order.iter (w.tree.keys.filter fun path => path ≠ [] ∧ path.tail = dir)

/-- Visit a directory: its files are listed, and the directories in it put on the stack. -/
def visitDir (w : Walked) (dir : RelPath) : Except IndexError (List RelPath × List RelPath) :=
  match w.dirFault dir with
  | some e => .error e
  | none => .ok ((readDir w dir).filter fun path => ix.actionAt w.tree path = .list,
      ((readDir w dir).filter fun path => ix.actionAt w.tree path = .enter).reverse)

/-- The names of a path from the folder on, as the numbers of their bytes. -/
def components (path : RelPath) : List (List ℕ) := path.reverse.map fun name => name.map UInt8.toNat

lemma components_injective : Function.Injective components := by
  intro a b hab
  have hmap : Function.Injective (List.map UInt8.toNat) :=
    List.map_injective_iff.mpr fun _ _ => UInt8.toNat_inj.mp
  exact List.reverse_injective (List.map_injective_iff.mpr hmap hab)

/-- The paths in the order of their components. -/
def sortPaths (files : List RelPath) : List RelPath :=
  files.mergeSort fun a b => decide (components a ≤ components b)

/-- Walk directory tree and collect file paths. -/
def walkDirectory (w : Walked) : Except IndexError (List RelPath) :=
  -- the rounds suffice, see `walkDirectory_cases`
  ((Worklist.drain (ix.visitDir w) (w.tree.keys.card + 1) [] [[]]).getD (.ok [])).map sortPaths

/-! ## What the walk sees -/

/-- The walk enters a directory. -/
def Entered (tree : FolderTree) : RelPath → Prop
  | [] => True
  | name :: dir => Entered tree dir ∧ ix.actionAt tree (name :: dir) = .enter

/-- The walk lists a path. -/
def Listed (tree : FolderTree) : RelPath → Prop
  | [] => False
  | name :: dir => ix.Entered tree dir ∧ ix.actionAt tree (name :: dir) = .list

section Walk

variable {ix} {w : Walked} {dir path : RelPath}

lemma mem_of_actionAt (h : ix.actionAt w.tree path ≠ .skip) : path ∈ w.tree ∧ path ≠ [] := by
  cases path with
  | nil => exact absurd rfl h
  | cons name dir =>
    refine ⟨?_, List.cons_ne_nil _ _⟩
    by_contra hnotMem
    rw [actionAt, Finmap.lookup_eq_none.mpr hnotMem] at h
    exact h rfl

lemma mem_filter_readDir {action : WalkAction} (hskip : action ≠ .skip) :
    path ∈ (readDir w dir).filter (fun path => ix.actionAt w.tree path = action) ↔
      path ≠ [] ∧ path.tail = dir ∧ ix.actionAt w.tree path = action := by
  rw [List.mem_filter, readDir, w.order.mem_iter, Finset.mem_filter, Finmap.mem_keys,
    decide_eq_true_eq]
  constructor
  · rintro ⟨⟨-, hne, htail⟩, haction⟩
    exact ⟨hne, htail, haction⟩
  · rintro ⟨hne, htail, haction⟩
    exact ⟨⟨(mem_of_actionAt (haction ▸ hskip)).1, hne, htail⟩, haction⟩

lemma leads_iff : Worklist.Leads (ix.visitDir w) dir path ↔ w.dirFault dir = none ∧ path ≠ [] ∧
    path.tail = dir ∧ ix.actionAt w.tree path = .enter := by
  rw [Worklist.Leads, Worklist.next, visitDir]
  cases w.dirFault dir with
  | some e => simp
  | none =>
    dsimp only
    rw [List.mem_reverse, mem_filter_readDir (by decide)]
    simp

lemma mem_found (h : w.dirFault dir = none) : path ∈ Worklist.found (ix.visitDir w) dir ↔
    path ≠ [] ∧ path.tail = dir ∧ ix.actionAt w.tree path = .list := by
  rw [Worklist.found, visitDir, h]
  exact mem_filter_readDir (by decide)

lemma tree_visitDir : Worklist.Tree (ix.visitDir w) [] where
  root := fun _ hlead => (leads_iff.mp hlead).2.1 rfl
  unique := fun hlead hlead' =>
    (leads_iff.mp hlead).2.2.1.symm.trans (leads_iff.mp hlead').2.2.1
  nodup := fun dir => by
    rw [Worklist.next, visitDir]
    cases w.dirFault dir with
    | some e => exact List.nodup_nil
    | none => exact List.nodup_reverse.mpr ((w.order.nodup_iter _).filter _)

lemma entered_of_reached (h : Relation.ReflTransGen (Worklist.Leads (ix.visitDir w)) [] path) :
    ix.Entered w.tree path := by
  induction h with
  | refl => trivial
  | tail _ hlead ih =>
    obtain ⟨-, hne, htail, haction⟩ := leads_iff.mp hlead
    obtain ⟨name, dir, rfl⟩ := List.exists_cons_of_ne_nil hne
    obtain rfl := htail
    exact ⟨ih, haction⟩

lemma reached_of_entered (hread : ∀ dir,
      Relation.ReflTransGen (Worklist.Leads (ix.visitDir w)) [] dir → w.dirFault dir = none)
    (h : ix.Entered w.tree path) :
    Relation.ReflTransGen (Worklist.Leads (ix.visitDir w)) [] path := by
  induction path with
  | nil => exact .refl
  | cons name dir ih =>
    have hdir := ih h.1
    exact hdir.tail (leads_iff.mpr ⟨hread dir hdir, List.cons_ne_nil _ _, rfl, h.2⟩)

/-- The loop of the walk ends. Either a directory that it enters cannot be read, or it lists the
files that the walk sees, each of them once.

**Proof sketch.** Each directory is put on the stack by the one it is in, so that the loop is over
after as many rounds as there are directories. -/
lemma drain_visitDir_cases (ix : FileIndexer) (w : Walked) :
    (∃ dir e, ix.Entered w.tree dir ∧ w.dirFault dir = some e ∧
      Worklist.drain (ix.visitDir w) (w.tree.keys.card + 1) [] [[]] = some (.error e)) ∨
    ((∀ dir, ix.Entered w.tree dir → w.dirFault dir = none) ∧
      ∃ files, Worklist.drain (ix.visitDir w) (w.tree.keys.card + 1) [] [[]] = some (.ok files) ∧
        files.Nodup ∧ ∀ path, path ∈ files ↔ ix.Listed w.tree path) := by
  have hS : ∀ dir, Relation.ReflTransGen (Worklist.Leads (ix.visitDir w)) [] dir →
      dir ∈ insert [] w.tree.keys := by
    intro dir hreached
    cases hdir : dir with
    | nil => exact Finset.mem_insert_self _ _
    | cons name parent =>
      have hentered := hdir ▸ entered_of_reached hreached
      have haction : ix.actionAt w.tree (name :: parent) ≠ .skip := by
        rw [hentered.2]
        decide
      exact Finset.mem_insert_of_mem (Finmap.mem_keys.mpr (mem_of_actionAt haction).1)
  have hfuel : (insert [] w.tree.keys).card ≤
      ([] : List RelPath).length + (w.tree.keys.card + 1) := by
    rw [List.length_nil, Nat.zero_add]
    exact Finset.card_insert_le _ _
  have hcases := Worklist.drain_cases tree_visitDir hS (.start (ix.visitDir w) []) hfuel
  rw [List.flatMap_nil] at hcases
  obtain ⟨dir, e, hreached, hvisit, hdrain⟩ | ⟨items, hdrain, hnodup, hitems, hok⟩ := hcases
  · refine .inl ⟨dir, e, entered_of_reached hreached, ?_, hdrain⟩
    rw [visitDir] at hvisit
    split at hvisit
    · next e' hfault =>
      cases hvisit
      exact hfault
    · cases hvisit
  have hread : ∀ dir, Relation.ReflTransGen (Worklist.Leads (ix.visitDir w)) [] dir →
      w.dirFault dir = none := by
    intro dir hreached
    obtain ⟨r, hvisit⟩ := hok dir ((hitems dir).mpr hreached)
    rw [visitDir] at hvisit
    split at hvisit
    · cases hvisit
    · next hnone => exact hnone
  have hentered (dir : RelPath) : dir ∈ items ↔ ix.Entered w.tree dir :=
    (hitems dir).trans ⟨entered_of_reached, reached_of_entered hread⟩
  have hfault (dir : RelPath) (hdir : ix.Entered w.tree dir) : w.dirFault dir = none :=
    hread dir (reached_of_entered hread hdir)
  refine .inr ⟨hfault, items.flatMap (Worklist.found (ix.visitDir w)), hdrain, ?_, fun path => ?_⟩
  · rw [List.nodup_flatMap]
    constructor
    · intro dir hdir
      rw [Worklist.found, visitDir, hfault dir ((hentered dir).mp hdir)]
      exact (w.order.nodup_iter _).filter _
    · refine hnodup.imp_of_mem fun hdir hdir' hne => ?_
      -- files of different directories are different
      intro path hpath hpath'
      rw [mem_found (hfault _ ((hentered _).mp hdir))] at hpath
      rw [mem_found (hfault _ ((hentered _).mp hdir'))] at hpath'
      exact hne (hpath.2.1.symm.trans hpath'.2.1)
  · rw [List.mem_flatMap]
    constructor
    · rintro ⟨dir, hdir, hpath⟩
      have hdir' := (hentered dir).mp hdir
      obtain ⟨hne, htail, haction⟩ := (mem_found (hfault dir hdir')).mp hpath
      obtain ⟨name, parent, rfl⟩ := List.exists_cons_of_ne_nil hne
      obtain rfl := htail
      exact ⟨hdir', haction⟩
    · intro hlisted
      cases path with
      | nil => exact hlisted.elim
      | cons name dir =>
        exact ⟨dir, (hentered dir).mpr hlisted.1,
          (mem_found (hfault dir hlisted.1)).mpr ⟨List.cons_ne_nil _ _, rfl, hlisted.2⟩⟩

/-- **The walk ends.** Either a directory that it enters cannot be read, or it lists the files that
it sees, each of them once, in order. -/
theorem walkDirectory_cases (ix : FileIndexer) (w : Walked) :
    (∃ dir e, ix.Entered w.tree dir ∧ w.dirFault dir = some e ∧
      ix.walkDirectory w = .error e) ∨
    ((∀ dir, ix.Entered w.tree dir → w.dirFault dir = none) ∧
      ∃ files, ix.walkDirectory w = .ok files ∧ files.Nodup ∧
        (∀ path, path ∈ files ↔ ix.Listed w.tree path) ∧
        files.Pairwise fun a b => components a ≤ components b) := by
  obtain ⟨dir, e, hdir, hfault, hdrain⟩ | ⟨hfault, files, hdrain, hnodup, hfiles⟩ :=
    drain_visitDir_cases ix w
  · refine .inl ⟨dir, e, hdir, hfault, ?_⟩
    rw [walkDirectory, hdrain]
    rfl
  have hperm : (sortPaths files).Perm files := List.mergeSort_perm _ _
  refine .inr ⟨hfault, sortPaths files, ?_, hperm.nodup_iff.mpr hnodup,
    fun path => hperm.mem_iff.trans (hfiles path), ?_⟩
  · rw [walkDirectory, hdrain]
    rfl
  · refine (List.pairwise_mergeSort ?_ ?_ files).imp of_decide_eq_true
    · intro a b c hab hbc
      exact decide_eq_true ((of_decide_eq_true hab).trans (of_decide_eq_true hbc))
    · intro a b
      simpa using le_total (components a) (components b)

end Walk

end FileIndexer

end Landropic
