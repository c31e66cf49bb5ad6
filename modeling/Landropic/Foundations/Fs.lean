import Landropic.Foundations.Bytes
import Landropic.Foundations.HashMap

set_option autoImplicit false

/-!
# A file system

A tree of directories and files. A path names a file through its inode, which an open file holds
on to: renaming a path or truncating a file does not change which inode an open file writes to.

## Main definitions

* `FilePath` — paths, the innermost component first.
* `Fs` — file systems, with the invariants of a tree of files without hard links.
* `Fs.content` — what can be read at a path.
* `Fs.createDirAll`, `Fs.create`, `Fs.write`, `Fs.rename`, `Fs.removeFile`, `Fs.readDir` — the
  operations. A failing operation leaves the file system as it is.

## Main results

* `Fs.create_ok`, `Fs.rename_ok`, `Fs.removeFile_ok`, `Fs.addsDirs_createDirAll` — what an operation
  does to the tree, and that it does nothing else.
* `Fs.exists_create`, `Fs.exists_rename`, `Fs.createDirAll_ok` — when an operation succeeds.
* `Fs.content_create`, `Fs.content_setData`, `Fs.content_rename`, `Fs.content_removeFile`,
  `Fs.content_addsDirs` — the contents of all paths afterwards.
-/

/-- A path: its last component comes first, and its tail is its parent. -/
abbrev FilePath := List Text

/-- What a path names. -/
inductive Node
  | dir
  | file (ino : ℕ)
  deriving DecidableEq

/-- Why a file operation failed. -/
inductive IoError
  | notFound
  | notADirectory
  | isADirectory
  | alreadyExists
  | directoryNotEmpty
  /-- The handle is not open for this. -/
  | badFileDescriptor
  | invalidArgument
  /-- The file ended early, in a read of a number or of a buffer. -/
  | unexpectedEof
  | earlyEof
  /-- The device failed. -/
  | fault
  deriving DecidableEq

/-- The text of an error. -/
def IoError.display : IoError → String
  | notFound => "No such file or directory (os error 2)"
  | notADirectory => "Not a directory (os error 20)"
  | isADirectory => "Is a directory (os error 21)"
  | alreadyExists => "File exists (os error 17)"
  | directoryNotEmpty => "Directory not empty (os error 39)"
  | badFileDescriptor => "Bad file descriptor (os error 9)"
  | invalidArgument => "Invalid argument (os error 22)"
  | unexpectedEof => "unexpected end of file"
  | earlyEof => "early eof"
  | fault => "Input/output error (os error 5)"

/-- A file system. The root directory is the empty path, and is not listed. -/
structure Fs where
  nodes : HashMap FilePath Node
  /-- The contents of the inodes. -/
  data : ℕ → Bytes
  /-- The next inode. -/
  next : ℕ
  root_notMem : nodes.lookup [] = none
  /-- What exists lies in a directory. -/
  parent_dir : ∀ {name : Text} {dir : FilePath} {node : Node},
    nodes.lookup (name :: dir) = some node → dir = [] ∨ nodes.lookup dir = some .dir
  /-- The inodes in use were given out. -/
  lt_next : ∀ {p : FilePath} {i : ℕ}, nodes.lookup p = some (.file i) → i < next
  /-- There are no hard links. -/
  file_inj : ∀ {p q : FilePath} {i : ℕ}, nodes.lookup p = some (.file i) →
    nodes.lookup q = some (.file i) → p = q

namespace Fs

/-- An empty file system. -/
def empty : Fs where
  nodes := ∅
  data _ := []
  next := 0
  root_notMem := rfl
  parent_dir h := by cases h
  lt_next h := by cases h
  file_inj h := by cases h

section Queries

variable (fs : Fs)

/-- The path names a directory. -/
def isDir (p : FilePath) : Bool := p = [] ∨ fs.nodes.lookup p = some .dir

/-- The path names something. -/
def pathExists (p : FilePath) : Bool := p = [] ∨ (fs.nodes.lookup p).isSome

/-- The content of the file at a path. -/
def content (p : FilePath) : Option Bytes :=
  match fs.nodes.lookup p with
  | some (.file i) => some (fs.data i)
  | _ => none

/-- The inode of the file at a path. -/
def openFile (p : FilePath) : Except IoError ℕ :=
  match fs.nodes.lookup p with
  | some (.file i) => .ok i
  | some .dir => .error .isADirectory
  | none => .error (if p = [] then .isADirectory else .notFound)

/-- Read the file at a path. -/
def readFile (p : FilePath) : Except IoError Bytes := (fs.openFile p).map fs.data

/-- The entries of a directory. -/
def children (p : FilePath) : Finset FilePath := fs.nodes.keys.filter fun q => q.tail = p

/-- The error for a path that should name a directory and does not. -/
def noDirError (p : FilePath) : IoError := if fs.pathExists p then .notADirectory else .notFound

/-- Read a directory, its entries in the given order. -/
def readDir (order : IterOrder FilePath) (p : FilePath) : Except IoError (List FilePath) :=
  if fs.isDir p then .ok (order.iter (fs.children p)) else .error (fs.noDirError p)

end Queries

/-! ## Changes of the tree -/

section Changes

variable (fs : Fs)

/-- Let a path name a directory or a file. -/
def insertNode (name : Text) (dir : FilePath) (node : Node) (hdir : fs.isDir dir = true)
    (hnew : fs.nodes.lookup (name :: dir) ≠ some .dir)
    (hfile : ∀ i, node = .file i → i < fs.next ∧
      ∀ q, fs.nodes.lookup q = some (.file i) → q = name :: dir) : Fs where
  nodes := fs.nodes.insert (name :: dir) node
  data := fs.data
  next := fs.next
  root_notMem := by
    rw [Finmap.lookup_insert_of_ne _ (by simp)]
    exact fs.root_notMem
  parent_dir := by
    intro n d m h
    have hold : d = [] ∨ fs.nodes.lookup d = some .dir := by
      by_cases heq : n :: d = name :: dir
      · obtain ⟨rfl, rfl⟩ := List.cons.inj heq
        simpa [isDir] using hdir
      · rw [Finmap.lookup_insert_of_ne _ heq] at h
        exact fs.parent_dir h
    rcases hold with rfl | hold
    · exact .inl rfl
    · refine .inr ?_
      by_cases hd : d = name :: dir
      · subst hd
        exact absurd hold hnew
      · rwa [Finmap.lookup_insert_of_ne _ hd]
  lt_next := by
    intro p i h
    obtain ⟨-, heq⟩ | ⟨-, h⟩ := HashMap.lookup_insert_cases h
    · exact (hfile i heq.symm).1
    · exact fs.lt_next h
  file_inj := by
    intro p q i hp hq
    obtain ⟨hp', heq⟩ | ⟨hp', hp⟩ := HashMap.lookup_insert_cases hp
    · obtain ⟨hq', -⟩ | ⟨-, hq⟩ := HashMap.lookup_insert_cases hq
      · rw [hp', hq']
      · rw [hp', (hfile i heq.symm).2 q hq]
    · obtain ⟨-, heq⟩ | ⟨-, hq⟩ := HashMap.lookup_insert_cases hq
      · exact absurd ((hfile i heq.symm).2 p hp) hp'
      · exact fs.file_inj hp hq

lemma lookup_erase_root (p : FilePath) : (fs.nodes.erase p).lookup [] = none := by
  by_cases h : ([] : FilePath) = p
  · rw [h, Finmap.lookup_erase]
  · rw [Finmap.lookup_erase_ne h]
    exact fs.root_notMem

lemma lt_next_erase (p : FilePath) {q : FilePath} {i : ℕ}
    (h : (fs.nodes.erase p).lookup q = some (.file i)) : i < fs.next :=
  fs.lt_next (HashMap.of_lookup_erase h).2

lemma file_inj_erase (p : FilePath) {q r : FilePath} {i : ℕ}
    (hq : (fs.nodes.erase p).lookup q = some (.file i))
    (hr : (fs.nodes.erase p).lookup r = some (.file i)) : q = r :=
  fs.file_inj (HashMap.of_lookup_erase hq).2 (HashMap.of_lookup_erase hr).2

/-- Let a path that is not a directory name nothing. -/
def eraseNode (p : FilePath) (hp : fs.nodes.lookup p ≠ some .dir) : Fs where
  nodes := fs.nodes.erase p
  data := fs.data
  next := fs.next
  root_notMem := fs.lookup_erase_root p
  parent_dir := by
    intro n d m h
    rcases fs.parent_dir (HashMap.of_lookup_erase h).2 with rfl | hdir
    · exact .inl rfl
    · refine .inr ?_
      rw [Finmap.lookup_erase_ne (by rintro rfl; exact hp hdir)]
      exact hdir
  lt_next := @lt_next_erase fs p
  file_inj := @file_inj_erase fs p

/-- Set the content of an inode. -/
def setData (ino : ℕ) (bytes : Bytes) : Fs :=
  { fs with data := Function.update fs.data ino bytes }

/-- Give out the next inode, with no content. -/
def newInode : Fs :=
  { fs with
    data := Function.update fs.data fs.next []
    next := fs.next + 1
    lt_next := fun h => (fs.lt_next h).trans (Nat.lt_succ_self _) }

@[simp] lemma nodes_setData (ino : ℕ) (bytes : Bytes) : (fs.setData ino bytes).nodes = fs.nodes :=
  rfl

@[simp] lemma nodes_newInode : fs.newInode.nodes = fs.nodes := rfl

end Changes

/-! ## Operations -/

section Operations

/-- Create a directory and its parents. -/
def createDirAll : FilePath → Fs → Except IoError Unit × Fs
  | [], fs => (.ok (), fs)
  | name :: dir, fs =>
    match fs.nodes.lookup (name :: dir) with
    | some .dir => (.ok (), fs)
    | some (.file _) => (.error .alreadyExists, fs)
    | none =>
      match createDirAll dir fs with
      -- there is a file on the way
      | (.error _, fs') => (.error .notADirectory, fs')
      | (.ok (), fs') =>
        if h : fs'.isDir dir = true ∧ fs'.nodes.lookup (name :: dir) ≠ some .dir then
          (.ok (), fs'.insertNode name dir .dir h.1 h.2 (by simp))
        else (.ok (), fs')

/-- Create a file, or truncate it if it exists, and open it. -/
def create (p : FilePath) (fs : Fs) : Except IoError ℕ × Fs :=
  match p with
  | [] => (.error .isADirectory, fs)
  | name :: dir =>
    match h : fs.nodes.lookup (name :: dir) with
    | some .dir => (.error .isADirectory, fs)
    | some (.file i) => (.ok i, fs.setData i [])
    | none =>
      if hdir : fs.isDir dir = true then
        (.ok fs.next, fs.newInode.insertNode name dir (.file fs.next) hdir (by simp [h]) (by
          rintro i hi
          obtain rfl := Node.file.inj hi
          refine ⟨Nat.lt_succ_self _, fun q hq => ?_⟩
          exact absurd (fs.lt_next hq) (lt_irrefl _)))
      else (.error (fs.noDirError dir), fs)

/-- Put bytes into a file at a position; a gap before it is filled with zeros. -/
def splice (old : Bytes) (pos : ℕ) (bytes : Bytes) : Bytes :=
  old.take pos ++ List.replicate (pos - old.length) 0 ++ bytes ++ old.drop (pos + bytes.length)

/-- Write to an open file at a position. -/
def write (ino pos : ℕ) (bytes : Bytes) (fs : Fs) : Fs :=
  fs.setData ino (splice (fs.data ino) pos bytes)

/-- Append to an open file. -/
def append (ino : ℕ) (bytes : Bytes) (fs : Fs) : Fs := fs.setData ino (fs.data ino ++ bytes)

/-- Rename a file; a file at the new path is replaced. -/
def rename (p q : FilePath) (fs : Fs) : Except IoError Unit × Fs :=
  match hp : fs.nodes.lookup p with
  | none => (.error .notFound, fs)
  | some .dir => (.error .isADirectory, fs)
  | some (.file i) =>
    match q with
    | [] => (.error .isADirectory, fs)
    | name :: dir =>
      if h : fs.isDir dir = true ∧ fs.nodes.lookup (name :: dir) ≠ some .dir then
        (.ok (), (fs.eraseNode p (by simp [hp])).insertNode name dir (.file i)
          (by
            have hne : dir = [] ∨ fs.nodes.lookup dir = some .dir := by simpa [isDir] using h.1
            simp only [isDir, decide_eq_true_eq]
            rcases hne with rfl | hne
            · exact .inl rfl
            · refine .inr ?_
              rw [eraseNode, Finmap.lookup_erase_ne (by rintro rfl; simp [hp] at hne)]
              exact hne)
          (by
            by_cases heq : name :: dir = p
            · rw [eraseNode, heq, Finmap.lookup_erase]
              simp
            · rw [eraseNode, Finmap.lookup_erase_ne heq]
              exact h.2)
          (by
            rintro j hj
            obtain rfl := Node.file.inj hj
            refine ⟨fs.lt_next hp, fun r hr => ?_⟩
            by_cases hrp : r = p
            · rw [eraseNode, hrp, Finmap.lookup_erase] at hr
              cases hr
            · rw [eraseNode, Finmap.lookup_erase_ne hrp] at hr
              exact absurd (fs.file_inj hr hp) hrp))
      else if fs.nodes.lookup (name :: dir) = some .dir then (.error .isADirectory, fs)
      else (.error (fs.noDirError dir), fs)

/-- Remove a file. -/
def removeFile (p : FilePath) (fs : Fs) : Except IoError Unit × Fs :=
  match hp : fs.nodes.lookup p with
  | some (.file _) => (.ok (), fs.eraseNode p (by simp [hp]))
  | some .dir => (.error .isADirectory, fs)
  | none => (.error .notFound, fs)

end Operations

/-! ## What the operations do -/

section Lemmas

variable {fs fs' : Fs} {p q : FilePath} {i : ℕ}

lemma isDir_iff : fs.isDir p = true ↔ p = [] ∨ fs.nodes.lookup p = some .dir := by
  simp [isDir]

lemma pathExists_iff : fs.pathExists p = true ↔ p = [] ∨ ∃ node, fs.nodes.lookup p = some node := by
  simp [pathExists, Option.isSome_iff_exists]

lemma content_eq_some {bytes : Bytes} : fs.content p = some bytes ↔
    ∃ i, fs.nodes.lookup p = some (.file i) ∧ fs.data i = bytes := by
  unfold content
  split
  · next i h => simp [h]
  · next h =>
    simp only [reduceCtorEq, false_iff, not_exists, not_and]
    exact fun i hi => absurd hi (h i)

lemma content_of_lookup (h : fs.nodes.lookup p = some (.file i)) :
    fs.content p = some (fs.data i) := content_eq_some.mpr ⟨i, h, rfl⟩

lemma content_eq_none : fs.content p = none ↔ ∀ i, fs.nodes.lookup p ≠ some (.file i) := by
  unfold content
  split
  · next i h => simp [h]
  · next h => simpa using h

lemma openFile_of_lookup (h : fs.nodes.lookup p = some (.file i)) : fs.openFile p = .ok i := by
  simp [openFile, h]

lemma readFile_of_lookup (h : fs.nodes.lookup p = some (.file i)) :
    fs.readFile p = .ok (fs.data i) := by
  simp [readFile, openFile_of_lookup h, Except.map]

lemma readFile_eq_ok {bytes : Bytes} : fs.readFile p = .ok bytes ↔ fs.content p = some bytes := by
  cases h : fs.nodes.lookup p with
  | none => simp [readFile, openFile, content, h, Except.map]
  | some node => cases node <;> simp [readFile, openFile, content, h, Except.map]

lemma isDir_of_lookup {name : Text} {dir : FilePath} {node : Node}
    (h : fs.nodes.lookup (name :: dir) = some node) : fs.isDir dir = true :=
  isDir_iff.mpr (fs.parent_dir h)

lemma content_setData (h : fs.nodes.lookup p = some (.file i)) (bytes : Bytes) (q : FilePath) :
    (fs.setData i bytes).content q = if q = p then some bytes else fs.content q := by
  split_ifs with hq
  · subst hq
    rw [content_of_lookup (i := i) (by exact h)]
    simp [setData]
  · unfold content
    simp only [nodes_setData]
    split
    · next j hj =>
      have hji : j ≠ i := by
        rintro rfl
        exact hq (fs.file_inj hj h)
      simp [setData, hji]
    · rfl

@[simp] lemma data_write (ino pos : ℕ) (bytes : Bytes) (fs : Fs) :
    (fs.write ino pos bytes).data ino = splice (fs.data ino) pos bytes := by
  simp [write, setData]

@[simp] lemma splice_length (old bytes : Bytes) : splice old old.length bytes = old ++ bytes := by
  simp [splice]

/-- Directories were added at a path and its parents, and nothing else changed. -/
def AddsDirs (p : FilePath) (fs fs' : Fs) : Prop :=
  fs'.data = fs.data ∧ fs'.next = fs.next ∧ ∀ q, fs'.nodes.lookup q = fs.nodes.lookup q ∨
    (fs.nodes.lookup q = none ∧ fs'.nodes.lookup q = some .dir ∧ q <:+ p)

lemma AddsDirs.refl (p : FilePath) (fs : Fs) : AddsDirs p fs fs := ⟨rfl, rfl, fun _ => .inl rfl⟩

lemma AddsDirs.lookup {node : Node} (h : AddsDirs p fs fs') (hq : fs.nodes.lookup q = some node) :
    fs'.nodes.lookup q = some node := by
  obtain ⟨-, -, hnodes⟩ := h
  rcases hnodes q with heq | ⟨hnone, -, -⟩
  · rw [heq, hq]
  · rw [hq] at hnone
    cases hnone

lemma AddsDirs.lookup_file (h : AddsDirs p fs fs') :
    fs'.nodes.lookup q = some (.file i) ↔ fs.nodes.lookup q = some (.file i) := by
  obtain ⟨-, -, hnodes⟩ := h
  rcases hnodes q with heq | ⟨hnone, hdir, -⟩
  · rw [heq]
  · simp [hnone, hdir]

lemma AddsDirs.isDir (h : AddsDirs p fs fs') (hq : fs.isDir q = true) : fs'.isDir q = true := by
  rw [isDir_iff] at hq ⊢
  exact hq.imp_right h.lookup

lemma content_addsDirs (h : AddsDirs p fs fs') (q : FilePath) : fs'.content q = fs.content q := by
  cases hq : fs.content q with
  | none =>
    rw [content_eq_none] at hq ⊢
    exact fun i hi => hq i (h.lookup_file.mp hi)
  | some bytes =>
    obtain ⟨i, hi, hdata⟩ := content_eq_some.mp hq
    rw [content_of_lookup (h.lookup hi), h.1, hdata]

/-- **Creating a directory adds directories only**, also when it fails. -/
theorem addsDirs_createDirAll (p : FilePath) (fs : Fs) : AddsDirs p fs (createDirAll p fs).2 := by
  induction p with
  | nil => exact .refl _ _
  | cons name dir ih =>
    rw [createDirAll]
    split
    · exact .refl _ _
    · exact .refl _ _
    · next hnone =>
      have hup : ∀ {fs'}, AddsDirs dir fs fs' → AddsDirs (name :: dir) fs fs' := by
        rintro fs' ⟨hdata, hnext, hnodes⟩
        refine ⟨hdata, hnext, fun q => (hnodes q).imp_right ?_⟩
        rintro ⟨h₁, h₂, hsuffix⟩
        exact ⟨h₁, h₂, hsuffix.trans (List.suffix_cons _ _)⟩
      split
      · next e fs' h =>
        rw [h] at ih
        exact hup ih
      · next fs' h =>
        rw [h] at ih
        split_ifs with hdir
        · obtain ⟨hdata, hnext, hnodes⟩ := hup ih
          refine ⟨hdata, hnext, fun q => ?_⟩
          by_cases hq : q = name :: dir
          · subst hq
            exact .inr ⟨hnone, Finmap.lookup_insert _, List.suffix_refl _⟩
          · rw [insertNode, Finmap.lookup_insert_of_ne _ hq]
            exact hnodes q
        · exact hup ih

/-- **A directory can be created where no file is in the way.** -/
theorem createDirAll_ok (h : ∀ q, q <:+ p → ∀ i, fs.nodes.lookup q ≠ some (.file i)) :
    (createDirAll p fs).1 = .ok () ∧ (createDirAll p fs).2.isDir p = true := by
  induction p with
  | nil => exact ⟨rfl, rfl⟩
  | cons name dir ih =>
    obtain ⟨hok, hdir⟩ := ih fun q hq => h q (hq.trans (List.suffix_cons _ _))
    rw [createDirAll]
    split
    · next hlookup => exact ⟨rfl, isDir_iff.mpr (.inr hlookup)⟩
    · next i hlookup => exact absurd hlookup (h _ (List.suffix_refl _) i)
    · split
      · next e fs' h' =>
        rw [h'] at hok
        cases hok
      · next fs' h' =>
        rw [h'] at hdir
        split_ifs with hnew
        · exact ⟨rfl, isDir_iff.mpr (.inr (Finmap.lookup_insert _))⟩
        · refine ⟨rfl, isDir_iff.mpr (.inr ?_)⟩
          by_contra hne
          exact hnew ⟨hdir, hne⟩

lemma isDir_of_createDirAll (h : createDirAll p fs = (.ok (), fs')) : fs'.isDir p = true := by
  induction p generalizing fs' with
  | nil => rfl
  | cons name dir ih =>
    rw [createDirAll] at h
    split at h
    · next hlookup =>
      obtain rfl := (Prod.mk.inj h).2
      exact isDir_iff.mpr (.inr hlookup)
    · cases (Prod.mk.inj h).1
    · split at h
      · cases (Prod.mk.inj h).1
      · next fs₁ hparent =>
        split_ifs at h with hnew
        · obtain rfl := (Prod.mk.inj h).2
          exact isDir_iff.mpr (.inr (Finmap.lookup_insert _))
        · obtain rfl := (Prod.mk.inj h).2
          refine isDir_iff.mpr (.inr ?_)
          by_contra hne
          exact hnew ⟨ih hparent, hne⟩

lemma exists_create {name : Text} {dir : FilePath} (hdir : fs.isDir dir = true)
    (hnew : fs.nodes.lookup (name :: dir) ≠ some .dir) :
    ∃ i fs', create (name :: dir) fs = (.ok i, fs') := by
  rw [create]
  split
  · next h => exact absurd h hnew
  · exact ⟨_, _, rfl⟩
  · exact ⟨_, _, by rw [dif_pos hdir]⟩

/-- **Creating a file** truncates the one at the path or makes a new one, and does nothing else. -/
theorem create_ok (h : create p fs = (.ok i, fs')) :
    fs'.nodes.lookup p = some (.file i) ∧ fs'.data i = [] ∧
      (∀ q, q ≠ p → fs'.nodes.lookup q = fs.nodes.lookup q) ∧
      (∀ j, j ≠ i → fs'.data j = fs.data j) ∧ fs.next ≤ fs'.next ∧
      (fs.nodes.lookup p = some (.file i) ∨ fs.nodes.lookup p = none ∧ i = fs.next) := by
  cases p with
  | nil => simp [create] at h
  | cons name dir =>
    rw [create] at h
    split at h
    · cases h
    · next j hj =>
      simp only [Prod.mk.injEq, Except.ok.injEq] at h
      obtain ⟨rfl, rfl⟩ := h
      exact ⟨hj, by simp [setData], fun q _ => rfl, fun j hji => by simp [setData, hji], le_rfl,
        .inl hj⟩
    · next hnone =>
      split_ifs at h with hdir
      · simp only [Prod.mk.injEq, Except.ok.injEq] at h
        obtain ⟨rfl, rfl⟩ := h
        refine ⟨Finmap.lookup_insert _, by simp [insertNode, newInode],
          fun q hq => Finmap.lookup_insert_of_ne _ hq, fun j hj => ?_, Nat.le_succ _,
          .inr ⟨hnone, rfl⟩⟩
        simp [insertNode, newInode, hj]
      · simp at h

lemma create_error {e : IoError} (h : create p fs = (.error e, fs')) : fs' = fs := by
  cases p with
  | nil => exact (Prod.mk.inj h).2.symm
  | cons name dir =>
    rw [create] at h
    split at h
    · exact (Prod.mk.inj h).2.symm
    · cases h
    · split_ifs at h
      · simp at h
      · exact (Prod.mk.inj h).2.symm

lemma content_create (h : create p fs = (.ok i, fs')) (q : FilePath) :
    fs'.content q = if q = p then some [] else fs.content q := by
  obtain ⟨hp, hdata, hnodes, hother, -, hold⟩ := create_ok h
  split_ifs with hq
  · subst hq
    rw [content_of_lookup hp, hdata]
  · unfold content
    rw [hnodes q hq]
    split
    · next j hj =>
      have hji : j ≠ i := by
        rintro rfl
        rw [← hnodes q hq] at hj
        exact hq (fs'.file_inj hj hp)
      rw [hother j hji]
    · rfl

/-- Where a file can be renamed to. -/
lemma exists_rename (name : Text) {dir : FilePath} (hp : fs.nodes.lookup p = some (.file i))
    (hdir : fs.isDir dir = true) (hnew : fs.nodes.lookup (name :: dir) ≠ some .dir) :
    ∃ fs', rename p (name :: dir) fs = (.ok (), fs') := by
  unfold rename
  split
  · next h => simp [hp] at h
  · next h => simp [hp] at h
  · exact ⟨_, dif_pos ⟨hdir, hnew⟩⟩

/-- **Renaming a file** moves it, over the file at the new path if there is one, and does nothing
else. -/
theorem rename_ok (h : rename p q fs = (.ok (), fs')) :
    ∃ i, fs.nodes.lookup p = some (.file i) ∧ fs'.nodes.lookup q = some (.file i) ∧
      (p ≠ q → fs'.nodes.lookup p = none) ∧
      (∀ r, r ≠ p → r ≠ q → fs'.nodes.lookup r = fs.nodes.lookup r) ∧
      fs'.data = fs.data ∧ fs'.next = fs.next ∧ fs.nodes.lookup q ≠ some .dir := by
  unfold rename at h
  split at h
  · simp at h
  · simp at h
  · next i hp =>
    cases q with
    | nil => simp at h
    | cons name dir =>
      dsimp only at h
      split_ifs at h with hok
      · obtain rfl := (Prod.mk.inj h).2
        refine ⟨i, hp, Finmap.lookup_insert _, fun hne => ?_, fun r hrp hrq => ?_, rfl, rfl,
          hok.2⟩
        · rw [insertNode, Finmap.lookup_insert_of_ne _ hne, eraseNode, Finmap.lookup_erase]
        · rw [insertNode, Finmap.lookup_insert_of_ne _ hrq, eraseNode,
            Finmap.lookup_erase_ne hrp]
      · simp at h
      · simp at h

lemma rename_error {e : IoError} (h : rename p q fs = (.error e, fs')) : fs' = fs := by
  unfold rename at h
  split at h
  · exact (Prod.mk.inj h).2.symm
  · exact (Prod.mk.inj h).2.symm
  · cases q with
    | nil => exact (Prod.mk.inj h).2.symm
    | cons name dir =>
      dsimp only at h
      split_ifs at h
      · simp at h
      · exact (Prod.mk.inj h).2.symm
      · exact (Prod.mk.inj h).2.symm

lemma content_rename (h : rename p q fs = (.ok (), fs')) (hpq : p ≠ q) (r : FilePath) :
    fs'.content r = if r = q then fs.content p else if r = p then none else fs.content r := by
  obtain ⟨i, hp, hq, hgone, hnodes, hdata, -, -⟩ := rename_ok h
  split_ifs with hrq hrp
  · rw [hrq, content_of_lookup hq, content_of_lookup hp, hdata]
  · rw [hrp, content_eq_none, hgone hpq]
    simp
  · unfold content
    rw [hnodes r hrp hrq, hdata]

/-- **Removing a file** removes its path and nothing else. -/
theorem removeFile_ok (h : removeFile p fs = (.ok (), fs')) :
    (∃ i, fs.nodes.lookup p = some (.file i)) ∧ fs'.nodes.lookup p = none ∧
      (∀ q, q ≠ p → fs'.nodes.lookup q = fs.nodes.lookup q) ∧
      fs'.data = fs.data ∧ fs'.next = fs.next := by
  unfold removeFile at h
  split at h
  · next i hi =>
    obtain rfl := (Prod.mk.inj h).2
    exact ⟨⟨i, hi⟩, Finmap.lookup_erase _ _, fun q hq => Finmap.lookup_erase_ne hq, rfl, rfl⟩
  · simp at h
  · simp at h

lemma removeFile_error {e : IoError} (h : removeFile p fs = (.error e, fs')) : fs' = fs := by
  unfold removeFile at h
  split at h
  · simp at h
  · exact (Prod.mk.inj h).2.symm
  · exact (Prod.mk.inj h).2.symm

lemma exists_removeFile (hp : fs.nodes.lookup p = some (.file i)) :
    ∃ fs', removeFile p fs = (.ok (), fs') := by
  unfold removeFile
  split
  · exact ⟨_, rfl⟩
  · next h => simp [hp] at h
  · next h => simp [hp] at h

lemma content_removeFile (h : removeFile p fs = (.ok (), fs')) (q : FilePath) :
    fs'.content q = if q = p then none else fs.content q := by
  obtain ⟨-, hgone, hnodes, hdata, -⟩ := removeFile_ok h
  split_ifs with hq
  · rw [hq, content_eq_none, hgone]
    simp
  · unfold content
    rw [hnodes q hq, hdata]

lemma content_removeFile_of_eq {r : Except IoError Unit} (h : removeFile p fs = (r, fs'))
    (q : FilePath) : fs'.content q = if q = p then none else fs.content q := by
  cases r with
  | ok u => exact content_removeFile h q
  | error e =>
    obtain rfl := removeFile_error h
    split_ifs with hq
    · subst hq
      rw [content_eq_none]
      intro i hi
      obtain ⟨fs'', hok⟩ := exists_removeFile hi
      cases hok.symm.trans h
    · rfl

/-! ### What still exists -/

lemma pathExists_of_lookup {node : Node} (h : fs.nodes.lookup p = some node) :
    fs.pathExists p = true := pathExists_iff.mpr (.inr ⟨node, h⟩)

lemma pathExists_of_lookup_eq (hq : fs.pathExists q = true)
    (h : fs'.nodes.lookup q = fs.nodes.lookup q) : fs'.pathExists q = true := by
  rw [pathExists_iff] at hq ⊢
  rwa [h]

lemma pathExists_createDirAll (hq : fs.pathExists q = true) :
    (createDirAll p fs).2.pathExists q = true := by
  rw [pathExists_iff] at hq ⊢
  exact hq.imp_right fun ⟨node, hnode⟩ => ⟨node, (addsDirs_createDirAll p fs).lookup hnode⟩

lemma pathExists_create (hq : fs.pathExists q = true) : (create p fs).2.pathExists q = true := by
  obtain ⟨r, fs', h⟩ : ∃ r fs', create p fs = (r, fs') := ⟨_, _, rfl⟩
  rw [h]
  cases r with
  | error e =>
    rw [create_error h]
    exact hq
  | ok i =>
    obtain ⟨hp, -, hnodes, -⟩ := create_ok h
    by_cases hqp : q = p
    · subst hqp
      exact pathExists_of_lookup hp
    · exact pathExists_of_lookup_eq hq (hnodes q hqp)

lemma pathExists_rename {r : FilePath} (hqp : q ≠ p) (hq : fs.pathExists q = true) :
    (rename p r fs).2.pathExists q = true := by
  obtain ⟨res, fs', h⟩ : ∃ res fs', rename p r fs = (res, fs') := ⟨_, _, rfl⟩
  rw [h]
  cases res with
  | error e =>
    rw [rename_error h]
    exact hq
  | ok u =>
    obtain ⟨i, -, hr, -, hnodes, -⟩ := rename_ok h
    by_cases hqr : q = r
    · subst hqr
      exact pathExists_of_lookup hr
    · exact pathExists_of_lookup_eq hq (hnodes q hqp hqr)

lemma pathExists_removeFile (hqp : q ≠ p) (hq : fs.pathExists q = true) :
    (removeFile p fs).2.pathExists q = true := by
  obtain ⟨res, fs', h⟩ : ∃ res fs', removeFile p fs = (res, fs') := ⟨_, _, rfl⟩
  rw [h]
  cases res with
  | error e =>
    rw [removeFile_error h]
    exact hq
  | ok u =>
    obtain ⟨-, -, hnodes, -⟩ := removeFile_ok h
    exact pathExists_of_lookup_eq hq (hnodes q hqp)

lemma mem_children {r : FilePath} : r ∈ fs.children p ↔
    r.tail = p ∧ ∃ node, fs.nodes.lookup r = some node := by
  rw [children, Finset.mem_filter, Finmap.mem_keys, Finmap.mem_iff, and_comm]

end Lemmas

end Fs
