import Landropic.Foundations.Bytes
import Mathlib.Data.Finset.Lattice.Fold
import Mathlib.Order.Lattice.Nat
import Mathlib.Data.List.AList

set_option autoImplicit false

/-!
# File systems with symbolic links

A path is resolved from a directory on, part by part. Where it comes to a link, it goes on with the
target of the link, from the directory that the link is in, or from the root. The system follows so
many links on a path and no more.

## Main definitions

* `LinkedFs` — the nodes of a file system.
* `LinkedFs.resolve` — the node that a path leads to.
* `LinkedFs.Resolves` — a path leads to a node.
* `LinkedFs.Leads` — an entry of a directory leads to a node.

## Main results

* `LinkedFs.resolve_eq_some_iff` — when a path leads to a node.
* `LinkedFs.resolve_append` — a path is resolved in two parts.
* `LinkedFs.length_le_of_resolve` — how many names a path goes through at most.

## Design

A node has a depth, which grows from a directory to its entries: directories form a tree, and a
file or link that is in several of them is deeper than each. A part `here` stands for `.` and for a
slash at the end.
-/

/-- A part of a path. -/
inductive PathPart
  | here
  | up
  | name (name : Bytes)
  deriving DecidableEq

/-- A path, from the root or from a directory. -/
inductive LinkPath
  | absolute (parts : List PathPart)
  | relative (first : PathPart) (rest : List PathPart)

namespace LinkPath

/-- The parts of a path. -/
def parts : LinkPath → List PathPart
  | absolute parts => parts
  | relative first rest => first :: rest

/-- Where a path starts, seen from a directory. -/
def start {I : Type} (root dir : I) : LinkPath → I
  | absolute _ => root
  | relative _ _ => dir

end LinkPath

/-- A node of a file system, with files `F` and nodes `I`. -/
inductive LinkedNode (F I : Type)
  | file (data : F)
  | dir (entries : AList fun _ : Bytes => I)
  | link (target : LinkPath)
  | other

namespace LinkedNode

variable {F I : Type}

/-- The entry under a name. -/
def entry : LinkedNode F I → Bytes → Option I
  | dir entries, name => entries.lookup name
  | _, _ => none

/-- The names of the entries. -/
def names : LinkedNode F I → List Bytes
  | dir entries => entries.keys
  | _ => []

/-- The data of a regular file. -/
def data : LinkedNode F I → Option F
  | file data => some data
  | _ => none

/-- Whether this is a directory. -/
def isDir : LinkedNode F I → Bool
  | dir _ => true
  | _ => false

/-- Where a link leads. -/
def target : LinkedNode F I → Option LinkPath
  | link target => some target
  | _ => none

lemma mem_names_iff {node : LinkedNode F I} {name : Bytes} :
    name ∈ node.names ↔ ∃ c, node.entry name = some c := by
  cases node with
  | dir entries =>
    show name ∈ entries.keys ↔ ∃ c, entries.lookup name = some c
    rw [← Option.isSome_iff_exists, AList.lookup_isSome, AList.mem_keys]
  | _ => simp [names, entry]

end LinkedNode

/-- A file system. -/
structure LinkedFs (F I : Type) where
  node : I → LinkedNode F I
  root : I
  /-- The directory that a directory is in. -/
  parent : I → I
  depth : I → ℕ
  isDir_root : (node root).isDir = true
  parent_root : parent root = root
  parent_entry : ∀ {d name c}, (node d).entry name = some c → (node c).isDir = true → parent c = d
  depth_lt : ∀ {d name c}, (node d).entry name = some c → depth d < depth c
  /-- How many links the system follows on a path. -/
  maxLinks : ℕ

namespace LinkedFs

variable {F I : Type} (fs : LinkedFs F I)

/-- Resolve a path, up to where `follow` goes on with the target of a link. -/
def stepsWith (follow : I → List PathPart → Option I) : I → List PathPart → Option I
  | d, [] => some d
  | d, .here :: rest => if (fs.node d).isDir then stepsWith follow d rest else none
  | d, .up :: rest => if (fs.node d).isDir then stepsWith follow (fs.parent d) rest else none
  | d, .name name :: rest =>
    ((fs.node d).entry name).bind fun c =>
      match (fs.node c).target with
      | some target => follow (target.start fs.root d) (target.parts ++ rest)
      | none => stepsWith follow c rest

/-- The node that a path leads to from a directory, over at most so many links. -/
def resolve : ℕ → I → List PathPart → Option I
  | 0 => fs.stepsWith fun _ _ => none
  | links + 1 => fs.stepsWith (resolve links)

/-- A path leads to a node from a directory, over at most so many links. -/
inductive Resolves : ℕ → I → List PathPart → I → Prop
  | nil (links : ℕ) (d : I) : Resolves links d [] d
  | here {links : ℕ} {d e : I} {rest : List PathPart} (hdir : (fs.node d).isDir = true)
      (h : Resolves links d rest e) : Resolves links d (.here :: rest) e
  | up {links : ℕ} {d e : I} {rest : List PathPart} (hdir : (fs.node d).isDir = true)
      (h : Resolves links (fs.parent d) rest e) : Resolves links d (.up :: rest) e
  | name {links : ℕ} {d c e : I} {name : Bytes} {rest : List PathPart}
      (hentry : (fs.node d).entry name = some c) (htarget : (fs.node c).target = none)
      (h : Resolves links c rest e) : Resolves links d (.name name :: rest) e
  | link {links : ℕ} {d c e : I} {name : Bytes} {target : LinkPath} {rest : List PathPart}
      (hentry : (fs.node d).entry name = some c) (htarget : (fs.node c).target = some target)
      (h : Resolves links (target.start fs.root d) (target.parts ++ rest) e) :
      Resolves (links + 1) d (.name name :: rest) e

/-- An entry of a directory leads to a node: its own, or that of a link in the end. -/
def Leads (d : I) (name : Bytes) (e : I) : Prop := ∃ links, fs.resolve links d [.name name] = some e

variable {fs} {links links' : ℕ} {d c e e' : I} {name : Bytes} {p q parts : List PathPart}

/-! ### Resolving -/

/-- What is resolved up to a link leads there. -/
private lemma resolves_of_stepsWith {follow : I → List PathPart → Option I}
    (hfollow : ∀ {d parts e}, follow d parts = some e →
      ∃ k, links = k + 1 ∧ fs.Resolves k d parts e)
    (h : fs.stepsWith follow d parts = some e) : fs.Resolves links d parts e := by
  induction parts generalizing d with
  | nil =>
    cases h
    exact .nil _ _
  | cons part rest ih =>
    cases part with
    | here =>
      obtain ⟨hdir, h⟩ := Option.ite_none_right_eq_some.mp h
      exact .here hdir (ih h)
    | up =>
      obtain ⟨hdir, h⟩ := Option.ite_none_right_eq_some.mp h
      exact .up hdir (ih h)
    | name name =>
      obtain ⟨c, hentry, h⟩ := Option.bind_eq_some_iff.mp h
      cases htarget : (fs.node c).target with
      | some target =>
        rw [htarget] at h
        obtain ⟨k, rfl, hresolves⟩ := hfollow h
        exact .link hentry htarget hresolves
      | none =>
        rw [htarget] at h
        exact .name hentry htarget (ih h)

/-- **A path leads to a node** if and only if it is resolved to it. -/
theorem resolve_eq_some_iff : fs.resolve links d parts = some e ↔ fs.Resolves links d parts e := by
  constructor
  · intro h
    induction links generalizing d parts e with
    | zero => exact resolves_of_stepsWith (fun {_ _ _} h => by cases h) h
    | succ links ih => exact resolves_of_stepsWith (fun {_ _ _} h => ⟨links, rfl, ih h⟩) h
  · intro h
    induction h with
    | nil links d => cases links <;> rfl
    | @here links d e rest hdir h ih =>
      rw [← ih]
      cases links <;> exact if_pos hdir
    | @up links d e rest hdir h ih =>
      rw [← ih]
      cases links <;> exact if_pos hdir
    | @name links d c e name rest hentry htarget h ih =>
      rw [← ih]
      cases links <;> simp [resolve, stepsWith, hentry, htarget]
    | link hentry htarget h ih =>
      simpa [resolve, stepsWith, hentry, htarget] using ih

lemma Resolves.mono (h : fs.Resolves links d parts e) (hle : links ≤ links') :
    fs.Resolves links' d parts e := by
  induction h generalizing links' with
  | nil => exact .nil _ _
  | here hdir h ih => exact .here hdir (ih hle)
  | up hdir h ih => exact .up hdir (ih hle)
  | name hentry htarget h ih => exact .name hentry htarget (ih hle)
  | link hentry htarget h ih =>
    obtain ⟨k, rfl⟩ := Nat.exists_eq_add_of_le' hle
    exact .link hentry htarget (ih (Nat.le_add_left _ _))

lemma resolve_unique (h : fs.resolve links d parts = some e)
    (h' : fs.resolve links' d parts = some e') : e = e' := by
  have hmax := (resolve_eq_some_iff.mp h).mono (le_max_left links links')
  have hmax' := (resolve_eq_some_iff.mp h').mono (le_max_right links links')
  exact Option.some.inj ((resolve_eq_some_iff.mpr hmax).symm.trans (resolve_eq_some_iff.mpr hmax'))

lemma Leads.unique (h : fs.Leads d name e) (h' : fs.Leads d name e') : e = e' := by
  obtain ⟨_, h⟩ := h
  obtain ⟨_, h'⟩ := h'
  exact resolve_unique h h'

lemma leads_of_not_link (hentry : (fs.node d).entry name = some c)
    (htarget : (fs.node c).target = none) : fs.Leads d name c :=
  ⟨0, resolve_eq_some_iff.mpr (.name hentry htarget (.nil 0 c))⟩

lemma Leads.entry (h : fs.Leads d name e) : ∃ c, (fs.node d).entry name = some c := by
  obtain ⟨links, h⟩ := h
  cases resolve_eq_some_iff.mp h with
  | name hentry _ _ => exact ⟨_, hentry⟩
  | link hentry _ _ => exact ⟨_, hentry⟩

/-! ### Paths in two parts -/

lemma Resolves.append_cases (h : fs.Resolves links d parts e) (hparts : parts = p ++ q) :
    ∃ m, fs.Resolves links d p m ∧ fs.Resolves links m q e := by
  induction h generalizing p with
  | nil links d =>
    obtain ⟨rfl, rfl⟩ := List.append_eq_nil_iff.mp hparts.symm
    exact ⟨d, .nil _ _, .nil _ _⟩
  | @here links d e rest hdir h ih =>
    obtain ⟨rfl, rfl⟩ | ⟨p, rfl, hrest⟩ := List.cons_eq_append_iff.mp hparts
    · exact ⟨d, .nil _ _, .here hdir h⟩
    · obtain ⟨m, hp, hq⟩ := ih hrest
      exact ⟨m, .here hdir hp, hq⟩
  | @up links d e rest hdir h ih =>
    obtain ⟨rfl, rfl⟩ | ⟨p, rfl, hrest⟩ := List.cons_eq_append_iff.mp hparts
    · exact ⟨d, .nil _ _, .up hdir h⟩
    · obtain ⟨m, hp, hq⟩ := ih hrest
      exact ⟨m, .up hdir hp, hq⟩
  | @name links d c e name rest hentry htarget h ih =>
    obtain ⟨rfl, rfl⟩ | ⟨p, rfl, hrest⟩ := List.cons_eq_append_iff.mp hparts
    · exact ⟨d, .nil _ _, .name hentry htarget h⟩
    · obtain ⟨m, hp, hq⟩ := ih hrest
      exact ⟨m, .name hentry htarget hp, hq⟩
  | @link links d c e name target rest hentry htarget h ih =>
    obtain ⟨rfl, rfl⟩ | ⟨p, rfl, rfl⟩ := List.cons_eq_append_iff.mp hparts
    · exact ⟨d, .nil _ _, .link hentry htarget h⟩
    · obtain ⟨m, hp, hq⟩ := ih (List.append_assoc _ _ _).symm
      exact ⟨m, .link hentry htarget hp, hq.mono (Nat.le_succ _)⟩

/-- **A path is resolved in two parts.** -/
theorem resolve_append (h : fs.resolve links d (p ++ q) = some e) :
    ∃ m, fs.resolve links d p = some m ∧ fs.resolve links m q = some e := by
  obtain ⟨m, hp, hq⟩ := (resolve_eq_some_iff.mp h).append_cases rfl
  exact ⟨m, resolve_eq_some_iff.mpr hp, resolve_eq_some_iff.mpr hq⟩

lemma Resolves.append (h : fs.Resolves links d p c) (hq : fs.Resolves 0 c q e) :
    fs.Resolves links d (p ++ q) e := by
  induction h with
  | nil links d => exact hq.mono (Nat.zero_le _)
  | here hdir h ih => exact .here hdir (ih hq)
  | up hdir h ih => exact .up hdir (ih hq)
  | name hentry htarget h ih => exact .name hentry htarget (ih hq)
  | link hentry htarget h ih =>
    refine .link hentry htarget ?_
    have hrest := ih hq
    rwa [List.append_assoc] at hrest

/-! ### How long a path is -/

section Length

variable [Fintype I]

/-- The depth of a file system. -/
def height (fs : LinkedFs F I) : ℕ := Finset.univ.sup fs.depth

lemma depth_le (fs : LinkedFs F I) (d : I) : fs.depth d ≤ fs.height :=
  Finset.le_sup (Finset.mem_univ d)

/-- The names at the end of a path are bounded in number, and so is their number with the depth of
where they start.

**Proof sketch.** From one link to the next, each name leads deeper. -/
private lemma Resolves.length_le (h : fs.Resolves links d parts e) {names : List Bytes}
    (hparts : parts = p ++ names.map .name) :
    names.length + (if p = [] then fs.depth d else 0) ≤ (links + 1) * (fs.height + 1) := by
  induction h generalizing p names with
  | nil links d =>
    obtain ⟨rfl, hnames⟩ := List.append_eq_nil_iff.mp hparts.symm
    obtain rfl := List.map_eq_nil_iff.mp hnames
    calc [].length + (if ([] : List PathPart) = [] then fs.depth d else 0) = fs.depth d := by simp
      _ ≤ fs.height + 1 := (fs.depth_le d).trans (Nat.le_succ _)
      _ ≤ (links + 1) * (fs.height + 1) := Nat.le_mul_of_pos_left _ (Nat.succ_pos _)
  | @here links d e rest hdir h ih =>
    obtain ⟨rfl, hnames⟩ | ⟨p, rfl, hrest⟩ := List.cons_eq_append_iff.mp hparts
    · cases names <;> cases hnames
    · rw [if_neg (List.cons_ne_nil _ _)]
      exact (Nat.le_add_right _ _).trans (ih hrest)
  | @up links d e rest hdir h ih =>
    obtain ⟨rfl, hnames⟩ | ⟨p, rfl, hrest⟩ := List.cons_eq_append_iff.mp hparts
    · cases names <;> cases hnames
    · rw [if_neg (List.cons_ne_nil _ _)]
      exact (Nat.le_add_right _ _).trans (ih hrest)
  | @name links d c e name rest hentry htarget h ih =>
    obtain ⟨rfl, hnames⟩ | ⟨p, rfl, hrest⟩ := List.cons_eq_append_iff.mp hparts
    · obtain ⟨_, names, rfl, -, rfl⟩ := List.map_eq_cons_iff.mp hnames
      have hlt := fs.depth_lt hentry
      have hle := ih (p := []) rfl
      rw [if_pos rfl] at hle ⊢
      rw [List.length_cons]
      omega
    · rw [if_neg (List.cons_ne_nil _ _)]
      exact (Nat.le_add_right _ _).trans (ih hrest)
  | @link links d c e name target rest hentry htarget h ih =>
    obtain ⟨rfl, hnames⟩ | ⟨p, rfl, rfl⟩ := List.cons_eq_append_iff.mp hparts
    · obtain ⟨_, names, rfl, -, rfl⟩ := List.map_eq_cons_iff.mp hnames
      have hle := (Nat.le_add_right _ _).trans (ih (p := target.parts) rfl)
      have hdepth := fs.depth_le d
      rw [if_pos rfl, List.length_cons, Nat.succ_mul]
      omega
    · have hle := (Nat.le_add_right _ _).trans (ih (List.append_assoc _ _ _).symm)
      rw [if_neg (List.cons_ne_nil _ _), Nat.succ_mul]
      omega

/-- **How many names a path goes through at most** before it has come to too many links. -/
theorem length_le_of_resolve {names : List Bytes}
    (h : fs.resolve links d (p ++ names.map .name) = some e) :
    names.length ≤ (links + 1) * (fs.height + 1) :=
  (Nat.le_add_right _ _).trans ((resolve_eq_some_iff.mp h).length_le rfl)

end Length

end LinkedFs
