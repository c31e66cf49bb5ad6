import Landropic.Foundations.Symlinks
import Landropic.Index.Indexer

set_option autoImplicit false

/-!
# The walk through a folder with links

A folder lies in a file system with symbolic links, and the walk may follow them. It sees the target
of a link as from the working directory, wherever the link is, and keeps no record of where it has
been.

## Main definitions

* `LinkedFolder` — a folder in a file system with links.
* `LinkedFolder.view` — what a walk goes through.
* `LinkedFolder.Visible` — the path of a file that can be reached.
* `LinkedFolder.WalkedWhole` — the walk lists the visible files.
* `LinkedFolder.Clear` — an entry is what the walk takes it for.

## Main results

* `LinkedFolder.isSome_drain` — the walk ends.
* `LinkedFolder.walkedWhole_iff` — when it lists the visible files.
* `LinkedFolder.walkedWhole_of_not_followSymlinks` — it does if it follows no links.

## Design

A path below the folder is resolved anew each time, from the working directory on, and the links on
it count together. Directories that can be found can be read, and paths of any length be looked up.
-/

namespace Landropic

/-- A folder in a file system, and how the indexer comes to it. -/
structure LinkedFolder (I : Type) where
  fs : LinkedFs FileData I
  /-- The working directory. -/
  cwd : I
  path : LinkPath
  isDir : ∃ d, fs.resolve fs.maxLinks (path.start fs.root cwd) path.parts = some d ∧
    (fs.node d).isDir = true
  order : IterOrder RelPath
  /-- What the system says of a path that leads to no directory. -/
  refusal : RelPath → String

namespace LinkedFolder

variable {I : Type} (folder : LinkedFolder I)

/-- What a path below the folder leads to. -/
def locate (rel : RelPath) : Option I :=
  folder.fs.resolve folder.fs.maxLinks (folder.path.start folder.fs.root folder.cwd)
    (folder.path.parts ++ rel.reverse.map .name)

/-- Whether a path below the folder leads to a directory. -/
def isDirAt (rel : RelPath) : Bool := (folder.locate rel).any fun d => (folder.fs.node d).isDir

/-- What the target of a link is, seen from the working directory. -/
def targetSeen (target : LinkPath) : LinkTarget :=
  match (folder.fs.resolve folder.fs.maxLinks (target.start folder.fs.root folder.cwd)
    target.parts).map folder.fs.node with
  | some (.file _) => .file
  | some (.dir _) => .dir
  | _ => .neither

/-- What the walk sees under a path. -/
def seen (rel : RelPath) (c : I) : FolderNode :=
  match folder.fs.node c with
  | .file data => .file data
  | .dir _ => .dir
  | .link target =>
    .symlink (folder.targetSeen target) ((folder.locate rel).bind fun e => (folder.fs.node e).data)
  | .other => .other

/-- The entry at a path below the folder. -/
def nodeAt : RelPath → Option FolderNode
  | [] => none
  | name :: rel => (folder.locate rel).bind fun d =>
    ((folder.fs.node d).entry name).map (folder.seen (name :: rel))

/-- The paths of so many names below the folder. -/
def pathsAt : ℕ → List RelPath
  | 0 => [[]]
  | n + 1 => (pathsAt n).flatMap fun rel =>
    ((folder.locate rel).elim [] fun d => (folder.fs.node d).names).map (· :: rel)

section View

variable [Fintype I]

/-- The paths below the folder, through links up to where the system follows no more. -/
def paths : List RelPath :=
  (List.range ((folder.fs.maxLinks + 1) * (folder.fs.height + 1) + 2)).flatMap folder.pathsAt

/-- What is in the folder, as a walk sees it. -/
def tree : FolderTree :=
  HashMap.collect (folder.paths.filterMap fun rel =>
    (folder.nodeAt rel).map fun node => (rel, node))

/-- What a walk through the folder goes through. -/
def view : Walked where
  tree := folder.tree
  order := folder.order
  dirFault rel := if folder.isDirAt rel then none else some (.io (folder.refusal rel))

end View

/-! ## Where a walk may go -/

/-- A trail through the folder: a path, the directory it leads to, and the directories on it. Each
of them is entered from the one before it, as `enters` lets. -/
inductive Trail (enters : Bytes → RelPath → List I → I → I → Prop) :
    RelPath → I → List I → Prop
  | folder {d : I} (h : folder.locate [] = some d) : Trail enters [] d [d]
  | enter {rel : RelPath} {d c e : I} {chain : List I} {name : Bytes}
      (h : Trail enters rel d chain) (hentry : (folder.fs.node d).entry name = some c)
      (hleads : folder.fs.Leads d name e) (hdir : (folder.fs.node e).isDir = true)
      (henters : enters name rel chain c e) : Trail enters (name :: rel) e (e :: chain)

section Walk

variable (ix : FileIndexer)

/-- An entry is to be walked through: it is not ignored, and a link only if links are followed. -/
def Passes (name : Bytes) (c : I) : Prop :=
  ix.shouldIgnore name = false ∧
    ((folder.fs.node c).target ≠ none → ix.config.followSymlinks = true)

/-- A directory can be reached, with none twice on the way. -/
def Reaches : RelPath → I → List I → Prop :=
  folder.Trail fun name _ chain c e => folder.Passes ix name c ∧ e ∉ chain

/-- The entry of a directory is to be listed: it leads to a regular file. -/
def Shows (d : I) (name : Bytes) : Prop :=
  ∃ c e data, (folder.fs.node d).entry name = some c ∧ folder.Passes ix name c ∧
    folder.fs.Leads d name e ∧ folder.fs.node e = .file data

/-- The path of a regular file that is not ignored and can be reached. -/
def Visible : RelPath → Prop
  | [] => False
  | name :: rel => ∃ d chain, folder.Reaches ix rel d chain ∧ folder.Shows ix d name

/-- **The folder is walked as a whole**: the walk ends, lists the visible files once and in order,
and enters no directory twice on a path. -/
structure WalkedWhole [Fintype I] : Prop where
  ends : (Worklist.drain (ix.visitDir folder.view) (folder.tree.keys.card + 1) [] [[]]).isSome
  lists : ∃ files, ix.walkDirectory folder.view = .ok files ∧ files.Nodup ∧
    (∀ rel, rel ∈ files ↔ folder.Visible ix rel) ∧
    files.Pairwise fun a b => FileIndexer.components a ≤ FileIndexer.components b
  visits : ∀ rel, ix.Entered folder.tree rel → ∃ d chain, folder.Reaches ix rel d chain

/-- The walk comes to a directory. -/
def Follows : RelPath → I → List I → Prop :=
  folder.Trail fun name rel _ c _ => ix.action name (folder.seen (name :: rel) c) = .enter

/-- An entry of a directory is what the walk takes it for. -/
structure Clear (rel : RelPath) (d : I) (chain : List I) (name : Bytes) (c : I) : Prop where
  /-- What is listed leads to a regular file, and the other way round. -/
  lists : ix.action name (folder.seen (name :: rel) c) = .list ↔ folder.Shows ix d name
  /-- What is entered leads to a directory that is not on the trail, over not too many links. -/
  enters : ix.action name (folder.seen (name :: rel) c) = .enter →
    ∃ e, folder.locate (name :: rel) = some e ∧ (folder.fs.node e).isDir = true ∧ e ∉ chain
  /-- A directory with visible files below it is entered. -/
  skips : ∀ file below, folder.Visible ix (file :: (below ++ name :: rel)) →
    ix.action name (folder.seen (name :: rel) c) = .enter

end Walk

variable {folder} {ix : FileIndexer} {rel : RelPath} {d d' c e : I} {chain chain' : List I}
  {name : Bytes} {action : WalkAction} {enters enters' : Bytes → RelPath → List I → I → I → Prop}

/-! ## What the walk sees -/

lemma locate_cons (h : folder.locate (name :: rel) = some e) :
    ∃ d, folder.locate rel = some d ∧ folder.fs.Leads d name e := by
  rw [locate, List.reverse_cons, List.map_append, ← List.append_assoc] at h
  obtain ⟨d, hrel, hname⟩ := LinkedFs.resolve_append h
  exact ⟨d, hrel, _, hname⟩

lemma leads_of_locate_cons (hd : folder.locate rel = some d)
    (h : folder.locate (name :: rel) = some e) : folder.fs.Leads d name e := by
  obtain ⟨d', hrel, hleads⟩ := locate_cons h
  obtain rfl := Option.some.inj (hd.symm.trans hrel)
  exact hleads

lemma locate_cons_of_not_link (hd : folder.locate rel = some d)
    (hentry : (folder.fs.node d).entry name = some c) (htarget : (folder.fs.node c).target = none) :
    folder.locate (name :: rel) = some c := by
  have happend := (LinkedFs.resolve_eq_some_iff.mp hd).append
    (.name hentry htarget (.nil 0 c))
  rw [locate, List.reverse_cons, List.map_append, ← List.append_assoc]
  exact LinkedFs.resolve_eq_some_iff.mpr happend

lemma locate_nil (folder : LinkedFolder I) :
    ∃ d, folder.locate [] = some d ∧ (folder.fs.node d).isDir = true := by
  obtain ⟨d, hd, hdir⟩ := folder.isDir
  refine ⟨d, ?_, hdir⟩
  rwa [locate, List.reverse_nil, List.map_nil, List.append_nil]

lemma mem_pathsAt_cons {n : ℕ} (hrel : rel ∈ folder.pathsAt n) (hd : folder.locate rel = some d)
    (hentry : (folder.fs.node d).entry name = some c) : name :: rel ∈ folder.pathsAt (n + 1) := by
  refine List.mem_flatMap.mpr ⟨rel, hrel, List.mem_map.mpr ⟨name, ?_, rfl⟩⟩
  rw [hd, Option.elim_some]
  exact LinkedNode.mem_names_iff.mpr ⟨c, hentry⟩

lemma mem_pathsAt (h : folder.locate rel = some d) : rel ∈ folder.pathsAt rel.length := by
  induction rel generalizing d with
  | nil => exact List.mem_singleton_self []
  | cons name rel ih =>
    obtain ⟨d', hrel, hleads⟩ := locate_cons h
    obtain ⟨c, hentry⟩ := hleads.entry
    exact mem_pathsAt_cons (ih hrel) hrel hentry

section View

variable [Fintype I]

/-- **What a walk sees at a path** is the entry that is found under it.

**Proof sketch.** A path that is located is no longer than the links and the depth of the file
system allow. -/
lemma lookup_tree (folder : LinkedFolder I) (rel : RelPath) :
    folder.tree.lookup rel = folder.nodeAt rel := by
  rw [tree, HashMap.lookup_collect_filterMap]
  split
  · rfl
  next hnotMem =>
  cases rel with
  | nil => rfl
  | cons name rel =>
    rw [nodeAt]
    cases hd : folder.locate rel with
    | none => rfl
    | some d =>
      rw [Option.bind_some]
      cases hentry : (folder.fs.node d).entry name with
      | none => rfl
      | some c =>
        refine absurd ?_ hnotMem
        have hlength := LinkedFs.length_le_of_resolve hd
        rw [List.length_reverse] at hlength
        refine List.mem_flatMap.mpr ⟨rel.length + 1, List.mem_range.mpr (by omega), ?_⟩
        exact mem_pathsAt_cons (mem_pathsAt hd) hd hentry

lemma actionAt_cons (hskip : action ≠ .skip) (hd : folder.locate rel = some d) :
    ix.actionAt folder.tree (name :: rel) = action ↔
      ∃ c, (folder.fs.node d).entry name = some c ∧
        ix.action name (folder.seen (name :: rel) c) = action := by
  rw [FileIndexer.actionAt, lookup_tree, nodeAt, hd, Option.bind_some]
  cases (folder.fs.node d).entry name with
  | none => simp [hskip.symm]
  | some c => simp

lemma dirFault_view : folder.view.dirFault rel = none ↔
    ∃ d, folder.locate rel = some d ∧ (folder.fs.node d).isDir = true := by
  rw [← Option.any_eq_true]
  show (if folder.isDirAt rel then none else some (IndexError.io (folder.refusal rel))) = none ↔
    folder.isDirAt rel = true
  split
  · next hdir => exact iff_of_true rfl hdir
  · next hdir => exact iff_of_false (by simp) hdir

end View

/-! ## Trails -/

lemma Trail.unique (h : folder.Trail enters rel d chain) (h' : folder.Trail enters' rel d' chain') :
    d = d' ∧ chain = chain' := by
  induction h generalizing d' chain' with
  | folder h =>
    cases h' with
    | folder h' =>
      obtain rfl := Option.some.inj (h.symm.trans h')
      exact ⟨rfl, rfl⟩
  | enter h hentry hleads hdir henters ih =>
    cases h' with
    | enter h' hentry' hleads' hdir' henters' =>
      obtain ⟨rfl, rfl⟩ := ih h'
      obtain rfl := hleads.unique hleads'
      exact ⟨rfl, rfl⟩

lemma passes_of_action (h : ix.action name (folder.seen rel c) ≠ .skip) :
    folder.Passes ix name c := by
  rw [FileIndexer.action.eq_def] at h
  split at h
  · exact absurd rfl h
  next hignore =>
  refine ⟨Bool.eq_false_iff.mpr hignore, fun htarget => ?_⟩
  cases hnode : folder.fs.node c with
  | link target =>
    rw [seen, hnode] at h
    by_contra hfollow
    exact h (if_neg hfollow)
  | _ => exact absurd (by rw [hnode]; rfl) htarget

lemma visible_cons_iff (htrail : folder.Trail enters rel d chain) :
    folder.Visible ix (name :: rel) ↔ folder.Reaches ix rel d chain ∧ folder.Shows ix d name := by
  constructor
  · rintro ⟨d', chain', hreaches, hshows⟩
    obtain ⟨rfl, rfl⟩ := htrail.unique hreaches
    exact ⟨hreaches, hshows⟩
  · exact fun h => ⟨d, chain, h⟩

/-- Every entry that the walk comes to is what it takes it for. -/
def AllClear (folder : LinkedFolder I) (ix : FileIndexer) : Prop :=
  ∀ rel d chain, folder.Follows ix rel d chain → ∀ name c,
    (folder.fs.node d).entry name = some c → folder.Clear ix rel d chain name c

section Whole

variable [Fintype I]

lemma entered_of_append {tree : FolderTree} {below : RelPath}
    (h : ix.Entered tree (below ++ rel)) : ix.Entered tree rel := by
  induction below with
  | nil => exact h
  | cons name below ih => exact ih h.1

/-- **The walk ends**, wherever links lead. -/
lemma isSome_drain (folder : LinkedFolder I) (ix : FileIndexer) :
    (Worklist.drain (ix.visitDir folder.view) (folder.tree.keys.card + 1) [] [[]]).isSome := by
  obtain ⟨_, _, -, -, hdrain⟩ | ⟨-, _, hdrain, -⟩ := FileIndexer.drain_visitDir_cases ix folder.view
  · exact Option.isSome_iff_exists.mpr ⟨_, hdrain⟩
  · exact Option.isSome_iff_exists.mpr ⟨_, hdrain⟩

/-! ### What makes the walk whole -/

/-- If all entries are clear, what the walk enters is a directory that it comes to and that can be
reached. -/
lemma exists_follows_of_entered (hclear : folder.AllClear ix)
    (h : ix.Entered folder.tree rel) : ∃ d chain, folder.Follows ix rel d chain ∧
      folder.Reaches ix rel d chain ∧ folder.locate rel = some d ∧
      (folder.fs.node d).isDir = true := by
  induction rel with
  | nil =>
    obtain ⟨d, hd, hdir⟩ := folder.locate_nil
    exact ⟨d, [d], .folder hd, .folder hd, hd, hdir⟩
  | cons name rel ih =>
    obtain ⟨d, chain, hfollows, hreaches, hd, -⟩ := ih h.1
    obtain ⟨c, hentry, haction⟩ := (actionAt_cons (by decide) hd).mp h.2
    obtain ⟨e, he, hdir, hnew⟩ := (hclear _ _ _ hfollows _ _ hentry).enters haction
    have hleads := leads_of_locate_cons hd he
    have hpasses : folder.Passes ix name c := passes_of_action (by rw [haction]; decide)
    exact ⟨e, e :: chain, .enter hfollows hentry hleads hdir haction,
      .enter hreaches hentry hleads hdir ⟨hpasses, hnew⟩, he, hdir⟩

lemma entered_of_reaches (hclear : folder.AllClear ix) (h : folder.Reaches ix rel d chain)
    (hvisible : ∃ file below, folder.Visible ix (file :: (below ++ rel))) :
    ix.Entered folder.tree rel := by
  induction h with
  | folder h => trivial
  | @enter rel d c e chain name h hentry hleads hdir henters ih =>
    obtain ⟨file, below, hvisible⟩ := hvisible
    have hentered : ix.Entered folder.tree rel :=
      ih ⟨file, below ++ [name], by rwa [List.append_assoc, List.singleton_append]⟩
    obtain ⟨d', chain', hfollows, -, hd, -⟩ := exists_follows_of_entered hclear hentered
    obtain ⟨rfl, rfl⟩ := h.unique hfollows
    refine ⟨hentered, (actionAt_cons (by decide) hd).mpr ⟨c, hentry, ?_⟩⟩
    exact (hclear _ _ _ hfollows _ _ hentry).skips file below hvisible

lemma listed_iff_visible (hclear : folder.AllClear ix) :
    ix.Listed folder.tree rel ↔ folder.Visible ix rel := by
  cases rel with
  | nil => exact Iff.rfl
  | cons name rel =>
    constructor
    · rintro ⟨hentered, hlist⟩
      obtain ⟨d, chain, hfollows, hreaches, hd, -⟩ := exists_follows_of_entered hclear hentered
      obtain ⟨c, hentry, haction⟩ := (actionAt_cons (by decide) hd).mp hlist
      exact ⟨d, chain, hreaches, (hclear _ _ _ hfollows _ _ hentry).lists.mp haction⟩
    · intro hvisible
      obtain ⟨d, chain, hreaches, hshows⟩ := id hvisible
      have hentered := entered_of_reaches hclear hreaches ⟨name, [], hvisible⟩
      obtain ⟨d', chain', hfollows, -, hd, -⟩ := exists_follows_of_entered hclear hentered
      obtain ⟨rfl, rfl⟩ := hreaches.unique hfollows
      obtain ⟨c, e, data, hentry, -⟩ := id hshows
      refine ⟨hentered, (actionAt_cons (by decide) hd).mpr ⟨c, hentry, ?_⟩⟩
      exact (hclear _ _ _ hfollows _ _ hentry).lists.mpr hshows

lemma walkedWhole_of_allClear (hclear : folder.AllClear ix) : folder.WalkedWhole ix := by
  have hfault : ∀ rel, ix.Entered folder.tree rel → folder.view.dirFault rel = none := by
    intro rel hentered
    obtain ⟨d, -, -, -, hd, hdir⟩ := exists_follows_of_entered hclear hentered
    exact dirFault_view.mpr ⟨d, hd, hdir⟩
  refine ⟨isSome_drain folder ix, ?_, fun rel hentered => ?_⟩
  · obtain ⟨rel, e, hentered, hsome, -⟩ | ⟨-, files, hwalk, hnodup, hfiles, hsorted⟩ :=
      FileIndexer.walkDirectory_cases ix folder.view
    · cases hsome.symm.trans (hfault rel hentered)
    · exact ⟨files, hwalk, hnodup,
        fun rel => (hfiles rel).trans (listed_iff_visible hclear), hsorted⟩
  · obtain ⟨d, chain, -, hreaches, -⟩ := exists_follows_of_entered hclear hentered
    exact ⟨d, chain, hreaches⟩

/-! ### What a whole walk needs -/

lemma WalkedWhole.spec (h : folder.WalkedWhole ix) :
    (∀ rel, ix.Entered folder.tree rel → ∃ d, folder.locate rel = some d ∧
      (folder.fs.node d).isDir = true) ∧
    ∀ rel, ix.Listed folder.tree rel ↔ folder.Visible ix rel := by
  obtain ⟨files, hwalk, -, hvisible, -⟩ := h.lists
  obtain ⟨_, e, -, -, hwalk'⟩ | ⟨hfault, files', hwalk', -, hfiles, -⟩ :=
    FileIndexer.walkDirectory_cases ix folder.view
  · cases hwalk.symm.trans hwalk'
  · obtain rfl := Except.ok.inj (hwalk.symm.trans hwalk')
    exact ⟨fun rel hentered => dirFault_view.mp (hfault rel hentered),
      fun rel => (hfiles rel).symm.trans (hvisible rel)⟩

lemma WalkedWhole.reaches (h : folder.WalkedWhole ix) (hfollows : folder.Follows ix rel d chain) :
    ix.Entered folder.tree rel ∧ folder.locate rel = some d ∧ folder.Reaches ix rel d chain := by
  induction hfollows with
  | folder hd => exact ⟨trivial, hd, .folder hd⟩
  | @enter rel d c e chain name hfollows hentry hleads hdir haction ih =>
    obtain ⟨hentered, hd, -⟩ := ih
    have hentered' : ix.Entered folder.tree (name :: rel) :=
      ⟨hentered, (actionAt_cons (by decide) hd).mpr ⟨c, hentry, haction⟩⟩
    obtain ⟨e', he, -⟩ := h.spec.1 _ hentered'
    obtain rfl := hleads.unique (leads_of_locate_cons hd he)
    obtain ⟨e', chain', hreaches⟩ := h.visits _ hentered'
    have hfollows' : folder.Follows ix (name :: rel) e (e :: chain) :=
      .enter hfollows hentry hleads hdir haction
    obtain ⟨rfl, rfl⟩ := Trail.unique hfollows' hreaches
    exact ⟨hentered', he, hreaches⟩

lemma WalkedWhole.allClear (h : folder.WalkedWhole ix) : folder.AllClear ix := by
  intro rel d chain hfollows name c hentry
  obtain ⟨hentered, hd, hreaches⟩ := h.reaches hfollows
  have haction : ∀ {action : WalkAction}, action ≠ .skip →
      (ix.actionAt folder.tree (name :: rel) = action ↔
        ix.action name (folder.seen (name :: rel) c) = action) := by
    intro action hskip
    rw [actionAt_cons hskip hd]
    constructor
    · rintro ⟨c', hentry', haction⟩
      obtain rfl := Option.some.inj (hentry.symm.trans hentry')
      exact haction
    · exact fun haction => ⟨c, hentry, haction⟩
  refine ⟨?_, fun henter => ?_, fun file below hvisible => ?_⟩
  · calc ix.action name (folder.seen (name :: rel) c) = .list
        ↔ ix.Listed folder.tree (name :: rel) := by
          rw [← haction (by decide)]
          exact (and_iff_right hentered).symm
      _ ↔ folder.Visible ix (name :: rel) := h.spec.2 _
      _ ↔ folder.Shows ix d name :=
          (visible_cons_iff hreaches).trans (and_iff_right hreaches)
  · have hentered' : ix.Entered folder.tree (name :: rel) :=
      ⟨hentered, (haction (by decide)).mpr henter⟩
    obtain ⟨e, he, hdir⟩ := h.spec.1 _ hentered'
    have hleads := leads_of_locate_cons hd he
    obtain ⟨-, -, hreaches'⟩ := h.reaches (.enter hfollows hentry hleads hdir henter)
    cases hreaches' with
    | enter _ _ _ _ henters => exact ⟨e, he, hdir, henters.2⟩
  · have hlisted := (h.spec.2 _).mpr hvisible
    exact (haction (by decide)).mp (entered_of_append hlisted.1).2

/-- **When the folder is walked as a whole.** -/
theorem walkedWhole_iff (folder : LinkedFolder I) (ix : FileIndexer) :
    folder.WalkedWhole ix ↔ folder.AllClear ix :=
  ⟨WalkedWhole.allClear, walkedWhole_of_allClear⟩

end Whole

/-! ## Links that are not followed -/

section NotFollowed

lemma Trail.above {below : RelPath} (h : folder.Trail enters (below ++ rel) d chain) :
    ∃ d' chain', folder.Trail enters rel d' chain' := by
  induction below generalizing d chain with
  | nil => exact ⟨d, chain, h⟩
  | cons name below ih =>
    cases h with
    | enter h _ _ _ _ => exact ih h

/-- What the walk does with what is no link. -/
lemma action_of_not_link (htarget : (folder.fs.node c).target = none)
    (hignore : ix.shouldIgnore name = false) :
    (ix.action name (folder.seen rel c) = .list ↔ ∃ data, folder.fs.node c = .file data) ∧
      (ix.action name (folder.seen rel c) = .enter ↔ (folder.fs.node c).isDir = true) := by
  rw [FileIndexer.action.eq_def, if_neg (by simp [hignore]), seen]
  cases hnode : folder.fs.node c with
  | link target =>
    rw [hnode] at htarget
    cases htarget
  | _ => simp [LinkedNode.isDir]

variable (hfollow : ix.config.followSymlinks = false)

include hfollow

lemma passes_iff_of_not_followSymlinks : folder.Passes ix name c ↔
    ix.shouldIgnore name = false ∧ (folder.fs.node c).target = none := by
  simp [Passes, hfollow]

lemma follows_of_not_followSymlinks (h : folder.Follows ix rel d chain) :
    folder.locate rel = some d ∧ ∀ x ∈ chain, folder.fs.depth x ≤ folder.fs.depth d := by
  induction h with
  | folder hd => exact ⟨hd, fun x hx => (List.mem_singleton.mp hx ▸ le_rfl)⟩
  | @enter rel d c e chain name h hentry hleads hdir haction ih =>
    obtain ⟨hd, hchain⟩ := ih
    have hpasses : folder.Passes ix name c := passes_of_action (by rw [haction]; decide)
    have htarget := ((passes_iff_of_not_followSymlinks hfollow).mp hpasses).2
    obtain rfl := hleads.unique (LinkedFs.leads_of_not_link hentry htarget)
    refine ⟨locate_cons_of_not_link hd hentry htarget, fun x hx => ?_⟩
    obtain rfl | hx := List.mem_cons.mp hx
    · exact le_rfl
    · exact (hchain x hx).trans (folder.fs.depth_lt hentry).le

lemma allClear_of_not_followSymlinks : folder.AllClear ix := by
  intro rel d chain hfollows name c hentry
  obtain ⟨hd, hchain⟩ := follows_of_not_followSymlinks hfollow hfollows
  have hpasses := @passes_iff_of_not_followSymlinks I folder ix c name hfollow
  have hshows : folder.Shows ix d name ↔
      folder.Passes ix name c ∧ ∃ data, folder.fs.node c = .file data := by
    constructor
    · rintro ⟨c', e, data, hentry', hpasses', hleads, hnode⟩
      obtain rfl := Option.some.inj (hentry.symm.trans hentry')
      have htarget := (hpasses.mp hpasses').2
      obtain rfl := hleads.unique (LinkedFs.leads_of_not_link hentry htarget)
      exact ⟨hpasses', data, hnode⟩
    · rintro ⟨hpasses', data, hnode⟩
      have htarget := (hpasses.mp hpasses').2
      exact ⟨c, c, data, hentry, hpasses', LinkedFs.leads_of_not_link hentry htarget, hnode⟩
  refine ⟨?_, fun henter => ?_, fun file below hvisible => ?_⟩
  · rw [hshows]
    constructor
    · intro hlist
      have hpasses' : folder.Passes ix name c := passes_of_action (by rw [hlist]; decide)
      obtain ⟨hignore, htarget⟩ := hpasses.mp hpasses'
      exact ⟨hpasses', (action_of_not_link htarget hignore).1.mp hlist⟩
    · rintro ⟨hpasses', hfile⟩
      obtain ⟨hignore, htarget⟩ := hpasses.mp hpasses'
      exact (action_of_not_link htarget hignore).1.mpr hfile
  · have hpasses' : folder.Passes ix name c := passes_of_action (by rw [henter]; decide)
    obtain ⟨hignore, htarget⟩ := hpasses.mp hpasses'
    refine ⟨c, locate_cons_of_not_link hd hentry htarget,
      (action_of_not_link htarget hignore).2.mp henter, fun hmem => ?_⟩
    exact Nat.not_lt.mpr (hchain c hmem) (folder.fs.depth_lt hentry)
  · obtain ⟨_, _, hreaches, -⟩ := hvisible
    obtain ⟨_, _, hreaches⟩ := Trail.above hreaches
    cases hreaches with
    | @enter _ d' c' e chain' _ h hentry' hleads hdir henters =>
      obtain ⟨rfl, -⟩ := Trail.unique hfollows h
      obtain rfl := Option.some.inj (hentry.symm.trans hentry')
      obtain ⟨hignore, htarget⟩ := hpasses.mp henters.1
      obtain rfl := hleads.unique (LinkedFs.leads_of_not_link hentry htarget)
      exact (action_of_not_link htarget hignore).2.mpr hdir

/-- **If links are not followed**, the folder is walked as a whole. -/
theorem walkedWhole_of_not_followSymlinks [Fintype I] : folder.WalkedWhole ix :=
  walkedWhole_of_allClear (allClear_of_not_followSymlinks hfollow)

end NotFollowed

/-! ## A link beside its target -/

/-- A directory in which there is a file and a link to it. -/
private def besideNode : Fin 4 → LinkedNode FileData (Fin 4)
  | 0 => .dir (AList.singleton [115] 1)
  | 1 => .dir ((AList.singleton [102] 2).insert [108] 3)
  | 2 => .file ⟨[], ⟨0, 0⟩, none⟩
  | 3 => .link (.relative (.name [102]) [])

private lemma besideNode_entry {d c : Fin 4} {name : Bytes}
    (h : (besideNode d).entry name = some c) :
    d = 0 ∧ c = 1 ∨ d = 1 ∧ (c = 2 ∨ c = 3) := by
  have hmem : ∀ {entries : AList fun _ : Bytes => Fin 4}, entries.lookup name = some c →
      c ∈ entries.entries.map Sigma.snd := fun hlookup =>
    List.mem_map_of_mem (AList.mem_lookup_iff.mp hlookup)
  match d, h with
  | 0, h => exact .inl ⟨rfl, List.mem_singleton.mp (hmem h)⟩
  | 1, h =>
    have hcases : c ∈ [3, 2] := hmem h
    rw [List.mem_cons, List.mem_singleton] at hcases
    exact .inr ⟨rfl, hcases.symm⟩
  | 2, h => cases h
  | 3, h => cases h

/-- A folder with a directory in which there is a file and a link to it. -/
private def beside : LinkedFolder (Fin 4) where
  fs :=
    { node := besideNode
      root := 0
      parent := fun _ => 0
      depth := fun i => i.val
      isDir_root := rfl
      parent_root := rfl
      parent_entry := by
        intro d name c hentry hdir
        obtain ⟨rfl, rfl⟩ | ⟨rfl, rfl | rfl⟩ := besideNode_entry hentry
        · rfl
        · cases hdir
        · cases hdir
      depth_lt := by
        intro d name c hentry
        obtain ⟨rfl, rfl⟩ | ⟨rfl, rfl | rfl⟩ := besideNode_entry hentry <;> decide
      maxLinks := 40 }
  cwd := 0
  path := .absolute []
  isDir := ⟨0, rfl, rfl⟩
  order := .sortedBy FileIndexer.components FileIndexer.components_injective
  refusal := fun _ => "Too many levels of symbolic links (os error 40)"

/-- The indexer, following links. -/
private def following : FileIndexer :=
  { FileIndexer.default with config := ⟨true, []⟩ }

/-- An indexer that follows no links walks it as a whole. -/
theorem walkedWhole_beside :
    beside.WalkedWhole { FileIndexer.default with config := ⟨false, []⟩ } :=
  walkedWhole_of_not_followSymlinks rfl

/-- A link that is not in the working directory may be overlooked. -/
theorem not_forall_walkedWhole : ¬ ∀ (I : Type) [Fintype I] (folder : LinkedFolder I)
    (ix : FileIndexer), folder.WalkedWhole ix := by
  intro h
  have hclear := (h _ beside following).allClear
  have hfollows : beside.Follows following [[115]] 1 [1, 0] :=
    .enter (.folder rfl) rfl ⟨0, rfl⟩ rfl rfl
  have hshows : beside.Shows following 1 [108] :=
    ⟨3, 2, _, rfl, ⟨rfl, fun _ => rfl⟩, ⟨1, rfl⟩, rfl⟩
  have haction := (hclear _ _ _ hfollows [108] 3 rfl).lists.mpr hshows
  have hskip : following.action [108] (beside.seen [[108], [115]] 3) = .skip := rfl
  cases haction.symm.trans hskip

end LinkedFolder

end Landropic
