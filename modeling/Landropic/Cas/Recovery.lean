import Landropic.Cas.Recover
import Landropic.Cas.Rules

set_option autoImplicit false

/-!
# What recovery does

The outcome of a recovery without faults, for every file tree. The walk is followed through the
items it has yet to visit, the directories on its stack and the entries left of the open one: what
concerns a temporary file at or under an item is as it was, and the rest is settled.

## Main definitions

* `Cas.ContentStore.recoveredNode` — what a path names after the recovery.
* `Cas.ContentStore.Walked` — the invariant of the walk.

## Main results

* `Cas.ContentStore.Walked.readDir`, `Cas.ContentStore.Walked.skip`,
  `Cas.ContentStore.Walked.resolve` — the turns of the walk keep the invariant.
* `Cas.ContentStore.wp_recover` — the outcome of a recovery.
-/

namespace Landropic.Cas

/-- The temporary file that decides what a path names after the recovery. -/
def deciding (q : FilePath) : FilePath := if IsTemp q then q else tempPath q

@[simp] lemma deciding_of_isTemp {q : FilePath} (h : IsTemp q) : deciding q = q := if_pos h

lemma deciding_of_not_isTemp {q : FilePath} (h : ¬ IsTemp q) : deciding q = tempPath q := if_neg h

/-- An item is at or above a path. -/
def Covers (items : List FilePath) (p : FilePath) : Prop := ∃ d ∈ items, d <:+ p

instance (items : List FilePath) (p : FilePath) : Decidable (Covers items p) := by
  unfold Covers; infer_instance

@[simp] lemma not_covers_nil (p : FilePath) : ¬ Covers [] p := by simp [Covers]

variable {d p : FilePath}

lemma covers_cons {items : List FilePath} :
    Covers (d :: items) p ↔ d <:+ p ∨ Covers items p := by simp [Covers]

lemma covers_append {items more : List FilePath} :
    Covers (items ++ more) p ↔ Covers items p ∨ Covers more p := by
  simp [Covers, or_and_right, exists_or]

lemma exists_child {fs : Fs} {node : Node} (h : fs.nodes.lookup p = some node) (hd : d <:+ p)
    (hne : p ≠ d) : ∃ c ∈ fs.children d, c <:+ p := by
  induction p generalizing node with
  | nil => exact absurd (List.suffix_nil.mp hd).symm hne
  | cons name dir ih =>
    have hdir : d <:+ dir := (List.suffix_cons_iff.mp hd).resolve_left fun heq => hne heq.symm
    by_cases heq : dir = d
    · exact ⟨name :: dir, Fs.mem_children.mpr ⟨heq, node, h⟩, List.suffix_refl _⟩
    · rcases fs.parent_dir h with rfl | hparent
      · exact absurd (List.suffix_nil.mp hdir).symm heq
      · obtain ⟨c, hc, hsuffix⟩ := ih hparent hdir heq
        exact ⟨c, hc, hsuffix.trans (List.suffix_cons _ _)⟩

lemma isDir_above {fs : Fs} {node : Node} (h : fs.nodes.lookup p = some node) (hd : d <:+ p)
    (hne : p ≠ d) : fs.isDir d = true := by
  obtain ⟨c, hc, -⟩ := exists_child h hd hne
  obtain ⟨rfl, m, hm⟩ := Fs.mem_children.mp hc
  cases c with
  | nil =>
    rw [fs.root_notMem] at hm
    cases hm
  | cons name dir => exact Fs.isDir_of_lookup hm

lemma lookup_under_file {fs : Fs} {e : FilePath} {i : ℕ} (he : fs.nodes.lookup e = some (.file i))
    (hsuffix : e <:+ p) (hne : p ≠ e) : fs.nodes.lookup p = none := by
  by_contra hsome
  obtain ⟨node, hnode⟩ := Option.ne_none_iff_exists'.mp hsome
  rcases Fs.isDir_iff.mp (isDir_above hnode hsuffix hne) with rfl | hdir
  · rw [fs.root_notMem] at he
    cases he
  · rw [he] at hdir
    cases hdir

namespace ContentStore

variable (store : ContentStore)

/-- What a path names after the recovery: no temporary file is left under the directory of the
objects, and a path that named nothing names the file of its temporary file if its content belongs
there. -/
def recoveredNode (fs : Fs) (q : FilePath) : Option Node :=
  if store.objectsDir <:+ deciding q ∧ IsTemp (deciding q) then
    match fs.nodes.lookup q with
    | some .dir => some .dir
    | some (.file i) => if IsTemp q then none else some (.file i)
    | none =>
      match fs.nodes.lookup (deciding q) with
      | some (.file i) =>
        if store.objectPath (store.blake3 (fs.data i)) = q then some (.file i) else none
      | _ => none
  else fs.nodes.lookup q

variable {fs : Fs} {q p : FilePath}

lemma recoveredNode_of_not_file (h : store.objectsDir <:+ deciding q → IsTemp (deciding q) →
      ∀ i, fs.nodes.lookup (deciding q) ≠ some (.file i)) :
    store.recoveredNode fs q = fs.nodes.lookup q := by
  rw [recoveredNode]
  by_cases hcond : store.objectsDir <:+ deciding q ∧ IsTemp (deciding q)
  · rw [if_pos hcond]
    cases hq : fs.nodes.lookup q with
    | none =>
      dsimp only
      split
      · next i hi => exact absurd hi (h hcond.1 hcond.2 i)
      · rfl
    | some node =>
      cases node with
      | dir => rfl
      | file i =>
        by_cases htemp : IsTemp q
        · rw [deciding_of_isTemp htemp] at h
          exact absurd hq (h (deciding_of_isTemp htemp ▸ hcond.1) htemp i)
        · exact if_neg htemp
  · rw [if_neg hcond]

lemma recoveredNode_of_some {node : Node} (h : ¬ IsTemp q) (hq : fs.nodes.lookup q = some node) :
    store.recoveredNode fs q = some node := by
  rw [recoveredNode, hq]
  by_cases hcond : store.objectsDir <:+ deciding q ∧ IsTemp (deciding q)
  · rw [if_pos hcond]
    cases node with
    | dir => rfl
    | file i => exact if_neg h
  · rw [if_neg hcond]

lemma objectPath_of_recoveredNode {i : ℕ} (hq : fs.nodes.lookup q = none)
    (h : store.recoveredNode fs q = some (.file i)) :
    store.objectPath (store.blake3 (fs.data i)) = q := by
  rw [recoveredNode, hq] at h
  by_cases hcond : store.objectsDir <:+ deciding q ∧ IsTemp (deciding q)
  · rw [if_pos hcond] at h
    dsimp only at h
    split at h
    · next j _ =>
      by_cases hpath : store.objectPath (store.blake3 (fs.data j)) = q
      · rw [if_pos hpath] at h
        obtain rfl := Node.file.inj (Option.some.inj h)
        exact hpath
      · rw [if_neg hpath] at h
        cases h
    · cases h
  · rw [if_neg hcond] at h
    cases h

/-- There is no temporary file under the directory of the objects. -/
def NoTemps (fs : Fs) : Prop :=
  ∀ p i, IsTemp p → store.objectsDir <:+ p → fs.nodes.lookup p ≠ some (.file i)

lemma recoveredNode_of_noTemps (h : store.NoTemps fs) (q : FilePath) :
    store.recoveredNode fs q = fs.nodes.lookup q :=
  store.recoveredNode_of_not_file fun hunder htemp i => h _ i htemp hunder

lemma not_isTemp_objectsDir : ¬ IsTemp store.objectsDir := by
  simp only [IsTemp, objectsDir, List.head?_cons, Option.bind_some]
  decide

lemma noTemps_of_not_isDir (h : fs.isDir store.objectsDir = false) : store.NoTemps fs := by
  intro p i htemp hunder hfile
  have hne : p ≠ store.objectsDir := by
    rintro rfl
    exact store.not_isTemp_objectsDir htemp
  rw [isDir_above hfile hunder hne] at h
  cases h

/-- The invariant of the walk, for the tree at its start, the tree now and the items left. -/
structure Walked (fs₀ fs : Fs) (items : List FilePath) : Prop where
  data_eq : fs.data = fs₀.data
  lookup_eq : ∀ q, fs.nodes.lookup q =
    if Covers items (deciding q) then fs₀.nodes.lookup q else store.recoveredNode fs₀ q
  mem_nodes : ∀ d ∈ items, ∃ node, fs.nodes.lookup d = some node
  nodup : items.Nodup
  /-- No item is under another one. -/
  apart : ∀ a ∈ items, ∀ b ∈ items, a <:+ b → a = b
  under : ∀ d ∈ items, store.objectsDir <:+ d

namespace Walked

variable {store} {fs₀ fs fs' : Fs} {items rest : List FilePath} {d e q : FilePath}

lemma init (h : fs.isDir store.objectsDir = true) : store.Walked fs fs [store.objectsDir] where
  data_eq := rfl
  lookup_eq q := by
    split_ifs with hcov
    · rfl
    · rw [recoveredNode, if_neg]
      rintro ⟨hunder, -⟩
      exact hcov ⟨_, List.mem_singleton_self _, hunder⟩
  mem_nodes d hd := by
    obtain rfl := List.mem_singleton.mp hd
    have := Fs.isDir_iff.mp h
    simp only [objectsDir, reduceCtorEq, false_or] at this
    exact ⟨_, this⟩
  nodup := List.nodup_singleton _
  apart a ha b hb _ := by
    rw [List.mem_singleton.mp ha, List.mem_singleton.mp hb]
  under d hd := by
    rw [List.mem_singleton.mp hd]

lemma perm (h : store.Walked fs₀ fs items) (hperm : items.Perm rest) :
    store.Walked fs₀ fs rest where
  data_eq := h.data_eq
  lookup_eq q := by
    rw [h.lookup_eq q]
    have hiff : Covers items (deciding q) ↔ Covers rest (deciding q) := by
      simp [Covers, hperm.mem_iff]
    simp only [hiff]
  mem_nodes d hd := h.mem_nodes d (hperm.mem_iff.mpr hd)
  nodup := hperm.nodup_iff.mp h.nodup
  apart a ha b hb := h.apart a (hperm.mem_iff.mpr ha) b (hperm.mem_iff.mpr hb)
  under d hd := h.under d (hperm.mem_iff.mpr hd)

lemma not_covers (h : store.Walked fs₀ fs (e :: rest)) : ¬ Covers rest e := by
  rintro ⟨d, hd, hsuffix⟩
  obtain rfl := h.apart d (List.mem_cons_of_mem _ hd) e List.mem_cons_self hsuffix
  exact (List.nodup_cons.mp h.nodup).1 hd

lemma lookup_of_covers (h : store.Walked fs₀ fs items) (hcov : Covers items (deciding q)) :
    fs₀.nodes.lookup q = fs.nodes.lookup q := by
  rw [h.lookup_eq q, if_pos hcov]

lemma recoveredNode_eq (h : store.Walked fs₀ fs items) (hcov : Covers items (deciding q))
    (hfile : IsTemp (deciding q) → ∀ i, fs.nodes.lookup (deciding q) ≠ some (.file i)) :
    store.recoveredNode fs₀ q = fs₀.nodes.lookup q := by
  refine store.recoveredNode_of_not_file fun _ htemp i => ?_
  rw [h.lookup_of_covers (by rwa [deciding_of_isTemp htemp])]
  exact hfile htemp i

/-- Items may be dropped where no temporary file is found at or under them. -/
lemma drop (h : store.Walked fs₀ fs items)
    (hmem : ∀ d ∈ rest, ∃ node, fs.nodes.lookup d = some node) (hnodup : rest.Nodup)
    (hapart : ∀ a ∈ rest, ∀ b ∈ rest, a <:+ b → a = b)
    (hsub : ∀ p, Covers rest p → Covers items p)
    (hfile : ∀ p, Covers items p → ¬ Covers rest p → IsTemp p →
      ∀ i, fs.nodes.lookup p ≠ some (.file i))
    (hunder : ∀ d ∈ rest, store.objectsDir <:+ d) : store.Walked fs₀ fs rest where
  data_eq := h.data_eq
  lookup_eq q := by
    rw [h.lookup_eq q]
    by_cases hrest : Covers rest (deciding q)
    · rw [if_pos hrest, if_pos (hsub _ hrest)]
    · rw [if_neg hrest]
      by_cases hitems : Covers items (deciding q)
      · rw [if_pos hitems, h.recoveredNode_eq hitems (hfile _ hitems hrest)]
      · rw [if_neg hitems]
  mem_nodes := hmem
  nodup := hnodup
  apart := hapart
  under := hunder

/-- **Opening a directory** replaces it by its entries. -/
theorem readDir (h : store.Walked fs₀ fs (d :: rest)) (hd : fs.nodes.lookup d = some .dir)
    {entries : List FilePath} (hnodup : entries.Nodup)
    (hmem : ∀ {c}, c ∈ entries ↔ c ∈ fs.children d) : store.Walked fs₀ fs (entries ++ rest) := by
  have hchild : ∀ c ∈ entries, ∃ name, c = name :: d := by
    intro c hc
    obtain ⟨htail, node, hnode⟩ := Fs.mem_children.mp (hmem.mp hc)
    cases c with
    | nil =>
      rw [fs.root_notMem] at hnode
      cases hnode
    | cons name dir => exact ⟨name, by rw [← htail]; rfl⟩
  have hdrest : ∀ b ∈ rest, ¬ d <:+ b := by
    intro b hb hsuffix
    obtain rfl := h.apart d List.mem_cons_self b (List.mem_cons_of_mem _ hb) hsuffix
    exact (List.nodup_cons.mp h.nodup).1 hb
  have hentryrest : ∀ a ∈ entries, ∀ b ∈ rest, ¬ a <:+ b := by
    intro a ha b hb hsuffix
    obtain ⟨name, rfl⟩ := hchild a ha
    exact hdrest b hb ((List.suffix_cons _ _).trans hsuffix)
  refine h.drop ?_ ?_ ?_ ?_ ?_ ?_
  · intro c hc
    rcases List.mem_append.mp hc with hc | hc
    · exact (Fs.mem_children.mp (hmem.mp hc)).2
    · exact h.mem_nodes c (List.mem_cons_of_mem _ hc)
  · refine hnodup.append (List.nodup_cons.mp h.nodup).2 fun c hc hc' => ?_
    exact hentryrest c hc c hc' (List.suffix_refl _)
  · intro a ha b hb hsuffix
    rcases List.mem_append.mp ha with ha | ha <;> rcases List.mem_append.mp hb with hb | hb
    · obtain ⟨name, rfl⟩ := hchild a ha
      obtain ⟨name', rfl⟩ := hchild b hb
      exact hsuffix.eq_of_length (by simp)
    · exact absurd hsuffix (hentryrest a ha b hb)
    · obtain ⟨name, rfl⟩ := hchild b hb
      rcases List.suffix_cons_iff.mp hsuffix with heq | hsuffix
      · exact heq
      · have := h.apart a (List.mem_cons_of_mem _ ha) d List.mem_cons_self hsuffix
        exact absurd (this ▸ List.suffix_refl _) (hdrest a ha)
    · exact h.apart a (List.mem_cons_of_mem _ ha) b (List.mem_cons_of_mem _ hb) hsuffix
  · intro p hp
    rcases covers_append.mp hp with ⟨c, hc, hsuffix⟩ | hp
    · obtain ⟨name, rfl⟩ := hchild c hc
      exact covers_cons.mpr (.inl ((List.suffix_cons _ _).trans hsuffix))
    · exact covers_cons.mpr (.inr hp)
  · intro p hp hnot _ i hi
    rcases covers_cons.mp hp with hsuffix | hp
    · by_cases hpd : p = d
      · rw [hpd, hd] at hi
        cases hi
      · obtain ⟨c, hc, hcp⟩ := exists_child hi hsuffix hpd
        exact hnot (covers_append.mpr (.inl ⟨c, hmem.mpr hc, hcp⟩))
    · exact hnot (covers_append.mpr (.inr hp))
  · intro c hc
    rcases List.mem_append.mp hc with hc | hc
    · obtain ⟨name, rfl⟩ := hchild c hc
      exact (h.under d List.mem_cons_self).trans (List.suffix_cons _ _)
    · exact h.under c (List.mem_cons_of_mem _ hc)

/-- **An entry that is neither a directory nor a temporary file** is left alone. -/
theorem skip (h : store.Walked fs₀ fs (e :: rest)) (hdir : fs.nodes.lookup e ≠ some .dir)
    (htemp : ¬ IsTemp e) : store.Walked fs₀ fs rest := by
  refine h.drop (fun d hd => h.mem_nodes d (List.mem_cons_of_mem _ hd))
    (List.nodup_cons.mp h.nodup).2
    (fun a ha b hb => h.apart a (List.mem_cons_of_mem _ ha) b (List.mem_cons_of_mem _ hb))
    (fun p hp => covers_cons.mpr (.inr hp)) ?_ (fun d hd => h.under d (List.mem_cons_of_mem _ hd))
  intro p hp hnot hptemp i hi
  have hsuffix := (covers_cons.mp hp).resolve_right hnot
  obtain ⟨node, hnode⟩ := h.mem_nodes e List.mem_cons_self
  cases node with
  | dir => exact hdir hnode
  | file j =>
    by_cases hpe : p = e
    · exact htemp (hpe ▸ hptemp)
    · rw [lookup_under_file hnode hsuffix hpe] at hi
      cases hi

end Walked

/-- A temporary file for a path was dealt with: moved if its content belongs at the path and nothing
is there, and removed otherwise. -/
structure Resolves (fs : Fs) (p : FilePath) (i : ℕ) (fs' : Fs) : Prop where
  data_eq : fs'.data = fs.data
  lookup_temp : fs'.nodes.lookup (tempPath p) = none
  lookup_of_ne : ∀ q, q ≠ p → q ≠ tempPath p → fs'.nodes.lookup q = fs.nodes.lookup q
  lookup_final : fs'.nodes.lookup p = match fs.nodes.lookup p with
    | some node => some node
    | none => if store.objectPath (store.blake3 (fs.data i)) = p then some (.file i) else none

namespace Walked

variable {store} {fs₀ fs fs' : Fs} {items rest : List FilePath} {p e q : FilePath} {i : ℕ}

/-- A temporary file that is an item is settled by being dealt with. -/
lemma lookup_resolve (h : store.Walked fs₀ fs (tempPath p :: rest)) (htemp : IsTemp (tempPath p))
    (hfile : fs.nodes.lookup (tempPath p) = some (.file i)) (hres : store.Resolves fs p i fs') :
    fs'.nodes.lookup p =
      if Covers rest (deciding p) then fs₀.nodes.lookup p else store.recoveredNode fs₀ p := by
  have hcov : Covers (tempPath p :: rest) (tempPath p) :=
    covers_cons.mpr (.inl (List.suffix_refl _))
  by_cases hp : IsTemp p
  · -- the final path is itself one of a temporary file, and so no object belongs there
    have hne : ∀ hash, store.objectPath hash ≠ p := by
      rintro hash rfl
      exact store.not_isTemp_objectPath hash hp
    have hsame : fs'.nodes.lookup p = fs.nodes.lookup p := by
      rw [hres.lookup_final]
      split
      · next node hnode => rw [hnode]
      · next hnone => rw [if_neg (hne _), hnone]
    have hneq : p ≠ tempPath p := by
      intro heq
      cases p with
      | nil => cases hp
      | cons name dir =>
        have := congrArg List.length (List.cons.inj heq).1
        simp at this
    have hiff : Covers (tempPath p :: rest) p ↔ Covers rest p := by
      rw [covers_cons, or_iff_right]
      intro hsuffix
      exact hneq (hsuffix.eq_of_length (by simp)).symm
    rw [hsame, h.lookup_eq p]
    simp only [deciding_of_isTemp hp, hiff]
  · have hold : fs₀.nodes.lookup p = fs.nodes.lookup p :=
      h.lookup_of_covers (by rwa [deciding_of_not_isTemp hp])
    have htold : fs₀.nodes.lookup (tempPath p) = some (.file i) := by
      rw [h.lookup_of_covers (by rwa [deciding_of_isTemp htemp]), hfile]
    have hcond : store.objectsDir <:+ tempPath p ∧ IsTemp (tempPath p) :=
      ⟨h.under _ List.mem_cons_self, htemp⟩
    rw [deciding_of_not_isTemp hp, if_neg h.not_covers, hres.lookup_final, recoveredNode,
      deciding_of_not_isTemp hp, if_pos hcond, ← hold]
    split
    · next node hnode =>
      cases node with
      | dir => rw [hnode]
      | file j => rw [hnode]; exact (if_neg hp).symm
    · next hnone => rw [hnone, htold, h.data_eq]

/-- **Dealing with a temporary file** settles it. -/
theorem resolve (h : store.Walked fs₀ fs (tempPath p :: rest)) (htemp : IsTemp (tempPath p))
    (hp : p ≠ []) (hfile : fs.nodes.lookup (tempPath p) = some (.file i))
    (hres : store.Resolves fs p i fs') : store.Walked fs₀ fs' rest where
  data_eq := hres.data_eq.trans h.data_eq
  lookup_eq q := by
    by_cases hq : q = p
    · subst hq
      exact h.lookup_resolve htemp hfile hres
    · by_cases hqt : q = tempPath p
      · have hold : fs₀.nodes.lookup q = some (.file i) := by
          rw [h.lookup_of_covers (covers_cons.mpr (.inl ?_)), hqt, hfile]
          rw [hqt, deciding_of_isTemp htemp]
        have hdec : deciding q = q := by rw [hqt, deciding_of_isTemp htemp]
        rw [hdec, if_neg (hqt ▸ h.not_covers), recoveredNode, hdec, hold]
        have hcond : store.objectsDir <:+ q ∧ IsTemp q :=
          ⟨hqt ▸ h.under _ List.mem_cons_self, hqt ▸ htemp⟩
        rw [if_pos hcond, hqt, hres.lookup_temp]
        exact (if_pos htemp).symm
      · have hne : deciding q ≠ tempPath p := by
          unfold deciding
          split_ifs with hqtemp
          · exact hqt
          · intro heq
            exact hq (tempPath_injective hp heq.symm).symm
        rw [hres.lookup_of_ne q hq hqt, h.lookup_eq q]
        by_cases hrest : Covers rest (deciding q)
        · rw [if_pos hrest, if_pos (covers_cons.mpr (.inr hrest))]
        · rw [if_neg hrest]
          by_cases hitems : Covers (tempPath p :: rest) (deciding q)
          · have hsuffix := (covers_cons.mp hitems).resolve_right hrest
            rw [if_pos hitems, h.recoveredNode_eq hitems]
            intro _ j hj
            rw [lookup_under_file hfile hsuffix hne] at hj
            cases hj
          · rw [if_neg hitems]
  mem_nodes d hd := by
    obtain ⟨node, hnode⟩ := h.mem_nodes d (List.mem_cons_of_mem _ hd)
    by_cases hdp : d = p
    · subst hdp
      exact ⟨node, by rw [hres.lookup_final, hnode]⟩
    · have hdt : d ≠ tempPath p := by
        rintro rfl
        exact h.not_covers ⟨_, hd, List.suffix_refl _⟩
      exact ⟨node, by rw [hres.lookup_of_ne d hdp hdt, hnode]⟩
  nodup := (List.nodup_cons.mp h.nodup).2
  apart a ha b hb := h.apart a (List.mem_cons_of_mem _ ha) b (List.mem_cons_of_mem _ hb)
  under d hd := h.under d (List.mem_cons_of_mem _ hd)

/-! ### How much is left to walk -/

end Walked

/-- What exists at or under the items. -/
def left (fs : Fs) (items : List FilePath) : Finset FilePath := fs.nodes.keys.filter (Covers items)

lemma mem_left {items : List FilePath} :
    p ∈ left fs items ↔ (∃ node, fs.nodes.lookup p = some node) ∧ Covers items p := by
  rw [left, Finset.mem_filter, Finmap.mem_keys, Finmap.mem_iff]

lemma left_perm {items more : List FilePath} (h : items.Perm more) :
    left fs items = left fs more := by
  ext q
  simp [mem_left, Covers, h.mem_iff]

namespace Walked

variable {store} {fs₀ fs fs' : Fs} {items rest : List FilePath} {p e q : FilePath} {i : ℕ}

lemma length_le (h : store.Walked fs₀ fs items) : items.length ≤ (left fs items).card := by
  rw [← List.toFinset_card_of_nodup h.nodup]
  apply Finset.card_le_card
  intro d hd
  rw [List.mem_toFinset] at hd
  exact mem_left.mpr ⟨h.mem_nodes d hd, d, hd, List.suffix_refl _⟩

lemma card_left_lt (h : store.Walked fs₀ fs (e :: rest)) {new : List FilePath}
    (hsub : ∀ q, q ∈ left fs' new → q ∈ left fs (e :: rest)) (he : e ∉ left fs' new) :
    (left fs' new).card < (left fs (e :: rest)).card := by
  apply Finset.card_lt_card
  refine ⟨hsub, fun hback => he (hback ?_)⟩
  exact mem_left.mpr ⟨h.mem_nodes e List.mem_cons_self, e, List.mem_cons_self, List.suffix_refl _⟩

lemma card_left_skip (h : store.Walked fs₀ fs (e :: rest)) :
    (left fs rest).card < (left fs (e :: rest)).card := by
  refine h.card_left_lt (fun q hq => ?_) fun he => h.not_covers (mem_left.mp he).2
  obtain ⟨hnode, hcov⟩ := mem_left.mp hq
  exact mem_left.mpr ⟨hnode, covers_cons.mpr (.inr hcov)⟩

lemma card_left_readDir (h : store.Walked fs₀ fs (e :: rest)) {entries : List FilePath}
    (hmem : ∀ {c}, c ∈ entries ↔ c ∈ fs.children e) :
    (left fs (entries ++ rest)).card < (left fs (e :: rest)).card := by
  have hchild : ∀ c ∈ entries, e <:+ c ∧ e ≠ c := by
    intro c hc
    obtain ⟨htail, node, hnode⟩ := Fs.mem_children.mp (hmem.mp hc)
    cases c with
    | nil =>
      rw [fs.root_notMem] at hnode
      cases hnode
    | cons name dir =>
      obtain rfl : dir = e := htail
      exact ⟨List.suffix_cons _ _, fun heq => by simpa using congrArg List.length heq⟩
  refine h.card_left_lt (fun q hq => ?_) fun he => ?_
  · obtain ⟨hnode, hcov⟩ := mem_left.mp hq
    refine mem_left.mpr ⟨hnode, covers_cons.mpr ?_⟩
    rcases covers_append.mp hcov with ⟨c, hc, hsuffix⟩ | hcov
    · exact .inl ((hchild c hc).1.trans hsuffix)
    · exact .inr hcov
  · rcases covers_append.mp (mem_left.mp he).2 with ⟨c, hc, hsuffix⟩ | hcov
    · obtain ⟨hce, hne⟩ := hchild c hc
      exact hne (hce.eq_of_length (le_antisymm hce.length_le hsuffix.length_le))
    · exact h.not_covers hcov

lemma card_left_resolve (h : store.Walked fs₀ fs (tempPath p :: rest)) (hp : p ≠ [])
    (hres : store.Resolves fs p i fs') :
    (left fs' rest).card < (left fs (tempPath p :: rest)).card := by
  refine h.card_left_lt (fun q hq => ?_) fun he => h.not_covers (mem_left.mp he).2
  obtain ⟨⟨node, hnode⟩, hcov⟩ := mem_left.mp hq
  refine mem_left.mpr ⟨?_, covers_cons.mpr (.inr hcov)⟩
  by_cases hqt : q = tempPath p
  · exact absurd (hqt ▸ hcov) h.not_covers
  by_cases hqp : q = p
  · -- a path at or under an item that exists is not one that has just come into being
    subst hqp
    obtain ⟨d, hd, hsuffix⟩ := hcov
    cases q with
    | nil => exact absurd rfl hp
    | cons name dir =>
      rcases List.suffix_cons_iff.mp hsuffix with rfl | hdir
      · exact h.mem_nodes _ (List.mem_cons_of_mem _ hd)
      · exact absurd ⟨d, hd, hdir.trans (List.suffix_cons _ _)⟩ h.not_covers
  · exact ⟨node, by rw [← hres.lookup_of_ne q hqp hqt, hnode]⟩

end Walked

/-! ### The tasks -/

open Proc

variable {store} {s : StoreState}

/-- What a task on its own is to do with a temporary file for a path. -/
def ResolvesState (p : FilePath) (i : ℕ) (s : StoreState) (r : Except CasError RecoveryStats)
    (s' : StoreState) : Prop :=
  ∃ stats fs', r = .ok stats ∧ s' = { s with fs := fs' } ∧ store.Resolves s.fs p i fs'

lemma resolves_removeFile {fs' : Fs} {i : ℕ} (hp : p ≠ [])
    (h : fs.removeFile (tempPath p) = (.ok (), fs'))
    (hkeep : fs.nodes.lookup p = none → store.objectPath (store.blake3 (fs.data i)) ≠ p) :
    store.Resolves fs p i fs' := by
  obtain ⟨-, hgone, hnodes, hdata, -⟩ := Fs.removeFile_ok h
  refine ⟨hdata, hgone, fun q _ hq => hnodes q hq, ?_⟩
  rw [hnodes p (tempPath_ne hp).symm]
  cases hlookup : fs.nodes.lookup p with
  | none => exact (if_neg (hkeep hlookup)).symm
  | some node => rfl

lemma wp_cleanUp {i : ℕ} (hp : p ≠ []) (hfile : s.fs.nodes.lookup (tempPath p) = some (.file i))
    (hkeep : store.objectPath (store.blake3 (s.fs.data i)) ≠ p) (stats : RecoveryStats) :
    wp (.alone Op noFault) (store.ResolvesState p i s) (cleanUp (tempPath p) stats) s := by
  refine wp_bind (wp_attempt (wp_alone_disk fun r fs' heq => ?_))
  obtain ⟨fs'', hok⟩ := Fs.exists_removeFile hfile
  obtain ⟨rfl, rfl⟩ := Prod.mk.inj (heq.symm.trans hok)
  exact ⟨_, fs', rfl, rfl, resolves_removeFile hp hok fun _ => hkeep⟩

lemma wp_completeRecovery {i : ℕ} (hp : p ≠ [])
    (hfile : s.fs.nodes.lookup (tempPath p) = some (.file i)) (hnone : s.fs.nodes.lookup p = none)
    (hkeep : store.objectPath (store.blake3 (s.fs.data i)) = p) (stats : RecoveryStats) :
    wp (.alone Op noFault) (store.ResolvesState p i s)
      (store.completeRecovery (tempPath p) p stats) s := by
  cases p with
  | nil => exact absurd rfl hp
  | cons stem dir =>
    refine wp_bind (wp_attempt (wp_alone_disk fun r fs' heq => ?_))
    obtain ⟨fs'', hok⟩ := Fs.exists_rename stem hfile (Fs.isDir_of_lookup hfile)
      (by simp [hnone])
    obtain ⟨rfl, rfl⟩ := Prod.mk.inj (heq.symm.trans hok)
    obtain ⟨j, hj, hfinal, hgone, hnodes, hdata, -, -⟩ := Fs.rename_ok hok
    obtain rfl : i = j := by simpa [hfile] using hj
    have hres : store.Resolves s.fs (stem :: dir) i fs' := by
      refine ⟨hdata, hgone (tempPath_ne hp), fun q hq hqt => hnodes q hqt hq, ?_⟩
      rw [hfinal, hnone, if_pos hkeep]
    dsimp only
    split
    · refine wp_bind (wp_attempt (wp_mapErr (wp_alone_look ?_)))
      exact ⟨_, fs', rfl, rfl, hres⟩
    · exact ⟨_, fs', rfl, rfl, hres⟩

/-- **One temporary file** is dealt with. -/
lemma wp_recoverTempFile {i : ℕ} (hp : p ≠ [])
    (hfile : s.fs.nodes.lookup (tempPath p) = some (.file i)) (stats : RecoveryStats) :
    wp (.alone Op noFault) (store.ResolvesState p i s)
      (store.recoverTempFile (tempPath p) stats) s := by
  cases p with
  | nil => exact absurd rfl hp
  | cons stem dir =>
    have hname : (stem ++ ".tmp".toList).take ((stem ++ ".tmp".toList).length - 4) = stem := by
      simp
    rw [tempPath, recoverTempFile, if_neg (by simp), hname]
    refine wp_bind (wp_alone_pathExists ?_)
    cases hexists : s.fs.pathExists (stem :: dir) with
    | true =>
      refine wp_bind (wp_attempt (wp_alone_disk fun r fs' heq => ?_))
      obtain ⟨fs'', hok⟩ := Fs.exists_removeFile hfile
      obtain ⟨rfl, rfl⟩ := Prod.mk.inj (heq.symm.trans hok)
      refine ⟨_, fs', rfl, rfl, resolves_removeFile hp hok fun hnone => ?_⟩
      simp [Fs.pathExists_iff, hnone] at hexists
    | false =>
      have hnone : s.fs.nodes.lookup (stem :: dir) = none := by
        simpa [Fs.pathExists] using hexists
      refine wp_bind (wp_attempt (wp_alone_look ?_))
      have hread : s.fs.readFile ((stem ++ ".tmp".toList) :: dir) = .ok (s.fs.data i) :=
        Fs.readFile_of_lookup hfile
      rw [hread]
      dsimp only
      split
      · next hkeep => exact wp_completeRecovery hp hfile hnone hkeep stats
      · next hkeep => exact wp_cleanUp hp hfile hkeep stats

lemma wp_recoverEntry {i : ℕ} (hp : p ≠ [])
    (hfile : s.fs.nodes.lookup (tempPath p) = some (.file i)) (stats : RecoveryStats) :
    wp (.alone Op noFault) (store.ResolvesState p i s)
      (store.recoverEntry (tempPath p) stats) s := by
  refine wp_bind (wp_attempt (wp_mono (wp_recoverTempFile hp hfile stats) ?_))
  rintro _ _ ⟨stats', fs', rfl, rfl, hres⟩
  exact ⟨stats', fs', rfl, rfl, hres⟩

lemma wp_alone_isDirEntry {Q : Except CasError Bool → StoreState → Prop}
    (h : Q (.ok (s.fs.isDir p)) s) : wp (.alone Op noFault) Q (isDirEntry p) s := by
  refine wp_atom ?_
  rintro s' rfl i hi
  exact ⟨trivial, by simpa [show i ≠ .fail from hi] using h⟩

/-! ### The walk -/

/-- The outcome of a walk that began with the tree `fs₀`. -/
def WalkedState (fs₀ : Fs) (stats : RecoveryStats) (s : StoreState)
    (r : Except CasError RecoveryStats) (s' : StoreState) : Prop :=
  ∃ stats' fs', r = .ok stats' ∧ s' = { s with fs := fs' } ∧ store.Walked fs₀ fs' [] ∧
    (store.NoTemps fs₀ → stats' = stats)

/-- **The walk** visits every item, if it may take enough turns: two for each directory and one for
each file.

**Proof sketch.** Induction on the turns left. Each turn opens a directory, moves an entry to the
stack, or is done with an entry; what is left to walk, counted twice, and less the length of the
stack, gets smaller by one at least. -/
theorem wp_recoverWalk (order : IterOrder FilePath) (fs₀ : Fs) (fuel : ℕ)
    (stack entries : List FilePath)
    (stats : RecoveryStats) (s : StoreState) (h : store.Walked fs₀ s.fs (stack ++ entries))
    (hstack : ∀ d ∈ stack, s.fs.nodes.lookup d = some .dir)
    (hfuel : 2 * (left s.fs (stack ++ entries)).card + 1 ≤ fuel + stack.length) :
    wp (.alone Op noFault) (store.WalkedState fs₀ stats s)
      (store.recoverWalk order fuel stack entries stats) s := by
  induction fuel generalizing stack entries stats s with
  | zero =>
    have hlen := h.length_le
    rw [List.length_append] at hlen
    omega
  | succ fuel ih =>
    cases entries with
    | nil =>
      cases stack with
      | nil => exact ⟨stats, s.fs, rfl, rfl, h, fun _ => rfl⟩
      | cons dir stack =>
        rw [List.append_nil] at h hfuel
        have hdir := hstack dir List.mem_cons_self
        rw [recoverWalk]
        refine wp_bind (wp_attempt (wp_alone_look ?_))
        rw [Fs.readDir, if_pos (Fs.isDir_iff.mpr (.inr hdir))]
        have hmem : ∀ {c}, c ∈ order.iter (s.fs.children dir) ↔ c ∈ s.fs.children dir :=
          order.mem_iter
        have hperm : (order.iter (s.fs.children dir) ++ stack).Perm
            (stack ++ order.iter (s.fs.children dir)) := List.perm_append_comm
        refine ih _ _ _ s ((h.readDir hdir (order.nodup_iter _) hmem).perm hperm)
          (fun d hd => hstack d (List.mem_cons_of_mem _ hd)) ?_
        have hlt := h.card_left_readDir hmem
        rw [left_perm hperm] at hlt
        rw [List.length_cons] at hfuel
        omega
    | cons entry entries =>
      have hperm : (stack ++ entry :: entries).Perm (entry :: (stack ++ entries)) :=
        List.perm_middle
      have h' := h.perm hperm
      rw [left_perm hperm] at hfuel
      rw [recoverWalk]
      refine wp_bind (wp_attempt (wp_alone_look ?_))
      refine wp_bind (wp_alone_isDirEntry ?_)
      obtain ⟨node, hnode⟩ := h'.mem_nodes entry List.mem_cons_self
      cases hdir : s.fs.isDir entry with
      | true =>
        have hlookup : s.fs.nodes.lookup entry = some .dir := by
          rcases Fs.isDir_iff.mp hdir with rfl | hlookup
          · rw [s.fs.root_notMem] at hnode
            cases hnode
          · exact hlookup
        refine ih (entry :: stack) entries _ s h' ?_ ?_
        · intro d hd
          rcases List.mem_cons.mp hd with rfl | hd
          · exact hlookup
          · exact hstack d hd
        · rw [List.length_cons, List.cons_append]
          omega
      | false =>
        have hne : s.fs.nodes.lookup entry ≠ some .dir := fun heq => by
          rw [Fs.isDir_iff.mpr (.inr heq)] at hdir
          cases hdir
        dsimp only
        rw [if_neg Bool.false_ne_true]
        split
        · next htemp =>
          obtain ⟨i, hfile⟩ : ∃ i, s.fs.nodes.lookup entry = some (.file i) := by
            cases node with
            | dir => exact absurd hnode hne
            | file i => exact ⟨i, hnode⟩
          obtain ⟨stem, dir, hstem, rfl⟩ := isTemp_iff.mp htemp
          refine wp_bind (wp_mono (wp_recoverEntry (by simp) hfile stats) ?_)
          rintro _ _ ⟨stats', fs', rfl, rfl, hres⟩
          have hlt := h'.card_left_resolve (by simp) hres
          refine wp_mono (ih stack entries stats' _ (h'.resolve htemp (by simp) hfile hres) ?_
            (by dsimp only; omega)) ?_
          · intro d hd
            have hold := hstack d hd
            have hdt : d ≠ tempPath (stem :: dir) := by
              rintro rfl
              exact hne hold
            by_cases hdp : d = stem :: dir
            · subst hdp
              rw [hres.lookup_final, hold]
            · rw [hres.lookup_of_ne d hdp hdt, hold]
          · rintro _ _ ⟨stats'', fs'', rfl, rfl, hwalked, -⟩
            refine ⟨stats'', fs'', rfl, rfl, hwalked, fun hno => ?_⟩
            -- the entry was a temporary file from the start
            refine absurd ?_ (hno _ i htemp (h'.under _ List.mem_cons_self))
            rw [h'.lookup_of_covers, hfile]
            rw [deciding_of_isTemp htemp]
            exact covers_cons.mpr (.inl (List.suffix_refl _))
        · next htemp =>
          have hlt := h'.card_left_skip
          exact ih stack entries _ s (h'.skip hne htemp) hstack (by omega)

/-- The walk ends at once where the directory of the objects cannot be read. -/
lemma wp_recoverWalk_unreadable (order : IterOrder FilePath) {fuel : ℕ} (s : StoreState)
    (hdir : s.fs.isDir store.objectsDir = false) (hfuel : 2 ≤ fuel) :
    wp (.alone Op noFault) (fun r s' => ∃ errors, r = .ok ⟨0, 0, errors⟩ ∧ s' = s)
      (store.recoverWalk order fuel [store.objectsDir] [] ⟨0, 0, []⟩) s := by
  obtain ⟨fuel, rfl⟩ : ∃ n, fuel = n + 2 := ⟨fuel - 2, by omega⟩
  rw [recoverWalk]
  refine wp_bind (wp_attempt (wp_alone_look ?_))
  rw [Fs.readDir, if_neg (by simp [hdir])]
  exact ⟨_, rfl, rfl⟩

/-- **Recovery without faults**, from every file tree: what every path names afterwards, and that
nothing is done where there are no temporary files. -/
theorem wp_recover (order : IterOrder FilePath) {fuel : ℕ} (s : StoreState)
    (hfuel : 2 * s.fs.nodes.keys.card ≤ fuel) :
    wp (.alone Op noFault) (fun r s' => ∃ stats fs', r = .ok stats ∧ s' = { s with fs := fs' } ∧
        fs'.data = s.fs.data ∧ (∀ q, fs'.nodes.lookup q = store.recoveredNode s.fs q) ∧
        (store.NoTemps s.fs → stats.recovered = 0 ∧ stats.cleaned = 0))
      (store.recover order fuel) s := by
  refine wp_bind (wp_alone_pathExists ?_)
  cases hdir : s.fs.isDir store.objectsDir with
  | true =>
    have hlookup : s.fs.nodes.lookup store.objectsDir = some .dir := by
      simpa [objectsDir] using Fs.isDir_iff.mp hdir
    have hexists : s.fs.pathExists store.objectsDir = true :=
      Fs.pathExists_iff.mpr (.inr ⟨_, hlookup⟩)
    have hle : (left s.fs [store.objectsDir]).card ≤ s.fs.nodes.keys.card :=
      Finset.card_filter_le _ _
    rw [hexists]
    refine wp_mono (store.wp_recoverWalk order s.fs fuel [store.objectsDir] [] _ s (.init hdir)
      (by simpa using hlookup) (by simp only [List.append_nil, List.length_singleton]; omega)) ?_
    rintro _ _ ⟨stats, fs', rfl, rfl, hwalked, hno⟩
    refine ⟨stats, fs', rfl, rfl, hwalked.data_eq, fun q => ?_, fun h => ?_⟩
    · rw [hwalked.lookup_eq q, if_neg (not_covers_nil _)]
    · rw [hno h]
      exact ⟨rfl, rfl⟩
  | false =>
    have hsame := store.recoveredNode_of_noTemps (store.noTemps_of_not_isDir hdir)
    cases hexists : s.fs.pathExists store.objectsDir with
    | true =>
      have hmem : store.objectsDir ∈ s.fs.nodes.keys := by
        obtain ⟨node, hnode⟩ : ∃ node, s.fs.nodes.lookup store.objectsDir = some node := by
          simpa [objectsDir] using Fs.pathExists_iff.mp hexists
        exact Finmap.mem_keys.mpr (Finmap.mem_iff.mpr ⟨node, hnode⟩)
      have hpos := Finset.card_pos.mpr ⟨_, hmem⟩
      refine wp_mono (store.wp_recoverWalk_unreadable order s hdir (by omega)) ?_
      rintro _ _ ⟨errors, rfl, rfl⟩
      exact ⟨_, _, rfl, rfl, rfl, fun q => (hsame q).symm, fun _ => ⟨rfl, rfl⟩⟩
    | false => exact ⟨_, s.fs, rfl, rfl, rfl, fun q => (hsame q).symm, fun _ => ⟨rfl, rfl⟩⟩

end ContentStore

end Landropic.Cas
