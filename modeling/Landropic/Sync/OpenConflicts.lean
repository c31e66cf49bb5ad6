import Landropic.Foundations.Runs
import Landropic.Sync.ConflictDetection

set_option autoImplicit false

/-!
# Open conflicts

A detector returns the conflicts it finds and keeps copies of them. Resolving a conflict changes the
copy that was returned, and a conflict that is not found again stays among those that are kept. So
the conflicts the detector takes for unresolved need not be the open ones.

## Main definitions

* `ConflictDetector.Watched` — a detector, and the open conflicts.
* `ConflictDetector.Exact` — the unresolved conflicts are the open ones.
* `ConflictDetector.InConflict` — a path is in conflict between two manifests.
* `ConflictDetector.Careful` — the calls after which they stay so.

## Main results

* `ConflictDetector.lookup_detectConflicts` — what a detector keeps.
* `ConflictDetector.exact_step_iff` — which calls keep the unresolved conflicts exact.
* `ConflictDetector.exact_run_iff` — the runs in which they always are.
-/

namespace Landropic

namespace ConflictDetector

/-! ## Detectors and what is open -/

/-- A call of a detector. -/
inductive DetectorCall
  | detectConflicts (order : IterOrder Text) (now : Text → DateTime)
      (localManifest remoteManifest : Manifest) (lastSyncTime : Option DateTime)
  | autoResolveConflict (conflict : Conflict)
  | markResolved (filePath : Text)
  | clearResolvedConflicts

/-- A detector, and the conflicts of the latest detection that have not been settled since. -/
structure Watched where
  detector : ConflictDetector
  openConflicts : List Conflict

/-- A detector that has detected nothing. -/
def Watched.new (config : ConflictDetectionConfig) : Watched := ⟨.new config, []⟩

/-- A conflict as it was when it was found. -/
def asFound (conflict : Conflict) : Conflict := { conflict with resolved := false }

/-- A call of a detector. A detection opens the conflicts it finds, and a conflict is settled when
it is resolved other than by hand, or marked as resolved. -/
def step (s : Watched) : DetectorCall → Watched
  | .detectConflicts order now localManifest remoteManifest lastSyncTime =>
    let found := s.detector.detectConflicts order now localManifest remoteManifest lastSyncTime
    ⟨found.2, found.1⟩
  | .autoResolveConflict conflict =>
    ⟨s.detector,
      if (s.detector.autoResolveConflict conflict).1 = .manual then s.openConflicts
      else s.openConflicts.filter fun c => c ≠ asFound conflict⟩
  | .markResolved filePath =>
    ⟨s.detector.markResolved filePath, s.openConflicts.filter fun c => c.filePath ≠ filePath⟩
  | .clearResolvedConflicts => ⟨s.detector.clearResolvedConflicts, s.openConflicts⟩

/-- The call as a step of a transition system; every call is possible. -/
def next (s : Watched) (call : DetectorCall) : Option Watched := some (step s call)

/-- **The unresolved conflicts are exactly the open ones**, in whatever order they are visited. -/
def Exact (s : Watched) : Prop :=
  ∀ order, (s.detector.getUnresolvedConflicts order).Perm s.openConflicts

/-- A path is in conflict: both manifests have the file, with different content and modified on both
sides since the last sync, if there was one; or one of them has it, modified since the last sync. -/
def InConflict (a b : Manifest) (lastSyncTime : Option DateTime) (path : Text) : Prop :=
  (∃ ours theirs, a.fileMap.lookup path = some ours ∧ b.fileMap.lookup path = some theirs ∧
    ours.contentHash ≠ theirs.contentHash ∧
    ∀ t ∈ lastSyncTime, t < ours.modifiedAt ∧ t < theirs.modifiedAt) ∨
  (∃ ours, a.fileMap.lookup path = some ours ∧ b.fileMap.lookup path = none ∧
    ∃ t ∈ lastSyncTime, t < ours.modifiedAt) ∨
  ∃ theirs, a.fileMap.lookup path = none ∧ b.fileMap.lookup path = some theirs ∧
    ∃ t ∈ lastSyncTime, t < theirs.modifiedAt

/-- The calls after which the unresolved conflicts stay exact: a detection finds every file in
conflict again whose conflict is unresolved, and of the open conflicts only those are resolved that
are left to be resolved by hand. -/
def Careful (s : Watched) : DetectorCall → Prop
  | .detectConflicts _ _ localManifest remoteManifest lastSyncTime =>
    ∀ path c, s.detector.detectedConflicts.lookup path = some c → c.resolved = false →
      InConflict localManifest remoteManifest lastSyncTime path
  | .autoResolveConflict conflict =>
    s.detector.config.autoResolve = true → asFound conflict ∈ s.openConflicts →
      conflict.conflictType = .bothModified ∧ s.detector.config.defaultResolution = .manual
  | .markResolved _ => True
  | .clearResolvedConflicts => True

/-! ## What a detector keeps -/

section Detect

variable {order : IterOrder Text} {now : Text → DateTime} {detector : ConflictDetector}
  {a b : Manifest} {lastSyncTime : Option DateTime} {path : Text} {conflict : Conflict}

lemma lookup_keepFound {found : Text → Option Conflict} {paths : List Text} (hnodup : paths.Nodup)
    (map : HashMap Text Conflict) : (keepFound found paths map).lookup path =
      if path ∈ paths then (found path).or (map.lookup path) else map.lookup path := by
  induction paths generalizing map with
  | nil => simp [keepFound]
  | cons other paths ih =>
    obtain ⟨hnotMem, hnodup⟩ := List.nodup_cons.mp hnodup
    rw [keepFound, List.foldl_cons, ← keepFound, ih hnodup]
    by_cases hpath : path = other
    · subst hpath
      rw [if_neg hnotMem, if_pos List.mem_cons_self]
      cases found path with
      | none => rfl
      | some conflict => exact Finmap.lookup_insert _
    · simp only [List.mem_cons, hpath, false_or]
      cases found other with
      | none => rfl
      | some conflict => simp only [Option.elim, Finmap.lookup_insert_of_ne _ hpath]

/-- **A detector keeps what it finds**, and what it has kept of the paths where it finds nothing. -/
lemma lookup_detectConflicts :
    (detectConflicts order now detector a b lastSyncTime).2.detectedConflicts.lookup path =
      (checkFileConflict (now path) path (a.fileMap.lookup path) (b.fileMap.lookup path)
        lastSyncTime).or (detector.detectedConflicts.lookup path) := by
  rw [detectConflicts_eq]
  refine (lookup_keepFound (order.nodup_iter _) _).trans ?_
  split_ifs with hmem
  · rfl
  · -- a path that neither manifest has is not in conflict
    rw [order.mem_iter, Finset.mem_union, Finmap.mem_keys, Finmap.mem_keys, not_or,
      ← Finmap.lookup_eq_none, ← Finmap.lookup_eq_none] at hmem
    rw [hmem.1, hmem.2]
    rfl

lemma config_detectConflicts :
    (detectConflicts order now detector a b lastSyncTime).2.config = detector.config := by
  rw [detectConflicts_eq]

lemma exists_checkFileConflict_iff (time : DateTime) :
    (∃ c, checkFileConflict time path (a.fileMap.lookup path) (b.fileMap.lookup path)
      lastSyncTime = some c) ↔ InConflict a b lastSyncTime path := by
  simp only [checkFileConflict_eq_some_iff, InConflict]
  constructor
  · rintro ⟨c, ⟨ours, theirs, hours, htheirs, hcontent, htime, -⟩ | ⟨ours, hours, hnone, htime, -⟩ |
      ⟨theirs, hnone, htheirs, htime, -⟩⟩
    · exact .inl ⟨ours, theirs, hours, htheirs, hcontent, htime⟩
    · exact .inr (.inl ⟨ours, hours, hnone, htime⟩)
    · exact .inr (.inr ⟨theirs, hnone, htheirs, htime⟩)
  · rintro (⟨ours, theirs, hours, htheirs, hcontent, htime⟩ | ⟨ours, hours, hnone, htime⟩ |
      ⟨theirs, hnone, htheirs, htime⟩)
    · exact ⟨_, .inl ⟨ours, theirs, hours, htheirs, hcontent, htime, rfl⟩⟩
    · exact ⟨_, .inr (.inl ⟨ours, hours, hnone, htime, rfl⟩)⟩
    · exact ⟨_, .inr (.inr ⟨theirs, hnone, htheirs, htime, rfl⟩)⟩

/-- A conflict as detections find it: two versions, or one that is missing on the other side. -/
structure IsFound (conflict : Conflict) : Prop where
  unresolved : conflict.resolved = false
  kind : conflict.conflictType = .deletedModified ∨
    conflict.conflictType = .bothModified ∧ conflict.localEntry.isSome = true ∧
      conflict.remoteEntry.isSome = true

lemma isFound_of_checkFileConflict {time : DateTime} {x y : Option ManifestEntry}
    (h : checkFileConflict time path x y lastSyncTime = some conflict) : IsFound conflict := by
  rcases checkFileConflict_eq_some_iff.mp h with ⟨_, _, -, -, -, -, rfl⟩ | ⟨_, -, -, -, rfl⟩ |
    ⟨_, -, -, -, rfl⟩
  · exact ⟨rfl, .inr ⟨rfl, rfl, rfl⟩⟩
  · exact ⟨rfl, .inl rfl⟩
  · exact ⟨rfl, .inl rfl⟩

lemma nodup_paths_detectConflicts :
    ((detectConflicts order now detector a b lastSyncTime).1.map Conflict.filePath).Nodup := by
  rw [conflicts_detectConflicts]
  refine (order.nodup_iter (a.fileMap.keys ∪ b.fileMap.keys)).sublist ?_
  induction order.iter (a.fileMap.keys ∪ b.fileMap.keys) with
  | nil => simp
  | cons path paths ih =>
    rw [List.filterMap_cons]
    cases hcheck : checkFileConflict (now path) path (a.fileMap.lookup path)
        (b.fileMap.lookup path) lastSyncTime with
    | none => exact ih.cons _
    | some c =>
      rw [List.map_cons, filePath_of_checkFileConflict hcheck]
      exact ih.cons_cons _

lemma IsFound.resolution_eq_manual_iff (h : IsFound conflict) :
    (detector.autoResolveConflict conflict).1 = .manual ↔
      (detector.config.autoResolve = true → conflict.conflictType = .bothModified ∧
        detector.config.defaultResolution = .manual) := by
  obtain ⟨config, detected⟩ := detector
  obtain ⟨filePath, kind, localEntry, remoteEntry, time, resolved⟩ := conflict
  unfold autoResolveConflict
  cases hauto : config.autoResolve with
  | false => simp
  | true =>
    rcases h.kind with htype | ⟨htype, hours, htheirs⟩
    · dsimp only at htype
      subst htype
      by_cases hours : localEntry.isSome = true
      · simp [resolutionOf, hours]
      · simp [resolutionOf, hours]
    · dsimp only at htype hours htheirs
      subst htype
      obtain ⟨ours, rfl⟩ := Option.isSome_iff_exists.mp hours
      obtain ⟨theirs, rfl⟩ := Option.isSome_iff_exists.mp htheirs
      cases hdefault : config.defaultResolution with
      | keepNewer =>
        simp only [resolutionOf, hdefault, Bool.not_true, Bool.false_eq_true, if_false,
          reduceCtorEq, and_false, imp_false, not_true_eq_false, iff_false]
        split_ifs <;> simp
      | keepLocal => simp [resolutionOf, hdefault]
      | keepRemote => simp [resolutionOf, hdefault]
      | manual => simp [resolutionOf, hdefault]

lemma resolution_asFound :
    (detector.autoResolveConflict (asFound conflict)).1 =
      (detector.autoResolveConflict conflict).1 := by
  unfold autoResolveConflict
  split_ifs <;> rfl

end Detect

/-! ## Unresolved conflicts -/

/-- What is kept is kept under its path, and the open conflicts are as they were found, each with a
path of its own. -/
structure Sound (s : Watched) : Prop where
  path : ∀ path c, s.detector.detectedConflicts.lookup path = some c → c.filePath = path
  nodup : (s.openConflicts.map Conflict.filePath).Nodup
  isFound : ∀ c ∈ s.openConflicts, IsFound c

variable {s : Watched} {call : DetectorCall}

lemma mem_getUnresolvedConflicts {detector : ConflictDetector} {order : IterOrder Text}
    {c : Conflict} : c ∈ detector.getUnresolvedConflicts order ↔
      ∃ path, detector.detectedConflicts.lookup path = some c ∧ c.resolved = false := by
  simp only [getUnresolvedConflicts, List.mem_filter, List.mem_map, Prod.exists, exists_eq_right,
    order.mem_entries, Bool.not_eq_true', exists_and_right]

lemma Sound.nodup_getUnresolvedConflicts (h : Sound s) (order : IterOrder Text) :
    (s.detector.getUnresolvedConflicts order).Nodup := by
  refine List.Nodup.filter _ (List.Nodup.map_on ?_
    (List.Nodup.of_map _ (order.nodup_fst_entries _)))
  rintro ⟨path, c⟩ hc ⟨path', c'⟩ hc' heq
  dsimp only at heq
  subst heq
  rw [order.mem_entries] at hc hc'
  rw [Prod.mk.injEq, ← h.path _ _ hc, ← h.path _ _ hc']
  exact ⟨rfl, rfl⟩

lemma Sound.exact_iff (h : Sound s) :
    Exact s ↔ ∀ c, c ∈ s.openConflicts ↔
      ∃ path, s.detector.detectedConflicts.lookup path = some c ∧ c.resolved = false := by
  constructor
  · intro hexact c
    rw [← (hexact (.sorted Text)).mem_iff, mem_getUnresolvedConflicts]
  · intro hmem order
    refine (List.perm_ext_iff_of_nodup (h.nodup_getUnresolvedConflicts order)
      (List.Nodup.of_map _ h.nodup)).mpr fun c => ?_
    rw [mem_getUnresolvedConflicts, hmem]

lemma sound_new (config : ConflictDetectionConfig) : Sound (.new config) :=
  ⟨nofun, List.nodup_nil, nofun⟩

/-- **Every call** leaves what is kept under its path, and open conflicts as they were found. -/
lemma Sound.step (h : Sound s) (call : DetectorCall) : Sound (step s call) := by
  cases call with
  | detectConflicts order now a b lastSyncTime =>
    refine ⟨fun path c hc => ?_, nodup_paths_detectConflicts, fun c hc => ?_⟩
    · simp only [ConflictDetector.step] at hc
      rw [lookup_detectConflicts, Option.or_eq_some_iff] at hc
      rcases hc with hc | ⟨-, hc⟩
      · exact filePath_of_checkFileConflict hc
      · exact h.path path c hc
    · obtain ⟨path, hcheck⟩ := mem_detectConflicts.mp hc
      exact isFound_of_checkFileConflict hcheck
  | autoResolveConflict conflict =>
    simp only [ConflictDetector.step]
    split_ifs
    · exact ⟨h.path, h.nodup, h.isFound⟩
    · exact ⟨h.path, h.nodup.sublist (List.filter_sublist.map _),
        fun c hc => h.isFound c (List.mem_of_mem_filter hc)⟩
  | markResolved filePath =>
    refine ⟨fun path c hc => ?_, h.nodup.sublist (List.filter_sublist.map _),
      fun c hc => h.isFound c (List.mem_of_mem_filter hc)⟩
    simp only [ConflictDetector.step, ConflictDetector.markResolved] at hc
    rw [HashMap.lookup_modify] at hc
    split_ifs at hc
    · obtain ⟨c', hc', rfl⟩ := Option.map_eq_some_iff.mp hc
      exact h.path path c' hc'
    · exact h.path path c hc
  | clearResolvedConflicts =>
    refine ⟨fun path c hc => ?_, h.nodup, h.isFound⟩
    simp only [ConflictDetector.step, ConflictDetector.clearResolvedConflicts] at hc
    rw [HashMap.lookup_retain, Option.filter_eq_some_iff] at hc
    exact h.path path c hc.1

lemma exact_detectConflicts_iff {order : IterOrder Text} {now : Text → DateTime} {a b : Manifest}
    {lastSyncTime : Option DateTime} (h : Sound s) :
    Exact (step s (.detectConflicts order now a b lastSyncTime)) ↔
      Careful s (.detectConflicts order now a b lastSyncTime) := by
  rw [(h.step (.detectConflicts order now a b lastSyncTime)).exact_iff]
  simp only [step, Careful, mem_detectConflicts, lookup_detectConflicts, Option.or_eq_some_iff]
  constructor
  · intro hmem path c hc hopen
    rw [← exists_checkFileConflict_iff (now path)]
    cases hcheck : checkFileConflict (now path) path (a.fileMap.lookup path)
        (b.fileMap.lookup path) lastSyncTime with
    | some found => exact ⟨found, rfl⟩
    | none =>
      -- the conflict is kept, so it was found under its path
      obtain ⟨path', hfound⟩ := (hmem c).mpr ⟨path, .inr ⟨hcheck, hc⟩, hopen⟩
      have hpath := (filePath_of_checkFileConflict hfound).symm.trans (h.path path c hc)
      subst hpath
      rw [hcheck] at hfound
      cases hfound
  · intro hagain c
    constructor
    · rintro ⟨path, hcheck⟩
      exact ⟨path, .inl hcheck, (isFound_of_checkFileConflict hcheck).unresolved⟩
    · rintro ⟨path, hcheck | ⟨hnone, hc⟩, hopen⟩
      · exact ⟨path, hcheck⟩
      · obtain ⟨found, hfound⟩ := (exists_checkFileConflict_iff (now path)).mpr
          (hagain path c hc hopen)
        rw [hnone] at hfound
        cases hfound

lemma exact_autoResolveConflict_iff {conflict : Conflict} (h : Sound s) (hexact : Exact s) :
    Exact (step s (.autoResolveConflict conflict)) ↔ Careful s (.autoResolveConflict conflict) := by
  have hresolution : asFound conflict ∈ s.openConflicts →
      ((s.detector.autoResolveConflict conflict).1 = .manual ↔
        (s.detector.config.autoResolve = true → conflict.conflictType = .bothModified ∧
          s.detector.config.defaultResolution = .manual)) := by
    intro hmem
    rw [← resolution_asFound]
    exact (h.isFound _ hmem).resolution_eq_manual_iff
  simp only [step, Careful]
  by_cases hmanual : (s.detector.autoResolveConflict conflict).1 = .manual
  · rw [if_pos hmanual]
    exact iff_of_true hexact fun hauto hmem => (hresolution hmem).mp hmanual hauto
  · rw [if_neg hmanual]
    constructor
    · intro hafter hauto hmem
      -- the conflict is settled, and still kept as unresolved
      have hlist := (hafter (.sorted Text)).mem_iff.mp ((hexact (.sorted Text)).mem_iff.mpr hmem)
      simp at hlist
    · intro hcareful order
      have hnot : asFound conflict ∉ s.openConflicts := fun hmem =>
        hmanual ((hresolution hmem).mpr fun hauto => hcareful hauto hmem)
      have hall : s.openConflicts.filter (fun c => c ≠ asFound conflict) = s.openConflicts := by
        refine List.filter_eq_self.mpr fun c hc => decide_eq_true ?_
        rintro rfl
        exact hnot hc
      simp only [hall]
      exact hexact order

lemma Exact.markResolved (hexact : Exact s) (h : Sound s) (filePath : Text) :
    Exact (step s (.markResolved filePath)) := by
  rw [h.exact_iff] at hexact
  rw [(h.step (.markResolved filePath)).exact_iff]
  intro c
  simp only [step, ConflictDetector.markResolved, List.mem_filter, hexact,
    decide_eq_true_eq]
  constructor
  · rintro ⟨⟨path, hc, hopen⟩, hne⟩
    refine ⟨path, ?_, hopen⟩
    have hpath : path ≠ filePath := fun heq => hne ((h.path path c hc).trans heq)
    rw [HashMap.lookup_modify, if_neg hpath, hc]
  · rintro ⟨path, hc, hopen⟩
    rw [HashMap.lookup_modify] at hc
    split_ifs at hc with hpath
    · obtain ⟨c', -, rfl⟩ := Option.map_eq_some_iff.mp hc
      cases hopen
    · exact ⟨⟨path, hc, hopen⟩, fun heq => hpath ((h.path path c hc).symm.trans heq)⟩

lemma Exact.clearResolvedConflicts (hexact : Exact s) (h : Sound s) :
    Exact (step s .clearResolvedConflicts) := by
  rw [h.exact_iff] at hexact
  rw [(h.step .clearResolvedConflicts).exact_iff]
  intro c
  simp only [step, ConflictDetector.clearResolvedConflicts, HashMap.lookup_retain,
    Option.filter_eq_some_iff, Bool.not_eq_true', hexact]
  exact exists_congr fun path => ⟨fun hc => ⟨⟨hc.1, hc.2⟩, hc.2⟩, fun hc => hc.1⟩

/-- **The calls that keep the unresolved conflicts exact**, where they are.

**Proof sketch.** A detection replaces what is kept of the paths it finds in conflict only, and
resolving a conflict changes nothing that is kept. -/
theorem exact_step_iff (h : Sound s) (hexact : Exact s) : Exact (step s call) ↔ Careful s call := by
  cases call with
  | detectConflicts order now a b lastSyncTime => exact exact_detectConflicts_iff h
  | autoResolveConflict conflict => exact exact_autoResolveConflict_iff h hexact
  | markResolved filePath => exact iff_of_true (hexact.markResolved h filePath) trivial
  | clearResolvedConflicts => exact iff_of_true (hexact.clearResolvedConflicts h) trivial

lemma exact_new (config : ConflictDetectionConfig) : Exact (.new config) := by
  rw [(sound_new config).exact_iff]
  intro c
  exact iff_of_false List.not_mem_nil fun ⟨_, hc, _⟩ => by cases hc

/-- **The runs in which the unresolved conflicts are always the open ones** are those of careful
calls: each detection finds every file in conflict again whose conflict is unresolved, and no open
conflict is resolved other than by hand.

**Proof sketch.** As long as the calls are careful the unresolved conflicts are exact, and where
they are exact only careful calls keep them so. -/
theorem exact_run_iff (config : ConflictDetectionConfig) (s : Watched) :
    (Runs.Run next (fun s call => Exact (step s call)) (.new config) s ↔
      Runs.Run next Careful (.new config) s) ∧
    (Runs.Run next Careful (.new config) s → Exact s) := by
  have hiff : (Runs.Run next (fun s call => Exact (step s call)) (.new config) s ↔
      Runs.Run next Careful (.new config) s) ∧
      (Runs.Run next Careful (.new config) s → Sound s ∧ Exact s) :=
    Runs.run_iff_run (I := fun s => Sound s ∧ Exact s) ⟨sound_new config, exact_new config⟩
      (fun hI => exact_step_iff hI.1 hI.2) fun {s₁ call s₂} hI hC hnext => by
        obtain rfl := Option.some.inj hnext
        exact ⟨hI.1.step call, hC⟩
  exact ⟨hiff.1, fun hrun => (hiff.2 hrun).2⟩

section Examples

/-- A version of the file `a`. -/
private def editOf (contentHash : Text) (seconds : ℤ) : ManifestEntry :=
  ⟨"a".toList, 1, ⟨seconds, 0⟩, contentHash, [contentHash], none⟩

/-- A folder with one version of the file `a`. -/
private def folderWith (file : ManifestEntry) : Manifest :=
  ⟨"folder".toList, 1, [file], ⟨0, 0⟩, none⟩

/-- Both devices have edited the file `a`. -/
private def detectEdits : DetectorCall :=
  .detectConflicts (.sorted Text) (fun _ => ⟨9, 0⟩) (folderWith (editOf "01".toList 5))
    (folderWith (editOf "02".toList 6)) none

/-- The conflict that is found. -/
private def editConflict : Conflict :=
  ⟨"a".toList, .bothModified, some (editOf "01".toList 5), some (editOf "02".toList 6), ⟨9, 0⟩,
    false⟩

/-- **A conflict that is resolved automatically stays unresolved** for the detector. -/
theorem not_forall_exact :
    ¬ ∀ (config : ConflictDetectionConfig) (s : Watched),
      Runs.Run next (fun _ _ => True) (.new config) s → Exact s := by
  intro hall
  have hlookup : ∀ file : ManifestEntry, file.path = "a".toList →
      (folderWith file).fileMap.lookup "a".toList = some file := by
    intro file hpath
    rw [← hpath]
    exact Finmap.lookup_insert ∅
  have hfound : editConflict ∈ (step (.new .default) detectEdits).openConflicts :=
    mem_detectConflicts.mpr ⟨"a".toList, checkFileConflict_eq_some_iff.mpr (.inl
      ⟨_, _, hlookup _ rfl, hlookup _ rfl, by decide, by simp, rfl⟩)⟩
  have hrun : Runs.Run next (fun _ _ => True) (.new .default)
      (step (step (.new .default) detectEdits) (.autoResolveConflict editConflict)) :=
    .tail (.single ⟨detectEdits, trivial, rfl⟩) ⟨_, trivial, rfl⟩
  have hexact : Exact (step (.new .default) detectEdits) :=
    hall _ _ (.single ⟨detectEdits, trivial, rfl⟩)
  have hconfig : (step (.new .default) detectEdits).detector.config = .default :=
    config_detectConflicts
  have hcareful := (exact_step_iff ((sound_new .default).step _) hexact).mp (hall _ _ hrun)
  simp only [Careful, hconfig] at hcareful
  exact absurd (hcareful rfl hfound).2 (by decide)

end Examples

end ConflictDetector

end Landropic
