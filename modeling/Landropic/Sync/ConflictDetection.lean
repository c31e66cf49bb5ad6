import Landropic.Index.Manifest

set_option autoImplicit false

/-!
# Conflicts between manifests

Two devices compare their manifests, each with its own in the place of the local one, and look for
files that both have changed since they last synchronized. There is no record of the files at that
time: what changed is taken from the times of modification and from which of the two manifests have
the file.

## Main definitions

* `Conflict`, `ConflictDetector` — conflicts, and what detects them.
* `ConflictDetector.detectConflicts` — the conflicts between two manifests.
* `ConflictDetector.autoResolveConflict` — which version is kept.
* `ConflictDetector.Since` — the manifests that come from a base by changes after a time.

## Main results

* `ConflictDetector.conflicts_mirror` — both devices find the same conflicts, and keep the same
  version unless they changed a file at the same time.
* `ConflictDetector.exists_conflict_iff` — which files are reported.
* `ConflictDetector.conflicts_exact_iff` — when these are the files both devices changed.
-/

namespace Landropic

namespace DateTime

/-- Points in time are ordered by their seconds, and then by their nanoseconds. -/
instance : LT DateTime :=
  ⟨fun a b => a.timestamp < b.timestamp ∨ a.timestamp = b.timestamp ∧ a.nanos < b.nanos⟩

lemma lt_iff {a b : DateTime} :
    a < b ↔ a.timestamp < b.timestamp ∨ a.timestamp = b.timestamp ∧ a.nanos < b.nanos := Iff.rfl

instance (a b : DateTime) : Decidable (a < b) :=
  inferInstanceAs (Decidable (_ ∨ _))

lemma lt_or_eq_or_lt (a b : DateTime) : a < b ∨ a = b ∨ b < a := by
  obtain ⟨s, n⟩ := a
  obtain ⟨s', n'⟩ := b
  simp only [lt_iff, mk.injEq]
  omega

lemma lt_asymm {a b : DateTime} (h : a < b) : ¬ b < a := by
  rw [lt_iff] at *
  omega

lemma lt_irrefl (a : DateTime) : ¬ a < a := fun h => lt_asymm h h

end DateTime

/-- Types of conflicts that can occur during sync. -/
inductive ConflictType
  /-- File modified on both sides. -/
  | bothModified
  /-- File deleted on one side, modified on other. -/
  | deletedModified
  /-- File created on both sides with same name but different content. -/
  | createCreate
  deriving DecidableEq

/-- Information about a detected conflict. -/
structure Conflict where
  filePath : Text
  conflictType : ConflictType
  localEntry : Option ManifestEntry
  remoteEntry : Option ManifestEntry
  detectedAt : DateTime
  resolved : Bool
  deriving DecidableEq

/-- Resolution strategies for conflicts. -/
inductive ConflictResolution
  /-- Keep the local version. -/
  | keepLocal
  /-- Keep the remote version. -/
  | keepRemote
  /-- Keep the newer version based on modification time. -/
  | keepNewer
  /-- Manual resolution required. -/
  | manual
  deriving DecidableEq

/-- The version that a resolution keeps. -/
def ConflictResolution.kept (resolution : ConflictResolution) (conflict : Conflict) :
    Option ManifestEntry :=
  match resolution with
  | .keepLocal => conflict.localEntry
  | .keepRemote => conflict.remoteEntry
  | .keepNewer | .manual => none

/-- Configuration for conflict detection. -/
structure ConflictDetectionConfig where
  /-- Resolution strategy to use. -/
  defaultResolution : ConflictResolution
  /-- Whether to auto-resolve conflicts. -/
  autoResolve : Bool
  deriving DecidableEq

def ConflictDetectionConfig.default : ConflictDetectionConfig :=
  { defaultResolution := .keepNewer, autoResolve := true }

/-- Basic conflict detector. -/
structure ConflictDetector where
  config : ConflictDetectionConfig
  detectedConflicts : HashMap Text Conflict

namespace ConflictDetector

/-- Create new conflict detector. -/
def new (config : ConflictDetectionConfig) : ConflictDetector :=
  { config := config, detectedConflicts := ∅ }

/-- Check for conflict on a specific file. -/
def checkFileConflict (now : DateTime) (path : Text) (localEntry remoteEntry : Option ManifestEntry)
    (lastSyncTime : Option DateTime) : Option Conflict :=
  match localEntry, remoteEntry with
  -- file exists on both sides
  | some ours, some theirs =>
    if ours.contentHash ≠ theirs.contentHash then
      match lastSyncTime with
      | some lastSync =>
        if lastSync < ours.modifiedAt ∧ lastSync < theirs.modifiedAt then
          some ⟨path, .bothModified, some ours, some theirs, now, false⟩
        else none
      -- no last sync time: assume both modified
      | none => some ⟨path, .bothModified, some ours, some theirs, now, false⟩
    else none
  -- file exists only locally
  | some ours, none =>
    match lastSyncTime with
    | some lastSync =>
      if lastSync < ours.modifiedAt then
        some ⟨path, .deletedModified, some ours, none, now, false⟩
      else none
    | none => none
  -- file exists only remotely
  | none, some theirs =>
    match lastSyncTime with
    | some lastSync =>
      if lastSync < theirs.modifiedAt then
        some ⟨path, .deletedModified, none, some theirs, now, false⟩
      else none
    | none => none
  | none, none => none

/-- Detect conflicts between local and remote manifests. The order is that in which the set of all
paths is visited, and each path has its own time of detection. -/
def detectConflicts (order : IterOrder Text) (now : Text → DateTime) (detector : ConflictDetector)
    (localManifest remoteManifest : Manifest) (lastSyncTime : Option DateTime) :
    List Conflict × ConflictDetector :=
  let localFiles := localManifest.fileMap
  let remoteFiles := remoteManifest.fileMap
  let allPaths := order.iter (localFiles.keys ∪ remoteFiles.keys)
  allPaths.foldl (fun (conflicts, detector) path =>
    match checkFileConflict (now path) path (localFiles.lookup path) (remoteFiles.lookup path)
        lastSyncTime with
    | some conflict =>
      (conflicts ++ [conflict],
        { detector with detectedConflicts := detector.detectedConflicts.insert path conflict })
    | none => (conflicts, detector)) ([], detector)

/-- The resolution of a conflict. -/
def resolutionOf (config : ConflictDetectionConfig) (conflict : Conflict) : ConflictResolution :=
  match conflict.conflictType with
  | .bothModified =>
    match conflict.localEntry, conflict.remoteEntry with
    | some ours, some theirs =>
      match config.defaultResolution with
      | .keepNewer =>
        if theirs.modifiedAt < ours.modifiedAt then .keepLocal
        else if ours.modifiedAt < theirs.modifiedAt then .keepRemote
        -- same modification time: fall back to keep local
        else .keepLocal
      | other => other
    | _, _ => .manual
  | .deletedModified =>
    -- always keep the existing file over deletion
    if conflict.localEntry.isSome then .keepLocal else .keepRemote
  | .createCreate => config.defaultResolution

/-- Attempt to auto-resolve a conflict. -/
def autoResolveConflict (detector : ConflictDetector) (conflict : Conflict) :
    ConflictResolution × Conflict :=
  if !detector.config.autoResolve then (.manual, conflict)
  else
    let resolution := resolutionOf detector.config conflict
    (resolution, { conflict with resolved := decide (resolution ≠ .manual) })

/-- Get unresolved conflicts, in the order in which the map is visited. -/
def getUnresolvedConflicts (order : IterOrder Text) (detector : ConflictDetector) :
    List Conflict :=
  ((order.entries detector.detectedConflicts).map Prod.snd).filter fun c => !c.resolved

/-- Mark a conflict as resolved. -/
def markResolved (detector : ConflictDetector) (filePath : Text) : ConflictDetector :=
  { detector with
    detectedConflicts := detector.detectedConflicts.modify filePath fun c =>
      { c with resolved := true } }

/-- Clear all resolved conflicts. -/
def clearResolvedConflicts (detector : ConflictDetector) : ConflictDetector :=
  { detector with detectedConflicts := detector.detectedConflicts.retain fun _ c => !c.resolved }

/-- The version that a device keeps of a file it found in conflict. -/
def keptVersion (detector : ConflictDetector) (conflict : Conflict) : Option ManifestEntry :=
  (detector.autoResolveConflict conflict).1.kept conflict

section Detect

variable {order : IterOrder Text} {now : Text → DateTime} {detector : ConflictDetector}
  {localManifest remoteManifest : Manifest} {lastSyncTime : Option DateTime} {conflict : Conflict}

/-- **Which files are in conflict**: those with different content on both sides that were modified
on both, and those that were modified on one side and are missing on the other. -/
lemma checkFileConflict_eq_some_iff {time : DateTime} {path : Text}
    {localEntry remoteEntry : Option ManifestEntry} :
    checkFileConflict time path localEntry remoteEntry lastSyncTime = some conflict ↔
      (∃ ours theirs, localEntry = some ours ∧ remoteEntry = some theirs ∧
        ours.contentHash ≠ theirs.contentHash ∧
        (∀ t ∈ lastSyncTime, t < ours.modifiedAt ∧ t < theirs.modifiedAt) ∧
        conflict = ⟨path, .bothModified, some ours, some theirs, time, false⟩) ∨
      (∃ ours, localEntry = some ours ∧ remoteEntry = none ∧
        (∃ t ∈ lastSyncTime, t < ours.modifiedAt) ∧
        conflict = ⟨path, .deletedModified, some ours, none, time, false⟩) ∨
      ∃ theirs, localEntry = none ∧ remoteEntry = some theirs ∧
        (∃ t ∈ lastSyncTime, t < theirs.modifiedAt) ∧
        conflict = ⟨path, .deletedModified, none, some theirs, time, false⟩ := by
  unfold checkFileConflict
  cases localEntry with
  | none =>
    cases remoteEntry with
    | none => simp
    | some theirs =>
      cases lastSyncTime with
      | none => simp
      | some t => by_cases h : t < theirs.modifiedAt <;> simp [h, eq_comm]
  | some ours =>
    cases remoteEntry with
    | none =>
      cases lastSyncTime with
      | none => simp
      | some t => by_cases h : t < ours.modifiedAt <;> simp [h, eq_comm]
    | some theirs =>
      by_cases hcontent : ours.contentHash = theirs.contentHash
      · simp [hcontent]
      · cases lastSyncTime with
        | none => simp [hcontent, eq_comm]
        | some t =>
          by_cases h : t < ours.modifiedAt ∧ t < theirs.modifiedAt <;> simp [hcontent, h, eq_comm]

lemma filePath_of_checkFileConflict {time : DateTime} {path : Text}
    {localEntry remoteEntry : Option ManifestEntry}
    (h : checkFileConflict time path localEntry remoteEntry lastSyncTime = some conflict) :
    conflict.filePath = path := by
  rcases checkFileConflict_eq_some_iff.mp h with ⟨_, _, -, -, -, -, rfl⟩ | ⟨_, -, -, -, rfl⟩ |
    ⟨_, -, -, -, rfl⟩ <;> rfl

/-- The map after the conflicts at some paths are kept in it. -/
def keepFound (found : Text → Option Conflict) (paths : List Text)
    (map : HashMap Text Conflict) : HashMap Text Conflict :=
  paths.foldl (fun map path => (found path).elim map (map.insert path)) map

/-- A loop that looks for conflicts returns what it finds, and keeps it. -/
lemma foldl_found (found : Text → Option Conflict) (paths : List Text)
    (acc : List Conflict × ConflictDetector) :
    paths.foldl (fun (conflicts, detector) path =>
      match found path with
      | some conflict =>
        (conflicts ++ [conflict],
          { detector with detectedConflicts := detector.detectedConflicts.insert path conflict })
      | none => (conflicts, detector)) acc =
    (acc.1 ++ paths.filterMap found,
      { acc.2 with detectedConflicts := keepFound found paths acc.2.detectedConflicts }) := by
  induction paths generalizing acc with
  | nil => simp [keepFound]
  | cons path paths ih =>
    rw [List.foldl_cons, ih, List.filterMap_cons]
    cases hfound : found path with
    | none => simp [keepFound, hfound]
    | some conflict => simp [keepFound, hfound]

/-- **A detection** returns the conflicts at the paths of both manifests, and keeps them. -/
lemma detectConflicts_eq :
    detectConflicts order now detector localManifest remoteManifest lastSyncTime =
      let found := fun path => checkFileConflict (now path) path
        (localManifest.fileMap.lookup path) (remoteManifest.fileMap.lookup path) lastSyncTime
      let paths := order.iter (localManifest.fileMap.keys ∪ remoteManifest.fileMap.keys)
      (paths.filterMap found,
        { detector with
          detectedConflicts := keepFound found paths detector.detectedConflicts }) :=
  foldl_found _ _ _

/-- The conflicts are those of the paths, in their order. -/
lemma conflicts_detectConflicts :
    (detectConflicts order now detector localManifest remoteManifest lastSyncTime).1 =
      (order.iter (localManifest.fileMap.keys ∪ remoteManifest.fileMap.keys)).filterMap fun path =>
        checkFileConflict (now path) path (localManifest.fileMap.lookup path)
          (remoteManifest.fileMap.lookup path) lastSyncTime := by
  rw [detectConflicts_eq]

lemma mem_detectConflicts :
    conflict ∈ (detectConflicts order now detector localManifest remoteManifest lastSyncTime).1 ↔
      ∃ path, checkFileConflict (now path) path (localManifest.fileMap.lookup path)
        (remoteManifest.fileMap.lookup path) lastSyncTime = some conflict := by
  rw [conflicts_detectConflicts, List.mem_filterMap]
  refine exists_congr fun path => and_iff_right_of_imp fun h => ?_
  rw [order.mem_iter, Finset.mem_union, Finmap.mem_keys, Finmap.mem_keys]
  by_contra hnone
  rw [not_or, ← Finmap.lookup_eq_none, ← Finmap.lookup_eq_none] at hnone
  rw [hnone.1, hnone.2] at h
  cases h

end Detect

/-! ## Two devices -/

section Mirror

variable {order order' : IterOrder Text} {now now' : Text → DateTime}
  {detected detected' : HashMap Text Conflict} {a b : Manifest} {lastSyncTime : Option DateTime}

/-- Both sides have the file, with the same time of modification. -/
def SameTime (conflict : Conflict) : Prop :=
  ∃ ours theirs, conflict.localEntry = some ours ∧ conflict.remoteEntry = some theirs ∧
    ours.modifiedAt = theirs.modifiedAt

/-- The conflict as the other device sees it. -/
def mirror (time : DateTime) (conflict : Conflict) : Conflict :=
  { conflict with
    localEntry := conflict.remoteEntry
    remoteEntry := conflict.localEntry
    detectedAt := time }

lemma checkFileConflict_mirror {time time' : DateTime} {path : Text} {x y : Option ManifestEntry}
    {conflict : Conflict} (h : checkFileConflict time path x y lastSyncTime = some conflict) :
    checkFileConflict time' path y x lastSyncTime = some (mirror time' conflict) := by
  rw [checkFileConflict_eq_some_iff] at h ⊢
  rcases h with ⟨ours, theirs, rfl, rfl, hcontent, htime, rfl⟩ | ⟨ours, rfl, rfl, htime, rfl⟩ |
    ⟨theirs, rfl, rfl, htime, rfl⟩
  · exact .inl ⟨theirs, ours, rfl, rfl, hcontent.symm, fun t ht => (htime t ht).symm, rfl⟩
  · exact .inr (.inr ⟨ours, rfl, rfl, htime, rfl⟩)
  · exact .inr (.inl ⟨theirs, rfl, rfl, htime, rfl⟩)

/-- Of a conflict both devices keep the same version, unless each keeps the one it has. -/
lemma keptVersion_mirror {time time' : DateTime} {path : Text} {x y : Option ManifestEntry}
    {conflict : Conflict} (h : checkFileConflict time path x y lastSyncTime = some conflict) :
    (¬ SameTime conflict → ∃ e, keptVersion ⟨.default, detected⟩ conflict = some e ∧
      keptVersion ⟨.default, detected'⟩ (mirror time' conflict) = some e) ∧
    (SameTime conflict → ∃ e e', x = some e ∧ y = some e' ∧ e.contentHash ≠ e'.contentHash ∧
      conflict.localEntry = some e ∧ keptVersion ⟨.default, detected⟩ conflict = some e ∧
      (mirror time' conflict).localEntry = some e' ∧
      keptVersion ⟨.default, detected'⟩ (mirror time' conflict) = some e') := by
  rcases checkFileConflict_eq_some_iff.mp h with ⟨ours, theirs, rfl, rfl, hcontent, -, rfl⟩ |
    ⟨ours, rfl, rfl, -, rfl⟩ | ⟨theirs, rfl, rfl, -, rfl⟩
  · have hsame : SameTime ⟨path, .bothModified, some ours, some theirs, time, false⟩ ↔
        ours.modifiedAt = theirs.modifiedAt := by
      simp [SameTime]
    rw [hsame]
    rcases DateTime.lt_or_eq_or_lt ours.modifiedAt theirs.modifiedAt with hlt | heq | hlt
    · refine ⟨fun _ => ⟨theirs, ?_, ?_⟩, fun heq => absurd (heq ▸ hlt) (DateTime.lt_irrefl _)⟩
      · simp [keptVersion, autoResolveConflict, resolutionOf, ConflictDetectionConfig.default, hlt,
          DateTime.lt_asymm hlt, ConflictResolution.kept]
      · simp [keptVersion, autoResolveConflict, resolutionOf, ConflictDetectionConfig.default, hlt,
          ConflictResolution.kept, mirror]
    · refine ⟨fun hne => absurd heq hne,
        fun _ => ⟨ours, theirs, rfl, rfl, hcontent, rfl, ?_, rfl, ?_⟩⟩
      · simp [keptVersion, autoResolveConflict, resolutionOf, ConflictDetectionConfig.default, heq,
          DateTime.lt_irrefl, ConflictResolution.kept]
      · simp [keptVersion, autoResolveConflict, resolutionOf, ConflictDetectionConfig.default, heq,
          DateTime.lt_irrefl, ConflictResolution.kept, mirror]
    · refine ⟨fun _ => ⟨ours, ?_, ?_⟩, fun heq => absurd (heq ▸ hlt) (DateTime.lt_irrefl _)⟩
      · simp [keptVersion, autoResolveConflict, resolutionOf, ConflictDetectionConfig.default, hlt,
          ConflictResolution.kept]
      · simp [keptVersion, autoResolveConflict, resolutionOf, ConflictDetectionConfig.default, hlt,
          DateTime.lt_asymm hlt, ConflictResolution.kept, mirror]
  · exact ⟨fun _ => ⟨ours, rfl, rfl⟩, fun h => by simp [SameTime] at h⟩
  · exact ⟨fun _ => ⟨theirs, rfl, rfl⟩, fun h => by simp [SameTime] at h⟩

/-- The other device finds the same conflicts. -/
lemma exists_conflict_mirror {detector detector' : ConflictDetector} {path : Text}
    {type : ConflictType}
    (h : ∃ c ∈ (detectConflicts order now detector a b lastSyncTime).1,
      c.filePath = path ∧ c.conflictType = type) :
    ∃ c ∈ (detectConflicts order' now' detector' b a lastSyncTime).1,
      c.filePath = path ∧ c.conflictType = type := by
  obtain ⟨c, hc, rfl, rfl⟩ := h
  obtain ⟨path, hcheck⟩ := mem_detectConflicts.mp hc
  exact ⟨_, mem_detectConflicts.mpr ⟨path, checkFileConflict_mirror hcheck⟩, rfl, rfl⟩

variable (order order' now now' detected detected' a b lastSyncTime) in
/-- **Both devices find the same conflicts, and keep the same version of a file** unless both have
it with the same time of modification; then each device keeps its own.

**Proof sketch.** The conditions for a conflict do not depend on which side is the local one. The
newer of two versions and the only version of a file are the same on both devices, while a tie is
decided for the local version. -/
theorem conflicts_mirror :
    (∀ path type,
      (∃ c ∈ (detectConflicts order now ⟨.default, detected⟩ a b lastSyncTime).1,
        c.filePath = path ∧ c.conflictType = type) ↔
      ∃ c ∈ (detectConflicts order' now' ⟨.default, detected'⟩ b a lastSyncTime).1,
        c.filePath = path ∧ c.conflictType = type) ∧
    ∀ c ∈ (detectConflicts order now ⟨.default, detected⟩ a b lastSyncTime).1,
      ∀ c' ∈ (detectConflicts order' now' ⟨.default, detected'⟩ b a lastSyncTime).1,
        c.filePath = c'.filePath →
        (¬ SameTime c → ∃ e, keptVersion ⟨.default, detected⟩ c = some e ∧
          keptVersion ⟨.default, detected'⟩ c' = some e) ∧
        (SameTime c → ∃ e e', a.fileMap.lookup c.filePath = some e ∧
          b.fileMap.lookup c.filePath = some e' ∧ e.contentHash ≠ e'.contentHash ∧
          c.localEntry = some e ∧ keptVersion ⟨.default, detected⟩ c = some e ∧
          c'.localEntry = some e' ∧ keptVersion ⟨.default, detected'⟩ c' = some e') := by
  refine ⟨fun path type => ⟨exists_conflict_mirror, exists_conflict_mirror⟩,
    fun c hc c' hc' hpath => ?_⟩
  obtain ⟨path, hcheck⟩ := mem_detectConflicts.mp hc
  obtain ⟨path', hcheck'⟩ := mem_detectConflicts.mp hc'
  have hown := filePath_of_checkFileConflict hcheck
  rw [hown, filePath_of_checkFileConflict hcheck'] at hpath
  subst hpath
  obtain rfl : mirror (now' path) c = c' :=
    Option.some.inj ((checkFileConflict_mirror hcheck).symm.trans hcheck')
  rw [hown]
  exact keptVersion_mirror hcheck

end Mirror

/-! ## Three-way comparison -/

section Exact

variable {t : DateTime} {base a b m : Manifest} {path : Text} {e : ManifestEntry}

/-- All files of a manifest are from a time or earlier. -/
def HeldAt (t : DateTime) (m : Manifest) : Prop :=
  ∀ path e, m.fileMap.lookup path = some e → ¬ t < e.modifiedAt

/-- A manifest comes from a base by changes after a time: every file is one of the base, or was
modified later. Files of the base may be missing. -/
def Since (t : DateTime) (base m : Manifest) : Prop :=
  ∀ path e, m.fileMap.lookup path = some e →
    base.fileMap.lookup path = some e ∨ t < e.modifiedAt

/-- A file was edited, created or deleted. -/
def ChangedAt (base m : Manifest) (path : Text) : Prop :=
  m.fileMap.lookup path ≠ base.fileMap.lookup path

/-- Both sides changed a file, with different results. -/
def Diverged (base a b : Manifest) (path : Text) : Prop :=
  ChangedAt base a path ∧ ChangedAt base b path ∧
    (a.fileMap.lookup path).map ManifestEntry.contentHash ≠
      (b.fileMap.lookup path).map ManifestEntry.contentHash

/-- A file was created on one side only. -/
def CreatedOnce (base a b : Manifest) (path : Text) : Prop :=
  base.fileMap.lookup path = none ∧
    (a.fileMap.lookup path).isSome ≠ (b.fileMap.lookup path).isSome

lemma changedAt_iff (hbase : HeldAt t base) (hm : Since t base m)
    (hlookup : m.fileMap.lookup path = some e) : ChangedAt base m path ↔ t < e.modifiedAt := by
  rw [ChangedAt, hlookup]
  constructor
  · intro hne
    exact (hm path e hlookup).resolve_left fun h => hne h.symm
  · intro hlt heq
    exact hbase path e heq.symm hlt

/-- **Which files are reported**: those that both sides changed with different results, and those
created on one side only.

**Proof sketch.** A file that both sides have was changed by a side if its time of modification is
later than the base. A file that one side has and that was modified later is taken for one that the
other side deleted, even if the other side never had it. -/
theorem exists_conflict_iff {order : IterOrder Text} {now : Text → DateTime}
    {detector : ConflictDetector} (hbase : HeldAt t base) (ha : Since t base a)
    (hb : Since t base b) (path : Text) :
    (∃ c ∈ (detectConflicts order now detector a b (some t)).1, c.filePath = path) ↔
      Diverged base a b path ∨ CreatedOnce base a b path := by
  have hfound : (∃ c ∈ (detectConflicts order now detector a b (some t)).1, c.filePath = path) ↔
      ∃ c, checkFileConflict (now path) path (a.fileMap.lookup path) (b.fileMap.lookup path)
        (some t) = some c := by
    constructor
    · rintro ⟨c, hc, rfl⟩
      obtain ⟨path, hcheck⟩ := mem_detectConflicts.mp hc
      rw [filePath_of_checkFileConflict hcheck]
      exact ⟨c, hcheck⟩
    · rintro ⟨c, hcheck⟩
      exact ⟨c, mem_detectConflicts.mpr ⟨path, hcheck⟩, filePath_of_checkFileConflict hcheck⟩
  rw [hfound]
  simp only [checkFileConflict_eq_some_iff, Option.mem_def, Option.some.injEq, forall_eq',
    exists_eq_left', Diverged, CreatedOnce]
  cases hours : a.fileMap.lookup path with
  | none =>
    cases htheirs : b.fileMap.lookup path with
    | none => simp
    | some theirs =>
      have hchanged := changedAt_iff hbase hb htheirs
      have hnew : base.fileMap.lookup path = none → t < theirs.modifiedAt := fun hnone =>
        hchanged.mp (by simp [ChangedAt, htheirs, hnone])
      rw [hchanged, ChangedAt, hours]
      cases hold : base.fileMap.lookup path with
      | none => simp [hnew hold]
      | some old => simp
  | some ours =>
    have hchanged := changedAt_iff hbase ha hours
    cases htheirs : b.fileMap.lookup path with
    | none =>
      have hnew : base.fileMap.lookup path = none → t < ours.modifiedAt := fun hnone =>
        hchanged.mp (by simp [ChangedAt, hours, hnone])
      rw [hchanged, ChangedAt, htheirs]
      cases hold : base.fileMap.lookup path with
      | none => simp [hnew hold]
      | some old => simp
    | some theirs =>
      rw [hchanged, changedAt_iff hbase hb htheirs]
      simp [and_comm, and_left_comm]

lemma not_diverged_of_createdOnce (h : CreatedOnce base a b path) : ¬ Diverged base a b path := by
  rintro ⟨ha, hb, -⟩
  rw [ChangedAt, h.1] at ha hb
  exact h.2 ((Option.isSome_iff_ne_none.mpr ha).trans (Option.isSome_iff_ne_none.mpr hb).symm)

variable (a b) in
/-- **The reported files are those that both sides changed with different results, exactly if no
file was created on one side only.** -/
theorem conflicts_exact_iff (order : IterOrder Text) (now : Text → DateTime)
    (detector : ConflictDetector) (hbase : HeldAt t base) (ha : Since t base a)
    (hb : Since t base b) :
    (∀ path, (∃ c ∈ (detectConflicts order now detector a b (some t)).1, c.filePath = path) ↔
      Diverged base a b path) ↔ ∀ path, ¬ CreatedOnce base a b path := by
  refine forall_congr' fun path => ?_
  rw [exists_conflict_iff hbase ha hb]
  constructor
  · intro h hcreated
    exact not_diverged_of_createdOnce hcreated (h.mp (.inr hcreated))
  · intro h
    exact or_iff_left h

end Exact

section Examples

/-- A version of the file `a`. -/
private def versionOf (contentHash : Text) (seconds : ℤ) : ManifestEntry :=
  { path := "a".toList
    size := 1
    modifiedAt := ⟨seconds, 0⟩
    contentHash := contentHash
    chunkHashes := [contentHash]
    mode := some 420 }

/-- A folder with some files. -/
private def folderOf (files : List ManifestEntry) : Manifest :=
  { folderId := "folder".toList
    version := 1
    files := files
    createdAt := ⟨0, 0⟩
    manifestHash := none }

private lemma mem_of_lookup_folderOf {files : List ManifestEntry} {path : Text} {e : ManifestEntry}
    (h : (folderOf files).fileMap.lookup path = some e) : e ∈ files :=
  (Manifest.path_of_lookup_fileMap h).1

/-- The conflict of two versions of a file. -/
private def conflictOf (ours theirs : ManifestEntry) : Conflict :=
  ⟨"a".toList, .bothModified, some ours, some theirs, ⟨9, 0⟩, false⟩

private lemma conflictOf_mem {ours theirs : ManifestEntry}
    (hours : ours.path = "a".toList) (htheirs : theirs.path = "a".toList)
    (hcontent : ours.contentHash ≠ theirs.contentHash) :
    conflictOf ours theirs ∈ (detectConflicts (.sorted Text) (fun _ => ⟨9, 0⟩) ⟨.default, ∅⟩
      (folderOf [ours]) (folderOf [theirs]) none).1 := by
  have hlookup : ∀ file : ManifestEntry, file.path = "a".toList →
      (folderOf [file]).fileMap.lookup "a".toList = some file := by
    intro file hpath
    rw [← hpath]
    exact Finmap.lookup_insert ∅
  refine mem_detectConflicts.mpr ⟨"a".toList, checkFileConflict_eq_some_iff.mpr (.inl ?_)⟩
  exact ⟨ours, theirs, hlookup ours hours, hlookup theirs htheirs, hcontent, by simp, rfl⟩

/-- Of two versions both devices keep the newer one. -/
theorem conflicts_mirror_newer : ∃ e,
    keptVersion ⟨.default, ∅⟩ (conflictOf (versionOf "01".toList 5) (versionOf "02".toList 6)) =
      some e ∧
    keptVersion ⟨.default, ∅⟩ (conflictOf (versionOf "02".toList 6) (versionOf "01".toList 5)) =
      some e := by
  refine ((conflicts_mirror (.sorted Text) (.sorted Text) (fun _ => ⟨9, 0⟩) (fun _ => ⟨9, 0⟩) ∅ ∅
    (folderOf [versionOf "01".toList 5]) (folderOf [versionOf "02".toList 6]) none).2 _
    (conflictOf_mem rfl rfl (by decide)) _ (conflictOf_mem rfl rfl (by decide)) rfl).1 ?_
  rintro ⟨ours, theirs, hours, htheirs, htime⟩
  obtain rfl := Option.some.inj hours
  obtain rfl := Option.some.inj htheirs
  exact absurd htime (by decide)

/-- Of two versions with the same time of modification each device keeps its own. -/
theorem not_forall_same_version_kept :
    ¬ ∀ (order order' : IterOrder Text) (now now' : Text → DateTime)
      (detected detected' : HashMap Text Conflict) (a b : Manifest)
      (lastSyncTime : Option DateTime),
      ∀ c ∈ (detectConflicts order now ⟨.default, detected⟩ a b lastSyncTime).1,
        ∀ c' ∈ (detectConflicts order' now' ⟨.default, detected'⟩ b a lastSyncTime).1,
          c.filePath = c'.filePath →
          (keptVersion ⟨.default, detected⟩ c).map ManifestEntry.contentHash =
            (keptVersion ⟨.default, detected'⟩ c').map ManifestEntry.contentHash := by
  intro hall
  have hsame := hall (.sorted Text) (.sorted Text) (fun _ => ⟨9, 0⟩) (fun _ => ⟨9, 0⟩) ∅ ∅
    (folderOf [versionOf "01".toList 5]) (folderOf [versionOf "02".toList 5]) none _
    (conflictOf_mem rfl rfl (by decide)) _ (conflictOf_mem rfl rfl (by decide)) rfl
  exact absurd hsame (by decide)

/-- A file that both sides edit is reported, and nothing else. -/
theorem conflicts_exact_edited :
    (∀ path, (∃ c ∈ (detectConflicts (.sorted Text) (fun _ => ⟨9, 0⟩) (.new .default)
        (folderOf [versionOf "01".toList 5]) (folderOf [versionOf "02".toList 6])
        (some ⟨4, 0⟩)).1, c.filePath = path) ↔
      Diverged (folderOf [versionOf "00".toList 3]) (folderOf [versionOf "01".toList 5])
        (folderOf [versionOf "02".toList 6]) path) ↔
    ∀ path, ¬ CreatedOnce (folderOf [versionOf "00".toList 3]) (folderOf [versionOf "01".toList 5])
      (folderOf [versionOf "02".toList 6]) path := by
  refine conflicts_exact_iff _ _ _ _ _ (fun path e h => ?_) (fun path e h => .inr ?_)
    fun path e h => .inr ?_
  · obtain rfl := List.mem_singleton.mp (mem_of_lookup_folderOf h)
    decide
  · obtain rfl := List.mem_singleton.mp (mem_of_lookup_folderOf h)
    decide
  · obtain rfl := List.mem_singleton.mp (mem_of_lookup_folderOf h)
    decide

/-- A file that one side creates is reported as one the other side deleted. -/
theorem not_forall_conflicts_exact :
    ¬ ∀ (order : IterOrder Text) (now : Text → DateTime) (detector : ConflictDetector)
      (t : DateTime) (base a b : Manifest), HeldAt t base → Since t base a → Since t base b →
      ∀ path, (∃ c ∈ (detectConflicts order now detector a b (some t)).1, c.filePath = path) ↔
        Diverged base a b path := by
  intro hall
  have hexact := hall (.sorted Text) (fun _ => ⟨9, 0⟩) (.new .default) ⟨4, 0⟩ (folderOf [])
    (folderOf [versionOf "01".toList 5]) (folderOf [])
    (fun path e h => by cases mem_of_lookup_folderOf h)
    (fun path e h => .inr (by
      obtain rfl := List.mem_singleton.mp (mem_of_lookup_folderOf h)
      decide))
    (fun path e h => by cases mem_of_lookup_folderOf h) "a".toList
  refine (hexact.mp ⟨⟨"a".toList, .deletedModified, some (versionOf "01".toList 5), none, ⟨9, 0⟩,
    false⟩, mem_detectConflicts.mpr ⟨"a".toList, ?_⟩, rfl⟩).2.1 rfl
  exact checkFileConflict_eq_some_iff.mpr (.inr (.inl ⟨_, rfl, rfl, ⟨_, rfl, by decide⟩, rfl⟩))

end Examples

end ConflictDetector

end Landropic
