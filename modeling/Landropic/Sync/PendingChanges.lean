import Landropic.Foundations.Runs
import Landropic.Sync.ChangeKinds

set_option autoImplicit false

/-!
# Pending changes

A tracker keeps the changes of the latest diff with each peer until the peer has acknowledged their
chunks. A diff without changes does not replace the changes that are pending, and a change that
requires no chunks is dropped by any acknowledgement.

## Main definitions

* `IncrementalDiff.Tracked` — a tracker, and what it should know of each peer.
* `IncrementalDiff.Faithful` — the open changes are pending, and nothing from earlier.
* `IncrementalDiff.Exact` — the open changes are what is pending.
* `IncrementalDiff.Careful` — the calls after which this stays so.

## Main results

* `IncrementalDiff.faithful_step_iff` — which calls keep the pending changes faithful.
* `IncrementalDiff.faithful_run_iff` — the runs in which they always are.
-/

namespace Landropic

namespace DiffComputer

variable {dc : DiffComputer} {blake3 : Bytes → ContentHash} {overflowChecks : Bool}
  {orders : DiffOrders} {source target : Manifest} {diff : DiffResult}

/-- Two manifests have the same files with the same content. -/
def SameContent (source target : Manifest) : Prop :=
  ∀ path, (source.fileMap.lookup path).map ManifestEntry.contentHash =
    (target.fileMap.lookup path).map ManifestEntry.contentHash

/-- **A diff has no changes exactly if the manifests have the same content.** -/
theorem changes_eq_nil_iff
    (h : dc.computeDiff blake3 overflowChecks orders source target = some diff) :
    diff.changes = [] ↔ SameContent source target := by
  rw [List.eq_nil_iff_forall_not_mem]
  constructor
  · intro hnone path
    cases hown : source.fileMap.lookup path with
    | none =>
      cases hentry : target.fileMap.lookup path with
      | none => rfl
      | some e =>
        have hnew := Finmap.lookup_eq_none.mp hown
        exact absurd ((mem_changes h).mpr (.inl ⟨path, e, hentry, hnew, rfl⟩)) (hnone _)
    | some own =>
      cases hentry : target.fileMap.lookup path with
      | none =>
        have hgone := Finmap.lookup_eq_none.mp hentry
        exact absurd ((mem_changes h).mpr (.inr (.inr ⟨path, own, hown, hgone, rfl⟩))) (hnone _)
      | some e =>
        by_contra hne
        have hcontent : own.contentHash ≠ e.contentHash := fun heq => hne (congrArg some heq)
        exact hnone _ ((mem_changes h).mpr
          (.inr (.inl ⟨path, own, e, hentry, hown, hcontent, rfl⟩)))
  · intro hsame c hc
    rcases (mem_changes h).mp hc with ⟨path, e, hentry, hnew, -⟩ |
      ⟨path, own, e, hentry, hown, hcontent, -⟩ | ⟨path, own, hown, hgone, -⟩
    · have hpath := hsame path
      rw [hentry, Finmap.lookup_eq_none.mpr hnew] at hpath
      cases hpath
    · have hpath := hsame path
      rw [hentry, hown] at hpath
      exact hcontent (Option.some.inj hpath)
    · have hpath := hsame path
      rw [hown, Finmap.lookup_eq_none.mpr hgone] at hpath
      cases hpath

lemma foldlM_eq_self {step : DiffAcc → Text × ManifestEntry → Option DiffAcc}
    {files : List (Text × ManifestEntry)} {acc : DiffAcc}
    (h : ∀ file ∈ files, step acc file = some acc) : files.foldlM step acc = some acc := by
  induction files with
  | nil => rfl
  | cons file files ih =>
    rw [List.foldlM_cons, h file List.mem_cons_self]
    exact ih fun file' hfile' => h file' (List.mem_cons_of_mem file hfile')

lemma exists_computeDiff_of_sameContent (hsame : SameContent source target) :
    ∃ diff, dc.computeDiff blake3 overflowChecks orders source target = some diff := by
  have htarget : (orders.target.entries target.fileMap).foldlM
      (dc.visitTarget overflowChecks source.fileMap) ⟨[], ∅, .default⟩ =
        some ⟨[], ∅, .default⟩ := by
    refine foldlM_eq_self ?_
    rintro ⟨path, e⟩ hfile
    have hpath := hsame path
    rw [orders.target.mem_entries.mp hfile] at hpath
    obtain ⟨own, hown, hcontent⟩ := Option.map_eq_some_iff.mp hpath
    simp [visitTarget, hown, hcontent]
  have hsource : (orders.source.entries source.fileMap).foldlM
      (visitSource overflowChecks target.fileMap) ⟨[], ∅, .default⟩ =
        some ⟨[], ∅, .default⟩ := by
    refine foldlM_eq_self ?_
    rintro ⟨path, own⟩ hfile
    have hpath := hsame path
    rw [orders.source.mem_entries.mp hfile] at hpath
    obtain ⟨e, he, -⟩ := Option.map_eq_some_iff.mp hpath.symm
    have hmem : path ∈ target.fileMap := Finmap.mem_iff.mpr ⟨e, he⟩
    simp [visitSource, hmem]
  simp only [computeDiff, htarget, hsource, Option.bind_eq_bind, Option.bind_some]
  exact ⟨_, rfl⟩

end DiffComputer

/-! ## Changes and their chunks -/

namespace FileChange

variable {c : FileChange} {hashes more : List Text}

lemma requiresTransfer_iff : c.requiresTransfer = true ↔ c.requiredChunks ≠ [] := by
  simp [requiresTransfer]

lemma withoutChunks_append :
    c.withoutChunks (hashes ++ more) = (c.withoutChunks hashes).withoutChunks more := by
  simp only [withoutChunks, List.filter_filter, List.mem_append, not_or, Bool.decide_and, mk.injEq,
    and_true, true_and]
  exact List.filter_congr fun hash _ => Bool.and_comm _ _

lemma withoutChunks_of_requiredChunks (h : c.requiredChunks = []) : c.withoutChunks hashes = c := by
  obtain ⟨path, changeType, sourceEntry, targetEntry, requiredChunks, transferSize⟩ := c
  obtain rfl : requiredChunks = [] := h
  rfl

lemma requiresTransfer_of_withoutChunks (h : (c.withoutChunks hashes).requiresTransfer = true) :
    c.requiresTransfer = true := by
  rw [requiresTransfer_iff] at h ⊢
  rintro hnone
  rw [withoutChunks_of_requiredChunks hnone] at h
  exact h hnone

lemma requiresTransfer_withoutChunks_eq_false_iff :
    (c.withoutChunks hashes).requiresTransfer = false ↔
      ∀ hash ∈ c.requiredChunks, hash ∈ hashes := by
  simp [requiresTransfer, withoutChunks, List.filter_eq_nil_iff]

end FileChange

namespace IncrementalDiff

open DiffComputer

/-! ## Trackers and what they should know -/

/-- A call of a tracker. -/
inductive TrackerCall
  | computeIncremental (orders : DiffOrders) (peerId : Text)
      (currentManifest peerManifest : Manifest)
  | acknowledgeChanges (peerId : Text) (chunkHashes : List Text)
  | resetPeer (peerId : Text)

/-- The latest diff with a peer, and the chunks that the peer has acknowledged since. -/
structure Latest where
  changes : List FileChange
  acknowledged : List Text

/-- A tracker, and the latest diff with each peer. -/
structure Tracked where
  tracker : IncrementalDiff
  latest : Text → Option Latest

/-- A tracker that has computed no diff. -/
def Tracked.new (chunkCache : Finset Text) : Tracked := ⟨.new chunkCache, fun _ => none⟩

section Step

variable (blake3 : Bytes → ContentHash) (overflowChecks : Bool)

/-- A call of a tracker. -/
def step (s : Tracked) : TrackerCall → Tracked
  | .computeIncremental orders peerId currentManifest peerManifest =>
    match s.tracker.computeIncremental blake3 overflowChecks orders peerId currentManifest
        peerManifest with
    -- a sum of sizes overflows, and the call panics
    | none => s
    | some (diff, tracker) =>
      ⟨tracker, Function.update s.latest peerId (some ⟨diff.changes, []⟩)⟩
  | .acknowledgeChanges peerId chunkHashes =>
    ⟨s.tracker.acknowledgeChanges peerId chunkHashes,
      Function.update s.latest peerId ((s.latest peerId).map fun latest =>
        ⟨latest.changes, latest.acknowledged ++ chunkHashes⟩)⟩
  | .resetPeer peerId => ⟨s.tracker.resetPeer peerId, Function.update s.latest peerId none⟩

/-- The call as a step of a transition system; every call is possible. -/
def next (s : Tracked) (call : TrackerCall) : Option Tracked :=
  some (step blake3 overflowChecks s call)

end Step

/-- A change is open if it requires no chunks, or one that has not been acknowledged. -/
def Latest.isOpen (latest : Latest) (c : FileChange) : Bool :=
  c.requiredChunks.isEmpty || (c.withoutChunks latest.acknowledged).requiresTransfer

/-- The open changes, with the chunks that have not been acknowledged. -/
def Latest.openChanges (latest : Latest) : List FileChange :=
  (latest.changes.filter latest.isOpen).map (FileChange.withoutChunks latest.acknowledged)

/-- **Pending changes are neither dropped nor stale**: a change of the latest diff with a peer is
pending, with the chunks not acknowledged since, unless it required chunks and all of them have been
acknowledged; and nothing is pending if that diff has no changes. -/
structure Faithful (s : Tracked) : Prop where
  kept : ∀ peerId latest, s.latest peerId = some latest → ∀ c ∈ latest.changes,
    (c.requiredChunks ≠ [] ∧ ∀ hash ∈ c.requiredChunks, hash ∈ latest.acknowledged) ∨
    ∃ pending, s.tracker.getPending peerId = some pending ∧
      c.withoutChunks latest.acknowledged ∈ pending
  fresh : ∀ peerId latest, s.latest peerId = some latest → latest.changes = [] →
    s.tracker.getPending peerId = none

/-- What should be pending for a peer. -/
def shouldBePending : Option Latest → Option (List FileChange)
  | none => none
  | some latest => if latest.openChanges = [] then none else some latest.openChanges

/-- **The open changes of the latest diff with each peer are what is pending.** -/
def Exact (s : Tracked) : Prop :=
  ∀ peerId, s.tracker.getPending peerId = shouldBePending (s.latest peerId)

/-- The calls after which the pending changes stay faithful: a diff without changes is computed only
when nothing is pending for the peer, and an acknowledgement comes only when all changes that are
pending for the peer require chunks. -/
def Careful (s : Tracked) : TrackerCall → Prop
  | .computeIncremental _ peerId currentManifest peerManifest =>
    SameContent peerManifest currentManifest → s.tracker.getPending peerId = none
  | .acknowledgeChanges peerId _ =>
    ∀ pending, s.tracker.getPending peerId = some pending →
      ∀ c ∈ pending, c.requiresTransfer = true
  | .resetPeer _ => True

/-! ## What the calls do -/

variable {blake3 : Bytes → ContentHash} {overflowChecks : Bool} {orders : DiffOrders}
  {s : Tracked} {call : TrackerCall} {peerId : Text} {latest : Latest} {chunkHashes : List Text}
  {currentManifest peerManifest : Manifest}

lemma mem_openChanges {c : FileChange} : c ∈ latest.openChanges ↔
    ∃ c' ∈ latest.changes, latest.isOpen c' = true ∧ c'.withoutChunks latest.acknowledged = c := by
  simp [Latest.openChanges, and_assoc]

lemma shouldBePending_eq_some_iff {pending : List FileChange} :
    shouldBePending (some latest) = some pending ↔ pending = latest.openChanges ∧ pending ≠ [] := by
  simp only [shouldBePending]
  split_ifs with hnil
  · simp [hnil]
  · rw [Option.some.injEq]
    exact ⟨fun h => ⟨h.symm, h ▸ hnil⟩, fun h => h.1.symm⟩

lemma openChanges_new (changes : List FileChange) : Latest.openChanges ⟨changes, []⟩ = changes := by
  have hself : FileChange.withoutChunks [] = id := by
    funext c
    simp [FileChange.withoutChunks]
  have hopen : ∀ c ∈ changes, Latest.isOpen ⟨changes, []⟩ c = true := by
    intro c _
    simp [Latest.isOpen, hself, FileChange.requiresTransfer]
  rw [Latest.openChanges, List.filter_eq_self.mpr hopen, hself, List.map_id]

/-- **The open changes after an acknowledgement**, if all changes require chunks. -/
lemma openChanges_acknowledge (h : ∀ c ∈ latest.changes, c.requiresTransfer = true) :
    Latest.openChanges ⟨latest.changes, latest.acknowledged ++ chunkHashes⟩ =
      (latest.openChanges.map (FileChange.withoutChunks chunkHashes)).filter
        FileChange.requiresTransfer := by
  obtain ⟨changes, acknowledged⟩ := latest
  dsimp only at h
  have hopen : ∀ hashes, ∀ c ∈ changes, Latest.isOpen ⟨changes, hashes⟩ c =
      (c.withoutChunks hashes).requiresTransfer := by
    intro hashes c hc
    have hsome : c.requiredChunks.isEmpty = false := by
      simpa using FileChange.requiresTransfer_iff.mp (h c hc)
    rw [Latest.isOpen, hsome, Bool.false_or]
  simp only [Latest.openChanges]
  rw [List.filter_congr (hopen _), List.filter_congr (hopen _), List.map_map, List.filter_map,
    List.filter_filter]
  -- what is left after both requires a transfer only if what is left after the first does
  have hboth : ∀ c ∈ changes, (c.withoutChunks (acknowledged ++ chunkHashes)).requiresTransfer =
      (((FileChange.requiresTransfer ∘ (FileChange.withoutChunks chunkHashes ∘
        FileChange.withoutChunks acknowledged)) c) &&
          (c.withoutChunks acknowledged).requiresTransfer) := by
    intro c _
    rw [FileChange.withoutChunks_append, Function.comp_apply, Function.comp_apply]
    cases hleft : ((c.withoutChunks acknowledged).withoutChunks chunkHashes).requiresTransfer with
    | false => rfl
    | true => rw [FileChange.requiresTransfer_of_withoutChunks hleft, Bool.and_true]
  rw [List.filter_congr hboth]
  refine List.map_congr_left fun c _ => ?_
  rw [FileChange.withoutChunks_append, Function.comp_apply]

lemma mem_openChanges_of_requiredChunks {c : FileChange} (hc : c ∈ latest.changes)
    (hnone : c.requiredChunks = []) : c ∈ latest.openChanges :=
  mem_openChanges.mpr ⟨c, hc, by simp [Latest.isOpen, hnone],
    FileChange.withoutChunks_of_requiredChunks hnone⟩

lemma requiresTransfer_of_careful (h : s.tracker.getPending peerId = shouldBePending (some latest))
    (hcareful : ∀ pending, s.tracker.getPending peerId = some pending →
      ∀ c ∈ pending, c.requiresTransfer = true) :
    ∀ c ∈ latest.changes, c.requiresTransfer = true := by
  intro c hc
  rw [FileChange.requiresTransfer_iff]
  intro hnone
  have hmem := mem_openChanges_of_requiredChunks hc hnone
  have hpending : s.tracker.getPending peerId = some latest.openChanges := by
    rw [h]
    exact shouldBePending_eq_some_iff.mpr ⟨rfl, List.ne_nil_of_mem hmem⟩
  exact FileChange.requiresTransfer_iff.mp (hcareful _ hpending c hmem) hnone

lemma getPending_acknowledgeChanges (tracker : IncrementalDiff) (other : Text) :
    (tracker.acknowledgeChanges peerId chunkHashes).getPending other =
      if other = peerId then (tracker.getPending peerId).bind fun pending =>
        let left := (pending.map (FileChange.withoutChunks chunkHashes)).filter
          FileChange.requiresTransfer
        if left = [] then none else some left
      else tracker.getPending other := by
  unfold acknowledgeChanges getPending
  cases hpending : tracker.pendingChanges.lookup peerId with
  | none =>
    split_ifs with hother
    · rw [hother, hpending, Option.bind_none]
    · rfl
  | some pending =>
    dsimp only [Option.bind_some]
    by_cases hother : other = peerId
    · subst hother
      rw [if_pos rfl]
      split_ifs with hleft
      · exact Finmap.lookup_erase _ _
      · exact Finmap.lookup_insert _
    · rw [if_neg hother]
      split_ifs with hleft
      · exact Finmap.lookup_erase_ne hother
      · exact Finmap.lookup_insert_of_ne _ hother

/-- What is pending after a diff. -/
lemma getPending_of_computeIncremental {tracker tracker' : IncrementalDiff} {diff : DiffResult}
    (h : tracker.computeIncremental blake3 overflowChecks orders peerId currentManifest
      peerManifest = some (diff, tracker')) (other : Text) :
    tracker.diffComputer.computeDiff blake3 overflowChecks orders peerManifest currentManifest =
        some diff ∧
      tracker'.getPending other =
        if other = peerId ∧ diff.changes ≠ [] then some diff.changes
        else tracker.getPending other := by
  simp only [computeIncremental, Option.bind_eq_bind, Option.bind_eq_some_iff, Option.some.injEq,
    Prod.mk.injEq] at h
  obtain ⟨diff', hdiff, rfl, rfl⟩ := h
  refine ⟨hdiff, ?_⟩
  simp only [getPending]
  by_cases hother : other = peerId
  · subst hother
    by_cases hnil : diff'.changes = []
    · simp [hnil]
    · simp [hnil]
  · have hboth : ¬ (other = peerId ∧ diff'.changes ≠ []) := fun h => hother h.1
    rw [if_neg hboth]
    split_ifs
    · exact Finmap.lookup_insert_of_ne _ hother
    · rfl

lemma Exact.faithful (h : Exact s) : Faithful s where
  kept peerId latest hlatest c hc := by
    have hpeer := h peerId
    rw [hlatest] at hpeer
    by_cases hopen : latest.isOpen c = true
    · have hmem : c.withoutChunks latest.acknowledged ∈ latest.openChanges :=
        mem_openChanges.mpr ⟨c, hc, hopen, rfl⟩
      exact .inr ⟨latest.openChanges, hpeer.trans (shouldBePending_eq_some_iff.mpr
        ⟨rfl, List.ne_nil_of_mem hmem⟩), hmem⟩
    · rw [Latest.isOpen, Bool.or_eq_true, not_or, Bool.not_eq_true, Bool.not_eq_true] at hopen
      exact .inl ⟨by simpa using hopen.1,
        FileChange.requiresTransfer_withoutChunks_eq_false_iff.mp hopen.2⟩
  fresh peerId latest hlatest hnil := by
    rw [h peerId, hlatest, shouldBePending, if_pos (by simp [Latest.openChanges, hnil])]

/-- **A careful call keeps what is pending exact.** -/
lemma Exact.step (h : Exact s) (hcareful : Careful s call) :
    Exact (step blake3 overflowChecks s call) := by
  intro other
  cases call with
  | computeIncremental orders peerId currentManifest peerManifest =>
    simp only [IncrementalDiff.step]
    cases hcompute : s.tracker.computeIncremental blake3 overflowChecks orders peerId
        currentManifest peerManifest with
    | none => exact h other
    | some result =>
      obtain ⟨diff, tracker⟩ := result
      obtain ⟨hdiff, hpending⟩ := getPending_of_computeIncremental hcompute other
      dsimp only
      rw [hpending]
      by_cases hother : other = peerId
      · subst hother
        rw [Function.update_self, shouldBePending, openChanges_new]
        by_cases hnil : diff.changes = []
        · simp only [hnil, ne_eq, not_true_eq_false, and_false, if_false, if_true]
          exact hcareful ((changes_eq_nil_iff hdiff).mp hnil)
        · simp [hnil]
      · rw [if_neg fun hboth => hother hboth.1, Function.update_of_ne hother]
        exact h other
  | acknowledgeChanges peerId chunkHashes =>
    simp only [IncrementalDiff.step]
    rw [getPending_acknowledgeChanges]
    by_cases hother : other = peerId
    · subst hother
      rw [if_pos rfl, Function.update_self]
      have hpeer := h other
      cases hlatest : s.latest other with
      | none =>
        rw [hlatest] at hpeer
        rw [hpeer]
        rfl
      | some latest =>
        rw [hlatest] at hpeer
        have hchunks := requiresTransfer_of_careful hpeer hcareful
        rw [hpeer, Option.map_some, shouldBePending, shouldBePending,
          openChanges_acknowledge hchunks]
        by_cases hnil : latest.openChanges = []
        · simp [hnil]
        · rw [if_neg hnil, Option.bind_some]
    · rw [if_neg hother, Function.update_of_ne hother]
      exact h other
  | resetPeer peerId =>
    simp only [IncrementalDiff.step, resetPeer, getPending]
    by_cases hother : other = peerId
    · subst hother
      rw [Finmap.lookup_erase, Function.update_self]
      rfl
    · rw [Finmap.lookup_erase_ne hother, Function.update_of_ne hother]
      exact h other

/-- **The calls that keep the pending changes faithful**, where what is pending is exact.

**Proof sketch.** An acknowledgement drops every change it leaves without chunks, so also one that
never had any; and a diff without changes leaves what is pending as it is. -/
theorem faithful_step_iff (h : Exact s) :
    Faithful (step blake3 overflowChecks s call) ↔ Careful s call := by
  refine ⟨fun hfaithful => ?_, fun hcareful => (h.step hcareful).faithful⟩
  cases call with
  | computeIncremental orders peerId currentManifest peerManifest =>
    intro hsame
    obtain ⟨diff, hdiff⟩ : ∃ diff, s.tracker.diffComputer.computeDiff blake3 overflowChecks orders
        peerManifest currentManifest = some diff := exists_computeDiff_of_sameContent hsame
    have hnil := (changes_eq_nil_iff hdiff).mpr hsame
    obtain ⟨tracker, hcompute⟩ : ∃ tracker, s.tracker.computeIncremental blake3 overflowChecks
        orders peerId currentManifest peerManifest = some (diff, tracker) := by
      simp only [computeIncremental, hdiff, Option.bind_eq_bind, Option.bind_some]
      exact ⟨_, rfl⟩
    simp only [step, hcompute] at hfaithful
    have hfresh := hfaithful.fresh peerId ⟨diff.changes, []⟩ (Function.update_self ..) hnil
    dsimp only at hfresh
    rwa [(getPending_of_computeIncremental hcompute peerId).2,
      if_neg fun hboth => hboth.2 hnil] at hfresh
  | acknowledgeChanges peerId chunkHashes =>
    intro pending hpending c hc
    have hpeer := h peerId
    rw [hpending] at hpeer
    cases hlatest : s.latest peerId with
    | none =>
      rw [hlatest] at hpeer
      cases hpeer
    | some latest =>
      rw [hlatest] at hpeer
      obtain ⟨rfl, -⟩ := shouldBePending_eq_some_iff.mp hpeer.symm
      obtain ⟨c', hc', hopen, rfl⟩ := mem_openChanges.mp hc
      by_contra hnone
      rw [Bool.not_eq_true] at hnone
      -- the change is open and requires nothing any more, so it never did
      have hempty : c'.requiredChunks = [] := by
        rw [Latest.isOpen, hnone, Bool.or_false] at hopen
        simpa using hopen
      have hkept := hfaithful.kept peerId ⟨latest.changes, latest.acknowledged ++ chunkHashes⟩
        (by simp [step, hlatest]) c' hc'
      obtain ⟨hsome, -⟩ | ⟨left, hleft, hmem⟩ := hkept
      · exact hsome hempty
      · simp only [step] at hleft
        rw [getPending_acknowledgeChanges, if_pos rfl, hpending, Option.bind_some] at hleft
        dsimp only at hleft hmem
        split_ifs at hleft
        rw [← Option.some.inj hleft, FileChange.withoutChunks_of_requiredChunks hempty] at hmem
        exact FileChange.requiresTransfer_iff.mp (List.mem_filter.mp hmem).2 hempty
  | resetPeer peerId => trivial

lemma exact_new (chunkCache : Finset Text) : Exact (.new chunkCache) := fun _ => rfl

/-- **The runs in which the pending changes are always faithful** are those of careful calls: each
acknowledgement comes when all changes pending for the peer require chunks, and each diff between
manifests with the same content when nothing is pending for the peer. In such runs the open changes
are what is pending.

**Proof sketch.** As long as the calls are careful what is pending is exact, and where it is exact
only careful calls keep it faithful. -/
theorem faithful_run_iff (blake3 : Bytes → ContentHash) (overflowChecks : Bool)
    (chunkCache : Finset Text) (s : Tracked) :
    (Runs.Run (next blake3 overflowChecks)
        (fun s call => Faithful (step blake3 overflowChecks s call)) (.new chunkCache) s ↔
      Runs.Run (next blake3 overflowChecks) Careful (.new chunkCache) s) ∧
    (Runs.Run (next blake3 overflowChecks) Careful (.new chunkCache) s → Faithful s ∧ Exact s) := by
  have hiff : (Runs.Run (next blake3 overflowChecks)
        (fun s call => Faithful (step blake3 overflowChecks s call)) (.new chunkCache) s ↔
      Runs.Run (next blake3 overflowChecks) Careful (.new chunkCache) s) ∧
      (Runs.Run (next blake3 overflowChecks) Careful (.new chunkCache) s → Exact s) :=
    Runs.run_iff_run (exact_new chunkCache) (fun hI => faithful_step_iff hI)
      fun {s₁ call s₂} hI hC hnext => by
        obtain rfl := Option.some.inj hnext
        exact hI.step ((faithful_step_iff hI).mp hC)
  exact ⟨hiff.1, fun hrun => ⟨(hiff.2 hrun).faithful, hiff.2 hrun⟩⟩

section Examples

/-- A folder with the file `a`. -/
private def folderOfA : Manifest :=
  { folderId := "folder".toList
    version := 1
    files := [⟨"a".toList, 1, ⟨0, 0⟩, "01".toList, ["aa".toList], none⟩]
    createdAt := ⟨0, 0⟩
    manifestHash := none }

/-- The diff with the peer that has the file `a`, which is gone here. -/
private def deleteA : TrackerCall :=
  .computeIncremental ⟨.sorted _, .sorted _, .sorted _⟩ "peer".toList
    (.new ⟨0, 0⟩ "folder".toList 2) folderOfA

/-- **A deletion is dropped when the peer acknowledges an unrelated chunk.** -/
theorem not_forall_faithful :
    ¬ ∀ (blake3 : Bytes → ContentHash) (overflowChecks : Bool) (chunkCache : Finset Text)
      (s : Tracked), Runs.Run (next blake3 overflowChecks) (fun _ _ => True) (.new chunkCache) s →
        Faithful s := by
  intro hall
  have hexact : Exact (step .blake3Sample false (.new ∅) deleteA) :=
    (exact_new ∅).step fun _ => rfl
  have hrun : Runs.Run (next .blake3Sample false) (fun _ _ => True) (.new ∅)
      (step .blake3Sample false (step .blake3Sample false (.new ∅) deleteA)
        (.acknowledgeChanges "peer".toList ["bb".toList])) :=
    .tail (.single ⟨deleteA, trivial, rfl⟩) ⟨_, trivial, rfl⟩
  obtain ⟨diff, hdiff⟩ := exists_computeDiff (.new ∅) .blake3Sample
    ⟨.sorted _, .sorted _, .sorted _⟩ folderOfA (.new ⟨0, 0⟩ "folder".toList 2)
  have hdeleted : deletedChange "a".toList
      ⟨"a".toList, 1, ⟨0, 0⟩, "01".toList, ["aa".toList], none⟩ ∈ diff.changes :=
    (mem_changes hdiff).mpr (.inr (.inr ⟨_, _, Finmap.lookup_insert ∅, Finmap.notMem_empty, rfl⟩))
  obtain ⟨tracker, hcompute⟩ : ∃ tracker, (IncrementalDiff.new ∅).computeIncremental .blake3Sample
      false ⟨.sorted _, .sorted _, .sorted _⟩ "peer".toList (.new ⟨0, 0⟩ "folder".toList 2)
      folderOfA = some (diff, tracker) := by
    simp only [computeIncremental, Option.bind_eq_bind, IncrementalDiff.new]
    rw [hdiff, Option.bind_some]
    exact ⟨_, rfl⟩
  have hpending : (step .blake3Sample false (.new ∅) deleteA).tracker.getPending "peer".toList =
      some diff.changes := by
    simp only [step, deleteA, Tracked.new, hcompute]
    rw [(getPending_of_computeIncremental hcompute _).2, if_pos ⟨rfl, List.ne_nil_of_mem hdeleted⟩]
  have hcareful := (faithful_step_iff hexact).mp (hall _ _ _ _ hrun)
  exact absurd (hcareful _ hpending _ hdeleted) (by decide)

end Examples

end IncrementalDiff

end Landropic
