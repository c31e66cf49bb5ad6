import Landropic.Sync.Session

set_option autoImplicit false

/-!
# Which chunks a session asks for

A session should want the chunks the peer's manifest has beyond ours. It computes the diff that
leads from the peer's manifest to ours instead, so it wants the chunks ours has beyond the peer's:
a file that is new at the peer counts as deleted.

## Main results

* `SyncSession.mem_wantedChunks` — the chunks that are wanted.
* `SyncSession.wantedChunks_correct_iff` — when they are the right ones.
-/

namespace Landropic

namespace SyncSession

open DiffComputer

section Wanted

variable {env : Env} {session session' : SyncSession} {ours : Manifest} {manifest : ProtoManifest}
  {want : Want}

/-- The chunks that should be wanted: those the peer's manifest has beyond ours and the cache. -/
def ShouldWant (env : Env) (session : SyncSession) (ours : Manifest) (manifest : ProtoManifest)
    (hash : Text) : Prop :=
  Needs session.diffTracker.diffComputer.chunkCache ours (protoToManifest env manifest) hash

/-- **The chunks that are wanted** are those our manifest has beyond the peer's. -/
lemma mem_wantedChunks (hours : session.ourManifest = some ours)
    (h : handleManifest env session manifest = (.ok want, session')) (hash : Text) :
    hash ∈ session'.wantedChunks ↔
      Needs session.diffTracker.diffComputer.chunkCache (protoToManifest env manifest) ours
        hash := by
  obtain ⟨-, ours', diff, hours', hdiff, -, rfl⟩ := handleManifest_eq_ok_iff.mp h
  obtain rfl := Option.some.inj (hours.symm.trans hours')
  exact mem_requiredChunks hdiff

/-- In state `ComputingDiff` with our manifest loaded, a build without overflow checks handles
every manifest. -/
lemma exists_handleManifest_ok (hchecks : env.overflowChecks = false)
    (hstate : session.state = .computingDiff) (hours : session.ourManifest = some ours)
    (manifest : ProtoManifest) :
    ∃ want session', handleManifest env session manifest = (.ok want, session') := by
  obtain ⟨diff, hdiff⟩ := exists_computeDiff session.diffTracker.diffComputer env.blake3 env.orders
    (protoToManifest env manifest) ours
  rw [← hchecks] at hdiff
  exact ⟨_, _, handleManifest_eq_ok_iff.mpr ⟨hstate, ours, diff, hours, hdiff, rfl, rfl⟩⟩

/-- **A session wants the right chunks exactly when the two manifests need the same chunks from each
other**: every chunk the peer's has beyond ours is one ours has beyond the peer's, and conversely.

**Proof sketch.** The wanted chunks are those of the diff from the peer's manifest to ours, and the
right ones those of the diff the other way. -/
theorem wantedChunks_correct_iff (hours : session.ourManifest = some ours)
    (h : handleManifest env session manifest = (.ok want, session')) :
    (∀ hash, hash ∈ session'.wantedChunks ↔ ShouldWant env session ours manifest hash) ↔
      ∀ hash,
        Needs session.diffTracker.diffComputer.chunkCache (protoToManifest env manifest) ours hash ↔
        Needs session.diffTracker.diffComputer.chunkCache ours (protoToManifest env manifest)
          hash := by
  simp only [mem_wantedChunks hours h, ShouldWant]

end Wanted

section Examples

/-- A hash function, a clock and orders of iteration. -/
private def sampleEnv : Env :=
  { blake3 := fun _ => .fill 0
    now := ⟨0, 0⟩
    fromTimestamp := fun seconds nanos => some ⟨seconds, nanos⟩
    overflowChecks := false
    orders := ⟨.sorted Text, .sorted Text, .sorted Text⟩
    wantOrder := .sorted Text }

/-- A folder without files. -/
private def emptyManifest : Manifest := .new ⟨0, 0⟩ "folder".toList 1

/-- A session that has just loaded the manifest of a folder. -/
private def sampleSession (ours : Manifest) : SyncSession :=
  { peerId := "peer".toList
    state := .computingDiff
    ourManifest := some ours
    peerManifest := none
    diffResult := none
    wantedChunks := ∅
    diffTracker := .new ∅
    stats := ⟨0, 0, 0, 0, 0, 0, 0⟩ }

/-- A file of one chunk. -/
private def sampleFile : FileEntry :=
  { path := "a".toList
    size := 1
    mode := 420
    modified := none
    chunkHashes := [[1]]
    contentHash := [2] }

/-- The manifest of a peer with one file. -/
private def oneFile : ProtoManifest :=
  { folderId := "folder".toList
    files := [sampleFile]
    generatedAt := none
    manifestHash := [] }

/-- The manifest of a folder in which the file has another chunk. -/
private def otherFile : Manifest :=
  emptyManifest.addFile
    (protoToEntry sampleEnv { sampleFile with chunkHashes := [[3]], contentHash := [4] })

/-- A session wants its own chunk of a file that the peer has with another one. -/
theorem wantedChunks_correct_iff_of_otherFile : ∃ want session',
    handleManifest sampleEnv (sampleSession otherFile) oneFile = (.ok want, session') ∧
    "03".toList ∈ session'.wantedChunks ∧ "01".toList ∉ session'.wantedChunks ∧
    ((∀ hash, hash ∈ session'.wantedChunks ↔
        ShouldWant sampleEnv (sampleSession otherFile) otherFile oneFile hash) ↔
      ∀ hash, Needs ∅ (protoToManifest sampleEnv oneFile) otherFile hash ↔
        Needs ∅ otherFile (protoToManifest sampleEnv oneFile) hash) := by
  obtain ⟨want, session', h⟩ := exists_handleManifest_ok (rfl : sampleEnv.overflowChecks = false)
    (rfl : (sampleSession otherFile).state = _)
    (rfl : (sampleSession otherFile).ourManifest = some otherFile) oneFile
  have hlookup : otherFile.fileMap.lookup "a".toList = otherFile.files.head? := rfl
  refine ⟨want, session', h, (mem_wantedChunks rfl h _).mpr ?_, fun hmem => ?_,
    wantedChunks_correct_iff rfl h⟩
  · exact ⟨Finset.notMem_empty _, "a".toList, _, hlookup, by decide, by decide⟩
  · obtain ⟨-, path, entry, hentry, hhash, -⟩ := (mem_wantedChunks rfl h _).mp hmem
    have hother : ∀ entry ∈ otherFile.files, "01".toList ∉ entry.chunkHashes := by decide
    exact hother entry (Manifest.path_of_lookup_fileMap hentry).1 hhash

/-- A session without files does not want the chunk of a peer's only file. -/
theorem not_forall_wantedChunks_correct :
    ¬ ∀ (env : Env) (session session' : SyncSession) (ours : Manifest) (manifest : ProtoManifest)
      (want : Want), session.state = .computingDiff → session.ourManifest = some ours →
      handleManifest env session manifest = (.ok want, session') →
      ∀ hash, hash ∈ session'.wantedChunks ↔ ShouldWant env session ours manifest hash := by
  intro hall
  obtain ⟨want, session', h⟩ := exists_handleManifest_ok (rfl : sampleEnv.overflowChecks = false)
    (rfl : (sampleSession emptyManifest).state = _)
    (rfl : (sampleSession emptyManifest).ourManifest = some emptyManifest) oneFile
  have hwant := hall sampleEnv (sampleSession emptyManifest) session' emptyManifest oneFile want rfl
    rfl h "01".toList
  have hempty : emptyManifest.fileMap = ∅ := rfl
  have hmem : "01".toList ∈ session'.wantedChunks := by
    refine hwant.mpr ⟨Finset.notMem_empty _, "a".toList, protoToEntry sampleEnv sampleFile, ?_⟩
    refine ⟨by decide, by decide, fun own hown => ?_⟩
    rw [hempty] at hown
    cases hown
  obtain ⟨-, path, entry, hlookup, -⟩ := (mem_wantedChunks rfl h _).mp hmem
  rw [hempty] at hlookup
  cases hlookup

end Examples

end SyncSession

end Landropic
