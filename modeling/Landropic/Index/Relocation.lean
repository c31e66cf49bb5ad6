import Landropic.Index.Indexer
import Landropic.Proto.Validation

set_option autoImplicit false

/-!
# The same folder at another place

The entries of a manifest have the paths of the files from the root of the file system on, which are
not accepted from a peer.

## Main definitions

* `FileIndexer.Relocates` — the manifests of a folder at two places agree, and their paths are
  accepted.

## Main results

* `FileIndexer.relocates_iff` — they do if there is nothing to index.
-/

namespace Landropic

namespace FileIndexer

/-- Two runs, each with a new database, return manifests with the same entries and the same hash,
and all paths in them are accepted. -/
def Relocates (ix : FileIndexer) (blake3 : Bytes → ContentHash) (json : ChunkListJson)
    (scan scan' : Scan) : Prop :=
  ∃ m m', (ix.indexFolder blake3 json scan .empty).1 = .ok m ∧
    (ix.indexFolder blake3 json scan' .empty).1 = .ok m' ∧
    (∀ entry, entry ∈ m.files ↔ entry ∈ m'.files) ∧ m.manifestHash = m'.manifestHash ∧
    ∀ entry ∈ m.files ++ m'.files, Validator.validatePath entry.path = .ok ()

section Places

variable {ix : FileIndexer} {blake3 : Bytes → ContentHash} {json : ChunkListJson}
  {scan scan' : Scan} {canonicalPath canonicalPath' : Bytes}

lemma exists_filePath_eq {folderPath : Bytes} (h : [47] <+: folderPath) (path : RelPath) :
    ∃ rest, filePath folderPath path = 47 :: rest := by
  induction path with
  | nil =>
    obtain ⟨rest, rfl⟩ := h
    exact ⟨rest, rfl⟩
  | cons name dir ih =>
    obtain ⟨rest, hrest⟩ := ih
    rw [filePath, joinPath, hrest]
    split
    · exact ⟨rest ++ name, rfl⟩
    · exact ⟨rest ++ 47 :: name, rfl⟩

lemma validatePath_slash (rest : Text) : Validator.validatePath ('/' :: rest) ≠ .ok () := by
  have hslash : ['/'] <+: '/' :: rest := ⟨rest, rfl⟩
  unfold Validator.validatePath
  split_ifs with hlength hnull hdots habsolute
  · nofun
  · nofun
  · nofun
  · nofun
  · exact absurd (.inl hslash) habsolute

/-- A run without faults over a folder in which there is nothing to index. -/
lemma exists_indexFolder_of_none (blake3 : Bytes → ContentHash) (json : ChunkListJson)
    (hscan : scan.Clean canonicalPath)
    (hnone : ∀ path, ¬ ix.Indexed scan path) :
    ∃ m, (ix.indexFolder blake3 json scan .empty).1 = .ok m ∧ m.files = [] ∧
      m.manifestHash = some (blake3 []).toHex := by
  obtain ⟨m, -, -, hdescribes, hcases⟩ := indexFolder_cases ix blake3 json scan .empty
    hscan.canonicalPath fun dir _ => hscan.dirFault dir
  obtain ⟨-, -, db', row, hok, -⟩ | ⟨hnot, -⟩ := hcases
  swap
  · exact absurd ⟨Finmap.notMem_empty, fun path _ hpath => absurd hpath (hnone path)⟩ hnot
  have hfiles : m.files = [] := by
    rw [List.eq_nil_iff_forall_not_mem]
    intro entry hentry
    obtain ⟨path, hpath, -⟩ := hdescribes.mem_files.mp hentry
    exact hnone path hpath
  refine ⟨m, by rw [hok], hfiles, ?_⟩
  rw [hdescribes.manifestHash, Manifest.calculateHash, Manifest.sortedFiles, hfiles,
    List.mergeSort_nil]
  rfl

/-- **When a folder can be at another place**: if there is nothing in it to index. The path of every
file in a manifest begins with that of the folder, which is absolute. -/
theorem relocates_iff (ix : FileIndexer) (blake3 : Bytes → ContentHash) (json : ChunkListJson)
    (hscan : scan.Clean canonicalPath) (hscan' : scan'.Clean canonicalPath')
    (htree : scan'.tree = scan.tree) (hroot : [47] <+: scan.folderPath) :
    Relocates ix blake3 json scan scan' ↔ ∀ path, ¬ ix.Indexed scan path := by
  constructor
  · rintro ⟨m, m', hrun, -, -, -, hvalid⟩ path hpath
    obtain ⟨entry, hentry, htext⟩ :=
      (describes_of_ok hrun).exists_path_iff.mpr ⟨path, hpath, rfl⟩
    obtain ⟨rest, hrest⟩ := exists_filePath_eq hroot path
    have hok := hvalid entry (List.mem_append_left _ hentry)
    rw [htext, pathText, hrest, Text.toStringLossy_slash] at hok
    exact validatePath_slash _ hok
  · intro hnone
    have hnone' : ∀ path, ¬ ix.Indexed scan' path := by
      rintro path ⟨hlisted, -, hdata⟩
      rw [htree] at hlisted hdata
      exact hnone path ⟨hlisted, hscan.fileFault path, hdata⟩
    obtain ⟨m, hrun, hfiles, hhash⟩ :=
      exists_indexFolder_of_none blake3 json hscan hnone
    obtain ⟨m', hrun', hfiles', hhash'⟩ :=
      exists_indexFolder_of_none blake3 json hscan' hnone'
    refine ⟨m, m', hrun, hrun', fun entry => ?_, hhash.trans hhash'.symm, ?_⟩
    · rw [hfiles, hfiles']
    · rw [hfiles, hfiles']
      nofun

end Places

/-- A folder with a file is told from the same folder at another place. -/
theorem relocates_iff_emptyFile : ∃ json : ChunkListJson, json.toText [] = "[]".toList ∧
    (Relocates .default pathSample json (Scan.over [47] emptyFile) (Scan.over [47, 97] emptyFile) ↔
      ∀ path, ¬ FileIndexer.default.Indexed (Scan.over [47] emptyFile) path) ∧
    ¬ Relocates .default pathSample json (Scan.over [47] emptyFile)
      (Scan.over [47, 97] emptyFile) := by
  obtain ⟨json, hjson⟩ := ChunkListJson.exists_empty
  have hiff := relocates_iff .default pathSample json (Scan.clean_over [47] emptyFile)
    (Scan.clean_over [47, 97] emptyFile) rfl (List.prefix_refl _)
  exact ⟨json, hjson, hiff, fun h => hiff.mp h [[97]] indexed_emptyFile⟩

/-- **A folder with a file cannot be at another place.** -/
theorem not_relocates_emptyFile : ∃ json : ChunkListJson, json.toText [] = "[]".toList ∧
    ¬ ∀ (tree : FolderTree) (folderPath folderPath' : Bytes), [47] <+: folderPath →
      [47] <+: folderPath' → Relocates .default pathSample json (Scan.over folderPath tree)
        (Scan.over folderPath' tree) := by
  obtain ⟨json, hjson⟩ := ChunkListJson.exists_empty
  refine ⟨json, hjson, fun h => ?_⟩
  obtain ⟨m, m', hrun, -, -, -, hvalid⟩ :=
    h emptyFile [47] [47, 97] (List.prefix_refl _) ⟨[97], rfl⟩
  obtain ⟨entry, hentry, htext⟩ :=
    (describes_of_ok hrun).exists_path_iff.mpr ⟨[[97]], indexed_emptyFile, rfl⟩
  have hok := hvalid entry (List.mem_append_left _ hentry)
  rw [htext] at hok
  exact absurd hok (by decide +kernel)

end FileIndexer

end Landropic
