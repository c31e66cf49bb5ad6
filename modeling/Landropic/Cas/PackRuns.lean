import Mathlib.Data.Char
import Landropic.Cas.PackManager

set_option autoImplicit false

/-!
# What was packed

A chunk can be read while it waits in memory and after its packfile was finalized, but not while
that is open. Where every packfile that is written is full at once, no chunk is lost.

## Main definitions

* `Cas.PackStore.Sound` — the packfiles are in order.
* `Cas.PackRun.Settles` — an operation that leaves no chunk in an open packfile only.
* `Cas.PackRun.Held` — every accepted chunk is pending or in a finalized packfile.

## Main results

* `Cas.PackStore.Sound.storeAll` — what storing chunks leaves.
* `Cas.PackRun.held_next` — a step that settles its chunks loses none.
* `Cas.PackRun.readPacked_of_accepted` — every accepted chunk is given back.
-/

namespace Landropic.Cas

namespace PackStore

/-- A finalized packfile with this hash can be read. -/
def Has (s : PackStore) (hash : ContentHash) : Prop :=
  ∃ name r, s.manager.packReaders.lookup name = some r ∧ hash ∈ r.entries

/-- The size of the data in the open packfile. -/
def openSize (s : PackStore) : ℕ := (s.manager.currentWriter.map PackfileWriter.dataSize).getD 0

/-- The number of chunks in the open packfile. -/
def openCount (s : PackStore) : ℕ :=
  (s.manager.currentWriter.map PackfileWriter.chunkCount).getD 0

/-- A chunk is data with its hash, the data that `content` has for this hash. -/
def IsChunk (env : PackEnv) (content : ContentHash → Bytes) (chunk : PackChunk) : Prop :=
  env.blake3 chunk.2 = chunk.1 ∧ content chunk.1 = chunk.2

/-- The chunks of a packfile. -/
structure IsPack (env : PackEnv) (content : ContentHash → Bytes) (chunks : List PackChunk) :
    Prop where
  chunk : ∀ chunk ∈ chunks, IsChunk env content chunk
  fits : Fits chunks

/-- The packfiles are in order: the open one holds the chunks that were written to it, every reader
has the entries of a packfile that is there, and there are no other files. -/
structure Sound (env : PackEnv) (content : ContentHash → Bytes) (s : PackStore) : Prop where
  writer : ∀ w, s.manager.currentWriter = some w → ∃ name chunks, name ≠ [] ∧
    Writing env (packFile name) w s.dir chunks ∧ IsPack env content chunks ∧
      s.manager.packReaders.lookup name = none
  readers : ∀ name r, s.manager.packReaders.lookup name = some r → name ≠ [] ∧
    ∃ chunks, r = readerOf (packFile name) chunks ∧ IsPack env content chunks ∧
      s.dir.lookup (packFile name) = some (packed env.blake3 chunks)
  files : ∀ file ∈ s.dir,
    (∃ name r, file = packFile name ∧ s.manager.packReaders.lookup name = some r) ∨
      ∃ w, s.manager.currentWriter = some w ∧ w.packfilePath = file

section Sound

variable {env : PackEnv} {content : ContentHash → Bytes} {s : PackStore} {now : Int64}
  {chunks : List PackChunk} {name : Text}

lemma packFile_injective : Function.Injective packFile :=
  fun _ _ h => List.append_cancel_right h

/-- **What a sound store has is given back.** -/
lemma Sound.readChunk (h : Sound env content s) {r : PackfileReader} {hash : ContentHash}
    (hr : s.manager.packReaders.lookup name = some r) (hhash : hash ∈ r.entries) :
    r.readChunk env hash s.dir = .ok (content hash) := by
  obtain ⟨-, chunks, rfl, hpack, hlookup⟩ := h.readers name r hr
  obtain ⟨⟨_, data⟩, hdata, rfl⟩ := List.mem_map.mp (mem_entryMap.mp hhash)
  obtain ⟨hblake3, hcontent⟩ := hpack.chunk _ hdata
  dsimp only at hblake3 hcontent
  rw [hcontent]
  refine PackfileReader.readChunk_packed hpack.fits hlookup hdata (fun data' hdata' => ?_) hblake3
  exact (hpack.chunk _ hdata').2.symm.trans hcontent

/-- Writing the open packfile leaves the readers and their files as they are. -/
lemma Sound.withWriter (h : Sound env content s) {w : PackfileWriter} {dir : Dir}
    (hname : name ≠ []) (hnone : s.manager.packReaders.lookup name = none)
    (hwriting : Writing env (packFile name) w dir chunks) (hpack : IsPack env content chunks)
    (honly : OnlyAt (packFile name) s.dir dir)
    (hold : ∀ w', s.manager.currentWriter = some w' → w'.packfilePath = packFile name) :
    Sound env content (s.withWriter (some w) dir) where
  writer w' hw' := by
    obtain rfl := Option.some.inj hw'
    exact ⟨name, chunks, hname, hwriting, hpack, hnone⟩
  readers name' r hr := by
    obtain ⟨hname', chunks', hreader, hpack', hlookup⟩ := h.readers name' r hr
    refine ⟨hname', chunks', hreader, hpack', ?_⟩
    rw [← hlookup]
    apply honly
    intro heq
    have hr' : s.manager.packReaders.lookup name' = some r := hr
    rw [packFile_injective heq, hnone] at hr'
    cases hr'
  files file hfile := by
    by_cases heq : file = packFile name
    · exact .inr ⟨w, rfl, hwriting.path_eq.trans heq.symm⟩
    · have hfile' : file ∈ s.dir := by
        rw [Finmap.mem_iff] at hfile ⊢
        rwa [← honly file heq]
      obtain hreader | ⟨w', hw', hpath⟩ := h.files file hfile'
      · exact .inl hreader
      · exact absurd (hpath.symm.trans (hold w' hw')) heq

/-- What finalizing leaves. -/
structure Settled (env : PackEnv) (content : ContentHash → Bytes) (s s' : PackStore) : Prop where
  sound : Sound env content s'
  has : ∀ hash, s.Has hash → s'.Has hash
  pending_eq : s'.manager.pendingChunks = s.manager.pendingChunks
  config_eq : s'.manager.config = s.manager.config

/-- **Finalizing the current pack** succeeds, and its chunks can be read. -/
lemma Sound.finalizeCurrentPack (h : Sound env content s)
    (haccess : env.createAccess = .readWrite) :
    ∃ s', s.finalizeCurrentPack env = (.ok (), s') ∧ Settled env content s s' ∧
      s'.manager.currentWriter = none ∧
      ∀ w, s.manager.currentWriter = some w →
        ∀ hash ∈ w.entries.map PackfileEntry.hash, s'.Has hash := by
  cases hw : s.manager.currentWriter with
  | none => exact ⟨s, finalizeCurrentPack_none hw, ⟨h, fun _ => id, rfl, rfl⟩, hw, by simp⟩
  | some w =>
    obtain ⟨name, chunks, hname, hwriting, hpack, hnone⟩ := h.writer w hw
    obtain ⟨hok, hlookup, honly⟩ := hwriting.finalize_readWrite haccess hpack.fits
    have hstem : FileName.fileStem '.' w.packfilePath = name := by
      rw [hwriting.path_eq, fileStem_packFile hname]
    rw [finalizeCurrentPack_ok hw hok, hstem]
    have hhas : ∀ hash, s.Has hash → ((s.withWriter none (w.finalize env s.dir).2).withReader name
        (readerOf (packFile name) chunks)).Has hash := by
      intro hash ⟨name', r, hr, hhash⟩
      have hne : name' ≠ name := by
        rintro rfl
        rw [hnone] at hr
        cases hr
      exact ⟨name', r, (Finmap.lookup_insert_of_ne _ hne).trans hr, hhash⟩
    refine ⟨_, rfl, ⟨⟨fun w' hw' => (Option.some_ne_none w' hw'.symm).elim, ?_, ?_⟩, hhas, rfl,
      rfl⟩,
      rfl, ?_⟩
    · refine HashMap.forall_lookup_insert.mpr
        ⟨⟨hname, chunks, rfl, hpack, hlookup⟩, fun name' r hr hne => ?_⟩
      obtain ⟨hname', chunks', hreader, hpack', hlookup'⟩ := h.readers name' r hr
      refine ⟨hname', chunks', hreader, hpack', ?_⟩
      rw [← hlookup']
      exact honly _ fun heq => hne (packFile_injective heq)
    · intro file hfile
      by_cases heq : file = packFile name
      · exact .inl ⟨name, _, heq, Finmap.lookup_insert _⟩
      · have hfile' : file ∈ s.dir := by
          rw [Finmap.mem_iff] at hfile ⊢
          rwa [← honly file heq]
        obtain ⟨name', r, hfile', hr⟩ | ⟨w', hw', hpath⟩ := h.files file hfile'
        · refine .inl ⟨name', r, hfile', (Finmap.lookup_insert_of_ne _ ?_).trans hr⟩
          rintro rfl
          exact heq hfile'
        · obtain rfl := Option.some.inj (hw.symm.trans hw')
          exact absurd (hpath.symm.trans hwriting.path_eq) heq
    · intro w' hw' hash hhash
      obtain rfl := Option.some.inj hw'
      rw [hwriting.entries_eq, map_hash_entriesOf] at hhash
      exact ⟨name, _, Finmap.lookup_insert _, mem_entryMap.mpr hhash⟩

/-- **Getting the current writer** gives the open packfile, or a new one that replaces no other. -/
lemma Sound.getOrCreateCurrentWriter (h : Sound env content s)
    (hfresh : s.manager.currentWriter = none → packPath now ∉ s.dir) :
    ∃ name chunks, name ≠ [] ∧
      Writing env (packFile name) (s.getOrCreateCurrentWriter env now).1
        (s.getOrCreateCurrentWriter env now).2 chunks ∧
      IsPack env content chunks ∧ s.manager.packReaders.lookup name = none ∧
      OnlyAt (packFile name) s.dir (s.getOrCreateCurrentWriter env now).2 ∧
      (∀ w, s.manager.currentWriter = some w → w.packfilePath = packFile name) ∧
      (dataOf chunks).length = s.openSize ∧ chunks.length = s.openCount := by
  unfold PackStore.getOrCreateCurrentWriter openSize openCount
  cases hw : s.manager.currentWriter with
  | some w =>
    obtain ⟨name, chunks, hname, hwriting, hpack, hnone⟩ := h.writer w hw
    refine ⟨name, chunks, hname, hwriting, hpack, hnone, fun _ _ => rfl, fun w' hw' => ?_, ?_, ?_⟩
    · exact Option.some.inj hw' ▸ hwriting.path_eq
    · simp [PackfileWriter.dataSize, hwriting.offset_eq]
    · simp [PackfileWriter.chunkCount, hwriting.entries_eq]
  | none =>
    obtain ⟨hwriting, honly⟩ := writing_new env (packPath now) s.dir
    refine ⟨packName now, [], packName_ne_nil now, hwriting, ⟨by simp, by simp, by decide⟩, ?_,
      honly,
      by simp, rfl, rfl⟩
    cases hr : s.manager.packReaders.lookup (packName now) with
    | none => rfl
    | some r =>
      obtain ⟨-, chunks, -, -, hlookup⟩ := h.readers _ r hr
      exact absurd (Finmap.mem_iff.mpr ⟨_, hlookup⟩) (hfresh hw)

/-- **Storing chunks** succeeds. If the packfile is full with them, they can be read. -/
theorem Sound.storeAll (h : Sound env content s) (haccess : env.createAccess = .readWrite)
    (hchunks : ∀ chunk ∈ chunks, IsChunk env content chunk)
    (hle : ∀ chunk ∈ chunks, chunk.2.length ≤ 2 ^ 32 - 1)
    (hfresh : s.manager.currentWriter = none → packPath now ∉ s.dir)
    (hfits : PACKFILE_HEADER_SIZE + (s.openSize + (dataOf chunks).length) +
      (s.openCount + chunks.length) * PACKFILE_ENTRY_SIZE + PACKFILE_FOOTER_SIZE < 2 ^ 63)
    {full : Bool} (hfull : isFull env s.manager.config (s.openSize + (dataOf chunks).length)
      (s.openCount + chunks.length) = .ok full) :
    ∃ s', s.storeAll env now chunks = (.ok (), s') ∧ Settled env content s s' ∧
      (full = true → s'.manager.currentWriter = none ∧ ∀ chunk ∈ chunks, s'.Has chunk.1) ∧
      (full = false → ∃ w, s'.manager.currentWriter = some w ∧
        ∀ chunk ∈ chunks, chunk.1 ∈ w.entries.map PackfileEntry.hash) := by
  obtain ⟨name, before, hname, hwriting, hpack, hnone, honly, hold, hsize, hcount⟩ :=
    h.getOrCreateCurrentWriter hfresh
  obtain ⟨w, dir, hadds, hwriting', honly'⟩ := hwriting.addChunks chunks hle
  have hpack' : IsPack env content (before ++ chunks) := by
    refine ⟨fun chunk hchunk => ?_, fun chunk hchunk => ?_, ?_⟩
    · exact (List.mem_append.mp hchunk).elim (hpack.chunk chunk) (hchunks chunk)
    · exact (List.mem_append.mp hchunk).elim (hpack.fits.chunk_le chunk) (hle chunk)
    · have hdata : (dataOf (before ++ chunks)).length = s.openSize + (dataOf chunks).length := by
        simp [dataOf, ← hsize]
      rw [hdata, List.length_append, hcount]
      exact hfits
  have hopen : Sound env content (s.withWriter (some w) dir) :=
    h.withWriter hname hnone hwriting' hpack'
      (fun file hne => (honly' file hne).trans (honly file hne)) hold
  have hhashes : ∀ chunk ∈ chunks, chunk.1 ∈ w.entries.map PackfileEntry.hash := by
    intro chunk hchunk
    rw [hwriting'.entries_eq, map_hash_entriesOf]
    exact List.mem_map_of_mem (List.mem_append_right _ hchunk)
  have hshould : (s.withWriter (some w) dir).shouldFinalizeCurrentPack env = .ok full := by
    have hdataSize : w.dataSize = s.openSize + (dataOf chunks).length := by
      simp [PackfileWriter.dataSize, hwriting'.offset_eq, dataOf, ← hsize]
    have hchunkCount : w.chunkCount = s.openCount + chunks.length := by
      simp [PackfileWriter.chunkCount, hwriting'.entries_eq, hcount]
    rw [← hfull, ← hdataSize, ← hchunkCount]
    rfl
  have hstore : s.storeAll env now chunks = finalizeIfFull env (s.withWriter (some w) dir) := by
    simp only [PackStore.storeAll, hadds]
  rw [hstore, finalizeIfFull, hshould]
  cases full with
  | false =>
    exact ⟨_, rfl, ⟨hopen, fun _ => id, rfl, rfl⟩, fun hf => (Bool.false_ne_true hf).elim,
      fun _ => ⟨w, rfl, hhashes⟩⟩
  | true =>
    obtain ⟨s', hfinalize, hsettled, hclosed, hhas⟩ := hopen.finalizeCurrentPack haccess
    refine ⟨s', hfinalize, ⟨hsettled.sound, hsettled.has, hsettled.pending_eq, hsettled.config_eq⟩,
      fun _ => ⟨hclosed, fun chunk hchunk => hhas w rfl _ (hhashes chunk hchunk)⟩,
      fun hf => (Bool.false_ne_true hf.symm).elim⟩

/-- **A chunk that is too large** is not stored. -/
lemma Sound.storeAll_large (h : Sound env content s) {hash : ContentHash} {data : Bytes}
    (hlarge : 2 ^ 32 - 1 < data.length)
    (hfresh : s.manager.currentWriter = none → packPath now ∉ s.dir) :
    ∃ e s', s.storeAll env now [(hash, data)] = (.error e, s') ∧ Settled env content s s' := by
  obtain ⟨name, before, hname, hwriting, hpack, hnone, honly, hold, -, -⟩ :=
    h.getOrCreateCurrentWriter hfresh
  have hopen : Sound env content (s.withWriter _ _) :=
    h.withWriter hname hnone hwriting hpack honly hold
  refine ⟨.err (.invalidObjectSize (2 ^ 32 - 1) data.length), _, ?_, ⟨hopen, fun _ => id, rfl, rfl⟩⟩
  simp only [PackStore.storeAll, PackfileWriter.addChunks, addChunk_of_lt hlarge]

/-- **Loading the packfiles** of a sound store without an open one gives the readers it has. -/
lemma Sound.loadExistingPacks (h : Sound env content s) (hw : s.manager.currentWriter = none)
    (entries : List (Text × Bytes)) (readers : HashMap Text PackfileReader)
    (hentries : ∀ entry ∈ entries, entry.1 ∈ s.dir)
    (hreaders : ∀ name r, readers.lookup name = some r →
      s.manager.packReaders.lookup name = some r) :
    ∃ readers', PackStore.loadExistingPacks env entries s.dir readers = .ok readers' ∧
      (∀ name r, readers'.lookup name = some r → s.manager.packReaders.lookup name = some r) ∧
      ∀ name, name ∈ readers ∨ packFile name ∈ entries.map Prod.fst → name ∈ readers' := by
  induction entries generalizing readers with
  | nil => exact ⟨readers, rfl, hreaders, by simp⟩
  | cons entry entries ih =>
    obtain ⟨file, bytes⟩ := entry
    obtain ⟨hfile, hrest⟩ := List.forall_mem_cons.mp hentries
    obtain ⟨name, r, rfl, hr⟩ | ⟨w, hw', -⟩ := h.files file hfile
    · obtain ⟨hname, chunks, rfl, hpack, hlookup⟩ := h.readers name r hr
      have hopen : PackfileReader.openFile env (packFile name) s.dir =
          .ok (readerOf (packFile name) chunks) :=
        PackfileReader.openFile_packed hpack.fits hlookup
      obtain ⟨readers', hload, hsub, hmem⟩ := ih _ hrest
        (HashMap.forall_lookup_insert.mpr ⟨hr, fun name' r' hr' _ => hreaders name' r' hr'⟩)
      refine ⟨readers', ?_, hsub, fun name' hname' => hmem name' ?_⟩
      · rw [PackStore.loadExistingPacks, if_pos (extension_packFile hname), hopen]
        dsimp only
        rw [fileStem_packFile hname]
        exact hload
      · rw [Finmap.mem_insert]
        obtain hname' | hname' := hname'
        · exact .inl (.inr hname')
        · obtain heq | hname' := List.mem_cons.mp hname'
          · exact .inl (.inl (packFile_injective heq))
          · exact .inr hname'
    · rw [hw] at hw'
      cases hw'

/-- **A new manager** over the directory of a sound store can read what that could. -/
lemma Sound.newWithConfig (h : Sound env content s) (hw : s.manager.currentWriter = none)
    (hpending : s.manager.pendingChunks = []) (order : IterOrder Text) :
    ∃ s', s.apply env now (.newWithConfig order) = (.ok (), s') ∧ Settled env content s s' := by
  have hentries : ∀ entry ∈ order.entries s.dir, entry.1 ∈ s.dir := by
    rintro ⟨file, bytes⟩ hentry
    exact Finmap.mem_iff.mpr ⟨bytes, order.mem_entries.mp hentry⟩
  obtain ⟨readers, hload, hsub, hmem⟩ := h.loadExistingPacks hw _ ∅ hentries (by simp)
  have hreaders : ∀ name r, s.manager.packReaders.lookup name = some r →
      readers.lookup name = some r := by
    intro name r hr
    obtain ⟨-, chunks, -, -, hlookup⟩ := h.readers name r hr
    have hfile : packFile name ∈ (order.entries s.dir).map Prod.fst :=
      List.mem_map_of_mem (order.mem_entries.mpr hlookup)
    obtain ⟨r', hr'⟩ := Finmap.mem_iff.mp (hmem name (.inr hfile))
    rwa [← Option.some.inj ((hsub name r' hr').symm.trans hr)]
  have happly : s.apply env now (.newWithConfig order) =
      (.ok (), ⟨⟨s.manager.config, none, readers, []⟩, s.dir⟩) := by
    simp only [apply, PackStore.newWithConfig, hload, Except.ok_bind]
  refine ⟨_, happly, ⟨fun w hw' => (Option.some_ne_none w hw'.symm).elim, fun name r hr => ?_,
    fun file hfile => ?_⟩, ?_, hpending.symm, rfl⟩
  · exact h.readers name r (hsub name r hr)
  · obtain ⟨name, r, hname, hr⟩ | ⟨w, hw', -⟩ := h.files file hfile
    · exact .inl ⟨name, r, hname, hreaders name r hr⟩
    · rw [hw] at hw'
      cases hw'
  · rintro hash ⟨name, r, hr, hhash⟩
    exact ⟨name, r, hreaders name r hr, hhash⟩

end Sound

end PackStore

namespace PackRun

open PackStore (IsChunk Sound Settled)

/-- The chunks that an operation writes to the open packfile are within its limits, and it is full
with them or not. -/
def Fills (env : PackEnv) (s : PackStore) (chunks : List PackChunk) (full : Bool) : Prop :=
  PACKFILE_HEADER_SIZE + (s.openSize + (dataOf chunks).length) +
      (s.openCount + chunks.length) * PACKFILE_ENTRY_SIZE + PACKFILE_FOOTER_SIZE < 2 ^ 63 ∧
    isFull env s.manager.config (s.openSize + (dataOf chunks).length)
      (s.openCount + chunks.length) = .ok full

/-- An operation that leaves no chunk in an open packfile only:
* the chunks are data with their hashes, and no others have the same ones, and those that are to
  wait are not too large for a packfile,
* a packfile that is opened replaces no other,
* the open packfile is full with the chunks that are written to it, or it is finalized then, or they
  can be read from others already,
* a new manager takes over only after the old one has finalized. -/
structure Settles (env : PackEnv) (content : ContentHash → Bytes) (x : PackRun)
    (e : PackOp × Int64) : Prop where
  chunk : ∀ chunk ∈ accepts e.1, IsChunk env content chunk
  small : ∀ hash data, e.1 = .addChunk hash data → data.length ≤ 2 ^ 32 - 1
  fresh : x.store.Opens e.1 → packPath e.2 ∉ x.store.dir
  full : x.store.packs e.1 ≠ [] → (∀ chunk ∈ x.store.packs e.1, chunk.2.length ≤ 2 ^ 32 - 1) →
    Fills env x.store (x.store.packs e.1) true ∨
      Fills env x.store (x.store.packs e.1) false ∧
        (e.1 = .finalize ∨ ∀ chunk ∈ x.store.packs e.1, x.store.Has chunk.1)
  finalized : ∀ order, e.1 = .newWithConfig order →
    x.store.manager.currentWriter = none ∧ x.store.manager.pendingChunks = []

/-- A chunk with this hash is pending or in a finalized packfile. -/
def Found (s : PackStore) (hash : ContentHash) : Prop :=
  hash ∈ s.manager.pendingChunks.map Prod.fst ∨ s.Has hash

/-- The packfiles are in order, and so are the pending chunks. -/
structure Orderly (env : PackEnv) (content : ContentHash → Bytes) (s : PackStore) : Prop where
  sound : Sound env content s
  pending : ∀ chunk ∈ s.manager.pendingChunks,
    IsChunk env content chunk ∧ chunk.2.length ≤ 2 ^ 32 - 1

/-- **Every accepted chunk** is pending or in a finalized packfile. -/
structure Held (env : PackEnv) (content : ContentHash → Bytes) (x : PackRun) : Prop
    extends Orderly env content x.store where
  accepted : ∀ chunk ∈ x.accepted, IsChunk env content chunk ∧ Found x.store chunk.1

/-- A store is in order after an operation, and has what it had and what was accepted. -/
structure Kept (env : PackEnv) (content : ContentHash → Bytes) (s s' : PackStore)
    (accepted : List PackChunk) : Prop extends Orderly env content s' where
  found : ∀ hash, Found s hash → Found s' hash
  accepted : ∀ chunk ∈ accepted, Found s' chunk.1

section Runs

variable {env : PackEnv} {content : ContentHash → Bytes} {s s₁ s' : PackStore} {now : Int64}
  {chunks accepted : List PackChunk} {x x' : PackRun} {e : PackOp × Int64}

/-- Storing chunks that are not too large and leave no chunk in the open packfile only. -/
lemma storeAll_of_fills (h : Sound env content s) (haccess : env.createAccess = .readWrite)
    (hchunks : ∀ chunk ∈ chunks, IsChunk env content chunk)
    (hle : ∀ chunk ∈ chunks, chunk.2.length ≤ 2 ^ 32 - 1)
    (hfresh : s.manager.currentWriter = none → packPath now ∉ s.dir)
    (hfills : Fills env s chunks true ∨
      Fills env s chunks false ∧ ∀ chunk ∈ chunks, s.Has chunk.1) :
    ∃ s', s.storeAll env now chunks = (.ok (), s') ∧ Settled env content s s' ∧
      ∀ chunk ∈ chunks, s'.Has chunk.1 := by
  obtain ⟨hfits, hfull⟩ | ⟨⟨hfits, hfull⟩, hhas⟩ := hfills
  · obtain ⟨s', hstore, hsettled, htrue, -⟩ :=
      h.storeAll haccess hchunks hle hfresh hfits hfull
    exact ⟨s', hstore, hsettled, (htrue rfl).2⟩
  · obtain ⟨s', hstore, hsettled, -, -⟩ := h.storeAll haccess hchunks hle hfresh hfits hfull
    exact ⟨s', hstore, hsettled, fun chunk hchunk => hsettled.has _ (hhas chunk hchunk)⟩

lemma kept_of_settled (h : Orderly env content s) (hsettled : Settled env content s s')
    (haccepted : ∀ chunk ∈ accepted, s'.Has chunk.1) : Kept env content s s' accepted where
  sound := hsettled.sound
  pending := by
    rw [hsettled.pending_eq]
    exact h.pending
  found hash hfound := by
    rw [Found, hsettled.pending_eq]
    exact hfound.imp id (hsettled.has hash)
  accepted chunk hchunk := .inr (haccepted chunk hchunk)

lemma kept_of_drained (hsettled : Settled env content s.drained s')
    (hpending : ∀ chunk ∈ s.manager.pendingChunks ++ accepted, s'.Has chunk.1) :
    Kept env content s s' accepted where
  sound := hsettled.sound
  pending := by
    rw [hsettled.pending_eq]
    exact fun _ h => absurd h List.not_mem_nil
  found hash hfound := by
    obtain hmem | hhas := hfound
    · obtain ⟨chunk, hchunk, rfl⟩ := List.mem_map.mp hmem
      exact .inr (hpending chunk (List.mem_append_left _ hchunk))
    · exact .inr (hsettled.has hash hhas)
  accepted chunk hchunk := .inr (hpending chunk (List.mem_append_right _ hchunk))

lemma sound_drained (h : Sound env content s) : Sound env content s.drained :=
  ⟨h.writer, h.readers, h.files⟩

/-- **Adding a chunk** keeps it. -/
lemma kept_addChunk {hash : ContentHash} {data : Bytes} (h : Orderly env content s)
    (haccess : env.createAccess = .readWrite) (hchunk : IsChunk env content (hash, data))
    (hsmall : data.length ≤ 2 ^ 32 - 1)
    (hfresh : s.Opens (.addChunk hash data) → packPath now ∉ s.dir)
    (hfills : s.packs (.addChunk hash data) ≠ [] →
      (∀ chunk ∈ s.packs (.addChunk hash data), chunk.2.length ≤ 2 ^ 32 - 1) →
      Fills env s (s.packs (.addChunk hash data)) true ∨
        Fills env s (s.packs (.addChunk hash data)) false ∧
          ∀ chunk ∈ s.packs (.addChunk hash data), s.Has chunk.1) :
    ∃ s', s.addChunk env now hash data = (.ok (), s') ∧ Kept env content s s' [(hash, data)] := by
  have hall : ∀ chunk ∈ s.manager.pendingChunks ++ [(hash, data)],
      IsChunk env content chunk ∧ chunk.2.length ≤ 2 ^ 32 - 1 := by
    intro chunk hmem
    obtain hmem | hmem := List.mem_append.mp hmem
    · exact h.pending chunk hmem
    · obtain rfl := List.mem_singleton.mp hmem
      exact ⟨hchunk, hsmall⟩
  rw [PackStore.addChunk_eq]
  by_cases hpacks : s.packs (.addChunk hash data) = []
  · rw [if_pos hpacks]
    refine ⟨_, rfl, ⟨⟨h.sound.writer, h.sound.readers, h.sound.files⟩, hall⟩,
      fun hash' hfound => ?_,
      ?_⟩
    · exact hfound.imp (fun hmem => by simp [PackStore.pushed] at hmem ⊢; exact .inl hmem) id
    · simp [Found, PackStore.pushed]
  · rw [if_neg hpacks]
    have heq : s.packs (.addChunk hash data) = s.manager.pendingChunks ++ [(hash, data)] := by
      unfold PackStore.packs at hpacks ⊢
      split_ifs at hpacks ⊢
      · rfl
      · exact absurd rfl hpacks
    rw [← heq] at hall
    obtain ⟨s', hstore, hsettled, hhas⟩ := storeAll_of_fills (sound_drained h.sound) haccess
      (fun chunk hmem => (hall chunk hmem).1) (fun chunk hmem => (hall chunk hmem).2)
      (fun hnone => hfresh ⟨Option.isNone_iff_eq_none.mpr hnone, hpacks⟩)
      (hfills hpacks fun chunk hmem => (hall chunk hmem).2)
    exact ⟨s', hstore, kept_of_drained hsettled (heq ▸ hhas)⟩

/-- **Storing a chunk** at once keeps it, if it is not too large, and everything else. -/
lemma kept_storePacked {hash : ContentHash} {data : Bytes} (h : Orderly env content s)
    (haccess : env.createAccess = .readWrite) (hchunk : IsChunk env content (hash, data))
    (hfresh : s.manager.currentWriter = none → packPath now ∉ s.dir)
    (hfills : data.length ≤ 2 ^ 32 - 1 → Fills env s [(hash, data)] true ∨
      Fills env s [(hash, data)] false ∧ s.Has hash) :
    (∃ s', s.storePacked env now hash data = (.ok (), s') ∧ Kept env content s s' [(hash, data)]) ∨
      ∃ e s', s.storePacked env now hash data = (.error e, s') ∧ Kept env content s s' [] := by
  rw [PackStore.storePacked_eq]
  by_cases hle : data.length ≤ 2 ^ 32 - 1
  · obtain ⟨s', hstore, hsettled, hhas⟩ := storeAll_of_fills h.sound haccess
      (List.forall_mem_singleton.mpr hchunk) (List.forall_mem_singleton.mpr hle) hfresh
      ((hfills hle).imp id fun hf => ⟨hf.1, List.forall_mem_singleton.mpr hf.2⟩)
    exact .inl ⟨s', hstore, kept_of_settled h hsettled hhas⟩
  · obtain ⟨e, s', hstore, hsettled⟩ := h.sound.storeAll_large (Nat.not_le.mp hle) hfresh
    exact .inr ⟨e, s', hstore, kept_of_settled h hsettled (by simp)⟩

/-- **Flushing** the pending chunks keeps them, if the open packfile is finalized in the end. -/
lemma kept_flush (h : Orderly env content s) (haccess : env.createAccess = .readWrite)
    (hfresh : s.Opens .flushPackfile → packPath now ∉ s.dir)
    (hfills : s.manager.pendingChunks ≠ [] → Fills env s s.manager.pendingChunks true ∨
      Fills env s s.manager.pendingChunks false ∧
        ∀ chunk ∈ s.manager.pendingChunks, s.Has chunk.1) :
    ∃ s', s.flushPackfile env now = (.ok (), s') ∧ Kept env content s s' [] := by
  by_cases hpending : s.manager.pendingChunks = []
  · rw [PackStore.flushPackfile_of_eq hpending]
    exact ⟨s, rfl, h, fun _ => id, by simp⟩
  · rw [PackStore.flushPackfile_of_ne hpending]
    obtain ⟨s', hstore, hsettled, hhas⟩ := storeAll_of_fills (sound_drained h.sound) haccess
      (fun chunk hmem => (h.pending chunk hmem).1) (fun chunk hmem => (h.pending chunk hmem).2)
      (fun hnone => hfresh ⟨Option.isNone_iff_eq_none.mpr hnone, hpending⟩) (hfills hpending)
    exact ⟨s', hstore, kept_of_drained hsettled (by simpa using hhas)⟩

/-- **Finalizing** keeps all chunks. -/
lemma kept_finalize (h : Orderly env content s) (haccess : env.createAccess = .readWrite)
    (hfresh : s.Opens .finalize → packPath now ∉ s.dir)
    (hfills : s.manager.pendingChunks ≠ [] → ∃ full, Fills env s s.manager.pendingChunks full) :
    ∃ s', s.finalize env now = (.ok (), s') ∧ Kept env content s s' [] := by
  by_cases hpending : s.manager.pendingChunks = []
  · obtain ⟨s', hfinalize, hsettled, -, -⟩ := h.sound.finalizeCurrentPack haccess
    refine ⟨s', ?_, kept_of_settled h hsettled (by simp)⟩
    rw [PackStore.finalize, PackStore.flushPackfile_of_eq hpending]
    exact hfinalize
  · obtain ⟨full, hfits, hfull⟩ := hfills hpending
    obtain ⟨s₁, hstore, hsettled, htrue, hfalse⟩ := (sound_drained h.sound).storeAll haccess
      (fun chunk hmem => (h.pending chunk hmem).1) (fun chunk hmem => (h.pending chunk hmem).2)
      (fun hnone => hfresh ⟨Option.isNone_iff_eq_none.mpr hnone, hpending⟩) hfits hfull
    obtain ⟨s', hfinalize, hsettled', -, hhas⟩ := hsettled.sound.finalizeCurrentPack haccess
    have hpacked : ∀ chunk ∈ s.manager.pendingChunks, s'.Has chunk.1 := by
      intro chunk hchunk
      cases full with
      | true => exact hsettled'.has _ ((htrue rfl).2 chunk hchunk)
      | false =>
        obtain ⟨w, hw, hhashes⟩ := hfalse rfl
        exact hhas w hw _ (hhashes chunk hchunk)
    refine ⟨s', ?_, kept_of_drained ⟨hsettled'.sound, fun hash hhash => ?_, ?_, ?_⟩
      (by simpa using hpacked)⟩
    · rw [PackStore.finalize, PackStore.flushPackfile_of_ne hpending, hstore]
      exact hfinalize
    · exact hsettled'.has hash (hsettled.has hash hhash)
    · exact hsettled'.pending_eq.trans hsettled.pending_eq
    · exact hsettled'.config_eq.trans hsettled.config_eq

/-- **An operation that settles its chunks** keeps what was there, and what it accepts. -/
theorem kept_apply (h : Orderly env content x.store) (haccess : env.createAccess = .readWrite)
    (hsettles : Settles env content x e) :
    (∃ s', x.store.apply env e.2 e.1 = (.ok (), s') ∧
        Kept env content x.store s' (accepts e.1)) ∨
      ∃ err s', x.store.apply env e.2 e.1 = (.error err, s') ∧ Kept env content x.store s' [] := by
  obtain ⟨op, now⟩ := e
  obtain ⟨hchunk, hsmall, hfresh, hfull, hfinalized⟩ := hsettles
  dsimp only at hchunk hfresh hfull hfinalized ⊢
  cases op with
  | addChunk hash data =>
    refine .inl (kept_addChunk h haccess (hchunk _ List.mem_cons_self) (hsmall hash data rfl) hfresh
      fun hpacks hle => ?_)
    exact (hfull hpacks hle).imp id fun hf => ⟨hf.1, hf.2.resolve_left (by simp)⟩
  | storePacked hash data =>
    refine kept_storePacked h haccess (hchunk _ List.mem_cons_self) (fun hnone => hfresh ⟨?_, ?_⟩)
      fun hle => ?_
    · rw [hnone]
      rfl
    · exact List.cons_ne_nil _ _
    · exact (hfull (List.cons_ne_nil _ _) (List.forall_mem_singleton.mpr hle)).imp id fun hf =>
        ⟨hf.1, (hf.2.resolve_left (by simp)) _ List.mem_cons_self⟩
  | flushPackfile =>
    refine .inl (kept_flush h haccess hfresh fun hpending => ?_)
    exact (hfull hpending fun chunk hmem => (h.pending chunk hmem).2).imp id fun hf =>
      ⟨hf.1, hf.2.resolve_left (by simp)⟩
  | finalize =>
    refine .inl (kept_finalize h haccess hfresh fun hpending => ?_)
    exact (hfull hpending fun chunk hmem => (h.pending chunk hmem).2).elim (fun hf => ⟨_, hf⟩)
      fun hf => ⟨_, hf.1⟩
  | newWithConfig order =>
    obtain ⟨hnone, hpending⟩ := hfinalized order rfl
    obtain ⟨s', hnew, hsettled⟩ := h.sound.newWithConfig hnone hpending order
    exact .inl ⟨s', hnew, kept_of_settled h hsettled (by simp [accepts])⟩

/-- **A step that settles its chunks loses none.** -/
theorem held_next (h : Held env content x) (haccess : env.createAccess = .readWrite)
    (hsettles : Settles env content x e) (hnext : next env x e = some x') :
    Held env content x' := by
  unfold next at hnext
  split at hnext
  · cases hnext
  · obtain rfl := Option.some.inj hnext
    obtain ⟨s', happly, hkept⟩ | ⟨err, s', happly, hkept⟩ :=
      kept_apply h.toOrderly haccess hsettles
    · simp only [happly]
      refine ⟨hkept.toOrderly, fun chunk hmem => ?_⟩
      obtain hmem | hmem := List.mem_append.mp hmem
      · exact ⟨(h.accepted chunk hmem).1, hkept.found _ (h.accepted chunk hmem).2⟩
      · exact ⟨hsettles.chunk chunk hmem, hkept.accepted chunk hmem⟩
    · simp only [happly]
      refine ⟨hkept.toOrderly, fun chunk hmem => ?_⟩
      exact ⟨(h.accepted chunk hmem).1, hkept.found _ (h.accepted chunk hmem).2⟩

lemma held_start (config : PackfileConfig) : Held env content (start config now) where
  sound :=
    { writer := by simp [start]
      readers := by simp [start]
      files := fun file hfile => absurd hfile Finmap.notMem_empty }
  pending := by simp [start]
  accepted := by simp [start]

/-- **What is held is given back**, whichever reader is asked first. -/
lemma readPacked_of_held (h : Held env content x) (order : IterOrder Text) {chunk : PackChunk}
    (hmem : chunk ∈ x.accepted) : x.store.readPacked env order chunk.1 = .ok (some chunk.2) := by
  obtain ⟨⟨-, hcontent⟩, hfound⟩ := h.accepted chunk hmem
  unfold PackStore.readPacked
  cases hpending : x.store.manager.pendingChunks.find? fun c => c.1 = chunk.1 with
  | some c =>
    have hhash : c.1 = chunk.1 := by simpa using List.find?_some hpending
    have hc := (h.pending c (List.mem_of_find?_eq_some hpending)).1.2
    rw [hhash, hcontent] at hc
    simp [hc]
  | none =>
    obtain hmem' | ⟨name, r, hr, hhash⟩ := hfound
    · obtain ⟨c, hc, heq⟩ := List.mem_map.mp hmem'
      have hno := List.find?_eq_none.mp hpending c hc
      exact absurd heq (by simpa using hno)
    · have hsome : ((order.entries x.store.manager.packReaders).find? fun entry =>
          entry.2.containsChunk chunk.1).isSome := by
        rw [List.find?_isSome]
        exact ⟨(name, r), order.mem_entries.mpr hr, by simpa [PackfileReader.containsChunk]⟩
      obtain ⟨⟨name', r'⟩, hfind⟩ := Option.isSome_iff_exists.mp hsome
      have hr' := order.mem_entries.mp (List.mem_of_find?_eq_some hfind)
      have hhash' : chunk.1 ∈ r'.entries := by
        simpa [PackfileReader.containsChunk] using List.find?_some hfind
      have hread := h.sound.readChunk hr' hhash'
      rw [hfind]
      simp only [hread, hcontent, Except.map]

/-- **Nothing packed is lost** in a run whose operations leave no chunk in an open packfile only, if
the files of packs are open for reading when they are finalized.

**Proof sketch.** Every chunk is pending or in a finalized packfile after each operation. A packfile
that is full is finalized at once, and its reader has its chunks, its file being replaced by no
other one. A new manager loads the same readers from the files. -/
theorem readPacked_of_accepted {config : PackfileConfig}
    (haccess : env.createAccess = .readWrite)
    (hrun : Runs.Run (next env) (Settles env content) (start config now) x) (order : IterOrder Text)
    {chunk : PackChunk} (hmem : chunk ∈ x.accepted) :
    x.store.readPacked env order chunk.1 = .ok (some chunk.2) := by
  have hheld : Held env content x := Runs.Run.invariant hrun (held_start config)
    fun _ h hsettles hnext => held_next h haccess hsettles hnext
  exact readPacked_of_held hheld order hmem

end Runs

/-- An operation with chunks that are data with their hashes, or a new manager after the old one has
finalized. -/
def Regular (blake3 : Bytes → ContentHash) (x : PackRun) (e : PackOp × Int64) : Prop :=
  (∀ chunk ∈ accepts e.1, blake3 chunk.2 = chunk.1) ∧
    ∀ order, e.1 = .newWithConfig order →
      x.store.manager.currentWriter = none ∧ x.store.manager.pendingChunks = []

/-- Packfiles whose files are open for reading when they are finalized. -/
private def readableEnv : PackEnv := ⟨ContentHash.blake3Sample, true, .readWrite⟩

/-- The chunk with the byte `01`. -/
private def oneByte : PackChunk := (ContentHash.blake3Sample [1], [1])

/-- The run that has stored this chunk at once, in second 5. -/
private def storedOne (config : PackfileConfig) : PackRun :=
  (next readableEnv (start config 5) (.storePacked oneByte.1 oneByte.2, 5)).getD (start config 5)

private lemma run_storedOne {config : PackfileConfig} {C : PackRun → PackOp × Int64 → Prop}
    (hC : C (start config 5) (.storePacked oneByte.1 oneByte.2, 5)) :
    Runs.Run (next readableEnv) C (start config 5) (storedOne config) := by
  apply Runs.Run.step hC
  have hclock : ¬ (5 : Int64) < 5 := by decide
  unfold storedOne next
  simp only [start, hclock, if_false, Option.getD_some]

/-- A chunk that makes its packfile full is given back. -/
theorem readPacked_full :
    (storedOne ⟨1, 100⟩).store.readPacked readableEnv (.sorted Text) oneByte.1 =
      .ok (some oneByte.2) := by
  have hsettles : Settles readableEnv (fun _ => [1]) (start ⟨1, 100⟩ 5)
      (.storePacked oneByte.1 oneByte.2, 5) := by
    refine ⟨?_, ?_, fun _ => Finmap.notMem_empty, fun _ _ => .inl ⟨?_, rfl⟩, ?_⟩
    · simp [accepts, IsChunk, oneByte, readableEnv]
    · intro hash data h
      cases h
    · decide
    · intro order h
      cases h
  exact readPacked_of_accepted rfl (run_storedOne hsettles) (.sorted Text)
    (show oneByte ∈ (storedOne ⟨1, 100⟩).accepted by decide +kernel)

/-- **A chunk in the open packfile** is not found, although it was stored. -/
theorem not_readPacked_open :
    ¬ ∀ (config : PackfileConfig) (x : PackRun),
      Runs.Run (next readableEnv) (Regular readableEnv.blake3) (start config 5) x →
      ∀ (order : IterOrder Text), ∀ chunk ∈ x.accepted,
        x.store.readPacked readableEnv order chunk.1 = .ok (some chunk.2) := by
  intro hall
  have hregular : Regular readableEnv.blake3 (start .default 5)
      (.storePacked oneByte.1 oneByte.2, 5) := by
    refine ⟨by simp [accepts, oneByte, readableEnv], fun order h => ?_⟩
    cases h
  have hread := hall .default _ (run_storedOne hregular) (.sorted Text) oneByte
    (by decide +kernel)
  have hnone : (storedOne .default).store.readPacked readableEnv (.sorted Text) oneByte.1 =
      .ok none := by
    decide +kernel
  simp [hnone] at hread

end PackRun

end Landropic.Cas
