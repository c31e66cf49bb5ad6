import Landropic.Cas.Packfile

set_option autoImplicit false

/-!
# The two readers of packfiles

Packfiles are read through a file or through memory. Either reader takes the number of entries from
the header and looks for the table that far from the end of the file, in numbers of 64 bits, without
a check that the file is long enough. An entry that is read may lead anywhere: past the end of the
file the two readers differ about empty chunks, and one of them adds offset and size before it
compares them with the length.

## Main definitions

* `Cas.HasHeader` — a file starts like a packfile.
* `Cas.FileContent` — the bytes of a file.
* `Cas.ReadersAgree` — the readers are total and give the same.
* `Cas.Formatted` — a file has room for its table, which has these entries.
* `Cas.Readable` — the entries of a table can be followed.

## Main results

* `Cas.readTable_of_formatted`, `Cas.mmap_openFile_of_formatted` — what the readers make of a file
  with a table.
* `Cas.readersAgree_iff` — the files on which the readers are total and agree.

## Design

Whether the build checks for overflow is a parameter. With the checks an overflow panics, so the
readers do not overflow if they do not panic in either build.
-/

namespace Landropic.Cas

/-- The bytes of a file, whose length is a signed 64-bit number. -/
structure FileContent where
  bytes : Bytes
  length_lt : bytes.length < 2 ^ 63

/-- The file starts like a packfile. -/
structure HasHeader (content : Bytes) : Prop where
  header_le : PACKFILE_HEADER_SIZE ≤ content.length
  magic_eq : content.take PACKFILE_MAGIC.length = PACKFILE_MAGIC
  version_eq : leNat ((content.drop PACKFILE_MAGIC.length).take 4) = PACKFILE_VERSION

/-- The number of entries in the header. -/
def entryCount (content : Bytes) : ℕ := leNat ((content.drop (PACKFILE_MAGIC.length + 4)).take 8)

/-- The readers of a file are total and agree: neither panics, the entries they read are between
the header and the footer, they open the same files with the same entries, and read the same chunks
off them. -/
structure ReadersAgree (env : PackEnv) (path : Text) (dir : Dir) (content : Bytes) : Prop where
  file_total : PackfileReader.openFile env path dir ≠ .error .panic
  mmap_total : MmapPackfileReader.openFile env path dir ≠ .error .panic
  in_table : HasHeader content → ∀ offset,
    entryTableOffset env.overflowChecks content.length (entryCount content) = .ok offset →
      ∀ i < entryCount content, PACKFILE_HEADER_SIZE ≤ offset + i * PACKFILE_ENTRY_SIZE ∧
        offset + (i + 1) * PACKFILE_ENTRY_SIZE + PACKFILE_FOOTER_SIZE ≤ content.length
  same_entries : ∀ entries, (∃ r, PackfileReader.openFile env path dir = .ok r ∧
      r.entries = entries) ↔
    ∃ r, MmapPackfileReader.openFile env path dir = .ok r ∧ r.entries = entries
  chunks_total : ∀ r, MmapPackfileReader.openFile env path dir = .ok r → ∀ hash,
    r.readChunk env hash ≠ .error .panic ∧ r.getChunkSlice env hash ≠ .error .panic
  same_chunks : ∀ r r', PackfileReader.openFile env path dir = .ok r →
    MmapPackfileReader.openFile env path dir = .ok r' → ∀ hash data,
      (r.readChunk env hash dir = .ok data ↔ r'.readChunk env hash = .ok data)

/-- The file has a header, and a table with these entries before its footer. -/
structure Formatted (content : Bytes) (entries : List PackfileEntry) : Prop where
  header : HasHeader content
  count_eq : entryCount content = entries.length
  fits : ∀ entry ∈ entries, EntryFits entry
  table : ∃ front footer, content = front ++ (tableOf entries ++ footer) ∧
    footer.length = PACKFILE_FOOTER_SIZE

/-- The entries of a table by their hashes: the last one counts. -/
def mapOf (entries : List PackfileEntry) : HashMap ContentHash PackfileEntry :=
  entries.foldl (fun map entry => map.insert entry.hash entry) ∅

/-- The table can be read and followed: it is behind the header, its sizes add up, no chunk ends
behind the numbers of 64 bits, and no empty chunk starts behind the end of the file, unless its hash
is a wrong one or no file is that long. -/
structure Readable (blake3 : Bytes → ContentHash) (content : Bytes)
    (entries : List PackfileEntry) : Prop where
  behind_header : entries ≠ [] → PACKFILE_HEADER_SIZE + entries.length * PACKFILE_ENTRY_SIZE +
    PACKFILE_FOOTER_SIZE ≤ content.length
  total_lt : totalSizeOf entries < 2 ^ 64
  stop_lt : ∀ hash entry, (mapOf entries).lookup hash = some entry →
    entry.offset + entry.size < 2 ^ 64
  empty : ∀ hash entry, (mapOf entries).lookup hash = some entry → entry.size = 0 →
    blake3 [] = hash → entry.offset ≤ content.length ∨ 2 ^ 63 ≤ entry.offset

/-! ## Opening -/

section Opening

variable {env : PackEnv} {content : Bytes} {dir : Dir} {path : Text}
  {entries : List PackfileEntry}

lemma readTable_of_not_hasHeader (h : ¬ HasHeader content) :
    ∃ e, PackfileReader.readTable env content = .error (.err e) := by
  unfold PackfileReader.readTable
  by_cases hmagic : PACKFILE_MAGIC.length ≤ content.length
  · rw [readExact, if_pos hmagic]
    simp only [liftIo_ok, Except.ok_bind]
    by_cases hmagic' : content.take PACKFILE_MAGIC.length = PACKFILE_MAGIC
    · rw [if_neg (not_not.mpr hmagic')]
      by_cases hversion : 4 ≤ (content.drop PACKFILE_MAGIC.length).length
      · rw [readLe, if_pos hversion]
        simp only [liftIo_ok, Except.ok_bind]
        by_cases hversion' :
            leNat ((content.drop PACKFILE_MAGIC.length).take 4) = PACKFILE_VERSION
        · rw [if_neg (not_not.mpr hversion')]
          have hshort : ¬ 8 ≤ ((content.drop PACKFILE_MAGIC.length).drop 4).length := by
            intro hle
            refine h ⟨?_, hmagic', hversion'⟩
            rw [List.length_drop, List.length_drop] at hle
            have hlength : PACKFILE_MAGIC.length = 14 := rfl
            unfold PACKFILE_HEADER_SIZE
            omega
          rw [readLe, if_neg hshort]
          exact ⟨_, rfl⟩
        · rw [if_pos hversion']
          exact ⟨_, rfl⟩
      · rw [readLe, if_neg hversion]
        exact ⟨_, rfl⟩
    · rw [if_pos hmagic']
      exact ⟨_, rfl⟩
  · rw [readExact, if_neg hmagic]
    exact ⟨_, rfl⟩

lemma mmap_openFile_of_not_hasHeader (hlookup : dir.lookup path = some content)
    (h : ¬ HasHeader content) :
    ∃ e, MmapPackfileReader.openFile env path dir = .error (.err e) := by
  unfold MmapPackfileReader.openFile
  rw [hlookup]
  simp only [Except.ok_bind]
  by_cases hsize : content.length < PACKFILE_HEADER_SIZE
  · rw [if_pos hsize]
    exact ⟨_, rfl⟩
  · rw [if_neg hsize]
    by_cases hmagic : content.take PACKFILE_MAGIC.length = PACKFILE_MAGIC
    · rw [if_neg (not_not.mpr hmagic)]
      by_cases hversion : leNat ((content.drop PACKFILE_MAGIC.length).take 4) = PACKFILE_VERSION
      · exact absurd ⟨Nat.not_lt.mp hsize, hmagic, hversion⟩ h
      · rw [if_pos hversion]
        exact ⟨_, rfl⟩
    · rw [if_pos hmagic]
      exact ⟨_, rfl⟩

/-- What the reader does with a file that has a header. -/
lemma readTable_of_hasHeader (h : HasHeader content) :
    PackfileReader.readTable env content = (do
      let tableOffset ← entryTableOffset env.overflowChecks content.length (entryCount content)
      let stream ← liftIo (seekStart tableOffset content)
      let (entries, totalSize, stream) ←
        PackfileReader.readEntries env (entryCount content) stream ∅ 0
      let _ ← liftIo (readExact 32 stream)
      .ok (entries, .of entries totalSize)) := by
  have hle := h.header_le
  unfold PACKFILE_HEADER_SIZE at hle
  have hlength : PACKFILE_MAGIC.length = 14 := rfl
  have hmagic : PACKFILE_MAGIC.length ≤ content.length := by omega
  have hversion : 4 ≤ (content.drop PACKFILE_MAGIC.length).length := by
    rw [List.length_drop]
    omega
  have hcount : 8 ≤ ((content.drop PACKFILE_MAGIC.length).drop 4).length := by
    rw [List.length_drop, List.length_drop]
    omega
  unfold PackfileReader.readTable
  rw [readExact, if_pos hmagic]
  simp only [liftIo_ok, Except.ok_bind]
  rw [if_neg (not_not.mpr h.magic_eq), readLe, if_pos hversion]
  simp only [liftIo_ok, Except.ok_bind]
  rw [if_neg (not_not.mpr h.version_eq), readLe, if_pos hcount, List.drop_drop]
  simp only [liftIo_ok, Except.ok_bind]
  rfl

/-- What the reader in memory does with a file that has a header. -/
lemma mmap_openFile_of_hasHeader (hlookup : dir.lookup path = some content)
    (h : HasHeader content) :
    MmapPackfileReader.openFile env path dir = (do
      let tableOffset ← entryTableOffset env.overflowChecks content.length (entryCount content)
      let (entries, totalSize) ←
        MmapPackfileReader.parseEntries env content (entryCount content) tableOffset ∅ 0
      .ok ⟨entries, .of entries totalSize, content⟩) := by
  unfold MmapPackfileReader.openFile
  rw [hlookup]
  simp only [Except.ok_bind]
  rw [if_neg (Nat.not_lt.mpr h.header_le), if_neg (not_not.mpr h.magic_eq),
    if_neg (not_not.mpr h.version_eq)]
  rfl

lemma exists_entries (n : ℕ) {bytes : Bytes} (h : bytes.length = n * PACKFILE_ENTRY_SIZE) :
    ∃ entries, entries.length = n ∧ tableOf entries = bytes ∧
      ∀ entry ∈ entries, EntryFits entry := by
  unfold PACKFILE_ENTRY_SIZE at h
  induction n generalizing bytes with
  | zero =>
    rw [Nat.zero_mul, List.length_eq_zero_iff] at h
    exact ⟨[], rfl, h.symm, nofun⟩
  | succ n ih =>
    have hrest : (bytes.drop 44).length = n * 44 := by
      rw [List.length_drop]
      omega
    have hhash : (bytes.take 32).length = 32 := List.length_take_of_le (by omega)
    have hoffset : ((bytes.drop 32).take 8).length = 8 :=
      List.length_take_of_le (by rw [List.length_drop]; omega)
    have hsize : ((bytes.drop 40).take 4).length = 4 :=
      List.length_take_of_le (by rw [List.length_drop]; omega)
    have hoffset' := leBytes_leNat ((bytes.drop 32).take 8)
    have hsize' := leBytes_leNat ((bytes.drop 40).take 4)
    rw [hoffset] at hoffset'
    rw [hsize] at hsize'
    obtain ⟨entries, hlength, htable, hfits⟩ := ih hrest
    refine ⟨⟨⟨bytes.take 32, hhash⟩, leNat ((bytes.drop 32).take 8),
      leNat ((bytes.drop 40).take 4)⟩ :: entries, by rw [List.length_cons, hlength], ?_,
      List.forall_mem_cons.mpr ⟨⟨?_, ?_⟩, hfits⟩⟩
    · rw [tableOf_cons, hoffset', hsize', htable]
      have h40 : bytes.drop 40 = (bytes.drop 32).drop 8 := by rw [List.drop_drop]
      have h44 : bytes.drop 44 = (bytes.drop 40).drop 4 := by rw [List.drop_drop]
      rw [h44, List.take_append_drop, h40, List.take_append_drop, List.take_append_drop]
    · have hlt := leNat_lt ((bytes.drop 32).take 8)
      rw [hoffset] at hlt
      exact hlt.trans_eq (by decide)
    · have hlt := leNat_lt ((bytes.drop 40).take 4)
      rw [hsize] at hlt
      exact hlt.trans_eq (by decide)

lemma exists_formatted (h : HasHeader content)
    (hle : PACKFILE_FOOTER_SIZE + entryCount content * PACKFILE_ENTRY_SIZE ≤ content.length) :
    ∃ entries, Formatted content entries := by
  set start := content.length - PACKFILE_FOOTER_SIZE - entryCount content * PACKFILE_ENTRY_SIZE
    with hstart
  set size := entryCount content * PACKFILE_ENTRY_SIZE with hsize
  have hlength :
      ((content.drop start).take size).length = entryCount content * PACKFILE_ENTRY_SIZE :=
    List.length_take_of_le (by rw [List.length_drop]; omega)
  obtain ⟨entries, hcount, htable, hfits⟩ := exists_entries (entryCount content) hlength
  refine ⟨entries, h, hcount.symm, hfits, content.take start, (content.drop start).drop size,
    ?_, ?_⟩
  · rw [htable, List.take_append_drop, List.take_append_drop]
  · rw [List.length_drop, List.length_drop]
    omega

/-- The length of a file with a table. -/
lemma Formatted.length_eq (h : Formatted content entries) : ∃ front footer,
    content = front ++ (tableOf entries ++ footer) ∧ footer.length = PACKFILE_FOOTER_SIZE ∧
      content.length = front.length + entries.length * PACKFILE_ENTRY_SIZE + PACKFILE_FOOTER_SIZE ∧
        ∀ checks, entryTableOffset checks content.length (entryCount content) =
          .ok front.length := by
  obtain ⟨front, footer, hcontent, hfooter⟩ := h.table
  have hlength : content.length =
      front.length + entries.length * PACKFILE_ENTRY_SIZE + PACKFILE_FOOTER_SIZE := by
    rw [hcontent, List.length_append, List.length_append, length_tableOf, hfooter, Nat.add_assoc]
  refine ⟨front, footer, hcontent, hfooter, hlength, fun checks => ?_⟩
  rw [entryTableOffset, h.count_eq, if_pos (by omega)]
  congr 1
  omega

/-- **Reading a file with a table** gives its entries, if their sizes add up. -/
theorem readTable_of_formatted (h : Formatted content entries) (hlt : content.length < 2 ^ 63)
    (htotal : totalSizeOf entries < 2 ^ 64) : PackfileReader.readTable env content =
      .ok (mapOf entries, .of (mapOf entries) (totalSizeOf entries)) := by
  obtain ⟨front, footer, hcontent, hfooter, hlength, hoffset⟩ := h.length_eq
  have hseek : seekStart front.length content = .ok (tableOf entries ++ footer) := by
    rw [seekStart, if_pos (by omega), hcontent, List.drop_left]
  have hread := @readEntries_tableOf env entries footer ∅ 0 h.fits (by omega)
  have hhash : readExact 32 footer = .ok (footer, []) := by
    have hfooter' : footer.length = 32 := hfooter
    rw [readExact, if_pos hfooter'.ge, ← hfooter', List.take_length, List.drop_length]
  rw [readTable_of_hasHeader h.header, hoffset, h.count_eq]
  simp only [Except.ok_bind, hseek, liftIo_ok, hread, hhash, Nat.zero_add]
  rfl

/-- **Opening a file with a table in memory** gives its entries, if their sizes add up. -/
theorem mmap_openFile_of_formatted (h : Formatted content entries) (hlt : content.length < 2 ^ 63)
    (htotal : totalSizeOf entries < 2 ^ 64) (hlookup : dir.lookup path = some content) :
    MmapPackfileReader.openFile env path dir =
      .ok ⟨mapOf entries, .of (mapOf entries) (totalSizeOf entries), content⟩ := by
  obtain ⟨front, footer, hcontent, hfooter, hlength, hoffset⟩ := h.length_eq
  have hparse := parseEntries_tableOf env hlt entries hcontent ∅ 0 h.fits (by omega)
  rw [mmap_openFile_of_hasHeader hlookup h.header, hoffset, h.count_eq]
  simp only [Except.ok_bind, hparse, Nat.zero_add]
  rfl

/-- Where sizes do not add up, a build with checks panics. -/
lemma readEntries_overflow (hchecks : env.overflowChecks = true) (entries : List PackfileEntry)
    (rest : Bytes) (map : HashMap ContentHash PackfileEntry) {total : ℕ}
    (hfits : ∀ entry ∈ entries, EntryFits entry) (hlt : total < 2 ^ 64)
    (htotal : 2 ^ 64 ≤ total + totalSizeOf entries) :
    PackfileReader.readEntries env entries.length (tableOf entries ++ rest) map total =
      .error .panic := by
  induction entries generalizing map total with
  | nil =>
    have hnil : totalSizeOf [] = 0 := rfl
    omega
  | cons entry entries ih =>
    obtain ⟨⟨hoffset, hsize⟩, hrest⟩ := List.forall_mem_cons.mp hfits
    have hoffset' : entry.offset < 256 ^ 8 := by omega
    have hsize' : entry.size < 256 ^ 4 := by omega
    rw [totalSizeOf_cons, ← Nat.add_assoc] at htotal
    simp only [List.length_cons, PackfileReader.readEntries, tableOf_cons, List.append_assoc,
      readExact_append entry.hash.length_asBytes, readLe_append hoffset', readLe_append hsize',
      liftIo_ok, Except.ok_bind, ContentHash.length_asBytes, dite_true]
    by_cases hadd : total + entry.size < 2 ^ 64
    · rw [addU64, if_pos hadd]
      exact ih _ hrest hadd htotal
    · rw [addU64, if_neg hadd, hchecks]
      rfl

lemma exists_formatted_of_total (hchecks : env.overflowChecks = true) (h : HasHeader content)
    (hlt : content.length < 2 ^ 63)
    (htotal : PackfileReader.readTable env content ≠ .error .panic) :
    ∃ entries, Formatted content entries ∧ totalSizeOf entries < 2 ^ 64 := by
  by_cases hle : PACKFILE_FOOTER_SIZE + entryCount content * PACKFILE_ENTRY_SIZE ≤ content.length
  · obtain ⟨entries, hentries⟩ := exists_formatted h hle
    refine ⟨entries, hentries, not_le.mp fun hge => htotal ?_⟩
    obtain ⟨front, footer, hcontent, -, hlength, hoffset⟩ := hentries.length_eq
    have hseek : seekStart front.length content = .ok (tableOf entries ++ footer) := by
      rw [seekStart, if_pos (by omega), hcontent, List.drop_left]
    have hread := @readEntries_overflow env hchecks entries footer ∅ 0 hentries.fits
      (by omega) (by omega)
    rw [readTable_of_hasHeader h, hoffset, hentries.count_eq]
    simp only [Except.ok_bind, hseek, liftIo_ok, hread]
    rfl
  · refine absurd ?_ htotal
    rw [readTable_of_hasHeader h, entryTableOffset, if_neg hle, hchecks]
    rfl

end Opening

/-! ## Reading chunks -/

section Reading

variable {env : PackEnv} {content data : Bytes} {dir : Dir} {hash : ContentHash}

/-- What is read off a file. -/
lemma readChunk_eq_ok_iff {r : PackfileReader} (hlookup : dir.lookup r.filePath = some content) :
    r.readChunk env hash dir = .ok data ↔ ∃ entry, r.entries.lookup hash = some entry ∧
      entry.offset < 2 ^ 63 ∧ entry.size ≤ content.length - entry.offset ∧
        env.blake3 data = hash ∧ data = (content.drop entry.offset).take entry.size := by
  unfold PackfileReader.readChunk
  cases hentry : r.entries.lookup hash with
  | none =>
    refine iff_of_false ?_ ?_
    · rintro ⟨⟩
    · rintro ⟨_, ⟨⟩, -⟩
  | some entry =>
    simp only [hlookup, seekStart]
    by_cases hoffset : entry.offset < 2 ^ 63
    · simp only [if_pos hoffset, readExact, List.length_drop]
      by_cases hsize : entry.size ≤ content.length - entry.offset
      · simp only [if_pos hsize]
        by_cases hhash : env.blake3 ((content.drop entry.offset).take entry.size) = hash
        · rw [if_neg (not_not.mpr hhash), Except.ok.injEq]
          constructor
          · rintro rfl
            exact ⟨entry, rfl, hoffset, hsize, hhash, rfl⟩
          · rintro ⟨_, heq, -, -, -, rfl⟩
            cases heq
            rfl
        · rw [if_pos hhash]
          refine iff_of_false (by rintro ⟨⟩) ?_
          rintro ⟨_, heq, -, -, hhash', rfl⟩
          cases heq
          exact hhash hhash'
      · simp only [if_neg hsize]
        refine iff_of_false (by rintro ⟨⟩) ?_
        rintro ⟨_, heq, -, hsize', -⟩
        cases heq
        exact hsize hsize'
    · simp only [if_neg hoffset]
      refine iff_of_false (by rintro ⟨⟩) ?_
      rintro ⟨_, heq, hoffset', -⟩
      cases heq
      exact hoffset hoffset'

variable {r : MmapPackfileReader} {entry : PackfileEntry}

/-- A slice of a file whose end is a number of 64 bits is taken or refused. -/
lemma getChunkSlice_of_lookup (hentry : r.entries.lookup hash = some entry)
    (hstop : entry.offset + entry.size < 2 ^ 64) : r.getChunkSlice env hash =
      if entry.offset + entry.size ≤ r.mmap.length then
        .ok ((r.mmap.drop entry.offset).take entry.size)
      else .error (.err (.corruptObject "Chunk data extends beyond packfile")) := by
  unfold MmapPackfileReader.getChunkSlice MmapPackfileReader.addUsize addU64
  rw [hentry]
  simp only [if_pos hstop, Except.ok_bind]
  by_cases hle : entry.offset + entry.size ≤ r.mmap.length
  · rw [if_neg (Nat.not_lt.mpr hle), if_pos hle, MmapPackfileReader.slice,
      if_pos ⟨Nat.le_add_right _ _, hle⟩, Nat.add_sub_cancel_left]
  · rw [if_pos (Nat.not_le.mp hle), if_neg hle]

lemma mmap_readChunk_eq : r.readChunk env hash = (r.getChunkSlice env hash >>= fun data =>
    if env.blake3 data ≠ hash then .error (.err (.hashMismatch hash (env.blake3 data)))
    else .ok data) := by
  unfold MmapPackfileReader.readChunk MmapPackfileReader.getChunkSlice
  cases r.entries.lookup hash with
  | none => rfl
  | some entry =>
    dsimp only
    cases MmapPackfileReader.addUsize env entry.offset entry.size with
    | error e => rfl
    | ok stop =>
      simp only [Except.ok_bind]
      split
      · rfl
      · rfl

/-- What is read off memory. -/
lemma mmap_readChunk_eq_ok_iff (hstop : ∀ entry, r.entries.lookup hash = some entry →
    entry.offset + entry.size < 2 ^ 64) :
    r.readChunk env hash = .ok data ↔ ∃ entry, r.entries.lookup hash = some entry ∧
      entry.offset + entry.size ≤ r.mmap.length ∧
        env.blake3 data = hash ∧ data = (r.mmap.drop entry.offset).take entry.size := by
  rw [mmap_readChunk_eq]
  cases hentry : r.entries.lookup hash with
  | none =>
    refine iff_of_false ?_ nofun
    rw [MmapPackfileReader.getChunkSlice, hentry]
    nofun
  | some entry =>
    rw [getChunkSlice_of_lookup hentry (hstop entry hentry)]
    by_cases hle : entry.offset + entry.size ≤ r.mmap.length
    · rw [if_pos hle, Except.ok_bind]
      by_cases hhash : env.blake3 ((r.mmap.drop entry.offset).take entry.size) = hash
      · rw [if_neg (not_not.mpr hhash), Except.ok.injEq]
        constructor
        · rintro rfl
          exact ⟨entry, rfl, hle, hhash, rfl⟩
        · rintro ⟨_, heq, -, -, rfl⟩
          cases heq
          rfl
      · rw [if_pos hhash]
        refine iff_of_false nofun ?_
        rintro ⟨_, heq, -, hhash', rfl⟩
        cases heq
        exact hhash hhash'
    · rw [if_neg hle]
      refine iff_of_false nofun ?_
      rintro ⟨_, heq, hle', -⟩
      cases heq
      exact hle hle'

lemma mmap_chunks_total (hstop : ∀ entry, r.entries.lookup hash = some entry →
    entry.offset + entry.size < 2 ^ 64) :
    r.readChunk env hash ≠ .error .panic ∧ r.getChunkSlice env hash ≠ .error .panic := by
  have hslice : r.getChunkSlice env hash ≠ .error .panic := by
    cases hentry : r.entries.lookup hash with
    | none =>
      rw [MmapPackfileReader.getChunkSlice, hentry]
      nofun
    | some entry =>
      rw [getChunkSlice_of_lookup hentry (hstop entry hentry)]
      split
      · nofun
      · nofun
  refine ⟨?_, hslice⟩
  rw [mmap_readChunk_eq]
  cases hresult : r.getChunkSlice env hash with
  | error e =>
    rw [hresult] at hslice
    exact hslice
  | ok data =>
    rw [Except.ok_bind]
    split
    · nofun
    · nofun

lemma getChunkSlice_overflow (hchecks : env.overflowChecks = true)
    (hentry : r.entries.lookup hash = some entry) (hstop : ¬ entry.offset + entry.size < 2 ^ 64) :
    r.getChunkSlice env hash = .error .panic := by
  unfold MmapPackfileReader.getChunkSlice MmapPackfileReader.addUsize addU64
  rw [hentry, hchecks]
  simp only [if_neg hstop]
  rfl

end Reading

/-! ## Agreement -/

section Agreement

variable {env : PackEnv} {content : Bytes} {dir : Dir} {path : Text}
  {entries : List PackfileEntry}

lemma openFile_of_lookup (hlookup : dir.lookup path = some content) :
    PackfileReader.openFile env path dir =
      (PackfileReader.readTable env content).map fun table => ⟨path, table.1, table.2⟩ := by
  rw [PackfileReader.openFile, hlookup]

lemma readersAgree_of_not_hasHeader (hlookup : dir.lookup path = some content)
    (h : ¬ HasHeader content) : ReadersAgree env path dir content := by
  obtain ⟨e, hmmap⟩ := @mmap_openFile_of_not_hasHeader env _ _ _ hlookup h
  obtain ⟨e', htable⟩ := @readTable_of_not_hasHeader env _ h
  have hfile : PackfileReader.openFile env path dir = .error (.err e') := by
    rw [openFile_of_lookup hlookup, htable]
    rfl
  constructor
  · rw [hfile]
    nofun
  · rw [hmmap]
    nofun
  · exact fun hheader => absurd hheader h
  · intro entries
    rw [hfile, hmmap]
    exact iff_of_false nofun nofun
  · rw [hmmap]
    nofun
  · rw [hfile]
    nofun

/-- The readers of a file with a table. -/
lemma opened_of_formatted (h : Formatted content entries) (hlt : content.length < 2 ^ 63)
    (htotal : totalSizeOf entries < 2 ^ 64) (hlookup : dir.lookup path = some content) :
    PackfileReader.openFile env path dir =
        .ok ⟨path, mapOf entries, .of (mapOf entries) (totalSizeOf entries)⟩ ∧
      MmapPackfileReader.openFile env path dir =
        .ok ⟨mapOf entries, .of (mapOf entries) (totalSizeOf entries), content⟩ := by
  refine ⟨?_, mmap_openFile_of_formatted h hlt htotal hlookup⟩
  rw [openFile_of_lookup hlookup, readTable_of_formatted h hlt htotal]
  rfl

lemma Readable.readersAgree (hreadable : Readable env.blake3 content entries)
    (h : Formatted content entries) (hlt : content.length < 2 ^ 63)
    (hlookup : dir.lookup path = some content) : ReadersAgree env path dir content := by
  obtain ⟨hfile, hmmap⟩ := @opened_of_formatted env _ _ _ _ h hlt hreadable.total_lt hlookup
  obtain ⟨front, footer, hcontent, hfooter, hlength, hoffset⟩ := h.length_eq
  constructor
  · rw [hfile]
    nofun
  · rw [hmmap]
    nofun
  · intro _ offset htable i hi
    rw [hoffset] at htable
    obtain rfl := Except.ok.inj htable
    rw [h.count_eq] at hi
    have hne : entries ≠ [] := List.ne_nil_of_length_pos (Nat.zero_lt_of_lt hi)
    have hroom := hreadable.behind_header hne
    have hnext : (i + 1) * PACKFILE_ENTRY_SIZE ≤ entries.length * PACKFILE_ENTRY_SIZE :=
      Nat.mul_le_mul_right _ hi
    exact ⟨by omega, by omega⟩
  · intro entries'
    rw [hfile, hmmap]
    constructor
    · rintro ⟨_, heq, rfl⟩
      cases heq
      exact ⟨_, rfl, rfl⟩
    · rintro ⟨_, heq, rfl⟩
      cases heq
      exact ⟨_, rfl, rfl⟩
  · intro r hr hash
    rw [hmmap] at hr
    cases hr
    exact mmap_chunks_total fun entry => hreadable.stop_lt hash entry
  · intro r r' hr hr' hash data
    rw [hfile] at hr
    rw [hmmap] at hr'
    cases hr
    cases hr'
    rw [readChunk_eq_ok_iff hlookup,
      mmap_readChunk_eq_ok_iff fun entry => hreadable.stop_lt hash entry]
    refine exists_congr fun entry => and_congr_right fun hentry => ?_
    dsimp only at hentry
    constructor
    · rintro ⟨hoffset, hsize, hhash, rfl⟩
      refine ⟨?_, hhash, rfl⟩
      rcases Nat.eq_zero_or_pos entry.size with hzero | hpos
      · -- an empty chunk, which starts within the file
        rw [hzero, List.take_zero] at hhash
        have hstart := hreadable.empty hash entry hentry hzero hhash
        dsimp only
        omega
      · dsimp only
        omega
    · rintro ⟨hstop, hhash, rfl⟩
      dsimp only at hstop
      exact ⟨by omega, by omega, hhash, rfl⟩

/-- **The files on which the readers are total and agree.** They have no header, or a table behind
it that can be read and followed.

**Proof sketch.** In a build with checks the readers panic where the file is too short for its table
and where the sizes of the table overflow. Otherwise they have the same entries. A chunk is read off
memory if it ends within the file; off the file also if it is empty and starts behind the end. -/
theorem readersAgree_iff (blake3 : Bytes → ContentHash) (path : Text) (dir : Dir)
    (content : FileContent) :
    (∀ overflowChecks, ReadersAgree (.std blake3 overflowChecks) path
        (dir.insert path content.bytes) content.bytes) ↔
      (HasHeader content.bytes → ∃ entries, Formatted content.bytes entries ∧
        Readable blake3 content.bytes entries) := by
  obtain ⟨content, hlt⟩ := content
  have hlookup : (dir.insert path content).lookup path = some content := Finmap.lookup_insert _
  constructor
  · intro hagree hheader
    have hchecked := hagree true
    have htotal : PackfileReader.readTable (.std blake3 true) content ≠ .error .panic := by
      intro hpanic
      refine hchecked.file_total ?_
      rw [openFile_of_lookup hlookup, hpanic]
      rfl
    obtain ⟨entries, hentries, htotal_lt⟩ := exists_formatted_of_total rfl hheader hlt htotal
    obtain ⟨hfile, hmmap⟩ :=
      @opened_of_formatted (.std blake3 true) _ _ _ _ hentries hlt htotal_lt hlookup
    have hstop : ∀ hash entry, (mapOf entries).lookup hash = some entry →
        entry.offset + entry.size < 2 ^ 64 := by
      intro hash entry hentry
      by_contra hge
      exact (hchecked.chunks_total _ hmmap hash).2 (getChunkSlice_overflow rfl hentry hge)
    refine ⟨entries, hentries, fun hne => ?_, htotal_lt, hstop, ?_⟩
    · obtain ⟨front, footer, hcontent, hfooter, hlength, hoffset⟩ := hentries.length_eq
      have hpos : 0 < entryCount content := by
        rw [hentries.count_eq]
        exact List.length_pos_iff.mpr hne
      obtain ⟨hbehind, -⟩ := hchecked.in_table hheader _ (hoffset _) 0 hpos
      omega
    · intro hash entry hentry hzero hhash
      by_contra hout
      -- off the file, the empty chunk is read
      have hread := (hchecked.same_chunks _ _ hfile hmmap hash []).mp
        ((readChunk_eq_ok_iff hlookup).mpr
          ⟨entry, hentry, by omega, by omega, hhash, by rw [hzero, List.take_zero]⟩)
      rw [mmap_readChunk_eq_ok_iff fun entry => hstop hash entry] at hread
      obtain ⟨entry', hentry', hle, -⟩ := hread
      obtain rfl := Option.some.inj (hentry.symm.trans hentry')
      dsimp only at hle hout
      omega
  · intro h checks
    by_cases hheader : HasHeader content
    · obtain ⟨entries, hentries, hreadable⟩ := h hheader
      exact @Readable.readersAgree (.std blake3 checks) _ _ _ _ hreadable hentries hlt hlookup
    · exact readersAgree_of_not_hasHeader hlookup hheader

/-- The readers do not agree on a packfile that was only created: a build with checks panics. -/
theorem not_readersAgree_header :
    ¬ ∀ overflowChecks, ReadersAgree (.std ContentHash.blake3Sample overflowChecks)
      "test.pack".toList ((∅ : Dir).insert "test.pack".toList (header 0)) (header 0) :=
  fun h => (h true).file_total rfl

end Agreement

end Landropic.Cas
