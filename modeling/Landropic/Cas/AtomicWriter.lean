import Landropic.Cas.Errors
import Landropic.Foundations.FileHandle
import Landropic.Foundations.FileNames

set_option autoImplicit false

/-!
# Files that are written atomically

A writer keeps what it has got in a temporary file beside its target, which is renamed when it is
complete. After a crash that file is looked for by its name, and a writer can go on with it. The
name puts `.tmp.` and a UUID behind the extension of the target, with a dot more if there is none,
while the search is for the name of the target and `.tmp.` behind it; and files of other targets can
have such names too.

## Main definitions

* `Cas.AtomicWriter` — a writer, and its calls.
* `Cas.checkResumableWrite`, `Cas.ResumableWrite.resume` — finding a temporary file, and going on
  with it.
* `Cas.Interrupted` — what a crash has left of some writers.
* `Cas.Resumes` — an interrupted write can be resumed.
* `Cas.Finds` — the search for a target finds the temporary files of another one.

## Main results

* `Cas.resumes_interrupted_iff` — when an interrupted write can be resumed.
* `Cas.finds_self_iff`, `Cas.finds_iff` — what this means for names that are texts.

## Design

A directory holds files by the bytes of their names. No disk fails. A crash keeps of every file the
first so many of its bytes.
-/

namespace Landropic.Cas

open FileName

/-- The files of a directory by the bytes of their names. -/
abbrev OsDir := HashMap Bytes Bytes

/-- A random UUID. -/
abbrev Uuid := Fin (2 ^ 128)

/-- The 32 digits of a UUID. -/
def Uuid.simple (uuid : Uuid) : Bytes := Text.utf8 (Hex.encode (leBytes 16 uuid))

/-- The bytes of `.tmp.` -/
def TEMP_MARK : Bytes := [46, 116, 109, 112, 46]

example : TEMP_MARK = Text.utf8 ".tmp.".toList := by decide

/-- How a file is open for writing. -/
inductive OpenFile
  | position (pos : ℕ)
  /-- Every write goes to the end. -/
  | append
  deriving DecidableEq

/-- Where the next write goes. -/
def OpenFile.pos (content : Bytes) : OpenFile → ℕ
  | .position pos => pos
  | .append => content.length

/-- The file after so many bytes were written. -/
def OpenFile.advance (n : ℕ) : OpenFile → OpenFile
  | .position pos => .position (pos + n)
  | .append => .append

/-- Atomic file writer with crash safety guarantees. The hasher is what it was given. -/
structure AtomicWriter where
  finalPath : Bytes
  tempPath : Bytes
  file : Option OpenFile
  hasher : Bytes
  bytesWritten : ℕ

/-- Result of successful atomic write. -/
structure AtomicWriteResult where
  path : Bytes
  bytesWritten : ℕ
  contentHash : ContentHash
  deriving DecidableEq

namespace AtomicWriter

/-- The temporary name of a path. -/
def tempName (path : Bytes) (uuid : Uuid) : Bytes :=
  withExtension 46 path (((extension 46 path).bind toStr).getD [] ++ TEMP_MARK ++ uuid.simple)

/-- Create a new atomic writer for the given path. -/
def new (path : Bytes) (uuid : Uuid) (dir : OsDir) : AtomicWriter × OsDir :=
  ({ finalPath := path
     tempPath := tempName path uuid
     file := some (.position 0)
     hasher := []
     bytesWritten := 0 }, dir.insert (tempName path uuid) [])

/-- Write data to the atomic writer. -/
def write (w : AtomicWriter) (data : Bytes) (dir : OsDir) :
    Except CasError Unit × AtomicWriter × OsDir :=
  match w.file with
  | some file =>
    let content := (dir.lookup w.tempPath).getD []
    (.ok (),
      { w with
        file := some (file.advance data.length)
        hasher := w.hasher ++ data
        bytesWritten := w.bytesWritten + data.length },
      dir.insert w.tempPath (overwrite content (file.pos content) data))
  | none => (.error (.invalidOperation "Writer already finalized"), w, dir)

variable (blake3 : Bytes → ContentHash)

/-- Finalize the write atomically. -/
def commit (w : AtomicWriter) (dir : OsDir) : Except CasError AtomicWriteResult × OsDir :=
  match w.file with
  | some _ =>
    match dir.lookup w.tempPath with
    | none => (.error (.io .notFound), dir)
    | some content =>
      (.ok ⟨w.finalPath, w.bytesWritten, blake3 w.hasher⟩,
        (dir.erase w.tempPath).insert w.finalPath content)
  | none => (.error (.invalidOperation "Writer already finalized"), dir)

/-- Write data piece by piece, and finalize the write. -/
def finish : List Bytes → AtomicWriter → OsDir → Except CasError AtomicWriteResult × OsDir
  | [], w, dir => w.commit blake3 dir
  | data :: pieces, w, dir =>
    match w.write data dir with
    | (.error e, _, dir) => (.error e, dir)
    | (.ok (), w, dir) => finish pieces w dir

end AtomicWriter

/-- Information about a resumable write operation. -/
structure ResumableWrite where
  originalPath : Bytes
  tempPath : Bytes
  bytesWritten : ℕ
  deriving DecidableEq

/-- Check if a file write was interrupted and can be resumed. -/
def checkResumableWrite (order : IterOrder Bytes) (path : Bytes) (dir : OsDir) :
    Option ResumableWrite :=
  (order.entries dir).findSome? fun entry =>
    match toStr entry.1 with
    | some name =>
      if ((toStr path).getD [] ++ TEMP_MARK).isPrefixOf name then
        some ⟨path, entry.1, entry.2.length⟩
      else none
    | none => none

/-- Resume writing from where we left off. A new UUID is drawn where the file has changed. -/
def ResumableWrite.resume (r : ResumableWrite) (uuid : Uuid) (dir : OsDir) :
    Except CasError AtomicWriter × OsDir :=
  match dir.lookup r.tempPath with
  | none => (.error (.io .notFound), dir)
  | some existingData =>
    if existingData.length ≠ r.bytesWritten then
      let created := AtomicWriter.new r.originalPath uuid (dir.erase r.tempPath)
      (.ok created.1, created.2)
    else
      (.ok
        { finalPath := r.originalPath
          tempPath := r.tempPath
          file := some .append
          hasher := existingData
          bytesWritten := r.bytesWritten }, dir)

/-! ## Writing -/

section Writing

variable {w : AtomicWriter} {dir : OsDir} {content : Bytes}

/-- A writer has written these bytes, and goes on behind them. -/
structure AtomicWriter.Holds (w : AtomicWriter) (dir : OsDir) (content : Bytes) : Prop where
  file : ∃ file, w.file = some file ∧ file.pos content = content.length
  lookup : dir.lookup w.tempPath = some content
  hasher : w.hasher = content
  bytesWritten : w.bytesWritten = content.length

lemma AtomicWriter.holds_new (path : Bytes) (uuid : Uuid) (dir : OsDir) :
    (AtomicWriter.new path uuid dir).1.Holds (AtomicWriter.new path uuid dir).2 [] :=
  ⟨⟨_, rfl, rfl⟩, Finmap.lookup_insert _, rfl, rfl⟩

/-- **A write** goes behind what was written. -/
lemma AtomicWriter.Holds.write (h : w.Holds dir content) (data : Bytes) :
    ∃ w' dir', w.write data dir = (.ok (), w', dir') ∧ w'.Holds dir' (content ++ data) ∧
      w'.finalPath = w.finalPath ∧ w'.tempPath = w.tempPath ∧
      ∀ name, name ≠ w.tempPath → dir'.lookup name = dir.lookup name := by
  obtain ⟨file, hfile, hpos⟩ := h.file
  have hcontent : (dir.lookup w.tempPath).getD [] = content := by
    rw [h.lookup, Option.getD_some]
  have hwrite : w.write data dir = (.ok (),
      { w with
        file := some (file.advance data.length)
        hasher := w.hasher ++ data
        bytesWritten := w.bytesWritten + data.length },
      dir.insert w.tempPath (content ++ data)) := by
    rw [AtomicWriter.write, hfile]
    dsimp only
    rw [hcontent, hpos, overwrite_append]
  refine ⟨_, _, hwrite, ⟨⟨_, rfl, ?_⟩, Finmap.lookup_insert _, ?_, ?_⟩, rfl, rfl,
    fun name hne => Finmap.lookup_insert_of_ne _ hne⟩
  · cases file with
    | position pos =>
      show pos + data.length = (content ++ data).length
      rw [List.length_append, ← hpos]
      rfl
    | append => rfl
  · show w.hasher ++ data = content ++ data
    rw [h.hasher]
  · show w.bytesWritten + data.length = (content ++ data).length
    rw [h.bytesWritten, List.length_append]

/-- **Finishing a write** leaves all that was written at the target, with its length and hash. -/
lemma AtomicWriter.Holds.finish (blake3 : Bytes → ContentHash) (h : w.Holds dir content)
    (pieces : List Bytes) :
    ∃ dir', AtomicWriter.finish blake3 pieces w dir =
        (.ok ⟨w.finalPath, (content ++ pieces.flatten).length, blake3 (content ++ pieces.flatten)⟩,
          dir') ∧
      dir'.lookup w.finalPath = some (content ++ pieces.flatten) := by
  induction pieces generalizing w dir content with
  | nil =>
    obtain ⟨file, hfile, -⟩ := h.file
    rw [List.flatten_nil, List.append_nil, AtomicWriter.finish, AtomicWriter.commit, hfile]
    dsimp only
    rw [h.lookup, h.hasher, h.bytesWritten]
    exact ⟨_, rfl, Finmap.lookup_insert _⟩
  | cons data pieces ih =>
    obtain ⟨w', dir', hwrite, h', hfinal, -, -⟩ := h.write data
    obtain ⟨dir'', hfinish, hlookup⟩ := ih h'
    rw [hfinal, List.append_assoc] at hfinish hlookup
    rw [AtomicWriter.finish, hwrite, List.flatten_cons]
    exact ⟨dir'', hfinish, hlookup⟩

/-- **A resumed writer** has written what the file holds. -/
lemma holds_resume {r : ResumableWrite} (uuid : Uuid)
    (hlookup : dir.lookup r.tempPath = some content) (hlength : r.bytesWritten = content.length) :
    ∃ w, r.resume uuid dir = (.ok w, dir) ∧ w.Holds dir content ∧ w.finalPath = r.originalPath := by
  rw [ResumableWrite.resume, hlookup]
  dsimp only
  rw [if_neg (not_not.mpr hlength.symm)]
  exact ⟨_, rfl, ⟨⟨.append, rfl, rfl⟩, hlookup, rfl, hlength⟩, rfl⟩

end Writing

/-! ## What a crash leaves -/

/-- A call of one of several writers, which are known by their UUIDs. -/
inductive WriterCall
  | new (path : Bytes) (uuid : Uuid)
  | write (uuid : Uuid) (data : Bytes)
  deriving DecidableEq

/-- Writers of files in one directory. -/
structure Writers where
  dir : OsDir
  writers : HashMap Uuid AtomicWriter

namespace Writers

/-- The writers after a call. -/
def apply (s : Writers) : WriterCall → Writers
  | .new path uuid =>
    let created := AtomicWriter.new path uuid s.dir
    ⟨created.2, s.writers.insert uuid created.1⟩
  | .write uuid data =>
    match s.writers.lookup uuid with
    | some w =>
      let written := w.write data s.dir
      ⟨written.2.2, s.writers.insert uuid written.2.1⟩
    | none => s

/-- The writers after some calls in a directory. -/
def run (old : OsDir) (calls : List WriterCall) : Writers := calls.foldl apply ⟨old, ∅⟩

end Writers

/-- The data of the writes of a writer. -/
def writtenBy (uuid : Uuid) (calls : List WriterCall) : Bytes :=
  calls.flatMap fun call =>
    match call with
    | .new _ _ => []
    | .write uuid' data => if uuid' = uuid then data else []

/-- A crash keeps of every file the first so many of its bytes. -/
def Torn (dir dir' : OsDir) : Prop :=
  (∀ name, name ∈ dir' ↔ name ∈ dir) ∧ ∀ name content content', dir.lookup name = some content →
    dir'.lookup name = some content' → content' <+: content

/-- What a crash has left of a target and of other files that were being written with it. Each of
them may have been there before. -/
structure Interrupted where
  path : Bytes
  uuid : Uuid
  old : OsDir
  before : List WriterCall
  after : List WriterCall
  dir : OsDir
  /-- The others have other targets, and their writers have drawn other UUIDs. -/
  others_ne : ∀ path' uuid', .new path' uuid' ∈ before ++ after → path' ≠ path ∧ uuid' ≠ uuid
  old_names : ∀ name ∈ old, name = path ∨ ∃ uuid', .new name uuid' ∈ before ++ after
  torn : Torn (Writers.run old (before ++ .new path uuid :: after)).dir dir

namespace Interrupted

variable (s : Interrupted)

/-- The temporary file of the target. -/
def tempPath : Bytes := AtomicWriter.tempName s.path s.uuid

/-- What is left of the data. -/
def left : Bytes := (s.dir.lookup s.tempPath).getD []

end Interrupted

/-- **An interrupted write can be resumed**: in whatever order the directory is listed, the search
finds the temporary file of the target, and going on with the remaining bytes gives what writing all
of them without an interruption gives. -/
def Resumes (blake3 : Bytes → ContentHash) (s : Interrupted) : Prop :=
  ∀ order : IterOrder Bytes, ∃ r, checkResumableWrite order s.path s.dir = some r ∧
    r.tempPath = s.tempPath ∧
    ∀ (uuid uuid' : Uuid) (rest whole : List Bytes), whole.flatten = s.left ++ rest.flatten →
      ∃ w result dir₁ dir₂, r.resume uuid s.dir = (.ok w, s.dir) ∧
        AtomicWriter.finish blake3 rest w s.dir = (.ok result, dir₁) ∧
        AtomicWriter.finish blake3 whole (AtomicWriter.new s.path uuid' s.old).1
          (AtomicWriter.new s.path uuid' s.old).2 = (.ok result, dir₂) ∧
        dir₁.lookup s.path = dir₂.lookup s.path ∧ dir₂.lookup s.path = some whole.flatten

/-! ## Names -/

section Names

variable {path other : Bytes} {uuid uuid' : Uuid}

/-- What the temporary names of a path have before `.tmp.` -/
def tempStem (path : Bytes) : Bytes :=
  withExtension 46 path (((extension 46 path).bind toStr).getD [])

/-- What is searched for before `.tmp.` -/
def searchStem (path : Bytes) : Bytes := (toStr path).getD []

/-- The search for a path finds the temporary files of another one. -/
def Finds (path other : Bytes) : Prop :=
  IsUtf8 (tempStem other) ∧
    (tempStem other = searchStem path ∨ searchStem path ++ TEMP_MARK <+: tempStem other ++ [46])

lemma tempName_eq (path : Bytes) (uuid : Uuid) :
    AtomicWriter.tempName path uuid = tempStem path ++ (TEMP_MARK ++ uuid.simple) := by
  simp [AtomicWriter.tempName, tempStem, withExtension]

lemma of_mem_simple {b : UInt8} (h : b ∈ uuid.simple) : b ≠ 46 ∧ b < 128 := by
  have hall : ∀ n < 16, (String.utf8EncodeChar (Hex.digit n)).all
      fun b => decide (b ≠ 46 ∧ b < 128) := by decide
  have hdigit : ∀ n < 16, ∀ b ∈ String.utf8EncodeChar (Hex.digit n), b ≠ 46 ∧ b < 128 :=
    fun n hn b hb => of_decide_eq_true (List.all_eq_true.mp (hall n hn) b hb)
  unfold Uuid.simple at h
  generalize leBytes 16 uuid = data at h
  induction data with
  | nil => cases h
  | cons byte data ih =>
    have hbyte := byte.toNat_lt
    rw [Hex.encode_cons, Text.utf8, List.flatMap_cons, List.flatMap_cons, List.mem_append,
      List.mem_append] at h
    rcases h with h | h | h
    · exact hdigit _ (by omega) b h
    · exact hdigit _ (by omega) b h
    · exact ih h

lemma length_simple (uuid : Uuid) : uuid.simple.length = 32 := by
  rw [Uuid.simple, Hex.length_utf8_encode, length_leBytes]

lemma simple_injective : Function.Injective Uuid.simple := by
  intro uuid uuid' h
  have htext := congrArg Text.fromUtf8 h
  rw [Uuid.simple, Uuid.simple, Text.fromUtf8_utf8, Text.fromUtf8_utf8] at htext
  have hbytes := congrArg leNat (Hex.encode_injective (Option.some.inj htext))
  have hlt : ∀ u : Uuid, (u : ℕ) < 256 ^ 16 := fun u => u.isLt.trans_eq (by decide)
  rw [leNat_leBytes (hlt uuid), leNat_leBytes (hlt uuid')] at hbytes
  exact Fin.ext hbytes

lemma tempName_ne {path' : Bytes} (hne : uuid ≠ uuid') :
    AtomicWriter.tempName path uuid ≠ AtomicWriter.tempName path' uuid' := by
  rw [tempName_eq, tempName_eq, ← List.append_assoc, ← List.append_assoc]
  intro heq
  have hlength : uuid.simple.length = uuid'.simple.length := by
    rw [length_simple, length_simple]
  exact hne (simple_injective (List.append_inj' heq hlength).2)

/-- A name starts with `.tmp.` behind another one, or ends with it and has a part without dots
behind it. -/
lemma append_mark_prefix_iff {front stem digits : Bytes} (h : 46 ∉ digits) :
    front ++ TEMP_MARK <+: stem ++ (TEMP_MARK ++ digits) ↔
      stem = front ∨ front ++ TEMP_MARK <+: stem ++ [46] := by
  have hmark : (front ++ TEMP_MARK).length = front.length + 5 := List.length_append
  have hdot : stem ++ (TEMP_MARK ++ digits) = stem ++ [46] ++ ([116, 109, 112, 46] ++ digits) := by
    rw [List.append_assoc]
    rfl
  constructor
  · intro hbegins
    by_cases hle : front.length + 5 ≤ stem.length + 1
    · right
      rw [hdot] at hbegins
      exact List.prefix_of_prefix_length_le hbegins (List.prefix_append _ _)
        (by rw [hmark, List.length_append, List.length_singleton]; exact hle)
    · -- the last dot of the front's `.tmp.` is the last one of the stem's
      left
      obtain ⟨back, hback⟩ := hbegins
      rw [List.append_assoc] at hback
      have hlast : (stem ++ (TEMP_MARK ++ digits))[front.length + 4]? = some 46 := by
        rw [← hback, List.getElem?_append_right (Nat.le_add_right _ _), Nat.add_sub_cancel_left]
        rfl
      rw [List.getElem?_append_right (by omega)] at hlast
      have hlength : front.length = stem.length := by
        obtain ⟨k, hk⟩ : ∃ k, front.length + 4 - stem.length = k + 1 :=
          ⟨front.length + 3 - stem.length, by omega⟩
        rw [hk] at hlast
        rcases k with _ | _ | _ | _ | k
        · cases hlast
        · cases hlast
        · cases hlast
        · omega
        · have hdigits : digits[k]? = some 46 := hlast
          exact absurd (List.mem_of_getElem? hdigits) h
      exact (List.append_inj_left hback hlength).symm
  · rintro (rfl | hbegins)
    · rw [← List.append_assoc]
      exact List.prefix_append _ _
    · rw [hdot]
      exact hbegins.trans (List.prefix_append _ _)

/-- **The temporary file of a path is found** by a search if the names fit, whatever its UUID is. -/
lemma finds_iff_tempName (path other : Bytes) (uuid : Uuid) :
    Finds path other ↔ IsUtf8 (AtomicWriter.tempName other uuid) ∧
      searchStem path ++ TEMP_MARK <+: AtomicWriter.tempName other uuid := by
  have hmark : ∀ b ∈ TEMP_MARK, b < 128 := by simp [TEMP_MARK]
  have hascii : ∀ b ∈ TEMP_MARK ++ uuid.simple, b < 128 := by
    intro b hb
    rcases List.mem_append.mp hb with hb | hb
    · exact hmark b hb
    · exact (of_mem_simple hb).2
  rw [tempName_eq, isUtf8_append_ascii hascii,
    append_mark_prefix_iff fun h => (of_mem_simple h).1 rfl]
  rfl

/-- The stem of a temporary name: the name, if its extension is a text, and else the name without
that and with a dot. -/
lemma tempStem_of_extension {ext : Bytes} (h : extension 46 path = some ext) (hext : IsUtf8 ext) :
    tempStem path = path := by
  rw [tempStem, h, Option.bind_some, toStr_of_isUtf8 hext]
  exact (eq_of_extension h).symm

lemma tempStem_of_extension_none (h : extension 46 path = none) : tempStem path = path ++ [46] := by
  rw [tempStem, h, withExtension, fileStem_of_extension h]
  rfl

lemma isUtf8_of_extension {ext : Bytes} (hpath : IsUtf8 path) (h : extension 46 path = some ext) :
    IsUtf8 ext := by
  rw [eq_of_extension h] at hpath
  exact ((isUtf8_append_cons (by decide)).mp hpath).2

lemma finds_of_begins (hother : IsUtf8 other) (hbegins : searchStem path ++ TEMP_MARK <+: other) :
    Finds path other := by
  obtain ⟨ext, hext⟩ : ∃ ext, extension 46 other = some ext := by
    refine Option.ne_none_iff_exists'.mp fun hnone => notMem_tail_of_extension hnone ?_
    obtain ⟨back, rfl⟩ := hbegins
    cases searchStem path with
    | nil => simp [TEMP_MARK]
    | cons b front => simp [TEMP_MARK]
  rw [Finds, tempStem_of_extension hext (isUtf8_of_extension hother hext)]
  exact ⟨hother, .inr (hbegins.trans (List.prefix_append _ _))⟩

lemma not_prefix_self (hpath : IsUtf8 path) : ¬ searchStem path ++ TEMP_MARK <+: path := by
  rw [searchStem, toStr_of_isUtf8 hpath, Option.getD_some]
  intro hbegins
  exact absurd hbegins.length_le (by simp [TEMP_MARK])

/-- **A target that is a text** is found if it has an extension. -/
theorem finds_self_iff (hpath : IsUtf8 path) :
    Finds path path ↔ ∃ ext, extension 46 path = some ext := by
  have hsearch : searchStem path = path := by
    rw [searchStem, toStr_of_isUtf8 hpath, Option.getD_some]
  rw [Finds, hsearch]
  cases hext : extension 46 path with
  | none =>
    refine iff_of_false ?_ nofun
    rw [tempStem_of_extension_none hext]
    rintro ⟨-, heq | hbegins⟩
    · exact absurd (congrArg List.length heq) (by simp)
    · exact absurd hbegins.length_le (by simp [TEMP_MARK])
  | some ext =>
    rw [tempStem_of_extension hext (isUtf8_of_extension hpath hext)]
    exact iff_of_true ⟨hpath, .inl rfl⟩ ⟨ext, rfl⟩

/-- **Another file that is a text** is found in the place of a target if its name is the target's
with `.tmp` behind it, or starts with the target's with `.tmp.` behind it, or has no extension and
is the target's without the dot that ends it. -/
theorem finds_iff (hpath : IsUtf8 path) (hother : IsUtf8 other) (hne : other ≠ path) :
    Finds path other ↔ other = path ++ [46, 116, 109, 112] ∨ path ++ TEMP_MARK <+: other ∨
      (extension 46 other = none ∧ path = other ++ [46]) := by
  have hsearch : searchStem path = path := by
    rw [searchStem, toStr_of_isUtf8 hpath, Option.getD_some]
  have hmark : path ++ TEMP_MARK = path ++ [46, 116, 109, 112] ++ [46] := by
    rw [List.append_assoc]
    rfl
  -- what ends with the last dot of the mark is the path with `.tmp` behind it
  have hlast : ∀ name : Bytes, path ++ TEMP_MARK = name ++ [46] ↔
      name = path ++ [46, 116, 109, 112] := by
    intro name
    rw [hmark, List.append_left_inj, eq_comm]
  rw [Finds, hsearch]
  cases hext : extension 46 other with
  | none =>
    rw [tempStem_of_extension_none hext, isUtf8_append_ascii (by simp), and_iff_right hother,
      List.prefix_concat_iff, List.prefix_concat_iff, hlast, hlast]
    constructor
    · rintro (hpath | hdots | hother | hbegins)
      · exact .inr (.inr ⟨rfl, hpath.symm⟩)
      · have hback := congrArg List.getLast? hdots
        simp at hback
      · exact .inl hother
      · exact .inr (.inl hbegins)
    · rintro (hother | hbegins | ⟨-, hpath⟩)
      · exact .inr (.inr (.inl hother))
      · exact .inr (.inr (.inr hbegins))
      · exact .inl hpath.symm
  | some ext =>
    rw [tempStem_of_extension hext (isUtf8_of_extension hother hext), and_iff_right hother,
      or_iff_right hne, List.prefix_concat_iff, hlast]
    exact or_congr_right (iff_of_eq (by simp))

end Names

/-! ## Runs -/

section Runs

variable {old : OsDir} {calls : List WriterCall} {s : Writers}

/-- The files after some calls are those from before and the temporary ones of the writers. -/
structure Writers.Tracks (old : OsDir) (calls : List WriterCall) (s : Writers) : Prop where
  named : ∀ uuid w, s.writers.lookup uuid = some w →
    w.tempPath ∈ s.dir ∧ ∃ path, w.tempPath = AtomicWriter.tempName path uuid
  names : ∀ name ∈ s.dir, name ∈ old ∨
    ∃ path uuid, .new path uuid ∈ calls ∧ name = AtomicWriter.tempName path uuid
  temps : ∀ path uuid, .new path uuid ∈ calls → AtomicWriter.tempName path uuid ∈ s.dir

lemma Writers.run_concat (old : OsDir) (calls : List WriterCall) (call : WriterCall) :
    run old (calls ++ [call]) = (run old calls).apply call := by
  rw [run, List.foldl_append]
  rfl

lemma Writers.apply_write {uuid : Uuid} {w : AtomicWriter} (h : s.writers.lookup uuid = some w)
    (data : Bytes) : s.apply (.write uuid data) =
      ⟨(w.write data s.dir).2.2, s.writers.insert uuid (w.write data s.dir).2.1⟩ := by
  rw [Writers.apply, h]

lemma Writers.apply_write_none {uuid : Uuid} (h : s.writers.lookup uuid = none) (data : Bytes) :
    s.apply (.write uuid data) = s := by
  rw [Writers.apply, h]

lemma AtomicWriter.names_write {w : AtomicWriter} {dir : OsDir} (h : w.tempPath ∈ dir)
    (data : Bytes) : (w.write data dir).2.1.tempPath = w.tempPath ∧
      ∀ name, name ∈ (w.write data dir).2.2 ↔ name ∈ dir := by
  rw [AtomicWriter.write]
  cases w.file with
  | none => exact ⟨rfl, fun _ => Iff.rfl⟩
  | some file =>
    refine ⟨rfl, fun name => ?_⟩
    show name ∈ dir.insert w.tempPath _ ↔ name ∈ dir
    rw [Finmap.mem_insert]
    exact or_iff_right_of_imp fun heq => heq ▸ h

lemma Writers.Tracks.apply (h : s.Tracks old calls) (call : WriterCall) :
    (s.apply call).Tracks old (calls ++ [call]) := by
  cases call with
  | new path uuid =>
    refine ⟨fun uuid' w hw => ?_, fun name hname => ?_, fun path' uuid' hmem => ?_⟩
    · have hw' : (s.writers.insert uuid (AtomicWriter.new path uuid s.dir).1).lookup uuid' =
          some w := hw
      show w.tempPath ∈ s.dir.insert (AtomicWriter.tempName path uuid) [] ∧ _
      obtain ⟨rfl, rfl⟩ | ⟨-, hw'⟩ := HashMap.lookup_insert_cases hw'
      · exact ⟨Finmap.mem_insert.mpr (.inl rfl), path, rfl⟩
      · obtain ⟨hmem, hnamed⟩ := h.named uuid' w hw'
        exact ⟨Finmap.mem_insert.mpr (.inr hmem), hnamed⟩
    · rcases Finmap.mem_insert.mp hname with rfl | hname
      · exact .inr ⟨path, uuid, by simp, rfl⟩
      · refine (h.names name hname).imp_right ?_
        rintro ⟨path', uuid', hmem, rfl⟩
        exact ⟨path', uuid', List.mem_append_left _ hmem, rfl⟩
    · rcases List.mem_append.mp hmem with hmem | hmem
      · exact Finmap.mem_insert.mpr (.inr (h.temps path' uuid' hmem))
      · obtain ⟨rfl, rfl⟩ := WriterCall.new.inj (List.mem_singleton.mp hmem)
        exact Finmap.mem_insert.mpr (.inl rfl)
  | write uuid data =>
    have hcalls : ∀ path' uuid', .new path' uuid' ∈ calls ++ [WriterCall.write uuid data] ↔
        .new path' uuid' ∈ calls := by simp
    cases hw : s.writers.lookup uuid with
    | none =>
      rw [Writers.apply_write_none hw]
      exact ⟨h.named, by simpa only [hcalls] using h.names, by simpa only [hcalls] using h.temps⟩
    | some w =>
      rw [Writers.apply_write hw]
      obtain ⟨hmem, hnamed⟩ := h.named uuid w hw
      obtain ⟨htemp, hnames⟩ := AtomicWriter.names_write hmem data
      refine ⟨fun uuid' w' hw' => ?_, ?_, ?_⟩
      · rw [hnames]
        obtain ⟨rfl, rfl⟩ | ⟨-, hw'⟩ := HashMap.lookup_insert_cases hw'
        · rw [htemp]
          exact ⟨hmem, hnamed⟩
        · exact h.named uuid' w' hw'
      · simpa only [hcalls, hnames] using h.names
      · simpa only [hcalls, hnames] using h.temps

/-- **The files after some calls** are those from before and the temporary ones. -/
theorem Writers.tracks_run (old : OsDir) (calls : List WriterCall) :
    (run old calls).Tracks old calls := by
  induction calls using List.reverseRecOn with
  | nil =>
    have hnone : ∀ uuid, (run old []).writers.lookup uuid = none := fun _ => Finmap.lookup_empty _
    refine ⟨fun uuid w hw => ?_, fun name hname => .inl hname, nofun⟩
    rw [hnone] at hw
    cases hw
  | append_singleton calls call ih =>
    rw [run_concat]
    exact ih.apply call

/-- A writer of a target has written these bytes. -/
def Writers.Wrote (s : Writers) (path : Bytes) (uuid : Uuid) (content : Bytes) : Prop :=
  ∃ w, s.writers.lookup uuid = some w ∧ w.finalPath = path ∧
    w.tempPath = AtomicWriter.tempName path uuid ∧ w.Holds s.dir content

lemma AtomicWriter.Holds.congr {w : AtomicWriter} {dir dir' : OsDir} {content : Bytes}
    (h : w.Holds dir content) (hlookup : dir'.lookup w.tempPath = dir.lookup w.tempPath) :
    w.Holds dir' content :=
  ⟨h.file, hlookup.trans h.lookup, h.hasher, h.bytesWritten⟩

/-- A call appends what it writes, and nothing for another writer. -/
lemma Writers.Wrote.apply {path : Bytes} {uuid : Uuid} {content : Bytes}
    (h : s.Wrote path uuid content) (htracks : s.Tracks old calls) (call : WriterCall)
    (hne : ∀ path' uuid', call = .new path' uuid' → uuid' ≠ uuid) :
    (s.apply call).Wrote path uuid (content ++ writtenBy uuid [call]) := by
  obtain ⟨w, hw, hfinal, htemp, hholds⟩ := h
  cases call with
  | new path' uuid' =>
    have huuid := hne path' uuid' rfl
    have hnil : writtenBy uuid [.new path' uuid'] = [] := rfl
    rw [hnil, List.append_nil]
    refine ⟨w, (Finmap.lookup_insert_of_ne _ huuid.symm).trans hw, hfinal, htemp, hholds.congr ?_⟩
    rw [htemp]
    exact Finmap.lookup_insert_of_ne _ (tempName_ne huuid.symm)
  | write uuid' data =>
    by_cases huuid : uuid' = uuid
    · subst huuid
      have hdata : writtenBy uuid' [.write uuid' data] = data := by simp [writtenBy]
      obtain ⟨w', dir', hwrite, hholds', hfinal', htemp', -⟩ := hholds.write data
      rw [hdata, Writers.apply_write hw, hwrite]
      exact ⟨w', Finmap.lookup_insert _, hfinal'.trans hfinal, htemp'.trans htemp, hholds'⟩
    · have hdata : writtenBy uuid [.write uuid' data] = [] := by simp [writtenBy, huuid]
      rw [hdata, List.append_nil]
      cases hw' : s.writers.lookup uuid' with
      | none =>
        rw [Writers.apply_write_none hw']
        exact ⟨w, hw, hfinal, htemp, hholds⟩
      | some w' =>
        rw [Writers.apply_write hw']
        refine ⟨w, (Finmap.lookup_insert_of_ne _ (Ne.symm huuid)).trans hw, hfinal, htemp,
          hholds.congr ?_⟩
        -- the other writer has another temporary file
        obtain ⟨-, path', htemp'⟩ := htracks.named uuid' w' hw'
        have hother : w.tempPath ≠ w'.tempPath := by
          rw [htemp, htemp']
          exact tempName_ne (Ne.symm huuid)
        rw [AtomicWriter.write]
        cases w'.file with
        | none => rfl
        | some file => exact Finmap.lookup_insert_of_ne _ hother

/-- **What a writer has written** after its creation is in its temporary file. -/
theorem Writers.wrote_run {path : Bytes} {uuid : Uuid} (old : OsDir)
    (before after : List WriterCall)
    (hne : ∀ path' uuid', .new path' uuid' ∈ after → uuid' ≠ uuid) :
    (run old (before ++ .new path uuid :: after)).Wrote path uuid (writtenBy uuid after) := by
  induction after using List.reverseRecOn with
  | nil =>
    rw [run_concat]
    exact ⟨_, Finmap.lookup_insert _, rfl, rfl, AtomicWriter.holds_new path uuid _⟩
  | append_singleton after call ih =>
    have hcalls : before ++ .new path uuid :: (after ++ [call]) =
        before ++ .new path uuid :: after ++ [call] := by simp
    have hwritten : writtenBy uuid (after ++ [call]) =
        writtenBy uuid after ++ writtenBy uuid [call] := List.flatMap_append
    rw [hcalls, hwritten, run_concat]
    refine (ih fun path' uuid' hmem => hne path' uuid' (List.mem_append_left _ hmem)).apply
      (tracks_run old _) call fun path' uuid' hcall => hne path' uuid' ?_
    rw [hcall]
    simp

end Runs

/-! ## Resuming -/

section Resuming

variable {blake3 : Bytes → ContentHash} {s : Interrupted}

/-- The targets of other writers. -/
def Interrupted.Other (s : Interrupted) (path : Bytes) : Prop :=
  ∃ uuid, .new path uuid ∈ s.before ++ s.after

/-- What is left of the target's data is the beginning of it. -/
theorem Interrupted.lookup_tempPath (s : Interrupted) :
    s.dir.lookup s.tempPath = some s.left ∧ s.left <+: writtenBy s.uuid s.after := by
  obtain ⟨w, -, -, htemp, hholds⟩ := @Writers.wrote_run s.path s.uuid s.old s.before s.after
    fun path' uuid' hmem => (s.others_ne path' uuid' (List.mem_append_right _ hmem)).2
  have hlookup := hholds.lookup
  rw [htemp] at hlookup
  obtain ⟨left, hleft⟩ : ∃ left, s.dir.lookup s.tempPath = some left :=
    Finmap.mem_iff.mp ((s.torn.1 _).mpr (Finmap.mem_iff.mpr ⟨_, hlookup⟩))
  have heq : s.left = left := by rw [Interrupted.left, hleft, Option.getD_some]
  rw [heq]
  exact ⟨hleft, s.torn.2 _ _ _ hlookup hleft⟩

lemma Interrupted.mem_dir_iff (s : Interrupted) {name : Bytes} (hname : name ∈ s.dir) :
    name = s.tempPath ∨ name = s.path ∨ s.Other name ∨
      ∃ path uuid, s.Other path ∧ name = AtomicWriter.tempName path uuid := by
  have htracks := Writers.tracks_run s.old (s.before ++ .new s.path s.uuid :: s.after)
  rcases htracks.names name ((s.torn.1 name).mp hname) with hold | ⟨path, uuid, hmem, rfl⟩
  · exact .inr ((s.old_names name hold).imp_right .inl)
  · rw [List.mem_append, List.mem_cons] at hmem
    rcases hmem with hmem | hmem | hmem
    · exact .inr (.inr (.inr ⟨path, uuid, ⟨uuid, List.mem_append_left _ hmem⟩, rfl⟩))
    · obtain ⟨rfl, rfl⟩ := WriterCall.new.inj hmem
      exact .inl rfl
    · exact .inr (.inr (.inr ⟨path, uuid, ⟨uuid, List.mem_append_right _ hmem⟩, rfl⟩))

variable {order : IterOrder Bytes} {path name content : Bytes} {dir : OsDir} {r : ResumableWrite}

/-- What the search looks at in an entry. -/
lemma check_entry_eq_some_iff :
    (match toStr name with
      | some name' =>
        if ((toStr path).getD [] ++ TEMP_MARK).isPrefixOf name' then
          some (⟨path, name, content.length⟩ : ResumableWrite)
        else none
      | none => none) = some r ↔
      (IsUtf8 name ∧ searchStem path ++ TEMP_MARK <+: name) ∧ r = ⟨path, name, content.length⟩ := by
  by_cases hname : IsUtf8 name
  · rw [toStr_of_isUtf8 hname]
    dsimp only
    rw [← searchStem]
    by_cases hbegins : searchStem path ++ TEMP_MARK <+: name
    · rw [if_pos (List.isPrefixOf_iff_prefix.mpr hbegins), Option.some.injEq, eq_comm]
      exact (and_iff_right ⟨hname, hbegins⟩).symm
    · rw [if_neg (mt List.isPrefixOf_iff_prefix.mp hbegins)]
      exact iff_of_false nofun fun h => hbegins h.1.2
  · rw [toStr_of_not_isUtf8 hname]
    exact iff_of_false nofun fun h => hname h.1.1

lemma of_checkResumableWrite (h : checkResumableWrite order path dir = some r) :
    ∃ content, dir.lookup r.tempPath = some content ∧ r = ⟨path, r.tempPath, content.length⟩ ∧
      IsUtf8 r.tempPath ∧ searchStem path ++ TEMP_MARK <+: r.tempPath := by
  obtain ⟨entry, hentry, hfound⟩ := List.exists_of_findSome?_eq_some h
  obtain ⟨hname, rfl⟩ := check_entry_eq_some_iff.mp hfound
  exact ⟨entry.2, order.mem_entries.mp hentry, rfl, hname⟩

lemma exists_checkResumableWrite (hlookup : dir.lookup name = some content) (hname : IsUtf8 name)
    (hbegins : searchStem path ++ TEMP_MARK <+: name) :
    ∃ r, checkResumableWrite order path dir = some r := by
  refine Option.isSome_iff_exists.mp (List.findSome?_isSome_iff.mpr
    ⟨(name, content), order.mem_entries.mpr hlookup, ?_⟩)
  exact Option.isSome_iff_exists.mpr ⟨_, check_entry_eq_some_iff.mpr ⟨⟨hname, hbegins⟩, rfl⟩⟩

lemma exists_order_checkResumableWrite (hlookup : dir.lookup name = some content)
    (hname : IsUtf8 name) (hbegins : searchStem path ++ TEMP_MARK <+: name) :
    ∃ order : IterOrder Bytes,
      checkResumableWrite order path dir = some ⟨path, name, content.length⟩ := by
  obtain ⟨order, horder⟩ := IterOrder.exists_iter_cons name
  obtain ⟨rest, hrest⟩ := horder dir.keys (Finmap.mem_keys.mpr (Finmap.mem_iff.mpr ⟨_, hlookup⟩))
  refine ⟨order, ?_⟩
  rw [checkResumableWrite, IterOrder.entries, hrest, List.filterMap_cons, hlookup, Option.map_some,
    List.findSome?_cons, check_entry_eq_some_iff.mpr ⟨⟨hname, hbegins⟩, rfl⟩]

lemma Interrupted.eq_tempPath (s : Interrupted)
    (hothers : ∀ path, s.Other path → ¬ Finds s.path path) (hmem : name ∈ s.dir)
    (hname : IsUtf8 name) (hbegins : searchStem s.path ++ TEMP_MARK <+: name) :
    name = s.tempPath := by
  rcases s.mem_dir_iff hmem with htemp | rfl | hother | ⟨path, uuid, hother, rfl⟩
  · exact htemp
  · exact absurd hbegins (not_prefix_self hname)
  · exact absurd (finds_of_begins hname hbegins) (hothers _ hother)
  · exact absurd ((finds_iff_tempName _ _ uuid).mpr ⟨hname, hbegins⟩) (hothers _ hother)

/-- **An interrupted write can be resumed** exactly when the search for its target finds temporary
files of the target, and those of no other file that was being written.

**Proof sketch.** Whether a search finds the temporary file of a path does not depend on its UUID.
The directory may be listed in any order, so one other file that is found can come first. The writer
that goes on with the right file appends to what is left, and hashes it first. -/
theorem resumes_interrupted_iff (blake3 : Bytes → ContentHash) (s : Interrupted) :
    Resumes blake3 s ↔ Finds s.path s.path ∧ ∀ path, s.Other path → ¬ Finds s.path path := by
  obtain ⟨hlookup, -⟩ := s.lookup_tempPath
  constructor
  · intro hresumes
    constructor
    · obtain ⟨order, -⟩ := IterOrder.exists_iter_cons s.tempPath
      obtain ⟨r, hcheck, htemp, -⟩ := hresumes order
      obtain ⟨content, -, -, hname, hbegins⟩ := of_checkResumableWrite hcheck
      rw [htemp] at hname hbegins
      exact (finds_iff_tempName _ _ s.uuid).mpr ⟨hname, hbegins⟩
    · rintro path ⟨uuid, hmem⟩ hfinds
      obtain ⟨hname, hbegins⟩ := (finds_iff_tempName _ _ uuid).mp hfinds
      have hcalls : .new path uuid ∈ s.before ++ .new s.path s.uuid :: s.after := by
        rw [List.mem_append, List.mem_cons]
        exact (List.mem_append.mp hmem).imp_right .inr
      have htracks := Writers.tracks_run s.old (s.before ++ .new s.path s.uuid :: s.after)
      obtain ⟨content, hcontent⟩ :=
        Finmap.mem_iff.mp ((s.torn.1 _).mpr (htracks.temps path uuid hcalls))
      -- the directory may be listed with the other file first
      obtain ⟨order, horder⟩ := exists_order_checkResumableWrite hcontent hname hbegins
      obtain ⟨r, hcheck, htemp, -⟩ := hresumes order
      rw [horder] at hcheck
      obtain rfl := Option.some.inj hcheck
      exact tempName_ne (s.others_ne path uuid hmem).2 htemp
  · rintro ⟨hself, hothers⟩ order
    obtain ⟨hname, hbegins⟩ := (finds_iff_tempName _ _ s.uuid).mp hself
    obtain ⟨r, hcheck⟩ : ∃ r, checkResumableWrite order s.path s.dir = some r :=
      exists_checkResumableWrite hlookup hname hbegins
    obtain ⟨content, hcontent, hr, hname', hbegins'⟩ := of_checkResumableWrite hcheck
    have htemp := s.eq_tempPath hothers (Finmap.mem_iff.mpr ⟨_, hcontent⟩) hname' hbegins'
    refine ⟨r, hcheck, htemp, fun uuid uuid' rest whole hwhole => ?_⟩
    rw [htemp, hlookup] at hcontent
    obtain rfl := Option.some.inj hcontent
    have hlookup' : s.dir.lookup r.tempPath = some s.left := by rw [htemp, hlookup]
    have hlength : r.bytesWritten = s.left.length := congrArg ResumableWrite.bytesWritten hr
    have hpath : r.originalPath = s.path := congrArg ResumableWrite.originalPath hr
    obtain ⟨w, hresume, hholds, hfinal⟩ := holds_resume uuid hlookup' hlength
    obtain ⟨dir₁, hfinish, htarget⟩ := hholds.finish blake3 rest
    obtain ⟨dir₂, hfinish', htarget'⟩ :=
      (AtomicWriter.holds_new s.path uuid' s.old).finish blake3 whole
    rw [hfinal, hpath, ← hwhole] at hfinish htarget
    rw [List.nil_append] at hfinish' htarget'
    exact ⟨w, _, dir₁, dir₂, hresume, hfinish, hfinish', htarget.trans htarget'.symm, htarget'⟩

/-- A write to a name without an extension, `data`, that was interrupted at once. -/
def interruptedData : Interrupted where
  path := [100, 97, 116, 97]
  uuid := 0
  old := ∅
  before := []
  after := []
  dir := (Writers.run ∅ [.new [100, 97, 116, 97] 0]).dir
  others_ne := nofun
  old_names := fun _ hname => absurd hname Finmap.notMem_empty
  torn := ⟨fun _ => Iff.rfl, fun _ _ _ h h' =>
    (Option.some.inj (h'.symm.trans h)) ▸ List.prefix_rfl⟩

/-- It cannot be resumed. -/
theorem not_resumes_interruptedData : ¬ Resumes ContentHash.blake3Sample interruptedData := by
  intro hresumes
  obtain ⟨order, -⟩ := IterOrder.exists_iter_cons interruptedData.tempPath
  obtain ⟨r, hcheck, htemp, -⟩ := hresumes order
  obtain ⟨content, -, -, -, hbegins⟩ := of_checkResumableWrite hcheck
  rw [htemp] at hbegins
  exact absurd (List.isPrefixOf_iff_prefix.mpr hbegins) (by decide)

end Resuming

end Landropic.Cas
