import Landropic.Foundations.Fs

set_option autoImplicit false

/-!
# Handles on the files of a directory

A directory holds files by their names. A handle has a position in its file, where it writes and
reads, and may be open for writing only. What is read off a file is a stream of bytes.

## Main definitions

* `Dir` — the files of a directory.
* `WriteFault` — how writing a whole file can fail.
* `FileHandle` — an open file.
* `FileHandle.create`, `FileHandle.writeAll`, `FileHandle.seek`, `FileHandle.readToEnd`,
  `FileHandle.readBlocks`.
* `readExact`, `readLe`, `seekStart` — reading off a stream.

## Main results

* `overwrite_append`, `overwrite_middle` — a write at the end, and one inside the file.
* `FileHandle.readBlocks_eq_readToEnd` — reading to the end, a buffer at a time.
* `readExact_append`, `readLe_append` — reading what was written.
-/

/-- The files of a directory. -/
abbrev Dir := HashMap Text Bytes

/-- Put bytes into a file at a position. A gap is filled with zeros. -/
def overwrite (content : Bytes) (pos : ℕ) (data : Bytes) : Bytes :=
  content.takeD pos 0 ++ data ++ content.drop (pos + data.length)

@[simp] lemma overwrite_append (content data : Bytes) :
    overwrite content content.length data = content ++ data := by
  simp [overwrite, List.takeD_eq_take]

/-- A write inside the file replaces as many bytes as it writes. -/
lemma overwrite_middle {front old data back : Bytes} {pos : ℕ} (hpos : pos = front.length)
    (hlength : data.length = old.length) :
    overwrite (front ++ old ++ back) pos data = front ++ data ++ back := by
  subst hpos
  have hle : front.length ≤ (front ++ old ++ back).length := by simp
  have htake : (front ++ old ++ back).take front.length = front := by simp
  have hdrop : (front ++ old ++ back).drop (front.length + data.length) = back := by
    rw [hlength, ← List.length_append, List.drop_left]
  rw [overwrite, List.takeD_eq_take 0 hle, htake, hdrop]

/-- Why a file was not written: it could not be opened, or only a part was written. -/
inductive WriteFault
  | opening (e : IoError)
  | writing (e : IoError) (kept : ℕ)
  deriving DecidableEq

/-- The error of the fault. -/
def WriteFault.error : WriteFault → IoError
  | opening e => e
  | writing e _ => e

/-- What a handle is open for. -/
inductive Access
  | writeOnly
  | readWrite
  deriving DecidableEq

/-- An open file. -/
structure FileHandle where
  name : Text
  pos : ℕ
  access : Access
  deriving DecidableEq

namespace FileHandle

/-- Create a file, or empty the one there is. -/
def create (access : Access) (name : Text) (dir : Dir) : FileHandle × Dir :=
  (⟨name, 0, access⟩, dir.insert name [])

/-- The content of the file. -/
def content (h : FileHandle) (dir : Dir) : Bytes := (dir.lookup h.name).getD []

/-- Write bytes at the position, and move behind them. -/
def writeAll (h : FileHandle) (data : Bytes) (dir : Dir) : FileHandle × Dir :=
  ({ h with pos := h.pos + data.length },
    dir.insert h.name (overwrite (h.content dir) h.pos data))

/-- Write pieces one after the other. -/
def writePieces (h : FileHandle) (pieces : List Bytes) (dir : Dir) : FileHandle × Dir :=
  pieces.foldl (fun s data => s.1.writeAll data s.2) (h, dir)

/-- Move to a position. -/
def seek (h : FileHandle) (pos : ℕ) : FileHandle := { h with pos := pos }

/-- Read from the position to the end. -/
def readToEnd (h : FileHandle) (dir : Dir) : Except IoError Bytes × FileHandle :=
  match h.access with
  | .writeOnly => (.error .badFileDescriptor, h)
  | .readWrite =>
    (.ok ((h.content dir).drop h.pos), { h with pos := max h.pos (h.content dir).length })

/-- Read into a buffer of `n` bytes from the position on. -/
def read (h : FileHandle) (n : ℕ) (dir : Dir) : Except IoError Bytes × FileHandle :=
  match h.access with
  | .writeOnly => (.error .badFileDescriptor, h)
  | .readWrite =>
    (.ok (((h.content dir).drop h.pos).take n),
      { h with pos := h.pos + (((h.content dir).drop h.pos).take n).length })

/-- Read into a buffer of `n` bytes until nothing comes, in at most so many rounds. -/
def readRounds (n : ℕ) (dir : Dir) : ℕ → FileHandle → Bytes → Except IoError Bytes × FileHandle
  | 0, h, got => (.ok got, h)
  | rounds + 1, h, got =>
    match h.read n dir with
    | (.error e, h) => (.error e, h)
    | (.ok [], h) => (.ok got, h)
    | (.ok block, h) => readRounds n dir rounds h (got ++ block)

/-- Read into a buffer of `n` bytes until nothing comes. Every round but the last one reads a byte
at least. -/
def readBlocks (h : FileHandle) (n : ℕ) (dir : Dir) : Except IoError Bytes × FileHandle :=
  readRounds n dir ((h.content dir).length + 1) h []

section Lemmas

variable {h : FileHandle} {dir : Dir} {content data : Bytes}

@[simp] lemma name_writeAll : (h.writeAll data dir).1.name = h.name := rfl

@[simp] lemma access_writeAll : (h.writeAll data dir).1.access = h.access := rfl

lemma access_seek (pos : ℕ) : (h.seek pos).access = h.access := rfl

lemma name_writePieces (h : FileHandle) (pieces : List Bytes) (dir : Dir) :
    (h.writePieces pieces dir).1.name = h.name := by
  induction pieces generalizing h dir with
  | nil => rfl
  | cons data pieces ih => exact ih (h.writeAll data dir).1 (h.writeAll data dir).2

lemma name_readToEnd (h : FileHandle) (dir : Dir) : (h.readToEnd dir).2.name = h.name := by
  unfold FileHandle.readToEnd
  cases h.access with
  | writeOnly => rfl
  | readWrite => rfl

/-- The file has this content, and the handle is at its end. -/
structure AtEnd (h : FileHandle) (dir : Dir) (content : Bytes) : Prop where
  lookup_eq : dir.lookup h.name = some content
  pos_eq : h.pos = content.length

lemma atEnd_create (access : Access) (name : Text) (dir : Dir) :
    AtEnd (create access name dir).1 (create access name dir).2 [] :=
  ⟨Finmap.lookup_insert _, rfl⟩

/-- **A write at the end** appends, and ends at the end. -/
lemma AtEnd.writeAll (hend : AtEnd h dir content) (data : Bytes) :
    AtEnd (h.writeAll data dir).1 (h.writeAll data dir).2 (content ++ data) := by
  constructor
  · simp [FileHandle.writeAll, FileHandle.content, hend.lookup_eq, hend.pos_eq]
  · simp [FileHandle.writeAll, hend.pos_eq]

/-- Pieces that are written at the end are appended. -/
lemma AtEnd.writePieces (hend : AtEnd h dir content) (pieces : List Bytes) :
    AtEnd (h.writePieces pieces dir).1 (h.writePieces pieces dir).2 (content ++ pieces.flatten) ∧
      (h.writePieces pieces dir).1.access = h.access := by
  induction pieces generalizing h dir content with
  | nil => simpa [FileHandle.writePieces] using hend
  | cons data pieces ih =>
    simpa [FileHandle.writePieces] using ih (hend.writeAll data)

/-- **Reading the whole file** leads back to the end, if the handle is open for reading. -/
lemma AtEnd.readToEnd (hend : AtEnd h dir content) (haccess : h.access = .readWrite) :
    (h.seek 0).readToEnd dir = (.ok content, h) := by
  obtain ⟨name, pos, access⟩ := h
  obtain ⟨hlookup, rfl⟩ := hend
  dsimp only at haccess hlookup
  subst haccess
  simp [FileHandle.readToEnd, FileHandle.seek, FileHandle.content, hlookup]

lemma readToEnd_writeOnly (haccess : h.access = .writeOnly) :
    h.readToEnd dir = (.error .badFileDescriptor, h) := by
  rw [FileHandle.readToEnd, haccess]

/-- Rounds of reads collect what is left of the file, if they are enough. -/
lemma readRounds_of_readWrite {n rounds : ℕ} (hn : 0 < n) (haccess : h.access = .readWrite)
    (hrounds : ((h.content dir).drop h.pos).length < rounds) (got : Bytes) :
    readRounds n dir rounds h got = (.ok (got ++ (h.content dir).drop h.pos),
      { h with pos := h.pos + ((h.content dir).drop h.pos).length }) := by
  induction rounds generalizing h got with
  | zero => exact absurd hrounds (Nat.not_lt_zero _)
  | succ rounds ih =>
    have hread : h.read n dir = (.ok (((h.content dir).drop h.pos).take n),
        { h with pos := h.pos + (((h.content dir).drop h.pos).take n).length }) := by
      rw [FileHandle.read, haccess]
    rw [readRounds, hread]
    cases hblock : ((h.content dir).drop h.pos).take n with
    | nil =>
      have hnil : (h.content dir).drop h.pos = [] :=
        (List.take_eq_nil_iff.mp hblock).resolve_left hn.ne'
      simp [hnil]
    | cons b block =>
      -- what the next round finds is what this one has left
      have hsplit := List.take_append_drop n ((h.content dir).drop h.pos)
      rw [hblock] at hsplit
      have hrest : (h.content dir).drop (h.pos + (b :: block).length) =
          ((h.content dir).drop h.pos).drop n := by
        rw [← List.drop_drop]
        conv_lhs => rw [← hsplit]
        exact List.drop_left
      have hlength := congrArg List.length hsplit
      rw [List.length_append, ← hrest] at hlength
      have hnext := ih (h := { h with pos := h.pos + (b :: block).length }) haccess
        (by
          have hpos : 0 < (b :: block).length := List.length_pos_of_mem List.mem_cons_self
          show ((h.content dir).drop (h.pos + (b :: block).length)).length < rounds
          omega) (got ++ (b :: block))
      refine hnext.trans ?_
      show (Except.ok (got ++ (b :: block) ++ (h.content dir).drop (h.pos + (b :: block).length)),
        (⟨h.name, h.pos + (b :: block).length +
          ((h.content dir).drop (h.pos + (b :: block).length)).length, h.access⟩ : FileHandle)) = _
      rw [List.append_assoc, Nat.add_assoc, hlength, hrest, hsplit]

/-- **Reading a buffer at a time** reads to the end, whatever the size of the buffer. -/
theorem readBlocks_eq_readToEnd {n : ℕ} (hn : 0 < n) (h : FileHandle) (dir : Dir) :
    h.readBlocks n dir = h.readToEnd dir := by
  cases haccess : h.access with
  | writeOnly =>
    rw [readToEnd_writeOnly haccess, readBlocks, readRounds, FileHandle.read, haccess]
  | readWrite =>
    have hlength : ((h.content dir).drop h.pos).length = (h.content dir).length - h.pos :=
      List.length_drop
    have hpos : max h.pos (h.content dir).length = h.pos + ((h.content dir).length - h.pos) := by
      omega
    rw [readBlocks, readRounds_of_readWrite hn haccess (by omega), FileHandle.readToEnd, haccess,
      List.nil_append, hlength, hpos]

lemma AtEnd.lookup_writeAll_seek (hend : AtEnd h dir content) (pos : ℕ) (data : Bytes) :
    ((h.seek pos).writeAll data dir).2.lookup h.name = some (overwrite content pos data) := by
  have hcontent : (h.seek pos).content dir = content := by
    show (dir.lookup h.name).getD [] = content
    rw [hend.lookup_eq, Option.getD_some]
  rw [FileHandle.writeAll, hcontent]
  exact Finmap.lookup_insert _

lemma lookup_writeAll_of_ne {name : Text} (hne : name ≠ h.name) :
    (h.writeAll data dir).2.lookup name = dir.lookup name :=
  Finmap.lookup_insert_of_ne _ hne

lemma lookup_writePieces_of_ne {name : Text} {pieces : List Bytes} (hne : name ≠ h.name) :
    (h.writePieces pieces dir).2.lookup name = dir.lookup name := by
  induction pieces generalizing h dir with
  | nil => rfl
  | cons data pieces ih =>
    have hrest : name ≠ (h.writeAll data dir).1.name := hne
    show ((h.writeAll data dir).1.writePieces pieces (h.writeAll data dir).2).2.lookup name = _
    rw [ih hrest, lookup_writeAll_of_ne hne]

lemma mem_writeAll {name : Text} (h' : name ∈ dir) : name ∈ (h.writeAll data dir).2 :=
  Finmap.mem_insert.mpr (.inr h')

lemma mem_writePieces {name : Text} {pieces : List Bytes} (h' : name ∈ dir) :
    name ∈ (h.writePieces pieces dir).2 := by
  induction pieces generalizing h dir with
  | nil => exact h'
  | cons data pieces ih => exact ih (mem_writeAll h')

lemma mem_create (access : Access) (name : Text) (dir : Dir) :
    name ∈ (create access name dir).2 :=
  Finmap.mem_insert.mpr (.inl rfl)

lemma lookup_create_of_ne {access : Access} {name other : Text} (hne : other ≠ name) :
    (create access name dir).2.lookup other = dir.lookup other :=
  Finmap.lookup_insert_of_ne _ hne

end Lemmas

end FileHandle

/-! ## Reading off a stream -/

/-- Read exactly `n` bytes. -/
def readExact (n : ℕ) (stream : Bytes) : Except IoError (Bytes × Bytes) :=
  if n ≤ stream.length then .ok (stream.take n, stream.drop n) else .error .earlyEof

/-- Read a number of `w` bytes, low byte first. -/
def readLe (w : ℕ) (stream : Bytes) : Except IoError (ℕ × Bytes) :=
  if w ≤ stream.length then .ok (leNat (stream.take w), stream.drop w) else .error .unexpectedEof

/-- The stream from a position of a file. Positions are signed 64-bit numbers. -/
def seekStart (pos : ℕ) (content : Bytes) : Except IoError Bytes :=
  if pos < 2 ^ 63 then .ok (content.drop pos) else .error .invalidArgument

lemma readExact_append {n : ℕ} {data rest : Bytes} (h : data.length = n) :
    readExact n (data ++ rest) = .ok (data, rest) := by
  subst h
  simp [readExact]

lemma readLe_append {w n : ℕ} {rest : Bytes} (h : n < 256 ^ w) :
    readLe w (leBytes w n ++ rest) = .ok (n, rest) := by
  have htake : (leBytes w n ++ rest).take w = leBytes w n := List.take_left' (length_leBytes w n)
  have hdrop : (leBytes w n ++ rest).drop w = rest := List.drop_left' (length_leBytes w n)
  rw [readLe, if_pos (by simp), htake, hdrop, leNat_leBytes h]
