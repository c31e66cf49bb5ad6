import Landropic.Cas.Frames

set_option autoImplicit false

/-!
# What streamed writes do

What a reader yields goes to a file through a buffer. When the reader fails, what is still in the
buffer is lost, and what was passed on to the file stays there.

## Main definitions

* `Cas.ContentStore.spilled`, `Cas.ContentStore.buffered` — what is passed on to the file while a
  reader yields blocks, and what stays in the buffer.
* `Cas.ContentStore.arrived` — what is in the file at the end.
* `Cas.ContentStore.Staging` — a disk on which files can be streamed.

## Main results

* `Cas.ContentStore.spilled_append_buffered` — nothing is lost as long as the reader does not fail.
* `Cas.ContentStore.wp_streamFrom` — what streaming to an open file leaves in it.
* `Cas.ContentStore.wp_moveIntoPlace` — moving a complete file to where its object belongs.
-/

namespace Landropic.Cas

open Proc

namespace ContentStore

variable (store : ContentStore)

/-! ## What arrives in the file -/

/-- What is passed on to the file while blocks come in, from what is in the buffer at first. -/
def spilled : Bytes → List Bytes → Bytes
  | _, [] => []
  | buf, block :: rest =>
    (store.bufWriter.write buf block).1 ++ spilled (store.bufWriter.write buf block).2 rest

/-- What is in the buffer after blocks have come in. -/
def buffered : Bytes → List Bytes → Bytes
  | buf, [] => buf
  | buf, block :: rest => buffered (store.bufWriter.write buf block).2 rest

/-- What a reader has put into the file when the stream has ended. -/
def arrived (reader : Reader) : Bytes :=
  match reader.error with
  | some _ => store.spilled [] reader.blocks
  | none => reader.bytes

/-- **Nothing is lost** while blocks come in. -/
theorem spilled_append_buffered (buf : Bytes) (blocks : List Bytes) :
    store.spilled buf blocks ++ store.buffered buf blocks = buf ++ blocks.flatten := by
  induction blocks generalizing buf with
  | nil => simp [spilled, buffered]
  | cons block rest ih =>
    calc store.spilled buf (block :: rest) ++ store.buffered buf (block :: rest)
        = (store.bufWriter.write buf block).1 ++ (store.spilled (store.bufWriter.write buf block).2
            rest ++ store.buffered (store.bufWriter.write buf block).2 rest) := by
          rw [spilled, buffered, List.append_assoc]
      _ = ((store.bufWriter.write buf block).1 ++ (store.bufWriter.write buf block).2) ++
            rest.flatten := by
          rw [ih, List.append_assoc]
      _ = buf ++ (block :: rest).flatten := by
          rw [store.bufWriter.append_write, List.flatten_cons, List.append_assoc]

lemma arrived_prefix (reader : Reader) : store.arrived reader <+: reader.bytes := by
  unfold arrived
  split
  · exact ⟨_, by rw [spilled_append_buffered, List.nil_append, Reader.bytes]⟩
  · exact List.prefix_refl _

variable {store} {good : ContentHash → Bytes → Prop} {s : StoreState} {p : FilePath} {ino : ℕ}
  {pos : Option ℕ} {done : Bytes} {hash : ContentHash} {data : Bytes}

/-! ## Streaming to an open file -/

/-- Where a file is written on: at its end. -/
def AtEnd (pos : Option ℕ) (done : Bytes) : Prop := pos = none ∨ pos = some done.length

lemma AtEnd.append (h : AtEnd pos done) (more : Bytes) :
    AtEnd (pos.map (· + more.length)) (done ++ more) := by
  rcases h with rfl | rfl
  · exact .inl rfl
  · exact .inr (by simp)

lemma setData_setData (fs : Fs) (first second : Bytes) :
    (fs.setData ino first).setData ino second = fs.setData ino second := by
  simp [Fs.setData]

lemma setData_self {fs : Fs} (h : fs.data ino = done) : fs.setData ino done = fs := by
  subst h
  simp [Fs.setData]

lemma write_atEnd (fs : Fs) (b : UInt8) : AtEnd pos done → fs.data ino = done →
    (match pos with
      | some n => fs.write ino n [b]
      | none => fs.append ino [b]) = fs.setData ino (done ++ [b]) := by
  rintro (rfl | rfl) hdata
  · simp only [Fs.append, hdata]
  · simp only [Fs.write, hdata, Fs.splice_length]

lemma wp_alone_writeAll (rest : Bytes) (hpos : AtEnd pos done) (hdata : s.fs.data ino = done) :
    wp (.alone Op noFault)
      (fun r s' => r = .ok () ∧ s' = { s with fs := s.fs.setData ino (done ++ rest) })
      (writeAll p ino pos rest) s := by
  induction rest generalizing s pos done with
  | nil => exact ⟨rfl, by rw [List.append_nil, setData_self hdata]⟩
  | cons b rest ih =>
    refine wp_bind (wp_alone_disk fun r fs' heq => ?_)
    obtain ⟨rfl, hfs⟩ := Prod.mk.inj heq
    obtain rfl := hfs.symm.trans (write_atEnd s.fs b hpos hdata)
    refine wp_mono (ih (hpos.append [b]) (by simp [Fs.setData])) ?_
    rintro r s' ⟨rfl, rfl⟩
    refine ⟨rfl, ?_⟩
    rw [setData_setData, List.append_assoc, List.singleton_append]

lemma wp_copyBlocks (blocks : List Bytes) {buf : Bytes} (hpos : AtEnd pos done)
    (hdata : s.fs.data ino = done) : wp (.alone Op noFault)
      (fun r s' => ∃ pos', r = .ok (pos', store.buffered buf blocks) ∧
        AtEnd pos' (done ++ store.spilled buf blocks) ∧
        s' = { s with fs := s.fs.setData ino (done ++ store.spilled buf blocks) })
      (store.copyBlocks p ino pos buf blocks) s := by
  induction blocks generalizing s pos done buf with
  | nil =>
    refine ⟨pos, rfl, ?_, ?_⟩
    · rwa [spilled, List.append_nil]
    · rw [spilled, List.append_nil, setData_self hdata]
  | cons block rest ih =>
    refine wp_bind (wp_mono (wp_alone_writeAll _ hpos hdata) ?_)
    rintro _ s₁ ⟨rfl, rfl⟩
    refine wp_mono (ih (hpos.append _) (by simp [Fs.setData])) ?_
    rintro _ s₂ ⟨pos', rfl, hpos', rfl⟩
    rw [List.append_assoc] at hpos'
    refine ⟨pos', rfl, hpos', ?_⟩
    rw [setData_setData, List.append_assoc, spilled]

/-- **Streaming to an open file**: what has arrived is at its end, and the stream fails if the
reader does. -/
theorem wp_streamFrom (reader : Reader) (hpos : AtEnd pos done) (hdata : s.fs.data ino = done) :
    wp (.alone Op noFault) (fun r s' => (match reader.error with
        | some e => r = .error (.io e)
        | none => r = .ok ()) ∧
        s' = { s with fs := s.fs.setData ino (done ++ store.arrived reader) })
      (store.streamFrom reader p ino pos) s := by
  refine wp_bind (wp_mapErr (wp_mono (wp_copyBlocks reader.blocks hpos hdata) ?_))
  rintro _ s₁ ⟨pos', rfl, hpos', rfl⟩
  dsimp only [Except.mapError]
  unfold arrived
  cases reader.error with
  | some e => exact ⟨rfl, rfl⟩
  | none =>
    refine wp_mapErr (wp_mono (wp_alone_writeAll _ hpos' (by simp [Fs.setData])) ?_)
    rintro _ s₂ ⟨rfl, rfl⟩
    refine ⟨rfl, ?_⟩
    rw [setData_setData, List.append_assoc, spilled_append_buffered, List.nil_append, Reader.bytes]

/-! ## Files beside the tree -/

section Staging

variable {fs fs' : Fs} {name : Text} {size : ℕ}

variable (store good) in
/-- A disk on which files can be streamed: the tree of objects is in order, no file is where the
directory of the streamed writes belongs, and that has no directories in it. -/
structure Staging (fs : Fs) : Prop where
  tidy : store.Tidy good fs
  not_file : ∀ {p}, p <:+ store.tempDir → ∀ i, fs.nodes.lookup p ≠ some (.file i)
  not_dir : ∀ name, fs.nodes.lookup (name :: store.tempDir) ≠ some .dir

lemma staging_empty : store.Staging good .empty where
  tidy := tidy_empty
  not_file _ _ h := by cases h
  not_dir _ h := by cases h

lemma length_temp : (name :: store.tempDir).length = store.rootPath.length + 2 := by
  simp [tempDir]

lemma ne_temp {q : FilePath} (h : q.length ≠ store.rootPath.length + 2) :
    q ≠ name :: store.tempDir := by
  rintro rfl
  exact h length_temp

lemma temp_not_suffix : ¬ name :: store.tempDir <:+ store.shardDir hash := by
  intro h
  obtain ⟨rest, hrest⟩ := h
  have hlen := congrArg List.length hrest
  simp only [List.length_append, length_temp, length_shardDir] at hlen
  obtain ⟨a, rfl⟩ : ∃ a, rest = [a] := List.length_eq_one_iff.mp (by omega)
  simp only [shardDir, objectsDir, tempDir, List.singleton_append, List.cons.injEq] at hrest
  exact absurd hrest.2.2.1 (by decide)

/-- A change of a streamed file leaves the disk as it should be for streams. -/
lemma Staging.of_file (h : store.Staging good fs)
    (hnodes : ∀ q, q ≠ name :: store.tempDir → fs'.nodes.lookup q = fs.nodes.lookup q)
    (hcontent : ∀ q, q ≠ name :: store.tempDir → fs'.content q = fs.content q)
    (hdir : fs'.nodes.lookup (name :: store.tempDir) ≠ some .dir) : store.Staging good fs' := by
  refine ⟨⟨fun {other p} hp i => ?_, fun other => ?_, fun other => ?_,
    fun {other data} hdata => ?_⟩,
    fun {p} hp i => ?_, fun other => ?_⟩
  · rw [hnodes p (by rintro rfl; exact temp_not_suffix hp)]
    exact h.tidy.not_file hp i
  · rw [hnodes _ (ne_temp (by simp))]
    exact h.tidy.object_not_dir other
  · rw [hnodes _ (ne_temp (by simp [length_objectTemp]))]
    exact h.tidy.temp_not_dir other
  · rw [hcontent _ (ne_temp (by simp))] at hdata
    exact h.tidy.good_content hdata
  · have hlen := hp.length_le
    rw [hnodes p (ne_temp (by simp [tempDir] at hlen; omega))]
    exact h.not_file hp i
  · by_cases ho : other :: store.tempDir = name :: store.tempDir
    · rw [ho]
      exact hdir
    · rw [hnodes _ ho]
      exact h.not_dir other

lemma Staging.of_addsDirs (h : store.Staging good fs) {dir : FilePath}
    (hadds : Fs.AddsDirs dir fs fs')
    (hdir : dir.length ≤ store.rootPath.length + 3)
    (htemp : ∀ name, ¬ name :: store.tempDir <:+ dir) : store.Staging good fs' := by
  have hlong : ∀ {q : FilePath}, q.length = store.rootPath.length + 4 →
      fs'.nodes.lookup q = fs.nodes.lookup q := by
    intro q hq
    refine (hadds.2.2 q).resolve_right fun hnew => ?_
    have := hnew.2.2.length_le
    omega
  refine ⟨⟨fun hp i hi => h.tidy.not_file hp i (hadds.lookup_file.mp hi), fun other => ?_,
    fun other => ?_, fun {other data} hdata => ?_⟩,
    fun hp i hi => h.not_file hp i (hadds.lookup_file.mp hi), fun other => ?_⟩
  · rw [hlong (by simp)]
    exact h.tidy.object_not_dir other
  · rw [hlong length_objectTemp]
    exact h.tidy.temp_not_dir other
  · rw [Fs.content_addsDirs hadds] at hdata
    exact h.tidy.good_content hdata
  · rw [(hadds.2.2 _).resolve_right fun hnew => htemp other hnew.2.2]
    exact h.not_dir other

lemma Staging.of_rename (h : store.Staging good fs)
    (hrename : Fs.rename (name :: store.tempDir) (store.objectPath hash) fs = (.ok (), fs'))
    (hgood : ∀ data, fs.content (name :: store.tempDir) = some data → good hash data) :
    store.Staging good fs' := by
  have hne : name :: store.tempDir ≠ store.objectPath hash := noObject_temp name hash
  have hcontent := Fs.content_rename hrename hne
  obtain ⟨i, -, hobject, hgone, hnodes, -⟩ := Fs.rename_ok hrename
  refine ⟨⟨fun {other p} hp j => ?_, fun other => ?_, fun other => ?_,
    fun {other data} hdata => ?_⟩,
    fun {p} hp j => ?_, fun other => ?_⟩
  · rw [hnodes p (by rintro rfl; exact temp_not_suffix hp)
      (by rintro rfl; exact not_suffix_shardDir (length_objectPath _ _) hp)]
    exact h.tidy.not_file hp j
  · by_cases ho : store.objectPath other = store.objectPath hash
    · rw [ho, hobject]
      simp
    · rw [hnodes _ (noObject_temp name other).symm ho]
      exact h.tidy.object_not_dir other
  · rw [hnodes _ (ne_temp (by simp [length_objectTemp])) objectTemp_ne_objectPath]
    exact h.tidy.temp_not_dir other
  · rw [hcontent] at hdata
    split_ifs at hdata with ho hd
    · obtain rfl := store.objectPath_injective ho
      exact hgood data hdata
    · exact h.tidy.good_content hdata
  · have hlen := hp.length_le
    simp only [tempDir, List.length_cons] at hlen
    rw [hnodes p (ne_temp (by omega)) (by rintro rfl; simp at hlen)]
    exact h.not_file hp j
  · by_cases ho : other :: store.tempDir = name :: store.tempDir
    · rw [ho, hgone hne]
      simp
    · rw [hnodes _ ho (noObject_temp other hash)]
      exact h.not_dir other

lemma verifyHash_of_expected {temp : FilePath} {expectedHash : Option ContentHash}
    (h : ∀ expected ∈ expectedHash, expected = hash) :
    verifyHash temp expectedHash hash = pure () := by
  unfold verifyHash
  split
  · next expected =>
    rw [if_neg (not_not.mpr (h expected rfl).symm)]
  · rfl

lemma wp_createTempDir {s : StoreState} (h : store.Staging good s.fs) :
    wp (.alone Op noFault) (fun r s' => r = .ok () ∧ store.Staging good s'.fs ∧
        s'.fs.isDir store.tempDir = true ∧ ∀ q, s'.fs.content q = s.fs.content q)
      store.createTempDir s := by
  refine wp_mapErr (wp_alone_disk fun r fs' heq => ?_)
  obtain ⟨hok, hdir⟩ := Fs.createDirAll_ok fun p hp => h.not_file hp
  have hadds := Fs.addsDirs_createDirAll store.tempDir s.fs
  rw [heq] at hok hdir hadds
  obtain rfl := hok
  refine ⟨rfl, h.of_addsDirs hadds (by simp [tempDir]) fun name hsuffix => ?_, hdir,
    Fs.content_addsDirs hadds⟩
  have hlen := hsuffix.length_le
  rw [List.length_cons] at hlen
  omega

/-- **Moving a complete file to where its object belongs**: the object holds what it did, or else
what was in the file. -/
theorem wp_moveIntoPlace {s : StoreState} (h : store.Staging good s.fs)
    (hdata : s.fs.content (name :: store.tempDir) = some data)
    (hgood : s.fs.content (store.objectPath hash) = none → good hash data) :
    wp (.alone Op noFault) (fun r s' => r = .ok ⟨hash, size⟩ ∧ store.Staging good s'.fs ∧
        s'.fs.content (store.objectPath hash) =
          some ((s.fs.content (store.objectPath hash)).getD data))
      (store.moveIntoPlace (name :: store.tempDir) hash size) s := by
  obtain ⟨i, hi, hdatai⟩ := Fs.content_eq_some.mp hdata
  have hne : store.objectPath hash ≠ name :: store.tempDir := (noObject_temp name hash).symm
  refine wp_bind (wp_alone_pathExists ?_)
  dsimp only
  split
  · next hexists =>
    have hobject : ∃ old, s.fs.content (store.objectPath hash) = some old := by
      rcases Fs.pathExists_iff.mp hexists with hnil | ⟨node, hnode⟩
      · exact absurd (congrArg List.length hnil) (by simp)
      · cases node with
        | dir => exact absurd hnode (h.tidy.object_not_dir hash)
        | file i => exact ⟨_, Fs.content_of_lookup hnode⟩
    obtain ⟨old, hold⟩ := hobject
    refine wp_bind (wp_mapErr (wp_alone_disk fun r fs' heq => ?_))
    obtain ⟨fs'', hok⟩ := Fs.exists_removeFile hi
    obtain ⟨rfl, rfl⟩ := Prod.mk.inj (hok.symm.trans heq)
    have hcontent := Fs.content_removeFile hok
    obtain ⟨-, hgone, hnodes, -⟩ := Fs.removeFile_ok hok
    refine wp_bind (wp_alone_modify ⟨rfl, ?_, ?_⟩)
    · exact h.of_file hnodes (fun q hq => by rw [hcontent, if_neg hq]) (by simp [hgone])
    · show fs''.content _ = _
      rw [hcontent, if_neg hne, hold, Option.getD_some]
  · next hmissing =>
    have hnone : s.fs.content (store.objectPath hash) = none := by
      rw [Fs.content_eq_none]
      exact fun j hj => hmissing (Fs.pathExists_of_lookup hj)
    refine wp_bind (wp_mapErr (wp_alone_disk fun r fs' heq => ?_))
    obtain ⟨hok, hdir⟩ := Fs.createDirAll_ok fun p (hp : p <:+ store.shardDir hash) =>
      h.tidy.not_file hp
    have hadds := Fs.addsDirs_createDirAll (store.shardDir hash) s.fs
    rw [heq] at hok hdir hadds
    obtain rfl := hok
    have h₁ := h.of_addsDirs hadds (by simp) fun _ => temp_not_suffix
    refine wp_bind (wp_mapErr (wp_alone_disk fun r fs'' heq' => ?_))
    obtain ⟨fs₂, hok₂⟩ := Fs.exists_rename (hash.toHex.drop 4) (hadds.lookup hi) hdir
      (h₁.tidy.object_not_dir hash)
    obtain ⟨rfl, rfl⟩ := Prod.mk.inj (hok₂.symm.trans heq')
    have hdata₁ : fs'.content (name :: store.tempDir) = some data := by
      rw [Fs.content_addsDirs hadds]
      exact hdata
    refine wp_bind (wp_alone_modify ⟨rfl, h₁.of_rename hok₂ ?_, ?_⟩)
    · rw [hdata₁]
      rintro _ ⟨⟩
      exact hgood hnone
    · have hcontent := Fs.content_rename (q := store.objectPath hash) hok₂ hne.symm
        (store.objectPath hash)
      rw [if_pos rfl, hdata₁] at hcontent
      rw [hnone, Option.getD_none]
      exact hcontent

end Staging

end ContentStore

end Landropic.Cas
