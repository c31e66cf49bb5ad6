import Landropic.Cas.CrashRecovery
import Landropic.Cas.Streams

set_option autoImplicit false

/-!
# Temporary files and the calls they belong to

Every call that writes has one temporary file: a write that of its object, beside the object itself,
a streamed write and a resumable write one that is named by a UUID, in a directory of their own.
Calls with different temporary files leave one another alone.

## Main definitions

* `Cas.Owner`, `Cas.ContentStore.fileOf` — the temporary files.
* `Cas.ContentStore.Clean` — the disk of a store: there are files only where they belong, and every
  object has the hash that it is named by.
* `Cas.ContentStore.Respects`, `Cas.ContentStore.Moves` — what others may do to the disk, and what
  the owner of a temporary file does to it.
* `Cas.ContentStore.ownerSpec` — the specification of a call with a temporary file.

## Main results

* `Cas.ContentStore.moves_of_file`, `Cas.ContentStore.moves_rename` — what the operations on a
  temporary file do.
* `Cas.ContentStore.part_streamFrom`, `Cas.ContentStore.part_moveIntoPlace` — the parts that
  streamed and resumable writes share.
-/

namespace Landropic.Cas

open Proc

/-- The temporary files: that of an object, that of a streamed write and that of a resumable one,
with the name that was drawn for it. -/
inductive Owner
  | object (hash : ContentHash)
  | stream (name : Text)
  | transfer (name : Text)
  deriving DecidableEq

/-- The number an action gets from outside. -/
def Io.number : Io → ℕ
  | .ok n => n
  | .fail => 0

/-- A call that draws the name of its temporary file draws that of its owner. -/
def Owner.Draws : Owner → Io → Prop
  | .object _, _ => True
  | .stream name, i => uuidText i.number = name
  | .transfer name, i => uuidText i.number = name

instance (owner : Owner) (i : Io) : Decidable (owner.Draws i) := by
  cases owner <;> unfold Owner.Draws <;> infer_instance

/-- Looks whether a path exists. A task goes on when they fail. -/
def Op.isPathExists : Op → Bool
  | .pathExists _ => true
  | _ => false

namespace ContentStore

variable (store : ContentStore)

/-- Where a temporary file is. -/
def fileOf : Owner → FilePath
  | .object hash => store.objectTemp hash
  | .stream name => (name ++ ".tmp".toList) :: store.tempDir
  | .transfer name => (name ++ ".partial".toList) :: store.tempDir

/-- Where files belong. -/
def IsFilePath (p : FilePath) : Prop :=
  (∃ hash, p = store.objectPath hash) ∨ ∃ owner, p = store.fileOf owner

/-- Where directories belong. -/
def IsDirPath (p : FilePath) : Prop := p <:+ store.tempDir ∨ ∃ hash, p <:+ store.shardDir hash

/-- The disk of a store. -/
structure Clean (fs : Fs) : Prop where
  not_file : ∀ {p}, store.IsDirPath p → ∀ i, fs.nodes.lookup p ≠ some (.file i)
  not_dir : ∀ {p}, store.IsFilePath p → fs.nodes.lookup p ≠ some .dir
  /-- No other files are in the directories of the store. -/
  isFilePath : ∀ {p i}, store.objectsDir <:+ p ∨ store.tempDir <:+ p →
    fs.nodes.lookup p = some (.file i) → store.IsFilePath p
  hashesTo : ∀ {hash data}, fs.content (store.objectPath hash) = some data →
    store.HashesTo hash data

/-- What others may do to the disk while the owner of a temporary file is at work. -/
structure Respects (owner : Owner) (fs fs' : Fs) : Prop where
  clean : store.Clean fs → store.Clean fs'
  isDir : ∀ {p}, fs.isDir p = true → fs'.isDir p = true
  file : SameFile (store.fileOf owner) fs fs'

/-- What the owner of a temporary file does to the disk. -/
structure Moves (owner : Owner) (fs fs' : Fs) : Prop where
  clean : store.Clean fs → store.Clean fs'
  isDir : ∀ {p}, fs.isDir p = true → fs'.isDir p = true
  others : ∀ {other}, other ≠ owner → SameFile (store.fileOf other) fs fs'

variable {store} {fs fs' : Fs} {owner other : Owner} {p : FilePath} {hash : ContentHash}

lemma clean_empty : store.Clean .empty where
  not_file _ _ h := by cases h
  not_dir _ h := by cases h
  isFilePath _ h := by cases h
  hashesTo h := by cases h

lemma Respects.refl : store.Respects owner fs fs := ⟨id, id, .refl _ _⟩

lemma Respects.trans {fs'' : Fs} (h : store.Respects owner fs fs')
    (h' : store.Respects owner fs' fs'') : store.Respects owner fs fs'' :=
  ⟨h'.clean ∘ h.clean, h'.isDir ∘ h.isDir, h.file.trans h'.file⟩

lemma Respects.content_eq_none (h : store.Respects owner fs fs')
    (hnone : fs.content (store.fileOf owner) = none) : fs'.content (store.fileOf owner) = none := by
  rw [Fs.content_eq_none] at hnone ⊢
  intro i
  rw [h.file.1]
  exact hnone i

lemma Moves.respects (h : store.Moves owner fs fs') (hne : other ≠ owner) :
    store.Respects other fs fs' := ⟨h.clean, h.isDir, h.others hne⟩

lemma moves_of_respects (h : ∀ other, store.Respects other fs fs') : store.Moves owner fs fs' :=
  ⟨(h owner).clean, (h owner).isDir, fun {other} _ => (h other).file⟩

lemma Moves.refl : store.Moves owner fs fs := moves_of_respects fun _ => .refl

/-! ## Paths -/

lemma isFilePath_objectPath : store.IsFilePath (store.objectPath hash) := .inl ⟨hash, rfl⟩

lemma isFilePath_fileOf : store.IsFilePath (store.fileOf owner) := .inr ⟨owner, rfl⟩

lemma isDirPath_tempDir : store.IsDirPath store.tempDir := .inl (List.suffix_refl _)

lemma isDirPath_shardDir : store.IsDirPath (store.shardDir hash) := .inr ⟨hash, List.suffix_refl _⟩

lemma fileOf_ne_objectPath : store.fileOf owner ≠ store.objectPath hash := by
  cases owner with
  | object other => exact objectTemp_ne_objectPath
  | stream name => exact noObject_temp _ hash
  | transfer name => exact noObject_temp _ hash

lemma fileOf_injective : Function.Injective store.fileOf := by
  have hlen : ∀ (hash : ContentHash) (name : Text),
      store.objectTemp hash ≠ name :: store.tempDir :=
    fun hash name => ne_temp (by simp [length_objectTemp])
  have hends : ∀ a b : Text, a ++ ".tmp".toList ≠ b ++ ".partial".toList := by
    intro a b h
    have hlast := congrArg List.getLast? h
    rw [List.getLast?_append_of_ne_nil _ (by decide),
      List.getLast?_append_of_ne_nil _ (by decide)] at hlast
    exact absurd hlast (by decide)
  intro a b h
  cases a with
  | object x =>
    cases b with
    | object y => exact congrArg _ (objectTemp_injective h)
    | stream y => exact absurd h (hlen _ _)
    | transfer y => exact absurd h (hlen _ _)
  | stream x =>
    cases b with
    | object y => exact absurd h.symm (hlen _ _)
    | stream y => exact congrArg _ (List.append_cancel_right (List.cons.inj h).1)
    | transfer y => exact absurd (List.cons.inj h).1 (hends _ _)
  | transfer x =>
    cases b with
    | object y => exact absurd h.symm (hlen _ _)
    | stream y => exact absurd (List.cons.inj h).1.symm (hends _ _)
    | transfer y => exact congrArg _ (List.append_cancel_right (List.cons.inj h).1)

lemma not_isFilePath_of_isDirPath (h : store.IsDirPath p) : ¬ store.IsFilePath p := by
  rintro (⟨hash, rfl⟩ | ⟨owner, rfl⟩)
  · rcases h with htemp | ⟨other, hshard⟩
    · have hlen := htemp.length_le
      simp [tempDir] at hlen
    · exact not_suffix_shardDir (length_objectPath _ _) hshard
  · have hname : ∀ name, ¬ store.IsDirPath (name :: store.tempDir) := by
      rintro name (htemp | ⟨other, hshard⟩)
      · have hlen := htemp.length_le
        rw [List.length_cons] at hlen
        omega
      · exact temp_not_suffix hshard
    cases owner with
    | object hash =>
      rcases h with htemp | ⟨other, hshard⟩
      · have hlen := htemp.length_le
        simp [fileOf, length_objectTemp, tempDir] at hlen
      · exact not_suffix_shardDir length_objectTemp hshard
    | stream name => exact hname _ h
    | transfer name => exact hname _ h

/-! ## What the operations do -/

/-- A disk on which only files that belong there have changed. -/
lemma Clean.of_lookup (h : store.Clean fs)
    (hnodes : ∀ q, ¬ store.IsFilePath q → fs'.nodes.lookup q = fs.nodes.lookup q)
    (hdir : ∀ q, store.IsFilePath q → fs'.nodes.lookup q ≠ some .dir)
    (hhash : ∀ hash data, fs'.content (store.objectPath hash) = some data →
      store.HashesTo hash data) : store.Clean fs' where
  not_file hp i := by
    rw [hnodes _ (not_isFilePath_of_isDirPath hp)]
    exact h.not_file hp i
  not_dir hp := hdir _ hp
  isFilePath hp hi := by
    by_contra hno
    rw [hnodes _ hno] at hi
    exact hno (h.isFilePath hp hi)
  hashesTo := hhash _ _

lemma sameFile_of_content (hnodes : fs'.nodes.lookup p = fs.nodes.lookup p)
    (hcontent : fs'.content p = fs.content p) : SameFile p fs fs' := by
  refine ⟨hnodes, fun i hi => ?_⟩
  rw [Fs.content_of_lookup (hnodes.trans hi), Fs.content_of_lookup hi] at hcontent
  exact Option.some.inj hcontent

/-- **Changing one's own file.** -/
theorem moves_of_file (h : store.Clean fs)
    (hnodes : ∀ q, q ≠ store.fileOf owner → fs'.nodes.lookup q = fs.nodes.lookup q)
    (hcontent : ∀ q, q ≠ store.fileOf owner → fs'.content q = fs.content q)
    (hdir : fs'.nodes.lookup (store.fileOf owner) ≠ some .dir) : store.Moves owner fs fs' where
  clean _ := by
    refine h.of_lookup (fun q hq => hnodes q ?_) (fun q hq => ?_) fun hash data hdata => ?_
    · rintro rfl
      exact hq isFilePath_fileOf
    · by_cases heq : q = store.fileOf owner
      · exact heq ▸ hdir
      · rw [hnodes q heq]
        exact h.not_dir hq
    · rw [hcontent _ fileOf_ne_objectPath.symm] at hdata
      exact h.hashesTo hdata
  isDir {p} hp := by
    rw [Fs.isDir_iff] at hp ⊢
    refine hp.imp_right fun hlookup => ?_
    rw [hnodes p (by rintro rfl; exact h.not_dir isFilePath_fileOf hlookup), hlookup]
  others {other} hne := by
    have hpath : store.fileOf other ≠ store.fileOf owner := fun heq => hne (fileOf_injective heq)
    exact sameFile_of_content (hnodes _ hpath) (hcontent _ hpath)

/-- **Moving one's file** to where the object of its content belongs. -/
theorem moves_rename (h : store.Clean fs)
    (hrename : Fs.rename (store.fileOf owner) (store.objectPath hash) fs = (.ok (), fs'))
    (hhash : ∀ data, fs.content (store.fileOf owner) = some data → store.HashesTo hash data) :
    store.Moves owner fs fs' ∧ fs'.content (store.fileOf owner) = none := by
  have hne : store.fileOf owner ≠ store.objectPath hash := fileOf_ne_objectPath
  have hcontent := Fs.content_rename hrename hne
  obtain ⟨i, -, hobject, hgone, hnodes, -⟩ := Fs.rename_ok hrename
  have hfile : fs'.content (store.fileOf owner) = none := by
    rw [hcontent, if_neg hne, if_pos rfl]
  refine ⟨⟨fun _ => h.of_lookup (fun q hq => hnodes q ?_ ?_) (fun q hq => ?_)
    fun other data hdata => ?_, fun {p} hp => ?_, fun {other} hother => ?_⟩, hfile⟩
  · rintro rfl
    exact hq isFilePath_fileOf
  · rintro rfl
    exact hq isFilePath_objectPath
  · by_cases ho : q = store.objectPath hash
    · rw [ho, hobject]
      simp
    · by_cases hq' : q = store.fileOf owner
      · rw [hq', hgone hne]
        simp
      · rw [hnodes q hq' ho]
        exact h.not_dir hq
  · rw [hcontent] at hdata
    split_ifs at hdata with ho hd
    · obtain rfl := store.objectPath_injective ho
      exact hhash data hdata
    · exact h.hashesTo hdata
  · rw [Fs.isDir_iff] at hp ⊢
    refine hp.imp_right fun hlookup => ?_
    rw [hnodes p (by rintro rfl; exact h.not_dir isFilePath_fileOf hlookup)
      (by rintro rfl; exact h.not_dir isFilePath_objectPath hlookup), hlookup]
  · have hpath : store.fileOf other ≠ store.fileOf owner := fun heq => hother (fileOf_injective heq)
    refine sameFile_of_content (hnodes _ hpath fileOf_ne_objectPath) ?_
    rw [hcontent, if_neg fileOf_ne_objectPath, if_neg hpath]

lemma respects_addsDirs (hdir : store.IsDirPath p) (hadds : Fs.AddsDirs p fs fs') :
    store.Respects owner fs fs' := by
  have hbelow : ∀ {q}, q <:+ p → store.IsDirPath q := by
    intro q hq
    rcases hdir with htemp | ⟨hash, hshard⟩
    · exact .inl (hq.trans htemp)
    · exact .inr ⟨hash, hq.trans hshard⟩
  have hfiles : ∀ {q}, store.IsFilePath q → fs'.nodes.lookup q = fs.nodes.lookup q := by
    intro q hq
    refine (hadds.2.2 q).resolve_right fun hnew => ?_
    exact not_isFilePath_of_isDirPath (hbelow hnew.2.2) hq
  refine ⟨fun h => ⟨fun hp i hi => h.not_file hp i (hadds.lookup_file.mp hi), fun hp => ?_,
    fun hp hi => h.isFilePath hp (hadds.lookup_file.mp hi), fun hdata => ?_⟩, hadds.isDir, ?_⟩
  · rw [hfiles hp]
    exact h.not_dir hp
  · rw [Fs.content_addsDirs hadds] at hdata
    exact h.hashesTo hdata
  · exact sameFile_of_content (hfiles isFilePath_fileOf) (Fs.content_addsDirs hadds _)

/-! ## The specification of a call with a temporary file -/

section Calls

variable (store) (owner) (faults broken : Prop)

/-- The temporary file is not there, or faults are allowed. -/
def Gone (fs : Fs) : Prop := faults ∨ fs.content (store.fileOf owner) = none

/-- The specification of a call with a temporary file. Where faults are not allowed, no action fails
while the file is there, except for looks whether a path exists, and a call that is bound to fail
later on does not get as far as to create the file. -/
def ownerSpec : Spec StoreState Io Op where
  env _ s s' := store.Respects owner s.fs s'.fs
  env_refl _ _ := .refl
  env_trans := Respects.trans
  input op s i := (op = .uuid → owner.Draws i) ∧
    (i = .fail → op.isPathExists = true ∨ store.Gone owner faults s.fs) ∧
    (broken → op = .create (store.fileOf owner) → i = .fail)
  guar _ s s' := store.Moves owner s.fs s'.fs
  progress := False

/-- A part of a call has ended: the disk is that of a store, and the part has achieved `P`, or it
has failed and the temporary file is not there. -/
def Part {ε α : Type} (P : α → Fs → Prop) (r : Except ε α) (s : StoreState) : Prop :=
  store.Clean s.fs ∧ match r with
    | .ok a => P a s.fs
    | .error _ => store.Gone owner faults s.fs

variable {store} {owner} {faults broken : Prop} {s : StoreState} {ε ε' α β : Type} {op : Op}
  {ino : ℕ} {done data : Bytes} {pos : Option ℕ} {transfer : PartialTransfer}

lemma Respects.gone (h : store.Respects owner fs fs') (hgone : store.Gone owner faults fs) :
    store.Gone owner faults fs' := hgone.imp_right h.content_eq_none

variable {P : α → Fs → Prop}

/-- The parts of a call follow one another. -/
lemma part_bind {t : Task ε α} {k : α → Task ε β} {P' : β → Fs → Prop}
    (h : wp (store.ownerSpec owner faults broken) (store.Part owner faults P) t s)
    (hk : ∀ a s', store.Clean s'.fs → P a s'.fs →
      wp (store.ownerSpec owner faults broken) (store.Part owner faults P') (k a) s') :
    wp (store.ownerSpec owner faults broken) (store.Part owner faults P') (t >>= k) s := by
  refine wp_bind (wp_mono h ?_)
  rintro (e | a) s' ⟨hclean, hr⟩
  · exact ⟨hclean, hr⟩
  · exact hk a s' hclean hr

lemma part_mapErr {t : Task ε α} {f : ε → ε'}
    (h : wp (store.ownerSpec owner faults broken) (store.Part owner faults P) t s) :
    wp (store.ownerSpec owner faults broken) (store.Part owner faults P) (t.mapErr f) s := by
  refine wp_mapErr (wp_mono h ?_)
  rintro (e | a) s' hr
  · exact hr
  · exact hr

/-- An operation of the disk. -/
lemma part_disk {f : Fs → Except IoError α × Fs} (h : store.Clean s.fs)
    (hop : op.isPathExists = false) (hdisk : ∀ fs, store.Respects owner s.fs fs → store.Clean fs →
      (broken → op ≠ .create (store.fileOf owner)) → ∀ r fs', f fs = (r, fs') →
      store.Moves owner fs fs' ∧ match r with
        | .ok a => P a fs'
        | .error _ => store.Gone owner faults fs') :
    wp (store.ownerSpec owner faults broken) (store.Part owner faults P) (disk op f) s := by
  refine wp_disk (fun s' henv hi => ⟨.refl, henv.clean h, ?_⟩) fun s' n henv hi r fs' heq => ?_
  · exact (hi.2.1 rfl).resolve_left (by simp [hop])
  · have hok : broken → op ≠ .create (store.fileOf owner) := by
      intro hbroken heq
      cases hi.2.2 hbroken heq
    obtain ⟨hmoves, hr⟩ := hdisk s'.fs henv (henv.clean h) hok r fs' heq
    refine ⟨hmoves, hmoves.clean (henv.clean h), ?_⟩
    cases r with
    | ok a => exact hr
    | error e => exact hr

/-- An operation of the disk that changes nothing. -/
lemma part_look {f : Fs → Except IoError α} (h : store.Clean s.fs) (hop : op.isPathExists = false)
    (hlook : ∀ fs, store.Respects owner s.fs fs → store.Clean fs → match f fs with
      | .ok a => P a fs
      | .error _ => store.Gone owner faults fs) :
    wp (store.ownerSpec owner faults broken) (store.Part owner faults P) (look op f) s := by
  refine part_disk h hop fun fs henv hclean _ r fs' heq => ?_
  obtain ⟨rfl, rfl⟩ := Prod.mk.inj heq
  exact ⟨.refl, hlook fs henv hclean⟩

/-- An action that leaves the disk as it is and does not fail. -/
lemma part_still {f : Io → StoreState → Except ε α × StoreState} (h : store.Clean s.fs)
    (hfs : ∀ i s, (f i s).2.fs = s.fs) (hok : ∀ i s, ∃ a, (f i s).1 = .ok a)
    (hP : ∀ a fs, store.Respects owner s.fs fs → P a fs) :
    wp (store.ownerSpec owner faults broken) (store.Part owner faults P) (.atom op f) s := by
  refine wp_atom fun s' henv i _ => ⟨?_, ?_⟩
  · show store.Moves owner s'.fs (f i s').2.fs
    rw [hfs]
    exact .refl
  · obtain ⟨a, ha⟩ := hok i s'
    rw [ha]
    unfold Part
    rw [hfs]
    exact ⟨henv.clean h, hP a s'.fs henv⟩

/-! ### Single steps -/

/-- Creating directories where they belong. -/
lemma part_createDirAll {A : Fs → Prop} (h : store.Clean s.fs) (hdir : store.IsDirPath p)
    (hA : A s.fs) (hstable : ∀ {fs fs'}, store.Respects owner fs fs' → A fs → A fs') :
    wp (store.ownerSpec owner faults broken)
      (store.Part owner faults fun _ fs => fs.isDir p = true ∧ A fs)
      (disk (.createDirAll p) (Fs.createDirAll p)) s := by
  refine part_disk h rfl fun fs henv hclean _ r fs' heq => ?_
  obtain ⟨hok, hisDir⟩ := Fs.createDirAll_ok fun q (hq : q <:+ p) => hclean.not_file (by
    rcases hdir with htemp | ⟨hash, hshard⟩
    · exact .inl (hq.trans htemp)
    · exact .inr ⟨hash, hq.trans hshard⟩)
  have hadds := Fs.addsDirs_createDirAll p fs
  rw [heq] at hok hisDir hadds
  obtain rfl := hok
  exact ⟨moves_of_respects fun _ => respects_addsDirs hdir hadds, hisDir,
    hstable (respects_addsDirs hdir hadds) (hstable henv hA)⟩

/-- Creating the temporary file. -/
lemma part_create (h : store.Clean s.fs) (hgone : store.Gone owner faults s.fs) :
    wp (store.ownerSpec owner faults broken)
      (store.Part owner faults fun ino fs => ¬ broken ∧ Holding (store.fileOf owner) ino [] fs)
      (disk (.create (store.fileOf owner)) (Fs.create (store.fileOf owner))) s := by
  refine part_disk h rfl fun fs henv hclean hbroken r fs' heq => ?_
  cases r with
  | error e =>
    obtain rfl := Fs.create_error heq
    exact ⟨.refl, henv.gone hgone⟩
  | ok ino =>
    have hcontent := Fs.content_create heq
    obtain ⟨hfile, hempty, hnodes, -⟩ := Fs.create_ok heq
    refine ⟨moves_of_file hclean hnodes (fun q hq => by rw [hcontent, if_neg hq]) (by simp [hfile]),
      fun hb => hbroken hb rfl, hfile, hempty⟩

/-- Writing at the end of the temporary file. -/
lemma part_writeAll (rest : Bytes) (h : store.Clean s.fs) (hpos : AtEnd pos done)
    (hold : Holding (store.fileOf owner) ino done s.fs) :
    wp (store.ownerSpec owner faults broken)
      (store.Part owner faults fun _ => Holding (store.fileOf owner) ino (done ++ rest))
      (writeAll (store.fileOf owner) ino pos rest) s := by
  induction rest generalizing s pos done with
  | nil =>
    refine ⟨h, ?_⟩
    rwa [List.append_nil]
  | cons b rest ih =>
    refine part_bind (P := fun _ => Holding (store.fileOf owner) ino (done ++ [b]))
      (part_disk h rfl fun fs henv hclean _ r fs' heq => ?_) fun _ s' hclean hold' => ?_
    · have hold' := henv.file.holding hold
      obtain ⟨rfl, hfs⟩ := Prod.mk.inj heq
      obtain rfl := hfs.symm.trans (write_atEnd fs b hpos hold'.2)
      have hcontent := Fs.content_setData hold'.1 (done ++ [b])
      refine ⟨moves_of_file hclean (fun _ _ => rfl) (fun q hq => by rw [hcontent, if_neg hq])
        (by simp [hold'.1]), hold'.1, by simp [Fs.setData]⟩
    · have := ih hclean (hpos.append [b]) hold'
      rwa [List.append_assoc] at this

lemma part_removeFile (h : store.Clean s.fs) :
    wp (store.ownerSpec owner faults broken)
      (store.Part owner faults fun _ => store.Gone owner faults)
      (disk (.removeFile (store.fileOf owner)) (Fs.removeFile (store.fileOf owner))) s := by
  refine part_disk h rfl fun fs henv hclean _ r fs' heq => ?_
  cases r with
  | ok u =>
    have hcontent := Fs.content_removeFile heq
    obtain ⟨-, hgone, hnodes, -⟩ := Fs.removeFile_ok heq
    refine ⟨moves_of_file hclean hnodes (fun q hq => by rw [hcontent, if_neg hq]) (by simp [hgone]),
      .inr ?_⟩
    rw [hcontent, if_pos rfl]
  | error e =>
    have hcontent := Fs.content_removeFile_of_eq heq (store.fileOf owner)
    rw [if_pos rfl] at hcontent
    exact ⟨Fs.removeFile_error heq ▸ .refl, .inr hcontent⟩

lemma part_discard (h : store.Clean s.fs) (e : CasError) :
    wp (store.ownerSpec owner faults broken) (store.Part owner faults P)
      (discard (store.fileOf owner) e) s := by
  refine wp_bind (wp_attempt (wp_mono (part_removeFile h) ?_))
  rintro (e' | u) s' ⟨hclean, hgone⟩
  · exact ⟨hclean, hgone⟩
  · exact ⟨hclean, hgone⟩

/-! ### The parts that streamed and resumable writes share -/

variable (store)

/-- Streaming to the temporary file: everything arrives if the reader does not fail. -/
theorem part_streamFrom (reader : Reader) (h : store.Clean s.fs) (hpos : AtEnd pos done)
    (hold : Holding (store.fileOf owner) ino done s.fs) (hreader : faults ∨ reader.error = none) :
    wp (store.ownerSpec owner faults broken)
      (store.Part owner faults fun _ => Holding (store.fileOf owner) ino (done ++ reader.bytes))
      (store.streamFrom reader (store.fileOf owner) ino pos) s := by
  have hcopy : ∀ (blocks : List Bytes) (buf : Bytes) (pos : Option ℕ) (done : Bytes)
      (s : StoreState), store.Clean s.fs → AtEnd pos done →
      Holding (store.fileOf owner) ino done s.fs →
      wp (store.ownerSpec owner faults broken)
        (store.Part owner faults fun out fs => out.2 = store.buffered buf blocks ∧
          AtEnd out.1 (done ++ store.spilled buf blocks) ∧
          Holding (store.fileOf owner) ino (done ++ store.spilled buf blocks) fs)
        (store.copyBlocks (store.fileOf owner) ino pos buf blocks) s := by
    intro blocks
    induction blocks with
    | nil =>
      intro buf pos done s h hpos hold
      refine ⟨h, rfl, ?_, ?_⟩
      · rwa [spilled, List.append_nil]
      · rwa [spilled, List.append_nil]
    | cons block rest ih =>
      intro buf pos done s h hpos hold
      refine part_bind (part_writeAll _ h hpos hold) fun _ s₁ h₁ hold₁ => ?_
      have := ih (store.bufWriter.write buf block).2 _ _ s₁ h₁ (hpos.append _) hold₁
      rwa [List.append_assoc] at this
  refine part_bind (part_mapErr (hcopy reader.blocks [] pos done s h hpos hold)) ?_
  rintro ⟨pos', buf⟩ s₁ h₁ ⟨rfl, hpos₁, hold₁⟩
  dsimp only
  cases he : reader.error with
  | some e =>
    rw [he] at hreader
    exact ⟨h₁, .inl (hreader.resolve_right (by simp))⟩
  | none =>
    have hdone : done ++ reader.bytes =
        done ++ store.spilled [] reader.blocks ++ store.buffered [] reader.blocks := by
      rw [List.append_assoc, spilled_append_buffered, List.nil_append]
      rfl
    rw [hdone]
    exact part_mapErr (part_writeAll _ h₁ hpos₁ hold₁)

variable {store}

lemma part_verifyHash {expected : Option ContentHash} {computed : ContentHash}
    (h : store.Clean s.fs) (hold : Holding (store.fileOf owner) ino data s.fs) :
    wp (store.ownerSpec owner faults broken)
      (store.Part owner faults fun _ => Holding (store.fileOf owner) ino data)
      (verifyHash (store.fileOf owner) expected computed) s := by
  unfold verifyHash
  split
  · split
    · exact part_discard h _
    · exact ⟨h, hold⟩
  · exact ⟨h, hold⟩

lemma part_verifySize {totalSize : Option ℕ} {size : ℕ} (h : store.Clean s.fs)
    (hold : Holding (store.fileOf owner) ino data s.fs) :
    wp (store.ownerSpec owner faults broken)
      (store.Part owner faults fun _ => Holding (store.fileOf owner) ino data)
      (verifySize (store.fileOf owner) totalSize size) s := by
  unfold verifySize
  split
  · split
    · exact part_discard h _
    · exact ⟨h, hold⟩
  · exact ⟨h, hold⟩

lemma part_dedupInsert {ref : ObjectRef} {A : Fs → Prop} (h : store.Clean s.fs) (hA : A s.fs)
    (hstable : ∀ {fs fs'}, store.Respects owner fs fs' → A fs → A fs') :
    wp (store.ownerSpec owner faults broken) (store.Part owner faults fun _ => A)
      (dedupInsert ref : Task ε Unit) s :=
  part_still h (fun _ _ => rfl) (fun _ _ => ⟨_, rfl⟩) fun _ _ henv => hstable henv hA

/-- **Moving a complete file to where its object belongs**, or removing it, leaves no temporary file
behind. -/
theorem part_moveIntoPlace {size : ℕ} (h : store.Clean s.fs)
    (hold : Holding (store.fileOf owner) ino data s.fs) (hhash : store.HashesTo hash data) :
    wp (store.ownerSpec owner faults broken)
      (store.Part owner faults fun _ => store.Gone owner faults)
      (store.moveIntoPlace (store.fileOf owner) hash size) s := by
  have hend : ∀ s : StoreState, store.Clean s.fs → store.Gone owner faults s.fs →
      wp (store.ownerSpec owner faults broken)
        (store.Part owner faults fun _ => store.Gone owner faults) (do
          dedupInsert ⟨hash, size⟩
          pure (⟨hash, size⟩ : ObjectRef) : Task CasError ObjectRef) s := by
    intro s h hgone
    refine part_bind (part_dedupInsert h hgone fun henv => henv.gone) fun _ s' h' hgone' => ?_
    exact ⟨h', hgone'⟩
  refine part_bind (P := fun _ => Holding (store.fileOf owner) ino data) (part_still h
    (fun _ _ => rfl) (fun _ _ => ⟨_, rfl⟩) fun _ _ henv => henv.file.holding hold) ?_
  intro found s₁ h₁ hold₁
  split
  · refine part_bind (part_mapErr (part_removeFile h₁)) fun _ s₂ h₂ hgone => ?_
    exact hend s₂ h₂ hgone
  · refine part_bind (part_mapErr (part_createDirAll h₁ isDirPath_shardDir hold₁
      fun henv => henv.file.holding)) ?_
    rintro _ s₂ h₂ ⟨hdir, hold₂⟩
    refine part_bind (P := fun _ => store.Gone owner faults) (part_mapErr (part_disk h₂ rfl
      fun fs henv hclean _ r fs' heq => ?_)) fun _ s₃ h₃ hgone => hend s₃ h₃ hgone
    have hold₃ := henv.file.holding hold₂
    obtain ⟨fs'', hok⟩ := Fs.exists_rename (hash.toHex.drop 4) hold₃.1 (henv.isDir hdir)
      (hclean.not_dir isFilePath_objectPath)
    obtain ⟨rfl, rfl⟩ := Prod.mk.inj (hok.symm.trans heq)
    obtain ⟨hmoves, hnone⟩ := moves_rename hclean hok fun data' hdata' => by
      rw [Fs.content_of_lookup hold₃.1, hold₃.2, Option.some.injEq] at hdata'
      exact hdata' ▸ hhash
    exact ⟨hmoves, .inr hnone⟩

end Calls

end ContentStore

end Landropic.Cas
