import Landropic.Cas.Recover
import Landropic.Cas.Rules
import Landropic.Foundations.Pool

set_option autoImplicit false

/-!
# What an atomic write does

An atomic write that has its temporary file to itself, among tasks that leave the tree of objects in
order: at every moment the object is absent or has complete contents, and the write succeeds unless
an action fails.

## Main definitions

* `Cas.ContentStore.Tidy` — the tree of objects is in order: directories and files are where they
  belong, and every object has good contents, in a sense that is left open.
* `Cas.Op.holds`, `Cas.Op.touches` — the temporary file that has to be left alone before an action,
  and the one an action changes.
* `Cas.ContentStore.Undisturbed`, `Cas.ContentStore.Disturbs` — what others may do to the tree, and
  what a write does to it.
* `Cas.ContentStore.writerSpec` — the specification of a writer.

## Main results

* `Cas.ContentStore.wp_writeAtomic` — what an atomic write achieves.
* `Cas.ContentStore.Disturbs.undisturbed` — writers do not disturb one another as long as no two of
  them use a temporary file at once.
-/

namespace Landropic.Cas

open Proc

/-- The temporary file that others have to leave alone while a task is about to take an action. -/
def Op.holds : Op → Option FilePath
  | .write p => some p
  | .sync p => some p
  | .rename p _ => some p
  | .removeFile p => some p
  | _ => none

/-- The temporary file an action changes. -/
def Op.touches : Op → Option FilePath
  | .create p => some p
  | op => op.holds

/-- A path names the same file as before, with the same content, or nothing as before. -/
def SameFile (p : FilePath) (fs fs' : Fs) : Prop :=
  fs'.nodes.lookup p = fs.nodes.lookup p ∧
    ∀ i, fs.nodes.lookup p = some (.file i) → fs'.data i = fs.data i

lemma SameFile.refl (p : FilePath) (fs : Fs) : SameFile p fs fs := ⟨rfl, fun _ _ => rfl⟩

lemma SameFile.trans {p : FilePath} {fs fs' fs'' : Fs} (h : SameFile p fs fs')
    (h' : SameFile p fs' fs'') : SameFile p fs fs'' :=
  ⟨h'.1.trans h.1, fun i hi => (h'.2 i (h.1.trans hi)).trans (h.2 i hi)⟩

/-- An open file is at a path, with the given content. -/
def Holding (p : FilePath) (i : ℕ) (data : Bytes) (fs : Fs) : Prop :=
  fs.nodes.lookup p = some (.file i) ∧ fs.data i = data

lemma SameFile.holding {p : FilePath} {fs fs' : Fs} {i : ℕ} {data : Bytes} (h : SameFile p fs fs')
    (hold : Holding p i data fs) : Holding p i data fs' :=
  ⟨h.1.trans hold.1, (h.2 i hold.1).trans hold.2⟩

namespace ContentStore

variable (store : ContentStore) (good : ContentHash → Bytes → Prop)

/-- The temporary file of an object. -/
def objectTemp (hash : ContentHash) : FilePath := tempPath (store.objectPath hash)

/-- The tree of objects is in order. -/
structure Tidy (fs : Fs) : Prop where
  not_file : ∀ {hash p}, p <:+ store.shardDir hash → ∀ i, fs.nodes.lookup p ≠ some (.file i)
  object_not_dir : ∀ hash, fs.nodes.lookup (store.objectPath hash) ≠ some .dir
  temp_not_dir : ∀ hash, fs.nodes.lookup (store.objectTemp hash) ≠ some .dir
  good_content : ∀ {hash data}, fs.content (store.objectPath hash) = some data → good hash data

variable (hash : ContentHash)

/-- What others may do to the tree while a task writes an object: the tree stays in order, its
directories and the object stay, and the temporary file is left alone while the task holds it. -/
structure Undisturbed (held : Prop) (fs fs' : Fs) : Prop where
  tidy : store.Tidy good fs → store.Tidy good fs'
  isDir : ∀ {p}, fs.isDir p = true → fs'.isDir p = true
  content : ∀ {data}, fs.content (store.objectPath hash) = some data →
    fs'.content (store.objectPath hash) = some data
  held : held → SameFile (store.objectTemp hash) fs fs'

/-- What an action of a task that writes an object does to the tree. -/
structure Disturbs (op : Op) (fs fs' : Fs) : Prop where
  /-- The only temporary file that changes is that of the object. -/
  touches : ∀ {p}, op.touches = some p → p = store.objectTemp hash
  tidy : store.Tidy good fs'
  isDir : ∀ {p}, fs.isDir p = true → fs'.isDir p = true
  /-- The object stays. -/
  content : ∀ {data}, fs.content (store.objectPath hash) = some data →
    ∃ data', fs'.content (store.objectPath hash) = some data'
  content_of_ne : ∀ {other}, other ≠ hash →
    fs'.content (store.objectPath other) = fs.content (store.objectPath other)
  untouched : ∀ {other}, op.touches ≠ some (store.objectTemp other) →
    SameFile (store.objectTemp other) fs fs'

/-- The specification of a task that writes an object. -/
def writerSpec (faults : Prop) : Spec StoreState Io Op where
  env l s s' :=
    store.Undisturbed good hash (l.bind Op.holds = some (store.objectTemp hash)) s.fs s'.fs
  env_refl _ _ := ⟨id, id, id, fun _ => .refl _ _⟩
  env_trans h h' := ⟨h'.tidy ∘ h.tidy, h'.isDir ∘ h.isDir, h'.content ∘ h.content,
    fun hheld => (h.held hheld).trans (h'.held hheld)⟩
  input _ _ i := i = .fail → faults
  guar op s s' := store.Disturbs good hash op s.fs s'.fs
  progress := True

variable {store good hash} {fs fs' : Fs} {op : Op} {other : ContentHash}

lemma tidy_empty : store.Tidy good .empty where
  not_file _ _ h := by cases h
  object_not_dir _ h := by cases h
  temp_not_dir _ h := by cases h
  good_content h := by cases h

/-! ## Paths -/

lemma objectTemp_ne_objectPath : store.objectTemp other ≠ store.objectPath hash := by
  intro h
  apply store.not_isTemp_objectPath hash
  rw [← h, objectTemp, objectPath]
  refine isTemp_tempPath _ fun hnil => ?_
  have := congrArg List.length hnil
  simp at this

lemma objectTemp_injective (h : store.objectTemp other = store.objectTemp hash) : other = hash := by
  apply store.objectPath_injective
  exact tempPath_injective (by simp [objectPath]) h

lemma not_suffix_shardDir {p : FilePath} (h : p.length = store.rootPath.length + 4) :
    ¬ p <:+ store.shardDir hash := by
  intro hsuffix
  have := hsuffix.length_le
  rw [length_shardDir] at this
  omega

lemma length_objectTemp : (store.objectTemp hash).length = store.rootPath.length + 4 := by
  simp [objectTemp]

/-! ## What the operations do to the tree -/

/-- Writers do not disturb one another as long as no two of them use a temporary file at once. -/
theorem Disturbs.undisturbed (h : store.Disturbs good hash op fs fs') (htidy : store.Tidy good fs)
    (hgood : other = hash → ∀ d d', good hash d → good hash d' → d = d') {held : Prop}
    (hheld : other = hash → held → op.touches ≠ some (store.objectTemp hash)) :
    store.Undisturbed good other held fs fs' where
  tidy _ := h.tidy
  isDir := h.isDir
  content {data} hdata := by
    by_cases ho : other = hash
    · subst ho
      obtain ⟨data', hdata'⟩ := h.content hdata
      rw [hdata', hgood rfl _ _ (h.tidy.good_content hdata') (htidy.good_content hdata)]
    · rw [h.content_of_ne ho, hdata]
  held hp := by
    refine h.untouched fun htouches => ?_
    have hother : other = hash := objectTemp_injective (h.touches htouches)
    exact hheld hother hp (hother ▸ htouches)

lemma Disturbs.refl (htidy : store.Tidy good fs)
    (htouches : ∀ {p}, op.touches = some p → p = store.objectTemp hash) :
    store.Disturbs good hash op fs fs :=
  ⟨htouches, htidy, id, fun h => ⟨_, h⟩, fun _ => rfl, fun _ => .refl _ _⟩

/-- Changing only the temporary file of an object, and the object to something good. -/
lemma Disturbs.of_lookup (htidy : store.Tidy good fs)
    (htouches : op.touches = some (store.objectTemp hash))
    (hnodes : ∀ q, q ≠ store.objectTemp hash → q ≠ store.objectPath hash →
      fs'.nodes.lookup q = fs.nodes.lookup q)
    (hdata : ∀ q i, q ≠ store.objectTemp hash → q ≠ store.objectPath hash →
      fs.nodes.lookup q = some (.file i) → fs'.data i = fs.data i)
    (hobject : fs'.nodes.lookup (store.objectPath hash) ≠ some .dir)
    (htemp : fs'.nodes.lookup (store.objectTemp hash) ≠ some .dir)
    (hgood : ∀ data, fs'.content (store.objectPath hash) = some data → good hash data)
    (hcontent : ∀ data, fs.content (store.objectPath hash) = some data →
      ∃ data', fs'.content (store.objectPath hash) = some data') :
    store.Disturbs good hash op fs fs' := by
  have hother : ∀ {o}, o ≠ hash → store.objectPath o ≠ store.objectTemp hash ∧
      store.objectPath o ≠ store.objectPath hash := by
    intro o ho
    exact ⟨objectTemp_ne_objectPath.symm, fun h => ho (store.objectPath_injective h)⟩
  have hcontentne : ∀ {o}, o ≠ hash →
      fs'.content (store.objectPath o) = fs.content (store.objectPath o) := by
    intro o ho
    unfold Fs.content
    rw [hnodes _ (hother ho).1 (hother ho).2]
    split
    · next i hi => rw [hdata _ i (hother ho).1 (hother ho).2 hi]
    · rfl
  have htempne : ∀ {o}, o ≠ hash → store.objectTemp o ≠ store.objectTemp hash ∧
      store.objectTemp o ≠ store.objectPath hash :=
    fun ho => ⟨fun h => ho (objectTemp_injective h), objectTemp_ne_objectPath⟩
  refine ⟨fun hp => Option.some.inj (hp.symm.trans htouches), ⟨?_, ?_, ?_, ?_⟩, ?_,
    fun {d} => hcontent d, hcontentne, ?_⟩
  · intro o p hp i
    rw [hnodes p (fun h => not_suffix_shardDir (h ▸ length_objectTemp) hp)
      (fun h => not_suffix_shardDir (h ▸ length_objectPath _ _) hp)]
    exact htidy.not_file hp i
  · intro o
    by_cases ho : o = hash
    · exact ho ▸ hobject
    · rw [hnodes _ (hother ho).1 (hother ho).2]
      exact htidy.object_not_dir o
  · intro o
    by_cases ho : o = hash
    · exact ho ▸ htemp
    · rw [hnodes _ (htempne ho).1 (htempne ho).2]
      exact htidy.temp_not_dir o
  · intro o data hdata'
    by_cases ho : o = hash
    · subst ho
      exact hgood data hdata'
    · rw [hcontentne ho] at hdata'
      exact htidy.good_content hdata'
  · intro p hp
    rw [Fs.isDir_iff] at hp ⊢
    refine hp.imp_right fun hdir => ?_
    rw [hnodes p (fun h => htidy.temp_not_dir hash (h ▸ hdir))
      (fun h => htidy.object_not_dir hash (h ▸ hdir)), hdir]
  · intro o hne
    have ho : o ≠ hash := fun h => hne (h ▸ htouches)
    exact ⟨hnodes _ (htempne ho).1 (htempne ho).2,
      fun i hi => hdata _ i (htempne ho).1 (htempne ho).2 hi⟩

lemma disturbs_createDirAll {p : FilePath} (htidy : store.Tidy good fs)
    (h : Fs.AddsDirs (store.shardDir hash) fs fs') :
    store.Disturbs good hash (.createDirAll p) fs fs' := by
  have hlong : ∀ {p : FilePath}, p.length = store.rootPath.length + 4 →
      fs'.nodes.lookup p = fs.nodes.lookup p :=
    fun hp => (h.2.2 _).resolve_right fun hr => not_suffix_shardDir hp hr.2.2
  refine ⟨fun hp => (by cases hp), ⟨fun hp i hi => htidy.not_file hp i (h.lookup_file.mp hi),
    fun o => ?_, fun o => ?_, fun {o d} hd => ?_⟩, h.isDir,
    fun hd => ⟨_, (Fs.content_addsDirs h _).trans hd⟩,
    fun _ => Fs.content_addsDirs h _, fun {o} _ => ⟨hlong length_objectTemp, fun i _ => ?_⟩⟩
  · rw [hlong (length_objectPath _ _)]
    exact htidy.object_not_dir o
  · rw [hlong length_objectTemp]
    exact htidy.temp_not_dir o
  · rw [Fs.content_addsDirs h] at hd
    exact htidy.good_content hd
  · rw [h.1]

lemma disturbs_create (htidy : store.Tidy good fs) {i : ℕ}
    (h : Fs.create (store.objectTemp hash) fs = (.ok i, fs')) :
    store.Disturbs good hash (.create (store.objectTemp hash)) fs fs' := by
  have hcontent := Fs.content_create h (store.objectPath hash)
  rw [if_neg objectTemp_ne_objectPath.symm] at hcontent
  obtain ⟨hp, -, hnodes, hother, -, -⟩ := Fs.create_ok h
  refine .of_lookup htidy rfl (fun q hq _ => hnodes q hq) (fun q j hq _ hj => ?_) ?_ (by simp [hp])
    (fun d hd => htidy.good_content (hcontent ▸ hd)) (fun d hd => ⟨d, hcontent.trans hd⟩)
  · refine hother j ?_
    rintro rfl
    rw [← hnodes q hq] at hj
    exact hq (fs'.file_inj hj hp)
  · rw [hnodes _ objectTemp_ne_objectPath.symm]
    exact htidy.object_not_dir hash

lemma disturbs_setData (htidy : store.Tidy good fs)
    (htouches : op.touches = some (store.objectTemp hash)) {i : ℕ}
    (h : fs.nodes.lookup (store.objectTemp hash) = some (.file i)) (data : Bytes) :
    store.Disturbs good hash op fs (fs.setData i data) := by
  have hcontent := Fs.content_setData h data (store.objectPath hash)
  rw [if_neg objectTemp_ne_objectPath.symm] at hcontent
  refine .of_lookup htidy htouches (fun _ _ _ => rfl) (fun q j hq _ hj => ?_)
    (htidy.object_not_dir hash) (by simp [h]) (fun d hd => htidy.good_content (hcontent ▸ hd))
    (fun d hd => ⟨d, hcontent.trans hd⟩)
  have hne : j ≠ i := by
    rintro rfl
    exact hq (fs.file_inj hj h)
  simp [Fs.setData, hne]

/-- Moving a complete temporary file over the object. -/
lemma disturbs_rename (htidy : store.Tidy good fs) {data : Bytes} (hgood : good hash data)
    (hdata : fs.content (store.objectTemp hash) = some data)
    (h : Fs.rename (store.objectTemp hash) (store.objectPath hash) fs = (.ok (), fs')) :
    store.Disturbs good hash (.rename (store.objectTemp hash) (store.objectPath hash)) fs fs' ∧
      fs'.content (store.objectPath hash) = some data := by
  have hcontent := Fs.content_rename h objectTemp_ne_objectPath (store.objectPath hash)
  rw [if_pos rfl, hdata] at hcontent
  obtain ⟨i, hp, hq, hgone, hnodes, hdataeq, -, -⟩ := Fs.rename_ok h
  refine ⟨.of_lookup htidy rfl hnodes (fun _ _ _ _ _ => by rw [hdataeq]) (by simp [hq])
    (by simp [hgone objectTemp_ne_objectPath]) (fun d hd => ?_) (fun d _ => ⟨_, hcontent⟩),
    hcontent⟩
  rw [hcontent, Option.some.injEq] at hd
  exact hd ▸ hgood

lemma disturbs_removeFile (htidy : store.Tidy good fs)
    (h : Fs.removeFile (store.objectTemp hash) fs = (.ok (), fs')) :
    store.Disturbs good hash (.removeFile (store.objectTemp hash)) fs fs' := by
  have hcontent := Fs.content_removeFile h (store.objectPath hash)
  rw [if_neg objectTemp_ne_objectPath.symm] at hcontent
  obtain ⟨-, hgone, hnodes, hdataeq, -⟩ := Fs.removeFile_ok h
  refine .of_lookup htidy rfl (fun q hq _ => hnodes q hq) (fun _ _ _ _ _ => by rw [hdataeq]) ?_
    (by simp [hgone]) (fun d hd => htidy.good_content (hcontent ▸ hd))
    (fun d hd => ⟨d, hcontent.trans hd⟩)
  rw [hnodes _ objectTemp_ne_objectPath.symm]
  exact htidy.object_not_dir hash

/-! ## What the steps of an atomic write achieve -/

section WP

variable {faults : Prop} {s : StoreState} {α β : Type}

variable (store good hash faults) in
/-- A part of a write has ended: the tree is in order, the directory of the object is there, and the
part has achieved `P` unless an action has failed. -/
def Ends (P : α → Fs → Prop) (r : Except CasError α) (s : StoreState) : Prop :=
  store.Tidy good s.fs ∧ s.fs.isDir (store.shardDir hash) = true ∧
    match r with
    | .ok a => P a s.fs
    | .error _ => faults

/-- The parts of a write follow one another. -/
lemma wp_bind_ends {t : Task CasError α} {k : α → Task CasError β} {P : α → Fs → Prop}
    {P' : β → Fs → Prop}
    (h : wp (store.writerSpec good hash faults) (store.Ends good hash faults P) t s)
    (hk : ∀ a s', store.Tidy good s'.fs → s'.fs.isDir (store.shardDir hash) = true → P a s'.fs →
      wp (store.writerSpec good hash faults) (store.Ends good hash faults P') (k a) s') :
    wp (store.writerSpec good hash faults) (store.Ends good hash faults P') (t >>= k) s := by
  refine wp_bind (wp_mono h fun r s' hr => ?_)
  obtain ⟨htidy, hdir, hr⟩ := hr
  cases r with
  | ok a => exact hk a s' htidy hdir hr
  | error e => exact ⟨htidy, hdir, hr⟩

variable {toCas : IoError → CasError} {data : Bytes}

/-- An operation of the disk that is a part of a write. -/
lemma wp_part {op : Op} {f : Fs → Except IoError α × Fs} {P : α → Fs → Prop}
    (htouches : ∀ {p}, op.touches = some p → p = store.objectTemp hash)
    (htidy : store.Tidy good s.fs) (hdir : s.fs.isDir (store.shardDir hash) = true)
    (h : ∀ fs, store.Undisturbed good hash (op.holds = some (store.objectTemp hash)) s.fs fs →
      store.Tidy good fs →
      fs.isDir (store.shardDir hash) = true →
      ∃ a fs', f fs = (.ok a, fs') ∧ store.Disturbs good hash op fs fs' ∧ P a fs') :
    wp (store.writerSpec good hash faults) (store.Ends good hash faults P)
      ((disk op f).mapErr toCas) s := by
  refine wp_mapErr (wp_disk ?_ ?_)
  · intro s' henv hfail
    have htidy' := henv.tidy htidy
    exact ⟨.refl htidy' htouches, htidy', henv.isDir hdir, hfail rfl⟩
  · intro s' n henv _ r fs' heq
    obtain ⟨a, fs'', hok, hdist, hP⟩ := h s'.fs henv (henv.tidy htidy) (henv.isDir hdir)
    obtain ⟨rfl, rfl⟩ := Prod.mk.inj (hok.symm.trans heq)
    exact ⟨hdist, hdist.tidy, hdist.isDir (henv.isDir hdir), hP⟩

/-- A look at the disk that is a part of a write. -/
lemma wp_part_look {op : Op} {P : Fs → Prop}
    (htouches : ∀ {p}, op.touches = some p → p = store.objectTemp hash)
    (htidy : store.Tidy good s.fs) (hdir : s.fs.isDir (store.shardDir hash) = true) (hP : P s.fs)
    (hstable : ∀ fs, store.Undisturbed good hash (op.holds = some (store.objectTemp hash)) s.fs fs →
      P s.fs → P fs) :
    wp (store.writerSpec good hash faults) (store.Ends good hash faults fun _ => P)
      ((look op fun _ => .ok ()).mapErr toCas) s :=
  wp_part htouches htidy hdir fun fs henv htidy' _ =>
    ⟨(), fs, rfl, .refl htidy' htouches, hstable fs henv hP⟩

lemma wp_createTemp (htidy : store.Tidy good s.fs)
    (hdir : s.fs.isDir (store.shardDir hash) = true) :
    wp (store.writerSpec good hash faults)
      (store.Ends good hash faults fun i => Holding (store.objectTemp hash) i [])
      (createTemp (store.objectTemp hash)) s := by
  refine wp_part (by rintro _ ⟨⟩; rfl) htidy hdir fun fs _ htidy' hdir' => ?_
  obtain ⟨i, fs', hok⟩ := Fs.exists_create hdir' (htidy'.temp_not_dir hash)
  obtain ⟨hp, hdata, -⟩ := Fs.create_ok hok
  exact ⟨i, fs', hok, disturbs_create htidy' hok, hp, hdata⟩

lemma Undisturbed.holding {i : ℕ} {held : Prop} (h : store.Undisturbed good hash held fs fs')
    (hheld : held) (hold : Holding (store.objectTemp hash) i data fs) :
    Holding (store.objectTemp hash) i data fs' := (h.held hheld).holding hold

lemma wp_writeAll {i : ℕ} (rest : Bytes) {done : Bytes} (htidy : store.Tidy good s.fs)
    (hdir : s.fs.isDir (store.shardDir hash) = true)
    (hold : Holding (store.objectTemp hash) i done s.fs) :
    wp (store.writerSpec good hash faults)
      (store.Ends good hash faults fun _ => Holding (store.objectTemp hash) i (done ++ rest))
      ((writeAll (store.objectTemp hash) i (some done.length) rest).mapErr toCas) s := by
  induction rest generalizing done s with
  | nil => exact ⟨htidy, hdir, by simpa using hold⟩
  | cons b rest ih =>
    rw [writeAll, mapErr_bind]
    refine wp_bind_ends (P := fun _ => Holding (store.objectTemp hash) i (done ++ [b])) ?_ ?_
    · refine wp_part (by rintro _ ⟨⟩; rfl) htidy hdir fun fs henv htidy' _ => ?_
      have hold' := henv.holding rfl hold
      refine ⟨(), _, rfl, disturbs_setData htidy' rfl hold'.1 _, hold'.1, ?_⟩
      show (fs.write i done.length [b]).data i = done ++ [b]
      rw [Fs.data_write, hold'.2, Fs.splice_length]
    · intro _ s' htidy' hdir' hold'
      have := ih htidy' hdir' hold'
      simpa using this

lemma wp_writeTemp {i : ℕ} (data : Bytes) (htidy : store.Tidy good s.fs)
    (hdir : s.fs.isDir (store.shardDir hash) = true)
    (hold : Holding (store.objectTemp hash) i [] s.fs) :
    wp (store.writerSpec good hash faults)
      (store.Ends good hash faults fun _ => Holding (store.objectTemp hash) i data)
      (writeTemp (store.objectTemp hash) i data) s :=
  wp_writeAll data htidy hdir hold

lemma wp_fsyncTemp {i : ℕ} (htidy : store.Tidy good s.fs)
    (hdir : s.fs.isDir (store.shardDir hash) = true)
    (hold : Holding (store.objectTemp hash) i data s.fs) :
    wp (store.writerSpec good hash faults)
      (store.Ends good hash faults fun _ => Holding (store.objectTemp hash) i data)
      (store.fsyncTemp (store.objectTemp hash)) s := by
  unfold fsyncTemp
  split
  · exact wp_part_look (by rintro _ ⟨⟩; rfl) htidy hdir hold fun fs henv => henv.holding rfl
  · exact ⟨htidy, hdir, hold⟩

lemma wp_renameTemp {i : ℕ} (htidy : store.Tidy good s.fs)
    (hdir : s.fs.isDir (store.shardDir hash) = true) (hgood : good hash data)
    (hold : Holding (store.objectTemp hash) i data s.fs) :
    wp (store.writerSpec good hash faults)
      (store.Ends good hash faults fun _ fs => fs.content (store.objectPath hash) = some data)
      (renameTemp (store.objectTemp hash) (store.objectPath hash)) s := by
  refine wp_bind (wp_attempt (wp_disk ?_ ?_))
  · -- the device fails, and the temporary file is cleaned up, if it does not fail again
    intro s' henv hfail
    have htidy' := henv.tidy htidy
    refine ⟨.refl htidy' (by rintro _ ⟨⟩; rfl), wp_bind (wp_attempt (wp_disk ?_ ?_))⟩
    · intro s'' henv' _
      have htidy'' := henv'.tidy htidy'
      exact ⟨.refl htidy'' (by rintro _ ⟨⟩; rfl), htidy'', henv'.isDir (henv.isDir hdir), hfail rfl⟩
    · intro s'' n henv' _ r fs' heq
      have htidy'' := henv'.tidy htidy'
      have hold' := henv'.holding rfl (henv.holding rfl hold)
      obtain ⟨fs'', hok⟩ := Fs.exists_removeFile hold'.1
      obtain ⟨rfl, rfl⟩ := Prod.mk.inj (hok.symm.trans heq)
      have hdist := disturbs_removeFile htidy'' hok
      exact ⟨hdist, hdist.tidy, hdist.isDir (henv'.isDir (henv.isDir hdir)), hfail rfl⟩
  · intro s' n henv _ r fs' heq
    have htidy' := henv.tidy htidy
    have hold' := henv.holding rfl hold
    obtain ⟨fs'', hok⟩ := Fs.exists_rename (hash.toHex.drop 4) hold'.1 (henv.isDir hdir)
      (htidy'.object_not_dir hash)
    obtain ⟨rfl, rfl⟩ := Prod.mk.inj (hok.symm.trans heq)
    have hcontent := Fs.content_of_lookup hold'.1
    rw [hold'.2] at hcontent
    obtain ⟨hdist, hdone⟩ := disturbs_rename htidy' hgood hcontent hok
    exact ⟨hdist, hdist.tidy, hdist.isDir (henv.isDir hdir), hdone⟩

lemma wp_fsyncParent {dir : FilePath} (htidy : store.Tidy good s.fs)
    (hdir : s.fs.isDir (store.shardDir hash) = true)
    (hdone : s.fs.content (store.objectPath hash) = some data) :
    wp (store.writerSpec good hash faults)
      (store.Ends good hash faults fun _ fs => fs.content (store.objectPath hash) = some data)
      (store.fsyncParent dir) s := by
  unfold fsyncParent fsyncDirectory
  split
  · rw [mapErr_mapErr]
    exact wp_part_look (by rintro _ ⟨⟩) htidy hdir hdone fun fs henv => henv.content
  · exact ⟨htidy, hdir, hdone⟩

/-- An action in memory that is a part of a write. -/
lemma wp_part_modify {op : Op} {f : StoreState → α × StoreState} {P : Fs → Prop}
    (htouches : ∀ {p}, op.touches = some p → p = store.objectTemp hash)
    (htidy : store.Tidy good s.fs) (hdir : s.fs.isDir (store.shardDir hash) = true) (hP : P s.fs)
    (hstable : ∀ fs, store.Undisturbed good hash (op.holds = some (store.objectTemp hash)) s.fs fs →
      P s.fs → P fs)
    (hfs : ∀ s, (f s).2.fs = s.fs) :
    wp (store.writerSpec good hash faults) (store.Ends good hash faults fun _ => P)
      (modify op f) s := by
  refine wp_modify fun s' henv => ?_
  have htidy' := henv.tidy htidy
  show store.Disturbs good hash op s'.fs (f s').2.fs ∧ _
  rw [hfs]
  refine ⟨.refl htidy' htouches, ?_⟩
  unfold Ends
  rw [hfs]
  exact ⟨htidy', henv.isDir hdir, hstable s'.fs henv hP⟩

lemma wp_countPendingSync (htidy : store.Tidy good s.fs)
    (hdir : s.fs.isDir (store.shardDir hash) = true)
    (hdone : s.fs.content (store.objectPath hash) = some data) :
    wp (store.writerSpec good hash faults)
      (store.Ends good hash faults fun _ fs => fs.content (store.objectPath hash) = some data)
      store.countPendingSync s := by
  unfold countPendingSync
  split
  · refine wp_bind_ends (P := fun _ fs => fs.content (store.objectPath hash) = some data)
      (wp_part_modify (by rintro _ ⟨⟩) htidy hdir hdone (fun fs henv => henv.content) fun _ => rfl)
      fun _ s' htidy' hdir' hdone' => ?_
    split
    · exact wp_part_modify (by rintro _ ⟨⟩) htidy' hdir' hdone' (fun fs henv => henv.content)
        fun _ => rfl
    · exact ⟨htidy', hdir', hdone'⟩
  · exact ⟨htidy, hdir, hdone⟩

/-- **An atomic write** of good contents, in the directory of the object, makes the object complete
and fails only if an action does. -/
theorem wp_writeAtomic (htidy : store.Tidy good s.fs)
    (hdir : s.fs.isDir (store.shardDir hash) = true) (hgood : good hash data) :
    wp (store.writerSpec good hash faults)
      (store.Ends good hash faults fun _ fs => fs.content (store.objectPath hash) = some data)
      (store.writeAtomic (store.objectPath hash) data) s := by
  refine wp_bind_ends (wp_createTemp htidy hdir) fun i s₁ htidy hdir hold => ?_
  refine wp_bind_ends (wp_writeTemp data htidy hdir hold) fun _ s₂ htidy hdir hold => ?_
  refine wp_bind_ends (wp_fsyncTemp htidy hdir hold) fun _ s₃ htidy hdir hold => ?_
  refine wp_bind_ends (wp_renameTemp htidy hdir hgood hold) fun _ s₄ htidy hdir hdone => ?_
  refine wp_bind_ends (wp_fsyncParent htidy hdir hdone) fun _ s₅ htidy hdir hdone => ?_
  exact wp_countPendingSync htidy hdir hdone

lemma wp_createShardDir (htidy : store.Tidy good s.fs) :
    wp (store.writerSpec good hash faults) (fun r s => store.Tidy good s.fs ∧ match r with
      | .ok () => s.fs.isDir (store.shardDir hash) = true
      | .error _ => faults) (store.createShardDir hash) s := by
  refine wp_mapErr (wp_disk ?_ ?_)
  · intro s' henv hfail
    have htidy' := henv.tidy htidy
    exact ⟨.refl htidy' (by rintro _ ⟨⟩), htidy', hfail rfl⟩
  · intro s' n henv _ r fs' heq
    have htidy' := henv.tidy htidy
    obtain ⟨hok, hdir⟩ := Fs.createDirAll_ok fun p (hp : p <:+ store.shardDir hash) =>
      htidy'.not_file hp
    have hadds := Fs.addsDirs_createDirAll (store.shardDir hash) s'.fs
    rw [heq] at hok hdir hadds
    obtain rfl := hok
    have hdist := disturbs_createDirAll (p := store.shardDir hash) htidy' hadds
    exact ⟨hdist, hdist.tidy, hdir⟩

/-- **Writing an individual file** makes the object complete and fails only if an action does. -/
theorem wp_writeIndividual (htidy : store.Tidy good s.fs) (hgood : good hash data) :
    wp (store.writerSpec good hash faults) (fun r s => store.Tidy good s.fs ∧ match r with
      | .ok ref => ref = ⟨hash, data.length⟩ ∧ s.fs.content (store.objectPath hash) = some data
      | .error _ => faults) (store.writeIndividual data hash) s := by
  refine wp_bind (wp_mono (wp_createShardDir htidy) ?_)
  rintro (e | ⟨⟩) s₁ ⟨htidy₁, hdir⟩
  · exact ⟨htidy₁, hdir⟩
  refine wp_bind (wp_mono (wp_writeAtomic htidy₁ hdir hgood) ?_)
  rintro (e | ⟨⟩) s₂ ⟨htidy₂, -, hdone⟩
  · exact ⟨htidy₂, hdone⟩
  · exact ⟨htidy₂, rfl, hdone⟩

end WP

/-! ## The order of the actions of a write -/

section Order

variable (store) {ε α : Type}

/-- Before a task holds a temporary file its last action has created it, or held it already. -/
def LastTouched (last : Option FilePath) (op : Op) (last' : Option FilePath) : Prop :=
  (∀ p, op.holds = some p → last = some p) ∧ last' = op.touches

/-- The actions of a task come in the order of those of a write. -/
def Orderly (t : Task ε α) : Prop := ∀ last, Follows LastTouched (fun _ _ => True) last t

lemma follows_disk {op : Op} {f : Fs → Except IoError α × Fs}
    {Q : Except IoError α → Option FilePath → Prop} {last : Option FilePath}
    (hheld : ∀ p, op.holds = some p → last = some p) (h : ∀ r, Q r op.touches) :
    Follows LastTouched Q last (disk op f) := .atom ⟨hheld, rfl⟩ h

lemma follows_modify {op : Op} {f : StoreState → α × StoreState}
    {Q : Except ε α → Option FilePath → Prop} {last : Option FilePath} (hheld : op.holds = none)
    (h : ∀ r, Q r op.touches) : Follows LastTouched Q last (modify op f) :=
  .atom ⟨fun p hp => by simp [hheld] at hp, rfl⟩ h

lemma follows_writeAll {toCas : IoError → CasError} (p : FilePath) (i : ℕ) (pos : Option ℕ)
    (data : Bytes) : Follows LastTouched (fun r last => ∀ a, r = .ok a → last = some p) (some p)
      ((writeAll p i pos data).mapErr toCas) := by
  induction data generalizing pos with
  | nil => exact fun _ _ => rfl
  | cons b rest ih =>
    rw [writeAll, mapErr_bind]
    refine .bind (.mapErr (follows_disk (fun q hq => hq) fun r => ?_))
    cases r with
    | ok a => exact ih _
    | error e => exact fun _ ha => by cases ha

lemma follows_fsyncTemp (p : FilePath) :
    Follows LastTouched (fun r last => ∀ a, r = .ok a → last = some p) (some p)
      (store.fsyncTemp p) := by
  unfold fsyncTemp
  split
  · exact .mapErr (follows_disk (fun q hq => hq) fun _ _ _ => rfl)
  · exact fun _ _ => rfl

lemma follows_renameTemp (p q : FilePath) :
    Follows LastTouched (fun _ _ => True) (some p) (renameTemp p q) := by
  refine .bind (.attempt (follows_disk (fun r hr => hr) fun r => ?_))
  cases r with
  | ok a => exact trivial
  | error e => exact .bind (.attempt (follows_disk (fun r hr => hr) fun _ => trivial))

lemma orderly_fsyncParent (dir : FilePath) : Orderly (store.fsyncParent dir) := by
  intro last
  unfold fsyncParent fsyncDirectory
  split
  · exact .mapErr (.mapErr (follows_disk (by rintro p ⟨⟩) fun _ => trivial))
  · exact trivial

lemma orderly_countPendingSync : Orderly store.countPendingSync := by
  intro last
  unfold countPendingSync
  split
  · refine .bind (follows_modify rfl fun r => ?_)
    cases r with
    | error e => exact trivial
    | ok a =>
      dsimp only
      split
      · exact follows_modify rfl fun _ => trivial
      · exact trivial
  · exact trivial

/-- Parts of a write that follow one another. -/
lemma Follows.bind_ok {β : Type} {t : Task ε α} {k : α → Task ε β} {last : Option FilePath}
    {P : α → Option FilePath → Prop}
    (h : Follows LastTouched (fun r last => ∀ a, r = .ok a → P a last) last t)
    (hk : ∀ a last, P a last → Follows LastTouched (fun _ _ => True) last (k a)) :
    Follows LastTouched (fun _ _ => True) last (t >>= k) := by
  refine .bind (h.mono fun r last hr => ?_)
  cases r with
  | ok a => exact hk a last (hr a rfl)
  | error e => exact trivial

lemma orderly_atom {op : Op} {f : Io → StoreState → Except ε α × StoreState}
    (hholds : op.holds = none) : Orderly (Proc.atom op f) :=
  fun _ => .atom ⟨fun p hp => by simp [hholds] at hp, rfl⟩ fun _ => trivial

lemma Orderly.bind {β : Type} {t : Task ε α} {k : α → Task ε β} (h : Orderly t)
    (hk : ∀ a, Orderly (k a)) : Orderly (t >>= k) := by
  intro last
  refine .bind ((h last).mono fun r last _ => ?_)
  cases r with
  | ok a => exact hk a last
  | error e => exact trivial

/-- **The actions of an atomic write** come in their order. -/
theorem orderly_writeAtomic (p : FilePath) (data : Bytes) : Orderly (store.writeAtomic p data) := by
  intro last
  cases p with
  | nil => exact trivial
  | cons name dir =>
    unfold writeAtomic
    refine Follows.bind_ok (P := fun _ last => last = some (tempPath (name :: dir)))
      (.mapErr (follows_disk (by rintro p ⟨⟩) fun _ _ _ => rfl)) fun i last hlast => ?_
    subst hlast
    refine Follows.bind_ok (follows_writeAll _ _ _ _) fun _ last hlast => ?_
    subst hlast
    refine Follows.bind_ok (store.follows_fsyncTemp _) fun _ last hlast => ?_
    subst hlast
    refine Follows.bind_ok (P := fun _ _ => True) ((follows_renameTemp _ _).mono
      fun _ _ _ _ _ => trivial) fun _ last _ => ?_
    exact (store.orderly_fsyncParent dir).bind (fun _ => store.orderly_countPendingSync) last

lemma orderly_writeIndividual (data : Bytes) (hash : ContentHash) :
    Orderly (store.writeIndividual data hash) := by
  refine Orderly.bind (fun last => .mapErr (follows_disk (by rintro p ⟨⟩) fun _ => trivial))
    fun _ => ?_
  exact (store.orderly_writeAtomic _ _).bind fun _ _ => trivial

/-- A task that comes to hold a temporary file has touched it in its last step. -/
lemma touched_of_held {τ : Type} [DecidableEq τ] {P P' : Pool τ StoreState Io Op ε α} {t : τ}
    {i : Io} {p : FilePath} (h : ∃ last, Follows LastTouched (fun _ _ => True) last (P.task t))
    (hstep : P.Step t i P') (hheld : (P'.task t).head.bind Op.holds = some p) :
    ∃ op, (P.task t).head = some op ∧ op.touches = some p := by
  obtain ⟨last, hlast⟩ := h
  obtain ⟨op, last', hop, ⟨-, rfl⟩, hnext⟩ := hlast.step hstep.proc
  obtain ⟨op', hop', hp⟩ := Option.bind_eq_some_iff.mp hheld
  obtain ⟨_, hholds, -⟩ := hnext.of_head hop'
  exact ⟨op, hop, hholds p hp⟩

lemma orderly_of_step {τ : Type} [DecidableEq τ] {P P' : Pool τ StoreState Io Op ε α} {t : τ}
    {i : Io} (h : ∃ last, Follows LastTouched (fun _ _ => True) last (P.task t))
    (hstep : P.Step t i P') : ∃ last, Follows LastTouched (fun _ _ => True) last (P'.task t) := by
  obtain ⟨last, hlast⟩ := h
  obtain ⟨_, last', -, -, hnext⟩ := hlast.step hstep.proc
  exact ⟨last', hnext⟩

lemma eq_create_or_holds {op : Op} {p : FilePath} (h : op.touches = some p) :
    op = .create p ∨ op.holds = some p := by
  cases op <;> simp_all [Op.touches, Op.holds]

end Order

end ContentStore

end Landropic.Cas
