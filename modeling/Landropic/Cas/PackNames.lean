import Landropic.Cas.PackManager

set_option autoImplicit false

/-!
# The names of packs

A packfile is created with truncation, under a name that the second of its creation determines. As
long as no two of them are created in the same second, none is overwritten.

## Main definitions

* `Cas.PackRun.LaterSecond` — a packfile is only opened in a later second than the last one.
* `Cas.PackRun.Tidy` — the files, the writer and the readers of a run.

## Main results

* `Cas.PackRun.tidy_next` — a step that opens no packfile too soon keeps a run tidy.
* `Cas.PackRun.never_overwritten` — no packfile is overwritten, and finalized ones can be read as
  before.
-/

namespace Landropic.Cas

namespace PackRun

/-- The operation opens a packfile only if the clock is past the second in which the last one was
opened. -/
def LaterSecond (x : PackRun) (e : PackOp × Int64) : Prop :=
  x.store.Opens e.1 → ∀ t ∈ x.opened, t < e.2

instance (x : PackRun) (e : PackOp × Int64) : Decidable (LaterSecond x e) :=
  decidable_of_iff (¬ x.store.Opens e.1 ∨ x.opened.all (fun t => decide (t < e.2)) = true) (by
    rw [LaterSecond, imp_iff_not_or]
    simp [Option.all_eq_true])

/-- A file that is there and is not open. -/
structure Closed (x : PackRun) (file : Text) : Prop where
  mem : file ∈ x.store.dir
  ne : ∀ w, x.store.manager.currentWriter = some w → w.packfilePath ≠ file

/-- The packfiles were opened up to the second in which the last one was, which is the open one if
there is one, and the readers read the others. -/
structure Tidy (x : PackRun) : Prop where
  files : ∀ file ∈ x.store.dir, ∃ t, file = packPath t ∧ ∃ last ∈ x.opened, t ≤ last
  opened_mem : ∀ t ∈ x.opened, packPath t ∈ x.store.dir ∧ t ≤ x.clock
  writer : ∀ w, x.store.manager.currentWriter = some w → ∃ t ∈ x.opened, w.WritesAt (packPath t)
  readers : ∀ name r, x.store.manager.packReaders.lookup name = some r → Closed x r.filePath

variable {env : PackEnv} {x x' : PackRun} {e : PackOp × Int64} {file : Text}
  {config : PackfileConfig} {now : Int64}

lemma next_eq_some (h : next env x e = some x') :
    x.clock ≤ e.2 ∧ x'.store = (x.store.apply env e.2 e.1).2 ∧ x'.clock = e.2 ∧
      x'.opened = if x.store.Opens e.1 then some e.2 else x.opened := by
  unfold next at h
  split at h
  · cases h
  · next hclock =>
    obtain rfl := Option.some.inj h
    exact ⟨Int64.not_lt.mp hclock, rfl, rfl, rfl⟩

lemma tidy_start : Tidy (start config now) where
  files file h := absurd h Finmap.notMem_empty
  opened_mem t h := by simp [start] at h
  writer w h := by simp [start] at h
  readers name r h := by simp [start] at h

lemma Tidy.writesAt_target (h : Tidy x) (now : Int64) : x.store.WritesAt (x.store.target now) := by
  intro w hw
  obtain ⟨t, -, hwrites⟩ := h.writer w hw
  have htarget : x.store.target now = w.packfilePath := by simp [PackStore.target, hw]
  rw [htarget, hwrites.1]
  exact hwrites

/-- **What a step of a tidy run does**: it opens no packfile and changes no file, it writes the open
packfile, or it opens one under a name that is not in use. -/
lemma Tidy.step (h : Tidy x) (hlater : LaterSecond x e) (hnext : next env x e = some x') :
    (x'.opened = x.opened ∧ x'.store.dir = x.store.dir ∧
        x'.store.manager.currentWriter = none ∧
        ∀ name r, x'.store.manager.packReaders.lookup name = some r → r.filePath ∈ x.store.dir) ∨
      (x'.opened = x.opened ∧ ∃ t ∈ x.opened,
        (∀ file, Closed x file → file ≠ packPath t) ∧
          PackStore.Moves (packPath t) x.store x'.store) ∨
      (x'.opened = some e.2 ∧ packPath e.2 ∉ x.store.dir ∧ packPath e.2 ∈ x'.store.dir ∧
        PackStore.Moves (packPath e.2) x.store x'.store) := by
  obtain ⟨-, hstore, -, hopened⟩ := next_eq_some hnext
  rw [hstore, hopened]
  by_cases hop : ∃ order, e.1 = .newWithConfig order
  · obtain ⟨order, horder⟩ := hop
    have hpacks : ¬ x.store.Opens e.1 := by
      rw [horder]
      exact fun hopens => hopens.2 rfl
    rw [if_neg hpacks, horder]
    exact .inl ⟨rfl, PackStore.apply_newWithConfig order⟩
  · have hop' : ∀ order, e.1 ≠ .newWithConfig order := fun order horder => hop ⟨order, horder⟩
    obtain ⟨hmoves, hcreated⟩ := PackStore.moves_apply env (h.writesAt_target e.2) hop'
    cases hw : x.store.manager.currentWriter with
    | some w =>
      obtain ⟨t, ht, hwrites⟩ := h.writer w hw
      have htarget : x.store.target e.2 = packPath t := by
        simp [PackStore.target, hw, hwrites.1]
      have hpacks : ¬ x.store.Opens e.1 := by simp [PackStore.Opens, hw]
      rw [if_neg hpacks]
      refine .inr (.inl ⟨rfl, t, ht, fun file hfile => ?_, htarget ▸ hmoves⟩)
      exact hwrites.1 ▸ (hfile.ne w hw).symm
    | none =>
      have htarget : x.store.target e.2 = packPath e.2 := by simp [PackStore.target, hw]
      by_cases hpacks : x.store.packs e.1 = []
      · obtain ⟨hdir, hnone, hreaders⟩ :=
          PackStore.apply_of_not_packs env e.2 hw hpacks hop'
        rw [if_neg (fun hopens => hopens.2 hpacks)]
        refine .inl ⟨rfl, hdir, hnone, fun name r hr => ?_⟩
        rw [hreaders] at hr
        exact (h.readers name r hr).mem
      · have hopens : x.store.Opens e.1 := ⟨by rw [hw]; rfl, hpacks⟩
        rw [if_pos hopens]
        refine .inr (.inr ⟨rfl, fun hmem => ?_, hcreated hopens, htarget ▸ hmoves⟩)
        obtain ⟨t, ht, last, hlast, hle⟩ := h.files _ hmem
        obtain rfl := packPath_injective ht
        exact Int64.not_lt.mpr hle (hlater hopens last hlast)

/-- **A step of a tidy run leaves closed files alone.** -/
lemma Tidy.closed_next (h : Tidy x) (hlater : LaterSecond x e) (hnext : next env x e = some x')
    (hfile : Closed x file) :
    Closed x' file ∧ x'.store.dir.lookup file = x.store.dir.lookup file := by
  have hmoves : ∀ path, file ≠ path → PackStore.Moves path x.store x'.store →
      Closed x' file ∧ x'.store.dir.lookup file = x.store.dir.lookup file := by
    intro path hne hmoves
    refine ⟨⟨hmoves.mem file hfile.mem, fun w hw => ?_⟩, hmoves.onlyAt file hne⟩
    rw [(hmoves.writesAt w hw).1]
    exact hne.symm
  obtain ⟨-, hdir, hnone, -⟩ | ⟨-, t, -, hne, hmoves'⟩ | ⟨-, hnew, -, hmoves'⟩ :=
    h.step hlater hnext
  · rw [hdir]
    exact ⟨⟨hdir ▸ hfile.mem, by simp [hnone]⟩, rfl⟩
  · exact hmoves _ (hne file hfile) hmoves'
  · have hne : file ≠ packPath e.2 := by
      intro heq
      exact hnew (heq ▸ hfile.mem)
    exact hmoves _ hne hmoves'

lemma Tidy.moves {path : Text} (h : Tidy x) (hmoves : PackStore.Moves path x.store x'.store)
    (hpath : path ∈ x'.store.dir) (hclosed : ∀ file, Closed x file → Closed x' file) :
    ∀ name r, x'.store.manager.packReaders.lookup name = some r → Closed x' r.filePath := by
  intro name r hr
  obtain hr | ⟨-, hfile, hnone⟩ := hmoves.readers name r hr
  · exact hclosed _ (h.readers name r hr)
  · rw [hfile]
    exact ⟨hpath, by simp [hnone]⟩

/-- **A step that opens no packfile too soon keeps a run tidy.** -/
theorem tidy_next (h : Tidy x) (hlater : LaterSecond x e) (hnext : next env x e = some x') :
    Tidy x' := by
  have hclosed : ∀ file, Closed x file → Closed x' file :=
    fun file hfile => (h.closed_next hlater hnext hfile).1
  obtain ⟨hclock, -, hclock', -⟩ := next_eq_some hnext
  have hopened_le : ∀ t ∈ x.opened, t ≤ x'.clock := by
    intro t ht
    rw [hclock']
    exact Int64.le_trans (h.opened_mem t ht).2 hclock
  obtain ⟨hopened, hdir, hnone, hreaders⟩ | ⟨hopened, t, ht, hne, hmoves⟩ |
    ⟨hopened, hnew, hcreated, hmoves⟩ := h.step hlater hnext
  · constructor
    · rw [hdir, hopened]
      exact h.files
    · intro t ht
      rw [hopened] at ht
      exact ⟨hdir ▸ (h.opened_mem t ht).1, hopened_le t ht⟩
    · simp [hnone]
    · intro name r hr
      exact ⟨hdir ▸ hreaders name r hr, by simp [hnone]⟩
  · constructor
    · intro file hfile
      rw [hopened]
      by_cases heq : file = packPath t
      · exact ⟨t, heq, t, ht, Int64.le_refl t⟩
      · apply h.files file
        rw [Finmap.mem_iff] at hfile ⊢
        rwa [hmoves.onlyAt file heq] at hfile
    · intro t' ht'
      rw [hopened] at ht'
      exact ⟨hmoves.mem _ (h.opened_mem t' ht').1, hopened_le t' ht'⟩
    · intro w hw
      exact ⟨t, hopened ▸ ht, hmoves.writesAt w hw⟩
    · exact h.moves hmoves (hmoves.mem _ (h.opened_mem t ht).1) hclosed
  · constructor
    · intro file hfile
      rw [hopened]
      by_cases heq : file = packPath e.2
      · exact ⟨e.2, heq, e.2, rfl, Int64.le_refl _⟩
      · have hold : file ∈ x.store.dir := by
          rw [Finmap.mem_iff] at hfile ⊢
          rwa [hmoves.onlyAt file heq] at hfile
        obtain ⟨t, rfl, last, hlast, hle⟩ := h.files file hold
        refine ⟨t, rfl, e.2, rfl, Int64.le_trans hle ?_⟩
        exact Int64.le_trans (h.opened_mem last hlast).2 hclock
    · intro t ht
      rw [hopened] at ht
      obtain rfl := Option.some.inj ht
      exact ⟨hcreated, hclock' ▸ Int64.le_refl _⟩
    · intro w hw
      exact ⟨e.2, hopened ▸ rfl, hmoves.writesAt w hw⟩
    · exact h.moves hmoves hcreated hclosed

lemma readChunk_congr {r : PackfileReader} {hash : ContentHash} {dir dir' : Dir}
    (h : dir'.lookup r.filePath = dir.lookup r.filePath) :
    r.readChunk env hash dir' = r.readChunk env hash dir := by
  unfold PackfileReader.readChunk
  rw [h]

/-- **No packfile is overwritten** in a run that opens every packfile in a later second than the one
before: a packfile that is opened next is not there if and only if this is in a later second, and
what the reader of a finalized packfile gives back remains the same.

**Proof sketch.** Every packfile is named by the second in which it was opened, and the last of
these is the open one if there is one. So a name for a later second is not in use, and an operation
only writes the packfile that is open or the one that it opens. -/
theorem never_overwritten (hrun : Runs.Run (next env) LaterSecond (start config now) x) :
    (∀ e : PackOp × Int64, x.clock ≤ e.2 → x.store.Opens e.1 →
      (packPath e.2 ∉ x.store.dir ↔ ∀ t ∈ x.opened, t < e.2)) ∧
    ∀ name r, x.store.manager.packReaders.lookup name = some r →
      ∀ x', Runs.Run (next env) LaterSecond x x' →
        ∀ hash, r.readChunk env hash x'.store.dir = r.readChunk env hash x.store.dir := by
  have htidy : Tidy x := Runs.Run.invariant hrun tidy_start fun _ h hlater hnext =>
    tidy_next h hlater hnext
  constructor
  · intro e hclock hopens
    constructor
    · intro hnew t ht
      obtain ⟨hmem, hle⟩ := htidy.opened_mem t ht
      apply Int64.lt_of_le_of_ne (Int64.le_trans hle hclock)
      rintro rfl
      exact hnew hmem
    · intro hlater hmem
      obtain ⟨t, ht, last, hlast, hle⟩ := htidy.files _ hmem
      obtain rfl := packPath_injective ht
      exact Int64.not_lt.mpr hle (hlater last hlast)
  · intro name r hr x' hrun' hash
    have hkept : Tidy x' ∧ Closed x' r.filePath ∧
        x'.store.dir.lookup r.filePath = x.store.dir.lookup r.filePath := by
      apply Runs.Run.invariant hrun' ⟨htidy, htidy.readers name r hr, rfl⟩
      intro x₁ e x₂ _ ⟨htidy₁, hclosed₁, hlookup₁⟩ hlater hnext
      obtain ⟨hclosed₂, hlookup₂⟩ := htidy₁.closed_next hlater hnext hclosed₁
      exact ⟨tidy_next htidy₁ hlater hnext, hclosed₂, hlookup₂.trans hlookup₁⟩
    exact readChunk_congr hkept.2.2

/-- A configuration whose packs are full with one byte. -/
private def tinyPacks : PackfileConfig := ⟨1, 100⟩

/-- Store the byte `01` at once. -/
private def storeOne : PackOp := .storePacked (ContentHash.blake3Sample [1]) [1]

/-- The run that has stored one chunk in second 5. -/
private def afterOne (env : PackEnv) : PackRun :=
  (next env (start tinyPacks 5) (storeOne, 5)).getD (start tinyPacks 5)

private lemma run_afterOne (access : Access) {C : PackRun → PackOp × Int64 → Prop}
    (hC : C (start tinyPacks 5) (storeOne, 5)) :
    Runs.Run (next ⟨ContentHash.blake3Sample, true, access⟩) C (start tinyPacks 5)
      (afterOne ⟨ContentHash.blake3Sample, true, access⟩) := by
  apply Runs.Run.step hC
  have hclock : ¬ (5 : Int64) < 5 := by decide
  unfold afterOne next
  simp only [start, hclock, if_false, Option.getD_some]

/-- In a later second the next packfile has a name that is not in use. -/
theorem never_overwritten_later :
    (afterOne ⟨ContentHash.blake3Sample, true, .readWrite⟩).store.Opens storeOne ∧
      packPath 6 ∉ (afterOne ⟨ContentHash.blake3Sample, true, .readWrite⟩).store.dir := by
  have hopens : (afterOne ⟨ContentHash.blake3Sample, true, .readWrite⟩).store.Opens storeOne := by
    decide +kernel
  have hopened : (afterOne ⟨ContentHash.blake3Sample, true, .readWrite⟩).opened = some 5 := by
    decide +kernel
  have hrun := run_afterOne .readWrite (C := LaterSecond) (fun _ t ht => by cases ht)
  refine ⟨hopens, ((never_overwritten hrun).1 (storeOne, 6) (by decide +kernel) hopens).mpr ?_⟩
  intro last hlast
  rw [hopened] at hlast
  obtain rfl := Option.some.inj hlast
  decide

/-- **Two packs in one second**: the second one is created over the first one. -/
theorem overwritten_in_same_second :
    ¬ ∀ (config : PackfileConfig) (now : Int64) (x : PackRun),
      Runs.Run (next (.std ContentHash.blake3Sample true)) (fun _ _ => True) (start config now) x →
      ∀ e : PackOp × Int64, x.clock ≤ e.2 → x.store.Opens e.1 → packPath e.2 ∉ x.store.dir := by
  intro hall
  have hrun := run_afterOne .writeOnly (C := fun _ _ => True) trivial
  exact hall tinyPacks 5 _ hrun (storeOne, 5) (by decide +kernel) (by decide +kernel)
    (by decide +kernel)

end PackRun

end Landropic.Cas
