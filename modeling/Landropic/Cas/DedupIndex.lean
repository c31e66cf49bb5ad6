import Landropic.Cas.Frames

set_option autoImplicit false

/-!
# The dedup index and the disk

The dedup index is a shadow of what is stored: writes enter an object into it when they have seen
the object or have put it in its place, and a write of an object that the index has returns at once.
Deleting an object does not take it out of the index.

## Main definitions

* `Cas.ContentStore.Present` — an object has a file or is packed.
* `Cas.ContentStore.IndexSound` — what the index has is present.
* `Cas.ContentStore.DeletesSafely` — the steps after which it still is.

## Main results

* `Cas.ContentStore.wp_present_write`, `Cas.ContentStore.wp_present_moveIntoPlace`,
  `Cas.ContentStore.wp_present_serveJob` — writes enter only what is present.
* `Cas.ContentStore.index_sound` — what the index has is present, and what was written exists.
-/

namespace Landropic.Cas

open Proc

/-- The actions of a batched write between its rename and its entry into the dedup index. -/
def Op.Settled : Op → Prop
  | .syncDir _ => True
  | .pendingSyncs => True
  | .cache => True
  | .cachePut _ _ => True
  | .dedupIndex => True
  | _ => False

instance (op : Op) : Decidable op.Settled := by
  cases op <;> unfold Op.Settled <;> infer_instance

namespace ContentStore

variable (store : ContentStore)

/-- What the packfiles have under a hash, if they are enabled. -/
def packed (hash : ContentHash) : Option Bytes :=
  if store.config.enablePackfiles then store.packs.readPacked hash else none

/-- An object has a file or is packed. -/
def Present (s : StoreState) (hash : ContentHash) : Prop :=
  s.fs.pathExists (store.objectPath hash) = true ∨ (store.packed hash).isSome = true

/-- What the dedup index has is present, and is indexed by its hash. -/
def IndexSound (s : StoreState) : Prop :=
  ∀ hash ref, s.dedupIndex.lookup hash = some ref → ref.hash = hash ∧ store.Present s hash

/-- The index stays as it is, and no object disappears. -/
structure Aside (s s' : StoreState) : Prop where
  index : s'.dedupIndex = s.dedupIndex
  present : ∀ hash, store.Present s hash → store.Present s' hash

/-- The specification of a task that needs what is present to stay so where it relies on it, and
that enters only what is present into the index. -/
def indexSpec (relies : Option Op → ContentHash → Prop) : Spec StoreState Io Op where
  env l s s' := (store.IndexSound s → store.IndexSound s') ∧
    ∀ hash, relies l hash → store.Present s hash → store.Present s' hash
  env_refl _ _ := ⟨id, fun _ _ => id⟩
  env_trans h h' := ⟨h'.1 ∘ h.1, fun hash hl => h'.2 hash hl ∘ h.2 hash hl⟩
  input _ _ _ := True
  guar _ s s' := (∀ hash, store.Present s hash → store.Present s' hash) ∧
    ∀ hash ref, s'.dedupIndex.lookup hash = some ref →
      s.dedupIndex.lookup hash = some ref ∨ ref.hash = hash ∧ store.Present s' hash
  progress := False

/-- A batched write relies on its object between its rename and its entry. -/
def jobRelies (hash : ContentHash) (l : Option Op) (hash' : ContentHash) : Prop :=
  hash' = hash ∧ ∃ op, l = some op ∧ op.Settled

variable {store} {ε α : Type} {hash : ContentHash} {data : Bytes} {s s' : StoreState}
  {relies : Option Op → ContentHash → Prop} {p : FilePath}

/-! ## Single actions -/

lemma Calm.present (h : store.Calm s s') (hp : store.Present s hash) : store.Present s' hash :=
  hp.imp_left (h.object hash)

lemma Calm.aside (h : store.Calm s s') : store.Aside s s' := by
  refine ⟨?_, fun hash => h.present⟩
  obtain ⟨fs, pending, rfl⟩ := h.memory
  rfl

lemma OnCache.aside (h : OnCache s s') : store.Aside s s' := by
  obtain ⟨cache, stuck, rfl⟩ := h
  exact ⟨rfl, fun _ h => h⟩

lemma OnBatch.aside (h : OnBatch s s') : store.Aside s s' := by
  obtain ⟨batch, spawned, permits, rfl⟩ := h
  exact ⟨rfl, fun _ h => h⟩

lemma Aside.indexSound (h : store.Aside s s') (hs : store.IndexSound s) : store.IndexSound s' := by
  intro hash ref hlookup
  rw [h.index] at hlookup
  obtain ⟨hhash, hpresent⟩ := hs hash ref hlookup
  exact ⟨hhash, h.present hash hpresent⟩

lemma indexSound_of_guar {op : Op} (h : (store.indexSpec relies).guar op s s')
    (hs : store.IndexSound s) : store.IndexSound s' := by
  intro hash ref hlookup
  rcases h.2 hash ref hlookup with hold | hnew
  · obtain ⟨hhash, hpresent⟩ := hs hash ref hold
    exact ⟨hhash, h.1 hash hpresent⟩
  · exact hnew

variable {Q : Except ε α → Prop} {t : Task ε α}

/-- Actions aside from the index, where the objects in `K` stay present throughout. -/
lemma wp_aside {K : ContentHash → Prop} {G : Op → StoreState → StoreState → Prop}
    (h : Guarantees G Q t)
    (hG : ∀ op s s', G op s s' → store.Aside s s' ∧ ∀ hash, K hash → relies (some op) hash)
    (hs : store.IndexSound s) (hK : ∀ hash, K hash → store.Present s hash) :
    wp (store.indexSpec relies) (fun r s => Q r ∧ store.IndexSound s ∧
      ∀ hash, K hash → store.Present s hash) t s := by
  refine Guarantees.wp h ⟨hs, hK⟩ id ?_
  rintro op s s' s'' ⟨hs, hK⟩ ⟨henvIndex, henv⟩ hop
  obtain ⟨haside, hrelies⟩ := hG op s' s'' hop
  have hs' := henvIndex hs
  refine ⟨⟨haside.present, fun hash ref hlookup => .inl (haside.index ▸ hlookup)⟩,
    haside.indexSound hs', fun hash hmem => ?_⟩
  exact haside.present hash (henv hash (hrelies hash hmem) (hK hash hmem))

lemma wp_calmly (h : store.Calmly Q t) (hs : store.IndexSound s) :
    wp (store.indexSpec relies) (fun r s => Q r ∧ store.IndexSound s) t s :=
  wp_mono (wp_aside (K := fun _ => False) h (fun _ _ _ hcalm => ⟨hcalm.aside, fun _ => False.elim⟩)
    hs fun _ => False.elim) fun _ _ hr => ⟨hr.1, hr.2.1⟩

lemma wp_dedupInsert {ref : ObjectRef} (hs : store.IndexSound s)
    (hpresent : store.Present s ref.hash) (hrelies : relies (some .dedupIndex) ref.hash) :
    wp (store.indexSpec relies) (fun _ s => store.IndexSound s ∧ store.Present s ref.hash)
      (dedupInsert ref : Task ε Unit) s := by
  refine wp_modify fun s' henv => ?_
  have hpresent' := henv.2 ref.hash hrelies hpresent
  have hguar : (store.indexSpec relies).guar .dedupIndex s'
      { s' with dedupIndex := s'.dedupIndex.insert ref.hash ref } := by
    refine ⟨fun _ h => h, fun hash other hlookup => ?_⟩
    obtain ⟨rfl, rfl⟩ | ⟨-, hlookup⟩ := HashMap.lookup_insert_cases hlookup
    · exact .inr ⟨rfl, hpresent'⟩
    · exact .inl hlookup
  exact ⟨hguar, indexSound_of_guar hguar (henv.1 hs), hpresent'⟩

variable (store hash) in
/-- A part of a write has ended: the index is sound, and the object is present after a success. -/
def Placed (r : Except ε α) (s : StoreState) : Prop :=
  store.IndexSound s ∧ ∀ a, r = .ok a → store.Present s hash

lemma placed_error {e : ε} (hs : store.IndexSound s) :
    store.Placed hash (.error e : Except ε α) s := ⟨hs, by rintro a ⟨⟩⟩

lemma placed_ok {a : α} (hs : store.IndexSound s) (hpresent : store.Present s hash) :
    store.Placed hash (.ok a : Except ε α) s := ⟨hs, fun _ _ => hpresent⟩

/-- A part of a write that concerns the disk, and what comes after it. -/
lemma wp_calmly_bind {β : Type} {Q' : Except ε β → StoreState → Prop} {k : α → Task ε β}
    (h : store.Calmly Q t) (hs : store.IndexSound s)
    (herr : ∀ e s, store.IndexSound s → Q' (.error e) s)
    (hk : ∀ a s, Q (.ok a) → store.IndexSound s → wp (store.indexSpec relies) Q' (k a) s) :
    wp (store.indexSpec relies) Q' (t >>= k) s := by
  refine wp_bind (wp_mono (wp_calmly h hs) fun r s hr => ?_)
  cases r with
  | ok a => exact hk a s hr.1 hr.2
  | error e => exact herr e s hr.2

/-- A part of a write that puts the object in its place, and what comes after it. -/
lemma wp_placed_bind {β : Type} {Q : Except ε β → StoreState → Prop} {k : α → Task ε β}
    (h : wp (store.indexSpec relies) (store.Placed hash) t s)
    (herr : ∀ e s, store.IndexSound s → Q (.error e) s)
    (hk : ∀ a s, store.IndexSound s → store.Present s hash →
      wp (store.indexSpec relies) Q (k a) s) : wp (store.indexSpec relies) Q (t >>= k) s := by
  refine wp_bind (wp_mono h fun r s hr => ?_)
  cases r with
  | ok a => exact hk a s hr.1 (hr.2 a rfl)
  | error e => exact herr e s hr.1

lemma wp_rename (hp : store.NoObject p) (hs : store.IndexSound s) {op : Op} :
    wp (store.indexSpec relies) (store.Placed hash)
      (disk op (Fs.rename p (store.objectPath hash))) s := by
  refine wp_disk ?_ ?_
  · intro s' henv _
    exact ⟨⟨fun _ h => h, fun _ _ => .inl⟩, placed_error (henv.1 hs)⟩
  · intro s' n henv _ r fs' heq
    have haside : store.Aside s' { s' with fs := fs' } := by
      refine ⟨rfl, fun other h => h.imp_left fun hexists => ?_⟩
      have := Fs.pathExists_rename (r := store.objectPath hash) (hp other).symm hexists
      rwa [heq] at this
    refine ⟨⟨haside.present, fun _ _ => .inl⟩, haside.indexSound (henv.1 hs), ?_⟩
    rintro u rfl
    obtain ⟨i, -, hi, -⟩ := Fs.rename_ok heq
    exact .inl (Fs.pathExists_of_lookup hi)

/-! ## The writes -/

lemma wp_renameTemp_present (hs : store.IndexSound s) :
    wp (store.indexSpec relies) (store.Placed hash)
      (renameTemp (store.objectTemp hash) (store.objectPath hash)) s := by
  refine wp_bind (wp_attempt (wp_mono (wp_rename noObject_objectTemp hs) fun r s hr => ?_))
  cases r with
  | ok u => exact placed_ok hr.1 (hr.2 u rfl)
  | error e =>
    exact wp_calmly_bind (calmly_attempt (calmly_removeFile noObject_objectTemp)) hr.1
      (fun _ _ => placed_error) fun _ _ _ => placed_error

variable (store) in
lemma settled_writeAtomic_end (dir : FilePath) :
    Guarantees (fun op s s' => store.Calm s s' ∧ op.Settled) (fun _ => True) (do
      store.fsyncParent dir
      store.countPendingSync) := by
  have hcount : Guarantees (fun op s s' => store.Calm s s' ∧ op.Settled) (fun _ => True)
      store.countPendingSync := by
    unfold countPendingSync
    split
    · refine Guarantees.bind (Guarantees.atom (Q := fun _ => True) fun _ s =>
        ⟨⟨⟨⟨s.fs, _, rfl⟩, fun _ h => h⟩, trivial⟩, trivial⟩) (fun _ _ => trivial)
        fun pending _ => ?_
      split
      · exact Guarantees.atom fun _ s => ⟨⟨⟨⟨s.fs, _, rfl⟩, fun _ h => h⟩, trivial⟩, trivial⟩
      · trivial
    · trivial
  refine Guarantees.bind (Q := fun _ => True) ?_ (fun _ _ => trivial) fun _ _ => hcount
  unfold fsyncParent fsyncDirectory
  split
  · refine Guarantees.mapErr (Q := fun _ => True) (Guarantees.mapErr (Q := fun _ => True)
      (Guarantees.atom fun i s => ?_) (fun _ _ => trivial) fun _ _ => trivial)
      (fun _ _ => trivial) fun _ _ => trivial
    cases i with
    | fail => exact ⟨⟨.refl s, trivial⟩, trivial⟩
    | ok n => exact ⟨⟨.refl s, trivial⟩, trivial⟩
  · trivial

/-- **An atomic write** that succeeds leaves its object present. -/
theorem wp_present_writeAtomic (hrelies : ∀ op : Op, op.Settled → relies (some op) hash)
    (hs : store.IndexSound s) : wp (store.indexSpec relies) (store.Placed hash)
      (store.writeAtomic (store.objectPath hash) data) s := by
  refine wp_calmly_bind (calmly_mapErr calmly_create) hs (fun _ _ => placed_error) ?_
  intro i s _ hs
  refine wp_calmly_bind (calmly_mapErr (calmly_writeAll data)) hs (fun _ _ => placed_error) ?_
  intro _ s _ hs
  refine wp_calmly_bind (store.calmly_fsyncTemp _) hs (fun _ _ => placed_error) ?_
  intro _ s _ hs
  refine wp_placed_bind (wp_renameTemp_present hs) (fun _ _ => placed_error) ?_
  intro _ s hs hpresent
  refine wp_mono (wp_aside (K := (· = hash)) (store.settled_writeAtomic_end _) ?_ hs ?_) ?_
  · rintro op s s' ⟨hcalm, hop⟩
    exact ⟨hcalm.aside, fun other ho => ho ▸ hrelies op hop⟩
  · rintro other rfl
    exact hpresent
  · rintro r s ⟨-, hs, hpresent⟩
    exact ⟨hs, fun _ _ => hpresent hash rfl⟩

lemma wp_still {op : Op} {f : Io → StoreState → Except ε α × StoreState}
    {Q : Except ε α → StoreState → Prop} (hf : ∀ i s, (f i s).2 = s) (hs : store.IndexSound s)
    (h : ∀ i s, store.IndexSound s → Q (f i s).1 s) :
    wp (store.indexSpec relies) Q (Proc.atom op f) s := by
  refine wp_atom fun s' henv i _ => ?_
  rw [hf]
  exact ⟨⟨fun _ h => h, fun _ _ => .inl⟩, h i s' (henv.1 hs)⟩

variable (store) in
/-- A write has ended: the index is sound, and the object it returned is present. -/
def Returned (r : Except ε ObjectRef) (s : StoreState) : Prop :=
  store.IndexSound s ∧ ∀ ref, r = .ok ref → store.Present s ref.hash

lemma returned_error {e : ε} (hs : store.IndexSound s) : store.Returned (.error e) s :=
  ⟨hs, by rintro ref ⟨⟩⟩

lemma returned_ok {ref : ObjectRef} (hs : store.IndexSound s)
    (hpresent : store.Present s ref.hash) : store.Returned (.ok ref : Except ε ObjectRef) s := by
  refine ⟨hs, ?_⟩
  rintro _ ⟨⟩
  exact hpresent

lemma wp_present_writeIndividual (hrelies : ∀ op : Op, op.Settled → relies (some op) hash)
    (hs : store.IndexSound s) : wp (store.indexSpec relies) store.Returned
      (store.writeIndividual data hash) s := by
  refine wp_calmly_bind (store.calmly_createShardDir hash) hs (fun _ _ => returned_error) ?_
  intro _ s _ hs
  exact wp_placed_bind (wp_present_writeAtomic hrelies hs) (fun _ _ => returned_error)
    fun _ s hs hpresent => returned_ok hs hpresent

lemma wp_dedupInsert_bind {size : ℕ} (hs : store.IndexSound s) (hpresent : store.Present s hash)
    (hrelies : relies (some .dedupIndex) hash) : wp (store.indexSpec relies) store.Returned (do
      dedupInsert ⟨hash, size⟩
      pure ⟨hash, size⟩ : Task ε ObjectRef) s := by
  refine wp_bind (wp_mono (wp_dedupInsert hs hpresent hrelies) ?_)
  rintro (e | u) s ⟨hs, hpresent⟩
  · exact returned_error hs
  · exact returned_ok hs hpresent

section Calls

variable (store) in
/-- The specification of a call: all that is present stays so while it is at work. -/
abbrev callSpec : Spec StoreState Io Op := store.indexSpec fun _ _ => True

lemma wp_present_existsObject (hs : store.IndexSound s) :
    wp store.callSpec (fun r s => store.IndexSound s ∧ (r = .ok true → store.Present s hash))
      (store.existsObject hash : Task ε Bool) s := by
  refine wp_bind (wp_still (fun _ _ => rfl) hs fun i s hs => ?_)
  dsimp only
  split
  · next hfound =>
    simp only [Bool.and_eq_true] at hfound
    exact ⟨hs, fun _ => .inl hfound.2⟩
  · unfold readPacked
    split
    · next hpacks =>
      refine wp_bind (wp_still (fun _ _ => rfl) hs fun i s hs => ⟨hs, fun h => .inr ?_⟩)
      cases i with
      | fail => cases h
      | ok n =>
        rw [packed, if_pos hpacks]
        exact Except.ok.inj h
    · exact ⟨hs, by rintro ⟨⟩⟩

lemma wp_present_writeNew (hs : store.IndexSound s) :
    wp store.callSpec store.Returned (store.writeNew data hash) s := by
  refine wp_bind (wp_mono (wp_present_existsObject hs) ?_)
  rintro (e | found) s ⟨hs, hfound⟩
  · exact returned_error hs
  · dsimp only
    split
    · next htrue =>
      subst htrue
      exact wp_dedupInsert_bind hs (hfound rfl) trivial
    · split
      · exact wp_present_writeIndividual (fun _ _ => trivial) hs
      · exact wp_present_writeIndividual (fun _ _ => trivial) hs

/-- **A write** that succeeds leaves its object present. -/
theorem wp_present_write (hs : store.IndexSound s) :
    wp store.callSpec store.Returned (store.write data) s := by
  unfold write
  split
  · exact returned_error hs
  · refine wp_bind (wp_still (fun _ _ => rfl) hs fun i s hs => ?_)
    dsimp only
    split
    · next ref hlookup =>
      obtain ⟨hhash, hpresent⟩ := hs _ ref hlookup
      exact returned_ok hs (hhash ▸ hpresent)
    · exact wp_present_writeNew hs

/-- **Moving a complete file to its place** leaves the object present. -/
theorem wp_present_moveIntoPlace {size : ℕ} (hp : store.NoObject p) (hs : store.IndexSound s) :
    wp store.callSpec store.Returned (store.moveIntoPlace p hash size) s := by
  refine wp_bind (wp_still (fun _ _ => rfl) hs fun i s hs => ?_)
  dsimp only
  split
  · next hfound =>
    simp only [Bool.and_eq_true] at hfound
    refine wp_bind (wp_mono (wp_aside (K := (· = hash)) (calmly_mapErr (calmly_removeFile hp))
      (fun _ _ _ hcalm => ⟨hcalm.aside, fun _ _ => trivial⟩) hs ?_) ?_)
    · rintro other rfl
      exact .inl hfound.2
    · rintro (e | u) s ⟨-, hs, hpresent⟩
      · exact returned_error hs
      · exact wp_dedupInsert_bind hs (hpresent hash rfl) trivial
  · refine wp_calmly_bind (store.calmly_createShardDir hash) hs (fun _ _ => returned_error) ?_
    intro _ s _ hs
    refine wp_bind (wp_mapErr (wp_mono (wp_rename hp hs) fun r s hr => ?_))
    cases r with
    | error e => exact returned_error hr.1
    | ok u => exact wp_dedupInsert_bind hr.1 (hr.2 u rfl) trivial

lemma wp_present_writeStream (reader : Reader) (expectedHash : Option ContentHash)
    (hs : store.IndexSound s) :
    wp store.callSpec store.Returned (store.writeStream reader expectedHash) s := by
  refine wp_calmly_bind calmly_ask hs (fun _ _ => returned_error) fun id s _ hs => ?_
  refine wp_calmly_bind store.calmly_createTempDir hs (fun _ _ => returned_error) ?_
  intro _ s _ hs
  refine wp_calmly_bind (calmly_mapErr calmly_create) hs (fun _ _ => returned_error) ?_
  intro ino s _ hs
  refine wp_calmly_bind (store.calmly_streamFrom reader _ ino _) hs (fun _ _ => returned_error) ?_
  intro _ s _ hs
  refine wp_calmly_bind (store.calmly_fsyncStream _) hs (fun _ _ => returned_error) ?_
  intro _ s _ hs
  refine wp_calmly_bind (calmly_verifyHash (noObject_temp _)) hs (fun _ _ => returned_error) ?_
  intro _ s _ hs
  exact wp_present_moveIntoPlace (noObject_temp _) hs

lemma wp_present_completeResumableWrite {transfer : PartialTransfer}
    (h : store.HandsOut transfer) (hs : store.IndexSound s) :
    wp store.callSpec store.Returned (store.completeResumableWrite transfer) s := by
  obtain ⟨name, hname⟩ := h
  have hp : store.NoObject transfer.tempPath := hname ▸ noObject_temp name
  refine wp_calmly_bind calmly_ask hs (fun _ _ => returned_error) fun now s _ hs => ?_
  split
  · refine wp_mono (wp_calmly (calmly_discard hp) hs) ?_
    rintro _ s ⟨⟨e, rfl⟩, hs⟩
    exact returned_error hs
  · refine wp_calmly_bind calmly_pathExists hs (fun _ _ => returned_error) fun found s _ hs => ?_
    split
    · refine wp_calmly_bind (calmly_mapErr calmly_look) hs (fun _ _ => returned_error) ?_
      intro bytes s _ hs
      refine wp_calmly_bind (calmly_verifyHash hp) hs (fun _ _ => returned_error) ?_
      intro _ s _ hs
      refine wp_calmly_bind (calmly_verifySize hp) hs (fun _ _ => returned_error) ?_
      intro _ s _ hs
      exact wp_present_moveIntoPlace hp hs
    · exact returned_error hs

/-- **Every call** but a deletion keeps what is present, and enters only what is present into the
index. -/
theorem wp_present_serve {log : List (Call × Except CasError Reply)}
    (hlog : ∀ transfer ∈ transfers log, store.HandsOut transfer) {call : Call}
    (hcall : call.Allowed log) (hdelete : ∀ hash, call ≠ .delete hash) (hs : store.IndexSound s) :
    wp store.callSpec (fun r s => ∀ data ref, call = .write data → r = .ok (.object ref) →
      store.Present s ref.hash) (store.serve call) s := by
  have hother : ∀ {α : Type} {Q : Except CasError α → StoreState → Prop} {t : Task CasError α}
      {f : α → Reply}, wp store.callSpec Q t s → (∀ data, call ≠ .write data) →
      wp store.callSpec (fun r s => ∀ data ref, call = .write data → r = .ok (.object ref) →
        store.Present s ref.hash) (do
          let a ← t
          pure (f a)) s := by
    intro α Q t f ht hne
    refine wp_bind (wp_mono ht fun r s _ => ?_)
    cases r with
    | error e => exact fun data ref heq => absurd heq (hne data)
    | ok a => exact fun data ref heq => absurd heq (hne data)
  have haside : ∀ {α : Type} {G : StoreState → StoreState → Prop} {Q : Except CasError α → Prop}
      {t : Task CasError α} {f : α → Reply}, Guarantees (fun _ => G) Q t →
      (∀ s s', G s s' → store.Aside s s') → (∀ data, call ≠ .write data) →
      wp store.callSpec (fun r s => ∀ data ref, call = .write data → r = .ok (.object ref) →
        store.Present s ref.hash) (do
          let a ← t
          pure (f a)) s := by
    intro α G Q t f ht hG hne
    exact hother (wp_aside (K := fun _ => False) ht
      (fun _ s s' h => ⟨hG s s' h, fun _ => False.elim⟩) hs fun _ => False.elim) hne
  have hcache : ∀ s s', store.Calm s s' ∨ OnCache s s' → store.Aside s s' := by
    rintro s s' (h | h)
    · exact h.aside
    · exact OnCache.aside h
  cases call with
  | write data =>
    refine wp_bind (wp_mono (wp_present_write hs) ?_)
    rintro (e | ref) s ⟨-, hpresent⟩
    · rintro _ _ - ⟨⟩
    · rintro _ _ - ⟨⟩
      exact hpresent _ rfl
  | delete hash => exact absurd rfl (hdelete hash)
  | writeStream reader expected =>
    exact hother (wp_present_writeStream reader expected hs) (by simp)
  | completeResumableWrite transfer =>
    exact hother (wp_present_completeResumableWrite (hlog transfer hcall) hs) (by simp)
  | writeBatch chunks =>
    exact haside (store.batchwise_writeBatch chunks) (fun _ _ => OnBatch.aside) (by simp)
  | flushBatch =>
    exact haside (f := fun _ => .done) batchwise_flushBatch (fun _ _ => OnBatch.aside) (by simp)
  | startResumableWrite expected size =>
    exact haside (store.calmly_startResumableWrite expected size) (fun _ _ => Calm.aside) (by simp)
  | continueResumableWrite transfer reader =>
    exact haside (store.calmly_continueResumableWrite transfer reader) (fun _ _ => Calm.aside)
      (by simp)
  | read hash => exact haside (store.cachewise_read hash) hcache (by simp)
  | prefetch hashes =>
    exact haside (f := fun _ => .done) (store.cachewise_prefetch hashes) hcache (by simp)
  | clearCache =>
    exact haside (f := fun _ => .done) (t := clearCache)
      (cachewise_withCache : store.Cachewise clearCache) hcache
      (by simp)
  | recover order fuel =>
    exact haside (store.calmly_recover order fuel) (fun _ _ => Calm.aside) (by simp)

end Calls

/-- What a batched write does for its object leaves it present. -/
theorem wp_present_writeIndividualOptimized
    (hrelies : ∀ op : Op, op.Settled → relies (some op) hash) (hs : store.IndexSound s) :
    wp (store.indexSpec relies) (store.Placed hash) (store.writeIndividualOptimized data hash)
      s := by
  refine wp_bind (wp_still (fun _ _ => rfl) hs fun i s hs => ?_)
  dsimp only
  split
  · next hfound =>
    simp only [Bool.and_eq_true] at hfound
    exact placed_ok hs (.inl hfound.2)
  · cases store.storedForm data with
    | error e => exact placed_error hs
    | ok stored =>
      rw [ofExcept_ok_bind]
      refine wp_calmly_bind (store.calmly_createShardDir hash) hs (fun _ _ => placed_error) ?_
      intro _ s _ hs
      refine wp_placed_bind (wp_present_writeAtomic hrelies hs) (fun _ _ => placed_error) ?_
      intro _ s hs hpresent
      refine wp_bind (wp_mono (wp_aside (K := (· = hash)) (store.onCache_cachePut hash data) ?_ hs
        ?_) ?_)
      · rintro op s s' ⟨hcache, hop⟩
        have hsettled : op.Settled := by
          rcases hop with rfl | rfl
          · exact trivial
          · exact trivial
        exact ⟨OnCache.aside hcache, fun other ho => ho ▸ hrelies op hsettled⟩
      · rintro other rfl
        exact hpresent
      · rintro (e | u) s ⟨-, hs, hpresent⟩
        · exact placed_error hs
        · refine wp_bind (wp_mono (wp_dedupInsert hs (hpresent hash rfl)
            (hrelies .dedupIndex trivial)) ?_)
          rintro (e | u) s ⟨hs, hpresent⟩
          · exact placed_error hs
          · exact placed_ok hs hpresent

/-- **A batched write** enters its object into the index only when that is present. -/
theorem wp_present_serveJob {job : ℕ} (hs : store.IndexSound s) :
    wp (store.indexSpec (jobRelies hash)) (fun _ _ => True) (store.serveJob job hash data)
      s := by
  have hrelies : ∀ op : Op, op.Settled → jobRelies hash (some op) hash :=
    fun op hop => ⟨rfl, op, rfl, hop⟩
  refine wp_bind (wp_bind (wp_attempt (wp_mono
    (wp_present_writeIndividualOptimized hrelies hs) fun r s _ => ?_)))
  refine wp_modify fun s' henv => ?_
  exact ⟨⟨fun _ h => h, fun _ _ => .inl⟩, trivial⟩

/-! ## Deletions -/

variable (store hash) in
/-- What is left of a deletion. -/
inductive Deleting : Task CasError Reply → Prop
  | look : Deleting (store.serve (.delete hash))
  | remove : Deleting (do
      (disk (.removeFile (store.objectPath hash))
        (Fs.removeFile (store.objectPath hash))).mapErr .io
      pure .done)
  | ret (r : Except CasError Reply) : Deleting (.ret r)

lemma Deleting.step {t t' : Task CasError Reply} {i : Io} (h : store.Deleting hash t)
    (hstep : Step t s i t' s') : store.Deleting hash t' ∧ (s' = s ∨
      i ≠ .fail ∧ t.head = some (.removeFile (store.objectPath hash)) ∧
        s' = { s with fs := (Fs.removeFile (store.objectPath hash) s.fs).2 }) := by
  cases h with
  | look =>
    have hlook : store.serve (.delete hash) = .act (.pathExists (store.objectPath hash))
      (fun _ => true) (fun _ s => s) _ := rfl
    rw [hlook] at hstep
    cases hstep with
    | act hready =>
      refine ⟨?_, .inl rfl⟩
      show store.Deleting hash ((if _ then _ else _) >>= _)
      split
      · exact .remove
      · exact .ret _
  | remove =>
    have hremove : (do
        (disk (.removeFile (store.objectPath hash))
          (Fs.removeFile (store.objectPath hash))).mapErr .io
        pure .done : Task CasError Reply) = .act (.removeFile (store.objectPath hash))
      (fun _ => true) _ _ := rfl
    rw [hremove] at hstep
    cases hstep with
    | act hready =>
      cases i with
      | fail => exact ⟨.ret _, .inl rfl⟩
      | ok n =>
        refine ⟨?_, .inr ⟨by simp, rfl, rfl⟩⟩
        dsimp only
        generalize (Fs.removeFile (store.objectPath hash) s.fs).1 = r
        cases r with
        | ok u => exact .ret _
        | error e => exact .ret _
  | ret r => cases hstep

/-! ## Runs -/

variable (store) in
/-- A deletion removes only an object that the index does not have and that no batched write is
about to enter, unless it is packed. -/
def DeletesSafely (S : System) : Event → Prop
  | .act none i => match S.call with
    | some (.delete hash) =>
      (S.pool.task none).head = some (.removeFile (store.objectPath hash)) → i ≠ .fail →
        (store.packed hash).isSome = true ∨ S.pool.state.dedupIndex.lookup hash = none ∧
          ∀ e ∈ S.started, e.2.1 = hash → ∀ op ∈ (S.pool.task (some e.1)).head, ¬ op.Settled
    | _ => True
  | _ => True

instance (S : System) : ∀ e, Decidable (store.DeletesSafely S e)
  | .call _ => isTrue trivial
  | .start _ => isTrue trivial
  | .act (some _) _ => isTrue trivial
  | .act none _ => by
    dsimp only [DeletesSafely]
    refine Option.casesOn S.call (isTrue trivial) fun call => ?_
    exact match call with
      | .delete _ => by dsimp only; infer_instance
      | .write _ | .writeBatch _ | .flushBatch | .writeStream _ _ | .startResumableWrite _ _
      | .continueResumableWrite _ _ | .completeResumableWrite _ | .read _ | .prefetch _
      | .clearCache | .recover _ _ => isTrue trivial

variable (store) in
/-- What holds in every state: the index is sound, every task enters only what is present, and what
was written last is present. -/
structure Indexed (S : System) : Prop where
  index : store.IndexSound S.pool.state
  call : (∀ hash, S.call ≠ some (.delete hash)) → wp store.callSpec (fun r s => ∀ data ref,
    S.call = some (.write data) → r = .ok (.object ref) → store.Present s ref.hash)
    (S.pool.task none) S.pool.state
  delete : ∀ hash, S.call = some (.delete hash) → store.Deleting hash (S.pool.task none)
  job : ∀ job, (∃ r, S.pool.task (some job) = .ret r) ∨ ∃ hash data, (job, hash, data) ∈ S.started ∧
    wp (store.indexSpec (jobRelies hash)) (fun _ _ => True) (S.pool.task (some job)) S.pool.state
  recent : S.call = none → ∀ data ref, S.log.getLast? = some (.write data, .ok (.object ref)) →
    store.Present S.pool.state ref.hash

section Runs

variable {S : System} {P : Pool (Option ℕ) StoreState Io Op CasError Reply}

/-- A step that leaves the index sound, and present what any task relies on, leaves the other
batched writes as they were. -/
lemma Indexed.job_of_step (h : store.Indexed S) {t : Option ℕ} {i : Io}
    (hstep : S.pool.Step t i P) (hindex : store.IndexSound P.state)
    (hpresent : ∀ job hash data, (job, hash, data) ∈ S.started → some job ≠ t →
      ∀ other, jobRelies hash (S.pool.task (some job)).head other →
        store.Present S.pool.state other → store.Present P.state other) {job : ℕ}
    (hjob : some job ≠ t) : (∃ r, P.task (some job) = .ret r) ∨ ∃ hash data,
      (job, hash, data) ∈ S.started ∧
        wp (store.indexSpec (jobRelies hash)) (fun _ _ => True) (P.task (some job)) P.state := by
  rw [hstep.task_of_ne hjob]
  refine (h.job job).imp_right ?_
  rintro ⟨hash, data, hmem, hwp⟩
  refine ⟨hash, data, hmem, wp_of_env hwp (fun _ _ _ => trivial) ⟨fun _ => hindex, ?_⟩⟩
  exact hpresent job hash data hmem hjob

lemma Indexed.call_step (h : store.Indexed S) {i : Io}
    (hC : store.DeletesSafely S (.act none i)) (hstep : S.pool.Step none i P) :
    store.Indexed { S with pool := P } := by
  by_cases hdelete : ∃ hash, S.call = some (.delete hash)
  · obtain ⟨hash, hcall⟩ := hdelete
    obtain ⟨hnext, heff⟩ := (h.delete hash hcall).step hstep.proc
    have hneither : store.IndexSound P.state ∧ ∀ job other data, (job, other, data) ∈ S.started →
        some job ≠ none → ∀ hash', jobRelies other (S.pool.task (some job)).head hash' →
          store.Present S.pool.state hash' → store.Present P.state hash' := by
      rcases heff with hsame | ⟨hi, hhead, hremoved⟩
      · rw [hsame]
        exact ⟨h.index, fun _ _ _ _ _ _ _ hp => hp⟩
      · -- every other object stays, and nothing depends on this one
        have hother : ∀ hash', hash' ≠ hash ∨ (store.packed hash).isSome = true →
            store.Present S.pool.state hash' → store.Present P.state hash' := by
          rintro hash' hne (hexists | hpacked)
          · by_cases heq : hash' = hash
            · exact .inr (heq ▸ hne.resolve_left fun hn => hn heq)
            · refine .inl ?_
              rw [hremoved]
              exact Fs.pathExists_removeFile (fun hp => heq (store.objectPath_injective hp)) hexists
          · exact .inr hpacked
        rw [DeletesSafely, hcall] at hC
        have hindex : P.state.dedupIndex = S.pool.state.dedupIndex := by rw [hremoved]
        rcases hC hhead hi with hpacked | ⟨hnone, hsettled⟩
        · refine ⟨fun hash' ref hlookup => ?_, fun _ _ _ _ _ hash' _ => hother hash' (.inr hpacked)⟩
          rw [hindex] at hlookup
          exact ⟨(h.index hash' ref hlookup).1,
            hother hash' (.inr hpacked) (h.index hash' ref hlookup).2⟩
        · refine ⟨fun hash' ref hlookup => ?_, fun job other data hmem _ hash' hrelies => ?_⟩
          · rw [hindex] at hlookup
            have hne : hash' ≠ hash := by
              rintro rfl
              rw [hnone] at hlookup
              cases hlookup
            exact ⟨(h.index hash' ref hlookup).1,
              hother hash' (.inl hne) (h.index hash' ref hlookup).2⟩
          · obtain ⟨rfl, op, hop, hsettle⟩ := hrelies
            refine hother hash' (.inl ?_)
            rintro rfl
            exact hsettled _ hmem rfl op hop hsettle
    refine ⟨hneither.1, fun hne => absurd hcall (hne hash), fun hash' hcall' => ?_,
      fun job => h.job_of_step hstep hneither.1 hneither.2 (by simp), fun hnone => ?_⟩
    · obtain rfl : hash = hash' := by simpa [hcall] using hcall'
      exact hnext
    · rw [show S.call = none from hnone] at hcall
      cases hcall
  · rw [not_exists] at hdelete
    obtain ⟨⟨op, -, hguar⟩, hrest⟩ := Proc.wp_step (h.call hdelete) hstep.proc fun _ _ => trivial
    have hindex := indexSound_of_guar hguar h.index
    refine ⟨hindex, fun _ => hrest, fun hash hcall => absurd hcall (hdelete hash), fun job =>
      h.job_of_step hstep hindex (fun _ _ _ _ _ hash _ => hguar.1 hash) (by simp), ?_⟩
    exact fun hnone data ref hlast => hguar.1 _ (h.recent hnone data ref hlast)

lemma Indexed.job_step (h : store.Indexed S) {i : Io} {job : ℕ}
    (hstep : S.pool.Step (some job) i P) : store.Indexed { S with pool := P } := by
  rcases h.job job with ⟨r, hr⟩ | ⟨hash, data, hmem, hwp⟩
  · exact absurd hr (hstep.ne_ret r)
  · obtain ⟨⟨op, -, hguar⟩, hrest⟩ := Proc.wp_step hwp hstep.proc fun _ _ => trivial
    have hindex := indexSound_of_guar hguar h.index
    have hnone : P.task none = S.pool.task none := hstep.task_of_ne (by simp)
    refine ⟨hindex, fun hne => ?_, fun hash hcall => ?_, fun other => ?_, ?_⟩
    · show wp _ _ (P.task none) P.state
      rw [hnone]
      refine wp_of_env (h.call hne) (fun r _ hr data ref hcall href => ?_)
        ⟨fun _ => hindex, fun hash _ => hguar.1 hash⟩
      exact hguar.1 _ (hr data ref hcall href)
    · show store.Deleting hash (P.task none)
      rw [hnone]
      exact h.delete hash hcall
    · by_cases ho : some other = some job
      · obtain rfl := Option.some.inj ho
        exact .inr ⟨hash, data, hmem, hrest⟩
      · exact h.job_of_step hstep hindex (fun _ _ _ _ _ hash _ => hguar.1 hash) ho
    · exact fun hcall data ref hlast => hguar.1 _ (h.recent hcall data ref hlast)

/-- **In every run** whose deletions are safe the index stays sound. -/
theorem indexed_of_run {fs : Fs} {now : ℕ}
    (hrun : store.Run store.DeletesSafely (store.system fs now) S) : store.Indexed S := by
  refine hrun.invariant ?_ ?_ ?_ ?_ ?_
  · refine ⟨by rintro hash ref ⟨⟩, fun _ => ?_, by rintro hash ⟨⟩, fun _ => .inl ⟨_, rfl⟩,
      by rintro - data ref ⟨⟩⟩
    rintro data ref ⟨⟩
  · intro S call hreach hS _ hnone hallowed
    have htask : (S.called store call).pool.task none = store.serve call :=
      Pool.task_withTask_self ..
    refine ⟨hS.index, fun hne => ?_, fun hash hcall => ?_, fun job => ?_, by rintro ⟨⟩⟩
    · rw [htask]
      refine wp_mono (wp_present_serve (handsOut_of_run hreach) hallowed
        (fun hash heq => hne hash (congrArg some heq)) hS.index) fun r s hr data ref hcall => ?_
      exact hr data ref (Option.some.inj hcall)
    · rw [htask]
      obtain rfl := Option.some.inj hcall
      exact .look
    · have hjob : (S.called store call).pool.task (some job) = S.pool.task (some job) :=
        Pool.task_withTask_of_ne _ _ (by simp)
      rw [hjob]
      exact hS.job job
  · intro S job hash data _ hS _ _ _
    have hnone : (S.startedJob store job hash data).pool.task none = S.pool.task none :=
      Pool.task_withTask_of_ne _ _ (by simp)
    refine ⟨hS.index, ?_, ?_, fun other => ?_, hS.recent⟩
    · rw [hnone]
      exact hS.call
    · rw [hnone]
      exact hS.delete
    · by_cases ho : other = job
      · subst ho
        refine .inr ⟨hash, data, List.mem_cons_self, ?_⟩
        have hjob : (S.startedJob store other hash data).pool.task (some other) =
          store.serveJob other hash data := Pool.task_withTask_self ..
        rw [hjob]
        exact wp_present_serveJob hS.index
      · have hjob : (S.startedJob store job hash data).pool.task (some other) =
          S.pool.task (some other) := Pool.task_withTask_of_ne _ _ (by simpa using ho)
        rw [hjob]
        refine (hS.job other).imp_right ?_
        rintro ⟨hash', data', hmem, hwp⟩
        exact ⟨hash', data', List.mem_cons_of_mem _ hmem, hwp⟩
  · intro S t i P _ hS hC hstep
    cases t with
    | none => exact hS.call_step hC hstep
    | some job => exact hS.job_step hstep
  · intro S call r hS hcall hr
    have hret : (S.returned call r).pool.task none = .ret r := hr
    refine ⟨hS.index, fun _ => ?_, by rintro hash ⟨⟩, hS.job, fun _ data ref hlast => ?_⟩
    · rw [hret]
      rintro data ref ⟨⟩
    · have hentry : (call, r) = (Call.write data, Except.ok (Reply.object ref)) := by
        simpa [System.returned] using hlast
      obtain ⟨rfl, rfl⟩ := Prod.mk.inj hentry
      have hwp := hS.call (by simp [hcall])
      rw [hr] at hwp
      exact hwp data ref hcall rfl

lemma ensures_existsObject {s : StoreState} (h : store.Present s hash) :
    Ensures noFault (fun r _ => r = .ok true) (store.existsObject hash : Task CasError Bool) s := by
  refine ensures_of_wp exists_noFault (wp_bind (wp_alone_pathExists ?_))
  dsimp only
  split
  · exact rfl
  · next hmissing =>
    have hpacked := h.resolve_left hmissing
    rw [packed] at hpacked
    split at hpacked
    · next hpacks =>
      rw [readPacked, if_pos hpacks]
      refine wp_bind (wp_atom fun s' _ i hi => ⟨trivial, ?_⟩)
      cases i with
      | fail => exact absurd rfl hi
      | ok n => exact congrArg Except.ok hpacked
    · cases hpacked

variable (store) in
/-- **The dedup index is sound.** Whatever disk a store is opened on, and whatever is called: in a
run in which a deletion removes only an object that the index does not have, and that no batched
write is about to enter, everything in the index is present, and what a write has just returned
exists.

**Proof sketch.** An object gets into the index after a look that has found it, or after the rename
that puts it in its place. No action but the removal by a deletion makes an object disappear, and
deletions come between the other calls, so that only batched writes can be disturbed by one: from
their rename to their entry, which is what the condition rules out. -/
theorem index_sound (fs : Fs) (now : ℕ)
    (hrun : store.Run store.DeletesSafely (store.system fs now) S) :
    (∀ hash, hash ∈ S.pool.state.dedupIndex → store.Present S.pool.state hash) ∧
      ∀ data ref, S.call = none → S.log.getLast? = some (.write data, .ok (.object ref)) →
        Ensures noFault (fun r _ => r = .ok true)
          (store.existsObject ref.hash : Task CasError Bool) S.pool.state := by
  have h := indexed_of_run hrun
  refine ⟨fun hash hmem => ?_, fun data ref hcall hlast => ?_⟩
  · obtain ⟨ref, hlookup⟩ := Finmap.mem_iff.mp hmem
    exact (h.index hash ref hlookup).2
  · exact ensures_existsObject (h.recent hcall data ref hlast)

/-- A byte is written, deleted and written again. -/
theorem index_sound_rewritten : ∃ S,
    Runs.exec (default .blake3Sample .identity).next
      (default .blake3Sample .identity).DeletesSafely
      (.call (.write [1]) :: List.replicate 8 (.act none (.ok 0)) ++
        .call (.delete (.blake3Sample [1])) :: List.replicate 2 (.act none (.ok 0)) ++
        .call (.write [1]) :: List.replicate 8 (.act none (.ok 0)))
      ((default .blake3Sample .identity).system .empty 0) = some S ∧
      (∀ hash, hash ∈ S.pool.state.dedupIndex →
        (default .blake3Sample .identity).Present S.pool.state hash) ∧
      ∀ data ref, S.call = none → S.log.getLast? = some (.write data, .ok (.object ref)) →
        Ensures noFault (fun r _ => r = .ok true)
          ((default .blake3Sample .identity).existsObject ref.hash : Task CasError Bool)
          S.pool.state := by
  refine (Option.isSome_iff_exists.mp ?_).imp fun S hS =>
    ⟨hS, index_sound _ .empty 0 (Runs.run_of_exec hS)⟩
  decide +kernel

/-- A byte is written twice, so that the index has it, deleted, and written again: the last write
returns at once, and the object is not there. -/
theorem not_forall_index_sound : ¬ ∀ (store : ContentStore) (fs : Fs) (now : ℕ) (S : System),
    store.Run (fun _ _ => True) (store.system fs now) S →
    (∀ hash, hash ∈ S.pool.state.dedupIndex → store.Present S.pool.state hash) ∧
      ∀ data ref, S.call = none → S.log.getLast? = some (.write data, .ok (.object ref)) →
        Ensures noFault (fun r _ => r = .ok true)
          (store.existsObject ref.hash : Task CasError Bool) S.pool.state := by
  intro h
  have hexec : (Runs.exec (default .blake3Sample .identity).next (fun _ _ => True)
      (.call (.write [1]) :: List.replicate 8 (.act none (.ok 0)) ++
        .call (.write [1]) :: List.replicate 3 (.act none (.ok 0)) ++
        .call (.delete (.blake3Sample [1])) :: List.replicate 2 (.act none (.ok 0)) ++
        [.call (.write [1]), .act none (.ok 0)])
      ((default .blake3Sample .identity).system .empty 0)).map (fun S =>
        (S.log.length, S.pool.state.dedupIndex.lookup (.blake3Sample [1]),
          S.pool.state.fs.pathExists
            ((default .blake3Sample .identity).objectPath (.blake3Sample [1])))) =
        some (4, some ⟨.blake3Sample [1], 1⟩, false) := by decide +kernel
  obtain ⟨S, hS, hend⟩ := Option.map_eq_some_iff.mp hexec
  simp only [Prod.mk.injEq] at hend
  obtain ⟨-, hlookup, hmissing⟩ := hend
  rcases (h _ .empty 0 S (Runs.run_of_exec hS)).1 _ (Finmap.mem_iff.mpr ⟨_, hlookup⟩) with hp | hp
  · rw [hmissing] at hp
    cases hp
  · cases hp

end Runs

end ContentStore

end Landropic.Cas
