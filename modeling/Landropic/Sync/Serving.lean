import Landropic.Sync.Handlers

set_option autoImplicit false

/-!
# Which chunks a session sends

A request for chunks is answered with those of its first ten that the store of the session gives
back, each once, unless the hash of one of them is too short.

## Main definitions

* `ChunkStore.Faithful` — a store that gives back what it takes.
* `LiveSession.Holds` — what the store of a session gives back.

## Main results

* `LiveSession.loadWanted_spec` — which chunks are sent.
* `LiveSession.loadWanted_of_short` — a hash that is too short panics.
* `LiveSession.faithful_memoryStore` — a store in memory is in order.
-/

namespace Landropic

namespace ChunkStore

variable {σ : Type}

/-- The store gives the object back. -/
def Has (store : ChunkStore σ) (cas : σ) (hash : ContentHash) : Prop :=
  ∃ data, (store.read cas hash).1 = .ok data

/-- **A store that is in order**: what it gives back has the hash it is asked for and is not empty,
reading changes nothing that is read, it takes all but what is too large, and keeps it. -/
structure Faithful (blake3 : Bytes → ContentHash) (store : ChunkStore σ) : Prop where
  read_genuine : ∀ {cas hash data}, (store.read cas hash).1 = .ok data →
    blake3 data = hash ∧ data ≠ []
  read_keeps : ∀ {cas hash hash' data}, (store.read (store.read cas hash).2 hash').1 = .ok data ↔
    (store.read cas hash').1 = .ok data
  write_ok_iff : ∀ {cas data}, (store.write cas data).1 = .ok () ↔
    data.length ≤ Cas.MAX_OBJECT_SIZE
  has_write : ∀ {cas data}, data ≠ [] → data.length ≤ Cas.MAX_OBJECT_SIZE →
    store.Has (store.write cas data).2 (blake3 data)
  write_keeps : ∀ {cas data hash}, data ≠ [] → store.Has cas hash →
    store.Has (store.write cas data).2 hash

end ChunkStore

namespace LiveSession

variable {σ : Type} {env : Env σ} {s : LiveSession σ}

/-- The store gives back the chunk with this hash, of which the first 32 bytes count. -/
def Holds (env : Env σ) (s : LiveSession σ) (hash : Bytes) (data : Bytes) : Prop :=
  ∃ h : (hash.take 32).length = 32, (env.store.read s.cas ⟨hash.take 32, h⟩).1 = .ok data

variable {hash data : Bytes}

lemma loadChunk_of_holds (h : Holds env s hash data) :
    ∃ h' : (hash.take 32).length = 32, loadChunk env s (Hex.encode hash) =
      (.ok data, { s with cas := (env.store.read s.cas ⟨hash.take 32, h'⟩).2 }) := by
  obtain ⟨h', hread⟩ := h
  refine ⟨h', ?_⟩
  simp only [loadChunk, Hex.decode_encode, dif_pos h', hread]

lemma loadChunk_of_not_holds (hlong : 32 ≤ hash.length) (h : ∀ data, ¬ Holds env s hash data) :
    ∃ (h' : (hash.take 32).length = 32) (e : SyncError), loadChunk env s (Hex.encode hash) =
      (.error (.err e), { s with cas := (env.store.read s.cas ⟨hash.take 32, h'⟩).2 }) := by
  have h' : (hash.take 32).length = 32 := by simp [hlong]
  simp only [loadChunk, Hex.decode_encode, dif_pos h']
  cases hread : (env.store.read s.cas ⟨hash.take 32, h'⟩).1 with
  | ok data => exact absurd ⟨h', hread⟩ (h data)
  | error e => exact ⟨h', _, rfl⟩

lemma loadChunk_of_short (hshort : hash.length < 32) :
    loadChunk env s (Hex.encode hash) = (.error .panic, s) := by
  have h' : ¬ (hash.take 32).length = 32 := by simp [hshort]
  simp only [loadChunk, Hex.decode_encode, dif_neg h']

lemma holds_read (hfaithful : env.store.Faithful env.blake3) {hash : ContentHash} {hash' : Bytes} :
    Holds env { s with cas := (env.store.read s.cas hash).2 } hash' data ↔ Holds env s hash' data :=
  exists_congr fun _ => hfaithful.read_keeps

/-- **The chunks that are sent** in answer to a request none of whose hashes is too short: once
each, those that the store gives back and that were not sent before.

**Proof sketch.** Induction on the hashes: reading a chunk does not change what the store gives
back, and the chunks that are sent after it differ from it because it is marked as sent. -/
theorem loadWanted_spec (hfaithful : env.store.Faithful env.blake3) {hashes : List Bytes}
    (hlong : ∀ hash ∈ hashes, 32 ≤ hash.length) (s : LiveSession σ) :
    ∃ chunks s', loadWanted env hashes s = (.ok chunks, s') ∧
      (∀ hash data, Holds env s' hash data ↔ Holds env s hash data) ∧
      (chunks.map ChunkData.hash).Nodup ∧
      (∀ hash, hash ∈ chunks.map ChunkData.hash ↔
        hash ∈ hashes ∧ Hex.encode hash ∉ s.sentChunks ∧ ∃ data, Holds env s hash data) ∧
      ∀ chunk ∈ chunks, Holds env s chunk.hash chunk.data := by
  induction hashes generalizing s with
  | nil => exact ⟨[], s, rfl, fun _ _ => Iff.rfl, by simp, by simp, by simp⟩
  | cons first rest ih =>
    have hrest : ∀ hash ∈ rest, 32 ≤ hash.length := fun hash h =>
      hlong hash (List.mem_cons_of_mem first h)
    rw [loadWanted]
    by_cases hsent : Hex.encode first ∈ s.sentChunks
    · rw [if_pos hsent]
      obtain ⟨chunks, s', heq, hholds, hnodup, hmem, hdata⟩ := ih hrest s
      refine ⟨chunks, s', heq, hholds, hnodup, fun hash => ?_, hdata⟩
      rw [hmem, List.mem_cons]
      constructor
      · rintro ⟨h, h'⟩
        exact ⟨.inr h, h'⟩
      · rintro ⟨rfl | h, h'⟩
        · exact absurd hsent h'.1
        · exact ⟨h, h'⟩
    · rw [if_neg hsent]
      by_cases hfirst : ∃ data, Holds env s first data
      · obtain ⟨data, hfirst⟩ := hfirst
        obtain ⟨h', hload⟩ := loadChunk_of_holds hfirst
        rw [hload]
        obtain ⟨chunks, s', heq, hholds, hnodup, hmem, hdata⟩ := ih hrest
          (noteSent { s with cas := (env.store.read s.cas ⟨first.take 32, h'⟩).2 }
            (Hex.encode first) data)
        have hkeeps : ∀ hash data', Holds env
            (noteSent { s with cas := (env.store.read s.cas ⟨first.take 32, h'⟩).2 }
              (Hex.encode first) data) hash data' ↔ Holds env s hash data' :=
          fun hash data' => holds_read hfaithful
        refine ⟨toChunkData first data :: chunks, s', by simp only [heq, Except.map],
          fun hash data' => (hholds hash data').trans (hkeeps hash data'), ?_, fun hash => ?_, ?_⟩
        · refine List.nodup_cons.mpr ⟨fun hmem' => ?_, hnodup⟩
          exact ((hmem first).mp hmem').2.1 (Finset.mem_insert_self _ _)
        · rw [List.map_cons, List.mem_cons, List.mem_cons, hmem]
          by_cases heq' : hash = first
          · subst heq'
            exact iff_of_true (.inl rfl) ⟨.inl rfl, hsent, data, hfirst⟩
          · have hsent' : Hex.encode hash ∉ insert (Hex.encode first) s.sentChunks ↔
                Hex.encode hash ∉ s.sentChunks := by
              simp [Hex.encode_injective.eq_iff, heq']
            simp only [toChunkData, heq', false_or, sentChunks_noteSent, hsent', hkeeps]
        · intro chunk hchunk
          rcases List.mem_cons.mp hchunk with rfl | hchunk
          · exact hfirst
          · exact (hkeeps _ _).mp (hdata chunk hchunk)
      · obtain ⟨h', e, hload⟩ := loadChunk_of_not_holds (hlong first List.mem_cons_self)
          (not_exists.mp hfirst)
        rw [hload]
        obtain ⟨chunks, s', heq, hholds, hnodup, hmem, hdata⟩ := ih hrest
          { s with cas := (env.store.read s.cas ⟨first.take 32, h'⟩).2 }
        refine ⟨chunks, s', heq, fun hash data => (hholds hash data).trans (holds_read hfaithful),
          hnodup, fun hash => ?_, fun chunk hchunk =>
            (holds_read hfaithful).mp (hdata chunk hchunk)⟩
        rw [hmem, List.mem_cons]
        simp only [holds_read hfaithful]
        constructor
        · rintro ⟨h, hnew⟩
          exact ⟨.inr h, hnew⟩
        · rintro ⟨rfl | h, hnew⟩
          · exact absurd hnew.2 hfirst
          · exact ⟨h, hnew⟩

lemma loadWanted_of_short (env : Env σ) {hashes : List Bytes} {s : LiveSession σ}
    (hsent : ∀ hash, hash.length < 32 → Hex.encode hash ∉ s.sentChunks)
    (hshort : ∃ hash ∈ hashes, hash.length < 32) :
    (loadWanted env hashes s).1 = .error .panic := by
  induction hashes generalizing s with
  | nil => simp at hshort
  | cons first rest ih =>
    rw [loadWanted]
    by_cases hfirst : first.length < 32
    · rw [if_neg (hsent first hfirst), loadChunk_of_short hfirst]
    · have hrest : ∃ hash ∈ rest, hash.length < 32 := by
        obtain ⟨hash, hmem, hlt⟩ := hshort
        rcases List.mem_cons.mp hmem with rfl | hmem
        · exact absurd hlt hfirst
        · exact ⟨hash, hmem, hlt⟩
      by_cases hmem : Hex.encode first ∈ s.sentChunks
      · rw [if_pos hmem]
        exact ih hsent hrest
      · rw [if_neg hmem]
        by_cases hholds : ∃ data, Holds env s first data
        · obtain ⟨data, hholds⟩ := hholds
          obtain ⟨h', hload⟩ := loadChunk_of_holds hholds
          rw [hload]
          have hsent' : ∀ hash, hash.length < 32 →
              Hex.encode hash ∉ insert (Hex.encode first) s.sentChunks := by
            intro hash hlt hmem'
            rcases Finset.mem_insert.mp hmem' with heq | hmem'
            · exact hfirst (Hex.encode_injective heq ▸ hlt)
            · exact hsent hash hlt hmem'
          have hpanic := ih (s := noteSent
            { s with cas := (env.store.read s.cas ⟨first.take 32, h'⟩).2 } (Hex.encode first) data)
            hsent' hrest
          simp only [hpanic, Except.map]
        · obtain ⟨h', e, hload⟩ := loadChunk_of_not_holds (not_lt.mp hfirst) (not_exists.mp hholds)
          rw [hload]
          exact ih hsent hrest

lemma length_loadWanted_le (hashes : List Bytes) (s : LiveSession σ) :
    ((loadWanted env hashes s).1.toOption.getD []).length ≤ hashes.length := by
  induction hashes generalizing s with
  | nil => simp [loadWanted, Except.toOption]
  | cons first rest ih =>
    rw [loadWanted]
    split_ifs
    · exact (ih s).trans (by simp)
    · rcases loadChunk env s (Hex.encode first) with ⟨(_ | _) | data, s₁⟩
      · exact (ih s₁).trans (by simp)
      · simp [Except.toOption]
      · have hrest := ih (s₁.noteSent (Hex.encode first) data)
        dsimp only
        cases hload : (loadWanted env rest (s₁.noteSent (Hex.encode first) data)).1 with
        | error stop => simp [Except.toOption, Except.map]
        | ok chunks =>
          rw [hload] at hrest
          simpa [Except.toOption, Except.map] using hrest

/-! ## The store in memory -/

lemma read_memoryStore {blake3 : Bytes → ContentHash} {objects : HashMap ContentHash Bytes}
    {hash : ContentHash} :
    ((memoryStore blake3).read objects hash).1 = .ok data ↔
      objects.lookup hash = some data ∧ data ≠ [] ∧ blake3 data = hash := by
  simp only [memoryStore]
  cases objects.lookup hash with
  | none => simp
  | some found =>
    dsimp only
    split_ifs with hempty hhash
    · simp only [Option.some.injEq, false_iff, not_and]
      rintro rfl
      simp [hempty]
    · simp only [Option.some.injEq, false_iff, not_and]
      rintro rfl -
      exact hhash
    · simp only [Except.ok.injEq, Option.some.injEq]
      constructor
      · rintro rfl
        exact ⟨rfl, hempty, not_not.mp hhash⟩
      · exact fun h => h.1

lemma faithful_memoryStore (blake3 : Bytes → ContentHash) :
    (memoryStore blake3).Faithful blake3 where
  read_genuine h := ⟨(read_memoryStore.mp h).2.2, (read_memoryStore.mp h).2.1⟩
  read_keeps := Iff.rfl
  write_ok_iff := by
    intro cas data
    simp only [memoryStore]
    split_ifs with h <;> simp [h]
  has_write := by
    intro cas data hne hsize
    refine ⟨data, read_memoryStore.mpr ⟨?_, hne, rfl⟩⟩
    simp [memoryStore, hsize]
  write_keeps := by
    rintro cas data hash hne ⟨found, hread⟩
    obtain ⟨hlookup, hfound, hhash⟩ := read_memoryStore.mp hread
    by_cases hsize : data.length ≤ Cas.MAX_OBJECT_SIZE
    · by_cases hsame : hash = blake3 data
      · subst hsame
        refine ⟨data, read_memoryStore.mpr ⟨?_, hne, rfl⟩⟩
        simp [memoryStore, hsize]
      · refine ⟨found, read_memoryStore.mpr ⟨?_, hfound, hhash⟩⟩
        simp [memoryStore, hsize, Finmap.lookup_insert_of_ne _ hsame, hlookup]
    · refine ⟨found, read_memoryStore.mpr ⟨?_, hfound, hhash⟩⟩
      simp [memoryStore, hsize, hlookup]

end LiveSession

end Landropic
