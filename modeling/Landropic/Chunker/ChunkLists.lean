import Landropic.Chunker.Seams

set_option autoImplicit false

/-!
# The chunks as a list

The chunks of a byte string lie one behind the other and make it up again. Where a cut was found
depends only on the bytes up to it, so what is appended to a byte string changes none of the chunks
that ended before.

## Main definitions

* `Chunker.layOut` — byte strings as chunks that lie one behind the other.
* `Chunker.Lossless` — chunks of the right sizes that make up the data.

## Main results

* `Chunker.chunkBytes_eq_some_iff` — the chunks of a byte string, laid out.
* `Chunker.chunkBytes_lossless` — chunking loses nothing and keeps to the sizes.
* `Chunker.chunkBytes_append` — what is appended changes no chunk that ended before.
-/

namespace Landropic

/-- Where a chunk ends. -/
def Chunk.stop (chunk : Chunk) : ℕ := chunk.offset + chunk.data.length

@[simp] lemma Chunk.stop_mk (data : Bytes) (hash : ChunkHash) (offset : ℕ) :
    (⟨data, hash, offset⟩ : Chunk).stop = offset + data.length := rfl

namespace Chunker

variable (blake3 : Bytes → ContentHash)

/-- Byte strings as chunks that lie one behind the other from an offset on. -/
def layOut : ℕ → List Bytes → List Chunk
  | _, [] => []
  | offset, data :: rest => ⟨data, blake3 data, offset⟩ :: layOut (offset + data.length) rest

section LayOut

variable {blake3} {offset : ℕ} {l : List Bytes} {chunk : Chunk}

@[simp] lemma map_data_layOut (offset : ℕ) (l : List Bytes) :
    (layOut blake3 offset l).map Chunk.data = l := by
  induction l generalizing offset with
  | nil => rfl
  | cons data rest ih => simp [layOut, ih]

lemma offset_of_layOut {before after : List Chunk}
    (h : layOut blake3 offset l = before ++ chunk :: after) :
    chunk.offset = offset + (before.map fun chunk => chunk.data.length).sum := by
  induction before generalizing offset l with
  | nil =>
    cases l with
    | nil => cases h
    | cons data rest =>
      obtain ⟨rfl, -⟩ := List.cons.inj h
      rfl
  | cons first before ih =>
    cases l with
    | nil => cases h
    | cons data rest =>
      obtain ⟨rfl, hrest⟩ := List.cons.inj h
      rw [ih hrest, List.map_cons, List.sum_cons, Nat.add_assoc]

lemma le_stop_of_mem_layOut (h : chunk ∈ layOut blake3 offset l) : offset ≤ chunk.stop := by
  induction l generalizing offset with
  | nil => cases h
  | cons data rest ih =>
    rcases List.mem_cons.mp h with rfl | h
    · exact Nat.le_add_right ..
    · exact (Nat.le_add_right ..).trans (ih h)

lemma filter_layOut_eq_nil {p : ℕ → Bool} (h : ∀ n, offset ≤ n → p n = false) :
    (layOut blake3 offset l).filter (fun chunk => p chunk.stop) = [] := by
  refine List.filter_eq_nil_iff.mpr fun chunk hchunk => ?_
  rw [h _ (le_stop_of_mem_layOut hchunk)]
  exact Bool.false_ne_true

end LayOut

/-! ## What the chunker makes -/

variable {blake3} {c : Chunker} {data : Bytes}

lemma layOut_of_chunksFrom {fuel offset : ℕ} {chunks : List Chunk}
    (h : c.chunksFrom blake3 data fuel offset = some chunks) :
    chunks = layOut blake3 offset (chunks.map Chunk.data) := by
  induction fuel generalizing offset chunks with
  | zero =>
    rw [chunksFrom] at h
    split at h
    · cases h
    · obtain rfl := Option.some.inj h
      rfl
  | succ fuel ih =>
    by_cases hlt : offset < data.length
    · obtain ⟨chunk, stop, hcut, hoffset, ⟨-, stop', hcut', hdata, hhash⟩, heq⟩ :=
        exists_chunksFrom_succ blake3 c data fuel hlt
      subst hoffset
      obtain rfl := hcut.unique hcut'
      obtain ⟨hstart, hstop, -, -⟩ := hcut.bounds hlt
      obtain ⟨rest, hrest, rfl⟩ := Option.map_eq_some_iff.mp (heq.symm.trans h)
      have hlength : chunk.offset + chunk.data.length = stop := by
        rw [hdata, List.length_take_of_le (by rw [List.length_drop]; omega)]
        omega
      rw [List.map_cons, layOut, hlength, ← ih hrest, ← hhash]
    · rw [chunksFrom, if_neg hlt] at h
      obtain rfl := Option.some.inj h
      rfl

/-- **The chunks of a byte string**, laid out. -/
theorem chunkBytes_eq_some_iff {chunks : List Chunk} : c.chunkBytes blake3 data = some chunks ↔
    ∃ l, Chunks c data l ∧ chunks = layOut blake3 0 l := by
  obtain ⟨chunks', hchunks', hl⟩ := chunks_of_chunkBytes blake3 c data
  have hlayOut := layOut_of_chunksFrom hchunks'
  constructor
  · intro h
    obtain rfl := Option.some.inj (hchunks'.symm.trans h)
    exact ⟨_, hl, hlayOut⟩
  · rintro ⟨l, hl', rfl⟩
    rw [hchunks', hlayOut, hl.unique hl']

/-! ## Nothing is lost -/

lemma Chunks.bounds {l : List Bytes} (h : Chunks c data l) :
    (∀ chunk ∈ l, chunk ≠ [] ∧ chunk.length ≤ c.config.maxSize) ∧
      ∀ chunk ∈ l.dropLast, c.config.minSize ≤ chunk.length := by
  induction h with
  | nil => exact ⟨nofun, nofun⟩
  | @cons data stop rest hne hcut hrest ih =>
    obtain ⟨hlt, hle, hmax, hmin⟩ := hcut.bounds (List.length_pos_iff.mpr hne)
    have hlength : (data.take stop).length = stop := List.length_take_of_le hle
    refine ⟨List.forall_mem_cons.mpr ⟨⟨fun hnil => ?_, by omega⟩, ih.1⟩, ?_⟩
    · rw [hnil, List.length_nil] at hlength
      omega
    · cases rest with
      | nil => exact nofun
      | cons next rest =>
        rw [List.dropLast_cons_cons]
        refine List.forall_mem_cons.mpr ⟨?_, ih.2⟩
        -- something follows, so the chunk does not go to the end of the data
        obtain ⟨hnext, -⟩ := hrest.of_cons
        have hpos := List.length_pos_iff.mpr hnext
        rw [List.length_drop] at hpos
        omega

/-- The chunks make up the data, lie one behind the other, and are neither empty nor too large, nor,
except for the last one, too small. -/
structure Lossless (c : Chunker) (data : Bytes) (chunks : List Chunk) : Prop where
  flatten_eq : (chunks.map Chunk.data).flatten = data
  offset_eq : ∀ before chunk after, chunks = before ++ chunk :: after →
    chunk.offset = (before.map fun chunk => chunk.data.length).sum
  ne_nil : ∀ chunk ∈ chunks, chunk.data ≠ []
  length_le : ∀ chunk ∈ chunks, chunk.data.length ≤ c.config.maxSize
  le_length : ∀ chunk ∈ chunks.dropLast, c.config.minSize ≤ chunk.data.length

variable (blake3) in
/-- **Chunking loses nothing.** It ends without an access out of range, and its chunks make up the
data and have the sizes of the configuration.

**Proof sketch.** Every chunk ends at the next cut, whose distance is bounded by the sizes unless
the data ends first. -/
theorem chunkBytes_lossless (c : Chunker) (data : Bytes) :
    ∃ chunks, c.chunkBytes blake3 data = some chunks ∧ Lossless c data chunks := by
  obtain ⟨l, hl⟩ := exists_chunks c data
  obtain ⟨hall, hfull⟩ := hl.bounds
  refine ⟨_, chunkBytes_eq_some_iff.mpr ⟨l, hl, rfl⟩, ?_, ?_, ?_, ?_, ?_⟩
  · rw [map_data_layOut, hl.flatten]
  · intro before chunk after h
    rw [offset_of_layOut h, Nat.zero_add]
  · intro chunk hchunk
    have hmem := List.mem_map_of_mem (f := Chunk.data) hchunk
    rw [map_data_layOut] at hmem
    exact (hall _ hmem).1
  · intro chunk hchunk
    have hmem := List.mem_map_of_mem (f := Chunk.data) hchunk
    rw [map_data_layOut] at hmem
    exact (hall _ hmem).2
  · intro chunk hchunk
    have hmem := List.mem_map_of_mem (f := Chunk.data) hchunk
    rw [List.map_dropLast, map_data_layOut] at hmem
    exact hfull _ hmem

/-! ## What is appended -/

section Append

variable {front back : Bytes}

/-- A cut before the end of the data stays where it is when something is appended.

**Proof sketch.** Both scans test the same hashes up to that cut, and a chunk that ends before the
data does is cut by a hash or is as large as it may be. -/
lemma NextCut.append {start stop : ℕ} (hcut : c.NextCut front start stop)
    (hstop : stop < front.length) : c.NextCut (front ++ back) start stop := by
  have hlength : (front ++ back).length = front.length + back.length := List.length_append
  have hagree : ∀ limit ≤ front.length, Agree (front ++ back) front 0 limit := by
    intro limit hlimit i hi
    rw [Nat.zero_add, List.getElem?_append_left (by omega)]
  cases hcut with
  | @content pos hash htests hzero =>
    refine .content ?_ hzero
    obtain ⟨before, hhead, hlt, -⟩ := id htests
    unfold scanLimit at hlt
    have hmax : 0 + (pos + 1) ≤ c.scanLimit (front ++ back) start := by unfold scanLimit; omega
    have htests' := tests_of_agree' (hagree (pos + 1) hstop.le) (by omega) hmax htests (by omega)
    rwa [Nat.zero_add, Nat.zero_add] at htests'
  | size hne =>
    -- the chunk is as large as it may be, in either scan
    have hlimit : c.scanLimit (front ++ back) start = c.scanLimit front start := by
      unfold scanLimit at hstop ⊢
      omega
    rw [← hlimit]
    refine .size fun pos hash htests => hne pos hash ?_
    obtain ⟨before, hhead, hlt, -⟩ := id htests
    rw [hlimit] at hlt
    unfold TestsFrom at htests
    rw [← Nat.zero_add (start + c.config.minSize), ← Nat.zero_add pos] at htests
    exact tests_of_agree (hagree _ hstop.le) hstop.le le_rfl htests (by omega)

lemma Chunks.filter_le_prefix {l l' : List Bytes} (h' : Chunks c (front ++ back) l')
    (h : Chunks c front l) (offset : ℕ) :
    (layOut blake3 offset l').filter (fun chunk => chunk.stop ≤ offset + front.length) <+:
      layOut blake3 offset l := by
  generalize hdata : front ++ back = data at h'
  induction h' generalizing front l offset with
  | nil => exact List.nil_prefix
  | @cons data stop rest' hne hcut hrest' ih =>
    subst hdata
    obtain ⟨hlt, hle, -, -⟩ := hcut.bounds (List.length_pos_iff.mpr hne)
    have hlength : ((front ++ back).take stop).length = stop := List.length_take_of_le hle
    rw [layOut, hlength]
    by_cases hstop : stop ≤ front.length
    · have hcut' := nextCut_take (s := front.length) (by simp) hcut hstop
      rw [List.take_left] at hcut'
      cases h with
      | nil =>
        rw [List.length_nil] at hstop
        omega
      | @cons _ stop' rest hne' hcut'' hrest =>
        obtain rfl := hcut'.unique hcut''
        have hrest'' := ih hrest (offset + stop) (List.drop_append_of_le_length hstop).symm
        have hend : offset + stop + (front.drop stop).length = offset + front.length := by
          rw [List.length_drop]
          omega
        rw [hend] at hrest''
        rw [layOut, List.length_take_of_le hstop, List.take_append_of_le_length hstop,
          List.filter_cons_of_pos]
        · exact List.cons_prefix_cons.mpr ⟨rfl, hrest''⟩
        · rw [decide_eq_true_iff, Chunk.stop_mk, List.length_take_of_le hstop]
          exact Nat.add_le_add_left hstop _
    · -- the first chunk ends beyond the shorter one, and so do those behind it
      rw [List.filter_cons_of_neg,
        filter_layOut_eq_nil (p := fun n => decide (n ≤ offset + front.length))]
      · exact List.nil_prefix
      · intro n hn
        rw [decide_eq_false_iff_not]
        omega
      · rw [decide_eq_true_iff, Chunk.stop_mk, hlength]
        omega

lemma Chunks.filter_lt_prefix {l l' : List Bytes} (h : Chunks c front l)
    (h' : Chunks c (front ++ back) l') (offset : ℕ) :
    (layOut blake3 offset l).filter (fun chunk => chunk.stop < offset + front.length) <+:
      layOut blake3 offset l' := by
  induction h generalizing l' offset with
  | nil => exact List.nil_prefix
  | @cons front stop rest hne hcut hrest ih =>
    obtain ⟨hlt, hle, -, -⟩ := hcut.bounds (List.length_pos_iff.mpr hne)
    have hlength : (front.take stop).length = stop := List.length_take_of_le hle
    rw [layOut, hlength]
    by_cases hstop : stop < front.length
    · have hcut' : c.NextCut (front ++ back) 0 stop := hcut.append hstop
      generalize hdata : front ++ back = data at h' hcut'
      cases h' with
      | nil => exact absurd (List.append_eq_nil_iff.mp hdata).1 hne
      | @cons _ stop' rest' hne' hcut'' hrest' =>
        subst hdata
        obtain rfl := hcut'.unique hcut''
        rw [List.drop_append_of_le_length hle] at hrest'
        have hrest'' := ih hrest' (offset + stop)
        have hend : offset + stop + (front.drop stop).length = offset + front.length := by
          rw [List.length_drop]
          omega
        rw [hend] at hrest''
        rw [layOut, List.take_append_of_le_length hle, hlength, List.filter_cons_of_pos]
        · exact List.cons_prefix_cons.mpr ⟨rfl, hrest''⟩
        · rw [decide_eq_true_iff, Chunk.stop_mk, hlength]
          omega
    · -- the first chunk is the last one too
      rw [List.filter_cons_of_neg,
        filter_layOut_eq_nil (p := fun n => decide (n < offset + front.length))]
      · exact List.nil_prefix
      · intro n hn
        rw [decide_eq_false_iff_not]
        omega
      · rw [decide_eq_true_iff, Chunk.stop_mk, hlength]
        omega

variable (blake3) in
/-- **What is appended changes no chunk that ended before.** The chunks of the longer byte string
that end within the shorter one are its first chunks, and all of its chunks that end before it does
are among them.

**Proof sketch.** By induction on the chunks: while the next cut lies within the shorter byte
string, it is the same for both. -/
theorem chunkBytes_append (c : Chunker) (front back : Bytes) : ∃ chunks chunks',
    c.chunkBytes blake3 front = some chunks ∧ c.chunkBytes blake3 (front ++ back) = some chunks' ∧
      chunks'.filter (fun chunk => chunk.stop ≤ front.length) <+: chunks ∧
      chunks.filter (fun chunk => chunk.stop < front.length) <+: chunks' := by
  obtain ⟨l, hl⟩ := exists_chunks c front
  obtain ⟨l', hl'⟩ := exists_chunks c (front ++ back)
  refine ⟨_, _, chunkBytes_eq_some_iff.mpr ⟨l, hl, rfl⟩, chunkBytes_eq_some_iff.mpr ⟨l', hl', rfl⟩,
    ?_, ?_⟩
  · simpa only [Nat.zero_add] using hl'.filter_le_prefix hl 0
  · simpa only [Nat.zero_add] using hl.filter_lt_prefix hl' 0

end Append

end Chunker

end Landropic
