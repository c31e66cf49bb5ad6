import Mathlib.Data.List.Induction
import Landropic.Chunker.Chunks

set_option autoImplicit false

/-!
# Chunking in pieces

A scan only looks at the bytes of the range it is given. So the chunks before a cut point are those
of the data up to there, and the chunks after it are those of the data from there on.

## Main definitions

* `Chunker.Chunks` — the chunks of a byte string, as a list of byte strings.

## Main results

* `Chunker.chunks_of_chunkBytes` — these are what the chunker makes.
* `Chunker.Chunks.append_iff` — the chunks of two parts are those of the whole if they meet at a cut
  point. -/

namespace Landropic

namespace Chunker

variable {c : Chunker} {data part : Bytes} {s start stop pos startPos maxPos limit : ℕ}
  {hash : BitVec 64}

/-! ## Scans of a part of the data -/

/-- Two byte strings agree from a position on, as far as a limit. -/
def Agree (data part : Bytes) (s limit : ℕ) : Prop := ∀ i < limit, part[i]? = data[s + i]?

lemma initHash_of_agree (h : Agree data part s limit) (hlimit : startPos + WINDOW_SIZE ≤ limit) :
    c.initHash part startPos = c.initHash data (s + startPos) := by
  have hfold : ∀ (is : List ℕ) (hash : BitVec 64), (∀ i ∈ is, i < WINDOW_SIZE) →
      is.foldlM (fun hash i => do
        let byte ← part[startPos + i]?
        some (hash.rotateLeft 1 + c.gear byte)) hash =
      is.foldlM (fun hash i => do
        let byte ← data[s + startPos + i]?
        some (hash.rotateLeft 1 + c.gear byte)) hash := by
    intro is
    induction is with
    | nil => exact fun _ _ => rfl
    | cons i is ih =>
      intro hash hall
      have hi := hall i List.mem_cons_self
      rw [List.foldlM_cons, List.foldlM_cons, h (startPos + i) (by omega), ← Nat.add_assoc]
      cases data[s + startPos + i]? with
      | none => rfl
      | some byte => exact ih _ fun j hj => hall j (List.mem_cons_of_mem _ hj)
  exact hfold _ _ fun i hi => List.mem_range.mp hi

lemma rollAt_of_agree (h : Agree data part s limit) (hpos : pos < limit) (hle : WINDOW_SIZE ≤ pos) :
    c.rollAt part pos hash = c.rollAt data (s + pos) hash := by
  unfold rollAt
  rw [h pos hpos, h (pos - WINDOW_SIZE) (by omega), Nat.add_sub_assoc hle]

/-- The scan of a part reaches the positions that the scan of the whole does. -/
lemma atHead_of_agree (h : Agree data part s limit) {maxPos' : ℕ} (hle : limit ≤ maxPos')
    (hpart : limit ≤ part.length) {pos' : ℕ}
    (hhead : c.AtHead data (s + startPos) maxPos pos' hash) (hpos : pos' = s + pos)
    (hlimit : pos ≤ limit) (hstart : startPos < limit) :
    c.AtHead part startPos maxPos' pos hash := by
  induction hhead generalizing pos with
  | start _ _ _ _ hinit =>
    obtain rfl : pos = startPos + WINDOW_SIZE := by omega
    exact .start (by omega) (by omega) (by omega) (by omega)
      ((initHash_of_agree h (by omega)).trans hinit)
  | @next pos'' hash hash' hhead hlt hroll hne ih =>
    have hwindow := le_of_atHead hhead
    obtain ⟨q, rfl⟩ : ∃ q, pos'' = s + q := ⟨pos'' - s, by omega⟩
    obtain rfl : pos = q + 1 := by omega
    exact .next (ih rfl (by omega)) (by omega)
      ((rollAt_of_agree h (by omega) (by omega)).trans hroll) hne

/-- The scan of the whole reaches the positions that the scan of a part does. -/
lemma atHead_of_agree' (h : Agree data part s limit) {maxPos' : ℕ}
    (hdata : s + limit ≤ data.length) (hmax : s + limit ≤ maxPos')
    (hhead : c.AtHead part startPos maxPos pos hash) (hlimit : pos ≤ limit)
    (hstart : startPos < limit) : c.AtHead data (s + startPos) maxPos' (s + pos) hash := by
  induction hhead with
  | start _ _ _ _ hinit =>
    rw [← Nat.add_assoc]
    exact .start (by omega) (by omega) (by omega) (by omega)
      ((initHash_of_agree h (by omega)).symm.trans hinit)
  | @next pos hash hash' hhead hlt hroll hne ih =>
    have hwindow := le_of_atHead hhead
    show c.AtHead data (s + startPos) maxPos' (s + pos + 1) hash'
    exact .next (ih (by omega)) (by omega)
      ((rollAt_of_agree h (by omega) (by omega)).symm.trans hroll) hne

lemma tests_of_agree (h : Agree data part s limit) {maxPos' : ℕ}
    (hpart : limit ≤ part.length) (hmax : limit ≤ maxPos')
    (htests : c.Tests data (s + startPos) maxPos (s + pos) hash) (hpos : pos < limit) :
    c.Tests part startPos maxPos' pos hash := by
  obtain ⟨before, hhead, -, hroll⟩ := htests
  have hwindow := le_of_atHead hhead
  exact ⟨before, atHead_of_agree h hmax hpart hhead rfl hpos.le (by omega), by omega,
    (rollAt_of_agree h hpos (by omega)).trans hroll⟩

lemma tests_of_agree' (h : Agree data part s limit) {maxPos' : ℕ}
    (hdata : s + limit ≤ data.length) (hmax : s + limit ≤ maxPos')
    (htests : c.Tests part startPos maxPos pos hash) (hpos : pos < limit) :
    c.Tests data (s + startPos) maxPos' (s + pos) hash := by
  obtain ⟨before, hhead, -, hroll⟩ := htests
  have hwindow := le_of_atHead hhead
  exact ⟨before, atHead_of_agree' h hdata hmax hhead hpos.le (by omega), by omega,
    (rollAt_of_agree h hpos (by omega)).symm.trans hroll⟩

/-- **The next cut of a part** is that of the whole, if the part goes as far. -/
theorem nextCut_of_agree (h : Agree data part s part.length) (hdata : s + part.length ≤ data.length)
    (hcut : c.NextCut data (s + start) (s + stop)) (hstop : stop ≤ part.length) :
    c.NextCut part start stop := by
  generalize hend : s + stop = stop' at hcut
  cases hcut with
  | @content pos hash htests hzero =>
    obtain ⟨before, hhead, hlt, -⟩ := id htests
    have hwindow := le_of_atHead hhead
    obtain ⟨q, rfl⟩ : ∃ q, pos = s + q := ⟨pos - s, by omega⟩
    obtain rfl : stop = q + 1 := by omega
    unfold scanLimit at hlt
    refine .content ?_ hzero
    unfold TestsFrom at htests ⊢
    rw [Nat.add_assoc] at htests
    have hagree : Agree data part s (min (start + c.config.maxSize) part.length) :=
      fun i hi => h i (by omega)
    exact tests_of_agree hagree (by omega) le_rfl htests (by omega)
  | size hne =>
    have hlimit : stop = c.scanLimit part start := by
      unfold scanLimit at hend ⊢
      omega
    rw [hlimit]
    refine .size fun pos hash htests => ?_
    obtain ⟨before, hhead, hlt, -⟩ := id htests
    have hwindow := le_of_atHead hhead
    unfold scanLimit at hlt hend hlimit
    refine hne (s + pos) hash ?_
    unfold TestsFrom at htests ⊢
    rw [Nat.add_assoc]
    have hagree : Agree data part s stop := fun i hi => h i (by omega)
    refine tests_of_agree' hagree (by omega) ?_ htests (by omega)
    unfold scanLimit
    omega

lemma agree_drop (data : Bytes) (s limit : ℕ) : Agree data (data.drop s) s limit :=
  fun _ _ => List.getElem?_drop

/-- The cuts after a position are those of the rest of the data. -/
theorem nextCut_drop_iff (hs : s ≤ data.length) (hstart : s + start < data.length) :
    c.NextCut (data.drop s) start stop ↔ c.NextCut data (s + start) (s + stop) := by
  have hlength : (data.drop s).length = data.length - s := List.length_drop
  have hfrom : ∀ stop, c.NextCut data (s + start) (s + stop) →
      c.NextCut (data.drop s) start stop := by
    intro stop hcut
    obtain ⟨-, hle, -, -⟩ := hcut.bounds hstart
    have hagree : Agree data (data.drop s) s (data.drop s).length := agree_drop data s _
    exact nextCut_of_agree hagree (by omega) hcut (by omega)
  refine ⟨fun hcut => ?_, hfrom stop⟩
  -- the whole data has a next cut, and the rest of it has no other one
  obtain ⟨end', hend⟩ := exists_chunkEnd c data (s + start)
  have hnext := (chunkEnd_eq_some_iff hstart).mp hend
  obtain ⟨hlt, -, -, -⟩ := hnext.bounds hstart
  obtain ⟨stop', rfl⟩ : ∃ stop', end' = s + stop' := ⟨end' - s, by omega⟩
  rwa [hcut.unique (hfrom stop' hnext)]

lemma nextCut_take (hs : s ≤ data.length) (hcut : c.NextCut data start stop) (hstop : stop ≤ s) :
    c.NextCut (data.take s) start stop := by
  have hlength : (data.take s).length = s := List.length_take_of_le hs
  have hagree : Agree data (data.take s) 0 (data.take s).length := by
    intro i hi
    rw [Nat.zero_add, List.getElem?_take_of_lt (by omega)]
  refine nextCut_of_agree hagree (by omega) ?_ (by omega)
  rwa [Nat.zero_add, Nat.zero_add]

/-! ## The chunks as byte strings -/

/-- The chunks of a byte string. -/
inductive Chunks (c : Chunker) : Bytes → List Bytes → Prop
  | nil : Chunks c [] []
  | cons {data : Bytes} {stop : ℕ} {rest : List Bytes} : data ≠ [] → c.NextCut data 0 stop →
      Chunks c (data.drop stop) rest → Chunks c data (data.take stop :: rest)

lemma Chunks.unique {l₁ l₂ : List Bytes} (h₁ : Chunks c data l₁) (h₂ : Chunks c data l₂) :
    l₁ = l₂ := by
  induction h₁ generalizing l₂ with
  | nil =>
    cases h₂ with
    | nil => rfl
    | cons hne => exact absurd rfl hne
  | cons hne hcut _ ih =>
    cases h₂ with
    | nil => exact absurd rfl hne
    | cons _ hcut' hrest =>
      obtain rfl := hcut.unique hcut'
      rw [ih hrest]

lemma Chunks.of_cons {chunk : Bytes} {rest : List Bytes} (h : Chunks c data (chunk :: rest)) :
    data ≠ [] ∧ ∃ stop, c.NextCut data 0 stop ∧ chunk = data.take stop ∧
      Chunks c (data.drop stop) rest := by
  cases h with
  | cons hne hcut hrest => exact ⟨hne, _, hcut, rfl, hrest⟩

lemma Chunks.flatten {l : List Bytes} (h : Chunks c data l) : l.flatten = data := by
  induction h with
  | nil => rfl
  | cons _ _ _ ih => rw [List.flatten_cons, ih, List.take_append_drop]

lemma chunks_of_chunksFrom (blake3 : Bytes → ContentHash) {fuel offset : ℕ} {chunks : List Chunk}
    (hle : offset ≤ data.length) (h : c.chunksFrom blake3 data fuel offset = some chunks) :
    Chunks c (data.drop offset) (chunks.map Chunk.data) := by
  induction fuel generalizing offset chunks with
  | zero =>
    rw [chunksFrom] at h
    split at h
    · cases h
    · next hend =>
      obtain rfl := Option.some.inj h
      rw [List.drop_eq_nil_of_le (by omega)]
      exact .nil
  | succ fuel ih =>
    by_cases hlt : offset < data.length
    · obtain ⟨chunk, stop, hcut, rfl, ⟨-, stop', hcut', hdata, -⟩, heq⟩ :=
        exists_chunksFrom_succ blake3 c data fuel hlt
      obtain rfl := hcut.unique hcut'
      obtain ⟨hstart, hstop, -, -⟩ := hcut.bounds hlt
      obtain ⟨rest, hrest, rfl⟩ := Option.map_eq_some_iff.mp (heq.symm.trans h)
      obtain ⟨n, rfl⟩ : ∃ n, stop = chunk.offset + n := ⟨stop - chunk.offset, by omega⟩
      have hcut₀ : c.NextCut (data.drop chunk.offset) 0 n :=
        (nextCut_drop_iff hle (by omega)).mpr hcut
      have hchunks := ih hstop hrest
      rw [← List.drop_drop] at hchunks
      rw [List.map_cons, hdata, Nat.add_sub_cancel_left]
      refine .cons (fun hnil => ?_) hcut₀ hchunks
      have hlength := congrArg List.length hnil
      rw [List.length_drop, List.length_nil] at hlength
      omega
    · rw [chunksFrom, if_neg hlt] at h
      obtain rfl := Option.some.inj h
      rw [List.drop_eq_nil_of_le (by omega)]
      exact .nil

/-- **These are what the chunker makes.** -/
theorem chunks_of_chunkBytes (blake3 : Bytes → ContentHash) (c : Chunker) (data : Bytes) :
    ∃ chunks, c.chunkBytes blake3 data = some chunks ∧ Chunks c data (chunks.map Chunk.data) := by
  obtain ⟨chunks, hchunks, -⟩ := exists_chunkBytes blake3 c data
  refine ⟨chunks, hchunks, ?_⟩
  have hfrom := chunks_of_chunksFrom blake3 (Nat.zero_le _) hchunks
  rwa [List.drop_zero] at hfrom

/-! ## Seams -/

lemma Chunks.split {l₁ l₂ : List Bytes} (h : Chunks c data (l₁ ++ l₂)) :
    Chunks c (data.take l₁.flatten.length) l₁ ∧ Chunks c (data.drop l₁.flatten.length) l₂ := by
  induction l₁ generalizing data with
  | nil => exact ⟨.nil, h⟩
  | cons chunk l₁ ih =>
    rw [List.cons_append] at h
    cases h with
    | @cons _ stop _ hne hcut hrest =>
      have hpos := List.length_pos_iff.mpr hne
      obtain ⟨hlt, hle, -, -⟩ := hcut.bounds hpos
      obtain ⟨hfirst, hsecond⟩ := ih hrest
      have hwhole := hrest.flatten
      have hlength : (data.take stop).length = stop := List.length_take_of_le hle
      have htotal : stop + l₁.flatten.length ≤ data.length := by
        have := congrArg List.length hwhole
        rw [List.flatten_append, List.length_append, List.length_drop] at this
        omega
      rw [List.flatten_cons, List.length_append, hlength]
      constructor
      · have hcut' := nextCut_take htotal hcut (Nat.le_add_right ..)
        have hfirst' : Chunks c ((data.take (stop + l₁.flatten.length)).drop stop) l₁ := by
          rwa [List.drop_take, Nat.add_sub_cancel_left]
        have hcons := Chunks.cons (fun hnil => hne ?_) hcut' hfirst'
        · rwa [List.take_take, Nat.min_eq_left (Nat.le_add_right ..)] at hcons
        · rw [List.take_eq_nil_iff] at hnil
          exact hnil.resolve_left (by omega)
      · rwa [← List.drop_drop]

/-- **The cut points are the ends of chunks.** -/
theorem Chunks.cutPoint_iff {l : List Bytes} (h : Chunks c data l) :
    c.CutPoint data s ↔ ∃ l₁ l₂, l = l₁ ++ l₂ ∧ s = l₁.flatten.length := by
  constructor
  · intro hcut
    induction hcut with
    | start => exact ⟨[], l, rfl, rfl⟩
    | @next start stop _ hlt hnext ih =>
      obtain ⟨l₁, l₂, rfl, rfl⟩ := ih
      have hrest := h.split.2
      cases hl : l₂ with
      | nil =>
        rw [hl, List.append_nil] at h
        rw [h.flatten] at hlt
        omega
      | cons chunk l₂' =>
        rw [hl] at hrest
        obtain ⟨hne, n, hcut, rfl, -⟩ := hrest.of_cons
        have hcut' := (nextCut_drop_iff hlt.le (by omega)).mp hcut
        rw [Nat.add_zero] at hcut'
        obtain rfl := hnext.unique hcut'
        obtain ⟨-, hle, -, -⟩ := hnext.bounds hlt
        refine ⟨l₁ ++ [(data.drop l₁.flatten.length).take n], l₂', by simp, ?_⟩
        rw [List.flatten_append, List.length_append, List.flatten_singleton,
          List.length_take_of_le (by rw [List.length_drop]; omega)]
  · rintro ⟨l₁, l₂, rfl, rfl⟩
    induction l₁ using List.reverseRecOn generalizing l₂ with
    | nil => exact .start
    | append_singleton l₁ chunk ih =>
      rw [List.append_assoc] at h
      have hprev := ih _ h
      have hrest := h.split.2
      obtain ⟨hne, n, hcut, rfl, -⟩ := hrest.of_cons
      have hlt : l₁.flatten.length < data.length := by
        have := List.length_pos_iff.mpr hne
        rw [List.length_drop] at this
        omega
      have hcut' := (nextCut_drop_iff hlt.le (by omega)).mp hcut
      rw [Nat.add_zero] at hcut'
      obtain ⟨-, hle, -, -⟩ := hcut'.bounds hlt
      rw [List.flatten_append, List.length_append, List.flatten_singleton,
        List.length_take_of_le (by rw [List.length_drop]; omega)]
      exact .next hprev hlt hcut'

lemma exists_chunks (c : Chunker) (data : Bytes) : ∃ l, Chunks c data l := by
  obtain ⟨chunks, -, h⟩ := chunks_of_chunkBytes ContentHash.blake3Sample c data
  exact ⟨_, h⟩

/-- **The chunks of two parts are those of the whole** if the parts meet at a cut point. -/
theorem Chunks.append_iff {a b : Bytes} {l₁ l₂ : List Bytes} (h₁ : Chunks c a l₁) :
    Chunks c (a ++ b) (l₁ ++ l₂) ↔ c.CutPoint (a ++ b) a.length ∧ Chunks c b l₂ := by
  constructor
  · intro h
    have hlength : l₁.flatten.length = a.length := by rw [h₁.flatten]
    refine ⟨h.cutPoint_iff.mpr ⟨l₁, l₂, rfl, hlength.symm⟩, ?_⟩
    have hrest := h.split.2
    rwa [hlength, List.drop_left] at hrest
  · rintro ⟨hcut, h₂⟩
    obtain ⟨l, hl⟩ := exists_chunks c (a ++ b)
    obtain ⟨m₁, m₂, rfl, hlength⟩ := hl.cutPoint_iff.mp hcut
    obtain ⟨hfirst, hsecond⟩ := hl.split
    rw [← hlength, List.take_left] at hfirst
    rw [← hlength, List.drop_left] at hsecond
    rwa [h₁.unique hfirst, h₂.unique hsecond]

/-- The cut points after one of them are those of the rest of the data. -/
theorem cutPoint_add_iff (hcut : c.CutPoint data s) {n : ℕ} :
    c.CutPoint data (s + n) ↔ c.CutPoint (data.drop s) n := by
  obtain ⟨l, hl⟩ := exists_chunks c data
  obtain ⟨l₁, l₂, rfl, rfl⟩ := hl.cutPoint_iff.mp hcut
  rw [hl.cutPoint_iff, hl.split.2.cutPoint_iff]
  constructor
  · rintro ⟨m₁, m₂, heq, hlength⟩
    obtain ⟨a, rfl, rfl⟩ | ⟨a, rfl, rfl⟩ := List.append_eq_append_iff.mp heq
    · rw [List.flatten_append, List.length_append] at hlength
      exact ⟨a, m₂, rfl, by omega⟩
    · rw [List.flatten_append, List.length_append] at hlength
      exact ⟨[], l₂, rfl, by rw [List.flatten_nil, List.length_nil]; omega⟩
  · rintro ⟨a, b, rfl, rfl⟩
    exact ⟨l₁ ++ a, b, by simp, by simp⟩

end Chunker

end Landropic
