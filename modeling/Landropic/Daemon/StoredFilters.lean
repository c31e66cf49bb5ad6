import Landropic.Daemon.BloomDiff

set_option autoImplicit false

/-!
# Bloom filters as they are stored

A filter stores its bits in bytes, and next to them their number, from which the position of a bit
is calculated. Nothing but the constructor relates the two, and it rounds the number of bits up to
bytes with an addition that may wrap around.

## Main definitions

* `Daemon.StoredFilter` — a filter.
* `Daemon.StoredFilter.new`, `add`, `contains` — its calls, with their panics.
* `Daemon.StoredFilter.view` — the filter as a list of bits.
* `Daemon.StoredFilter.Reliable` — a filter contains what has been added to it, and no call looks at
  a byte that is not there.

## Main results

* `Daemon.StoredFilter.contains_eq` — looking up does what it does with lists of bits.
* `Daemon.StoredFilter.reliable_iff` — which new filters are reliable.

## Design

The items are texts. The optimal sizes are calculated with `f64` logarithms and a parameter
(`BloomSizes`), of which only that there is a hash function is assumed; so is the hash function.
-/

namespace Landropic.Daemon

/-- What a calculation panics with. -/
inductive Panic
  | divisionByZero
  | outOfRange
  | overflow
  deriving DecidableEq

/-- What the floating-point numbers give for the sizes of a filter. -/
structure BloomSizes (Rate : Type) where
  optimalNumBits : UInt64 → Rate → UInt64
  optimalNumHashes : UInt64 → UInt64 → UInt64
  /-- There is at least one hash function. -/
  optimalNumHashes_pos : ∀ m n, 0 < optimalNumHashes m n

/-- A hash function for filters, by the seed. -/
abbrev ItemHash := UInt64 → Text → UInt64

/-- Bloom filter implementation for probabilistic set membership testing. -/
structure StoredFilter where
  bits : List UInt8
  numBits : UInt64
  numHashes : UInt64
  numElements : UInt64
  deriving DecidableEq

namespace StoredFilter

/-- Create a new Bloom filter with optimal parameters. -/
def new {Rate : Type} (sizes : BloomSizes Rate) (overflowChecks : Bool) (expectedElements : UInt64)
    (falsePositiveRate : Rate) : Except Panic StoredFilter :=
  let numBits := sizes.optimalNumBits expectedElements falsePositiveRate
  let numHashes := sizes.optimalNumHashes numBits expectedElements
  if overflowChecks ∧ 2 ^ 64 ≤ numBits.toNat + 7 then .error .overflow
  else
    let byteSize := (numBits + 7) / 8
    .ok { bits := List.replicate byteSize.toNat 0
          numBits := numBits
          numHashes := numHashes
          numElements := 0 }

section Calls

variable (hash : ItemHash) (filter : StoredFilter) (item : Text)

/-- The position of the bit for a seed. -/
def position (i : ℕ) : UInt64 := hash (.ofNat i) item % filter.numBits

/-- The same, if there are bits. -/
def bitPos (i : ℕ) : Except Panic UInt64 :=
  if filter.numBits = 0 then .error .divisionByZero else .ok (filter.position hash item i)

/-- The index of the byte with a bit. -/
def bytePos (bitPos : UInt64) : ℕ := (bitPos / 8).toNat

/-- A bit in its byte. -/
def mask (bitPos : UInt64) : UInt8 := 1 <<< UInt8.ofNat (bitPos.toNat % 8)

/-- Index into the bytes. -/
def byteAt (bits : List UInt8) (bitPos : UInt64) : Except Panic UInt8 :=
  match bits[bytePos bitPos]? with
  | some byte => .ok byte
  | none => .error .outOfRange

/-- Set the bit for a seed. -/
def setBit (bits : List UInt8) (i : ℕ) : Except Panic (List UInt8) := do
  let pos ← filter.bitPos hash item i
  let byte ← byteAt bits pos
  pure (bits.set (bytePos pos) (byte ||| mask pos))

/-- Add an element to the filter. -/
def add (overflowChecks : Bool) : Except Panic StoredFilter := do
  let bits ← (List.range filter.numHashes.toNat).foldlM (filter.setBit hash item) filter.bits
  if overflowChecks ∧ 2 ^ 64 ≤ filter.numElements.toNat + 1 then .error .overflow
  else pure { filter with bits := bits, numElements := filter.numElements + 1 }

/-- Test the bits for some seeds, until one is not set. -/
def testBits : List ℕ → Except Panic Bool
  | [] => .ok true
  | i :: rest => do
    let pos ← filter.bitPos hash item i
    let byte ← byteAt filter.bits pos
    if byte &&& mask pos = 0 then .ok false else testBits rest

/-- Test if an element might be in the set. -/
def contains : Except Panic Bool := filter.testBits hash item (List.range filter.numHashes.toNat)

/-- Add some elements, one after the other. -/
def addAll (overflowChecks : Bool) (items : List Text) : Except Panic StoredFilter :=
  items.foldlM (fun filter item => filter.add hash item overflowChecks) filter

end Calls

/-! ## The bits -/

/-- A bit of some bytes, which is not set if there is no such byte. -/
def isSet (bits : List UInt8) (bitPos : UInt64) : Bool :=
  bits.getD (bytePos bitPos) 0 &&& mask bitPos ≠ 0

section Bits

variable {bits : List UInt8} {byte : UInt8} {pos other : UInt64}

lemma byteAt_eq_ok : byteAt bits pos = .ok byte ↔ bits[bytePos pos]? = some byte := by
  rw [byteAt]
  split
  · next b hb => rw [hb, Except.ok.injEq, Option.some.injEq]
  · next hnone => rw [hnone]; simp

lemma byteAt_of_le (h : bits.length ≤ bytePos pos) : byteAt bits pos = .error .outOfRange := by
  rw [byteAt, List.getElem?_eq_none h]

lemma byteAt_of_lt (h : bytePos pos < bits.length) :
    byteAt bits pos = .ok (bits.getD (bytePos pos) 0) := by
  rw [byteAt_eq_ok, List.getD_eq_getElem?_getD, List.getElem?_eq_getElem h]
  rfl

lemma or_mask_and_mask_ne_zero (byte : UInt8) {i j : ℕ} (hi : i < 8) (hj : j < 8) :
    (byte ||| 1 <<< UInt8.ofNat i) &&& 1 <<< UInt8.ofNat j ≠ 0 ↔
      byte &&& 1 <<< UInt8.ofNat j ≠ 0 ∨ i = j := by
  have hmasks : ∀ i < 8, ∀ j < 8,
      (1 : UInt8) <<< UInt8.ofNat i &&& 1 <<< UInt8.ofNat j ≠ 0 ↔ i = j := by decide
  have hor (a b : UInt8) : a ||| b ≠ 0 ↔ a ≠ 0 ∨ b ≠ 0 := by
    rw [Ne, UInt8.or_eq_zero_iff, not_and_or]
  have hand (a b c : UInt8) : (a ||| b) &&& c = a &&& c ||| b &&& c :=
    UInt8.toBitVec_inj.mp BitVec.and_or_distrib_right
  rw [hand, hor, hmasks i hi j hj]

/-- **Setting a bit** leaves all others as they are. -/
lemma isSet_set (h : bytePos pos < bits.length) :
    isSet (bits.set (bytePos pos) (bits.getD (bytePos pos) 0 ||| mask pos)) other = true ↔
      isSet bits other = true ∨ pos = other := by
  have hpos := Nat.div_add_mod pos.toNat 8
  have hother := Nat.div_add_mod other.toNat 8
  have hpos8 : bytePos pos = pos.toNat / 8 := UInt64.toNat_div ..
  have hother8 : bytePos other = other.toNat / 8 := UInt64.toNat_div ..
  rw [isSet, isSet, decide_eq_true_eq, decide_eq_true_eq]
  by_cases hbyte : bytePos pos = bytePos other
  · have hsame : pos = other ↔ pos.toNat % 8 = other.toNat % 8 := by
      rw [← UInt64.toNat_inj]
      omega
    rw [hsame, ← hbyte, List.getD_eq_getElem?_getD, List.getElem?_set_self h, Option.getD_some]
    exact or_mask_and_mask_ne_zero _ (Nat.mod_lt _ (by omega)) (Nat.mod_lt _ (by omega))
  · have hne : pos ≠ other := fun hsame => hbyte (congrArg bytePos hsame)
    rw [List.getD_eq_getElem?_getD, List.getElem?_set_ne hbyte, ← List.getD_eq_getElem?_getD]
    simp [hne]

end Bits

/-! ## Calls within range -/

/-- A filter has bits, and bytes for all of them. -/
structure Sound (filter : StoredFilter) : Prop where
  pos : filter.numBits ≠ 0
  le : filter.numBits.toNat ≤ 8 * filter.bits.length

section Sound

variable {hash : ItemHash} {filter filter' : StoredFilter} {item : Text} {overflowChecks : Bool}
  {bits : List UInt8}

lemma Sound.bytePos_lt (h : filter.Sound) (hash : ItemHash) (item : Text) (i : ℕ) :
    bytePos (filter.position hash item i) < filter.bits.length := by
  have hpos : 0 < filter.numBits.toNat := by
    have hne := h.pos
    rw [Ne, ← UInt64.toNat_inj] at hne
    exact Nat.pos_of_ne_zero hne
  have hlt : (filter.position hash item i).toNat < filter.numBits.toNat := by
    rw [position, UInt64.toNat_mod]
    exact Nat.mod_lt _ hpos
  have hle := h.le
  rw [show bytePos (filter.position hash item i) = (filter.position hash item i).toNat / 8 from
    UInt64.toNat_div ..]
  omega

/-- Setting the bits for some seeds. -/
lemma exists_foldlM_setBit (h : filter.Sound) (hlen : bits.length = filter.bits.length)
    (seeds : List ℕ) :
    ∃ bits', seeds.foldlM (filter.setBit hash item) bits = .ok bits' ∧
      bits'.length = filter.bits.length ∧
      ∀ other, isSet bits' other = true ↔
        isSet bits other = true ∨ other ∈ seeds.map (filter.position hash item) := by
  induction seeds generalizing bits with
  | nil => exact ⟨bits, rfl, hlen, by simp⟩
  | cons i seeds ih =>
    have hlt := h.bytePos_lt hash item i
    rw [← hlen] at hlt
    have hset : filter.setBit hash item bits i = .ok (bits.set
        (bytePos (filter.position hash item i)) (bits.getD (bytePos (filter.position hash item i)) 0
          ||| mask (filter.position hash item i))) := by
      rw [setBit, bitPos, if_neg h.pos, Except.ok_bind, byteAt_of_lt hlt]
      rfl
    obtain ⟨bits', hfold, hlen', hbits'⟩ := ih (List.length_set.trans hlen)
    refine ⟨bits', ?_, hlen', fun other => ?_⟩
    · rw [List.foldlM_cons, hset]
      exact hfold
    · rw [hbits', isSet_set hlt, List.map_cons, List.mem_cons, or_assoc,
        eq_comm (b := filter.position hash item i)]

/-- **Adding an element** sets its bits, unless the number of elements overflows. -/
lemma Sound.add_cases (h : filter.Sound) (hash : ItemHash) (item : Text) (overflowChecks : Bool) :
    filter.add hash item overflowChecks = .error .overflow ∨
    ∃ filter', filter.add hash item overflowChecks = .ok filter' ∧ filter'.Sound ∧
      filter'.numBits = filter.numBits ∧ filter'.numHashes = filter.numHashes ∧
      filter'.bits.length = filter.bits.length ∧
      ∀ other, isSet filter'.bits other = true ↔ isSet filter.bits other = true ∨
        other ∈ (List.range filter.numHashes.toNat).map (filter.position hash item) := by
  obtain ⟨bits', hfold, hlen, hbits⟩ : ∃ bits', (List.range filter.numHashes.toNat).foldlM
      (filter.setBit hash item) filter.bits = .ok bits' ∧ _ := exists_foldlM_setBit h rfl _
  rw [add, hfold, Except.ok_bind]
  split
  · exact .inl rfl
  · exact .inr ⟨_, rfl, ⟨h.pos, h.le.trans_eq (congrArg (8 * ·) hlen.symm)⟩, rfl, rfl, hlen, hbits⟩

/-- **Testing bits** of a filter that has bytes for them. -/
lemma Sound.testBits_eq (h : filter.Sound) (hash : ItemHash) (item : Text) (seeds : List ℕ) :
    filter.testBits hash item seeds =
      .ok (seeds.all fun i => isSet filter.bits (filter.position hash item i)) := by
  induction seeds with
  | nil => rfl
  | cons i seeds ih =>
    rw [testBits, bitPos, if_neg h.pos, Except.ok_bind, byteAt_of_lt (h.bytePos_lt hash item i),
      Except.ok_bind, ih, List.all_cons]
    split
    · next hzero => rw [show isSet _ _ = false from decide_eq_false (not_not.mpr hzero)]; rfl
    · next hne => rw [show isSet _ _ = true from decide_eq_true hne]; rfl

end Sound

/-! ## The filter as a list of bits -/

/-- The hash function of some filters, whose values are numbers of any size there. -/
def Hashes (hash : ItemHash) (hashing : BloomHashing) : Prop :=
  ∀ i item, hashing.hash i item = (hash (.ofNat i) item).toNat

/-- The filter with the bits of all bytes, one after the other. -/
def view (filter : StoredFilter) : BloomFilter where
  bits := (List.range (8 * filter.bits.length)).map fun pos => isSet filter.bits (.ofNat pos)
  numBits := filter.numBits.toNat
  numHashes := filter.numHashes.toNat
  numElements := filter.numElements.toNat

section View

variable {hash : ItemHash} {hashing : BloomHashing} {filter filter' : StoredFilter} {item : Text}
  {overflowChecks : Bool}

@[simp] lemma length_bits_view : filter.view.bits.length = 8 * filter.bits.length := by simp [view]

lemma getD_view {pos : UInt64} (h : bytePos pos < filter.bits.length) :
    filter.view.bits.getD pos.toNat false = isSet filter.bits pos := by
  have hdiv : bytePos pos = pos.toNat / 8 := UInt64.toNat_div ..
  have hlt : pos.toNat < 8 * filter.bits.length := by omega
  rw [view, List.getD_eq_getElem?_getD, List.getElem?_map, List.getElem?_range hlt, Option.map_some,
    Option.getD_some, UInt64.ofNat_toNat]

lemma positions_view (hhash : Hashes hash hashing) : filter.view.positions hashing item =
    (List.range filter.numHashes.toNat).map fun i => (filter.position hash item i).toNat := by
  refine List.map_congr_left fun i _ => ?_
  rw [hhash, position, UInt64.toNat_mod]
  rfl

/-- **What a filter contains** if the call does not panic. -/
theorem contains_eq (hhash : Hashes hash hashing) {found : Bool}
    (h : filter.contains hash item = .ok found) : filter.view.contains hashing item = found := by
  have hall (seeds : List ℕ) (hseeds : filter.testBits hash item seeds = .ok found) :
      (seeds.map fun i => (filter.position hash item i).toNat).all
        (fun pos => filter.view.bits.getD pos false) = found := by
    induction seeds with
    | nil => exact Except.ok.inj hseeds
    | cons i seeds ih =>
      rw [testBits] at hseeds
      obtain ⟨pos, hpos, hseeds⟩ := Except.bind_eq_ok.mp hseeds
      obtain ⟨byte, hbyte, hseeds⟩ := Except.bind_eq_ok.mp hseeds
      rw [bitPos] at hpos
      split_ifs at hpos with hzero
      obtain rfl := Except.ok.inj hpos
      rw [byteAt_eq_ok] at hbyte
      obtain ⟨hlt, hget⟩ := List.getElem?_eq_some_iff.mp hbyte
      have hset : isSet filter.bits (filter.position hash item i) =
          decide (byte &&& mask (filter.position hash item i) ≠ 0) := by
        rw [isSet, List.getD_eq_getElem?_getD, hbyte]
        rfl
      rw [List.map_cons, List.all_cons, getD_view hlt, hset]
      split_ifs at hseeds with hclear
      · rw [decide_eq_false (not_not.mpr hclear), Bool.false_and]
        exact Except.ok.inj hseeds
      · rw [decide_eq_true hclear, Bool.true_and]
        exact ih hseeds
  rw [BloomFilter.contains, positions_view hhash]
  exact hall _ h

end View

/-! ## What has been added is contained -/

/-- A filter contains what has been added to it by calls that succeed, and no call indexes outside
of its bytes. -/
def Reliable (hash : ItemHash) (overflowChecks : Bool) (filter : StoredFilter) : Prop :=
  ∀ items, filter.addAll hash overflowChecks items ≠ .error .outOfRange ∧
    ∀ filter', filter.addAll hash overflowChecks items = .ok filter' → ∀ item,
      filter'.contains hash item ≠ .error .outOfRange ∧
        (item ∈ items → filter'.contains hash item = .ok true)

section Reliable

variable {hash : ItemHash} {overflowChecks : Bool} {filter : StoredFilter}

lemma Sound.contains_iff (h : filter.Sound) {item : Text} :
    filter.contains hash item = .ok true ↔
      ∀ i < filter.numHashes.toNat, isSet filter.bits (filter.position hash item i) = true := by
  rw [contains, h.testBits_eq, Except.ok.injEq, List.all_eq_true]
  simp

/-- **Adding elements** one after the other: those that were contained still are, and the new ones.

**Proof sketch.** Adding an element sets its bits and clears none. -/
lemma Sound.addAll_cases (h : filter.Sound) (hash : ItemHash) (overflowChecks : Bool)
    (items : List Text) :
    filter.addAll hash overflowChecks items = .error .overflow ∨
    ∃ filter', filter.addAll hash overflowChecks items = .ok filter' ∧ filter'.Sound ∧
      ∀ item, item ∈ items ∨ filter.contains hash item = .ok true →
        filter'.contains hash item = .ok true := by
  induction items generalizing filter with
  | nil => exact .inr ⟨filter, rfl, h, fun item hitem => hitem.resolve_left List.not_mem_nil⟩
  | cons added items ih =>
    obtain hover | ⟨filter₁, hadd, hsound, hnumBits, hnumHashes, -, hbits⟩ :=
      h.add_cases hash added overflowChecks
    · refine .inl ?_
      rw [addAll, List.foldlM_cons, hover]
      rfl
    have hposition (item : Text) (i : ℕ) :
        filter₁.position hash item i = filter.position hash item i := by
      rw [position, position, hnumBits]
    have hkeep (item : Text) (hitem : item = added ∨ filter.contains hash item = .ok true) :
        filter₁.contains hash item = .ok true := by
      rw [hsound.contains_iff, hnumHashes]
      intro i hi
      rw [hposition, hbits]
      obtain rfl | hold := hitem
      · exact .inr (List.mem_map_of_mem (List.mem_range.mpr hi))
      · exact .inl (h.contains_iff.mp hold i hi)
    have hstep : filter.addAll hash overflowChecks (added :: items) =
        filter₁.addAll hash overflowChecks items := by
      rw [addAll, List.foldlM_cons, hadd]
      rfl
    rw [hstep]
    obtain hover | ⟨filter', hok, hsound', hall⟩ := ih hsound
    · exact .inl hover
    · refine .inr ⟨filter', hok, hsound', fun item hitem => hall item ?_⟩
      rw [List.mem_cons, or_assoc] at hitem
      obtain rfl | hitem | hold := hitem
      · exact .inr (hkeep item (.inl rfl))
      · exact .inl hitem
      · exact .inr (hkeep item (.inr hold))

lemma Sound.reliable (h : filter.Sound) (hash : ItemHash) (overflowChecks : Bool) :
    filter.Reliable hash overflowChecks := by
  intro items
  obtain hover | ⟨filter', hok, hsound, hall⟩ := h.addAll_cases hash overflowChecks items
  · rw [hover]
    exact ⟨by simp, nofun⟩
  · rw [hok]
    refine ⟨nofun, ?_⟩
    rintro _ ⟨⟩ item
    refine ⟨?_, fun hitem => hall item (.inl hitem)⟩
    rw [contains, hsound.testBits_eq]
    exact nofun

lemma not_reliable_of_nil (hnil : filter.bits = []) (hbits : filter.numBits ≠ 0)
    (hhashes : 0 < filter.numHashes) : ¬ filter.Reliable hash overflowChecks := by
  intro h
  refine (h [[]]).1 ?_
  obtain ⟨n, hn⟩ : ∃ n, filter.numHashes.toNat = n + 1 :=
    Nat.exists_eq_succ_of_ne_zero (UInt64.lt_iff_toNat_lt.mp hhashes).ne'
  have hset : filter.setBit hash [] filter.bits 0 = .error .outOfRange := by
    rw [setBit, bitPos, if_neg hbits, Except.ok_bind, byteAt_of_le (by simp [hnil])]
    rfl
  have hadd : filter.add hash [] overflowChecks = .error .outOfRange := by
    rw [add, hn, List.range_succ_eq_map, List.foldlM_cons, hset]
    rfl
  rw [addAll, List.foldlM_cons, hadd]
  rfl

/-- **Which new filters are reliable.** A new filter with bits contains everything that is added to
it, and no call indexes outside of its bytes, if and only if the number of its bits could be rounded
up to bytes.

**Proof sketch.** If the sum does not wrap around, there are bytes for all positions. If it does,
the filter has no byte at all, and the first element that is added sets a bit nevertheless. -/
theorem reliable_iff {Rate : Type} {sizes : BloomSizes Rate} {expectedElements : UInt64}
    {falsePositiveRate : Rate}
    (hnew : new sizes overflowChecks expectedElements falsePositiveRate = .ok filter)
    (hbits : 0 < filter.numBits) (hash : ItemHash) :
    filter.Reliable hash overflowChecks ↔
      (sizes.optimalNumBits expectedElements falsePositiveRate).toNat + 7 < 2 ^ 64 := by
  rw [new] at hnew
  split_ifs at hnew with hover
  obtain rfl := Except.ok.inj hnew
  dsimp only at hbits
  have hpos : sizes.optimalNumBits expectedElements falsePositiveRate ≠ 0 := fun hzero => by
    rw [hzero] at hbits
    exact absurd hbits (by decide)
  have hbyteSize : ((sizes.optimalNumBits expectedElements falsePositiveRate + 7) / 8).toNat =
      ((sizes.optimalNumBits expectedElements falsePositiveRate).toNat + 7) % 2 ^ 64 / 8 := by
    rw [UInt64.toNat_div, UInt64.toNat_add]
    rfl
  constructor
  · intro hreliable
    by_contra hwrap
    refine not_reliable_of_nil ?_ hpos (sizes.optimalNumHashes_pos _ _) hreliable
    have hlt := (sizes.optimalNumBits expectedElements falsePositiveRate).toNat_lt
    have hzero : ((sizes.optimalNumBits expectedElements falsePositiveRate + 7) / 8).toNat = 0 := by
      rw [hbyteSize]
      omega
    dsimp only
    rw [hzero, List.replicate_zero]
  · intro hfits
    refine Sound.reliable ⟨hpos, ?_⟩ hash overflowChecks
    dsimp only
    rw [List.length_replicate, hbyteSize, Nat.mod_eq_of_lt hfits]
    omega

/-- What the floating-point numbers give for one element: with a rate of one percent, or of zero,
whose logarithm is infinite. -/
def oneElement : BloomSizes Bool where
  optimalNumBits _ isZero := if isZero then 0xFFFFFFFFFFFFFFFF else 10
  optimalNumHashes numBits _ := if numBits = 10 then 7 else 12786308645202655232
  optimalNumHashes_pos numBits _ := by split <;> decide

/-- A filter for one element with a rate of one percent. -/
theorem reliable_onePercent : StoredFilter.Reliable (fun _ _ => 0) true ⟨[0, 0], 10, 7, 0⟩ ↔
    (10 : UInt64).toNat + 7 < 2 ^ 64 := by
  have hnew : new oneElement true 1 false = .ok ⟨[0, 0], 10, 7, 0⟩ := rfl
  exact reliable_iff hnew (by decide) fun _ _ => 0

/-- **A filter for one element with a rate of zero**, in a build without overflow checks, has no
bytes for its bits. -/
theorem not_reliable_zeroRate : ¬ ∀ (Rate : Type) (sizes : BloomSizes Rate) (overflowChecks : Bool)
    (expectedElements : UInt64) (falsePositiveRate : Rate) (filter : StoredFilter)
    (hash : ItemHash),
    new sizes overflowChecks expectedElements falsePositiveRate = .ok filter →
      0 < filter.numBits → filter.Reliable hash overflowChecks := by
  intro hall
  have hnew : new oneElement false 1 true =
      .ok ⟨[], 0xFFFFFFFFFFFFFFFF, 12786308645202655232, 0⟩ := rfl
  have hreliable := hall Bool oneElement false 1 true _ (fun _ _ => 0) hnew (by decide)
  exact not_reliable_of_nil rfl (by decide) (by decide) hreliable

end Reliable

end StoredFilter

end Landropic.Daemon
