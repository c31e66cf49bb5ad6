import Landropic.Foundations.HashMap

set_option autoImplicit false

/-!
# Tables with numbered rows

A table is a map from the columns that are unique in it to its rows, and each row has a number of
its own. A row that replaces another one keeps its number, and any other row gets the next one.

## Main definitions

* `Numbered` — each row has a number of its own, below the next one.
* `Numbered.rowId` — the number that a row for a key has, or would get.
* `Numbered.Refers` — there is a row with this number.

## Main results

* `Numbered.insert` — rows stay numbered.
* `Numbered.Refers.insert` — references stay valid.
-/

/-- Each row has a number of its own, below the next one. -/
structure Numbered {K V : Type} [DecidableEq K] (id : V → ℕ) (next : ℕ) (table : HashMap K V) :
    Prop where
  lt : ∀ {k v}, table.lookup k = some v → id v < next
  inj : ∀ {k k' v v'}, table.lookup k = some v → table.lookup k' = some v' → id v = id v' → k = k'

namespace Numbered

variable {K V : Type} [DecidableEq K] {id : V → ℕ} {next : ℕ} {table : HashMap K V} {k k' : K}
  {v : V}

/-- The number of the row of a key: that of the row it has, or the next one. -/
def rowId (id : V → ℕ) (next : ℕ) (table : HashMap K V) (k : K) : ℕ :=
  ((table.lookup k).map id).getD next

lemma rowId_of_lookup (id : V → ℕ) (next : ℕ) (h : table.lookup k = some v) :
    rowId id next table k = id v := by
  rw [rowId, h]
  rfl

lemma rowId_of_notMem (h : k ∉ table) : rowId id next table k = next := by
  rw [rowId, Finmap.lookup_eq_none.mpr h]
  rfl

lemma empty (id : V → ℕ) (next : ℕ) : Numbered id next (∅ : HashMap K V) := ⟨nofun, nofun⟩

lemma rowId_ne (h : Numbered id next table) (hlookup : table.lookup k' = some v) (hne : k ≠ k') :
    rowId id next table k ≠ id v := by
  intro hid
  cases hk : table.lookup k with
  | none =>
    rw [rowId, hk] at hid
    exact (h.lt hlookup).ne' hid
  | some w =>
    rw [rowId_of_lookup id next hk] at hid
    exact hne (h.inj hk hlookup hid)

/-- **Rows stay numbered** when one is inserted with the number of its key. -/
theorem insert (h : Numbered id next table) (hv : id v = rowId id next table k) :
    Numbered id (max next (id v + 1)) (table.insert k v) := by
  constructor
  · intro k' v' hlookup
    obtain ⟨-, rfl⟩ | ⟨-, hlookup⟩ := HashMap.lookup_insert_cases hlookup
    · exact lt_max_of_lt_right (Nat.lt_succ_self _)
    · exact lt_max_of_lt_left (h.lt hlookup)
  · intro k₁ k₂ v₁ v₂ h₁ h₂ hid
    obtain ⟨heq₁, hv₁⟩ | ⟨hne₁, hold₁⟩ := HashMap.lookup_insert_cases h₁
    · obtain ⟨heq₂, -⟩ | ⟨hne₂, hold₂⟩ := HashMap.lookup_insert_cases h₂
      · rw [heq₁, heq₂]
      · rw [hv₁, hv] at hid
        exact absurd hid (h.rowId_ne hold₂ hne₂.symm)
    · obtain ⟨heq₂, hv₂⟩ | ⟨hne₂, hold₂⟩ := HashMap.lookup_insert_cases h₂
      · rw [hv₂, hv] at hid
        exact absurd hid.symm (h.rowId_ne hold₁ hne₁.symm)
      · exact h.inj hold₁ hold₂ hid

/-! ## References to rows -/

/-- There is a row with this number. -/
def Refers (id : V → ℕ) (table : HashMap K V) (n : ℕ) : Prop :=
  ∃ k ∈ table.keys, (table.lookup k).map id = some n

instance (n : ℕ) : Decidable (Refers id table n) :=
  inferInstanceAs (Decidable (∃ k ∈ table.keys, (table.lookup k).map id = some n))

lemma refers_iff {n : ℕ} : Refers id table n ↔ ∃ k v, table.lookup k = some v ∧ id v = n := by
  unfold Refers
  constructor
  · rintro ⟨k, -, hk⟩
    obtain ⟨v, hv, rfl⟩ := Option.map_eq_some_iff.mp hk
    exact ⟨k, v, hv, rfl⟩
  · rintro ⟨k, v, hv, rfl⟩
    exact ⟨k, Finmap.mem_keys.mpr (Finmap.mem_iff.mpr ⟨v, hv⟩), by rw [hv]; rfl⟩

lemma Refers.lt {n : ℕ} (h : Refers id table n) (hnumbered : Numbered id next table) :
    n < next := by
  obtain ⟨k, v, hv, rfl⟩ := refers_iff.mp h
  exact hnumbered.lt hv

lemma refers_insert_self : Refers id (table.insert k v) (id v) :=
  refers_iff.mpr ⟨k, v, Finmap.lookup_insert _, rfl⟩

/-- **References stay valid** when a row is inserted with the number of its key. -/
theorem Refers.insert {n : ℕ} (h : Refers id table n) (next : ℕ)
    (hv : id v = rowId id next table k) :
    Refers id (table.insert k v) n := by
  obtain ⟨k', v', hv', rfl⟩ := refers_iff.mp h
  by_cases hk : k' = k
  · subst hk
    rw [← rowId_of_lookup id next hv', ← hv]
    exact refers_insert_self
  · exact refers_iff.mpr ⟨k', v', (Finmap.lookup_insert_of_ne _ hk).trans hv', rfl⟩

end Numbered
