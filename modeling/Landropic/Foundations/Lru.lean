import Mathlib.Data.List.Nodup
import Mathlib.Data.List.Perm.Basic

set_option autoImplicit false

/-!
# Caches that drop their least recently used entry

A map of bounded size that remembers the order in which its keys were last used.

## Main definitions

* `LruCache` — caches; no key occurs twice.
* `LruCache.lookup`, `LruCache.promote` — reading an entry, and marking it as just used.
* `LruCache.popLru` — dropping the least recently used entry.
* `LruCache.put` — adding an entry, or replacing the one with its key.

## Main results

* `LruCache.mem_put`, `LruCache.mem_promote`, `LruCache.mem_of_popLru` — no operation makes up an
  entry.
* `LruCache.lookup_put` — an entry just added is there.
* `LruCache.perm_promote` — using an entry only moves it.
* `LruCache.entries_put_of_lookup`, `LruCache.entries_put_of_lt`, `LruCache.entries_put_of_full` —
  what a cache holds after an entry is added.
* `LruCache.length_put_le` — a cache does not grow past its capacity.
-/

/-- A cache; the least recently used entry comes first. -/
structure LruCache (K V : Type) where
  entries : List (K × V)
  nodup_keys : (entries.map Prod.fst).Nodup

namespace LruCache

variable {K V : Type}

/-- The empty cache. -/
def empty : LruCache K V := ⟨[], List.nodup_nil⟩

/-- The number of entries. -/
def length (cache : LruCache K V) : ℕ := cache.entries.length

/-- Drop the least recently used entry. -/
def popLru (cache : LruCache K V) : Option ((K × V) × LruCache K V) :=
  match h : cache.entries with
  | [] => none
  | entry :: rest => some (entry, ⟨rest, by
      have hnodup := cache.nodup_keys
      rw [h, List.map_cons] at hnodup
      exact hnodup.of_cons⟩)

/-- Add an entry for a key that has none, as the most recently used one. -/
def push (cache : LruCache K V) (k : K) (v : V) (h : k ∉ cache.entries.map Prod.fst) :
    LruCache K V where
  entries := cache.entries ++ [(k, v)]
  nodup_keys := by
    rw [List.map_append]
    refine cache.nodup_keys.append (List.nodup_singleton k) ?_
    rw [List.map_singleton, List.disjoint_singleton]
    exact h

/-- Drop the least recently used entry if there are as many as the capacity allows. -/
def makeRoom (capacity : ℕ) (cache : LruCache K V) : LruCache K V :=
  if cache.length < capacity then cache
  else match cache.popLru with
    | some (_, rest) => rest
    | none => cache

variable {cache rest : LruCache K V} {entry e : K × V}

lemma mem_of_popLru (h : cache.popLru = some (entry, rest)) :
    e ∈ rest.entries → e ∈ cache.entries := by
  unfold popLru at h
  split at h
  · cases h
  · next entry' rest' heq =>
    simp only [Option.some.injEq, Prod.mk.injEq] at h
    obtain ⟨rfl, rfl⟩ := h
    intro he
    rw [heq]
    exact List.mem_cons_of_mem _ he

lemma entries_of_popLru (h : cache.popLru = some (entry, rest)) :
    cache.entries = entry :: rest.entries := by
  unfold popLru at h
  split at h
  · cases h
  · next entry' rest' heq =>
    simp only [Option.some.injEq, Prod.mk.injEq] at h
    obtain ⟨rfl, rfl⟩ := h
    exact heq

lemma entries_of_popLru_eq_none (h : cache.popLru = none) : cache.entries = [] := by
  unfold popLru at h
  split at h
  · next heq => exact heq
  · cases h

lemma length_of_popLru (h : cache.popLru = some (entry, rest)) : rest.length < cache.length := by
  unfold popLru at h
  split at h
  · cases h
  · next entry' rest' heq =>
    simp only [Option.some.injEq, Prod.mk.injEq] at h
    obtain ⟨rfl, rfl⟩ := h
    simp [length, heq]

lemma mem_makeRoom {capacity : ℕ} (h : e ∈ (cache.makeRoom capacity).entries) :
    e ∈ cache.entries := by
  unfold makeRoom at h
  split at h
  · exact h
  · split at h
    · next heq => exact mem_of_popLru heq h
    · exact h

lemma mem_push {k : K} {v : V} {h : k ∉ cache.entries.map Prod.fst} :
    e ∈ (cache.push k v h).entries ↔ e ∈ cache.entries ∨ e = (k, v) := by
  simp [push]

section Keyed

variable [DecidableEq K]

/-- The value of a key. -/
def lookup (cache : LruCache K V) (k : K) : Option V :=
  (cache.entries.find? fun entry => entry.1 = k).map Prod.snd

/-- The cache has an entry for a key. -/
def contains (cache : LruCache K V) (k : K) : Bool := (cache.lookup k).isSome

/-- Take out the entry of a key. -/
def without (cache : LruCache K V) (k : K) : LruCache K V where
  entries := cache.entries.filter fun entry => entry.1 ≠ k
  nodup_keys := cache.nodup_keys.sublist (List.filter_sublist.map _)

lemma notMem_keys_without (cache : LruCache K V) (k : K) :
    k ∉ (cache.without k).entries.map Prod.fst := by
  simp [without]

/-- Mark the entry of a key as the most recently used one. -/
def promote (cache : LruCache K V) (k : K) : LruCache K V :=
  match cache.lookup k with
  | some v => (cache.without k).push k v (cache.notMem_keys_without k)
  | none => cache

variable {cache : LruCache K V} {k : K} {capacity : ℕ}

lemma promote_of_lookup_eq_none (h : cache.lookup k = none) : cache.promote k = cache := by
  simp [promote, h]

lemma mem_without {e : K × V} (h : e ∈ (cache.without k).entries) :
    e ∈ cache.entries := List.mem_of_mem_filter h

lemma notMem_makeRoom_without (cache : LruCache K V) (capacity : ℕ) (k : K) :
    k ∉ ((cache.without k).makeRoom capacity).entries.map Prod.fst := by
  intro hk
  obtain ⟨e, he, rfl⟩ := List.mem_map.mp hk
  exact cache.notMem_keys_without e.1 (List.mem_map_of_mem (mem_makeRoom he))

/-- Add an entry, or replace the one with its key; adding one to a full cache drops the least
recently used one. -/
def put (capacity : ℕ) (cache : LruCache K V) (k : K) (v : V) : LruCache K V :=
  if cache.contains k then (cache.without k).push k v (cache.notMem_keys_without k)
  else ((cache.without k).makeRoom capacity).push k v (cache.notMem_makeRoom_without capacity k)

lemma mem_of_lookup {v : V} (h : cache.lookup k = some v) : (k, v) ∈ cache.entries := by
  rw [lookup, Option.map_eq_some_iff] at h
  obtain ⟨entry, hfind, rfl⟩ := h
  have hkey : entry.1 = k := by simpa using List.find?_some hfind
  rw [← hkey]
  exact List.mem_of_find?_eq_some hfind

lemma notMem_of_lookup (h : cache.lookup k = none) (v : V) : (k, v) ∉ cache.entries := by
  rw [lookup, Option.map_eq_none_iff, List.find?_eq_none] at h
  intro hmem
  simpa using h _ hmem

lemma mem_promote {e : K × V} (h : e ∈ (cache.promote k).entries) : e ∈ cache.entries := by
  unfold promote at h
  split at h
  · next v hv =>
    rcases mem_push.mp h with h | rfl
    · exact mem_without h
    · exact mem_of_lookup hv
  · exact h

/-- **After adding an entry** the cache holds it, and otherwise old entries only. -/
lemma mem_put {v : V} {e : K × V} (h : e ∈ (cache.put capacity k v).entries) :
    e = (k, v) ∨ e ∈ cache.entries := by
  unfold put at h
  split at h
  · exact (mem_push.mp h).symm.imp_right mem_without
  · exact (mem_push.mp h).symm.imp_right fun he => mem_without (mem_makeRoom he)

lemma lookup_push {v : V} {h : k ∉ cache.entries.map Prod.fst} :
    (cache.push k v h).lookup k = some v := by
  have hnone : (cache.entries.find? fun entry => entry.1 = k) = none := by
    rw [List.find?_eq_none]
    intro e he heq
    simp only [decide_eq_true_eq] at heq
    subst heq
    exact h (List.mem_map_of_mem he)
  simp [lookup, push, List.find?_append, hnone]

/-- **An entry just added is there.** -/
@[simp] lemma lookup_put (cache : LruCache K V) (capacity : ℕ) (k : K) (v : V) :
    (cache.put capacity k v).lookup k = some v := by
  unfold put
  split
  · exact lookup_push
  · exact lookup_push

lemma lookup_eq_none_iff : cache.lookup k = none ↔ k ∉ cache.entries.map Prod.fst := by
  rw [lookup, Option.map_eq_none_iff, List.find?_eq_none, List.mem_map]
  constructor
  · rintro hnone ⟨entry, hentry, rfl⟩
    exact hnone entry hentry (decide_eq_true rfl)
  · exact fun hkey entry hentry heq => hkey ⟨entry, hentry, of_decide_eq_true heq⟩

lemma lookup_of_mem {v : V} (h : (k, v) ∈ cache.entries) : cache.lookup k = some v := by
  cases hlookup : cache.lookup k with
  | none => exact absurd (List.mem_map_of_mem h) (lookup_eq_none_iff.mp hlookup)
  | some w =>
    have heq := List.inj_on_of_nodup_map cache.nodup_keys (mem_of_lookup hlookup) h rfl
    exact congrArg some (Prod.mk.inj heq).2

lemma entries_without_of_lookup_eq_none (h : cache.lookup k = none) :
    (cache.without k).entries = cache.entries := by
  refine List.filter_eq_self.mpr fun entry hentry => decide_eq_true ?_
  rintro rfl
  exact lookup_eq_none_iff.mp h (List.mem_map_of_mem hentry)

lemma perm_without {v : V} (h : cache.lookup k = some v) :
    cache.entries.Perm ((k, v) :: (cache.without k).entries) := by
  have hnodup : cache.entries.Nodup := cache.nodup_keys.of_map _
  refine (List.perm_ext_iff_of_nodup hnodup (List.nodup_cons.mpr ⟨?_, hnodup.filter _⟩)).mpr ?_
  · intro hmem
    exact cache.notMem_keys_without k (List.mem_map_of_mem hmem)
  · rintro ⟨k', v'⟩
    rw [List.mem_cons, List.mem_filter, decide_eq_true_eq]
    by_cases hk : k' = k
    · subst hk
      refine ⟨fun hmem => .inl ?_, ?_⟩
      · rw [lookup_of_mem hmem] at h
        rw [Option.some.inj h]
      · rintro (heq | hmem)
        · rw [heq]
          exact mem_of_lookup h
        · exact absurd rfl hmem.2
    · refine ⟨fun hmem => .inr ⟨hmem, hk⟩, ?_⟩
      rintro (heq | hmem)
      · exact absurd (Prod.mk.inj heq).1 hk
      · exact hmem.1

/-- **Using an entry only moves it.** -/
theorem perm_promote (cache : LruCache K V) (k : K) :
    (cache.promote k).entries.Perm cache.entries := by
  unfold promote
  split
  · next v hv => exact (List.perm_append_singleton _ _).trans (perm_without hv).symm
  · exact .refl _

lemma entries_put_of_lookup {v : V} (h : cache.lookup k = some v) (capacity : ℕ) (w : V) :
    (cache.put capacity k w).entries = (cache.without k).entries ++ [(k, w)] := by
  have hcontains : cache.contains k = true := Option.isSome_iff_exists.mpr ⟨v, h⟩
  rw [put, if_pos hcontains]
  rfl

lemma put_of_lookup_eq_none (h : cache.lookup k = none) (capacity : ℕ) (w : V) :
    (cache.put capacity k w).entries =
      ((cache.without k).makeRoom capacity).entries ++ [(k, w)] := by
  rw [put, if_neg (by rw [contains, h]; exact Bool.false_ne_true)]
  rfl

lemma entries_put_of_lt (h : cache.lookup k = none) (hlt : cache.length < capacity) (w : V) :
    (cache.put capacity k w).entries = cache.entries ++ [(k, w)] := by
  have hentries := entries_without_of_lookup_eq_none h
  rw [put_of_lookup_eq_none h, makeRoom, if_pos (by rwa [length, hentries]), hentries]

/-- An entry with a new key takes the place of the least recently used one of a full cache. -/
lemma entries_put_of_full (h : cache.lookup k = none) (hfull : ¬ cache.length < capacity)
    {first : K × V} {rest : List (K × V)} (hcons : cache.entries = first :: rest) (w : V) :
    (cache.put capacity k w).entries = rest ++ [(k, w)] := by
  have hentries := entries_without_of_lookup_eq_none h
  rw [put_of_lookup_eq_none h, makeRoom, if_neg (by rwa [length, hentries])]
  split
  · next entry room hpop =>
    have hroom := (entries_of_popLru hpop).symm.trans (hentries.trans hcons)
    rw [(List.cons.inj hroom).2]
  · next hpop =>
    have hnil := entries_of_popLru_eq_none hpop
    rw [hentries, hcons] at hnil
    cases hnil

/-- **A cache does not grow** past its capacity. -/
theorem length_put_le (hpos : 0 < capacity) (h : cache.length ≤ capacity) (v : V) :
    (cache.put capacity k v).length ≤ capacity := by
  rw [length]
  cases hlookup : cache.lookup k with
  | some old =>
    have hlength := (perm_without hlookup).length_eq
    rw [List.length_cons] at hlength
    rw [entries_put_of_lookup hlookup, List.length_append, List.length_singleton, ← hlength]
    exact h
  | none =>
    by_cases hlt : cache.length < capacity
    · rw [entries_put_of_lt hlookup hlt, List.length_append, List.length_singleton]
      exact hlt
    · obtain ⟨first, rest, hcons⟩ :=
        List.exists_cons_of_length_pos (Nat.lt_of_lt_of_le hpos (Nat.le_of_not_lt hlt))
      rw [entries_put_of_full hlookup hlt hcons, List.length_append, List.length_singleton]
      rw [length, hcons, List.length_cons] at h
      exact h

end Keyed

end LruCache
