import Mathlib.Algebra.BigOperators.Group.Finset.Basic
import Mathlib.Algebra.GroupWithZero.Nat
import Mathlib.Data.Finmap
import Mathlib.Data.Finset.Sort

set_option autoImplicit false

/-!
# Hash maps and the order of their iteration

A hash map is a finite map, and a hash set a finite set. Iterating over one visits every key once,
in an order nothing may depend on; the order is a parameter of whatever iterates.

## Main definitions

* `HashMap` — finite maps.
* `HashMap.collect` — the map collected from a list of pairs, where the last pair of a key counts.
* `HashMap.retain` — the pairs of a map that pass a test.
* `HashMap.mapKeys` — the values of a map under other keys.
* `IterOrder` — an order of iteration.
* `IterOrder.entries` — the pairs of a map in that order.

## Main results

* `HashMap.lookup_collect` — what a collected map holds.
* `IterOrder.mem_entries` — iteration visits exactly the pairs of the map.
-/

/-- A hash map. -/
abbrev HashMap (K V : Type) := Finmap fun _ : K => V

namespace HashMap

variable {K V : Type} [DecidableEq K]

/-- Collect pairs into a map; a later pair replaces an earlier one with its key. -/
def collect (pairs : List (K × V)) : HashMap K V :=
  pairs.foldl (fun map pair => map.insert pair.1 pair.2) ∅

@[simp] lemma collect_nil : collect ([] : List (K × V)) = ∅ := rfl

lemma collect_concat (pairs : List (K × V)) (pair : K × V) :
    collect (pairs ++ [pair]) = (collect pairs).insert pair.1 pair.2 := by
  simp [collect]

/-- A collected map holds the last pair of each key. -/
theorem lookup_collect (pairs : List (K × V)) (k : K) :
    (collect pairs).lookup k = (pairs.reverse.find? fun pair => pair.1 = k).map Prod.snd := by
  induction pairs using List.reverseRecOn with
  | nil => rfl
  | append_singleton pairs pair ih =>
    rw [collect_concat, List.reverse_concat, List.find?_cons]
    by_cases h : pair.1 = k
    · subst h
      simp
    · rw [Finmap.lookup_insert_of_ne _ (Ne.symm h), ih]
      simp [h]

lemma mem_of_lookup_collect {pairs : List (K × V)} {k : K} {v : V}
    (h : (collect pairs).lookup k = some v) : (k, v) ∈ pairs := by
  rw [lookup_collect, Option.map_eq_some_iff] at h
  obtain ⟨pair, hfind, rfl⟩ := h
  have hkey : pair.1 = k := by simpa using List.find?_some hfind
  rw [← hkey]
  simpa using List.mem_of_find?_eq_some hfind

/-- A map collected from pairs with distinct keys holds all of them. -/
theorem lookup_collect_iff {pairs : List (K × V)} (hnodup : (pairs.map Prod.fst).Nodup) {k : K}
    {v : V} : (collect pairs).lookup k = some v ↔ (k, v) ∈ pairs := by
  refine ⟨mem_of_lookup_collect, fun hmem => ?_⟩
  have hfirst : (pairs.reverse.find? fun pair => pair.1 = k).isSome := by
    rw [List.find?_isSome]
    exact ⟨(k, v), List.mem_reverse.mpr hmem, by simp⟩
  obtain ⟨pair, hfind⟩ := Option.isSome_iff_exists.mp hfirst
  have hkey : pair.1 = k := by simpa using List.find?_some hfind
  have hpair : pair = (k, v) := List.inj_on_of_nodup_map hnodup
    (List.mem_reverse.mp (List.mem_of_find?_eq_some hfind)) hmem hkey
  rw [lookup_collect, hfind, hpair]
  rfl

lemma mem_collect {pairs : List (K × V)} {k : K} :
    k ∈ collect pairs ↔ k ∈ pairs.map Prod.fst := by
  constructor
  · intro h
    obtain ⟨v, hv⟩ := Finmap.mem_iff.mp h
    exact List.mem_map.mpr ⟨(k, v), mem_of_lookup_collect hv, rfl⟩
  · intro h
    have hfirst : (pairs.reverse.find? fun pair => pair.1 = k).isSome := by
      obtain ⟨pair, hpair, rfl⟩ := List.mem_map.mp h
      rw [List.find?_isSome]
      exact ⟨pair, List.mem_reverse.mpr hpair, by simp⟩
    obtain ⟨pair, hfind⟩ := Option.isSome_iff_exists.mp hfirst
    exact Finmap.mem_iff.mpr ⟨pair.2, by rw [lookup_collect, hfind]; rfl⟩

lemma lookup_collect_append (pairs more : List (K × V)) (k : K) :
    (collect (pairs ++ more)).lookup k =
      ((collect more).lookup k).or ((collect pairs).lookup k) := by
  simp only [lookup_collect, List.reverse_append, List.find?_append]
  cases more.reverse.find? fun pair => pair.1 = k with
  | none => rfl
  | some pair => rfl

lemma lookup_collect_filterMap (keys : List K) (f : K → Option V) (k : K) :
    (collect (keys.filterMap fun key => (f key).map fun v => (key, v))).lookup k =
      if k ∈ keys then f k else none := by
  have hof : ∀ {v}, (collect (keys.filterMap fun key => (f key).map fun v => (key, v))).lookup k =
      some v → k ∈ keys ∧ f k = some v := by
    intro v hv
    obtain ⟨key, hkey, hpair⟩ := List.mem_filterMap.mp (mem_of_lookup_collect hv)
    obtain ⟨v', hf, hpair⟩ := Option.map_eq_some_iff.mp hpair
    obtain ⟨rfl, rfl⟩ := Prod.mk.inj hpair
    exact ⟨hkey, hf⟩
  cases hlookup : (collect (keys.filterMap fun key => (f key).map fun v => (key, v))).lookup k with
  | some v =>
    obtain ⟨hmem, hf⟩ := hof hlookup
    rw [if_pos hmem, hf]
  | none =>
    split
    · next hmem =>
      cases hf : f k with
      | none => rfl
      | some v =>
        refine absurd (mem_collect.mpr ?_) (Finmap.lookup_eq_none.mp hlookup)
        exact List.mem_map.mpr ⟨(k, v), List.mem_filterMap.mpr ⟨k, hmem, by rw [hf]; rfl⟩, rfl⟩
    · rfl

lemma lookup_collect_map_const (keys : List K) (v : V) (k : K) :
    (collect (keys.map fun key => (key, v))).lookup k = if k ∈ keys then some v else none := by
  have hmap : (keys.map fun key => (key, v)) =
      keys.filterMap fun key => (some v).map fun v => (key, v) := by
    simp
  rw [hmap]
  exact lookup_collect_filterMap keys (fun _ => some v) k

lemma lookup_insert_cases {map : HashMap K V} {k k' : K} {v v' : V}
    (h : (map.insert k v).lookup k' = some v') :
    k' = k ∧ v' = v ∨ k' ≠ k ∧ map.lookup k' = some v' := by
  by_cases hne : k' = k
  · subst hne
    rw [Finmap.lookup_insert] at h
    exact .inl ⟨rfl, (Option.some.inj h).symm⟩
  · rw [Finmap.lookup_insert_of_ne map hne] at h
    exact .inr ⟨hne, h⟩

/-- What holds of all pairs of a map after an insertion. -/
lemma forall_lookup_insert {P : K → V → Prop} {map : HashMap K V} {k : K} {v : V} :
    (∀ k' v', (map.insert k v).lookup k' = some v' → P k' v') ↔
      P k v ∧ ∀ k' v', map.lookup k' = some v' → k' ≠ k → P k' v' := by
  constructor
  · intro h
    refine ⟨h k v (Finmap.lookup_insert map), fun k' v' hlookup hne => h k' v' ?_⟩
    rwa [Finmap.lookup_insert_of_ne map hne]
  · rintro ⟨hk, hrest⟩ k' v' hlookup
    obtain ⟨rfl, rfl⟩ | ⟨hne, hlookup⟩ := lookup_insert_cases hlookup
    · exact hk
    · exact hrest k' v' hlookup hne

/-- Change the value of a key, if there is one. -/
def modify (map : HashMap K V) (k : K) (f : V → V) : HashMap K V :=
  match map.lookup k with
  | some v => map.insert k (f v)
  | none => map

lemma lookup_modify (map : HashMap K V) (k : K) (f : V → V) (k' : K) :
    (map.modify k f).lookup k' = if k' = k then (map.lookup k').map f else map.lookup k' := by
  unfold modify
  cases hlookup : map.lookup k with
  | none =>
    dsimp only
    split
    · next h => rw [h, hlookup, Option.map_none]
    · rfl
  | some v =>
    dsimp only
    split
    · next h => rw [h, Finmap.lookup_insert, hlookup, Option.map_some]
    · next h => exact Finmap.lookup_insert_of_ne map h

lemma of_lookup_erase {map : HashMap K V} {k k' : K} {v : V}
    (h : (Finmap.erase k map).lookup k' = some v) : k' ≠ k ∧ map.lookup k' = some v := by
  have hne : k' ≠ k := by
    rintro rfl
    rw [Finmap.lookup_erase] at h
    cases h
  rw [Finmap.lookup_erase_ne hne] at h
  exact ⟨hne, h⟩

/-- Change all values. -/
def mapValues (map : HashMap K V) (f : V → V) : HashMap K V where
  entries := map.entries.map fun entry => ⟨entry.1, f entry.2⟩
  nodupKeys := by
    rw [← Multiset.nodup_keys, Multiset.keys, Multiset.map_map]
    exact Multiset.nodup_keys.mpr map.nodupKeys

lemma lookup_mapValues (map : HashMap K V) (f : V → V) (k : K) :
    (map.mapValues f).lookup k = (map.lookup k).map f := by
  induction map using Finmap.induction_on with
  | H list =>
    show (list.entries.map fun entry : Sigma fun _ : K => V =>
      (⟨entry.1, f entry.2⟩ : Sigma fun _ : K => V)).dlookup k = (list.entries.dlookup k).map f
    induction list.entries with
    | nil => rfl
    | cons entry entries ih =>
      obtain ⟨key, v⟩ := entry
      by_cases h : k = key
      · subst h
        simp
      · rw [List.map_cons, List.dlookup_cons_ne _ _ h, List.dlookup_cons_ne _ _ h, ih]

/-- Change all keys, different ones to different ones. -/
def mapKeys (map : HashMap K V) (f : K → K) (hf : Function.Injective f) : HashMap K V where
  entries := map.entries.map fun entry => ⟨f entry.1, entry.2⟩
  nodupKeys := by
    rw [← Multiset.nodup_keys, Multiset.keys, Multiset.map_map]
    show (map.entries.map (f ∘ Sigma.fst)).Nodup
    rw [← Multiset.map_map]
    exact (Multiset.nodup_keys.mpr map.nodupKeys).map hf

lemma lookup_mapKeys (map : HashMap K V) {f : K → K} (hf : Function.Injective f) (k : K) :
    (map.mapKeys f hf).lookup (f k) = map.lookup k := by
  ext v
  rw [Finmap.lookup_eq_some_iff, Finmap.lookup_eq_some_iff, mapKeys, Multiset.mem_map]
  constructor
  · rintro ⟨⟨key, value⟩, hmem, heq⟩
    obtain ⟨hkey, rfl⟩ := by simpa using heq
    rwa [hf hkey] at hmem
  · intro hmem
    exact ⟨⟨k, v⟩, hmem, rfl⟩

/-- Keep only the pairs that pass a test. -/
def retain (map : HashMap K V) (keep : K → V → Bool) : HashMap K V where
  entries := map.entries.filter fun entry => keep entry.1 entry.2
  nodupKeys := by
    have hle : (map.entries.filter fun entry => keep entry.1 entry.2).keys ≤ map.entries.keys :=
      Multiset.map_le_map (Multiset.filter_le _ _)
    exact Multiset.nodup_keys.mp (Multiset.nodup_of_le hle (Multiset.nodup_keys.mpr map.nodupKeys))

lemma lookup_retain (map : HashMap K V) (keep : K → V → Bool) (k : K) :
    (map.retain keep).lookup k = (map.lookup k).filter (keep k) := by
  ext v
  rw [Option.filter_eq_some_iff, Finmap.lookup_eq_some_iff, Finmap.lookup_eq_some_iff]
  simp only [retain, Multiset.mem_filter]

end HashMap

/-- An order in which the keys of a hash map, or the elements of a hash set, are visited. -/
structure IterOrder (α : Type) where
  /-- The elements of a set in their order. -/
  iter : Finset α → List α
  /-- Each element is visited once. -/
  nodup_iter : ∀ s, (iter s).Nodup
  /-- Every element is visited. -/
  mem_iter : ∀ {s a}, a ∈ iter s ↔ a ∈ s

namespace IterOrder

lemma length_iter {α : Type} (order : IterOrder α) (s : Finset α) :
    (order.iter s).length = s.card := by
  classical
  rw [← List.toFinset_card_of_nodup (order.nodup_iter s)]
  congr 1
  ext a
  rw [List.mem_toFinset, order.mem_iter]

variable {K V : Type} [DecidableEq K] (order : IterOrder K)

/-- The pairs of a map in the order of their keys. -/
def entries (map : HashMap K V) : List (K × V) :=
  (order.iter map.keys).filterMap fun k => (map.lookup k).map (Prod.mk k)

/-- Iteration visits exactly the pairs of the map. -/
theorem mem_entries {map : HashMap K V} {k : K} {v : V} :
    (k, v) ∈ order.entries map ↔ map.lookup k = some v := by
  simp only [entries, List.mem_filterMap, order.mem_iter, Finmap.mem_keys, Option.map_eq_some_iff,
    Prod.mk.injEq]
  constructor
  · rintro ⟨_, -, _, h, rfl, rfl⟩
    exact h
  · intro h
    exact ⟨k, Finmap.mem_iff.mpr ⟨v, h⟩, v, h, rfl, rfl⟩

lemma fst_entries (map : HashMap K V) :
    (order.entries map).map Prod.fst = order.iter map.keys := by
  have hself : ∀ k ∈ order.iter map.keys,
      ((map.lookup k).map (Prod.mk k)).map Prod.fst = some k := by
    intro k hk
    rw [order.mem_iter, Finmap.mem_keys, Finmap.mem_iff] at hk
    obtain ⟨v, hv⟩ := hk
    simp [hv]
  rw [entries, List.map_filterMap, List.filterMap_congr hself, List.filterMap_some]

lemma nodup_fst_entries (map : HashMap K V) : ((order.entries map).map Prod.fst).Nodup := by
  rw [fst_entries]
  exact order.nodup_iter _

/-- The map of the pairs that are kept in an iteration. -/
lemma lookup_collect_filter_entries (map : HashMap K V) (keep : K × V → Bool) (k : K) :
    (HashMap.collect ((order.entries map).filter keep)).lookup k =
      (map.lookup k).filter fun v => keep (k, v) := by
  have hnodup : (((order.entries map).filter keep).map Prod.fst).Nodup :=
    (order.nodup_fst_entries map).sublist (List.filter_sublist.map _)
  ext v
  rw [HashMap.lookup_collect_iff hnodup, List.mem_filter, order.mem_entries,
    Option.filter_eq_some_iff]

/-- Some elements can be visited first. -/
lemma exists_iter_first {α : Type} (p : α → Prop) : ∃ order : IterOrder α, ∀ s a, a ∈ s → p a →
    (∀ b ∈ s, p b → b = a) → ∃ rest, order.iter s = a :: rest := by
  classical
  refine ⟨⟨fun s => (s.filter p).toList ++ (s.filter fun b => ¬ p b).toList, fun s => ?_,
    fun {s b} => ?_⟩, fun s a ha hp hunique => ?_⟩
  · refine (Finset.nodup_toList _).append (Finset.nodup_toList _) fun b hb hb' => ?_
    simp only [Finset.mem_toList, Finset.mem_filter] at hb hb'
    exact hb'.2 hb.2
  · by_cases hb : p b <;> simp [hb]
  · have hsingle : s.filter p = {a} := by
      ext b
      rw [Finset.mem_filter, Finset.mem_singleton]
      constructor
      · rintro ⟨hb, hpb⟩
        exact hunique b hb hpb
      · rintro rfl
        exact ⟨ha, hp⟩
    refine ⟨(s.filter fun b => ¬ p b).toList, ?_⟩
    show (s.filter p).toList ++ _ = _
    rw [hsingle, Finset.toList_singleton, List.singleton_append]

lemma exists_iter_cons {α : Type} (a : α) :
    ∃ order : IterOrder α, ∀ s, a ∈ s → ∃ rest, order.iter s = a :: rest := by
  obtain ⟨order, horder⟩ := exists_iter_first (· = a)
  exact ⟨order, fun s hs => horder s a hs rfl fun b _ hb => hb⟩

lemma exists_iter_concat {α : Type} (a : α) :
    ∃ order : IterOrder α, ∀ s, a ∈ s → ∃ rest, order.iter s = rest ++ [a] := by
  obtain ⟨order, horder⟩ := exists_iter_cons a
  refine ⟨⟨fun s => (order.iter s).reverse, fun s => List.nodup_reverse.mpr (order.nodup_iter s),
    fun {s b} => List.mem_reverse.trans order.mem_iter⟩, fun s hs => ?_⟩
  obtain ⟨rest, hrest⟩ := horder s hs
  refine ⟨rest.reverse, ?_⟩
  show (order.iter s).reverse = rest.reverse ++ [a]
  rw [hrest, List.reverse_cons]

lemma sum_entries (map : HashMap K V) (f : V → ℕ) :
    ((order.entries map).map fun e => f e.2).sum = ∑ k ∈ map.keys, (map.lookup k).elim 0 f := by
  have hkeys : (order.iter map.keys).toFinset = map.keys := by
    ext k
    rw [List.mem_toFinset, order.mem_iter]
  have hsum : ∀ keys : List K,
      ((keys.filterMap fun k => (map.lookup k).map (Prod.mk k)).map fun e => f e.2).sum =
        (keys.map fun k => (map.lookup k).elim 0 f).sum := by
    intro keys
    induction keys with
    | nil => rfl
    | cons k keys ih =>
      rw [List.map_cons, List.sum_cons, ← ih]
      cases hlookup : map.lookup k with
      | none => simp [hlookup]
      | some v => simp [hlookup]
  rw [entries, hsum, ← List.sum_toFinset _ (order.nodup_iter _), hkeys]

/-- Sets can be visited in the order of their elements. -/
def sorted (α : Type) [LinearOrder α] : IterOrder α where
  iter s := s.sort (· ≤ ·)
  nodup_iter s := s.sort_nodup _
  mem_iter := Finset.mem_sort _

/-- Sets can be visited in the order of values that tell their elements apart. -/
def sortedBy {α β : Type} [LinearOrder β] (f : α → β) (hf : Function.Injective f) : IterOrder α :=
  @sorted α (LinearOrder.lift' f hf)

end IterOrder
