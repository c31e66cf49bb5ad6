import Mathlib.Data.Finset.Card

set_option autoImplicit false

/-!
# Loops over a stack of things to visit

A loop takes an item off a stack and visits it, which yields results and further items, until the
stack is empty or a visit fails. If the items form a tree, each of them is visited once.

## Main definitions

* `Worklist.drain` — the loop, with a bound on its rounds.
* `Worklist.Leads` — an item is put on the stack by the visit of another one.

## Main results

* `Worklist.drain_cases` — the loop ends after as many rounds as there are items, and has visited
  all of them if no visit fails.
-/

namespace Worklist

variable {α β ε : Type}

/-- Visit what is on the stack and what that leads to, in at most so many rounds. -/
def drain (visit : α → Except ε (List β × List α)) :
    ℕ → List β → List α → Option (Except ε (List β))
  | _, out, [] => some (.ok out)
  | 0, _, _ :: _ => none
  | fuel + 1, out, a :: stack =>
    match visit a with
    | .error e => some (.error e)
    | .ok (found, more) => drain visit fuel (out ++ found) (more ++ stack)

/-- The items that a visit puts on the stack. -/
def next (visit : α → Except ε (List β × List α)) (a : α) : List α :=
  match visit a with
  | .error _ => []
  | .ok (_, more) => more

/-- The results of a visit. -/
def found (visit : α → Except ε (List β × List α)) (a : α) : List β :=
  match visit a with
  | .error _ => []
  | .ok (found, _) => found

/-- The visit of an item puts another one on the stack. -/
def Leads (visit : α → Except ε (List β × List α)) (a b : α) : Prop := b ∈ next visit a

/-- Items form a tree: only one leads to each, none to the root, and that once. -/
structure Tree (visit : α → Except ε (List β × List α)) (root : α) : Prop where
  root : ∀ a, ¬ Leads visit a root
  unique : ∀ {a a' b}, Leads visit a b → Leads visit a' b → a = a'
  nodup : ∀ a, (next visit a).Nodup

/-- What is visited and what is on the stack: no item twice, and with each item the one that leads
to it; what visited ones lead to is there. -/
structure Visiting (visit : α → Except ε (List β × List α)) (root : α) (done stack : List α) :
    Prop where
  nodup : (done ++ stack).Nodup
  origin : ∀ b ∈ done ++ stack, b = root ∨ ∃ a ∈ done, Leads visit a b
  reached : ∀ a ∈ done ++ stack, Relation.ReflTransGen (Leads visit) root a
  closed : ∀ a ∈ done, ∀ b, Leads visit a b → b ∈ done ++ stack
  root_mem : root ∈ done ++ stack
  ok : ∀ a ∈ done, ∃ r, visit a = .ok r

variable {visit : α → Except ε (List β × List α)} {root : α} {done stack : List α}

lemma Visiting.start (visit : α → Except ε (List β × List α)) (root : α) :
    Visiting visit root [] [root] where
  nodup := List.nodup_singleton root
  origin := fun _ hb => .inl (List.mem_singleton.mp hb)
  reached := fun _ ha => List.mem_singleton.mp ha ▸ .refl
  closed := nofun
  root_mem := List.mem_singleton_self root
  ok := nofun

/-- **A round visits an item** and puts new ones on the stack. -/
lemma Visiting.round {a : α} {found : List β} {more : List α} (htree : Tree visit root)
    (h : Visiting visit root done (a :: stack)) (hvisit : visit a = .ok (found, more)) :
    Visiting visit root (done ++ [a]) (more ++ stack) := by
  have hnext : next visit a = more := by rw [next, hvisit]
  have hleads : ∀ {b}, Leads visit a b ↔ b ∈ more := by
    intro b
    rw [Leads, hnext]
  have hassoc : done ++ a :: stack = done ++ [a] ++ stack := by simp
  have hmem : ∀ {b}, b ∈ done ++ [a] ++ (more ++ stack) ↔ b ∈ done ++ a :: stack ∨ b ∈ more := by
    intro b
    rw [hassoc]
    simp only [List.mem_append]
    tauto
  have hnodup := hassoc ▸ h.nodup
  have hnotMem : a ∉ done := by
    intro ha
    exact (List.nodup_append.mp h.nodup).2.2 a ha a List.mem_cons_self rfl
  -- a new item is led to by `a` alone, which had not been visited
  have hnew : ∀ b ∈ more, b ∉ done ++ a :: stack := by
    intro b hb hold
    obtain rfl | ⟨a', ha', hlead⟩ := h.origin b hold
    · exact htree.root a (hleads.mpr hb)
    · exact hnotMem (htree.unique hlead (hleads.mpr hb) ▸ ha')
  refine ⟨?_, ?_, ?_, ?_, hmem.mpr (.inl h.root_mem), ?_⟩
  · have hperm : (done ++ [a] ++ (more ++ stack)).Perm (more ++ (done ++ [a] ++ stack)) := by
      rw [← List.append_assoc, ← List.append_assoc more]
      exact List.perm_append_comm.append_right stack
    rw [hperm.nodup_iff, List.nodup_append]
    refine ⟨hnext ▸ htree.nodup a, hnodup, ?_⟩
    rintro b hb _ hold rfl
    exact hnew b hb (hassoc ▸ hold)
  · intro b hb
    obtain hold | hb := hmem.mp hb
    · obtain hroot | ⟨a', ha', hlead⟩ := h.origin b hold
      · exact .inl hroot
      · exact .inr ⟨a', List.mem_append_left _ ha', hlead⟩
    · exact .inr ⟨a, List.mem_append_right _ (List.mem_singleton_self a), hleads.mpr hb⟩
  · intro b hb
    obtain hold | hb := hmem.mp hb
    · exact h.reached b hold
    · exact (h.reached a (List.mem_append_right _ List.mem_cons_self)).tail (hleads.mpr hb)
  · intro a' ha' b hlead
    obtain ha' | ha' := List.mem_append.mp ha'
    · exact hmem.mpr (.inl (h.closed a' ha' b hlead))
    · rw [List.mem_singleton.mp ha', hleads] at hlead
      exact hmem.mpr (.inr hlead)
  · intro a' ha'
    obtain ha' | ha' := List.mem_append.mp ha'
    · exact h.ok a' ha'
    · exact ⟨_, List.mem_singleton.mp ha' ▸ hvisit⟩

lemma Visiting.mem_done_iff (h : Visiting visit root done []) {a : α} :
    a ∈ done ↔ Relation.ReflTransGen (Leads visit) root a := by
  have hmem : ∀ {b}, b ∈ done ++ [] ↔ b ∈ done := by simp
  constructor
  · exact fun ha => h.reached a (hmem.mpr ha)
  · intro hreach
    induction hreach with
    | refl => exact hmem.mp h.root_mem
    | tail _ hlead ih => exact hmem.mp (h.closed _ ih _ hlead)

/-- **The loop ends** after as many rounds as there are items. Either an item is reached whose visit
fails, or all items that can be reached are visited once.

**Proof sketch.** A round keeps `Visiting`. The items that are visited or on the stack are distinct,
so that there are never more of them than items in all. -/
theorem drain_cases (htree : Tree visit root) {S : Finset α}
    (hS : ∀ a, Relation.ReflTransGen (Leads visit) root a → a ∈ S) {fuel : ℕ}
    (h : Visiting visit root done stack) (hfuel : S.card ≤ done.length + fuel) :
    (∃ a e, Relation.ReflTransGen (Leads visit) root a ∧ visit a = .error e ∧
      drain visit fuel (done.flatMap (found visit)) stack = some (.error e)) ∨
    ∃ items : List α, drain visit fuel (done.flatMap (found visit)) stack =
        some (.ok (items.flatMap (found visit))) ∧ items.Nodup ∧
      (∀ a, a ∈ items ↔ Relation.ReflTransGen (Leads visit) root a) ∧
      ∀ a ∈ items, ∃ r, visit a = .ok r := by
  induction fuel generalizing done stack with
  | zero =>
    cases stack with
    | nil =>
      refine .inr ⟨done, rfl, ?_, fun a => h.mem_done_iff, h.ok⟩
      simpa using h.nodup
    | cons a stack =>
      classical
      have hsub : (done ++ a :: stack).toFinset ⊆ S := fun b hb =>
        hS b (h.reached b (List.mem_toFinset.mp hb))
      have hcard := Finset.card_le_card hsub
      rw [List.toFinset_card_of_nodup h.nodup, List.length_append, List.length_cons] at hcard
      omega
  | succ fuel ih =>
    cases stack with
    | nil =>
      refine .inr ⟨done, rfl, ?_, fun a => h.mem_done_iff, h.ok⟩
      simpa using h.nodup
    | cons a stack =>
      cases hvisit : visit a with
      | error e =>
        refine .inl ⟨a, e, h.reached a (List.mem_append_right _ List.mem_cons_self), hvisit, ?_⟩
        rw [drain, hvisit]
      | ok r =>
        have hstep : drain visit (fuel + 1) (done.flatMap (found visit)) (a :: stack) =
            drain visit fuel ((done ++ [a]).flatMap (found visit)) (r.2 ++ stack) := by
          rw [drain, hvisit, List.flatMap_append, List.flatMap_singleton]
          dsimp only
          rw [show found visit a = r.1 by rw [found, hvisit]]
        rw [hstep]
        refine ih (h.round htree hvisit) ?_
        rw [List.length_append, List.length_singleton]
        omega

end Worklist
