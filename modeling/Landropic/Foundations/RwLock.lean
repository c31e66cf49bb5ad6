import Mathlib.Data.Set.Finite.Lemmas

set_option autoImplicit false

/-!
# Reader-writer locks

A fair lock that is held by any number of readers or by one writer. Who asks for it joins a queue,
and takes it at the head of the queue as soon as those who hold it allow that.

## Main definitions

* `RwLock` — a lock, with who holds it and who waits for it.
* `LockCount`, `RwLock.count` — a lock of which only the number of holders is known.
* `RwLock.Blocks` — one waits for a lock because of another.
* `RwLock.Deadlocked` — some wait for each other.
* `RwLock.Use`, `RwLock.Accounted` — what each has of a family of locks, and that the locks know it.

## Main results

* `RwLock.admits_eq_count` — the count tells who is let in.
* `RwLock.Accounted.held_eq_none` — who writes is alone.
* `RwLock.Accounted.not_deadlocked` — nobody waits in a circle, if locks are taken in an order.
-/

/-- How a lock is held. -/
inductive LockMode
  | read
  | write
  deriving DecidableEq

/-- A fair reader-writer lock. -/
structure RwLock (τ : Type) where
  held : List (τ × LockMode)
  /-- Who waits, the first one at the head. -/
  queue : List (τ × LockMode)

namespace RwLock

variable {τ Λ : Type}

/-- Nobody holds the lock. -/
def free : RwLock τ := ⟨[], []⟩

section Operations

variable [DecidableEq τ] (L : RwLock τ) (t : τ) (m : LockMode)

/-- Join the queue. -/
def ask : RwLock τ := { L with queue := L.queue ++ [(t, m)] }

/-- Those who hold the lock let another one in: readers let readers in. -/
def admits : Bool := L.held.all fun h => m = .read ∧ h.2 = .read

/-- It is one's turn. -/
def canEnter : Bool := L.queue.head? = some (t, m) ∧ L.admits m

/-- Take the lock from the head of the queue. -/
def enter : RwLock τ := ⟨(t, m) :: L.held, L.queue.tail⟩

/-- Let go of the lock. -/
def leave : RwLock τ := { L with held := L.held.filter fun h => h.1 ≠ t }

end Operations

end RwLock

/-- A lock of which only is known how many hold it to read, and whether one holds it to write. -/
structure LockCount where
  readers : ℕ
  writer : Bool
  deriving DecidableEq

namespace LockCount

variable (lock : LockCount)

/-- Nobody holds the lock. -/
def free : LockCount := ⟨0, false⟩

/-- The lock can be taken to read. -/
def canRead : Bool := !lock.writer

/-- The lock can be taken to write. -/
def canWrite : Bool := !lock.writer && lock.readers == 0

end LockCount

namespace RwLock

variable {τ Λ : Type}

/-- Who holds a lock, counted. -/
def count (L : RwLock τ) : LockCount :=
  ⟨L.held.countP fun h => h.2 = .read, L.held.any fun h => h.2 = .write⟩

/-- **The count tells who is let in.** -/
theorem admits_eq_count (L : RwLock τ) (m : LockMode) : L.admits m = match m with
    | .read => L.count.canRead
    | .write => L.count.canWrite := by
  obtain ⟨held, queue⟩ := L
  cases m with
  | read =>
    induction held with
    | nil => rfl
    | cons h held ih => cases hh : h.2 <;> simp_all [admits, count, LockCount.canRead]
  | write =>
    induction held with
    | nil => rfl
    | cons h held ih => cases hh : h.2 <;> simp_all [admits, count, LockCount.canWrite]

section Blocks

variable [DecidableEq τ]

/-- A task waits for the lock because another one holds it, or waits ahead of it. -/
def Blocks (L : RwLock τ) (v u : τ) : Prop :=
  (∃ m m', (u, m) ∈ L.queue ∧ (v, m') ∈ L.held ∧ ¬ (m = .read ∧ m' = .read)) ∨
    u ∈ L.queue.map Prod.fst ∧ v ∈ (L.queue.map Prod.fst).takeWhile (· ≠ u)

/-- Some tasks all wait for each other. -/
def Deadlocked (locks : Λ → RwLock τ) : Prop :=
  ∃ D : Set τ, D.Nonempty ∧ ∀ u ∈ D, ∃ v ∈ D, ∃ l, (locks l).Blocks v u

lemma Blocks.mem_queue {L : RwLock τ} {v u : τ} (h : L.Blocks v u) :
    ∃ m, (u, m) ∈ L.queue := by
  obtain ⟨m, m', hu, -, -⟩ | ⟨hu, -⟩ := h
  · exact ⟨m, hu⟩
  · obtain ⟨⟨_, m⟩, hm, rfl⟩ := List.mem_map.mp hu
    exact ⟨m, hm⟩

/-- The first of those who wait does not wait for one ahead of it. -/
lemma exists_first {D : Set τ} {H : τ → Prop} {queue : List τ}
    (h : ∀ u ∈ D, u ∈ queue → H u ∨ ∃ v ∈ D, v ∈ queue.takeWhile (· ≠ u)) {u : τ} (hu : u ∈ D)
    (hqueue : u ∈ queue) : ∃ w ∈ D, H w := by
  induction queue with
  | nil => cases hqueue
  | cons x rest ih =>
    by_cases hx : x ∈ D
    · obtain hfirst | ⟨v, -, hv⟩ := h x hx List.mem_cons_self
      · exact ⟨x, hx, hfirst⟩
      · simp at hv
    · have hrest : ∀ w ∈ D, w ∈ x :: rest → w ∈ rest := by
        intro w hw hmem
        obtain rfl | hmem := List.mem_cons.mp hmem
        · exact absurd hw hx
        · exact hmem
      refine ih (fun w hw hmem => ?_) (hrest u hu hqueue)
      obtain hfirst | ⟨v, hv, hahead⟩ := h w hw (List.mem_cons_of_mem _ hmem)
      · exact .inl hfirst
      · have hxw : x ≠ w := fun heq => hx (heq ▸ hw)
        rw [List.takeWhile_cons_of_pos (by simpa using hxw)] at hahead
        obtain rfl | hahead := List.mem_cons.mp hahead
        · exact absurd hv hx
        · exact .inr ⟨v, hv, hahead⟩

end Blocks

/-! ## Families of locks -/

/-- What a task has of a family of locks. -/
structure Use (Λ : Type) where
  held : Λ → Option LockMode
  /-- The lock it waits for. -/
  asked : Option (Λ × LockMode)

namespace Use

variable [DecidableEq Λ] (use : Use Λ)

/-- The task has no locks. -/
def none : Use Λ := ⟨fun _ => .none, .none⟩

/-- The task waits for a lock. -/
def ask (l : Λ) (m : LockMode) : Use Λ := { use with asked := some (l, m) }

/-- The task takes the lock it waits for. -/
def enter (l : Λ) (m : LockMode) : Use Λ := ⟨Function.update use.held l (some m), .none⟩

/-- The task lets go of a lock. -/
def leave (l : Λ) : Use Λ := { use with held := Function.update use.held l .none }

end Use

/-- The locks know what each task has of them, and no two tasks exclude each other. -/
structure Accounted (locks : Λ → RwLock τ) (use : τ → Use Λ) : Prop where
  held : ∀ {u l m}, (u, m) ∈ (locks l).held ↔ (use u).held l = some m
  queue : ∀ {u l m}, (u, m) ∈ (locks l).queue ↔ (use u).asked = some (l, m)
  nodup : ∀ l, (locks l).queue.Nodup
  exclusive : ∀ {u v l m m'}, (use u).held l = some m → (use v).held l = some m' → u ≠ v →
    m = .read ∧ m' = .read

namespace Accounted

variable {locks : Λ → RwLock τ} {use : τ → Use Λ} {t u v : τ} {l : Λ} {m : LockMode}

lemma free : Accounted (fun _ : Λ => (RwLock.free : RwLock τ)) fun _ => .none where
  held := by simp [RwLock.free, Use.none]
  queue := by simp [RwLock.free, Use.none]
  nodup _ := List.nodup_nil
  exclusive := by simp [Use.none]

section Steps

variable [DecidableEq τ] [DecidableEq Λ]

/-- A task that waits for no lock joins a queue. -/
lemma ask (h : Accounted locks use) (hasked : (use t).asked = Option.none) :
    Accounted (Function.update locks l ((locks l).ask t m))
      (Function.update use t ((use t).ask l m)) where
  held {u l' m'} := by
    have hheld : (Function.update locks l ((locks l).ask t m) l').held = (locks l').held := by
      by_cases hl : l' = l
      · subst hl
        simp [RwLock.ask]
      · simp [hl]
    rw [hheld, h.held]
    by_cases hu : u = t
    · subst hu
      simp [Use.ask]
    · simp [hu]
  queue {u l' m'} := by
    by_cases hl : l' = l
    · subst hl
      rw [Function.update_self, RwLock.ask, List.mem_append, h.queue]
      by_cases hu : u = t
      · subst hu
        simp [Use.ask, hasked, eq_comm]
      · simp [hu]
    · rw [Function.update_of_ne hl, h.queue]
      by_cases hu : u = t
      · subst hu
        simp [Use.ask, hasked, Ne.symm hl]
      · simp [hu]
  nodup l' := by
    by_cases hl : l' = l
    · subst hl
      rw [Function.update_self]
      refine List.nodup_append.mpr ⟨h.nodup l', List.nodup_singleton _, fun a ha b hb hab => ?_⟩
      obtain rfl := List.mem_singleton.mp hb
      subst hab
      rw [h.queue, hasked] at ha
      cases ha
    · rw [Function.update_of_ne hl]
      exact h.nodup l'
  exclusive {u v l' m₁ m₂} hu hv := by
    have hheld : ∀ w, (Function.update use t ((use t).ask l m) w).held = (use w).held := by
      intro w
      by_cases hw : w = t
      · subst hw
        simp [Use.ask]
      · simp [hw]
    rw [hheld] at hu hv
    exact h.exclusive hu hv

lemma enter (h : Accounted locks use) (hturn : (locks l).canEnter t m = true) :
    Accounted (Function.update locks l ((locks l).enter t m))
      (Function.update use t ((use t).enter l m)) := by
  rw [canEnter, decide_eq_true_eq] at hturn
  obtain ⟨hhead, hadmits⟩ := hturn
  obtain ⟨rest, hrest⟩ : ∃ rest, (locks l).queue = (t, m) :: rest := by
    cases hqueue : (locks l).queue with
    | nil => simp [hqueue] at hhead
    | cons x rest =>
      rw [hqueue, List.head?_cons] at hhead
      exact ⟨rest, by rw [Option.some.inj hhead]⟩
  have hasked : (use t).asked = some (l, m) :=
    h.queue.mp (hrest ▸ List.mem_cons_self)
  have hnodup := h.nodup l
  rw [hrest, List.nodup_cons] at hnodup
  have hin : ∀ {v m'}, (use v).held l = some m' → m = .read ∧ m' = .read := by
    intro v m' hv
    have hall := List.all_eq_true.mp hadmits (v, m') (h.held.mpr hv)
    simpa using hall
  refine ⟨fun {u l' m'} => ?_, fun {u l' m'} => ?_, fun l' => ?_,
    fun {u v l' m₁ m₂} hu hv huv => ?_⟩
  · by_cases hl : l' = l
    · subst hl
      rw [Function.update_self, RwLock.enter, List.mem_cons, h.held]
      by_cases hu : u = t
      · subst hu
        have hfree : ∀ m', (use u).held l' = some m' → m' = m := fun m' hm' => by
          rw [(hin hm').1, (hin hm').2]
        simp only [Function.update_self, Use.enter, Prod.mk.injEq, true_and, Option.some.injEq]
        exact ⟨fun hor => hor.elim Eq.symm fun hm' => (hfree m' hm').symm, fun heq => .inl heq.symm⟩
      · simp [hu]
    · rw [Function.update_of_ne hl, h.held]
      by_cases hu : u = t
      · subst hu
        simp [Use.enter, hl]
      · simp [hu]
  · by_cases hu : u = t
    · subst hu
      rw [Function.update_self]
      simp only [Use.enter, reduceCtorEq, iff_false]
      by_cases hl : l' = l
      · subst hl
        rw [Function.update_self, RwLock.enter, hrest, List.tail_cons]
        intro hmem
        have hsome := h.queue.mp (hrest ▸ List.mem_cons_of_mem _ hmem : (u, m') ∈ (locks l').queue)
        rw [hasked, Option.some.injEq, Prod.mk.injEq] at hsome
        obtain ⟨-, rfl⟩ := hsome
        exact hnodup.1 hmem
      · rw [Function.update_of_ne hl, h.queue, hasked]
        simp [Ne.symm hl]
    · rw [Function.update_of_ne hu, ← h.queue]
      by_cases hl : l' = l
      · subst hl
        rw [Function.update_self, RwLock.enter, hrest, List.tail_cons, List.mem_cons]
        simp [hu]
      · rw [Function.update_of_ne hl]
  · by_cases hl : l' = l
    · subst hl
      rw [Function.update_self, RwLock.enter, hrest]
      exact hnodup.2
    · rw [Function.update_of_ne hl]
      exact h.nodup l'
  · by_cases hl : l' = l
    · subst hl
      by_cases hut : u = t
      · subst hut
        rw [Function.update_of_ne (Ne.symm huv)] at hv
        have hm : m = m₁ := by simpa [Use.enter] using hu
        subst hm
        exact hin hv
      · rw [Function.update_of_ne hut] at hu
        by_cases hvt : v = t
        · subst hvt
          have hm : m = m₂ := by simpa [Use.enter] using hv
          subst hm
          exact (hin hu).symm
        · rw [Function.update_of_ne hvt] at hv
          exact h.exclusive hu hv huv
    · have hheld : ∀ w,
          (Function.update use t ((use t).enter l m) w).held l' = (use w).held l' := by
        intro w
        by_cases hw : w = t
        · subst hw
          simp [Use.enter, hl]
        · simp [hw]
      rw [hheld] at hu hv
      exact h.exclusive hu hv huv

lemma leave (h : Accounted locks use) :
    Accounted (Function.update locks l ((locks l).leave t))
      (Function.update use t ((use t).leave l)) := by
  have hle : ∀ {w l' m'}, (Function.update use t ((use t).leave l) w).held l' = some m' ↔
      (use w).held l' = some m' ∧ ¬ (w = t ∧ l' = l) := by
    intro w l' m'
    by_cases hw : w = t
    · subst hw
      by_cases hl : l' = l
      · subst hl
        simp [Use.leave]
      · simp [Use.leave, hl]
    · simp [hw]
  refine ⟨fun {u l' m'} => ?_, fun {u l' m'} => ?_, fun l' => ?_,
    fun {u v l' m₁ m₂} hu hv huv => ?_⟩
  · rw [hle, ← h.held]
    by_cases hl : l' = l
    · subst hl
      simp [RwLock.leave]
    · simp [hl]
  · have hqueue : (Function.update locks l ((locks l).leave t) l').queue = (locks l').queue := by
      by_cases hl : l' = l
      · subst hl
        simp [RwLock.leave]
      · simp [hl]
    rw [hqueue, h.queue]
    by_cases hu : u = t
    · subst hu
      simp [Use.leave]
    · simp [hu]
  · by_cases hl : l' = l
    · subst hl
      rw [Function.update_self]
      exact h.nodup l'
    · rw [Function.update_of_ne hl]
      exact h.nodup l'
  · exact h.exclusive (hle.mp hu).1 (hle.mp hv).1 huv

end Steps

/-- **Who writes is alone.** -/
theorem held_eq_none (h : Accounted locks use) (hheld : (use u).held l = some .write)
    (hne : v ≠ u) : (use v).held l = Option.none := by
  cases hv : (use v).held l with
  | none => rfl
  | some m => cases (h.exclusive hheld hv hne.symm).1

/-- **Nobody waits in a circle**, if every task that waits for a lock holds only earlier ones.

**Proof sketch.** Among those who wait for each other take one whose lock is the latest. The first
of them in the queue of that lock waits for one who holds it, and who waits for a later lock. -/
theorem not_deadlocked [DecidableEq τ] [Finite Λ] (h : Accounted locks use) (rank : Λ → ℕ)
    (hrank : ∀ {u l m}, (use u).asked = some (l, m) → ∀ l', (use u).held l' ≠ Option.none →
      rank l' < rank l) : ¬ Deadlocked locks := by
  intro ⟨D, ⟨u, hu⟩, hD⟩
  have hwaits : ∀ w ∈ D, ∃ l m, (use w).asked = some (l, m) := by
    intro w hw
    obtain ⟨_, -, l, hblocks⟩ := hD w hw
    obtain ⟨m, hm⟩ := hblocks.mem_queue
    exact ⟨l, m, h.queue.mp hm⟩
  obtain ⟨l, ⟨w, hw, m, hasked⟩, hmax⟩ :=
    Set.exists_max_image {l | ∃ w ∈ D, ∃ m, (use w).asked = some (l, m)} rank (Set.toFinite _)
      (let ⟨l, m, hm⟩ := hwaits u hu; ⟨l, u, hu, m, hm⟩)
  have hfirst : ∀ x ∈ D, x ∈ (locks l).queue.map Prod.fst →
      (∃ v ∈ D, ∃ m', (v, m') ∈ (locks l).held) ∨
        ∃ v ∈ D, v ∈ ((locks l).queue.map Prod.fst).takeWhile (· ≠ x) := by
    intro x hx hmem
    obtain ⟨⟨_, mx⟩, hmx, rfl⟩ := List.mem_map.mp hmem
    obtain ⟨v, hv, l', hblocks⟩ := hD _ hx
    obtain ⟨mx', hmx'⟩ := hblocks.mem_queue
    have hsame := (h.queue.mp hmx).symm.trans (h.queue.mp hmx')
    obtain ⟨rfl, -⟩ := Prod.mk.inj (Option.some.inj hsame)
    obtain ⟨_, m', -, hheld, -⟩ | ⟨-, hahead⟩ := hblocks
    · exact .inl ⟨v, hv, m', hheld⟩
    · exact .inr ⟨v, hv, hahead⟩
  obtain ⟨-, -, v, hv, m', hheld⟩ :=
    exists_first hfirst hw (List.mem_map.mpr ⟨(w, m), h.queue.mpr hasked, rfl⟩)
  obtain ⟨l', mv, hv'⟩ := hwaits v hv
  have hlt : rank l < rank l' := hrank hv' l (by rw [h.held.mp hheld]; simp)
  exact absurd (hmax l' ⟨v, hv, mv, hv'⟩) (by omega)

end Accounted

end RwLock
