import Landropic.Cas.WriteAtomic

set_option autoImplicit false

/-!
# Rules for the actions of a store

What has to be shown of a single action, for tasks among others and for a task on its own whose
actions do not fail.

## Main definitions

* `Cas.noFault` — the inputs with which actions do not fail.

## Main results

* `Cas.wp_disk`, `Cas.wp_modify`, `Cas.wp_ask`, `Cas.wp_pathExists` — actions among those of other
  tasks.
* `Cas.wp_alone_disk` and so on — the same for a task on its own.
-/

namespace Landropic.Cas

open Proc

/-- The inputs with which actions do not fail. -/
def noFault (i : Io) : Prop := i ≠ .fail

lemma exists_noFault : ∃ i, noFault i := ⟨.ok 0, by simp [noFault]⟩

section Rules

variable {S : Spec StoreState Io Op} {ε α : Type} {op : Op} {s : StoreState}

/-- An operation of the disk, which may fail. -/
lemma wp_disk {Q : Except IoError α → StoreState → Prop} {f : Fs → Except IoError α × Fs}
    (hfail : ∀ s', S.env (some op) s s' → S.input op s' .fail →
      S.guar op s' s' ∧ Q (.error .fault) s')
    (hok : ∀ s' n, S.env (some op) s s' → S.input op s' (.ok n) → ∀ r fs', f s'.fs = (r, fs') →
      S.guar op s' { s' with fs := fs' } ∧ Q r { s' with fs := fs' }) :
    wp S Q (disk op f) s := by
  refine wp_atom fun s' henv i hi => ?_
  cases i with
  | fail => exact hfail s' henv hi
  | ok n => exact hok s' n henv hi _ _ rfl

lemma wp_modify {Q : Except ε α → StoreState → Prop} {f : StoreState → α × StoreState}
    (h : ∀ s', S.env (some op) s s' → S.guar op s' (f s').2 ∧ Q (.ok (f s').1) (f s').2) :
    wp S Q (modify op f) s :=
  wp_atom fun s' henv _ _ => h s' henv

lemma wp_ask {Q : Except ε ℕ → StoreState → Prop}
    (h : ∀ s' n, S.env (some op) s s' → S.guar op s' s' ∧ Q (.ok n) s') :
    wp S Q (ask op) s :=
  wp_atom fun s' henv _ _ => h s' _ henv

/-- A look whether a path exists, which may fail. -/
lemma wp_pathExists {Q : Except ε Bool → StoreState → Prop} {p : FilePath}
    (hfail : ∀ s', S.env (some (.pathExists p)) s s' → S.input (.pathExists p) s' .fail →
      S.guar (.pathExists p) s' s' ∧ Q (.ok false) s')
    (hok : ∀ s' n, S.env (some (.pathExists p)) s s' → S.input (.pathExists p) s' (.ok n) →
      S.guar (.pathExists p) s' s' ∧ Q (.ok (s'.fs.pathExists p)) s') :
    wp S Q (pathExists p) s := by
  refine wp_atom fun s' henv i hi => ?_
  cases i with
  | fail => exact hfail s' henv hi
  | ok n => simpa using hok s' n henv hi

end Rules

section Alone

variable {ε α : Type} {op : Op} {s : StoreState}

lemma wp_alone_disk {Q : Except IoError α → StoreState → Prop} {f : Fs → Except IoError α × Fs}
    (h : ∀ r fs', f s.fs = (r, fs') → Q r { s with fs := fs' }) :
    wp (.alone Op noFault) Q (disk op f) s := by
  refine wp_disk (fun s' _ hi => absurd rfl hi) ?_
  rintro s' n rfl - r fs' heq
  exact ⟨trivial, h r fs' heq⟩

lemma wp_alone_look {Q : Except IoError α → StoreState → Prop} {f : Fs → Except IoError α}
    (h : Q (f s.fs) s) : wp (.alone Op noFault) Q (look op f) s := by
  refine wp_alone_disk fun r fs' heq => ?_
  obtain ⟨rfl, rfl⟩ := Prod.mk.inj heq
  exact h

lemma wp_alone_modify {Q : Except ε α → StoreState → Prop} {f : StoreState → α × StoreState}
    (h : Q (.ok (f s).1) (f s).2) : wp (.alone Op noFault) Q (modify op f) s := by
  refine wp_modify ?_
  rintro s' rfl
  exact ⟨trivial, h⟩

lemma wp_alone_pathExists {Q : Except ε Bool → StoreState → Prop} {p : FilePath}
    (h : Q (.ok (s.fs.pathExists p)) s) : wp (.alone Op noFault) Q (pathExists p) s := by
  refine wp_pathExists (fun s' _ hi => absurd rfl hi) ?_
  rintro s' n rfl -
  exact ⟨trivial, h⟩

end Alone

end Landropic.Cas
