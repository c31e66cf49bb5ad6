import Landropic.Foundations.Bytes
import Landropic.Foundations.Runs

set_option autoImplicit false

/-!
# Programs that talk over byte streams

A program sends bytes on one stream and waits for bytes of another one, which ends when whoever
writes to it has ended. Two programs that are connected to each other take their steps in any order.

## Main definitions

* `Talk` — programs, a monad: `Talk.sendAll`, `Talk.readExact`, `Talk.atom`.
* `Talk.mapErr`, `Talk.stopAfter` — a program with other errors, or one that may be cut off.
* `Talk.run` — a program that reads a given stream.
* `Talk.Within` — a program whose reads and errors are as allowed.
* `Pipes` — two programs that are connected, and what is under way between them.
* `Pipes.step` — one of them takes its next step.

## Main results

* `Talk.run_bind`, `Talk.run_bind_eq_ok` — the rules of composition.
* `Talk.run_mapErr`, `Talk.run_of_run_stopAfter` — the rules of errors and of being cut off.
* `Talk.Within.bind`, `Talk.Within.of_run` — the rules of what is allowed.
* `Talk.run_of_move` — a step makes no difference to how a program ends.
* `Pipes.diamond` — the steps of the two programs commute.
* `Pipes.run_of_run` — where both programs have come to an end in some run, every run can be
  continued to.

## Design

What comes from outside, as the faults of a disk, is one input that is given to all actions of a
program. It is fixed while two programs run, and they are then deterministic.
-/

/-- A program over states `σ` with an input `ι`, errors `ε` and results `α`. -/
inductive Talk (σ ι ε α : Type) : Type
  | ret (r : Except ε α)
  | send (bytes : Bytes) (next : ι → Talk σ ι ε α)
  /-- Wait for so many bytes, or for the end of the stream. -/
  | recv (n : ℕ) (next : Option Bytes → Talk σ ι ε α)
  | act (eff : ι → σ → σ) (next : ι → σ → Talk σ ι ε α)

namespace Talk

variable {σ ι ε α β : Type}

/-- Sequential composition. -/
def bind (t : Talk σ ι ε α) (k : α → Talk σ ι ε β) : Talk σ ι ε β :=
  match t with
  | ret (.ok a) => k a
  | ret (.error e) => ret (.error e)
  | send bytes next => send bytes fun i => (next i).bind k
  | recv n next => recv n fun got => (next got).bind k
  | act eff next => act eff fun i s => (next i s).bind k

instance : Monad (Talk σ ι ε) where
  pure a := ret (.ok a)
  bind := bind

/-- End with an error. -/
def fail (e : ε) : Talk σ ι ε α := ret (.error e)

/-- Send bytes, unless the stream fails. -/
def sendAll (bytes : Bytes) (fault : ι → Option ε) : Talk σ ι ε Unit :=
  send bytes fun i =>
    match fault i with
    | none => ret (.ok ())
    | some e => ret (.error e)

/-- Read so many bytes, unless the stream ends before. -/
def readExact (n : ℕ) (e : ε) : Talk σ ι ε Bytes :=
  recv n fun
    | some bytes => ret (.ok bytes)
    | none => ret (.error e)

/-- A single action. -/
def atom (f : ι → σ → Except ε α × σ) : Talk σ ι ε α :=
  act (fun i s => (f i s).2) fun i s => ret (f i s).1

/-- Turn the error of a program into another one. -/
def mapErr {ε' : Type} (f : ε → ε') : Talk σ ι ε α → Talk σ ι ε' α
  | ret r => ret (r.mapError f)
  | send bytes next => send bytes fun i => (next i).mapErr f
  | recv n next => recv n fun got => (next got).mapErr f
  | act eff next => act eff fun i s => (next i s).mapErr f

/-- A program that is cut off after so many steps, unless it has ended. -/
def stopAfter (e : ε) : ℕ → Talk σ ι ε α → Talk σ ι ε α
  | _, ret r => ret r
  | 0, _ => ret (.error e)
  | k + 1, send bytes next => send bytes fun i => (next i).stopAfter e k
  | k + 1, recv n next => recv n fun got => (next got).stopAfter e k
  | k + 1, act eff next => act eff fun i s => (next i s).stopAfter e k

/-- The program has ended. -/
def isRet : Talk σ ι ε α → Bool
  | ret _ => true
  | _ => false

lemma bind_assoc' {γ : Type} (t : Talk σ ι ε α) (f : α → Talk σ ι ε β) (g : β → Talk σ ι ε γ) :
    t >>= f >>= g = t >>= fun a => f a >>= g := by
  induction t with
  | ret r => cases r <;> rfl
  | send bytes next ih => exact congrArg (send bytes) (funext ih)
  | recv n next ih => exact congrArg (recv n) (funext ih)
  | act eff next ih => exact congrArg (act eff) (funext fun i => funext (ih i))

lemma bind_pure' (t : Talk σ ι ε α) : t >>= pure = t := by
  induction t with
  | ret r => cases r <;> rfl
  | send bytes next ih => exact congrArg (send bytes) (funext ih)
  | recv n next ih => exact congrArg (recv n) (funext ih)
  | act eff next ih => exact congrArg (act eff) (funext fun i => funext (ih i))

/-! ## A program on its own -/

/-- A program that reads a given stream: its result, its state and the rest of the stream. -/
def run (i : ι) : Talk σ ι ε α → Bytes → σ → Except ε α × σ × Bytes
  | ret r, stream, s => (r, s, stream)
  | send _ next, stream, s => (next i).run i stream s
  | recv n next, stream, s =>
    if n ≤ stream.length then (next (some (stream.take n))).run i (stream.drop n) s
    else (next none).run i [] s
  | act eff next, stream, s => (next i s).run i stream (eff i s)

variable {i : ι} {stream rest : Bytes} {s s' : σ}

/-- **Composition**: the first program leads to where its continuation starts, or fails. -/
theorem run_bind (t : Talk σ ι ε α) (k : α → Talk σ ι ε β) (stream : Bytes) (s : σ) :
    (t >>= k).run i stream s =
      match t.run i stream s with
      | (.ok a, s', rest) => (k a).run i rest s'
      | (.error e, s', rest) => (.error e, s', rest) := by
  induction t generalizing stream s with
  | ret r => cases r <;> rfl
  | send bytes next ih => exact ih i stream s
  | recv n next ih =>
    show (Talk.recv n fun got => next got >>= k).run i stream s = _
    rw [run, run]
    split
    · exact ih ..
    · exact ih ..
  | act eff next ih => exact ih i s stream (eff i s)

lemma run_sendAll (bytes : Bytes) (fault : ι → Option ε) :
    (sendAll bytes fault : Talk σ ι ε Unit).run i stream s =
      match fault i with
      | none => (.ok (), s, stream)
      | some e => (.error e, s, stream) := by
  rw [sendAll, run]
  cases fault i <;> rfl

lemma run_readExact (n : ℕ) (e : ε) : (readExact n e : Talk σ ι ε Bytes).run i stream s =
    if n ≤ stream.length then (.ok (stream.take n), s, stream.drop n) else (.error e, s, []) := by
  rw [readExact, run]
  split <;> rfl

@[simp] lemma run_atom (f : ι → σ → Except ε α × σ) :
    (atom f).run i stream s = ((f i s).1, (f i s).2, stream) := rfl

/-- **A composition succeeds** if the first program does, and what it leads to. -/
theorem run_bind_eq_ok {t : Talk σ ι ε α} {k : α → Talk σ ι ε β} {b : β} :
    (t >>= k).run i stream s = (.ok b, s', rest) ↔
      ∃ a s₁ rest₁, t.run i stream s = (.ok a, s₁, rest₁) ∧
        (k a).run i rest₁ s₁ = (.ok b, s', rest) := by
  rw [run_bind]
  rcases t.run i stream s with ⟨r, s₁, rest₁⟩
  cases r with
  | error e =>
    refine iff_of_false (by simp) ?_
    rintro ⟨a, s₂, rest₂, h, -⟩
    cases h
  | ok a =>
    refine ⟨fun h => ⟨a, s₁, rest₁, rfl, h⟩, ?_⟩
    rintro ⟨a', s₂, rest₂, h, hk⟩
    cases h
    exact hk

/-- What is read exactly are the first bytes of the stream. -/
lemma run_readExact_eq_ok {n : ℕ} {e : ε} {bytes : Bytes} :
    (readExact n e : Talk σ ι ε Bytes).run i stream s = (.ok bytes, s', rest) ↔
      s' = s ∧ stream = bytes ++ rest ∧ bytes.length = n := by
  rw [run_readExact]
  constructor
  · intro h
    split_ifs at h with hn
    · cases h
      exact ⟨rfl, (List.take_append_drop n stream).symm, List.length_take_of_le hn⟩
    · cases h
  · rintro ⟨rfl, rfl, rfl⟩
    rw [if_pos (by simp), List.take_left, List.drop_left]

/-- Other errors make no difference to how a program runs. -/
lemma run_mapErr {ε' : Type} (f : ε → ε') (t : Talk σ ι ε α) (stream : Bytes) (s : σ) :
    (t.mapErr f).run i stream s =
      ((t.run i stream s).1.mapError f, (t.run i stream s).2.1, (t.run i stream s).2.2) := by
  induction t generalizing stream s with
  | ret r => rfl
  | send bytes next ih => exact ih i stream s
  | recv n next ih =>
    rw [mapErr, run, run]
    split
    · exact ih ..
    · exact ih ..
  | act eff next ih => exact ih i s stream (eff i s)

lemma run_of_run_stopAfter {e : ε} {k : ℕ} {t : Talk σ ι ε α} {a : α}
    (h : (t.stopAfter e k).run i stream s = (.ok a, s', rest)) :
    t.run i stream s = (.ok a, s', rest) := by
  induction k generalizing t stream s with
  | zero =>
    cases t with
    | ret r => exact h
    | send bytes next => cases h
    | recv n next => cases h
    | act eff next => cases h
  | succ k ih =>
    cases t with
    | ret r => exact h
    | send bytes next =>
      show (next i).run i stream s = _
      exact ih h
    | recv n next =>
      rw [stopAfter, run] at h
      rw [run]
      split_ifs at h ⊢
      · exact ih h
      · exact ih h
    | act eff next =>
      show (next i s).run i stream (eff i s) = _
      exact ih h

/-! ## What a program may read and fail with -/

/-- Every read of the program, in whatever run, is of an allowed size, and every error it may end
with is an allowed one. -/
def Within (reads : ℕ → Prop) (errors : ε → Prop) : Talk σ ι ε α → Prop
  | ret (.ok _) => True
  | ret (.error e) => errors e
  | send _ next => ∀ i, (next i).Within reads errors
  | recv n next => reads n ∧ ∀ got, (next got).Within reads errors
  | act _ next => ∀ i s, (next i s).Within reads errors

section Within

variable {reads : ℕ → Prop} {errors : ε → Prop} {t : Talk σ ι ε α}

/-- **Composition** of programs that stay within what is allowed. -/
theorem Within.bind {k : α → Talk σ ι ε β} (h : t.Within reads errors)
    (hk : ∀ a, (k a).Within reads errors) : (t >>= k).Within reads errors := by
  induction t with
  | ret r =>
    cases r with
    | ok a => exact hk a
    | error e => exact h
  | send bytes next ih => exact fun i => ih i (h i)
  | recv n next ih => exact ⟨h.1, fun got => ih got (h.2 got)⟩
  | act eff next ih => exact fun i s => ih i s (h i s)

lemma within_sendAll {bytes : Bytes} {fault : ι → Option ε}
    (h : ∀ i, ∀ e ∈ fault i, errors e) :
    (sendAll bytes fault : Talk σ ι ε Unit).Within reads errors := by
  intro i
  dsimp only
  cases hfault : fault i with
  | none => trivial
  | some e => exact h i e hfault

lemma within_readExact {n : ℕ} {e : ε} (hn : reads n) (he : errors e) :
    (readExact n e : Talk σ ι ε Bytes).Within reads errors := by
  refine ⟨hn, fun got => ?_⟩
  cases got with
  | none => exact he
  | some bytes => trivial

lemma within_atom {f : ι → σ → Except ε α × σ} (h : ∀ i s e, (f i s).1 = .error e → errors e) :
    (atom f).Within reads errors := by
  intro i s
  dsimp only
  cases hf : (f i s).1 with
  | ok a => trivial
  | error e => exact h i s e hf

lemma Within.mapErr {ε' : Type} {f : ε → ε'} {allowed : ε' → Prop}
    (h : t.Within reads errors) (hf : ∀ e, errors e → allowed (f e)) :
    (t.mapErr f).Within reads allowed := by
  induction t with
  | ret r =>
    cases r with
    | ok a => trivial
    | error e => exact hf e h
  | send bytes next ih => exact fun i => ih i (h i)
  | recv n next ih => exact ⟨h.1, fun got => ih got (h.2 got)⟩
  | act eff next ih => exact fun i s => ih i s (h i s)

/-- **An error of a run is an allowed one.** -/
theorem Within.of_run {e : ε} (h : t.Within reads errors)
    (hrun : t.run i stream s = (.error e, s', rest)) : errors e := by
  induction t generalizing stream s with
  | ret r =>
    cases hrun
    exact h
  | send bytes next ih => exact ih i (h i) hrun
  | recv n next ih =>
    rw [run] at hrun
    split at hrun
    · exact ih _ (h.2 _) hrun
    · exact ih _ (h.2 _) hrun
  | act eff next ih => exact ih i s (h i s) hrun

end Within

/-! ## A step -/

/-- The next step of a program, given what it can read and whether more may come: what is left of
the program, its state and the stream, and what it sends. -/
def move (i : ι) (closed : Bool) : Talk σ ι ε α → σ → Bytes →
    Option (Talk σ ι ε α × σ × Bytes × Bytes)
  | ret _, _, _ => none
  | send bytes next, s, stream => some (next i, s, stream, bytes)
  | recv n next, s, stream =>
    if n ≤ stream.length then some (next (some (stream.take n)), s, stream.drop n, [])
    else if closed then some (next none, s, [], [])
    else none
  | act eff next, s, stream => some (next i s, eff i s, stream, [])

/-- A step that is possible while more may come is the same when more has come. -/
lemma move_append {t t' : Talk σ ι ε α} {out : Bytes}
    (h : t.move i false s stream = some (t', s', rest, out)) (closed : Bool) (more : Bytes) :
    t.move i closed s (stream ++ more) = some (t', s', rest ++ more, out) := by
  cases t with
  | ret r => cases h
  | send bytes next =>
    cases h
    rfl
  | act eff next =>
    cases h
    rfl
  | recv n next =>
    simp only [move, Bool.false_eq_true, if_false, Option.ite_none_right_eq_some] at h
    obtain ⟨hn, h⟩ := h
    cases h
    rw [move, if_pos (by rw [List.length_append]; omega), List.take_append_of_le_length hn,
      List.drop_append_of_le_length hn]

/-- **What a step leads to** ends as the program itself, whatever will have come on the stream. -/
theorem run_of_move {t t' : Talk σ ι ε α} {closed : Bool} {out more : Bytes}
    (h : t.move i closed s stream = some (t', s', rest, out)) (hmore : closed = true → more = []) :
    t.run i (stream ++ more) s = t'.run i (rest ++ more) s' := by
  cases t with
  | ret r => cases h
  | send bytes next =>
    cases h
    rfl
  | act eff next =>
    cases h
    rfl
  | recv n next =>
    rw [move] at h
    split_ifs at h with hn hclosed
    · cases h
      rw [run, if_pos (by rw [List.length_append]; omega), List.take_append_of_le_length hn,
        List.drop_append_of_le_length hn]
    · cases h
      rw [hmore hclosed, List.append_nil, run, if_neg hn]
      rfl

lemma isRet_eq_false_of_move {closed : Bool} {t t' : Talk σ ι ε α} {out : Bytes}
    (h : t.move i closed s stream = some (t', s', rest, out)) : t.isRet = false := by
  cases t with
  | ret r => cases h
  | _ => rfl

end Talk

/-! ## Two programs -/

/-- Two programs that are connected, and the bytes under way between them. -/
structure Pipes (σ τ ι ε α : Type) where
  left : Talk σ ι ε α
  right : Talk τ ι ε α
  leftState : σ
  rightState : τ
  toLeft : Bytes
  toRight : Bytes

namespace Pipes

variable {σ τ ι ε α : Type}

/-- Exchange the sides. -/
def swap (x : Pipes σ τ ι ε α) : Pipes τ σ ι ε α where
  left := x.right
  right := x.left
  leftState := x.rightState
  rightState := x.leftState
  toLeft := x.toRight
  toRight := x.toLeft

@[simp] lemma swap_swap (x : Pipes σ τ ι ε α) : x.swap.swap = x := rfl

variable (i : ι)

/-- The left program takes its next step. -/
def stepLeft (x : Pipes σ τ ι ε α) : Option (Pipes σ τ ι ε α) :=
  (x.left.move i x.right.isRet x.leftState x.toLeft).map fun moved =>
    { x with
      left := moved.1
      leftState := moved.2.1
      toLeft := moved.2.2.1
      toRight := x.toRight ++ moved.2.2.2 }

/-- One of the programs takes its next step. -/
def step (x : Pipes σ τ ι ε α) (isLeft : Bool) : Option (Pipes σ τ ι ε α) :=
  if isLeft then x.stepLeft i else (x.swap.stepLeft i).map swap

/-- The runs of two programs, in any order of their steps. -/
def Run : Pipes σ τ ι ε α → Pipes σ τ ι ε α → Prop := Runs.Run (step i) fun _ _ => True

variable {i} {x y z : Pipes σ τ ι ε α}

lemma Run.swap (h : Run i x y) : Run i x.swap y.swap := by
  induction h with
  | refl => exact .refl
  | @tail y z _ hlast ih =>
    obtain ⟨isLeft, -, hstep⟩ := hlast
    refine ih.tail ⟨!isLeft, trivial, ?_⟩
    cases isLeft with
    | true =>
      simp only [step, if_true, Bool.not_true, Bool.false_eq_true, if_false] at hstep ⊢
      rw [swap_swap, hstep]
      rfl
    | false =>
      simp only [step, Bool.false_eq_true, if_false, Bool.not_false, if_true] at hstep ⊢
      obtain ⟨z', hz', rfl⟩ := Option.map_eq_some_iff.mp hstep
      exact hz'

/-- **The steps of the two programs commute.**

**Proof sketch.** A program only takes from the front of what is under way to it, and the other one
only adds to the end. -/
theorem diamond (hleft : x.step i true = some y) (hright : x.step i false = some z) :
    ∃ w, y.step i false = some w ∧ z.step i true = some w := by
  simp only [step, if_true, Bool.false_eq_true, if_false] at *
  obtain ⟨⟨l, ls, lrest, lout⟩, hl, rfl⟩ := Option.map_eq_some_iff.mp hleft
  obtain ⟨_, hz, rfl⟩ := Option.map_eq_some_iff.mp hright
  obtain ⟨⟨r, rs, rrest, rout⟩, hr, rfl⟩ := Option.map_eq_some_iff.mp hz
  have hlend : x.left.isRet = false := Talk.isRet_eq_false_of_move hl
  have hrend : x.right.isRet = false := Talk.isRet_eq_false_of_move hr
  rw [hrend] at hl
  rw [show x.swap.right.isRet = false from hlend] at hr
  have hl' := Talk.move_append hl r.isRet rout
  have hr' := Talk.move_append hr l.isRet lout
  refine ⟨⟨l, r, ls, rs, lrest ++ rout, rrest ++ lout⟩, ?_, ?_⟩
  · rw [stepLeft]
    exact congrArg (Option.map swap ∘ Option.map _) hr'
  · rw [stepLeft]
    exact congrArg (Option.map _) hl'

/-- **Where both programs have come to an end** in some run, every run can be continued to. -/
theorem run_of_run (hrun : Run i x y) (hend : ∀ isLeft, y.step i isLeft = none)
    (hrun' : Run i x z) : Run i z y := by
  have hlocal : ∀ a b c : Pipes σ τ ι ε α, (∃ side, True ∧ a.step i side = some b) →
      (∃ side, True ∧ a.step i side = some c) →
        ∃ d, Relation.ReflGen (fun x y => ∃ side, True ∧ step i x side = some y) b d ∧
          Run i c d := by
    rintro a b c ⟨side, -, hb⟩ ⟨side', -, hc⟩
    by_cases hside : side = side'
    · subst hside
      obtain rfl := Option.some.inj (hb.symm.trans hc)
      exact ⟨b, .refl, .refl⟩
    · cases side with
      | true =>
        obtain rfl : side' = false := by simpa using Ne.symm hside
        obtain ⟨w, hw, hw'⟩ := diamond hb hc
        exact ⟨w, .single ⟨false, trivial, hw⟩, .single ⟨true, trivial, hw'⟩⟩
      | false =>
        obtain rfl : side' = true := by simpa using Ne.symm hside
        obtain ⟨w, hw, hw'⟩ := diamond hc hb
        exact ⟨w, .single ⟨true, trivial, hw'⟩, .single ⟨false, trivial, hw⟩⟩
  obtain ⟨w, hyw, hzw⟩ := Relation.church_rosser hlocal hrun hrun'
  obtain rfl | ⟨_, ⟨isLeft, -, hstep⟩, -⟩ := Relation.ReflTransGen.cases_head hyw
  · exact hzw
  · rw [hend isLeft] at hstep
    cases hstep

end Pipes
