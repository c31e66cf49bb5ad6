import Landropic.Foundations.Duplex
import Landropic.Foundations.Pipes

set_option autoImplicit false

/-!
# Two programs on a connection

Two programs are connected and may open any number of streams, each of which carries bytes in both
directions. A program uses the streams it has opened and those of the other program it has accepted.
When a program ends the connection is closed, and the other one comes to the ends of all streams.

## Main definitions

* `StreamOp` — what a program does next.
* `Wire` — the streams and the bytes under way on them.
* `Link` — two programs on a connection; `Link.step`, one of them takes its next step.
* `Link.Waits`, `Link.Deadlocked` — a program waits for the other one; both do.
* `StreamOp.Own` — a program keeps to its own streams.
* `Talk.op` — a program that talks over a stream; `Talk.waits`, it waits for an answer.

## Main results

* `Link.nothing_comes_of_run` — nothing comes back on a stream that nobody accepts.
* `Talk.move_op` — a program that gets no answer.
* `Link.exists_run_waits` — a program that waits for an answer comes to do so.

## Design

Sending never waits. What comes from outside, as the faults of a disk, is fixed with the programs,
which are deterministic.
-/

open Duplex (Side)

/-- A stream: who has opened it, and its number among those that side has opened. -/
structure BiStream where
  opener : Side
  number : ℕ
  deriving DecidableEq

/-- What a program does next, for programs `P` with states `σ`. -/
inductive StreamOp (P σ : Type) : Type
  | done
  | openBi (next : BiStream → P)
  /-- Wait for a stream of the other side, or for the end of the connection. -/
  | acceptBi (next : Option BiStream → P)
  | send (stream : BiStream) (bytes : Bytes) (next : P)
  /-- Wait for so many bytes, or for the end of the stream. -/
  | recv (stream : BiStream) (n : ℕ) (next : Option Bytes → P)
  | act (next : σ → P × σ)

/-- The streams of a connection. -/
structure Wire where
  /-- How many streams each side has opened. -/
  opened : Side → ℕ
  /-- How many streams of the other side each side has accepted. -/
  accepted : Side → ℕ
  /-- What is under way to each side on each stream. -/
  toSide : Side → BiStream → Bytes

namespace Wire

/-- A connection without streams. -/
def fresh : Wire := ⟨fun _ => 0, fun _ => 0, fun _ _ => []⟩

/-- Set what is under way to a side on a stream. -/
def put (w : Wire) (side : Side) (stream : BiStream) (bytes : Bytes) : Wire :=
  { w with
    toSide := Function.update w.toSide side (Function.update (w.toSide side) stream bytes) }

/-- A side opens another stream. -/
def openBi (w : Wire) (side : Side) : Wire :=
  { w with opened := Function.update w.opened side (w.opened side + 1) }

/-- Nothing is under way on the streams of a side. -/
def Silent (w : Wire) (side : Side) : Prop :=
  ∀ stream, stream.opener = side → w.toSide side stream = []

variable {w : Wire} {side u : Side} {stream other : BiStream} {bytes : Bytes}

lemma toSide_put_of_side_ne (h : u ≠ side) :
    (w.put side stream bytes).toSide u = w.toSide u :=
  Function.update_of_ne h ..

lemma toSide_put_of_ne (h : other ≠ stream) :
    (w.put side stream bytes).toSide u other = w.toSide u other := by
  by_cases hu : u = side
  · subst hu
    show Function.update w.toSide u _ u other = _
    rw [Function.update_self, Function.update_of_ne h]
  · rw [toSide_put_of_side_ne hu]

@[simp] lemma toSide_put_self : (w.put side stream bytes).toSide side stream = bytes := by
  show Function.update w.toSide side _ side stream = _
  rw [Function.update_self, Function.update_self]

end Wire

namespace StreamOp

variable {P σ : Type}

/-- The program has ended. -/
def isDone : StreamOp P σ → Bool
  | done => true
  | _ => false

/-- The next step of a program, given whether the other one has ended. -/
def move (side : Side) (closed : Bool) (s : σ) (w : Wire) : StreamOp P σ → Option (P × σ × Wire)
  | done => none
  | openBi next => some (next ⟨side, w.opened side⟩, s, w.openBi side)
  | acceptBi next =>
    if w.accepted side < w.opened side.other then
      some (next (some ⟨side.other, w.accepted side⟩), s,
        { w with accepted := Function.update w.accepted side (w.accepted side + 1) })
    else if closed then some (next none, s, w)
    else none
  | send stream bytes next =>
    some (next, s, w.put side.other stream (w.toSide side.other stream ++ bytes))
  | recv stream n next =>
    let bytes := w.toSide side stream
    if n ≤ bytes.length then
      some (next (some (bytes.take n)), s, w.put side stream (bytes.drop n))
    else if closed then some (next none, s, w.put side stream [])
    else none
  | act next => some ((next s).1, (next s).2, w)

/-- The program uses its own streams only, and so does what follows. -/
def Own (side : Side) (I : P → Prop) : StreamOp P σ → Prop
  | done => True
  | openBi next => ∀ stream, stream.opener = side → I (next stream)
  | acceptBi _ => False
  | send stream _ next => stream.opener = side ∧ I next
  | recv stream _ next => stream.opener = side ∧ ∀ got, I (next got)
  | act next => ∀ s, I (next s).1

end StreamOp

/-- Two programs on a connection, with their states. -/
structure Link (P σ : Side → Type) where
  prog : ∀ side, P side
  state : ∀ side, σ side
  wire : Wire

namespace Link

variable {P σ : Side → Type} (op : ∀ side, P side → StreamOp (P side) (σ side))

/-- A program has ended. -/
def ended (x : Link P σ) (side : Side) : Bool := (op side (x.prog side)).isDone

/-- Set the program of a side and its state, and the wire. -/
def set (x : Link P σ) (side : Side) (p : P side) (s : σ side) (w : Wire) : Link P σ where
  prog := Function.update x.prog side p
  state := Function.update x.state side s
  wire := w

/-- One of the programs takes its next step. -/
def step (x : Link P σ) (side : Side) : Option (Link P σ) :=
  ((op side (x.prog side)).move side (x.ended op side.other) (x.state side) x.wire).map fun moved =>
    x.set side moved.1 moved.2.1 moved.2.2

/-- The runs of two programs, in any order of their steps. -/
def Run : Link P σ → Link P σ → Prop := Runs.Run (step op) fun _ _ => True

/-- A program that has not ended cannot go on. -/
def Waits (x : Link P σ) (side : Side) : Prop := x.ended op side = false ∧ x.step op side = none

/-- Both programs wait for each other. -/
def Deadlocked (x : Link P σ) : Prop := ∀ side, x.Waits op side

variable {op} {x y : Link P σ} {side : Side} {p : P side} {s : σ side} {w : Wire}

@[simp] lemma prog_set_self : (x.set side p s w).prog side = p := Function.update_self ..

@[simp] lemma state_set_self : (x.set side p s w).state side = s := Function.update_self ..

@[simp] lemma wire_set : (x.set side p s w).wire = w := rfl

@[simp] lemma prog_set_other : (x.set side p s w).prog side.other = x.prog side.other :=
  Function.update_of_ne (Side.other_ne side) ..

@[simp] lemma state_set_other : (x.set side p s w).state side.other = x.state side.other :=
  Function.update_of_ne (Side.other_ne side) ..

@[simp] lemma ended_set_other :
    (x.set side p s w).ended op side.other = x.ended op side.other := by
  rw [ended, ended, prog_set_other]

lemma step_eq_some : x.step op side = some y ↔ ∃ p s w,
    (op side (x.prog side)).move side (x.ended op side.other) (x.state side) x.wire =
      some (p, s, w) ∧ y = x.set side p s w := by
  rw [step, Option.map_eq_some_iff]
  constructor
  · rintro ⟨⟨p, s, w⟩, hmove, rfl⟩
    exact ⟨p, s, w, hmove, rfl⟩
  · rintro ⟨p, s, w, hmove, rfl⟩
    exact ⟨(p, s, w), hmove, rfl⟩

/-- A program opens a stream. -/
lemma step_of_openBi {next : BiStream → P side} (h : op side (x.prog side) = .openBi next) :
    x.step op side =
      some (x.set side (next ⟨side, x.wire.opened side⟩) (x.state side) (x.wire.openBi side)) := by
  rw [step, h]
  rfl

lemma step_of_act {next : σ side → P side × σ side} (h : op side (x.prog side) = .act next) :
    x.step op side =
      some (x.set side (next (x.state side)).1 (next (x.state side)).2 x.wire) := by
  rw [step, h]
  rfl

/-- A program that opens a stream, and goes on with it as its state says. -/
lemma exists_run_open {opening next : BiStream → P side}
    (hopen : op side (x.prog side) = .openBi opening)
    (hact : ∀ stream, op side (opening stream) = .act fun s => (next stream, s)) :
    ∃ stream y, stream.opener = side ∧ Run op x y ∧ y.prog side = next stream ∧
      y.prog side.other = x.prog side.other := by
  have hfirst := step_of_openBi hopen
  set stream : BiStream := ⟨side, x.wire.opened side⟩
  set y := x.set side (opening stream) (x.state side) (x.wire.openBi side) with hy
  have hnext : op side (y.prog side) = .act fun s => (next stream, s) := by
    rw [hy, prog_set_self, hact]
  exact ⟨stream, _, rfl, .head ⟨side, trivial, hfirst⟩
    (.single ⟨side, trivial, step_of_act hnext⟩), prog_set_self,
    prog_set_other.trans prog_set_other⟩

lemma step_eq_none : x.step op side = none ↔
    (op side (x.prog side)).move side (x.ended op side.other) (x.state side) x.wire = none := by
  rw [step, Option.map_eq_none_iff]

lemma ended_eq_false_of_step (h : x.step op side = some y) : x.ended op side = false := by
  obtain ⟨p, s, w, hmove, -⟩ := step_eq_some.mp h
  rw [ended]
  cases hop : op side (x.prog side) with
  | done =>
    rw [hop] at hmove
    cases hmove
  | _ => rfl

/-- Both programs keep to their own streams, and nothing is under way on these. -/
def Apart (I : ∀ side, P side → Prop) (x : Link P σ) : Prop :=
  ∀ side, I side (x.prog side) ∧ x.wire.Silent side

/-- A program that keeps to its own streams gets nothing, and sends nothing that the other one
gets. -/
lemma move_of_own {o : StreamOp (P side) (σ side)} {I : P side → Prop} {closed : Bool}
    {s' : σ side} {w' : Wire} (hown : o.Own side I) (hsilent : ∀ u, w.Silent u)
    (hmove : o.move side closed s w = some (p, s', w')) : I p ∧ ∀ u, w'.Silent u := by
  cases o with
  | done => cases hmove
  | acceptBi next => exact hown.elim
  | openBi next =>
    cases hmove
    exact ⟨hown _ rfl, hsilent⟩
  | act next =>
    cases hmove
    exact ⟨hown s, hsilent⟩
  | send stream bytes next =>
    cases hmove
    refine ⟨hown.2, fun u other hother => ?_⟩
    by_cases hstream : other = stream
    · have hne : u ≠ side.other := by
        rw [← hother, hstream, hown.1]
        exact (Side.other_ne side).symm
      rw [Wire.toSide_put_of_side_ne hne]
      exact hsilent u other hother
    · rw [Wire.toSide_put_of_ne hstream]
      exact hsilent u other hother
  | recv stream n next =>
    have hempty : w.toSide side stream = [] := hsilent side stream hown.1
    have hput : ∀ u, (w.put side stream []).Silent u := by
      intro u other hother
      by_cases hstream : other = stream
      · obtain rfl : u = side := by rw [← hother, hstream, hown.1]
        rw [hstream, Wire.toSide_put_self]
      · rw [Wire.toSide_put_of_ne hstream]
        exact hsilent u other hother
    simp only [StreamOp.move, hempty, List.take_nil, List.drop_nil] at hmove
    split_ifs at hmove
    · cases hmove
      exact ⟨hown.2 _, hput⟩
    · cases hmove
      exact ⟨hown.2 _, hput⟩

lemma Apart.step {I : ∀ side, P side → Prop}
    (hown : ∀ side p, I side p → (op side p).Own side (I side)) (h : x.Apart I)
    (hstep : x.step op side = some y) : y.Apart I := by
  obtain ⟨p, s, w, hmove, rfl⟩ := step_eq_some.mp hstep
  obtain ⟨hp, hsilent⟩ := move_of_own (hown side _ (h side).1) (fun u => (h u).2) hmove
  intro u
  refine ⟨?_, hsilent u⟩
  obtain rfl | rfl := Side.eq_or_eq_other side u
  · rw [prog_set_self]
    exact hp
  · rw [prog_set_other]
    exact (h _).1

/-- **Nothing comes back on a stream that nobody accepts.** Two programs that keep to their own
streams get nothing, in any run.

**Proof sketch.** What a program sends on a stream of its own is under way to the other one, which
does not use this stream. -/
theorem nothing_comes_of_run {I : ∀ side, P side → Prop}
    (hown : ∀ side p, I side p → (op side p).Own side (I side)) (h : x.Apart I)
    (hrun : Run op x y) : y.Apart I :=
  Runs.Run.invariant (I := fun z => z.Apart I) hrun h fun _ h₁ _ hstep => h₁.step hown hstep

end Link

namespace Talk

variable {σ ι ε α P : Type}

/-- A program that talks over a stream, in place of programs `P` that it is a part of. -/
def op (i : ι) (stream : BiStream) (during : Talk σ ι ε α → P) (finish : Except ε α → P) :
    Talk σ ι ε α → StreamOp P σ
  | ret r => .act fun s => (finish r, s)
  | send bytes next => .send stream bytes (during (next i))
  | recv n next => .recv stream n fun got => during (next got)
  | act eff next => .act fun s => (during (next i s), eff i s)

/-- A program that gets no answer comes to wait for one. -/
def waits (i : ι) : Talk σ ι ε α → σ → Prop
  | ret _, _ => False
  | send _ next, s => (next i).waits i s
  | recv n next, s => n ≤ 0 → (next (some [])).waits i s
  | act eff next, s => (next i s).waits i (eff i s)

variable {i : ι} {stream : BiStream} {during : Talk σ ι ε α → P} {finish : Except ε α → P}
  {side : Side} {closed : Bool} {s s' : σ} {p : P} {w w' : Wire}

/-! ### Waiting for an answer -/

section Waits

variable {β : Type} {k : α → Talk σ ι ε β}

lemma waits_send_bind {bytes : Bytes} {next : ι → Talk σ ι ε α} :
    (send bytes next >>= k).waits i s ↔ (next i >>= k).waits i s := Iff.rfl

lemma waits_sendAll_bind {bytes : Bytes} {fault : ι → Option ε} {k : Unit → Talk σ ι ε β} :
    (sendAll bytes fault >>= k).waits i s ↔ fault i = none ∧ (k ()).waits i s := by
  rw [sendAll, waits_send_bind]
  cases fault i with
  | none => exact (and_iff_right rfl).symm
  | some e => exact iff_of_false id fun h => by cases h.1

lemma waits_readExact_bind {n : ℕ} {e : ε} {k : Bytes → Talk σ ι ε β} (hn : 0 < n) :
    (readExact n e >>= k).waits i s := fun hzero => absurd hn (Nat.not_lt.mpr hzero)

end Waits

/-! ### Over a stream -/

/-- A program that talks over a stream of its own keeps to it. -/
lemma own_op {I : P → Prop} (hstream : stream.opener = side) (hduring : ∀ t, I (during t))
    (hfinish : ∀ r, I (finish r)) (t : Talk σ ι ε α) :
    (t.op i stream during finish).Own side I := by
  cases t with
  | ret r => exact fun _ => hfinish r
  | send bytes next => exact ⟨hstream, hduring _⟩
  | recv n next => exact ⟨hstream, fun got => hduring _⟩
  | act eff next => exact fun _ => hduring _

@[simp] lemma isDone_op (t : Talk σ ι ε α) : (t.op i stream during finish).isDone = false := by
  cases t <;> rfl

/-- **A program that gets no answer** has the results it has on an empty stream, and waits where it
does, as long as the connection is open. -/
theorem move_op {t : Talk σ ι ε α} (hempty : w.toSide side stream = [])
    (hmove : (t.op i stream during finish).move side closed s w = some (p, s', w')) :
    (∃ r, t = ret r ∧ p = finish r ∧ s' = s) ∨
      ∃ t', p = during t' ∧ t'.run i [] s' = t.run i [] s ∧
        (closed = false → (t'.waits i s' ↔ t.waits i s)) := by
  cases t with
  | ret r =>
    cases hmove
    exact .inl ⟨r, rfl, rfl, rfl⟩
  | send bytes next =>
    cases hmove
    exact .inr ⟨next i, rfl, rfl, fun _ => Iff.rfl⟩
  | act eff next =>
    cases hmove
    exact .inr ⟨next i s, rfl, rfl, fun _ => Iff.rfl⟩
  | recv n next =>
    simp only [op, StreamOp.move, hempty, List.take_nil, List.length_nil] at hmove
    rw [run, List.length_nil, List.take_nil, List.drop_nil]
    split_ifs at hmove ⊢ with hn hclosed
    · cases hmove
      exact .inr ⟨next (some []), rfl, rfl, fun _ => ⟨fun h _ => h, fun h => h hn⟩⟩
    · cases hmove
      exact .inr ⟨next none, rfl, rfl, fun hopen => by cases hclosed.symm.trans hopen⟩

lemma waits_of_move_eq_none {t : Talk σ ι ε α} (hempty : w.toSide side stream = [])
    (hmove : (t.op i stream during finish).move side closed s w = none) : t.waits i s := by
  cases t with
  | ret r => cases hmove
  | send bytes next => cases hmove
  | act eff next => cases hmove
  | recv n next =>
    simp only [op, StreamOp.move, hempty, List.length_nil] at hmove
    split_ifs at hmove with hn
    exact fun hzero => absurd hzero hn

end Talk

namespace Link

variable {P σ : Side → Type} {op : ∀ side, P side → StreamOp (P side) (σ side)} {x y : Link P σ}
  {I : ∀ side, P side → Prop} {side : Side}

/-- A program comes to wait, and the other one is as it was. -/
structure ComesToWait (op : ∀ side, P side → StreamOp (P side) (σ side))
    (I : ∀ side, P side → Prop) (side : Side) (x y : Link P σ) : Prop where
  run : Run op x y
  waits : y.Waits op side
  apart : y.Apart I
  prog_other : y.prog side.other = x.prog side.other
  state_other : y.state side.other = x.state side.other

/-- A step of the program comes first. -/
lemma ComesToWait.head {p : P side} {s : σ side} {w : Wire}
    (hstep : x.step op side = some (x.set side p s w))
    (h : ComesToWait op I side (x.set side p s w) y) : ComesToWait op I side x y where
  run := .head ⟨side, trivial, hstep⟩ h.run
  waits := h.waits
  apart := h.apart
  prog_other := h.prog_other.trans prog_set_other
  state_other := h.state_other.trans state_set_other

/-- **A program that waits for an answer** comes to do so, if the other one has not ended and
neither accepts a stream.

**Proof sketch.** Induction on the program. -/
theorem exists_run_waits (hown : ∀ side p, I side p → (op side p).Own side (I side))
    {ι ε α : Type} {i : ι} {stream : BiStream} (hstream : stream.opener = side)
    {during : Talk (σ side) ι ε α → P side} {finish : Except ε α → P side}
    (hop : ∀ t, op side (during t) = t.op i stream during finish) (hx : x.Apart I)
    (hopen : x.ended op side.other = false) {t : Talk (σ side) ι ε α}
    (hprog : x.prog side = during t) (hwaits : t.waits i (x.state side)) :
    ∃ y, ComesToWait op I side x y := by
  have hgo : ∀ {x : Link P σ} {t t' : Talk (σ side) ι ε α} {s' w'},
      x.prog side = during t → x.ended op side.other = false →
      (t.op i stream during finish).move side false (x.state side) x.wire =
        some (during t', s', w') → x.step op side = some (x.set side (during t') s' w') := by
    intro x t t' s' w' hprog hopen hmove
    exact step_eq_some.mpr ⟨_, _, _, by rw [hprog, hop, hopen, hmove], rfl⟩
  induction t generalizing x with
  | ret r => exact hwaits.elim
  | send bytes next ih =>
    have hstep := hgo hprog hopen rfl
    obtain ⟨y, hy⟩ := ih i (hx.step hown hstep) (by rwa [ended_set_other]) prog_set_self
      (by rwa [state_set_self])
    exact ⟨y, hy.head hstep⟩
  | act eff next ih =>
    have hstep := hgo hprog hopen rfl
    obtain ⟨y, hy⟩ := ih i (x.state side) (hx.step hown hstep) (by rwa [ended_set_other])
      prog_set_self (by rwa [state_set_self])
    exact ⟨y, hy.head hstep⟩
  | recv n next ih =>
    have hempty : x.wire.toSide side stream = [] := (hx side).2 stream hstream
    by_cases hn : n ≤ 0
    · have hstep : x.step op side = some (x.set side (during (next (some []))) (x.state side)
          (x.wire.put side stream [])) :=
        hgo hprog hopen (by simp [Talk.op, StreamOp.move, hempty, hn])
      obtain ⟨y, hy⟩ := ih (some []) (hx.step hown hstep) (by rwa [ended_set_other])
        prog_set_self (by rw [state_set_self]; exact hwaits hn)
      exact ⟨y, hy.head hstep⟩
    · refine ⟨x, .refl, ⟨by rw [ended, hprog, hop, Talk.isDone_op], ?_⟩, hx, rfl, rfl⟩
      rw [step, hprog, hop, hopen]
      simp [Talk.op, StreamOp.move, hempty, hn]

end Link
