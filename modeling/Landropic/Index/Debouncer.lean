import Mathlib.Data.Char
import Landropic.Foundations.Coalesce
import Landropic.Foundations.Fs

set_option autoImplicit false

/-!
# The event debouncer of the watcher

A debouncer keeps the last event of each path until it has been stable for a while, and then lets it
out with the others that have.

## Main definitions

* `FsEvent` — events of the file system.
* `EventDebouncer.addEvent`, `getReadyEvents` — the calls of a debouncer.
* `EventDebouncer.run` — what it lets out in a sequence of calls.
* `FsEvent.apply` — the paths that exist after an event.

## Main results

* `EventDebouncer.emits_of_run` — a debouncer is a buffer of events by path.
* `EventDebouncer.preserves_iff` — which sequences keep their net effect in every split.

## Design

Of an event, the number of the file, the time at which it occurred and the flags are left out. A
modification of a path that is not there can be taken for nothing, or for a new path; both readings
are covered.
-/

namespace Landropic

/-- Types of file system events. -/
inductive EventKind
  /-- File or directory created. -/
  | created
  /-- File content or metadata modified. -/
  | modified
  /-- File or directory removed. -/
  | removed
  /-- File or directory renamed or moved. -/
  | renamed
  /-- Permission or attribute changes. -/
  | attributeChanged
  /-- Multiple rapid changes. -/
  | rescan
  deriving DecidableEq

/-- Enhanced file system event. -/
structure FsEvent where
  /-- Type of file system operation. -/
  kind : EventKind
  /-- Primary path affected by the event. -/
  path : FilePath
  /-- Source path for rename operations. -/
  oldPath : Option FilePath
  deriving DecidableEq

/-- Event debouncer that coalesces rapid changes to the same path. -/
structure EventDebouncer where
  pending : HashMap FilePath (FsEvent × ℕ)
  delay : ℕ

/-- A call of a debouncer, with the current time, and with the order in which the map is visited. -/
inductive EventDebouncer.Call
  | addEvent (event : FsEvent) (now : ℕ)
  | getReadyEvents (order : IterOrder FilePath) (now : ℕ)

namespace EventDebouncer

/-- A new debouncer. -/
def new (delay : ℕ) : EventDebouncer := ⟨∅, delay⟩

variable (debouncer : EventDebouncer)

/-- Add an event to the debouncer. -/
def addEvent (event : FsEvent) (now : ℕ) : EventDebouncer :=
  { debouncer with pending := debouncer.pending.insert event.path (event, now) }

/-- Whether an event has been stable for the debounce delay. -/
def ready (now : ℕ) (entry : FilePath × FsEvent × ℕ) : Bool :=
  now - entry.2.2 ≥ debouncer.delay

/-- Get events that have been stable for the debounce delay. -/
def getReadyEvents (order : IterOrder FilePath) (now : ℕ) : List FsEvent × EventDebouncer :=
  let entries := order.entries debouncer.pending
  ((entries.filter (debouncer.ready now)).map fun entry => entry.2.1,
    { debouncer with
      pending := HashMap.collect (entries.filter fun entry => !debouncer.ready now entry) })

/-- What a call lets out. -/
def call : Call → List FsEvent × EventDebouncer
  | .addEvent event now => ([], debouncer.addEvent event now)
  | .getReadyEvents order now => debouncer.getReadyEvents order now

/-- What some calls let out. -/
def run : List Call → EventDebouncer → List FsEvent × EventDebouncer
  | [], debouncer => ([], debouncer)
  | call :: calls, debouncer =>
    let (events, next) := debouncer.call call
    let (more, last) := run calls next
    (events ++ more, last)

end EventDebouncer

/-- The event that a call adds. -/
def EventDebouncer.Call.added : EventDebouncer.Call → List FsEvent
  | addEvent event _ => [event]
  | getReadyEvents _ _ => []

/-! ## The paths that exist -/

namespace FsEvent

variable (creates : Bool) (event : FsEvent)

/-- The paths that exist after an event. If `creates`, a path that is modified exists. -/
def apply (paths : Finset FilePath) : Finset FilePath :=
  match event.kind with
  | .created => insert event.path paths
  | .modified | .attributeChanged => if creates then insert event.path paths else paths
  | .removed => paths.erase event.path
  | .renamed => insert event.path (event.oldPath.elim paths paths.erase)
  | .rescan => paths

/-- The paths that exist after some events. -/
def applyAll (events : List FsEvent) (paths : Finset FilePath) : Finset FilePath :=
  events.foldl (fun paths event => event.apply creates paths) paths

/-- What an event says of a path: that it exists, that it does not, or nothing. -/
def effect (path : FilePath) (event : FsEvent) : Option Bool :=
  match event.kind with
  | .created => if path = event.path then some true else none
  | .modified | .attributeChanged => if creates = true ∧ path = event.path then some true else none
  | .removed => if path = event.path then some false else none
  | .renamed =>
    if path = event.path then some true
    else if some path = event.oldPath then some false
    else none
  | .rescan => none

variable {creates event}

lemma mem_apply {paths : Finset FilePath} {path : FilePath} :
    path ∈ event.apply creates paths ↔
      (effect creates path event).getD (decide (path ∈ paths)) = true := by
  obtain ⟨kind, target, source⟩ := event
  cases kind with
  | created => by_cases h : path = target <;> simp [apply, effect, h]
  | modified => cases creates <;> by_cases h : path = target <;> simp [apply, effect, h]
  | removed => by_cases h : path = target <;> simp [apply, effect, h]
  | renamed =>
    by_cases h : path = target
    · simp [apply, effect, h]
    · cases source with
      | none => simp [apply, effect, h]
      | some old =>
        by_cases hold : path = old
        · subst hold
          simp [apply, effect, h]
        · simp [apply, effect, h, hold]
  | attributeChanged => cases creates <;> by_cases h : path = target <;> simp [apply, effect, h]
  | rescan => simp [apply, effect]

/-- **Which paths exist after some events** is what the last of them that says something says. -/
lemma mem_applyAll {events : List FsEvent} {paths : Finset FilePath} {path : FilePath} :
    path ∈ applyAll creates events paths ↔
      (Coalesce.lastEffect (effect creates path) events).getD (decide (path ∈ paths)) = true := by
  induction events using List.reverseRecOn with
  | nil => simp [applyAll]
  | append_singleton events event ih =>
    rw [applyAll, List.foldl_append, List.foldl_cons, List.foldl_nil, mem_apply,
      Coalesce.lastEffect_append, Coalesce.lastEffect_singleton]
    cases effect creates path event with
    | some v => rfl
    | none =>
      rw [Option.getD_none, decide_eq_true_iff, Option.none_or]
      exact ih

end FsEvent

/-! ## What a debouncer lets out -/

namespace EventDebouncer

variable {debouncer : EventDebouncer}

/-- The events that wait. -/
def waiting (debouncer : EventDebouncer) (path : FilePath) : Option FsEvent :=
  (debouncer.pending.lookup path).map Prod.fst

/-- Each event waits under its path. -/
def Keyed (debouncer : EventDebouncer) : Prop :=
  ∀ path entry, debouncer.pending.lookup path = some entry → entry.1.path = path

lemma keyed_new (delay : ℕ) : (new delay).Keyed := by
  intro path entry h
  rw [new, Finmap.lookup_empty] at h
  cases h

lemma Keyed.addEvent (h : debouncer.Keyed) (event : FsEvent) (now : ℕ) :
    (debouncer.addEvent event now).Keyed :=
  HashMap.forall_lookup_insert.mpr ⟨rfl, fun path entry hlookup _ => h path entry hlookup⟩

lemma waiting_addEvent (event : FsEvent) (now : ℕ) :
    (debouncer.addEvent event now).waiting =
      Function.update debouncer.waiting event.path (some event) := by
  funext path
  rw [waiting, EventDebouncer.addEvent]
  by_cases hpath : path = event.path
  · subst hpath
    rw [Finmap.lookup_insert, Function.update_self]
    rfl
  · rw [Finmap.lookup_insert_of_ne _ hpath, Function.update_of_ne hpath]
    rfl

variable {order : IterOrder FilePath}

lemma mem_getReadyEvents {now : ℕ} {event : FsEvent} :
    event ∈ (debouncer.getReadyEvents order now).1 ↔
      ∃ path time, debouncer.pending.lookup path = some (event, time) ∧
        debouncer.ready now (path, event, time) := by
  simp only [getReadyEvents, List.mem_map, List.mem_filter]
  constructor
  · rintro ⟨⟨path, _, time⟩, ⟨hmem, hready⟩, rfl⟩
    exact ⟨path, time, order.mem_entries.mp hmem, hready⟩
  · rintro ⟨path, time, hlookup, hready⟩
    exact ⟨(path, event, time), ⟨order.mem_entries.mpr hlookup, hready⟩, rfl⟩

lemma lookup_getReadyEvents {now : ℕ} {path : FilePath} :
    (debouncer.getReadyEvents order now).2.pending.lookup path =
      (debouncer.pending.lookup path).filter fun entry => !debouncer.ready now (path, entry) :=
  order.lookup_collect_filter_entries _ _ _

lemma waiting_of_mem (h : debouncer.Keyed) {now : ℕ} {event : FsEvent}
    (hmem : event ∈ (debouncer.getReadyEvents order now).1) :
    debouncer.waiting event.path = some event ∧
      (debouncer.getReadyEvents order now).2.waiting event.path = none := by
  obtain ⟨path, time, hlookup, hready⟩ := mem_getReadyEvents.mp hmem
  obtain rfl := h path _ hlookup
  rw [waiting, waiting, lookup_getReadyEvents, hlookup]
  refine ⟨rfl, ?_⟩
  rw [Option.filter_some, if_neg (by simpa using hready)]
  rfl

lemma waiting_of_forall_ne (h : debouncer.Keyed) {now : ℕ} {path : FilePath}
    (hne : ∀ event ∈ (debouncer.getReadyEvents order now).1, event.path ≠ path) :
    (debouncer.getReadyEvents order now).2.waiting path = debouncer.waiting path := by
  rw [waiting, lookup_getReadyEvents, waiting]
  cases hlookup : debouncer.pending.lookup path with
  | none => rfl
  | some entry =>
    obtain ⟨event, time⟩ := entry
    have hready : debouncer.ready now (path, event, time) ≠ true := fun hready =>
      hne event (mem_getReadyEvents.mpr ⟨path, time, hlookup, hready⟩) (h path _ hlookup)
    rw [Option.filter_some, if_pos (by simpa using hready)]

lemma Keyed.getReadyEvents (h : debouncer.Keyed) (order : IterOrder FilePath) (now : ℕ) :
    (debouncer.getReadyEvents order now).2.Keyed := by
  intro path entry hlookup
  rw [lookup_getReadyEvents] at hlookup
  exact h path entry (Option.filter_eq_some_iff.mp hlookup).1

/-- **A debouncer is a buffer of events by path.** -/
theorem emits_of_run {calls : List Call} (h : debouncer.Keyed)
    (hdrained : (run calls debouncer).2.pending = ∅) :
    Coalesce.Emits FsEvent.path debouncer.waiting (calls.flatMap Call.added)
      (run calls debouncer).1 := by
  induction calls generalizing debouncer with
  | nil =>
    refine .done fun path => ?_
    rw [run] at hdrained
    rw [waiting, hdrained, Finmap.lookup_empty]
    rfl
  | cons call calls ih =>
    cases call with
    | addEvent event now =>
      refine .add ?_
      rw [← waiting_addEvent event now]
      exact ih (h.addEvent event now) hdrained
    | getReadyEvents order now =>
      exact .emit (fun event hevent => (waiting_of_mem h hevent).1)
        (fun event hevent => (waiting_of_mem h hevent).2)
        (fun path hne => waiting_of_forall_ne h hne) (ih (h.getReadyEvents order now) hdrained)

/-! ## Letting everything out -/

lemma run_append (calls more : List Call) (debouncer : EventDebouncer) :
    run (calls ++ more) debouncer =
      ((run calls debouncer).1 ++ (run more (run calls debouncer).2).1,
        (run more (run calls debouncer).2).2) := by
  induction calls generalizing debouncer with
  | nil => rfl
  | cons call calls ih => simp only [List.cons_append, run, ih, List.append_assoc]

/-- The calls that add some events and then let them out. -/
def batch (events : List FsEvent) (order : IterOrder FilePath) (now delay : ℕ) : List Call :=
  events.map (fun event => .addEvent event now) ++ [.getReadyEvents order (now + delay)]

lemma added_batch (events : List FsEvent) (order : IterOrder FilePath) (now delay : ℕ) :
    (batch events order now delay).flatMap Call.added = events := by
  have hadds : (events.map fun event => Call.addEvent event now).flatMap Call.added = events := by
    induction events with
    | nil => rfl
    | cons event events ih => simpa [Call.added] using ih
  rw [batch, List.flatMap_append, hadds]
  exact List.append_nil _

/-- The last event of each path waits after some events have been added. -/
lemma run_adds (hempty : debouncer.pending = ∅) (events : List FsEvent) (now : ℕ) :
    ∃ next : EventDebouncer,
      run (events.map fun event => .addEvent event now) debouncer = ([], next) ∧
      next.delay = debouncer.delay ∧
      ∀ path event time, next.pending.lookup path = some (event, time) ↔
        event.path = path ∧ time = now ∧ Coalesce.LastOf FsEvent.path events event := by
  induction events using List.reverseRecOn with
  | nil =>
    refine ⟨debouncer, rfl, rfl, fun path event time => iff_of_false ?_ fun h => ?_⟩
    · rw [hempty, Finmap.lookup_empty]
      exact nofun
    · exact List.not_mem_nil h.2.2.mem
  | append_singleton events last ih =>
    obtain ⟨next, hrun, hdelay, hlookup⟩ := ih
    refine ⟨next.addEvent last now, ?_, hdelay, fun path event time => ?_⟩
    · rw [List.map_append, run_append, hrun]
      rfl
    · rw [Coalesce.lastOf_concat]
      by_cases hpath : path = last.path
      · subst hpath
        rw [addEvent, Finmap.lookup_insert, Option.some_inj, Prod.mk.injEq]
        constructor
        · rintro ⟨rfl, rfl⟩
          exact ⟨rfl, rfl, .inl rfl⟩
        · rintro ⟨hkey, rfl, rfl | ⟨hne, -⟩⟩
          · exact ⟨rfl, rfl⟩
          · exact absurd hkey.symm hne
      · rw [addEvent, Finmap.lookup_insert_of_ne _ hpath, hlookup]
        refine and_congr_right fun hkey => and_congr_right fun _ => ?_
        have hne : last.path ≠ event.path := fun h => hpath (hkey.symm.trans h.symm)
        constructor
        · exact fun hlast => .inr ⟨hne, hlast⟩
        · rintro (rfl | ⟨-, hlast⟩)
          · exact absurd rfl hne
          · exact hlast

/-- **What is let out of some events at once**: the last event of each path, and that of the path
that is visited last comes last. -/
theorem run_batch (hempty : debouncer.pending = ∅) (events : List FsEvent)
    (order : IterOrder FilePath) (now : ℕ) :
    ∃ (out : List FsEvent) (next : EventDebouncer),
      run (batch events order now debouncer.delay) debouncer = (out, next) ∧
      next.pending = ∅ ∧ next.delay = debouncer.delay ∧
      (∀ event ∈ out, Coalesce.LastOf FsEvent.path events event) ∧
      ∀ event, Coalesce.LastOf FsEvent.path events event →
        (∀ paths, event.path ∈ paths → ∃ rest, order.iter paths = rest ++ [event.path]) →
        ∃ more, out = more ++ [event] := by
  obtain ⟨full, hrun, hdelay, hlookup⟩ := run_adds hempty events now
  have hready {path : FilePath} {entry : FsEvent × ℕ}
      (h : full.pending.lookup path = some entry) :
      full.ready (now + debouncer.delay) (path, entry) = true := by
    obtain ⟨event, time⟩ := entry
    obtain ⟨-, rfl, -⟩ := (hlookup _ _ _).mp h
    simp [ready, hdelay]
  refine ⟨(full.getReadyEvents order (now + debouncer.delay)).1,
    (full.getReadyEvents order (now + debouncer.delay)).2, ?_, ?_, hdelay, fun event hevent => ?_,
    fun event hlast horder => ?_⟩
  · rw [batch, run_append, hrun]
    simp [run, call]
  · refine Finmap.ext_lookup fun path => ?_
    rw [Finmap.lookup_empty, lookup_getReadyEvents]
    cases hentry : full.pending.lookup path with
    | none => rfl
    | some entry => simp [hready hentry]
  · obtain ⟨path, time, hentry, -⟩ := mem_getReadyEvents.mp hevent
    exact ((hlookup _ _ _).mp hentry).2.2
  · have hentry := (hlookup event.path event now).mpr ⟨rfl, rfl, hlast⟩
    obtain ⟨rest, hrest⟩ := horder full.pending.keys
      (Finmap.mem_keys.mpr (Finmap.mem_of_lookup_eq_some hentry))
    simp only [getReadyEvents, IterOrder.entries, hrest, List.filterMap_append,
      List.filter_append, List.map_append]
    refine ⟨_, congrArg _ ?_⟩
    simp [hentry, hready hentry]

/-! ## Which sequences keep their net effect -/

/-- The time of a call. -/
def Call.now : Call → ℕ
  | addEvent _ now => now
  | getReadyEvents _ now => now

/-- Calls that add some events, with time passing, until no event waits. -/
structure Splits (delay : ℕ) (events : List FsEvent) (calls : List Call) : Prop where
  added : calls.flatMap Call.added = events
  times : (calls.map Call.now).Pairwise (· ≤ ·)
  drained : (run calls (new delay)).2.pending = ∅

lemma times_batch (events : List FsEvent) (order : IterOrder FilePath) (now delay : ℕ) :
    ((batch events order now delay).map Call.now).Pairwise (· ≤ ·) ∧
      ∀ time ∈ (batch events order now delay).map Call.now, now ≤ time ∧ time ≤ now + delay := by
  have hadds : ∀ time ∈ (events.map fun event => Call.addEvent event now).map Call.now,
      time = now := by
    intro time htime
    simp only [List.map_map, List.mem_map, Function.comp_apply, Call.now] at htime
    obtain ⟨-, -, rfl⟩ := htime
    rfl
  rw [batch, List.map_append]
  constructor
  · refine List.pairwise_append.mpr ⟨?_, List.pairwise_singleton .., fun a ha b hb => ?_⟩
    · exact List.pairwise_of_forall_mem_list fun a ha b hb => by rw [hadds a ha, hadds b hb]
    · rw [hadds a ha, List.mem_singleton.mp hb]
      exact Nat.le_add_right ..
  · intro time htime
    obtain htime | htime := List.mem_append.mp htime
    · rw [hadds time htime]
      exact ⟨le_rfl, Nat.le_add_right ..⟩
    · rw [List.mem_singleton.mp htime]
      exact ⟨Nat.le_add_right .., le_rfl⟩

variable {creates : Bool} {delay : ℕ} {events : List FsEvent} {path : FilePath}

lemma exists_splits_of_quiet
    (hquiet : Coalesce.Quiet FsEvent.path (FsEvent.effect creates path) events) :
    ∃ calls, Splits delay events calls ∧
      Coalesce.lastEffect (FsEvent.effect creates path) (run calls (new delay)).1 = none := by
  obtain ⟨order, -⟩ := IterOrder.exists_iter_concat path
  obtain ⟨out, next, hrun, hempty, -, hout, -⟩ :=
    run_batch (show (new delay).pending = ∅ from rfl) events order 0
  refine ⟨_, ⟨added_batch events order 0 delay, (times_batch ..).1, ?_⟩, ?_⟩
  · exact (congrArg (fun result => result.2.pending) hrun).trans hempty
  · rw [show (run (batch events order 0 delay) (new delay)).1 = out from congrArg Prod.fst hrun,
      Coalesce.lastEffect_eq_none_iff]
    exact fun event hevent => hquiet event (hout event hevent)

/-- A sequence can be let out so that an event has the last effect that is the last one of its path
before a cut after which the sequence is quiet. -/
lemma exists_splits_of_lastOf {before after : List FsEvent} {event : FsEvent}
    (hlast : Coalesce.LastOf FsEvent.path before event) {v : Bool}
    (heffect : FsEvent.effect creates path event = some v)
    (hquiet : Coalesce.Quiet FsEvent.path (FsEvent.effect creates path) after) :
    ∃ calls, Splits delay (before ++ after) calls ∧
      Coalesce.lastEffect (FsEvent.effect creates path) (run calls (new delay)).1 = some v := by
  obtain ⟨order, horder⟩ := IterOrder.exists_iter_concat event.path
  obtain ⟨out, next, hrun, hempty, hdelay, -, hconcat⟩ :=
    run_batch (show (new delay).pending = ∅ from rfl) before order 0
  obtain ⟨out', next', hrun', hempty', -, hout', -⟩ := run_batch hempty after order delay
  rw [hdelay] at hrun'
  have hrun₂ : run (batch before order 0 delay ++ batch after order delay delay) (new delay) =
      (out ++ out', next') := by
    rw [run_append]
    simp only [new] at hrun hrun' ⊢
    rw [hrun, hrun']
  obtain ⟨more, rfl⟩ := hconcat event hlast horder
  refine ⟨batch before order 0 delay ++ batch after order delay delay, ⟨?_, ?_, ?_⟩, ?_⟩
  · rw [List.flatMap_append, added_batch, added_batch]
  · rw [List.map_append]
    refine List.pairwise_append.mpr ⟨(times_batch ..).1, (times_batch ..).1, fun a ha b hb => ?_⟩
    have hle := ((times_batch before order 0 delay).2 a ha).2
    have hge := ((times_batch after order delay delay).2 b hb).1
    omega
  · rw [hrun₂]
    exact hempty'
  · have hnone : Coalesce.lastEffect (FsEvent.effect creates path) out' = none :=
      (Coalesce.lastEffect_eq_none_iff _).mpr fun event hevent => hquiet event (hout' event hevent)
    rw [hrun₂, Coalesce.lastEffect_append, hnone, Coalesce.lastEffect_append,
      Coalesce.lastEffect_singleton, heffect]
    rfl

/-- **Which sequences keep their net effect** in every split, in every order in which events are let
out together.

**Proof sketch.** A debouncer is a buffer of events by path, and a path exists if the last event
that says something of it says so. So a split keeps the net effect of a stable sequence. In the
other direction, events before a cut are let out at once with any of them last, and those after it
at once later on. -/
theorem preserves_iff (creates : Bool) (delay : ℕ) (initial : Finset FilePath)
    (events : List FsEvent) :
    (∀ calls, Splits delay events calls →
        FsEvent.applyAll creates (run calls (new delay)).1 initial =
          FsEvent.applyAll creates events initial) ↔
      ∀ path, Coalesce.Stable FsEvent.path (FsEvent.effect creates path)
        (decide (path ∈ initial)) events := by
  constructor
  · intro hall path before after heq hquiet
    have hsame {calls : List Call} (hsplits : Splits delay events calls) :
        (Coalesce.lastEffect (FsEvent.effect creates path) (run calls (new delay)).1).getD
            (decide (path ∈ initial)) =
          (Coalesce.lastEffect (FsEvent.effect creates path) events).getD
            (decide (path ∈ initial)) := by
      rw [Bool.eq_iff_iff, ← FsEvent.mem_applyAll, ← FsEvent.mem_applyAll, hall calls hsplits]
    subst heq
    constructor
    · intro event hlast v heffect
      obtain ⟨calls, hsplits, heffect'⟩ := exists_splits_of_lastOf hlast heffect hquiet
      rw [← hsame hsplits, heffect']
      rfl
    · rintro rfl
      obtain ⟨calls, hsplits, hnone⟩ := exists_splits_of_quiet hquiet
      rw [← hsame hsplits, hnone]
      rfl
  · intro hstable calls hsplits
    have hemits := emits_of_run (keyed_new delay) hsplits.drained
    have hwaiting : (new delay).waiting = fun _ => none := by
      funext path
      rw [waiting, new, Finmap.lookup_empty]
      rfl
    rw [hsplits.added, hwaiting] at hemits
    ext path
    rw [FsEvent.mem_applyAll, FsEvent.mem_applyAll, hemits.lastEffect_eq (hstable path)]

/-- An event can happen to the paths that exist. -/
def Fits (paths : Finset FilePath) (event : FsEvent) : Prop :=
  match event.kind with
  | .created => event.path ∉ paths
  | .modified | .attributeChanged | .removed => event.path ∈ paths
  | .renamed => ∃ old ∈ event.oldPath, old ∈ paths ∧ old ≠ event.path
  | .rescan => False

/-- Events that can happen one after the other. -/
def Consistent : List FsEvent → Finset FilePath → Prop
  | [], _ => True
  | event :: events, paths => Fits paths event ∧ Consistent events (event.apply false paths)

/-- **A file that is renamed and then modified** still exists under its old path for what the
debouncer lets out. -/
theorem not_preserves_renamedModified :
    ¬ ∃ creates, ∀ (delay : ℕ) (initial : Finset FilePath) (events : List FsEvent),
      Consistent events initial → ∀ calls, Splits delay events calls →
        FsEvent.applyAll creates (run calls (new delay)).1 initial =
          FsEvent.applyAll creates events initial := by
  rintro ⟨creates, h⟩
  have hconsistent : Consistent [⟨.renamed, [['b']], some [['a']]⟩, ⟨.modified, [['b']], none⟩]
      {[['a']]} := by
    refine ⟨⟨[['a']], rfl, by decide, by decide⟩, ?_, trivial⟩
    show [['b']] ∈ FsEvent.apply false _ {[['a']]}
    decide
  have hsame := h 0 _ _ hconsistent
    (batch [⟨.renamed, [['b']], some [['a']]⟩, ⟨.modified, [['b']], none⟩] (.sorted FilePath) 0 0)
    ⟨rfl, by decide, by decide +kernel⟩
  revert hsame
  cases creates <;> decide +kernel

end EventDebouncer

end Landropic
