import Turnstile.Proofs.Session.History

/-!
# What sweepers do

A turn of a sweeper sweeps its cache, or leaves it as it is, and ends in one of a few ways
(`SweeperExit`). How it ends depends on the sweeper, on the time and on whether its cache is
reachable, and on nothing else (`Sweeper.exit?`).

* `sweeperTurn_of_exit`, `sweeperTurn_of_none`: a turn sweeps, if at all, and ends that way.

So a turn purges the cache, if anything, and says how the sweeper goes on (`Going`): it ends,
waits for a tick, or is to have another turn at once, which it may have only if this one was
not such a turn already.

* `sweeperTurn_cases`: a turn of a sweeper does no more than that;
* `sweeperTurn_logsSweep`: what it logs.
-/

namespace Turnstile

/-- Whether a sweeper is to go on with the ticks overdue. -/
def SweeperPhase.isBehind : SweeperPhase → Bool
  | .behind _ => true
  | _ => false

/-- How a sweeper goes on after a turn in a phase: in which phase, in the queue or
    with a timer. -/
inductive Going (j : Nat) (before : SweeperPhase) :
    SweeperPhase → List Task → List Timer → Prop
  | ended : Going j before .finished [] []
  | waits {after : SweeperPhase} {due : Nat} :
      after ≠ .finished → Going j before after [] [⟨due, .sweeper j⟩]
  | again {tick : Instant} :
      before.isBehind = false → Going j before (.behind tick) [.sweeper j] []

/-- A cache without its expired entries. -/
def CacheCell.purged (cell : CacheCell) (now : Instant) : CacheCell :=
  { cell with store := cell.store.purge now }

/-- That a notice is one of a sweeper. -/
def Notice.IsSweep (n : Notice) : Prop :=
  n = .cacheGone ∨ ∃ dropped remaining, n = .swept dropped remaining

/-- Whether a notice counts what a sweep has dropped. -/
def Notice.isSwept : Notice → Bool
  | .swept .. => true
  | _ => false

theorem Notice.IsSweep.of_isSwept {n : Notice} (h : n.isSwept) : n.IsSweep := by
  cases n with
  | swept => exact .inr ⟨_, _, rfl⟩
  | _ => cases h

/-! ### Ends of turns -/

/-- How a turn of a sweeper ends. -/
inductive SweeperExit
  /-- It is to have another turn at once, with the tick to go on with. -/
  | again (tick : Instant)
  /-- It waits for a tick, in a phase. -/
  | waits (phase : SweeperPhase) (tick : Instant)
  /-- It has found its cache gone. -/
  | gone
  /-- It has no interval. -/
  | failed

namespace SweeperExit

/-- The phase that the sweeper is in afterwards. -/
@[simp] def phase : SweeperExit → SweeperPhase
  | again tick => .behind tick
  | waits phase _ => phase
  | gone | failed => .finished

/-- What is put into the queue. -/
@[simp] def tasks (j : Nat) : SweeperExit → List Task
  | again _ => [.sweeper j]
  | _ => []

/-- The timer set for a tick. -/
@[simp] def timers (j : Nat) : SweeperExit → List Timer
  | waits _ tick => [⟨tick.millisUp, .sweeper j⟩]
  | _ => []

/-- What is logged, besides sweeps. -/
@[simp] def notices : SweeperExit → List Notice
  | gone => [.cacheGone]
  | _ => []

/-- The faults shown. -/
@[simp] def faults : SweeperExit → List Fault
  | failed => [.zeroInterval]
  | _ => []

end SweeperExit

namespace Sweeper

variable (s : Sweeper) (now : Instant) (reachable : Bool)

/-- The end of a turn that makes up for the ticks that are due. -/
def catchingUp (tick : Instant) (limit : Option Nat) : SweeperExit :=
  let due := overdue now tick s.interval
  if limit.any (· ≤ due) then .again (tickAfter tick s.interval (limit.getD 0))
  else
    let next := tickAfter tick s.interval due
    .waits (.ticking next) next

/-- The end of a turn with a tick to sweep at. -/
def taking (tick : Instant) (limit : Option Nat) : SweeperExit :=
  if isDue now tick then
    if reachable then s.catchingUp now (tick.later s.interval) limit else .gone
  else .waits (.ticking tick) tick

/-- The end of a turn with the first tick. -/
def takingFirst (tick : Instant) : SweeperExit :=
  if isDue now tick then
    s.taking now reachable (tick.later s.interval) (some (turnLimit - 2))
  else .waits (.first tick) tick

/-- How a turn of a sweeper ends, unless it has ended for good. -/
def exit? : Option SweeperExit :=
  match s.phase with
  | .issued => some (if s.interval = .zero then .failed else s.takingFirst now reachable now)
  | .first tick => some (s.takingFirst now reachable tick)
  | .ticking tick => some (s.taking now reachable tick (some (turnLimit - 1)))
  | .behind tick => some (s.taking now reachable tick none)
  | .finished => none

end Sweeper

namespace World

/-- That some caches are purged, and the others as they were. -/
def Purged (w : World) (caches : Array CacheCell) : Prop :=
  caches = w.caches ∨ ∃ c, caches = w.caches.modify c fun cell => cell.purged w.clock.now

/-- That a world becomes another one by a sweep, if by anything: some caches are purged, and
    what was dropped there is logged. -/
def MaySweep (w u : World) : Prop :=
  ∃ caches, ∃ swept : Option Notice, w.Purged caches ∧ (∀ n ∈ swept, n.isSwept) ∧
    u = { w with caches, trace := { w.trace with notices := w.trace.notices ++ swept.toList } }

/-- The end of a turn of a sweeper. -/
def leaveSweeper (w : World) (j : Nat) (e : SweeperExit) : World :=
  { w with
    sweepers := w.sweepers.modify j fun s => { s with phase := e.phase }
    ready := w.ready ++ e.tasks j
    timers := w.timers ++ e.timers j
    trace := { w.trace with
      notices := w.trace.notices ++ e.notices
      faults := w.trace.faults ++ e.faults } }

/-- How a turn of a sweeper ends, if there is one that has not ended for good. -/
def sweeperExit? (w : World) (j : Nat) : Option SweeperExit :=
  w.sweepers[j]?.bind fun s => s.exit? w.clock.now (w.reachable s.cache)

/-- That a sweeper goes on after a turn in a phase, and some notices and faults are
    shown. -/
def GoesOn (w : World) (j : Nat) (before : SweeperPhase) (w' : World) : Prop :=
  ∃ notices faults phase again timers, Going j before phase again timers ∧
    w' = { w with
      sweepers := w.sweepers.modify j fun s => { s with phase }
      ready := w.ready ++ again
      timers := w.timers ++ timers
      trace := { w.trace with notices, faults } }

/-- What a turn of a sweeper comes to. -/
def SweptTo (w : World) (j : Nat) (before : SweeperPhase) (w' : World) : Prop :=
  ∃ caches notices, w.Purged caches ∧
    GoesOn { w with caches, trace := { w.trace with notices } } j before w'

/-- That a world has the log of another one, or one notice of a sweeper more. -/
def LogsSweep (w w' : World) : Prop :=
  w'.trace.notices = w.trace.notices ∨
    ∃ n, w'.trace.notices = w.trace.notices.push n ∧ n.IsSweep

section

variable {w u : World} {j : Nat} {s : Sweeper} {e : SweeperExit} {before : SweeperPhase}

theorem MaySweep.refl (w : World) : w.MaySweep w :=
  ⟨w.caches, none, .inl rfl, by simp, by simp⟩

theorem MaySweep.clock (h : w.MaySweep u) : u.clock = w.clock := by
  obtain ⟨_, _, -, -, rfl⟩ := h
  rfl

theorem maySweep_sweep (w : World) (c : Nat) : w.MaySweep (w.sweep c) := by
  unfold sweep
  cases hc : w.caches[c]? with
  | none => exact .refl w
  | some cell =>
    have purged : (w.setStore c (cell.store.purge w.clock.now)).caches =
        w.caches.modify c fun cell => cell.purged w.clock.now := by
      apply Array.ext_getElem?
      intro d
      simp only [setStore, Array.getElem?_modify]
      split
      · subst d
        simp [hc, CacheCell.purged]
      · rfl
    let counted : Notice :=
      .swept (cell.store.expiredCount w.clock.now) (cell.store.purge w.clock.now).size
    simp only []
    split
    · exact ⟨_, some counted, .inr ⟨c, purged⟩, by simp [counted, Notice.isSwept],
        by simp [log, setStore, counted]⟩
    · exact ⟨_, none, .inr ⟨c, purged⟩, by simp, by simp [setStore]⟩

theorem sweep_eq (w : World) (c : Nat) : ∃ caches notices, w.Purged caches ∧
    w.sweep c = { w with caches, trace := { w.trace with notices } } := by
  obtain ⟨caches, _, purged, -, e⟩ := w.maySweep_sweep c
  exact ⟨caches, _, purged, e⟩

theorem awaitTick_eq (tick : Instant) :
    w.awaitTick j tick = w.leaveSweeper j (.waits (.ticking tick) tick) := by
  simp [leaveSweeper, awaitTick, World.wait, setSweeperPhase]

theorem catchUp_eq (tick : Instant) (limit : Option Nat) : w.catchUp j s tick limit =
    w.leaveSweeper j (s.catchingUp w.clock.now tick limit) := by
  simp only [catchUp, Sweeper.catchingUp]
  split
  · simp [leaveSweeper, enqueue, setSweeperPhase]
  · exact awaitTick_eq _

/-- That a turn sweeps, if at all, and then ends in a way: not if it finds its cache gone. -/
def Leaves (w : World) (j : Nat) (e : SweeperExit) (w' : World) : Prop :=
  ∃ u, w.MaySweep u ∧ (e = .gone → u = w) ∧ w' = u.leaveSweeper j e

/-- Whether it sweeps or not, a turn leaves the sweeper, the queue and the timers as its end
    has it. -/
theorem Leaves.frame {w' : World} (h : w.Leaves j e w') :
    w'.admissions = w.admissions ∧
      w'.sweepers = (w.sweepers.modify j fun s => { s with phase := e.phase }) ∧
      w'.ready = w.ready ++ e.tasks j ∧ w'.timers = w.timers ++ e.timers j := by
  obtain ⟨_, ⟨_, _, -, -, rfl⟩, -, rfl⟩ := h
  exact ⟨rfl, rfl, rfl, rfl⟩

theorem Leaves.faults {w' : World} (h : w.Leaves j e w') :
    w'.trace.faults = w.trace.faults ++ e.faults := by
  obtain ⟨_, ⟨_, _, -, -, rfl⟩, -, rfl⟩ := h
  rfl

theorem takeTick_leaves (tick : Instant) (limit : Option Nat) :
    w.Leaves j (s.taking w.clock.now (w.reachable s.cache) tick limit)
      (w.takeTick j s tick limit) := by
  rw [takeTick, Sweeper.taking]
  split
  · split
    · refine ⟨_, w.maySweep_sweep s.cache, fun gone => ?_, ?_⟩
      · unfold Sweeper.catchingUp at gone
        simp only [] at gone
        split at gone <;> cases gone
      · rw [catchUp_eq, (w.maySweep_sweep s.cache).clock]
    · exact ⟨w, .refl w, fun _ => rfl, by simp [leaveSweeper, log, endSweeper, setSweeperPhase]⟩
  · exact ⟨w, .refl w, fun _ => rfl, awaitTick_eq tick⟩

theorem takeFirstTick_leaves (tick : Instant) :
    w.Leaves j (s.takingFirst w.clock.now (w.reachable s.cache) tick)
      (w.takeFirstTick j s tick) := by
  rw [takeFirstTick, Sweeper.takingFirst]
  split
  · exact takeTick_leaves ..
  · exact ⟨w, .refl w, fun _ => rfl, by simp [leaveSweeper, World.wait, setSweeperPhase]⟩

/-- A turn of a sweeper ends as the sweeper, the time and the reach of its cache have it. -/
theorem sweeperTurn_of_exit (he : w.sweeperExit? j = some e) :
    w.Leaves j e (w.sweeperTurn j) := by
  obtain ⟨s, hs, he⟩ := Option.bind_eq_some_iff.1 he
  simp only [sweeperTurn, hs]
  cases hp : s.phase with
  | issued =>
    simp only [Sweeper.exit?, hp] at he ⊢
    cases he
    split
    · exact ⟨w, .refl w, fun _ => rfl, by
        simp [leaveSweeper, abortSweeper, endSweeper, setSweeperPhase, World.fault]⟩
    · exact takeFirstTick_leaves _
  | first tick =>
    simp only [Sweeper.exit?, hp] at he
    cases he
    exact takeFirstTick_leaves tick
  | ticking tick | behind tick =>
    simp only [Sweeper.exit?, hp] at he
    cases he
    exact takeTick_leaves tick _
  | finished => simp [Sweeper.exit?, hp] at he

/-- A sweeper that has ended for good does nothing in a turn. -/
theorem sweeperTurn_of_none (he : w.sweeperExit? j = none) : w.sweeperTurn j = w := by
  cases hs : w.sweepers[j]? with
  | none => simp only [sweeperTurn, hs]
  | some s =>
    rw [sweeperExit?, hs, Option.bind_some] at he
    cases hp : s.phase with
    | finished => simp only [sweeperTurn, hs, hp]
    | _ => simp [Sweeper.exit?, hp] at he

end

end World

/-! ### How sweepers go on -/

namespace Sweeper

variable {s : Sweeper} {now : Instant} {reachable : Bool} {e : SweeperExit} {j : Nat}
  {before : SweeperPhase} {limit : Option Nat}

theorem catchingUp_going (tick : Instant) (h : limit.isSome → before.isBehind = false) :
    let e := s.catchingUp now tick limit
    Going j before e.phase (e.tasks j) (e.timers j) := by
  simp only [catchingUp]
  split
  · rename_i due
    -- Only ticks up to a limit can be left for another turn.
    have some : limit.isSome := by
      cases limit with
      | none => simp at due
      | some n => rfl
    exact .again (h some)
  · exact .waits nofun

theorem taking_going (tick : Instant) (h : limit.isSome → before.isBehind = false) :
    let e := s.taking now reachable tick limit
    Going j before e.phase (e.tasks j) (e.timers j) := by
  rw [taking]
  split
  · split
    · exact catchingUp_going _ h
    · exact .ended
  · exact .waits nofun

theorem takingFirst_going (tick : Instant) (h : before.isBehind = false) :
    let e := s.takingFirst now reachable tick
    Going j before e.phase (e.tasks j) (e.timers j) := by
  rw [takingFirst]
  split
  · exact taking_going _ fun _ => h
  · exact .waits nofun

/-- How a sweeper goes on after a turn. -/
theorem exit?_going (he : s.exit? now reachable = some e) :
    Going j s.phase e.phase (e.tasks j) (e.timers j) := by
  rw [exit?] at he
  cases hp : s.phase with
  | issued =>
    rw [hp] at he
    cases he
    split
    · exact .ended
    · exact takingFirst_going _ rfl
  | first tick =>
    rw [hp] at he
    cases he
    exact takingFirst_going tick rfl
  | ticking tick =>
    rw [hp] at he
    cases he
    exact taking_going tick fun _ => rfl
  | behind tick =>
    rw [hp] at he
    cases he
    exact taking_going tick nofun
  | finished =>
    rw [hp] at he
    cases he

/-! ### Faults of sweepers -/

variable {tick : Instant}

theorem taking_faults : (s.taking now reachable tick limit).faults = [] := by
  rw [taking]
  split
  · split
    · simp only [catchingUp]
      split <;> rfl
    · rfl
  · rfl

theorem takingFirst_faults : (s.takingFirst now reachable tick).faults = [] := by
  rw [takingFirst]
  split
  · exact taking_faults
  · rfl

/-- The only fault of a sweeper is that it has no interval. -/
theorem exit?_faults (hi : s.interval ≠ .zero) (he : s.exit? now reachable = some e) :
    e.faults = [] := by
  rw [exit?] at he
  cases hp : s.phase with
  | issued =>
    rw [hp] at he
    cases he
    rw [if_neg hi]
    exact takingFirst_faults
  | first tick =>
    rw [hp] at he
    cases he
    exact takingFirst_faults
  | ticking tick | behind tick =>
    rw [hp] at he
    cases he
    exact taking_faults
  | finished =>
    rw [hp] at he
    cases he

end Sweeper

namespace World

variable {w : World} {j : Nat} {s : Sweeper} {before : SweeperPhase}

/-- A turn of a sweeper comes to nothing if it has ended. -/
theorem sweeperTurn_cases (w : World) (j : Nat) : w.sweeperTurn j = w ∨
    ∃ s, w.sweepers[j]? = some s ∧ w.SweptTo j s.phase (w.sweeperTurn j) := by
  cases he : w.sweeperExit? j with
  | none => exact .inl (sweeperTurn_of_none he)
  | some e =>
    obtain ⟨_, ⟨caches, _, purged, -, rfl⟩, -, left⟩ := sweeperTurn_of_exit he
    obtain ⟨s, hs, he⟩ := Option.bind_eq_some_iff.1 he
    exact .inr ⟨s, hs, caches, _, purged, _, _, _, _, _, Sweeper.exit?_going he, left⟩

/-- A turn of a sweeper shows one fault at most. -/
theorem faults_sweeperTurn (w : World) (j : Nat) :
    (w.sweeperTurn j).trace.faults = w.trace.faults ∨
      (w.sweeperTurn j).trace.faults = w.trace.faults.push .zeroInterval := by
  cases he : w.sweeperExit? j with
  | none => exact .inl (by rw [sweeperTurn_of_none he])
  | some e =>
    rw [(sweeperTurn_of_exit he).faults]
    cases e with
    | failed => exact .inr (by simp)
    | again | waits | gone => exact .inl (by simp)

/-- A sweeper with an interval does not fail. -/
theorem faults_sweeperTurn_of_interval (ticks : ∀ s ∈ w.sweepers[j]?, s.interval ≠ .zero) :
    (w.sweeperTurn j).trace.faults = w.trace.faults := by
  cases he : w.sweeperExit? j with
  | none => rw [sweeperTurn_of_none he]
  | some e =>
    have left := sweeperTurn_of_exit he
    obtain ⟨s, hs, he⟩ := Option.bind_eq_some_iff.1 he
    rw [left.faults, Sweeper.exit?_faults (ticks s hs) he]
    simp

/-- A turn of a sweeper logs what it has swept, or that it ends, and no more. -/
theorem sweeperTurn_logsSweep (w : World) (j : Nat) : w.LogsSweep (w.sweeperTurn j) := by
  cases he : w.sweeperExit? j with
  | none =>
    rw [sweeperTurn_of_none he]
    exact .inl rfl
  | some e =>
    obtain ⟨u, may, same, left⟩ := sweeperTurn_of_exit he
    rw [left]
    cases e with
    | gone =>
      obtain rfl := same rfl
      exact .inr ⟨.cacheGone, by simp [leaveSweeper], .inl rfl⟩
    | _ =>
      obtain ⟨_, swept, -, counted, rfl⟩ := may
      cases swept with
      | none => exact .inl (by simp [leaveSweeper])
      | some n => exact .inr ⟨n, by simp [leaveSweeper], .of_isSwept (counted n rfl)⟩

/-- What has no part in the turns of sweepers. -/
theorem SweptTo.same {w' : World} (h : w.SweptTo j before w') :
    w'.admissions = w.admissions ∧ w'.limiters = w.limiters ∧ w'.lines = w.lines ∧
      w'.clock = w.clock ∧ w'.trace.calls = w.trace.calls ∧
      w'.trace.answers = w.trace.answers := by
  obtain ⟨_, _, _, _, _, _, _, _, _, rfl⟩ := h
  exact ⟨rfl, rfl, rfl, rfl, rfl, rfl⟩

/-- What becomes of a cache in a turn of a sweeper. -/
theorem SweptTo.cell {w' : World} (h : w.SweptTo j before w') {c : Nat} {cell : CacheCell}
    (hc : w.caches[c]? = some cell) :
    w'.caches[c]? = some cell ∨ w'.caches[c]? = some (cell.purged w.clock.now) := by
  obtain ⟨_, _, hp, _, _, _, _, _, _, rfl⟩ := h
  rcases hp with rfl | ⟨d, rfl⟩
  · exact .inl hc
  · rw [Array.getElem?_modify]
    split
    · right
      rw [hc]
      rfl
    · exact .inl hc

theorem SweptTo.cell_none {w' : World} (h : w.SweptTo j before w') {c : Nat}
    (hc : w.caches[c]? = none) : w'.caches[c]? = none := by
  obtain ⟨_, _, hp, _, _, _, _, _, _, rfl⟩ := h
  rcases hp with rfl | ⟨d, rfl⟩
  · exact hc
  · rw [Array.getElem?_modify, hc]
    split <;> rfl

end World

end Turnstile
