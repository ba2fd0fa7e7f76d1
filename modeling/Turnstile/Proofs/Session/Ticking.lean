import Turnstile.Proofs.Session.Release

/-!
# Ticks

When sweepers tick. After a turn a sweeper has no tick left that is due: it has made up
for all of them, or is to have another turn at once (`Sweeper.not_isDue_tickAfter`). So
the timers that it sets are still to come, and what it logs is minor
(`sweeperTurn_ticked`).

Before its tick is due a sweeper leaves its cache alone; when it is, the cache is purged
(`caches_sweeperTurn`).
-/

namespace Turnstile

/-- That a notice is of a level below that of the notices of a run. -/
def Notice.IsMinor (n : Notice) : Prop := Level.info.rank < n.level.rank

instance (n : Notice) : Decidable n.IsMinor := inferInstanceAs (Decidable (_ < _))

theorem Notice.IsSweep.isMinor {n : Notice} (h : n.IsSweep) : n.IsMinor := by
  rcases h with rfl | ⟨_, _, rfl⟩
  · decide
  · simp [IsMinor, level, Level.rank]

/-- An instant is past, in whole milliseconds, if its millisecond has begun. -/
theorem Instant.millisUp_le_iff {t : Instant} {m : Nat} :
    t.millisUp ≤ m ↔ t.nanos ≤ (Instant.ofMillis m).nanos := by
  simp only [millisUp, ofMillis, rounding]
  omega

theorem Instant.millisDown_ofMillis (m : Nat) : (Instant.ofMillis m).millisDown = m := by
  simp only [millisDown, ofMillis]
  omega

namespace Sweeper

/-- That a sweeper without an interval does not tick. -/
def Paced (s : Sweeper) : Prop := s.interval = .zero → s.phase = .issued ∨ s.phase = .finished

/-- After all ticks that are due comes one that is not. -/
theorem not_isDue_tickAfter {interval : Span} (hi : interval ≠ .zero) (now tick : Instant) :
    ¬ isDue now (tickAfter tick interval (overdue now tick interval)) := by
  have positive : 0 < interval.nanos := Nat.pos_of_ne_zero (Span.nanos_ne_zero hi)
  simp only [isDue, decide_eq_true_eq, overdue]
  split
  · rename_i due
    have due := Instant.millisUp_le_iff.1 due
    have past := Nat.lt_mul_div_succ
      ((Instant.ofMillis now.millisDown).nanos - tick.nanos) positive
    rw [Nat.mul_comm] at past
    rw [Instant.millisUp_le_iff, tickAfter, Instant.later]
    simp only []
    omega
  · rename_i later
    simpa [tickAfter, Instant.later] using later

variable {s : Sweeper} {now tick next : Instant} {reachable : Bool} {limit : Option Nat}
  {phase : SweeperPhase}

theorem catchingUp_waits (hi : s.interval ≠ .zero)
    (h : s.catchingUp now tick limit = .waits phase next) : ¬ isDue now next := by
  simp only [catchingUp] at h
  split at h
  · cases h
  · cases h
    exact not_isDue_tickAfter hi now tick

theorem taking_waits (hi : s.interval ≠ .zero)
    (h : s.taking now reachable tick limit = .waits phase next) : ¬ isDue now next := by
  rw [taking] at h
  split at h
  · split at h
    · exact catchingUp_waits hi h
    · cases h
  · cases h
    assumption

theorem takingFirst_waits (hi : s.interval ≠ .zero)
    (h : s.takingFirst now reachable tick = .waits phase next) : ¬ isDue now next := by
  rw [takingFirst] at h
  split at h
  · exact taking_waits hi h
  · cases h
    assumption

/-- A sweeper waits for a tick only if that is not due. -/
theorem exit?_waits (paced : s.Paced)
    (h : s.exit? now reachable = some (.waits phase next)) : ¬ isDue now next := by
  have ticks (hp : s.phase ≠ .issued ∧ s.phase ≠ .finished) : s.interval ≠ .zero :=
    fun zero => (paced zero).elim hp.1 hp.2
  rw [exit?] at h
  cases hp : s.phase with
  | issued =>
    rw [hp] at h
    have h := Option.some.inj h
    split at h
    · cases h
    · exact takingFirst_waits ‹_› h
  | first tick =>
    rw [hp] at h
    exact takingFirst_waits (ticks (by simp [hp])) (Option.some.inj h)
  | ticking tick | behind tick =>
    rw [hp] at h
    exact taking_waits (ticks (by simp [hp])) (Option.some.inj h)
  | finished =>
    rw [hp] at h
    cases h

end Sweeper

namespace World

/-- That a turn of a sweeper sets no timers but for what is still to come, and logs
    nothing of weight. -/
structure Ticked (w : World) (j : Nat) (w' : World) : Prop where
  timer : ∀ t ∈ w'.timers, t ∈ w.timers ∨
    t.task = .sweeper j ∧ w.clock.now.millisDown < t.due
  minor : ∀ n ∈ w'.trace.notices, n ∈ w.trace.notices ∨ n.IsMinor

section

variable {w : World} {j : Nat} {s : Sweeper}

/-- What a turn of a sweeper sets timers for, and what it logs. -/
theorem sweeperTurn_ticked (paced : ∀ s ∈ w.sweepers[j]?, s.Paced) :
    w.Ticked j (w.sweeperTurn j) where
  timer t ht := by
    cases he : w.sweeperExit? j with
    | none =>
      rw [sweeperTurn_of_none he] at ht
      exact .inl ht
    | some e =>
      obtain ⟨-, -, -, timers⟩ := (sweeperTurn_of_exit he).frame
      obtain ⟨s, hs, he⟩ := Option.bind_eq_some_iff.1 he
      rw [timers] at ht
      rcases List.mem_append.1 ht with ht | ht
      · exact .inl ht
      · right
        cases e with
        | waits phase next =>
          rw [List.mem_singleton.1 ht]
          have later := Sweeper.exit?_waits (paced s hs) he
          exact ⟨rfl, Nat.lt_of_not_le fun due => later (decide_eq_true due)⟩
        | again | gone | failed => cases ht
  minor n hn := by
    rcases w.sweeperTurn_logsSweep j with same | ⟨n', logged, sweep⟩
    · exact .inl (same ▸ hn)
    · rw [logged] at hn
      rcases Array.mem_push.1 hn with hn | rfl
      · exact .inl hn
      · exact .inr sweep.isMinor

/-- What has no part in a turn of a sweeper. -/
theorem sweeperTurn_frame (w : World) (j : Nat) :
    ∃ caches sweepers again timers notices faults, (∀ i, .admission i ∉ again) ∧
      w.sweeperTurn j = { w with
        caches, sweepers, timers
        ready := w.ready ++ again
        trace := { w.trace with notices, faults } } := by
  rcases w.sweeperTurn_cases j with e | ⟨s, -, _, _, -, _, _, _, again, _, going, e⟩
  · exact ⟨_, _, [], _, _, _, by simp, by rw [e, List.append_nil]⟩
  · refine ⟨_, _, again, _, _, _, ?_, e⟩
    cases going <;> simp

/-- A sweeper keeps its interval, and does not begin to tick without one. -/
theorem sweepers_sweeperTurn (hs : w.sweepers[j]? = some s) (paced : s.Paced) :
    ∃ phase, (w.sweeperTurn j).sweepers = (w.sweepers.modify j fun s => { s with phase }) ∧
      Sweeper.Paced { s with phase } := by
  cases he : w.sweeperExit? j with
  | none =>
    refine ⟨s.phase, ?_, paced⟩
    rw [sweeperTurn_of_none he]
    apply Array.ext_getElem?
    intro i
    rw [Array.getElem?_modify]
    split
    · subst i
      simp [hs]
    · rfl
  | some e =>
    obtain ⟨-, sweepers, -, -⟩ := (sweeperTurn_of_exit he).frame
    rw [sweeperExit?, hs, Option.bind_some] at he
    refine ⟨e.phase, sweepers, fun zero => .inr ?_⟩
    -- It ends in its first turn.
    rcases paced zero with issued | ended
    · simp only [Sweeper.exit?, issued, if_pos zero] at he
      cases he
      rfl
    · simp [Sweeper.exit?, ended] at he

/-- A sweeper of some interval that is to start at a whole millisecond begins to wait for
    its first tick. -/
theorem sweeperTurn_issued (hs : w.sweepers[j]? = some s) (hp : s.phase = .issued)
    (hi : s.interval ≠ .zero) (start : w.clock.now = .origin) :
    w.sweeperTurn j = w.awaitTick j (w.clock.now.later s.interval) := by
  have now : Sweeper.isDue w.clock.now w.clock.now := by
    rw [start]
    decide
  have later : ¬ Sweeper.isDue w.clock.now (w.clock.now.later s.interval) := by
    have := Instant.millisDown_lt_millisUp (Nat.le_of_eq (congrArg Instant.nanos start.symm))
      (Span.nanos_ne_zero hi)
    simpa [Sweeper.isDue] using this
  simp only [sweeperTurn, hs, hp, if_neg hi, takeFirstTick, if_pos now, takeTick, if_neg later]

variable {tick : Instant}

theorem caches_catchUp (tick : Instant) (limit : Option Nat) :
    (w.catchUp j s tick limit).caches = w.caches := by
  unfold catchUp
  simp only []
  split <;> rfl

theorem getElem?_sweep (w : World) (c : Nat) :
    (w.sweep c).caches[c]? = w.caches[c]?.map (·.purged w.clock.now) := by
  unfold sweep
  cases hc : w.caches[c]? with
  | none => simp [hc]
  | some cell =>
    simp only []
    split <;> simp [log, setStore, CacheCell.purged, Array.getElem?_modify, hc]

/-- Before its tick is due a sweeper only goes on to wait for it. -/
theorem sweeperTurn_early (hs : w.sweepers[j]? = some s) (hp : s.phase = .ticking tick)
    (early : ¬ Sweeper.isDue w.clock.now tick) : w.sweeperTurn j = w.awaitTick j tick := by
  simp only [sweeperTurn, hs, hp, takeTick, if_neg early]

/-- When its tick is due a sweeper purges its cache. -/
theorem caches_sweeperTurn (hs : w.sweepers[j]? = some s) (hp : s.phase = .ticking tick)
    (due : Sweeper.isDue w.clock.now tick) (reachable : w.reachable s.cache) {cell : CacheCell}
    (hc : w.caches[s.cache]? = some cell) :
    (w.sweeperTurn j).caches[s.cache]? = some (cell.purged w.clock.now) := by
  simp only [sweeperTurn, hs, hp, takeTick, if_pos due, reachable, if_true, caches_catchUp,
    getElem?_sweep, hc, Option.map_some]

end

end World

end Turnstile
