import Turnstile.Proofs.Session.Reachability

/-!
# Sweepers and their caches

A sweeper does not keep its cache. It looks for it at its ticks, which are an interval
apart from its start on, whatever happens between them; and it ends at the first tick at
which nothing leads to the cache any more.

* `World.Tended`: where a sweeper stands, with its tick of some number, or at its end;
* `World.Proceeds`: how it goes on from there, in turns (`Tended.turn`, `Course.tended`)
  and in steps (`Tended.acted`, `Tended.step_ended_iff`);
* `World.Retires`: a sweeper that has ended has no turn again;
* `World.lives_with_cache`: so a sweeper lives exactly as long as its cache, up to a tick.

The ticks are not further apart than timers run (`Span.onTimer`). A tick of a longer
interval may come due without one of the timer's (`KeepsPace`), and then a sweeper outlives
it (`World.sweeper_outlives_tick`).
-/

namespace Turnstile

/-! ### Ticks -/

namespace Sweeper

variable {now later start tick : Instant} {interval : Span} {k n : Nat}

theorem tickAfter_tickAfter : tickAfter (tickAfter start interval k) interval n =
    tickAfter start interval (k + n) := by
  simp only [tickAfter, Instant.later, Nat.add_mul, Nat.add_assoc]

theorem tickAfter_later :
    (tickAfter start interval k).later interval = tickAfter start interval (k + 1) := by
  simp only [tickAfter, Instant.later, Nat.add_mul, Nat.one_mul, Nat.add_assoc]

theorem tickAfter_zero : tickAfter start interval 0 = start := by
  simp [tickAfter, Instant.later]

/-- A tick is due if a later one is. -/
theorem isDue_of_le (h : k ≤ n) (due : isDue now (tickAfter start interval n)) :
    isDue now (tickAfter start interval k) := by
  simp only [isDue, decide_eq_true_eq, Instant.millisUp_le_iff, tickAfter, Instant.later] at due ⊢
  have := Nat.mul_le_mul_right interval.nanos h
  omega

/-- A tick that is due stays so. -/
theorem isDue_mono (h : now.nanos ≤ later.nanos) (due : isDue now tick) : isDue later tick :=
  decide_eq_true (Nat.le_trans (of_decide_eq_true due) (Instant.millisDown_mono h))

/-- All ticks that are made up for are due. -/
theorem isDue_of_lt_overdue (h : n < overdue now tick interval) :
    isDue now (tickAfter tick interval n) := by
  unfold overdue at h
  split at h
  · rename_i due
    have past := Nat.mul_le_of_le_div _ _ _ (Nat.le_of_lt_succ h)
    simp only [isDue, decide_eq_true_eq, Instant.millisUp_le_iff, tickAfter, Instant.later]
      at due ⊢
    omega
  · cases h

end Sweeper

open Sweeper

/-- That a sweeper goes on with its tick of some number, if it starts at some time. -/
inductive SweeperPhase.Awaits (start : Instant) (interval : Span) : Nat → SweeperPhase → Prop
  | issued : Awaits start interval 0 .issued
  | first : Awaits start interval 0 (.first start)
  | ticking {k : Nat} : 0 < k → Awaits start interval k (.ticking (tickAfter start interval k))
  | behind {k : Nat} : 0 < k → Awaits start interval k (.behind (tickAfter start interval k))

namespace World

variable {w w' : World} {j c k : Nat} {start : Instant} {interval : Span} {phase : SweeperPhase}
  {s : Step}

/-- That a sweeper goes on with its tick of some number. Those before it have come due; it is
    to have its turn, or waits until the tick is due. -/
structure Pends (w : World) (j : Nat) (start : Instant) (interval : Span) (k : Nat)
    (phase : SweeperPhase) : Prop where
  awaits : phase.Awaits start interval k
  past : ∀ n < k, isDue w.clock.now (tickAfter start interval n)
  placed : .sweeper j ∈ w.ready ∧ (phase = .issued → w.clock.now = start) ∨
    phase ≠ .issued ∧ ⟨(tickAfter start interval k).millisUp, .sweeper j⟩ ∈ w.timers ∧
      ¬ isDue w.clock.now (tickAfter start interval k)

/-- Where a sweeper of a cache stands that was started at some time: with its tick of some
    number, or at its end, when nothing leads to the cache. -/
inductive Tended (w : World) (j c : Nat) (start : Instant) (interval : Span) : Option Nat → Prop
  | ended : w.sweepers[j]? = some ⟨c, interval, .finished⟩ → ¬ w.Leads c →
      Tended w j c start interval none
  | pends {k : Nat} {phase : SweeperPhase} : w.sweepers[j]? = some ⟨c, interval, phase⟩ →
      w.Pends j start interval k phase → Tended w j c start interval (some k)

/-- How a sweeper goes on from the tick that it is with, if any. It does not go back, and ends
    at a tick after its start, which has come due; and if nothing leads to its cache it does not
    go past the tick that it was with, or the first after its start. -/
structure Proceeds (w : World) (c : Nat) (start : Instant) (interval : Span)
    (k k' : Option Nat) : Prop where
  onward : ∀ n ∈ k', ∃ m ∈ k, m ≤ n
  within : w.Leads c ∨ ∀ n ∈ k', ∃ m ∈ k, n ≤ max 1 m
  ends : k' = none → ∀ m ∈ k, ∃ n ≥ max 1 m, isDue w.clock.now (tickAfter start interval n)

theorem Leads.of_same (h : w'.Leads c) (caches : w'.cacheNames = w.cacheNames)
    (limiters : w'.limiterNames = w.limiterNames) (cells : w'.limiters = w.limiters)
    (admissions : w'.admissions = w.admissions) : w.Leads c := by
  cases h with
  | name named => exact .name (by rwa [← caches])
  | limiter named hl e => exact .limiter (by rwa [← limiters]) (by rwa [← cells]) e
  | request ha e unanswered => exact .request (by rwa [← admissions]) e unanswered

namespace Proceeds

variable {k k' k'' : Option Nat}

/-- A sweeper may stay with its tick. -/
theorem refl (w : World) (c : Nat) (start : Instant) (interval : Span) (k : Option Nat) :
    w.Proceeds c start interval k k where
  onward n hn := ⟨n, hn, Nat.le_refl n⟩
  within := .inr fun n hn => ⟨n, hn, Nat.le_max_right ..⟩
  ends none m hm := by
    rw [none] at hm
    cases hm

theorem trans (h : w.Proceeds c start interval k k') (h' : w'.Proceeds c start interval k' k'')
    (clock : w'.clock = w.clock) (leads : w'.Leads c → w.Leads c) :
    w.Proceeds c start interval k k'' where
  onward n hn := by
    obtain ⟨m, hm, le⟩ := h'.onward n hn
    obtain ⟨l, hl, le'⟩ := h.onward m hm
    exact ⟨l, hl, Nat.le_trans le' le⟩
  within := by
    rcases h.within with led | within
    · exact .inl led
    · refine h'.within.imp leads fun within' n hn => ?_
      obtain ⟨m, hm, le⟩ := within' n hn
      obtain ⟨l, hl, le'⟩ := within m hm
      exact ⟨l, hl, by omega⟩
  ends none m hm := by
    cases k' with
    | none => exact h.ends rfl m hm
    | some n =>
      -- It was with a tick no earlier than it is with at first.
      obtain ⟨m', hm', le⟩ := h.onward n rfl
      obtain rfl : m = m' := Option.mem_unique hm hm'
      obtain ⟨l, hl, due⟩ := h'.ends none n rfl
      exact ⟨l, by omega, by rwa [← clock]⟩

/-- The turn begins when the sweeper is taken from the queue. -/
theorem of_taken (h : w.taken.Proceeds c start interval k k') :
    w.Proceeds c start interval k k' :=
  ⟨h.onward, h.within.imp_left fun leads => leads.of_same rfl rfl rfl rfl, h.ends⟩

/-- A sweeper at its start goes on as with the first tick after it. -/
theorem of_first (h : w.Proceeds c start interval (some 1) k') :
    w.Proceeds c start interval (some 0) k' where
  onward n _ := ⟨0, rfl, Nat.zero_le n⟩
  within := h.within.imp_right fun within n hn => by
    obtain ⟨_, ⟨⟩, le⟩ := within n hn
    exact ⟨0, rfl, le⟩
  ends none m hm := by
    cases hm
    exact h.ends none 1 rfl

end Proceeds

/-! ### Turns of the sweeper -/

theorem sweeper_setPhase (hj : w.sweepers[j]? = some ⟨c, interval, phase⟩)
    (after : SweeperPhase) :
    (w.setSweeperPhase j after).sweepers[j]? = some ⟨c, interval, after⟩ := by
  simp [setSweeperPhase, Array.getElem?_modify, hj]

/-- A sweeper that waits for a tick that is still to come. -/
theorem Tended.of_await (hj : w.sweepers[j]? = some ⟨c, interval, phase⟩)
    {after : SweeperPhase} (awaits : after.Awaits start interval k) (begun : after ≠ .issued)
    (past : ∀ n < k, isDue w.clock.now (tickAfter start interval n))
    (ahead : ¬ isDue w.clock.now (tickAfter start interval k)) :
    ((w.setSweeperPhase j after).wait (.sweeper j) (tickAfter start interval k)).Tended j c start
      interval (some k) :=
  .pends (sweeper_setPhase hj after)
    ⟨awaits, past, .inr ⟨begun, List.mem_append_right _ (.head _), ahead⟩⟩

theorem Tended.of_awaitTick (hj : w.sweepers[j]? = some ⟨c, interval, phase⟩) (hk : 0 < k)
    (past : ∀ n < k, isDue w.clock.now (tickAfter start interval n))
    (ahead : ¬ isDue w.clock.now (tickAfter start interval k)) :
    (w.awaitTick j (tickAfter start interval k)).Tended j c start interval (some k) :=
  .of_await hj (.ticking hk) nofun past ahead

/-- To make up for ticks leaves a sweeper with the first that it has not taken. -/
theorem Tended.of_catchUp (hj : w.sweepers[j]? = some ⟨c, interval, phase⟩)
    (hi : interval ≠ .zero) (hk : 0 < k)
    (past : ∀ n < k, isDue w.clock.now (tickAfter start interval n)) (limit : Option Nat) :
    ∃ n ≥ k, (w.catchUp j ⟨c, interval, phase⟩ (tickAfter start interval k) limit).Tended j c
      start interval (some n) := by
  -- Up to as many ticks after the given one as are overdue have come due.
  have past (m : Nat) (hm : m ≤ overdue w.clock.now (tickAfter start interval k) interval) :
      ∀ n < k + m, isDue w.clock.now (tickAfter start interval n) := by
    intro n hn
    by_cases before : n < k
    · exact past n before
    · have due := isDue_of_lt_overdue (Nat.lt_of_lt_of_le (show n - k < m by omega) hm)
      rwa [tickAfter_tickAfter, Nat.add_sub_cancel' (Nat.le_of_not_lt before)] at due
  unfold catchUp
  simp only [tickAfter_tickAfter]
  split
  · rename_i many
    obtain ⟨m, rfl, hm⟩ : ∃ m, limit = some m ∧
        m ≤ overdue w.clock.now (tickAfter start interval k) interval := by
      cases limit with
      | none => simp at many
      | some m => exact ⟨m, rfl, by simpa using many⟩
    exact ⟨k + m, Nat.le_add_right k m, .pends (sweeper_setPhase hj _)
      ⟨.behind (by omega), past m hm, .inl ⟨List.mem_append_right _ (.head _), nofun⟩⟩⟩
  · refine ⟨_, Nat.le_add_right .., .of_awaitTick hj (by omega) (past _ (Nat.le_refl _)) ?_⟩
    rw [← tickAfter_tickAfter]
    exact not_isDue_tickAfter hi _ _

/-- A sweeper at a tick that is due ends if nothing leads to its cache. -/
theorem Tended.of_takeTick (hj : w.sweepers[j]? = some ⟨c, interval, phase⟩)
    (hi : interval ≠ .zero) (hk : 0 < k)
    (past : ∀ n < k, isDue w.clock.now (tickAfter start interval n)) (limit : Option Nat) :
    ∃ k', (w.takeTick j ⟨c, interval, phase⟩ (tickAfter start interval k) limit).Tended j c start
      interval k' ∧ w.Proceeds c start interval (some k) k' := by
  unfold takeTick
  split
  · rename_i due
    split
    · rename_i reachable
      obtain ⟨caches, notices, -, e⟩ := w.sweep_eq c
      rw [tickAfter_later, e]
      have past : ∀ n < k + 1, isDue w.clock.now (tickAfter start interval n) := by
        intro n hn
        rcases Nat.lt_succ_iff_lt_or_eq.1 hn with hn | rfl
        · exact past n hn
        · exact due
      let w' : World := { w with caches, trace := { w.trace with notices } }
      obtain ⟨n, hn, tended⟩ := Tended.of_catchUp (w := w') hj hi (Nat.succ_pos k) past limit
      refine ⟨some n, tended, ⟨?_, .inl (reachable_iff.1 reachable), nofun⟩⟩
      rintro _ ⟨⟩
      exact ⟨k, rfl, Nat.le_of_succ_le hn⟩
    · rename_i unreachable
      refine ⟨none, .ended (sweeper_setPhase hj _) fun leads => unreachable ?_,
        ⟨nofun, .inr nofun, ?_⟩⟩
      · exact reachable_iff.2 (leads.of_same rfl rfl rfl rfl)
      · rintro - _ ⟨⟩
        exact ⟨k, by omega, due⟩
  · exact ⟨some k, .of_awaitTick hj hk past ‹_›, .refl ..⟩

theorem Tended.of_takeFirstTick (hj : w.sweepers[j]? = some ⟨c, interval, phase⟩)
    (hi : interval ≠ .zero) :
    ∃ k', (w.takeFirstTick j ⟨c, interval, phase⟩ start).Tended j c start interval k' ∧
      w.Proceeds c start interval (some 0) k' := by
  have first : start.later interval = tickAfter start interval 1 := by
    rw [← tickAfter_later, tickAfter_zero]
  unfold takeFirstTick
  split
  · rename_i due
    rw [first]
    obtain ⟨k', tended, proceeds⟩ := Tended.of_takeTick hj hi Nat.one_pos (fun n hn => by
      rw [Nat.lt_one_iff.1 hn, tickAfter_zero]
      exact due) (some (turnLimit - 2))
    exact ⟨k', tended, proceeds.of_first⟩
  · rename_i ahead
    have zero : tickAfter start interval 0 = start := tickAfter_zero
    rw [← zero] at ahead
    have tended := Tended.of_await hj .first nofun nofun ahead
    rw [zero] at tended
    exact ⟨some 0, tended, .refl ..⟩

/-- A sweeper has its first turn at the time of its start. -/
theorem Pends.begun (p : w.Pends j start interval k phase) (queued : .sweeper j ∈ w.ready)
    (alone : w.sweeperPlaces j = 1) (issued : phase = .issued) : w.clock.now = start := by
  rcases p.placed with ⟨-, h⟩ | ⟨-, timer, -⟩
  · exact h issued
  · -- Who is in the queue has no timer, so it is not one that waits.
    have one := List.count_pos_iff.2 queued
    have two : 0 < (w.timers.map Timer.task).count (.sweeper j) :=
      List.count_pos_iff.2 (List.mem_map.2 ⟨_, timer, rfl⟩)
    unfold sweeperPlaces at alone
    omega

/-- A turn of a sweeper leaves it with a tick, or at its end. -/
theorem Pends.turn (p : w.Pends j start interval k phase)
    (hj : w.sweepers[j]? = some ⟨c, interval, phase⟩) (hi : interval ≠ .zero)
    (queued : .sweeper j ∈ w.ready) (alone : w.sweeperPlaces j = 1) :
    ∃ k', (w.taken.sweeperTurn j).Tended j c start interval k' ∧
      w.Proceeds c start interval (some k) k' := by
  have taken : w.taken.sweepers[j]? = some ⟨c, interval, phase⟩ := hj
  have begun := p.begun queued alone
  simp only [sweeperTurn, taken]
  cases p.awaits with
  | issued =>
    simp only [if_neg hi]
    rw [show w.taken.clock.now = start from begun rfl]
    exact (Tended.of_takeFirstTick taken hi).imp fun _ h => h.imp_right .of_taken
  | first => exact (Tended.of_takeFirstTick taken hi).imp fun _ h => h.imp_right .of_taken
  | ticking hk | behind hk =>
    exact (Tended.of_takeTick taken hi hk p.past _).imp fun _ h => h.imp_right .of_taken

/-! ### Turns of others -/

/-- That a sweeper is as it was in another world, and where it was. -/
structure KeepsSweeper (w w' : World) (j : Nat) : Prop where
  sweeper : w'.sweepers[j]? = w.sweepers[j]?
  queued : .sweeper j ∈ w.ready → .sweeper j ∈ w'.ready
  timers : ∀ t ∈ w.timers, t ∈ w'.timers
  places_le : w'.sweeperPlaces j ≤ w.sweeperPlaces j

/-- A turn of another task leaves a sweeper as it is, and where it is. -/
theorem keepsSweeper_turn {task : Task} (o : w.Orderly) (t : w.Tidy)
    (hr : w.ready.head? = some task) (other : task ≠ .sweeper j) :
    w.KeepsSweeper (w.taken.turn task) j := by
  obtain ⟨new, timers, -⟩ := Moment.timers_after (m := ⟨w, task⟩) o hr
  have kept : ∀ x ∈ w.timers, x ∈ (w.taken.turn task).timers := fun x hx => by
    rw [show (w.taken.turn task).timers = _ from timers]
    exact List.mem_append_left _ hx
  cases task with
  | admission i =>
    obtain ⟨a, -, turn⟩ := o.admissionTurn_cases hr
    obtain ⟨same, places⟩ := turn.sweepers hr
    refine ⟨by rw [World.turn, same], fun queued => ?_, kept, ?_⟩
    · rw [World.turn, ← List.count_pos_iff, (places j).1]
      exact List.count_pos_iff.2 queued
    · rw [World.turn, sweeperPlaces, (places j).1, (places j).2]
      exact Nat.le_refl _
  | sweeper i =>
    obtain ⟨rest, hr⟩ := List.head?_eq_some_iff.1 hr
    obtain ⟨again, ready, -, others, -⟩ := t.sweeperTurn hr
    have ne : j ≠ i := fun e => other (by rw [e])
    refine ⟨others j ne, fun queued => ?_, kept, ?_⟩
    · rw [World.turn, ready]
      rw [hr] at queued
      rcases List.mem_cons.1 queued with e | queued
      · exact absurd e.symm other
      · exact List.mem_append_left _ queued
    · have places := w.taken.sweeperPlaces_sweeperTurn i j
      rw [if_neg ne, Nat.add_zero] at places
      refine Nat.le_trans places (Nat.add_le_add_right ?_ _)
      exact (List.tail_sublist _).count_le _

/-- A turn leaves a sweeper with a tick, or at its end. -/
theorem Tended.turn {k : Option Nat} {task : Task} (h : w.Tended j c start interval k)
    (hi : interval ≠ .zero) (o : w.Orderly) (t : w.Tidy) (hr : w.ready.head? = some task) :
    ∃ k', (w.taken.turn task).Tended j c start interval k' ∧
      w.Proceeds c start interval k k' := by
  cases h with
  | ended hj unled =>
    refine ⟨none, .ended ?_ fun leads => unled (leads_of_turn o hr leads), .refl ..⟩
    by_cases own : task = .sweeper j
    · subst own
      have idle : w.taken.sweeperTurn j = w.taken := by
        simp only [sweeperTurn, show w.taken.sweepers[j]? = _ from hj]
      rw [World.turn, idle]
      exact hj
    · rw [(keepsSweeper_turn o t hr own).sweeper, hj]
  | @pends k phase hj p =>
    by_cases own : task = .sweeper j
    · subst own
      have queued : .sweeper j ∈ w.ready := List.mem_of_mem_head? hr
      exact p.turn hj hi queued (t.lt_size queued).2
    · have keeps := keepsSweeper_turn o t hr own
      refine ⟨some k, .pends (by rw [keeps.sweeper, hj]) ⟨p.awaits, ?_, ?_⟩, .refl ..⟩
      · rw [o.clock_turn hr]
        exact p.past
      · rw [o.clock_turn hr]
        exact p.placed.imp (fun h => ⟨keeps.queued h.1, h.2⟩)
          fun h => ⟨h.1, keeps.timers _ h.2.1, h.2.2⟩

/-! ### Steps -/

/-- A step leaves a sweeper as it is unless it stops that, or all tasks. -/
theorem sweeper_acted {x : Sweeper} (hj : w.sweepers[j]? = some x) (unstopped : s ≠ .abort j)
    (up : s ≠ .shutdown) : (w.acted s).sweepers[j]? = some x := by
  have change := change_acted w s
  generalize w.acted s = w' at change
  cases change with
  | aside | cache | limiter | drop | advance | setWall | store | gate => exact hj
  | issue =>
    obtain ⟨_, _, he⟩ := issueAll_eq (w.shown #[]) _ _ _ _
    rw [he]
    exact hj
  | sweeper =>
    simp only [addSweeper, enqueue, Array.getElem?_push]
    split
    · subst j
      simp [shown] at hj
    · exact hj
  | @stop i =>
    simp only [stopSweeper, endSweeper, setSweeperPhase, Array.getElem?_modify]
    rw [if_neg fun e => unstopped (by rw [e])]
    exact hj
  | shutdown => exact absurd rfl up

theorem mem_ready_wakeTimers {t : Timer} (ht : t ∈ w.timers)
    (due : t.due ≤ w.clock.now.millisDown) : t.task ∈ w.wakeTimers.ready := by
  have woken : t ∈ w.timers.filter fun t => decide (t.due ≤ w.clock.now.millisDown) :=
    List.mem_filter.2 ⟨ht, decide_eq_true due⟩
  simp only [wakeTimers, List.partition_eq_filter_filter, enqueue]
  exact List.mem_append_right _
    (List.mem_map.2 ⟨t, (List.mergeSort_perm ..).mem_iff.2 woken, rfl⟩)

/-- A task whose timer comes due in a step is to have its turn. -/
theorem mem_ready_acted {t : Timer} (ht : t ∈ w.timers) (ahead : w.clock.now.millisDown < t.due)
    (due : t.due ≤ (w.acted s).clock.now.millisDown) : t.task ∈ (w.acted s).ready := by
  cases s with
  | advance d =>
    let w' : World := { w.shown #[] with clock := w.clock.advance d }
    exact mem_ready_wakeTimers (w := w') ht due
  | _ =>
    rw [clock_acted] at due
    exact absurd due (Nat.not_le.2 ahead)

/-- A step leaves a sweeper with its tick, if no task can go on before it, and unless it
    stops the sweeper, or all tasks. -/
theorem Tended.acted {k : Option Nat} (h : w.Tended j c start interval k) (settled : w.ready = [])
    (hc : c < w.caches.size) (unstopped : s ≠ .abort j) (up : s ≠ .shutdown) :
    (w.acted s).Tended j c start interval k := by
  cases h with
  | ended hj unled =>
    exact .ended (sweeper_acted hj unstopped up) fun leads => unled (leads_of_acted hc leads)
  | @pends k phase hj p =>
    obtain ⟨begun, timer, ahead⟩ := p.placed.resolve_left (by simp [settled])
    refine .pends (sweeper_acted hj unstopped up)
      ⟨p.awaits, fun n hn => isDue_mono (now_le_acted w s) (p.past n hn), ?_⟩
    have before := Nat.lt_of_not_le fun h => ahead (decide_eq_true h)
    by_cases due : isDue (w.acted s).clock.now (tickAfter start interval k)
    · exact .inl ⟨mem_ready_acted timer before (of_decide_eq_true due), fun e => absurd e begun⟩
    · refine .inr ⟨begun, (mem_timers_acted up ?_ fun _ => before).2 ⟨timer, ?_⟩, due⟩
      · rintro i rfl own
        exact unstopped (by rw [Task.sweeper.inj own])
      · exact Nat.lt_of_not_le fun h => due (decide_eq_true h)

/-! ### Sweepers that have ended -/

/-- That a sweeper has ended. -/
def SweeperEnded (w : World) (j : Nat) : Prop :=
  ∃ x, w.sweepers[j]? = some x ∧ x.phase = .finished

/-- That a sweeper that has ended is not to have a turn, and waits for none. -/
def Retires (w : World) : Prop := ∀ j, w.SweeperEnded j → w.sweeperPlaces j = 0

/-- A sweeper ends when it is stopped, or all tasks are. -/
theorem sweeperEnded_of_stopped {x : Sweeper} (hj : w.sweepers[j]? = some x)
    (stopped : s = .abort j ∨ s = .shutdown) : (w.acted s).SweeperEnded j := by
  refine ⟨{ x with phase := .finished }, ?_, rfl⟩
  rcases stopped with rfl | rfl
  · have there : j < w.sweepers.size := (Array.getElem?_eq_some_iff.1 hj).1
    have acted : w.acted (.abort j) = (w.shown #[]).stopSweeper j := by
      simp [World.acted, act, there, shown]
    rw [acted]
    simp [stopSweeper, endSweeper, setSweeperPhase, Array.getElem?_modify, hj, shown]
  · obtain ⟨_, -, he⟩ := (w.shown #[]).shutDown_eq
    rw [show w.acted .shutdown = (w.shown #[]).shutDown from rfl, he, Array.getElem?_map]
    rw [show (w.shown #[]).sweepers[j]? = _ from hj]
    rfl

/-- A sweeper that has ended stays so after a step. -/
theorem SweeperEnded.acted (h : w.SweeperEnded j) : (w.acted s).SweeperEnded j := by
  obtain ⟨x, hj, ended⟩ := h
  by_cases stopped : s = .abort j ∨ s = .shutdown
  · exact sweeperEnded_of_stopped hj stopped
  · rw [not_or] at stopped
    exact ⟨x, sweeper_acted hj stopped.1 stopped.2, ended⟩

theorem Retires.acted (h : w.Retires) (s : Step) : (w.acted s).Retires := by
  have same {v : World} {j : Nat} (e : v.sweepers[j]? = w.sweepers[j]?)
      (places : v.sweeperPlaces j ≤ w.sweeperPlaces j) (ended : v.SweeperEnded j) :
      v.sweeperPlaces j = 0 := by
    have := h j (by rwa [SweeperEnded, ← e])
    omega
  have change := change_acted w s
  generalize w.acted s = w' at change
  intro j ended
  cases change with
  | aside | cache | limiter | drop | setWall | store => exact same rfl (Nat.le_refl _) ended
  | issue =>
    obtain ⟨_, numbers, he⟩ := issueAll_eq (w.shown #[]) _ _ _ _
    rw [he] at ended ⊢
    exact same rfl (Nat.le_of_eq (sweeperPlaces_enqueue numbers j)) ended
  | @advance d =>
    obtain ⟨due, later, hp, he⟩ := { w.shown #[] with clock := w.clock.advance d }.wakeTimers_eq
    rw [World.advance] at ended ⊢
    rw [show ({ w.shown #[] with clock := (w.shown #[]).clock.advance d } : World).wakeTimers = _
      from he] at ended ⊢
    refine same rfl ?_ ended
    have := (hp.map Timer.task).count_eq (.sweeper j)
    simp only [List.map_append, List.count_append, sweeperPlaces, shown] at this ⊢
    omega
  | sweeper =>
    obtain ⟨x, hx, finished⟩ := ended
    simp only [addSweeper, enqueue, Array.getElem?_push] at hx
    split at hx
    · cases hx
      cases finished
    · rename_i old
      have there := h j ⟨x, hx, finished⟩
      simp only [sweeperPlaces, addSweeper, enqueue, shown, List.count_append,
        List.count_singleton, beq_iff_eq, Task.sweeper.injEq] at there ⊢
      rw [if_neg fun e => old e.symm]
      exact there
  | @stop i =>
    by_cases own : j = i
    · subst own
      simp [sweeperPlaces, stopSweeper, endSweeper, setSweeperPhase, List.count_eq_zero,
        List.mem_filter]
    · refine same ?_ ?_ ended
      · simp only [stopSweeper, endSweeper, setSweeperPhase, Array.getElem?_modify,
          if_neg (Ne.symm own)]
        rfl
      · exact Nat.add_le_add (List.filter_sublist.count_le _)
          ((List.filter_sublist.map _).count_le _)
  | gate => exact same rfl (Nat.le_of_eq (sweeperPlaces_enqueue _ j)) ended
  | shutdown =>
    obtain ⟨_, -, he⟩ := (w.shown #[]).shutDown_eq
    rw [he]
    rfl

/-- Who has the turn has not ended. -/
theorem Retires.not_ended (h : w.Retires) (hr : w.ready.head? = some (.sweeper j)) :
    ¬ w.SweeperEnded j := fun ended => by
  have queued := List.count_pos_iff.2 (List.mem_of_mem_head? hr)
  have places := h j ended
  unfold sweeperPlaces at places
  omega

theorem Retires.turn {task : Task} (h : w.Retires) (o : w.Orderly) (t : w.Tidy)
    (hr : w.ready.head? = some task) : (w.taken.turn task).Retires := by
  intro j ended
  by_cases own : task = .sweeper j
  · subst own
    rw [World.turn] at ended ⊢
    rcases w.taken.sweeperTurn_cases j with
      e | ⟨x, hx, _, _, -, _, _, phase, again, timers, going, e⟩
    · rw [e] at ended
      exact absurd ended (h.not_ended hr)
    · obtain ⟨y, hy, finished⟩ := ended
      rw [e] at hy ⊢
      simp only [Array.getElem?_modify, hx, if_pos, Option.map_some, Option.some.injEq] at hy
      subst hy
      obtain rfl : phase = .finished := finished
      cases going with
      | waits awaits => exact absurd rfl awaits
      | ended =>
        -- It was in the queue only.
        obtain ⟨rest, hr⟩ := List.head?_eq_some_iff.1 hr
        have alone := (t.lt_size (j := j) (by simp [hr])).2
        simp only [sweeperPlaces, taken, hr, List.tail_cons, List.append_nil,
          List.count_cons_self] at alone ⊢
        omega
  · have keeps := keepsSweeper_turn o t hr own
    have before := h j (by rwa [SweeperEnded, ← keeps.sweeper])
    have := keeps.places_le
    omega

end World

namespace Course

open World

variable {ok : World → Step → Prop} {v w : World} {h : List Moment} {j c : Nat} {start : Instant}
  {interval : Span}

/-- After some turns a sweeper is with a tick, or at its end. -/
theorem tended {k : Option Nat} (course : Course (fun _ _ => False) v h w) (o : v.Orderly)
    (t : v.Tidy) (hc : c < v.caches.size) (hi : interval ≠ .zero)
    (tended : v.Tended j c start interval k) : w.clock = v.clock ∧
      ∃ k', w.Tended j c start interval k' ∧ v.Proceeds c start interval k k' := by
  induction course with
  | start => exact ⟨rfl, k, tended, .refl ..⟩
  | act _ h => exact h.elim
  | turn course hr ih =>
    obtain ⟨clock, k', tended, proceeds⟩ := ih
    have head : List.head? _ = some _ := List.head?_eq_some_iff.2 ⟨_, hr⟩
    have orderly := course.orderly o
    obtain ⟨k'', tended, proceeds'⟩ := tended.turn hi orderly (course.tidy o t) head
    exact ⟨(orderly.clock_turn head).trans clock, k'', tended,
      proceeds.trans proceeds' clock fun leads => (course.leads o hc leads).1⟩

theorem retires (course : Course ok v h w) (o : v.Orderly) (t : v.Tidy) (r : v.Retires) :
    w.Retires := by
  induction course with
  | start => exact r
  | act _ _ ih => exact ih.acted _
  | turn course hr ih => exact ih.turn (course.orderly o) (course.tidy o t) (by rw [hr]; rfl)

/-- A sweeper that has ended has no turn again. -/
theorem retired (course : Course ok v h w) (o : v.Orderly) (t : v.Tidy) (r : v.Retires)
    (ended : v.SweeperEnded j) : w.SweeperEnded j ∧ ∀ m ∈ h, m.task ≠ .sweeper j := by
  induction course with
  | start => exact ⟨ended, by simp⟩
  | act _ _ ih => exact ⟨ih.1.acted, ih.2⟩
  | @turn h w task rest course hr ih =>
    have head : w.ready.head? = some task := by rw [hr]; rfl
    have other : task ≠ .sweeper j := fun own =>
      (course.retires o t r).not_ended (by rw [head, own]) ih.1
    have keeps := keepsSweeper_turn (course.orderly o) (course.tidy o t) head other
    refine ⟨by rw [SweeperEnded, Moment.after, keeps.sweeper]; exact ih.1, fun m hm => ?_⟩
    rcases List.mem_append.1 hm with hm | hm
    · exact ih.2 m hm
    · rw [List.mem_singleton.1 hm]
      exact other

end Course

/-! ### Sessions -/

namespace World

variable {w : World} {j c : Nat} {interval : Span}

/-- That a step would start a sweeper on a cache, of some number. -/
structure Starts (w : World) (name : String) (interval : Span) (j c : Nat) : Prop where
  cache : w.cacheNames.get? name = some c
  number : (w.step (.sweeper name interval)).2.result = .count j

theorem Starts.acted {name : String} (h : w.Starts name interval j c) :
    w.acted (.sweeper name interval) = (w.shown #[]).addSweeper c interval ∧
      j = w.sweepers.size ∧ c < w.caches.size := by
  have result : ((w.shown #[]).act (.sweeper name interval)).2 = .count j := h.number
  have acted : w.acted (.sweeper name interval) =
    ((w.shown #[]).act (.sweeper name interval)).1 := rfl
  rw [acted]
  simp only [act, withCache] at result ⊢
  cases hn : (w.shown #[]).cacheNamed? name with
  | none => simp [hn] at result
  | some there =>
    obtain ⟨c', cell⟩ := there
    obtain ⟨named, hc⟩ := cacheNamed?_eq_some hn
    obtain rfl : c = c' := Option.some.inj (h.cache.symm.trans named)
    simp only [hn] at result ⊢
    by_cases running : (w.shown #[]).running
    · rw [if_pos running] at result ⊢
      cases result
      exact ⟨rfl, rfl, (Array.getElem?_eq_some_iff.1 hc).1⟩
    · rw [if_neg running] at result
      cases result

/-- That a tick comes due in a step. -/
def ComesDue (w : World) (s : Step) (tick : Instant) : Prop :=
  ¬ isDue w.clock.now tick ∧ isDue (w.step s).1.clock.now tick

instance (w : World) (s : Step) (tick : Instant) : Decidable (w.ComesDue s tick) :=
  inferInstanceAs (Decidable (_ ∧ _))

end World

open World

/-- That a sweeper, started in a session, lives as long as its cache, if its ticks come with a
    pace. -/
structure Lifespan (wall : Int) (before : List Step) (name : String) (interval pace : Span)
    (after : List Step) (j c : Nat) : Prop where
  /-- As long as the cache is reachable, the sweeper has not ended. -/
  lives : ∀ upto rest, after = upto ++ rest →
    let w := (starting wall).final (before ++ .sweeper name interval :: upto)
    w.reachable c → ¬ w.SweeperEnded j
  /-- A cache that is reachable after a step was so throughout it. -/
  throughout : ∀ upto s rest, after = upto ++ s :: rest →
    let w := (starting wall).final (before ++ .sweeper name interval :: upto)
    (w.step s).1.reachable c → w.reachable c ∧ ∀ m ∈ (w.acted s).settling, m.world.reachable c
  /-- If it is not reachable from the start of a step in which a tick comes due, the sweeper
      has ended at the end of the step. -/
  ends : ∀ upto s rest, after = upto ++ s :: rest →
    let w := (starting wall).final (before ++ .sweeper name interval :: upto)
    ¬ w.reachable c → ∀ k ≥ 1,
      w.ComesDue s (tickAfter ((starting wall).final before).clock.now pace k) →
        (w.step s).1.SweeperEnded j
  /-- Once it has ended it stays so. -/
  stays : ∀ upto s rest, after = upto ++ s :: rest →
    let w := (starting wall).final (before ++ .sweeper name interval :: upto)
    w.SweeperEnded j → (w.step s).1.SweeperEnded j
  /-- It has no turn again, and so purges nothing. -/
  retires : ∀ earlier m later,
    (starting wall).history (before ++ .sweeper name interval :: after) = earlier ++ m :: later →
      m.after.SweeperEnded j → ∀ n ∈ later, n.task ≠ .sweeper j
  /-- Reports say whether it has ended. -/
  reported : ∀ upto s rest, after = upto ++ s :: rest →
    let w := (starting wall).final (before ++ .sweeper name interval :: upto)
    (w.step s).2.sweepersEnded[j]? = some true ↔ (w.step s).1.SweeperEnded j

/-- That ticks of a sweeper's interval, when nothing leads to its cache, only come due in steps
    in which ticks of its timer do, until it has ended. -/
def KeepsPace (wall : Int) (before : List Step) (name : String) (interval : Span)
    (after : List Step) (j c : Nat) : Prop :=
  ∀ upto s rest, after = upto ++ s :: rest →
    let w := (starting wall).final (before ++ .sweeper name interval :: upto)
    let start := ((starting wall).final before).clock.now
    ¬ w.reachable c → ∀ k ≥ 1, w.ComesDue s (tickAfter start interval k) →
      w.SweeperEnded j ∨ ∃ n ≥ 1, w.ComesDue s (tickAfter start interval.onTimer n)

namespace World

variable {w : World} {j c : Nat} {start : Instant} {interval : Span} {s : Step}

theorem sweepersEnded_iff (w : World) (s : Step) (j : Nat) :
    (w.step s).2.sweepersEnded[j]? = some true ↔ (w.step s).1.SweeperEnded j := by
  have ended : (w.step s).2.sweepersEnded =
      (w.step s).1.sweepers.toList.map (·.phase == .finished) := rfl
  rw [ended, SweeperEnded, List.getElem?_map, Array.getElem?_toList, Option.map_eq_some_iff]
  simp

/-- A sweeper between two steps goes on with a tick that is not due. -/
theorem Tended.not_isDue {k : Nat} (h : w.Tended j c start interval (some k)) (r : w.Rested) :
    ¬ isDue w.clock.now (tickAfter start interval k) ∧
      ∀ n < k, isDue w.clock.now (tickAfter start interval n) := by
  cases h with
  | pends _ p =>
    obtain ⟨-, -, ahead⟩ := p.placed.resolve_left (by simp [r.settled])
    exact ⟨ahead, p.past⟩

theorem Tended.ended_iff {k : Option Nat} (h : w.Tended j c start interval k) :
    w.SweeperEnded j ↔ k = none := by
  cases h with
  | ended hj => exact iff_of_true ⟨_, hj, rfl⟩ rfl
  | @pends k phase hj p =>
    refine iff_of_false ?_ nofun
    rintro ⟨x, hx, ended⟩
    obtain rfl := Option.some.inj (hj.symm.trans hx)
    obtain rfl : phase = .finished := ended
    cases p.awaits

/-- A step between two others, and the turns after it. -/
theorem Tended.step {k : Option Nat} (h : w.Tended j c start interval k) (r : w.Rested)
    (hc : c < w.caches.size) (hi : interval ≠ .zero) (unstopped : s ≠ .abort j)
    (up : s ≠ .shutdown) : (w.step s).1.clock = (w.acted s).clock ∧
      ∃ k', (w.step s).1.Tended j c start interval k' ∧
        (w.acted s).Proceeds c start interval k k' :=
  (w.course_settling s).tended (r.orderly.acted s) (r.tidy.acted s) (size_caches_acted hc) hi
    (h.acted r.settled hc unstopped up)

/-- If nothing leads to its cache, a sweeper ends in the step in which one of its ticks comes
    due. -/
theorem Tended.step_ended_iff {k : Option Nat} (h : w.Tended j c start interval k) (r : w.Rested)
    (hc : c < w.caches.size) (hi : interval ≠ .zero) (unstopped : s ≠ .abort j)
    (up : s ≠ .shutdown) (unled : ¬ w.Leads c) : (w.step s).1.SweeperEnded j ↔
      w.SweeperEnded j ∨ ∃ n ≥ 1, w.ComesDue s (tickAfter start interval n) := by
  obtain ⟨clock, k', after, proceeds⟩ := h.step r hc hi unstopped up
  have within := proceeds.within.resolve_left fun leads => unled (leads_of_acted hc leads)
  rw [after.ended_iff, h.ended_iff]
  constructor
  · intro ended
    cases k with
    | none => exact .inl rfl
    | some m =>
      obtain ⟨n, le, due⟩ := proceeds.ends ended m rfl
      refine .inr ⟨n, by omega, fun early => ?_, by rwa [clock]⟩
      exact (h.not_isDue r).1 (isDue_of_le (by omega) early)
  · rintro (rfl | ⟨n, hn, ahead, due⟩)
    · exact Option.eq_none_iff_forall_not_mem.2 fun n hn => nomatch proceeds.onward n hn
    · cases k' with
      | none => rfl
      | some n' =>
        -- It would wait for a tick no later than one that has come due.
        obtain ⟨m, rfl, le⟩ := within n' rfl
        have early : m ≤ n := Nat.le_of_not_lt fun h' => ahead ((h.not_isDue r).2 n h')
        exact absurd (isDue_of_le (by omega) due) (after.not_isDue (r.step s)).1

theorem size_caches_step (r : w.Rested) (hc : c < w.caches.size) (s : Step) :
    c < (w.step s).1.caches.size :=
  (w.course_settling s).lt_size_caches (r.orderly.acted s) (size_caches_acted hc)

/-- Where a sweeper stands after some steps. -/
theorem Tended.final {k : Option Nat} {steps : List Step} (h : w.Tended j c start interval k)
    (r : w.Rested) (hc : c < w.caches.size) (hi : interval ≠ .zero)
    (unstopped : .abort j ∉ steps) (up : .shutdown ∉ steps) :
    c < (w.final steps).caches.size ∧ ∃ k', (w.final steps).Tended j c start interval k' := by
  induction steps generalizing w k with
  | nil => exact ⟨hc, k, h⟩
  | cons s rest ih =>
    rw [List.mem_cons, not_or] at unstopped up
    obtain ⟨-, k', tended, -⟩ := h.step r hc hi (Ne.symm unstopped.1) (Ne.symm up.1)
    exact ih tended (r.step s) (size_caches_step r hc s) unstopped.2 up.2

/-- A sweeper that is started is to have its turn. -/
theorem Starts.tended_acted {name : String} (h : w.Starts name interval j c) :
    (w.acted (.sweeper name interval)).Tended j c w.clock.now interval.onTimer (some 0) := by
  obtain ⟨acted, rfl, hc⟩ := h.acted
  rw [acted]
  have there : ((w.shown #[]).addSweeper c interval).sweepers[w.sweepers.size]? =
      some ⟨c, interval.onTimer, .issued⟩ := by simp [addSweeper, enqueue, shown]
  refine .pends there ⟨.issued, fun n hn => absurd hn n.not_lt_zero, .inl ⟨?_, fun _ => rfl⟩⟩
  simp [addSweeper, enqueue, shown]

/-- Where a sweeper stands after the step that starts it. -/
theorem Starts.tended {name : String} (h : w.Starts name interval j c) (r : w.Rested)
    (hi : interval ≠ .zero) : ∃ k, (w.step (.sweeper name interval)).1.Tended j c w.clock.now
      interval.onTimer k := by
  obtain ⟨-, k, tended, -⟩ := (w.course_settling _).tended (r.orderly.acted _) (r.tidy.acted _)
    (size_caches_acted h.acted.2.2) (Span.onTimer_ne_zero hi) h.tended_acted
  exact ⟨k, tended⟩

theorem retires_starting (wall : Int) : (starting wall).Retires := by
  rintro j ⟨x, hx, -⟩
  simp [starting] at hx

theorem retires_final (wall : Int) (steps : List Step) : ((starting wall).final steps).Retires :=
  (course_history ((starting wall).along_true steps)).retires (orderly_starting wall)
    (tidy_starting wall) (retires_starting wall)

variable {wall : Int} {before upto after : List Step} {name : String}

/-- Where a sweeper stands in a session that goes on after its start. -/
theorem Starts.stands (starts : ((starting wall).final before).Starts name interval j c)
    (hi : interval ≠ .zero) (unstopped : .abort j ∉ upto) (up : .shutdown ∉ upto) :
    let w := (starting wall).final (before ++ .sweeper name interval :: upto)
    c < w.caches.size ∧ ∃ k, w.Tended j c ((starting wall).final before).clock.now
      interval.onTimer k := by
  intro w
  have rested := rested_final wall before
  obtain ⟨k, first⟩ := starts.tended rested hi
  rw [show w = _ from (starting wall).final_append before _]
  exact first.final (rested.step _) (size_caches_step rested starts.acted.2.2 _)
    (Span.onTimer_ne_zero hi) unstopped up

/-- If timers run for the interval, its ticks are those of the timer. -/
theorem keepsPace_of_le (short : interval.nanos ≤ Span.longestTimer.nanos) :
    KeepsPace wall before name interval after j c := by
  intro upto s rest _ w start _ k hk due
  rw [Span.onTimer_of_le short]
  exact .inr ⟨k, hk, due⟩

/-- A sweeper lives exactly as long as its cache, up to the next of its ticks. These are as far
    apart as timers run for its interval, so they may miss ticks of the interval. -/
theorem lives_with_cache (starts : ((starting wall).final before).Starts name interval j c)
    (hi : interval ≠ .zero) (unstopped : .abort j ∉ after) (up : .shutdown ∉ after) :
    Lifespan wall before name interval interval.onTimer after j c ∧
      (Lifespan wall before name interval interval after j c ↔
        KeepsPace wall before name interval after j c) := by
  have course := course_history ((starting wall).along_true
    (before ++ .sweeper name interval :: after))
  have orderly := orderly_starting wall
  have tidy := tidy_starting wall
  have ended_iff (upto : List Step) (s : Step) (rest : List Step)
      (split : after = upto ++ s :: rest) :
      let w := (starting wall).final (before ++ .sweeper name interval :: upto)
      ¬ w.reachable c → ((w.step s).1.SweeperEnded j ↔ w.SweeperEnded j ∨ ∃ n ≥ 1,
        w.ComesDue s (tickAfter ((starting wall).final before).clock.now interval.onTimer n)) := by
    intro w unreachable
    rw [split, List.mem_append, List.mem_cons, not_or, not_or] at unstopped up
    obtain ⟨hc, k, tended⟩ := starts.stands hi unstopped.1 up.1
    exact tended.step_ended_iff (rested_final ..) hc (Span.onTimer_ne_zero hi)
      (Ne.symm unstopped.2.1) (Ne.symm up.2.1) fun leads => unreachable (reachable_iff.2 leads)
  have all : Lifespan wall before name interval interval.onTimer after j c := by
    constructor
    case lives =>
      intro upto rest split w reachable ended
      rw [split, List.mem_append, not_or] at unstopped up
      obtain ⟨-, k, tended⟩ := starts.stands hi unstopped.1 up.1
      obtain rfl := tended.ended_iff.1 ended
      cases tended with
      | ended _ unled => exact unled (reachable_iff.1 reachable)
    case throughout =>
      intro upto s rest split w reachable
      rw [split, List.mem_append, not_or] at unstopped up
      obtain ⟨hc, -⟩ := starts.stands hi unstopped.1 up.1
      obtain ⟨leads, all⟩ := (w.course_settling s).leads ((rested_final wall _).orderly.acted s)
        (size_caches_acted hc) (reachable_iff.1 reachable)
      exact ⟨reachable_iff.2 (leads_of_acted hc leads), fun m hm => reachable_iff.2 (all m hm)⟩
    case ends =>
      intro upto s rest split w unreachable k hk due
      exact (ended_iff upto s rest split unreachable).2 (.inr ⟨k, hk, due⟩)
    case stays =>
      intro upto s rest split w ended
      have r : w.Rested := rested_final ..
      exact ((w.course_settling s).retired (r.orderly.acted s) (r.tidy.acted s)
        ((retires_final wall _).acted s) ended.acted).1
    case retires =>
      intro earlier m later split ended
      obtain ⟨course, ⟨rest, hr⟩, thence⟩ := course.at_split split
      have hither := course.turn hr
      exact (thence.retired (hither.orderly orderly) (hither.tidy orderly tidy)
        (hither.retires orderly tidy (retires_starting wall)) ended).2
    case reported => exact fun upto s rest _ => sweepersEnded_iff _ s j
  refine ⟨all, ⟨fun life => ?_, fun pace => ?_⟩⟩
  · intro upto s rest split w start unreachable k hk due
    exact (ended_iff upto s rest split unreachable).1
      (life.ends upto s rest split unreachable k hk due)
  · refine ⟨all.lives, all.throughout, ?_, all.stays, all.retires, all.reported⟩
    intro upto s rest split w unreachable k hk due
    exact (ended_iff upto s rest split unreachable).2
      (pace upto s rest split unreachable k hk due)

/-- A cache that is dropped between two ticks of a sweeper of ten milliseconds. -/
def droppedBetween : List Step :=
  [.advance (.ofMillis 15), .dropCache "c", .advance (.ofMillis 5)]

/-- The sweeper has ended at the second tick. -/
theorem lives_with_cache_droppedBetween :
    let last := (starting 0).final (.cache "c" :: .sweeper "c" (.ofMillis 10) :: droppedBetween)
    Lifespan 0 [.cache "c"] "c" (.ofMillis 10) (.ofMillis 10) droppedBetween 0 0 ∧
      last.SweeperEnded 0 := by
  have starts : ((starting 0).final [.cache "c"]).Starts "c" (.ofMillis 10) 0 0 :=
    ⟨rfl, rfl⟩
  have life : Lifespan 0 [.cache "c"] "c" (.ofMillis 10) (.ofMillis 10) droppedBetween 0 0 :=
    (lives_with_cache starts (by decide) (by simp [droppedBetween])
      (by simp [droppedBetween])).2.2 (keepsPace_of_le (by decide))
  exact ⟨life, life.ends (droppedBetween.take 2) (.advance (.ofMillis 5)) [] rfl
    (by decide +kernel) 2 (by decide) (by decide +kernel)⟩

/-- A sweeper of forty years, and its cache for thirty, and ten years. -/
def fortyYears : List Step :=
  [.advance (.ofParts 946080000 0), .dropCache "c", .advance (.ofParts 315360000 0)]

/-- A sweeper with an interval beyond the range of timers does not end at its first tick. -/
theorem sweeper_outlives_tick : ¬ ∀ (wall : Int) (before : List Step) (name : String)
    (interval : Span) (after : List Step) (j c : Nat),
    ((starting wall).final before).Starts name interval j c → interval ≠ .zero →
      .abort j ∉ after → .shutdown ∉ after →
        Lifespan wall before name interval interval after j c := by
  intro lives
  have starts : ((starting 0).final [.cache "c"]).Starts "c" (.ofParts 1261440000 0) 0 0 :=
    ⟨rfl, rfl⟩
  have life := lives 0 [.cache "c"] "c" (.ofParts 1261440000 0) fortyYears 0 0 starts
    (by decide) (by simp [fortyYears]) (by simp [fortyYears])
  have ended := life.ends (fortyYears.take 2) (.advance (.ofParts 315360000 0)) [] rfl
    (by decide +kernel) 1 (Nat.le_refl 1) (by decide +kernel)
  have reported := (life.reported (fortyYears.take 2) (.advance (.ofParts 315360000 0)) [] rfl).2
    ended
  exact absurd reported (by decide +kernel)

end World

end Turnstile
