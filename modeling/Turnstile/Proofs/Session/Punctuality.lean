import Turnstile.Proofs.Session.Lifespan

/-!
# Punctual sweepers

A sweeper takes each of its ticks once, in the step in which the tick comes due, into
whatever steps the time is cut. And when it has taken one after its start, nothing in its
cache has expired: in a step in which time passes no request stores anything, as all that
can go on are sweepers and requests whose waits are over.

* `World.Stands.onward`, `Course.takes_iff`: in turns a sweeper goes through its ticks in
  order, and skips none;
* `Course.swept`: in those that follow a step in which time passes the cache is purged, if
  any tick after the start is taken;
* `World.Sweeps`: what is to be seen of the cache after such a step;
* `World.takes_on_time`: so it is in a session, at the ticks of the timer.

As with the end of a sweeper, a tick of an interval that timers do not run for may come due
at another time than that of the timer (`KeepsTime`), and then it is missed
(`World.sweeper_misses_tick`).
-/

namespace Turnstile

open Sweeper

/-! ### Numbers of ticks -/

namespace Sweeper

variable {now start tick : Instant} {interval : Span} {k n : Nat}

theorem tickAfter_inj (hi : interval ≠ .zero) :
    tickAfter start interval k = tickAfter start interval n ↔ k = n := by
  have positive : 0 < interval.nanos := Nat.pos_of_ne_zero (Span.nanos_ne_zero hi)
  simp only [tickAfter, Instant.later, Instant.mk.injEq, Nat.add_left_cancel_iff]
  exact ⟨Nat.eq_of_mul_eq_mul_right positive, congrArg (· * _)⟩

/-- No tick after its start is due when a sweeper starts. -/
theorem not_isDue_start (hi : interval ≠ .zero) (hs : Instant.origin.nanos ≤ start.nanos)
    (hk : 1 ≤ k) : ¬ isDue start (tickAfter start interval k) := fun due => by
  have first := Instant.millisDown_lt_millisUp hs (Span.nanos_ne_zero hi)
  have early := isDue_of_le hk due
  rw [← tickAfter_later, tickAfter_zero] at early
  exact Nat.not_le.2 first (of_decide_eq_true early)

end Sweeper

theorem Instant.eq_tickAfter_of_add? {start tick : Instant} {interval : Span} {k : Nat}
    (h : start.add? ⟨k * interval.nanos⟩ = some tick) : tick = tickAfter start interval k :=
  eq_later_of_add? h

/-- A sweeper goes on with one tick only. -/
theorem SweeperPhase.Awaits.unique {start : Instant} {interval : Span} {phase : SweeperPhase}
    {k n : Nat} (hi : interval ≠ .zero) (h : phase.Awaits start interval k)
    (h' : phase.Awaits start interval n) : k = n := by
  generalize e : phase = p at h'
  cases h with
  | issued | first => cases h' <;> first | rfl | cases e
  | ticking =>
    cases h' with
    | ticking => exact (tickAfter_inj hi).1 (SweeperPhase.ticking.inj e)
    | _ => cases e
  | behind =>
    cases h' with
    | behind => exact (tickAfter_inj hi).1 (SweeperPhase.behind.inj e)
    | _ => cases e

/-! ### Ticks taken -/

/-- That a sweeper that started at some time goes on with its tick of some number. -/
def World.Awaits (w : World) (j : Nat) (start : Instant) (k : Nat) : Prop :=
  ∃ x, w.sweepers[j]? = some x ∧ x.phase.Awaits start x.interval k

/-- That a sweeper takes a tick in a turn: it goes on with it, or with one before, and with
    one after it when the turn is over. -/
def Moment.Takes (m : Moment) (j : Nat) (start : Instant) (k : Nat) : Prop :=
  m.task = .sweeper j ∧ ∃ n n', m.world.Awaits j start n ∧ m.after.Awaits j start n' ∧
    n ≤ k ∧ k < n'

namespace World

variable {w : World} {j c k n : Nat} {start : Instant} {interval : Span} {s : Step}

/-- That a sweeper goes on with some tick, or has ended in whatever way. -/
def Stands (w : World) (j c : Nat) (start : Instant) (interval : Span) : Prop :=
  w.SweeperEnded j ∨ ∃ k, w.Tended j c start interval (some k)

theorem Tended.awaits_iff {k : Option Nat} (h : w.Tended j c start interval k)
    (hi : interval ≠ .zero) : w.Awaits j start n ↔ k = some n := by
  cases h with
  | ended hj =>
    refine iff_of_false ?_ nofun
    rintro ⟨x, hx, awaits⟩
    obtain rfl := Option.some.inj (hj.symm.trans hx)
    cases awaits
  | @pends k phase hj p =>
    constructor
    · rintro ⟨x, hx, awaits⟩
      obtain rfl := Option.some.inj (hj.symm.trans hx)
      rw [p.awaits.unique hi awaits]
    · rintro ⟨⟩
      exact ⟨_, hj, p.awaits⟩

theorem SweeperEnded.not_awaits (h : w.SweeperEnded j) : ¬ w.Awaits j start n := by
  obtain ⟨x, hj, ended⟩ := h
  rintro ⟨y, hy, awaits⟩
  obtain rfl := Option.some.inj (hj.symm.trans hy)
  rw [ended] at awaits
  cases awaits

theorem Awaits.of_same {w' : World} (h : w'.Awaits j start n)
    (same : w'.sweepers[j]? = w.sweepers[j]?) : w.Awaits j start n := by
  rwa [Awaits, ← same]

theorem Tended.stands {k : Option Nat} (h : w.Tended j c start interval k) :
    w.Stands j c start interval := by
  cases k with
  | none => exact .inl (h.ended_iff.2 rfl)
  | some k => exact .inr ⟨k, h⟩

namespace Stands

theorem awaits_unique (h : w.Stands j c start interval) (hi : interval ≠ .zero)
    (hk : w.Awaits j start k) (hn : w.Awaits j start n) : k = n := by
  rcases h with ended | ⟨m, tended⟩
  · exact absurd hk ended.not_awaits
  · rw [tended.awaits_iff hi] at hk hn
    exact Option.some.inj (hk.symm.trans hn)

theorem exists_awaits (h : w.Stands j c start interval) (hi : interval ≠ .zero)
    (live : ¬ w.SweeperEnded j) :
    ∃ k, w.Awaits j start k ∧ w.Tended j c start interval (some k) := by
  obtain ⟨k, tended⟩ := h.resolve_left live
  exact ⟨k, (tended.awaits_iff hi).2 rfl, tended⟩

/-- A step does not have a sweeper go on with another tick. -/
theorem acted (h : w.Stands j c start interval) (settled : w.ready = [])
    (hc : c < w.caches.size) (hi : interval ≠ .zero) (s : Step) :
    (w.acted s).Stands j c start interval ∧
      ∀ n, (w.acted s).Awaits j start n → w.Awaits j start n := by
  rcases h with ended | ⟨k, tended⟩
  · exact ⟨.inl ended.acted, fun n awaits => absurd awaits ended.acted.not_awaits⟩
  · obtain ⟨x, hj, awaits⟩ := (tended.awaits_iff hi).2 rfl
    by_cases stopped : s = .abort j ∨ s = .shutdown
    · have ended := sweeperEnded_of_stopped hj stopped
      exact ⟨.inl ended, fun n awaits => absurd awaits ended.not_awaits⟩
    · rw [not_or] at stopped
      refine ⟨(tended.acted settled hc stopped.1 stopped.2).stands, fun n awaits => ?_⟩
      exact awaits.of_same (by rw [sweeper_acted hj stopped.1 stopped.2, hj])

/-- In no turn does a sweeper go back to an earlier tick, nor on to another one if the turn
    is not its own. -/
theorem onward {task : Task} (h : w.Stands j c start interval) (hi : interval ≠ .zero)
    (o : w.Orderly) (t : w.Tidy) (r : w.Retires) (hr : w.ready.head? = some task) :
    (w.taken.turn task).Stands j c start interval ∧
      ∀ n, (w.taken.turn task).Awaits j start n → ∃ m ≤ n, w.Awaits j start m ∧
        (task ≠ .sweeper j → m = n) := by
  by_cases own : task = .sweeper j
  · obtain ⟨k, tended⟩ := h.resolve_left (r.not_ended (own ▸ hr))
    obtain ⟨k', tended', proceeds⟩ := tended.turn hi o t hr
    refine ⟨tended'.stands, fun n awaits => ?_⟩
    obtain ⟨m, hm, le⟩ := proceeds.onward n ((tended'.awaits_iff hi).1 awaits)
    exact ⟨m, le, (tended.awaits_iff hi).2 hm, absurd own⟩
  · have keeps := keepsSweeper_turn o t hr own
    refine ⟨?_, fun n awaits => ⟨n, Nat.le_refl n, awaits.of_same keeps.sweeper, fun _ => rfl⟩⟩
    rcases h with ended | ⟨k, tended⟩
    · rw [Stands, SweeperEnded, keeps.sweeper]
      exact .inl ended
    · obtain ⟨k', tended', -⟩ := tended.turn hi o t hr
      exact tended'.stands

end Stands

end World

namespace Moment

open World

variable {m : Moment} {j c k n n' : Nat} {start : Instant} {interval : Span}

/-- Those ticks are taken in a turn that are between the one that the sweeper went on with
    before it and the one that it goes on with after it. -/
theorem takes_iff (before : m.world.Stands j c start interval)
    (after : m.after.Stands j c start interval) (hi : interval ≠ .zero)
    (hn : m.world.Awaits j start n) (hn' : m.after.Awaits j start n')
    (other : m.task ≠ .sweeper j → n = n') : m.Takes j start k ↔ n ≤ k ∧ k < n' := by
  constructor
  · rintro ⟨-, l, l', hl, hl', between⟩
    rwa [before.awaits_unique hi hn hl, after.awaits_unique hi hn' hl']
  · intro between
    refine ⟨Decidable.byContradiction fun ne => ?_, n, n', hn, hn', between⟩
    have := other ne
    omega

end Moment

namespace Course

open World Moment

variable {v w : World} {h : List Moment} {j c k : Nat} {start : Instant} {interval : Span}

theorem stands (course : Course (fun _ _ => False) v h w) (o : v.Orderly) (t : v.Tidy)
    (r : v.Retires) (hi : interval ≠ .zero) (stands : v.Stands j c start interval) :
    w.Stands j c start interval := by
  induction course with
  | start => exact stands
  | act _ h => exact h.elim
  | turn course hr ih =>
    exact (ih.onward hi (course.orderly o) (course.tidy o t) (course.retires o t r)
      (by rw [hr]; rfl)).1

/-- In some turns a sweeper takes the ticks between the one that it goes on with at first and
    the one that it goes on with at last. -/
theorem takes_iff (course : Course (fun _ _ => False) v h w) (o : v.Orderly) (t : v.Tidy)
    (r : v.Retires) (hi : interval ≠ .zero) (stands : v.Stands j c start interval) {b : Nat}
    (hb : w.Awaits j start b) : ∃ a ≤ b, v.Awaits j start a ∧
      ∀ k, (∃ m ∈ h, m.Takes j start k) ↔ a ≤ k ∧ k < b := by
  induction course generalizing b with
  | start =>
    refine ⟨b, Nat.le_refl b, hb, fun k => iff_of_false ?_ (by omega)⟩
    rintro ⟨m, hm, -⟩
    cases hm
  | act _ h => exact h.elim
  | @turn h w task rest course hr ih =>
    have before := course.stands o t r hi stands
    obtain ⟨after, onward⟩ := before.onward hi (course.orderly o) (course.tidy o t)
      (course.retires o t r) (by rw [hr]; rfl)
    obtain ⟨n, hn, there, same⟩ := onward b hb
    obtain ⟨a, ha, hither, earlier⟩ := ih there
    refine ⟨a, Nat.le_trans ha hn, hither, fun k => ?_⟩
    have last := Moment.takes_iff (m := ⟨w, task⟩) (k := k) before after hi there hb same
    simp only [List.mem_append, List.mem_singleton, or_and_right, exists_or, exists_eq_left,
      earlier, last]
    omega

/-- No tick is taken twice in some turns, nor one that is past. -/
theorem takes_once (course : Course (fun _ _ => False) v h w) (o : v.Orderly) (t : v.Tidy)
    (r : v.Retires) (hi : interval ≠ .zero) (stands : v.Stands j c start interval) :
    (h.Pairwise fun m n => m.Takes j start k → ¬ n.Takes j start k) ∧
      ∀ b, w.Awaits j start b → (∃ m ∈ h, m.Takes j start k) → k < b := by
  have upto {h w b} (course : Course (fun _ _ => False) v h w) (hb : w.Awaits j start b)
      (taken : ∃ m ∈ h, m.Takes j start k) : k < b := by
    obtain ⟨a, -, -, between⟩ := course.takes_iff o t r hi stands hb
    exact ((between k).1 taken).2
  refine ⟨?_, fun b hb taken => upto course hb taken⟩
  induction course with
  | start => exact .nil
  | act _ h => exact h.elim
  | @turn h w task rest course hr ih =>
    refine List.pairwise_append.2 ⟨ih, List.pairwise_singleton .., fun m hm n hn taken again => ?_⟩
    rw [List.mem_singleton.1 hn] at again
    obtain ⟨-, n, -, hn, -, le, -⟩ := again
    exact absurd (upto course hn ⟨m, hm, taken⟩) (Nat.not_lt.2 le)

end Course

/-! ### Steps in which time passes -/

namespace World

variable {w : World} {j c k : Nat} {start tick : Instant} {interval : Span} {s : Step}

/-- That no request that is still to be decided is to have its turn. -/
def Quiet (w : World) : Prop := ∀ i, .admission i ∈ w.ready → (w.phase? i).any (·.isDecided)

/-- A request that is to have its turn while none can be decided is not served. -/
theorem Quiet.not_holder {i : Nat} {a : Admission} {rest : List Nat} (q : w.Quiet)
    (hr : w.ready.head? = some (.admission i)) (hi : w.admissions[i]? = some a) :
    ¬ w.Holder i a rest := fun holder => by
  have decided := q i (List.mem_of_mem_head? hr)
  rw [phase?_eq hi, Option.any_some, Phase.isDecided_iff] at decided
  have := holder.undecided
  omega

theorem Quiet.turn {task : Task} (q : w.Quiet) (o : w.Orderly) (hr : w.ready.head? = some task) :
    (w.taken.turn task).Quiet := by
  have queued {i : Nat} (h : .admission i ∈ w.ready.tail) : (w.phase? i).any (·.isDecided) :=
    q i (List.mem_of_mem_tail h)
  cases task with
  | sweeper j =>
    obtain ⟨_, _, again, _, _, _, sweepers, e⟩ := w.taken.sweeperTurn_frame j
    rw [World.turn, e]
    intro i hi
    exact queued ((List.mem_append.1 hi).resolve_right (sweepers i))
  | admission i =>
    obtain ⟨a, ha, turn⟩ := o.admissionTurn_cases hr
    rw [World.turn]
    generalize w.taken.admissionTurn i = w' at turn
    cases turn with
    | joins issued =>
      have decided := q i (List.mem_of_mem_head? hr)
      rw [phase?_eq ha, issued] at decided
      cases decided
    | works _ holder => exact absurd holder (q.not_holder hr ha)
    | ends =>
      intro n hn
      simp only [finishWait, answer, log, phase?, setPhase, Array.getElem?_modify]
      split
      · subst n
        rw [show w.taken.admissions[i]? = _ from ha]
        rfl
      · exact queued hn

/-- When time passes, the requests whose waits are over are to have their turns, and no
    others. -/
theorem Rested.quiet_advance (r : w.Rested) (d : Span) : (w.acted (.advance d)).Quiet := by
  obtain ⟨due, later, perm, e⟩ := { w.shown #[] with clock := w.clock.advance d }.wakeTimers_eq
  intro i hi
  rw [show w.acted (.advance d) = _ from e] at hi ⊢
  simp only [shown, r.settled, List.nil_append] at hi
  have timed : 0 < w.timed i := by
    obtain ⟨t, ht, task⟩ := List.mem_map.1 hi
    have there : t ∈ w.timers := perm.mem_iff.1 (List.mem_append_left _ ht)
    exact List.count_pos_iff.2 (List.mem_map.2 ⟨t, there, task⟩)
  change (w.phase? i).any (·.isDecided)
  cases ha : w.admissions[i]? with
  | none =>
    have := (r.orderly.absent ha).2
    omega
  | some a =>
    have placed := r.orderly.placed ha
    rw [phase?_eq ha, Option.any_some]
    unfold Placed at placed
    cases hp : a.phase with
    | waiting | finished => rfl
    | issued | inLine | beforeLookup | beforeStore =>
      rw [hp] at placed
      omega

/-- In a step in which a tick comes due time passes. -/
theorem ComesDue.passes (h : w.ComesDue s tick)
    (clock : (w.step s).1.clock = (w.acted s).clock) : ∃ d, s = .advance d := by
  obtain ⟨ahead, due⟩ := h
  rw [clock, clock_acted] at due
  cases s with
  | advance d => exact ⟨d, rfl⟩
  | _ => exact absurd due ahead

/-! ### Turns that purge -/

theorem caches_takeTick {x : Sweeper} (hj : w.sweepers[j]? = some x) (limit : Option Nat)
    (awaits : (SweeperPhase.ticking tick).Awaits start x.interval k) :
    let v := w.takeTick j x tick limit
    v.caches[x.cache]? = w.caches[x.cache]?.map (·.purged w.clock.now) ∨ v.SweeperEnded j ∨
      v.Awaits j start k := by
  have phase {v : World} (hv : v.sweepers[j]? = some x) (phase : SweeperPhase) :
      (v.setSweeperPhase j phase).sweepers[j]? = some { x with phase } := sweeper_setPhase hv phase
  unfold takeTick
  simp only []
  split
  · split
    · exact .inl (by rw [caches_catchUp, getElem?_sweep])
    · exact .inr (.inl ⟨_, phase hj .finished, rfl⟩)
  · exact .inr (.inr ⟨_, phase hj (.ticking tick), awaits⟩)

theorem caches_takeFirstTick {x : Sweeper} (hj : w.sweepers[j]? = some x) :
    let v := w.takeFirstTick j x start
    v.caches[x.cache]? = w.caches[x.cache]?.map (·.purged w.clock.now) ∨ v.SweeperEnded j ∨
      ∃ n ≤ 1, v.Awaits j start n := by
  unfold takeFirstTick
  simp only []
  split
  · have first : start.later x.interval = tickAfter start x.interval 1 := by
      rw [← tickAfter_later, tickAfter_zero]
    rw [first]
    exact (caches_takeTick hj _ (.ticking Nat.one_pos)).imp_right
      (.imp_right fun awaits => ⟨1, Nat.le_refl 1, awaits⟩)
  · exact .inr (.inr ⟨0, Nat.zero_le 1, _, sweeper_setPhase hj (.first start), .first⟩)

/-- In a turn in which it goes past a tick after its start, a sweeper purges its cache. -/
theorem Pends.purges {phase : SweeperPhase} (p : w.Pends j start interval k phase)
    (hj : w.sweepers[j]? = some ⟨c, interval, phase⟩) (hi : interval ≠ .zero)
    (queued : .sweeper j ∈ w.ready) (alone : w.sweeperPlaces j = 1) :
    let v := w.taken.sweeperTurn j
    v.caches[c]? = w.caches[c]?.map (·.purged w.clock.now) ∨ v.SweeperEnded j ∨
      ∃ n ≤ max 1 k, v.Awaits j start n := by
  have taken : w.taken.sweepers[j]? = some ⟨c, interval, phase⟩ := hj
  have begun := p.begun queued alone
  have early {v : World} (h : ∃ n ≤ 1, v.Awaits j start n) :
      ∃ n ≤ max 1 k, v.Awaits j start n := by
    obtain ⟨n, le, awaits⟩ := h
    exact ⟨n, Nat.le_trans le (Nat.le_max_left ..), awaits⟩
  simp only [sweeperTurn, taken]
  cases p.awaits with
  | issued =>
    obtain rfl := begun rfl
    simp only [if_neg hi]
    exact (caches_takeFirstTick taken).imp_right (.imp_right early)
  | first => exact (caches_takeFirstTick taken).imp_right (.imp_right early)
  | ticking hk | behind hk =>
    exact (caches_takeTick taken _ (.ticking hk)).imp_right (.imp_right fun awaits =>
      ⟨k, Nat.le_max_right .., awaits⟩)

end World

/-- When no request can be decided, a turn may purge caches, and no more. -/
theorem Moment.idle_of_quiet {m : Moment} (o : m.world.Orderly)
    (hr : m.world.ready.head? = some m.task) (q : m.world.Quiet) : m.Idle := by
  refine (serving_or_idle o hr).resolve_left ?_
  rintro ⟨i, a, cell, s⟩
  obtain ⟨rest, holder⟩ := s.holder
  exact q.not_holder (s.task ▸ hr) s.admission holder

namespace Course

open World Moment

variable {v w : World} {h : List Moment} {j c a : Nat} {start : Instant} {interval : Span}
  {cell : CacheCell}

/-- In turns in which no request is decided a cache stays as it is or is purged; and it is
    purged if a sweeper of it goes past a tick after its start. -/
theorem swept (course : Course (fun _ _ => False) v h w) (o : v.Orderly) (t : v.Tidy)
    (r : v.Retires) (q : v.Quiet) (hi : interval ≠ .zero)
    (tended : v.Tended j c start interval (some a)) (hc : v.caches[c]? = some cell) :
    w.Quiet ∧ (w.caches[c]? = some cell ∨ w.caches[c]? = some (cell.purged v.clock.now)) ∧
      ∀ b, w.Awaits j start b → max 1 a < b →
        w.caches[c]? = some (cell.purged v.clock.now) := by
  have size : c < v.caches.size := (Array.getElem?_eq_some_iff.1 hc).1
  have twice : (cell.purged v.clock.now).purged v.clock.now = cell.purged v.clock.now := by
    simp only [CacheCell.purged, Store.purge_purge]
  induction course with
  | start =>
    refine ⟨q, .inl hc, fun b hb lt => ?_⟩
    obtain rfl : a = b := Option.some.inj ((tended.awaits_iff hi).1 hb)
    omega
  | act _ h => exact h.elim
  | @turn h w task rest course hr ih =>
    obtain ⟨quiet, there, past⟩ := ih
    have head : w.ready.head? = some task := by rw [hr]; rfl
    have orderly := course.orderly o
    have tidy := course.tidy o t
    have stands := course.stands o t r hi tended.stands
    obtain ⟨clock, k, tended', -⟩ := course.tended o t size hi tended
    have idle := idle_of_quiet (m := ⟨w, task⟩) orderly head quiet
    have still (purged : w.caches[c]? = some (cell.purged v.clock.now)) :
        (Moment.after ⟨w, task⟩).caches[c]? = some (cell.purged v.clock.now) := by
      rcases idle.cell purged with same | again
      · exact same
      · rw [again, clock, twice]
    refine ⟨quiet.turn orderly head, ?_, fun b hb lt => ?_⟩
    · rcases there with same | purged
      · exact clock ▸ idle.cell same
      · exact .inr (still purged)
    · obtain ⟨after, onward⟩ := stands.onward hi orderly tidy (course.retires o t r) head
      obtain ⟨n, hn, before, same⟩ := onward b hb
      by_cases own : task = .sweeper j
      · subst own
        obtain rfl := (tended'.awaits_iff hi).1 before
        cases tended' with
        | pends hj p =>
          have queued : .sweeper j ∈ w.ready := List.mem_of_mem_head? head
          rcases p.purges hj hi queued (tidy.lt_size queued).2 with purged | ended | ⟨m, le, hm⟩
          · -- What was purged before is purged again.
            rw [show (Moment.after ⟨w, .sweeper j⟩).caches[c]? = _ from purged, clock]
            rcases there with there | there
            · rw [there, Option.map_some]
            · rw [there, Option.map_some, twice]
          · exact absurd hb ended.not_awaits
          · obtain rfl := after.awaits_unique hi hb hm
            exact still (past n before (by omega))
      · obtain rfl := same own
        exact still (past n before lt)

end Course

/-! ### Steps -/

namespace World

variable {w : World} {j c k : Nat} {start : Instant} {interval : Span} {s : Step}

/-- That a sweeper of a cache is where it should be between two steps. -/
structure Attends (w : World) (j c : Nat) (start : Instant) (interval : Span) : Prop where
  rested : w.Rested
  retires : w.Retires
  there : c < w.caches.size
  stands : w.Stands j c start interval

namespace Attends

theorem settles (h : w.Attends j c start interval) (s : Step) :
    (w.acted s).Orderly ∧ (w.acted s).Tidy ∧ (w.acted s).Retires :=
  ⟨h.rested.orderly.acted s, h.rested.tidy.acted s, h.retires.acted s⟩

theorem step (h : w.Attends j c start interval) (hi : interval ≠ .zero) (s : Step) :
    (w.step s).1.Attends j c start interval where
  rested := h.rested.step s
  retires := by
    obtain ⟨o, t, r⟩ := h.settles s
    exact (w.course_settling s).retires o t r
  there := size_caches_step h.rested h.there s
  stands := by
    obtain ⟨o, t, r⟩ := h.settles s
    exact (w.course_settling s).stands o t r hi (h.stands.acted h.rested.settled h.there hi s).1

theorem final (h : w.Attends j c start interval) (hi : interval ≠ .zero) (steps : List Step) :
    (w.final steps).Attends j c start interval := by
  induction steps generalizing w with
  | nil => exact h
  | cons s rest ih => exact ih (h.step hi s)

end Attends

/-- No tick is taken twice in a step and those after it, if none is in these. -/
theorem takes_once_cons {rest : List Step} (o : (w.acted s).Orderly) (t : (w.acted s).Tidy)
    (r : (w.acted s).Retires) (hi : interval ≠ .zero)
    (acted : (w.acted s).Stands j c start interval)
    (later : ((w.step s).1.history rest).Pairwise fun m n =>
      m.Takes j start k → ¬ n.Takes j start k)
    (onward : ∀ m ∈ (w.step s).1.history rest, m.Takes j start k →
      ∃ b ≤ k, (w.step s).1.Awaits j start b) :
    ((w.history (s :: rest)).Pairwise fun m n => m.Takes j start k → ¬ n.Takes j start k) ∧
      ∀ m ∈ w.history (s :: rest), m.Takes j start k → ∃ b ≤ k, (w.acted s).Awaits j start b := by
  have course := w.course_settling s
  obtain ⟨now, upto⟩ := course.takes_once o t r hi acted
  constructor
  · refine List.pairwise_append.2 ⟨now, later, fun m hm n hn taken again => ?_⟩
    obtain ⟨b, le, hb⟩ := onward n hn again
    exact absurd (upto b hb ⟨m, hm, taken⟩) (Nat.not_lt.2 le)
  · intro m hm taken
    rcases List.mem_append.1 hm with hm | hm
    · obtain ⟨_, _, -, hither, -⟩ := course.before hm
      obtain ⟨-, n, -, hn, -, le, -⟩ := taken
      obtain ⟨a, ha, awaits, -⟩ := hither.takes_iff o t r hi acted hn
      exact ⟨a, Nat.le_trans ha le, awaits⟩
    · obtain ⟨b, le, hb⟩ := onward m hm taken
      obtain ⟨a, ha, awaits, -⟩ := course.takes_iff o t r hi acted hb
      exact ⟨a, Nat.le_trans ha le, awaits⟩

namespace Attends

/-- In the steps to come no tick is taken twice, and none before the one that the sweeper
    goes on with. -/
theorem takes_once (h : w.Attends j c start interval) (hi : interval ≠ .zero)
    (steps : List Step) :
    ((w.history steps).Pairwise fun m n => m.Takes j start k → ¬ n.Takes j start k) ∧
      ∀ m ∈ w.history steps, m.Takes j start k → ∃ b ≤ k, w.Awaits j start b := by
  induction steps generalizing w with
  | nil => exact ⟨.nil, by simp [history]⟩
  | cons s rest ih =>
    obtain ⟨later, onward⟩ := ih (h.step hi s)
    obtain ⟨o, t, r⟩ := h.settles s
    obtain ⟨acted, same⟩ := h.stands.acted h.rested.settled h.there hi s
    obtain ⟨once, hither⟩ := takes_once_cons o t r hi acted later onward
    refine ⟨once, fun m hm taken => ?_⟩
    obtain ⟨b, le, hb⟩ := hither m hm taken
    exact ⟨b, le, same b hb⟩

end Attends

/-- The ticks that are taken in a step after which the sweeper has not ended. -/
theorem Tended.takes {a : Nat} (h : (w.acted s).Tended j c start interval (some a))
    (o : (w.acted s).Orderly) (t : (w.acted s).Tidy) (r : (w.acted s).Retires)
    (hc : c < (w.acted s).caches.size) (hi : interval ≠ .zero)
    (live : ¬ (w.step s).1.SweeperEnded j) :
    (w.step s).1.clock = (w.acted s).clock ∧ ∃ b, (w.step s).1.Tended j c start interval (some b) ∧
      ∀ k, (∃ m ∈ (w.acted s).settling, m.Takes j start k) ↔ a ≤ k ∧ k < b := by
  have course := w.course_settling s
  obtain ⟨clock, -⟩ := course.tended o t hc hi h
  obtain ⟨b, hb, tended⟩ := (course.stands o t r hi h.stands).exists_awaits hi live
  obtain ⟨a', -, ha', between⟩ := course.takes_iff o t r hi h.stands hb
  obtain rfl : a = a' := Option.some.inj ((h.awaits_iff hi).1 ha')
  exact ⟨clock, b, tended, between⟩

/-- Between the ticks that a sweeper goes on with before and after a step are those that come
    due in it. -/
theorem Tended.comesDue_iff {a b : Nat} (h : w.Tended j c start interval (some a)) (r : w.Rested)
    (h' : (w.step s).1.Tended j c start interval (some b)) :
    w.ComesDue s (tickAfter start interval k) ↔ a ≤ k ∧ k < b := by
  obtain ⟨ahead, past⟩ := h.not_isDue r
  obtain ⟨ahead', past'⟩ := h'.not_isDue (r.step s)
  have before : ¬ isDue w.clock.now (tickAfter start interval k) ↔ a ≤ k :=
    ⟨fun early => Nat.le_of_not_lt fun h => early (past k h),
      fun le due => ahead (isDue_of_le le due)⟩
  have after : isDue (w.step s).1.clock.now (tickAfter start interval k) ↔ k < b :=
    ⟨fun due => Nat.lt_of_not_le fun le => ahead' (isDue_of_le le due), past' k⟩
  rw [ComesDue, before, after]

namespace Attends

/-- Where a sweeper is in a step after which it has not ended. -/
theorem tended (h : w.Attends j c start interval) (hi : interval ≠ .zero)
    (live : ¬ (w.step s).1.SweeperEnded j) : ∃ a, w.Tended j c start interval (some a) ∧
      (w.acted s).Tended j c start interval (some a) := by
  obtain ⟨o, t, r⟩ := h.settles s
  have ended := (w.course_settling s).retired o t r (j := j)
  obtain ⟨a, ⟨x, hj, -⟩, tended⟩ := h.stands.exists_awaits hi fun gone =>
    live (ended gone.acted).1
  have going : ¬ (s = .abort j ∨ s = .shutdown) := fun stopped =>
    live (ended (sweeperEnded_of_stopped hj stopped)).1
  rw [not_or] at going
  exact ⟨a, tended, tended.acted h.rested.settled h.there going.1 going.2⟩

/-- A sweeper takes those ticks in a step that come due in it. -/
theorem takes_iff (h : w.Attends j c start interval) (hi : interval ≠ .zero)
    (live : ¬ (w.step s).1.SweeperEnded j) :
    (∃ m ∈ (w.acted s).settling, m.Takes j start k) ↔
      w.ComesDue s (tickAfter start interval k) := by
  obtain ⟨o, t, r⟩ := h.settles s
  obtain ⟨a, before, acted⟩ := h.tended hi live
  obtain ⟨-, b, after, taken⟩ := acted.takes o t r (size_caches_acted h.there) hi live
  rw [taken, before.comesDue_iff h.rested after]

/-- In a step in which a tick after its start comes due, a sweeper purges its cache. -/
theorem purges (h : w.Attends j c start interval) (hi : interval ≠ .zero)
    (live : ¬ (w.step s).1.SweeperEnded j) (hk : 1 ≤ k)
    (due : w.ComesDue s (tickAfter start interval k)) {cell : CacheCell}
    (hc : w.caches[c]? = some cell) :
    (w.step s).1.caches[c]? = some (cell.purged (w.step s).1.clock.now) := by
  obtain ⟨o, t, r⟩ := h.settles s
  obtain ⟨a, before, acted⟩ := h.tended hi live
  obtain ⟨clock, b, after, -⟩ := acted.takes o t r (size_caches_acted h.there) hi live
  obtain ⟨ha, hb⟩ := (before.comesDue_iff h.rested after).1 due
  obtain ⟨d, rfl⟩ := due.passes clock
  obtain ⟨_, _, -, e⟩ := { w.shown #[] with clock := w.clock.advance d }.wakeTimers_eq
  have hc : (w.acted (.advance d)).caches[c]? = some cell := by
    rw [show w.acted (.advance d) = _ from e]
    exact hc
  obtain ⟨-, -, swept⟩ := (w.course_settling _).swept o t r (h.rested.quiet_advance d) hi acted hc
  rw [clock]
  exact swept b ((after.awaits_iff hi).2 rfl) (by omega)

end Attends

end World

/-! ### What is to be seen of a sweep -/

/-- The number of entries that have not expired. -/
def Store.liveCount (s : Store) (now : Instant) : Nat :=
  s.entries.rows.countP fun (_, e) => !e.isExpired now

/-- That a cache holds what another one holds that has not expired. -/
structure Store.SweptFrom (t s : Store) (now : Instant) : Prop where
  stored_iff : ∀ key e, t.stored? key = some e ↔ s.stored? key = some e ∧ ¬ e.isExpired now
  size_eq : t.size = s.liveCount now

theorem Store.sweptFrom_purge (s : Store) (now : Instant) : (s.purge now).SweptFrom s now where
  stored_iff key e := by
    rw [stored?_purge, Option.filter_eq_some_iff, Bool.not_eq_true', Bool.not_eq_true]
  size_eq := List.countP_eq_length_filter.symm

/-- That a step leaves nothing expired in a cache, and all that has not, and shows the number
    of these; and that a purge would find nothing. -/
structure World.Sweeps (w : World) (s : Step) (c : Nat) (cell cell' : CacheCell) : Prop where
  before : w.caches[c]? = some cell
  after : (w.step s).1.caches[c]? = some cell'
  swept : cell'.store.SweptFrom cell.store (w.step s).1.clock.now
  shown : ∀ name, (w.step s).1.cacheNames.get? name = some c →
    (name, cell.store.liveCount (w.step s).1.clock.now) ∈ (w.step s).2.sizes
  purge : ∀ name, (w.step s).1.cacheNames.get? name = some c →
    ((w.step s).1.step (.purge name)).2.result = .count 0

theorem World.sweeps_of_purged {w : World} {s : Step} {c : Nat} {cell : CacheCell}
    (hc : w.caches[c]? = some cell)
    (purged : (w.step s).1.caches[c]? = some (cell.purged (w.step s).1.clock.now)) :
    w.Sweeps s c cell (cell.purged (w.step s).1.clock.now) where
  before := hc
  after := purged
  swept := Store.sweptFrom_purge ..
  shown name named := by
    have sizes : (w.step s).2.sizes = (w.step s).1.sizes := rfl
    rw [sizes, World.sizes, List.mem_filterMap]
    refine ⟨(name, c), Table.get?_eq_some_iff.1 named, ?_⟩
    simp only [purged, Option.map_some, ← (Store.sweptFrom_purge ..).size_eq]
    rfl
  purge name named := by
    have there : ((w.step s).1.shown #[]).cacheNamed? name =
        some (c, cell.purged (w.step s).1.clock.now) := by
      simp only [cacheNamed?, World.shown, named, purged, Option.bind_eq_bind, Option.bind_some]
    have result : ((w.step s).1.step (.purge name)).2.result =
        (((w.step s).1.shown #[]).act (.purge name)).2 := rfl
    rw [result]
    simp only [act, withCache, there]
    simp only [CacheCell.purged, World.shown, Store.expiredCount, Store.purge_purge, Nat.sub_self]

/-! ### Sessions -/

open World

/-- That a step is made in a world, in a session that goes on with some steps. -/
def Step.MadeIn (wall : Int) (before steps : List Step) (w : World) (s : Step) : Prop :=
  ∃ upto rest, steps = upto ++ s :: rest ∧ w = (starting wall).final (before ++ upto)

/-- That a sweeper, started in a session, takes its ticks on time and leaves nothing expired
    at them, if they come with a pace. -/
structure Punctual (wall : Int) (before : List Step) (name : String) (interval pace : Span)
    (after : List Step) (j c : Nat) : Prop where
  /-- While its cache is reachable, a sweeper does not end unless it is stopped. -/
  lasts : ∀ (w : World) (s : Step), s.MadeIn wall before (.sweeper name interval :: after) w →
    (w.step s).1.reachable c → s ≠ .abort j → s ≠ .shutdown → ¬ w.SweeperEnded j →
      ¬ (w.step s).1.SweeperEnded j
  /-- A tick after the start is taken in the step in which it comes due, and in no other one. -/
  takes : ∀ (w : World) (s : Step), s.MadeIn wall before (.sweeper name interval :: after) w →
    let start := ((starting wall).final before).clock.now
    ¬ (w.step s).1.SweeperEnded j → ∀ k ≥ 1, ∀ tick,
      start.add? ⟨k * pace.nanos⟩ = some tick →
        ((∃ m ∈ (w.acted s).settling, m.Takes j start k) ↔ w.ComesDue s tick)
  /-- It is taken once. -/
  once : ∀ k, (((starting wall).final before).history (.sweeper name interval :: after)).Pairwise
    fun m n => m.Takes j ((starting wall).final before).clock.now k →
      ¬ n.Takes j ((starting wall).final before).clock.now k
  /-- After a step in which one has come due nothing in the cache has expired. -/
  sweeps : ∀ (w : World) (s : Step), s.MadeIn wall before (.sweeper name interval :: after) w →
    let start := ((starting wall).final before).clock.now
    ¬ (w.step s).1.SweeperEnded j → ∀ k ≥ 1, ∀ tick,
      start.add? ⟨k * pace.nanos⟩ = some tick → w.ComesDue s tick →
        ∃ cell cell', w.Sweeps s c cell cell'

/-- That ticks of a pace come due in those steps in which the ticks of a sweeper's timer do,
    until the sweeper has ended. -/
def KeepsTime (wall : Int) (before : List Step) (name : String) (interval pace : Span)
    (after : List Step) (j : Nat) : Prop :=
  ∀ (w : World) (s : Step), s.MadeIn wall before (.sweeper name interval :: after) w →
    let start := ((starting wall).final before).clock.now
    ¬ (w.step s).1.SweeperEnded j → ∀ k ≥ 1, ∀ tick,
      start.add? ⟨k * pace.nanos⟩ = some tick →
        (w.ComesDue s (tickAfter start interval.onTimer k) ↔ w.ComesDue s tick)

namespace World

variable {w : World} {j c k : Nat} {interval pace : Span} {s : Step} {wall : Int}
  {before after : List Step} {name : String}

theorem origin_le_final (wall : Int) (steps : List Step) :
    Instant.origin.nanos ≤ ((starting wall).final steps).clock.now.nanos :=
  (course_history ((starting wall).along_true steps)).timely.origin_le

namespace Starts

/-- What a sweeper has to do in the step that starts it: it takes no tick after its start. -/
theorem takes_none (h : w.Starts name interval j c) (r : w.Rested) (retires : w.Retires)
    (hi : interval ≠ .zero) (origin : Instant.origin.nanos ≤ w.clock.now.nanos) (hk : 1 ≤ k)
    (live : ¬ (w.step (.sweeper name interval)).1.SweeperEnded j) :
    ¬ ∃ m ∈ (w.acted (.sweeper name interval)).settling, m.Takes j w.clock.now k := by
  have hi := Span.onTimer_ne_zero hi
  obtain ⟨clock, b, tended, taken⟩ := h.tended_acted.takes (r.orderly.acted _) (r.tidy.acted _)
    (retires.acted _) (size_caches_acted h.acted.2.2) hi live
  rw [taken]
  rintro ⟨-, lt⟩
  have due := (tended.not_isDue (r.step _)).2 k lt
  rw [clock, clock_acted] at due
  exact not_isDue_start hi origin hk due

/-- Nothing comes due in the step that starts a sweeper. -/
theorem not_comesDue (h : w.Starts name interval j c) (r : w.Rested) (hi : interval ≠ .zero)
    (tick : Instant) : ¬ w.ComesDue (.sweeper name interval) tick := by
  rintro ⟨ahead, due⟩
  obtain ⟨clock, -⟩ := (w.course_settling _).tended (r.orderly.acted _) (r.tidy.acted _)
    (size_caches_acted h.acted.2.2) (Span.onTimer_ne_zero hi) h.tended_acted
  rw [clock, clock_acted] at due
  exact ahead due

theorem attends (h : w.Starts name interval j c) (r : w.Rested) (retires : w.Retires)
    (hi : interval ≠ .zero) :
    (w.step (.sweeper name interval)).1.Attends j c w.clock.now interval.onTimer where
  rested := r.step _
  retires := (w.course_settling _).retires (r.orderly.acted _) (r.tidy.acted _) (retires.acted _)
  there := size_caches_step r h.acted.2.2 _
  stands := by
    obtain ⟨k, tended⟩ := h.tended r hi
    exact tended.stands

variable (starts : ((starting wall).final before).Starts name interval j c) (hi : interval ≠ .zero)
include starts hi

/-- The steps of a session from the one that starts a sweeper on. -/
theorem cases_of_madeIn (made : s.MadeIn wall before (.sweeper name interval :: after) w) :
    w = (starting wall).final before ∧ s = .sweeper name interval ∨
      w.Attends j c ((starting wall).final before).clock.now interval.onTimer := by
  obtain ⟨upto, rest, split, rfl⟩ := made
  cases upto with
  | nil =>
    rw [List.append_nil]
    exact .inl ⟨rfl, (List.cons.inj split).1.symm⟩
  | cons first upto =>
    obtain ⟨rfl, -⟩ := List.cons.inj split
    rw [final_append]
    exact .inr ((starts.attends (rested_final wall before) (retires_final wall before) hi).final
      (Span.onTimer_ne_zero hi) upto)

theorem takes_iff (made : s.MadeIn wall before (.sweeper name interval :: after) w)
    (live : ¬ (w.step s).1.SweeperEnded j) (hk : 1 ≤ k) :
    (∃ m ∈ (w.acted s).settling, m.Takes j ((starting wall).final before).clock.now k) ↔
      w.ComesDue s (tickAfter ((starting wall).final before).clock.now interval.onTimer k) := by
  have rested := rested_final wall before
  rcases starts.cases_of_madeIn hi made with ⟨rfl, rfl⟩ | attends
  · exact iff_of_false
      (starts.takes_none rested (retires_final wall before) hi (origin_le_final wall before) hk
        live)
      (starts.not_comesDue rested hi _)
  · exact attends.takes_iff (Span.onTimer_ne_zero hi) live

theorem sweeps (made : s.MadeIn wall before (.sweeper name interval :: after) w)
    (live : ¬ (w.step s).1.SweeperEnded j) (hk : 1 ≤ k)
    (due : w.ComesDue s
      (tickAfter ((starting wall).final before).clock.now interval.onTimer k)) :
    ∃ cell cell', w.Sweeps s c cell cell' := by
  rcases starts.cases_of_madeIn hi made with ⟨rfl, rfl⟩ | attends
  · exact absurd due (starts.not_comesDue (rested_final wall before) hi _)
  · have hc := Array.getElem?_eq_getElem attends.there
    exact ⟨_, _, sweeps_of_purged hc
      (attends.purges (Span.onTimer_ne_zero hi) live hk due hc)⟩

theorem lasts (made : s.MadeIn wall before (.sweeper name interval :: after) w)
    (reachable : (w.step s).1.reachable c) (unstopped : s ≠ .abort j) (up : s ≠ .shutdown)
    (live : ¬ w.SweeperEnded j) : ¬ (w.step s).1.SweeperEnded j := by
  have stays {start : Instant} {pace : Span} {k : Option Nat}
      (tended : (w.step s).1.Tended j c start pace k) : ¬ (w.step s).1.SweeperEnded j := by
    intro ended
    obtain rfl := tended.ended_iff.1 ended
    cases tended with
    | ended _ unled => exact unled (reachable_iff.1 reachable)
  rcases starts.cases_of_madeIn hi made with ⟨rfl, rfl⟩ | attends
  · obtain ⟨k, tended⟩ := starts.tended (rested_final wall before) hi
    exact stays tended
  · obtain ⟨k, tended⟩ := attends.stands.resolve_left live
    obtain ⟨-, k', tended', -⟩ := tended.step attends.rested attends.there
      (Span.onTimer_ne_zero hi) unstopped up
    exact stays tended'

theorem once (after : List Step) (k : Nat) :
    (((starting wall).final before).history (.sweeper name interval :: after)).Pairwise
      fun m n => m.Takes j ((starting wall).final before).clock.now k →
        ¬ n.Takes j ((starting wall).final before).clock.now k := by
  have r := rested_final wall before
  have retires := retires_final wall before
  have attends := starts.attends r retires hi
  have hi := Span.onTimer_ne_zero hi
  obtain ⟨later, onward⟩ := attends.takes_once (k := k) hi after
  exact (takes_once_cons (r.orderly.acted _) (r.tidy.acted _) (retires.acted _) hi
    starts.tended_acted.stands later onward).1

/-- A sweeper is punctual for a pace if and only if its timer keeps the time for it. -/
theorem punctual_iff : Punctual wall before name interval pace after j c ↔
    KeepsTime wall before name interval pace after j := by
  constructor
  · intro punctual w s made start live k hk tick htick
    exact (starts.takes_iff hi made live hk).symm.trans
      (punctual.takes w s made live k hk tick htick)
  · intro keeps
    refine ⟨fun w s made => starts.lasts hi made, ?_, starts.once hi after, ?_⟩
    · intro w s made start live k hk tick htick
      exact (starts.takes_iff hi made live hk).trans (keeps w s made live k hk tick htick)
    · intro w s made start live k hk tick htick due
      exact starts.sweeps hi made live hk ((keeps w s made live k hk tick htick).2 due)

end Starts

/-- If timers run for the interval, its ticks are those of the timer. -/
theorem keepsTime_of_le (short : interval.nanos ≤ Span.longestTimer.nanos) :
    KeepsTime wall before name interval interval after j := by
  intro w s _ start _ k _ tick htick
  rw [Span.onTimer_of_le short, Instant.eq_tickAfter_of_add? htick]

/-- A sweeper takes each of its ticks once, in the step in which the tick comes due, and leaves
    nothing expired in its cache. Its ticks are as far apart as timers run for its interval, so
    they may be others than those of the interval. -/
theorem takes_on_time (starts : ((starting wall).final before).Starts name interval j c)
    (hi : interval ≠ .zero) :
    Punctual wall before name interval interval.onTimer after j c ∧
      (Punctual wall before name interval interval after j c ↔
        KeepsTime wall before name interval interval after j) := by
  refine ⟨(starts.punctual_iff hi).2 ?_, starts.punctual_iff hi⟩
  intro w s _ start _ k _ tick htick
  rw [Instant.eq_tickAfter_of_add? htick]

/-- An entry of twelve milliseconds, and two ticks of a sweeper of ten at once. -/
def overdueTwice : List Step :=
  [.put "c" (.literal "k") (.text "x") (.ofMillis 12), .advance (.ofMillis 25)]

/-- Both ticks are taken, and the entry is gone. -/
theorem takes_on_time_overdueTwice :
    let w := (starting 0).final
      (.cache "c" :: .sweeper "c" (.ofMillis 10) :: overdueTwice.take 1)
    let s := Step.advance (.ofMillis 25)
    Punctual 0 [.cache "c"] "c" (.ofMillis 10) (.ofMillis 10) overdueTwice 0 0 ∧
      (∃ m ∈ (w.acted s).settling, m.Takes 0 .origin 1) ∧
      (∃ m ∈ (w.acted s).settling, m.Takes 0 .origin 2) ∧
      ("c", 1) ∈ w.sizes ∧ ∃ cell cell', w.Sweeps s 0 cell cell' := by
  intro w s
  have starts : ((starting 0).final [.cache "c"]).Starts "c" (.ofMillis 10) 0 0 := ⟨rfl, rfl⟩
  have punctual : Punctual 0 [.cache "c"] "c" (.ofMillis 10) (.ofMillis 10) overdueTwice 0 0 :=
    (takes_on_time starts (by decide)).2.2 (keepsTime_of_le (by decide))
  have made : s.MadeIn 0 [.cache "c"] (.sweeper "c" (.ofMillis 10) :: overdueTwice) w :=
    ⟨.sweeper "c" (.ofMillis 10) :: overdueTwice.take 1, [], rfl, rfl⟩
  have live : ¬ (w.step s).1.SweeperEnded 0 := fun ended =>
    absurd ((sweepersEnded_iff w s 0).2 ended) (by decide +kernel)
  have first : w.ComesDue s (.ofMillis 10) := by decide +kernel
  have second : w.ComesDue s (.ofMillis 20) := by decide +kernel
  have at10 : Instant.origin.add? ⟨1 * (Span.ofMillis 10).nanos⟩ = some (.ofMillis 10) := by
    decide +kernel
  have at20 : Instant.origin.add? ⟨2 * (Span.ofMillis 10).nanos⟩ = some (.ofMillis 20) := by
    decide +kernel
  exact ⟨punctual, (punctual.takes w s made live 1 (by decide) _ at10).2 first,
    (punctual.takes w s made live 2 (by decide) _ at20).2 second, by decide +kernel,
    punctual.sweeps w s made live 1 (by decide) _ at10 first⟩

/-- An entry of a second, thirty years after the start of a sweeper of forty, and the ten years
    to the sweep. -/
def fortiethYear : List Step :=
  [.advance (.ofParts 946080000 0), .put "c" (.literal "k") (.text "x") (.ofParts 1 0),
    .advance (.ofParts 315360000 0)]

/-- A sweeper with an interval beyond the range of timers does not sweep at its first tick. -/
theorem sweeper_misses_tick : ¬ ∀ (wall : Int) (before : List Step) (name : String)
    (interval : Span) (after : List Step) (j c : Nat),
    ((starting wall).final before).Starts name interval j c → interval ≠ .zero →
      Punctual wall before name interval interval after j c := by
  intro always
  have starts : ((starting 0).final [.cache "c"]).Starts "c" (.ofParts 1261440000 0) 0 0 :=
    ⟨rfl, rfl⟩
  have punctual := always 0 [.cache "c"] "c" (.ofParts 1261440000 0) fortiethYear 0 0 starts
    (by decide)
  let w := (starting 0).final
    (.cache "c" :: .sweeper "c" (.ofParts 1261440000 0) :: fortiethYear.take 2)
  let s := Step.advance (.ofParts 315360000 0)
  have made : s.MadeIn 0 [.cache "c"] (.sweeper "c" (.ofParts 1261440000 0) :: fortiethYear) w :=
    ⟨.sweeper "c" (.ofParts 1261440000 0) :: fortiethYear.take 2, [], rfl, rfl⟩
  have live : ¬ (w.step s).1.SweeperEnded 0 := fun ended =>
    absurd ((sweepersEnded_iff w s 0).2 ended) (by decide +kernel)
  let tick := Instant.origin.later (.ofParts 1261440000 0)
  have due : w.ComesDue s tick := by decide +kernel
  obtain ⟨cell, cell', sweeps⟩ := punctual.sweeps w s made live 1 (Nat.le_refl 1) tick
    (by decide +kernel) due
  -- A purge finds the entry.
  have found : (match ((w.step s).1.step (.purge "c")).2.result with
    | .count n => n
    | _ => 0) = 1 := by decide +kernel
  rw [sweeps.purge "c" (by decide +kernel)] at found
  exact absurd found (by decide)

end World

end Turnstile
