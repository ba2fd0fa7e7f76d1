import Turnstile.Proofs.CommandLine.Underway

/-!
# Waiting

Once all requests of a run have had a turn, time jumps from timer to timer until none of
them waits (`World.finishWithin`). If no wait ends after the first tick of the sweeper
(`Workload.Fits`), what is stored changes at most once in all that time: by this tick, and
only if a wait ends with it (`Workload.Swept`).

* `Waits.turn`, `Waits.jump`: what a turn and a jump keep;
* `finishWithin_induction`, `Waits.finishWithin`: the jumps come to an end with all requests
  answered.
-/

namespace Turnstile

/-- The instant at which a millisecond begins that is still to come. -/
theorem Instant.later_ofMillis {t : Instant} {m : Nat} (h : origin.nanos ≤ t.nanos)
    (ahead : t.millisDown < m) : t.later ⟨(ofMillis m).nanos - t.nanos⟩ = ofMillis m := by
  have after : t.nanos ≤ (ofMillis m).nanos := by
    simp only [millisDown, ofMillis] at *
    omega
  simp only [later, Nat.add_sub_cancel' after]

theorem le_foldl_max {l : List Nat} {m n : Nat} (h : m ∈ l ∨ m ≤ n) : m ≤ l.foldl max n := by
  induction l generalizing n with
  | nil => exact h.resolve_left List.not_mem_nil
  | cons x rest ih =>
    refine ih ?_
    rcases h with h | h
    · rcases List.mem_cons.1 h with rfl | h
      · exact .inr (Nat.le_max_right ..)
      · exact .inl h
    · exact .inr (Nat.le_trans h (Nat.le_max_left ..))

namespace World

section

variable {w : World}

theorem mem_waits {due : Nat} : due ∈ w.waits ↔ ∃ i, ⟨due, .admission i⟩ ∈ w.timers := by
  rw [waits, List.mem_filterMap]
  constructor
  · rintro ⟨⟨_, task⟩, ht, own⟩
    cases task with
    | admission i =>
      cases own
      exact ⟨i, ht⟩
    | sweeper j => cases own
  · rintro ⟨i, ht⟩
    exact ⟨_, ht, rfl⟩

/-- While a request waits, the next timer is still to come, if they all are, and no later
    than that of a wait. -/
theorem nextDue?_of_waits (later : ∀ t ∈ w.timers, w.clock.now.millisDown < t.due)
    (some : w.waits ≠ []) : ∃ due last,
    w.nextDue? = .some due ∧ w.clock.now.millisDown < due ∧ due ≤ last ∧ last ∈ w.waits := by
  obtain ⟨last, hl⟩ := List.exists_mem_of_ne_nil _ some
  obtain ⟨i, ht⟩ := mem_waits.1 hl
  have mem : last ∈ w.timers.map Timer.due := List.mem_map.2 ⟨_, ht, rfl⟩
  cases next : w.nextDue? with
  | none => simp [List.min?_eq_none_iff.1 next] at mem
  | some due =>
    obtain ⟨hd, least⟩ := List.min?_eq_some_iff.1 next
    obtain ⟨t, ht, rfl⟩ := List.mem_map.1 hd
    exact ⟨_, last, rfl, later t ht, least last mem, hl⟩

/-- Once no task can go on, whoever waits has a timer. -/
theorem Orderly.timer_of_waiting (o : w.Orderly) (settled : w.ready = []) {i : Nat} {delay : Span}
    (hp : w.phase? i = some (.waiting delay)) : ∃ due ∈ w.waits, ⟨due, .admission i⟩ ∈ w.timers := by
  obtain ⟨a, ha, phase⟩ := phase?_eq_some_iff.1 hp
  have placed := o.placed ha
  simp only [Placed, phase, World.queued, settled, List.count_nil] at placed
  have timed : 0 < w.timed i := by omega
  obtain ⟨⟨due, task⟩, ht, own⟩ := List.mem_map.1 (List.count_pos_iff.1 timed)
  obtain rfl : task = .admission i := own
  exact ⟨due, mem_waits.2 ⟨i, ht⟩, ht⟩

/-- Time jumps to a millisecond that is still to come. -/
theorem millisDown_advanceTo (origin_le : Instant.origin.nanos ≤ w.clock.now.nanos) {due : Nat}
    (ahead : w.clock.now.millisDown < due) : (w.advanceTo due).clock.now.millisDown = due := by
  rw [show (w.advanceTo due).clock.now = .ofMillis due from Instant.later_ofMillis origin_le ahead,
    Instant.millisDown_ofMillis]

/-- What holds after every jump holds in the end, when nobody waits any more, if there are
    jumps enough for all waits. -/
theorem finishWithin_induction {P : Array (Instant × Notice) → World → Prop} {last : Nat}
    (later : ∀ {log w}, P log w → ∀ t ∈ w.timers, w.clock.now.millisDown < t.due)
    (bound : ∀ {log w}, P log w → ∀ due ∈ w.waits, due ≤ last)
    (jump : ∀ {log w due wait}, P log w → w.clock.now.millisDown < due → due ≤ wait →
      wait ∈ w.waits →
        let after := (w.advanceTo due).settle.takeNotices
        P (log ++ after.1) after.2 ∧ after.2.clock.now.millisDown = due)
    {n : Nat} (log : Array (Instant × Notice)) (enough : last ≤ w.clock.now.millisDown + n)
    (h : P log w) :
    P (w.finishWithin n log).1 (w.finishWithin n log).2 ∧ (w.finishWithin n log).2.waits = [] := by
  -- By induction on the number of jumps: each passes a millisecond at least, so that those
  -- that are left are still enough.
  induction n generalizing w log with
  | zero =>
    refine ⟨h, ?_⟩
    by_contra some
    obtain ⟨due, wait, -, ahead, le, waits⟩ := nextDue?_of_waits (later h) some
    have := bound h wait waits
    omega
  | succ n ih =>
    by_cases none : w.waits = []
    · have same : w.finishWithin (n + 1) log = (log, w) := by
        simp only [finishWithin, none, List.isEmpty_nil, if_true]
        split <;> rfl
      rw [same]
      exact ⟨h, none⟩
    · obtain ⟨due, wait, next, ahead, le, waits⟩ := nextDue?_of_waits (later h) none
      obtain ⟨after, now⟩ := jump h ahead le waits
      simp only [finishWithin, next, List.isEmpty_iff, if_neg none]
      refine ih _ ?_ after
      rw [now]
      omega

end

/-- What the cache of a run stores. -/
def store? (w : World) : Option Store := w.caches[0]?.map CacheCell.store

/-- A turn of a sweeper purges the cache, or leaves it alone. -/
theorem store?_sweeperTurn {w : World} {s : Store} (hs : w.store? = some s) (j : Nat) :
    (w.sweeperTurn j).store? = some s ∨
      (w.sweeperTurn j).store? = some (s.purge w.clock.now) := by
  obtain ⟨cell, hc, rfl⟩ := Option.map_eq_some_iff.1 hs
  rcases w.sweeperTurn_cases j with e | ⟨_, -, swept⟩
  · exact .inl (by rw [e, hs])
  · rcases swept.cell hc with hc | hc
    · exact .inl (by rw [store?, hc]; rfl)
    · exact .inr (by rw [store?, hc]; rfl)

end World

namespace Workload

variable {r : Workload} {s : Store} {w : World}

open World

/-- The first tick of the sweeper at which it sweeps. -/
def tick (r : Workload) : Instant := r.clock.now.later r.interval

/-- That a wait ends at a millisecond. -/
def LastsTo (r : Workload) (millis : Nat) : Prop :=
  ∃ i delay, r.outcome? i = some (.ok delay) ∧ r.due delay = millis

/-- That no wait ends after the tick. -/
def Fits (r : Workload) : Prop := ∀ {millis : Nat}, r.LastsTo millis → millis ≤ r.tick.millisUp

/-- What has become of what was stored when the requests were decided. -/
inductive Swept (r : Workload) (s : Store) (w : World) : Prop
  /-- The sweeper does not tick. -/
  | never : r.interval = .zero → w.store? = some s → Swept r s w
  /-- The tick is still to come, or comes now, at the end of a wait. -/
  | ahead : w.sweepers[0]? = some ⟨0, r.interval, .ticking r.tick⟩ →
      (.sweeper 0 ∈ w.ready ∨ ⟨r.tick.millisUp, .sweeper 0⟩ ∈ w.timers) →
      (w.clock.now.millisDown < r.tick.millisUp ∨
        w.clock.now.millisDown = r.tick.millisUp ∧ r.LastsTo r.tick.millisUp) →
      w.store? = some s → Swept r s w
  /-- The tick has come. -/
  | past : w.clock.now.millisDown = r.tick.millisUp → r.LastsTo r.tick.millisUp →
      w.store? = some (s.purge w.clock.now) → Swept r s w

/-- A run that only waits: all its requests have had a turn. -/
structure Waits (r : Workload) (s : Store) (w : World) : Prop where
  underway : r.Underway w
  begun : ∀ {i : Nat} {a : Admission}, w.admissions[i]? = some a → 1 ≤ a.phase.stage
  swept : r.Fits → r.Swept s w

/-- The end of a run: all its requests are answered, no task can go on, and only what is
    minor has been logged. -/
structure Ended (r : Workload) (s : Store) (finished : Array (Instant × Notice) × World) :
    Prop where
  waits : r.Waits s finished.2
  settled : finished.2.ready = []
  done : ∀ i < r.keys.length, finished.2.Done i
  minor : ∀ x ∈ finished.1, x.2.IsMinor

theorem Swept.sweeperTurn (h : r.Swept s w) (k : r.Underway w) :
    r.Swept s (w.taken.turn (.sweeper 0)) := by
  obtain ⟨_, _, _, _, _, _, -, frame⟩ := w.taken.sweeperTurn_frame 0
  have clock : (w.taken.sweeperTurn 0).clock = w.clock := by rw [frame]; rfl
  rw [World.turn]
  cases h with
  | never zero hs =>
    refine .never zero ?_
    obtain ⟨phase, alone, paced⟩ := k.sweeper
    have hj : w.taken.sweepers[0]? = some ⟨0, r.interval, phase⟩ := by simp [taken, alone]
    rcases paced zero with rfl | rfl
    · simp only [World.sweeperTurn, hj, if_pos zero]
      exact hs
    · simp only [World.sweeperTurn, hj]
      exact hs
  | ahead hj placed time hs =>
    obtain ⟨cell, hc, rfl⟩ := Option.map_eq_some_iff.1 hs
    by_cases due : Sweeper.isDue w.clock.now r.tick
    · -- The cache still has its name, so the sweeper purges it.
      obtain ⟨now, lasts⟩ := time.resolve_left (Nat.not_lt.2 (of_decide_eq_true due))
      have reachable : w.taken.reachable 0 := by
        have named : 0 ∈ w.cacheNames.values :=
          List.mem_map.2 ⟨("", 0), Table.get?_eq_some_iff.1 k.named, rfl⟩
        simp [reachable, taken, named]
      refine .past (by rw [clock, now]) lasts ?_
      rw [store?, caches_sweeperTurn (w := w.taken) hj rfl due reachable hc, clock]
      rfl
    · rw [sweeperTurn_early (w := w.taken) hj rfl due]
      refine .ahead ?_ (.inr (List.mem_append_right _ (.head _))) time hs
      simp only [awaitTick, World.wait, setSweeperPhase, Array.getElem?_modify]
      rw [show w.taken.sweepers[0]? = _ from hj]
      rfl
  | past now lasts hs =>
    -- To purge once more at the same instant changes nothing.
    refine .past (by rw [clock, now]) lasts ?_
    rcases store?_sweeperTurn (w := w.taken) hs 0 with hs' | hs'
    · rw [hs', clock]
    · rw [hs', clock]
      exact congrArg some (Store.purge_purge ..)

namespace Waits

/-- Only the sweeper has any effect on what is stored. -/
theorem swept_turn (k : r.Waits s w) {task : Task} (hr : w.ready.head? = some task)
    (fits : r.Fits) : r.Swept s (w.taken.turn task) := by
  cases task with
  | sweeper j =>
    obtain rfl := k.underway.sweeper_eq hr
    exact (k.swept fits).sweeperTurn k.underway
  | admission i =>
    obtain ⟨a, ha, turn⟩ := k.underway.flowing.turn_cases k.underway.orderly hr
    generalize w.taken.turn (.admission i) = w' at turn
    cases turn with
    | decides hp => exact absurd (k.begun ha) (by simp [hp, Phase.stage])
    | ends =>
      cases k.swept fits with
      | never zero hs => exact .never zero hs
      | ahead hj placed time hs =>
        refine .ahead hj (placed.imp (fun ready => ?_) (List.mem_append_left _)) time hs
        obtain ⟨rest, e⟩ := List.head?_eq_some_iff.1 hr
        rw [e] at ready
        simpa [World.moved, taken, e] using ready
      | past now lasts hs => exact .past now lasts hs

theorem turn (k : r.Waits s w) {task : Task} (hr : w.ready.head? = some task) :
    r.Waits s (w.taken.turn task) := by
  have underway : r.Underway (w.taken.turn task) := by
    cases task with
    | sweeper j => exact k.underway.sweeperTurn hr
    | admission i =>
      refine k.underway.admissionTurn hr fun hi hp _ => ?_
      exact absurd (k.begun hi) (by simp [hp, Phase.stage])
  refine ⟨underway, fun {i b} hb => ?_, k.swept_turn hr⟩
  obtain ⟨a, ha, -, further⟩ := k.underway.orderly.admission_turn hr hb
  exact Nat.le_trans (k.begun ha) further

theorem settle (k : r.Waits s w) : r.Waits s w.settle ∧ w.settle.clock = w.clock :=
  takeTurns_induction (P := fun v => r.Waits s v ∧ v.clock = w.clock)
    (fun ⟨k, clock⟩ hr => ⟨k.turn hr, (k.underway.orderly.clock_turn hr).trans clock⟩) _ ⟨k, rfl⟩

/-- Once no task can go on, whoever is not answered has a timer for its delay. -/
theorem timer_of_not_done (k : r.Waits s w) (settled : w.ready = []) {i : Nat}
    (hi : i < r.keys.length) (undone : ¬ w.Done i) :
    ∃ due ∈ w.waits, ⟨due, .admission i⟩ ∈ w.timers := by
  obtain ⟨a, ha⟩ : ∃ a, w.admissions[i]? = some a :=
    ⟨_, Array.getElem?_eq_getElem (k.underway.size ▸ hi)⟩
  have unfinished : a.phase ≠ .finished := fun e => undone (by rw [Done, phase?_eq ha, e])
  rcases k.underway.phase ha with e | e | ⟨delay, e, -⟩
  · exact absurd (k.begun ha) (by simp [e, Phase.stage])
  · exact absurd e unfinished
  · exact k.underway.orderly.timer_of_waiting settled (by rw [phase?_eq ha, e])

/-- If no wait is to come, all requests are answered. -/
theorem all_done (k : r.Waits s w) (settled : w.ready = []) (none : w.waits = []) {i : Nat}
    (hi : i < r.keys.length) : w.Done i := by
  by_contra undone
  obtain ⟨due, hd, -⟩ := k.timer_of_not_done settled hi undone
  exact absurd hd (none ▸ List.not_mem_nil)

/-- The millisecond of a wait is that of a request. -/
theorem lastsTo_of_mem_waits (k : r.Waits s w) {due : Nat} (h : due ∈ w.waits) : r.LastsTo due := by
  obtain ⟨i, ht⟩ := mem_waits.1 h
  obtain ⟨delay, ho, e⟩ := k.underway.timer _ ht i rfl
  exact ⟨i, delay, ho, e.symm⟩

/-- Time may pass up to the end of a wait. -/
theorem advance (k : r.Waits s w) {d : Span} {last : Nat}
    (later : w.clock.now.millisDown < (w.advance d).clock.now.millisDown)
    (le : (w.advance d).clock.now.millisDown ≤ last) (lasts : r.LastsTo last) :
    r.Waits s (w.advance d) := by
  refine ⟨k.underway.advance d, k.begun, fun fits => ?_⟩
  have within := fits lasts
  cases k.swept fits with
  | never zero hs => exact .never zero hs
  -- The tick that has come is no earlier than the last wait.
  | past before => omega
  | ahead hj placed _ hs =>
    refine .ahead hj ?_ ?_ hs
    · rcases placed with ready | timer
      · exact .inl (mem_ready_advance.2 (.inl ready))
      · by_cases come : r.tick.millisUp ≤ (w.advance d).clock.now.millisDown
        · exact .inl (mem_ready_advance.2 (.inr ⟨_, timer, rfl, come⟩))
        · exact .inr (mem_timers_wakeTimers.2 ⟨timer, Nat.lt_of_not_le come⟩)
    · rcases Nat.lt_or_ge (w.advance d).clock.now.millisDown r.tick.millisUp with lt | ge
      · exact .inl lt
      · obtain rfl : last = r.tick.millisUp := by omega
        exact .inr ⟨by omega, lasts⟩

/-- Time jumps to the next timer. -/
theorem jump (k : r.Waits s w) {due last : Nat} (ahead : w.clock.now.millisDown < due)
    (le : due ≤ last) (lasts : r.LastsTo last) :
    r.Waits s (w.advanceTo due) ∧ (w.advanceTo due).clock.now.millisDown = due := by
  have now := millisDown_advanceTo k.underway.origin_le ahead
  rw [advanceTo] at now ⊢
  exact ⟨k.advance (by rwa [now]) (by rwa [now]) lasts, now⟩

/-- Taking notices out of the trace changes nothing else. -/
theorem takeNotices (k : r.Waits s w) : r.Waits s w.takeNotices.2 where
  underway := k.underway.takeNotices
  begun := k.begun
  swept fits := by
    cases k.swept fits with
    | never zero hs => exact .never zero hs
    | ahead hj placed time hs => exact .ahead hj placed time hs
    | past now lasts hs => exact .past now lasts hs

theorem minor_takeNotices (k : r.Waits s w) : ∀ x ∈ w.takeNotices.1, x.2.IsMinor := by
  intro x hx
  obtain ⟨n, hn, rfl⟩ := Array.mem_map.1 hx
  exact k.underway.minor n hn

/-- There are jumps enough for all waits, if they are as many as the milliseconds to the
    last of them. -/
theorem enough (k : r.Waits s w) (settled : w.ready = []) {due : Nat} (lasts : r.LastsTo due) :
    due ≤ w.clock.now.millisDown + (w.waits.foldl max 0 - w.clock.now.millisDown) := by
  obtain ⟨i, delay, ho, rfl⟩ := lasts
  by_cases past : r.due delay ≤ w.clock.now.millisDown
  · omega
  · obtain ⟨due, mem, ht⟩ := k.timer_of_not_done settled (lt_length ho)
      fun done => past (k.underway.passed i delay ho (.inl done))
    obtain ⟨delay', ho', e⟩ := k.underway.timer _ ht i rfl
    cases ho.symm.trans ho'
    obtain rfl : due = r.due delay := e
    have := le_foldl_max (n := 0) (.inl mem)
    omega

/-- Enough jumps lead to the end. -/
theorem finishWithin (k : r.Waits s w) (settled : w.ready = []) {n : Nat}
    (enough : ∀ {due}, r.LastsTo due → due ≤ w.clock.now.millisDown + n)
    {log : Array (Instant × Notice)} (minor : ∀ x ∈ log, x.2.IsMinor) :
    r.Ended s (World.finishWithin n w log) := by
  have ended := World.finishWithin_induction
    (P := fun log w => r.Waits s w ∧ w.ready = [] ∧ ∀ x ∈ log, x.2.IsMinor) (n := n)
    ?later ?bound ?jump log (Nat.le_refl _) ⟨k, settled, minor⟩
  case later => exact fun ⟨k, _⟩ => k.underway.later
  case bound => exact fun ⟨k, _⟩ due h => enough (k.lastsTo_of_mem_waits h)
  case jump =>
    intro log w due wait ⟨k, _, minor⟩ ahead le waits
    obtain ⟨k', now⟩ := k.jump ahead le (k.lastsTo_of_mem_waits waits)
    have settled' := settle_settled k'.underway.orderly k'.underway.tidy
    obtain ⟨k', clock⟩ := k'.settle
    refine ⟨⟨k'.takeNotices, settled', fun x hx => ?_⟩, ?_⟩
    · exact (Array.mem_append.1 hx).elim (minor x) (k'.minor_takeNotices x)
    · rw [show (w.advanceTo due).settle.takeNotices.2.clock = _ from clock, now]
  obtain ⟨⟨k', settled', minor'⟩, none⟩ := ended
  exact ⟨k', settled', fun i => k'.all_done settled' none, minor'⟩

end Waits

end Workload

end Turnstile
