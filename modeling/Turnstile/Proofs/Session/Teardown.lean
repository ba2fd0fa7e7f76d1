import Turnstile.Proofs.Session.CacheLog
import Turnstile.Proofs.Session.Resolution

/-!
# After a shutdown

A shutdown ends every task wherever it stands: in the queue, in the line for a stripe,
held at a gate with the stripe in its hands, or waiting. What it has stored stays, and
what it has not stored never will be. From then on a session has no tasks (`World.Down`),
and a step does what it does by itself:

* `Down.step`: no step brings a task back;
* `Down.showsNoTask`: no step shows anything of a task, a throttle or a sweeper cannot be
  started, and caches change by the steps that use them only, in the way in which they do
  alone (`Store.reply`, `Store.perform`).
-/

namespace Turnstile

/-- What a cache replies to an operation at an instant, as the result of a step. -/
def Store.reply (s : Store) (e : Store.Event) : StepResult :=
  match e.op with
  | .set key value lifetime =>
    if (s.set? e.time key value lifetime).isSome then .nothing else .fault .instantOverflow
  | .get key => .value (s.get e.time key).1
  | .purge => .count (s.expiredCount e.time)
  | .clear => .nothing

/-- What is so of all in an array stays so, if it stays so of one that is changed. -/
theorem forall_mem_modify {α : Type} {as : Array α} {P : α → Prop} (h : ∀ a ∈ as, P a)
    {f : α → α} (hf : ∀ a, P a → P (f a)) (i : Nat) : ∀ a ∈ as.modify i f, P a := by
  intro a ha
  obtain ⟨j, hj⟩ := Array.mem_iff_getElem?.1 ha
  rw [Array.getElem?_modify] at hj
  split at hj
  · obtain ⟨b, hb, rfl⟩ := Option.map_eq_some_iff.1 hj
    exact hf b (h b (Array.mem_of_getElem? hb))
  · exact h a (Array.mem_of_getElem? hj)

namespace World

open Store

variable {w : World}

/-- That there are no tasks any more, and that none can be started. -/
structure Down (w : World) : Prop where
  stopped : w.running = false
  ready : w.ready = []
  timers : w.timers = []
  admissions : ∀ a ∈ w.admissions, a.phase = .finished
  sweepers : ∀ s ∈ w.sweepers, s.phase = .finished
  parked : ∀ cell ∈ w.caches, cell.parked = []

/-- A shutdown leaves no task. -/
theorem down_shutDown (w : World) : w.shutDown.Down := by
  obtain ⟨_, -, he⟩ := w.shutDown_eq
  rw [he]
  exact ⟨rfl, rfl, rfl, by simp [Admission.ended], by simp, by simp⟩

/-- The result of a step is what it is by itself. -/
theorem result_step (w : World) (s : Step) : (w.step s).2.result = ((w.shown #[]).act s).2 := rfl

/-- That a step shows nothing of a task. -/
structure ShowsNoTask (w : World) (s : Step) : Prop where
  calls : (w.step s).2.calls = []
  faults : (w.step s).2.faults = []
  notices : ∀ n ∈ (w.step s).2.notices, ∃ threshold deadline, n = .limiterMade threshold deadline
  sweepers : ∀ ended ∈ (w.step s).2.sweepersEnded, ended = true

/-- The cache that a step uses, and what it asks it to do. -/
def use? (w : World) (s : Step) : Option (Nat × Op) :=
  (s.cache?.bind w.cacheNamed?).bind fun (c, _) => (w.asked? s).map fun op => (c, op)

/-- That a step starts no task, and that a cache replies to it and changes by it as one that
    is used by nobody else. -/
structure ActsAlone (w : World) (s : Step) : Prop where
  throttle : ∀ {name identifier times l cell}, s = .throttle name identifier times →
    w.limiterNamed? name = some (l, cell) → times ≠ 0 →
      (w.step s).2.result = .fault .notRunning ∧ (w.step s).1.caches = w.caches
  sweeper : ∀ {name interval c cell}, s = .sweeper name interval →
    w.cacheNamed? name = some (c, cell) →
      (w.step s).2.result = .fault .notRunning ∧ (w.step s).1.caches = w.caches
  used : ∀ {c op}, w.use? s = some (c, op) →
    (w.step s).2.result = (w.storeAt c).reply ⟨w.clock.now, op⟩ ∧
      (w.step s).1.storeAt c = ((w.storeAt c).perform ⟨w.clock.now, op⟩).2
  unused : ∀ {c}, (∀ op, w.use? s ≠ some (c, op)) → (w.step s).1.storeAt c = w.storeAt c

variable {s : Step}

theorem use?_eq_some {c : Nat} {op : Op} (h : w.use? s = some (c, op)) :
    ∃ name cell, s.cache? = some name ∧ w.cacheNamed? name = some (c, cell) ∧
      w.asked? s = some op := by
  obtain ⟨⟨c', cell⟩, named, asked⟩ := Option.bind_eq_some_iff.1 h
  obtain ⟨name, hs, hn⟩ := Option.bind_eq_some_iff.1 named
  obtain ⟨op', ho, e⟩ := Option.map_eq_some_iff.1 asked
  cases e
  exact ⟨name, cell, hs, hn, ho⟩

/-- A step that uses a cache does what it asks for, and gives the reply to it. -/
theorem act_of_use {name : String} {c : Nat} {cell : CacheCell} {op : Op}
    (hs : s.cache? = some name) (hn : w.cacheNamed? name = some (c, cell))
    (ho : w.asked? s = some op) :
    w.act s = (w.setStore c (cell.store.perform ⟨w.clock.now, op⟩).2,
      cell.store.reply ⟨w.clock.now, op⟩) := by
  obtain ⟨result, e, -⟩ := act_of_asked hs hn ho
  rw [e]
  have reply : (w.act s).2 = cell.store.reply ⟨w.clock.now, op⟩ := by
    cases s with
    | put cache key value lifetime =>
      cases hs
      obtain ⟨text, ht, rfl⟩ := Option.map_eq_some_iff.1 ho
      simp only [act, withEntry, withCache, hn, ht, reply]
      cases cell.store.set? w.clock.now text value lifetime <;> rfl
    | get cache key =>
      cases hs
      obtain ⟨text, ht, rfl⟩ := Option.map_eq_some_iff.1 ho
      simp only [act, withEntry, withCache, hn, ht, reply]
    | purge cache | clear cache =>
      cases hs
      cases ho
      simp only [act, withCache, hn, reply]
    | _ => cases hs
  rw [e] at reply
  rw [← reply]

/-- A step leaves what is stored in a cache that it does not use. -/
theorem storeAt_of_unused {c : Nat} (h : ∀ op, w.use? s ≠ some (c, op)) :
    (w.acted s).storeAt c = w.storeAt c := by
  have idle {name : String} (hs : s.cache? = some name)
      (none : w.cacheNamed? name = none ∨ w.asked? s = none) :
      (w.acted s).storeAt c = w.storeAt c := by
    have e : w.acted s = w.shown #[] := act_of_not_asked (w := w.shown #[]) hs none
    rw [e]
    rfl
  cases hs : s.cache? with
  | none => exact storeAt_acted hs
  | some name =>
    cases hn : w.cacheNamed? name with
    | none => exact idle hs (.inl hn)
    | some found =>
      obtain ⟨d, cell⟩ := found
      cases ho : w.asked? s with
      | none => exact idle hs (.inr ho)
      | some op =>
        have other : d ≠ c := fun e => h op (by simp [use?, hs, hn, ho, e])
        have acted : w.acted s = _ := congrArg Prod.fst (act_of_use (w := w.shown #[]) hs hn ho)
        have there := (Array.getElem?_eq_some_iff.1 (cacheNamed?_eq_some_iff.1 hn).2).1
        rw [acted]
        exact (storeAt_setStore (w := w.shown #[]) _ there).trans (if_neg other)

namespace Down

/-- No request can be issued. -/
theorem act_throttle (d : w.Down) {name : String} {l : Nat} {cell : LimiterCell}
    (hl : w.limiterNamed? name = some (l, cell)) (identifier : Identifier) {times : Nat}
    (some : times ≠ 0) : w.act (.throttle name identifier times) = (w, .fault .notRunning) := by
  simp [act, hl, d.stopped, some]

/-- No sweeper can be started. -/
theorem act_sweeper (d : w.Down) {name : String} {c : Nat} {cell : CacheCell}
    (hc : w.cacheNamed? name = some (c, cell)) (interval : Span) :
    w.act (.sweeper name interval) = (w, .fault .notRunning) := by
  simp [act, withCache, hc, d.stopped]

theorem shown (d : w.Down) (notices : Array Notice) : (w.shown notices).Down := { d with }

/-- No step brings a task back. -/
theorem acted (d : w.Down) (s : Step) : (w.acted s).Down := by
  have start : (w.shown #[]).Down := d.shown #[]
  by_cases throttle : ∃ name identifier times, s = .throttle name identifier times
  · obtain ⟨name, identifier, times, rfl⟩ := throttle
    show ((w.shown #[]).act _).1.Down
    cases hl : (w.shown #[]).limiterNamed? name with
    | none => simpa only [act, hl] using start
    | some p =>
      by_cases zero : times = 0
      · subst zero
        simpa [act, hl, issueAll] using start
      · rw [start.act_throttle hl identifier zero]
        exact start
  by_cases sweeper : ∃ name interval, s = .sweeper name interval
  · obtain ⟨name, interval, rfl⟩ := sweeper
    show ((w.shown #[]).act _).1.Down
    cases hc : (w.shown #[]).cacheNamed? name with
    | none => simpa only [act, withCache, hc] using start
    | some p =>
      rw [start.act_sweeper hc interval]
      exact start
  have change := change_acted w s
  generalize w.acted s = w' at change
  cases change with
  | aside | limiter | setWall => exact { d with }
  | @cache name =>
    refine { d with parked := fun cell hc => ?_ }
    rcases Array.mem_push.1 hc with hc | rfl
    · exact d.parked cell hc
    · rfl
  | issue => exact absurd ⟨_, _, _, rfl⟩ throttle
  | drop =>
    exact { d with
      admissions := forall_mem_modify (f := fun a => { a with awaited := false }) d.admissions
        (fun _ h => h) _ }
  | advance =>
    exact { d with
      ready := by simp [World.advance, wakeTimers, enqueue, World.shown, d.ready, d.timers]
      timers := by simp [World.advance, wakeTimers, enqueue, World.shown, d.timers] }
  | @store _ _ _ store =>
    exact { d with
      parked := forall_mem_modify (f := fun cell => { cell with store }) d.parked (fun _ h => h) _ }
  | sweeper => exact absurd ⟨_, _, rfl⟩ sweeper
  | stop =>
    exact { d with
      ready := by simp [stopSweeper, endSweeper, setSweeperPhase, World.shown, d.ready]
      timers := by simp [stopSweeper, endSweeper, setSweeperPhase, World.shown, d.timers]
      sweepers := forall_mem_modify (f := fun s => { s with phase := .finished }) d.sweepers
        (fun _ _ => rfl) _ }
  | @gate _ kind mode c cell hn hc =>
    have nobody : cell.parked = [] := d.parked cell (Array.mem_of_getElem? hc)
    have set : ∀ x ∈ w.caches.modify c (·.setGate kind mode), x.parked = [] :=
      forall_mem_modify d.parked (fun _ h => by cases kind <;> exact h) _
    exact { d with
      ready := by simp [unpark, enqueue, World.shown, d.ready, nobody]
      parked := forall_mem_modify (f := fun cell => { cell with parked := [] }) set
        (fun _ _ => rfl) _ }
  | shutdown => exact down_shutDown _

/-- No task has a turn. -/
theorem step_eq (d : w.Down) (s : Step) : (w.step s).1 = w.acted s :=
  takeTurns_of_ready_nil (d.acted s).ready _

theorem step (d : w.Down) (s : Step) : (w.step s).1.Down := by
  rw [d.step_eq]
  exact d.acted s

theorem final (d : w.Down) (steps : List Step) : (w.final steps).Down := by
  induction steps generalizing w with
  | nil => exact d
  | cons s rest ih => exact ih (d.step s)

/-- A step shows nothing of a task if it leaves none. -/
theorem showsNoTask (d : (w.acted s).Down) : w.ShowsNoTask s := by
  have settled : (w.step s).1 = w.acted s := takeTurns_of_ready_nil d.ready _
  obtain ⟨calls, faults⟩ := shown_acted w s
  have logs := logsLimiters_acted w s
  rw [← settled] at d calls faults logs
  constructor
  case calls => exact congrArg Array.toList calls
  case faults => exact congrArg Array.toList faults
  case notices =>
    exact fun n hn => logs n (Array.mem_toList_iff.1 ((Notice.arrange_perm _).mem_iff.1 hn))
  case sweepers =>
    intro ended h
    obtain ⟨s, hs, rfl⟩ := List.mem_map.1 h
    rw [d.sweepers s (Array.mem_toList_iff.1 hs)]
    rfl

/-- No request is answered. -/
theorem outcomes (d : w.Down) (s : Step) : (w.step s).2.outcomes = [] := by
  have answers : (w.step s).1.trace.answers.toList = [] := by
    by_cases hs : s = .shutdown
    · subst hs
      rw [answers_shutdown, List.map_eq_nil_iff, List.filter_eq_nil_iff]
      intro i hi
      have there := Array.getElem?_eq_getElem (List.mem_range.1 hi)
      simp [phase?_eq there, d.admissions _ (Array.getElem_mem _)]
    · rw [d.step_eq, answers_acted hs]
  have none : (w.step s).1.received = [] := by simp [received, answers]
  exact none

/-- A step does what it does by itself. -/
theorem actsAlone (d : w.Down) (s : Step) : w.ActsAlone s := by
  have start := d.shown #[]
  constructor
  case throttle =>
    rintro name identifier times l cell rfl hl some
    have acted := start.act_throttle (show (w.shown #[]).limiterNamed? name = _ from hl)
      identifier some
    rw [result_step, d.step_eq, acted]
    exact ⟨rfl, congrArg (fun r : World × StepResult => r.1.caches) acted⟩
  case sweeper =>
    rintro name interval c cell rfl hc
    have acted := start.act_sweeper (show (w.shown #[]).cacheNamed? name = _ from hc) interval
    rw [result_step, d.step_eq, acted]
    exact ⟨rfl, congrArg (fun r : World × StepResult => r.1.caches) acted⟩
  case used =>
    intro c op hu
    obtain ⟨name, cell, hs, hn, ho⟩ := use?_eq_some hu
    have hc := (cacheNamed?_eq_some_iff.1 hn).2
    have acted := act_of_use (w := w.shown #[]) hs hn ho
    have stored : (w.step s).1 = _ := (d.step_eq s).trans (congrArg Prod.fst acted)
    rw [result_step, acted, stored, storeAt_eq hc]
    exact ⟨rfl, (storeAt_setStore (w := w.shown #[]) _ (Array.getElem?_eq_some_iff.1 hc).1).trans
      (if_pos rfl)⟩
  case unused =>
    intro c hu
    rw [d.step_eq]
    exact storeAt_of_unused hu

end Down

/-- When all tasks are stopped, what is stored stays, and all sweepers have ended; and after
    any further steps a step shows nothing of a task, answers no request, and does what it
    does by itself. -/
theorem torn_down (wall : Int) (before after : List Step) (s : Step) :
    let w := (starting wall).final before
    let v := (starting wall).final (before ++ .shutdown :: after)
    (∀ c, (w.step .shutdown).1.storeAt c = w.storeAt c) ∧ w.ShowsNoTask .shutdown ∧
      v.ShowsNoTask s ∧ (v.step s).2.outcomes = [] ∧ v.ActsAlone s := by
  intro w v
  have stopped : (w.acted .shutdown).Down := down_shutDown _
  have down : v.Down := by
    have e : v = (w.step .shutdown).1.final after := final_append ..
    rw [e, step_shutdown]
    exact stopped.final after
  refine ⟨fun c => ?_, stopped.showsNoTask, (down.acted s).showsNoTask, down.outcomes s,
    down.actsAlone s⟩
  rw [step_shutdown]
  exact storeAt_acted (s := .shutdown) rfl

/-- A limiter on a cache, and a shutdown. -/
def stoppedAtOnce : List Step :=
  [.cache "c", .limiter "a" "c" (.spans ⟨1000000000⟩ ⟨1000000000⟩) (.ok .zero), .shutdown]

/-- To ask a limiter for nothing starts no task, so it is no fault after a shutdown. -/
theorem nothing_asked_after_shutdown :
    (((starting 0).final stoppedAtOnce).limiterNamed? "a").isSome ∧
    (((starting 0).final stoppedAtOnce).step (.throttle "a" (.plain "x") 0)).2.result =
      .requests [] := by
  have stopped : (starting 0).final stoppedAtOnce =
      (((starting 0).final (stoppedAtOnce.take 2)).shown #[]).shutDown := step_shutdown _
  rw [stopped]
  exact ⟨rfl, rfl⟩

end World

end Turnstile
