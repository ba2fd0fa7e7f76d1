import Turnstile.Proofs.Session.Alike

/-!
# Steps in worlds alike

A step does the same to worlds that are alike, and has the same result in both, if that
says nothing of what is not seen (`Step.Told`). What a step does to what is not seen
leaves a world alike to itself.

* `Alike.act`: what any step does that is not for a particular request;
* `Alike.issue`, `Alike.dropHandle`: a request is issued, or given up on, in both worlds;
* `alike_issue`, `alike_withEntry`, `alike_dropHandle`: what is done in one of them only,
  without being seen.
-/

namespace Turnstile

/-- That the result of a step does not depend on what is not seen. -/
def Step.Told (f : View) (keys : String → Prop) (w : World) : Step → Prop
  | .purge _ | .isEmpty _ | .throttle .. => False
  | .get _ name => ∀ text, w.keyMeant? name = some text → keys text
  | .dropHandle i => f.number? i ≠ none
  | _ => True

/-- That two worlds are alike once something is done, and its results are the same, if they
    are told. -/
structure ActAlike (f g : View) (keys : String → Prop) (told : Prop)
    (p q : World × StepResult) : Prop where
  world : Alike f g keys p.1 q.1
  result : told → p.2 = q.2

namespace World

variable (w : World) (f : View)

/-- The tasks of the timers that have come due are put into the queue, the earlier timer
    first, whatever is seen of a task. -/
theorem filterMap_wakeTimers {α : Type} (see : Task → Option α) :
    w.wakeTimers.ready.filterMap see = w.ready.filterMap see ++
      (((w.timers.filterMap fun t => (see t.task).map (t.due, ·)).filter fun t =>
        t.1 ≤ w.clock.now.millisDown).mergeSort fun s t => s.1 ≤ t.1).map Prod.snd := by
  have order {s t : Timer} {x y : Nat × α} (hs : (see s.task).map (s.due, ·) = some x)
      (ht : (see t.task).map (t.due, ·) = some y) :
      decide (s.due ≤ t.due) = decide (x.1 ≤ y.1) := by
    obtain ⟨_, -, rfl⟩ := Option.map_eq_some_iff.1 hs
    obtain ⟨_, -, rfl⟩ := Option.map_eq_some_iff.1 ht
    rfl
  have tasks (l : List Timer) : (l.map Timer.task).filterMap see =
      (l.filterMap fun t => (see t.task).map (t.due, ·)).map Prod.snd := by
    rw [List.filterMap_map, List.map_filterMap]
    congr 1
    funext t
    simp [Function.comp_def]
  have due : (w.timers.filter fun t => t.due ≤ w.clock.now.millisDown).filterMap
      (fun t => (see t.task).map (t.due, ·)) =
      (w.timers.filterMap fun t => (see t.task).map (t.due, ·)).filter fun t =>
        t.1 ≤ w.clock.now.millisDown := by
    rw [List.filterMap_filter, List.filter_filterMap]
    congr 1
    funext t
    cases see t.task <;> simp [Option.filter_some]
  simp only [wakeTimers, enqueue, List.partition_eq_filter_filter, List.filterMap_append]
  rw [tasks, filterMap_mergeSort _ _ _ _ order, due]
  all_goals
    simp only [decide_eq_true_eq, Bool.or_eq_true]
    omega

/-- Those timers have come due that are seen to have. -/
theorem queue_wakeTimers : w.wakeTimers.queue f = w.queue f ++
    (((w.schedule f).filter fun t => t.1 ≤ w.clock.now.millisDown).mergeSort
      fun s t => s.1 ≤ t.1).map Prod.snd :=
  w.filterMap_wakeTimers f.task?

theorem schedule_wakeTimers : w.wakeTimers.schedule f =
    (w.schedule f).filter fun t => ¬ t.1 ≤ w.clock.now.millisDown := by
  simp only [wakeTimers, schedule, enqueue, List.partition_eq_filter_filter]
  rw [List.filterMap_filter, List.filter_filterMap]
  congr 1
  funext t
  cases h : f.task? t.task <;> simp [View.timer?, h, Option.filter_some]

/-- To stop a sweeper is not seen. -/
theorem queue_stopSweeper (j : Nat) : (w.stopSweeper j).queue f = w.queue f := by
  simp only [queue, stopSweeper, endSweeper, setSweeperPhase, List.filterMap_filter]
  congr 1
  funext t
  cases t <;> simp [View.task?]

theorem schedule_stopSweeper (j : Nat) : (w.stopSweeper j).schedule f = w.schedule f := by
  simp only [schedule, stopSweeper, endSweeper, setSweeperPhase, List.filterMap_filter]
  congr 1
  funext t
  cases h : t.task <;> simp [View.timer?, View.task?, h]

end World

namespace Alike

open World

variable {f g : View} {keys : String → Prop} {w v : World}

theorem cacheNamed? (h : Alike f g keys w v) (name : String) :
    (w.cacheNamed? name = none ∧ v.cacheNamed? name = none) ∨
      ∃ c x y, w.cacheNamed? name = some (c, x) ∧ v.cacheNamed? name = some (c, y) ∧
        w.caches[c]? = some x ∧ v.caches[c]? = some y := by
  simp only [World.cacheNamed?, h.cacheNames, Option.bind_eq_bind]
  cases v.cacheNames.get? name with
  | none => exact .inl ⟨rfl, rfl⟩
  | some c =>
    simp only [Option.bind_some]
    cases hx : w.caches[c]? with
    | none =>
      have size := h.caches.size
      have := Array.getElem?_eq_none_iff.1 hx
      exact .inl ⟨rfl, by rw [Array.getElem?_eq_none (by omega)]; rfl⟩
    | some x =>
      obtain ⟨y, hy, -⟩ := h.caches.find hx
      exact .inr ⟨c, x, y, rfl, by rw [hy]; rfl, hx, hy⟩

/-- A step that has no gate hold has none hold in the other world. -/
theorem flows {s : Step} (h : Alike f g keys w v) (hs : s.Flows w) : s.Flows v := by
  cases s with
  | shutdown => exact hs.elim
  | gate name kind mode =>
    intro hold
    have none := hs hold
    rcases h.cacheNamed? name with ⟨-, e⟩ | ⟨_, _, _, e, -⟩
    · exact e
    · rw [none] at e
      cases e
  | _ => trivial

theorem limiterNamed? (h : Alike f g keys w v) (name : String) :
    w.limiterNamed? name = v.limiterNamed? name := by
  rw [World.limiterNamed?, h.limiters, h.limiterNames, World.limiterNamed?]

theorem keyMeant? (h : Alike f g keys w v) (key : KeyName) :
    w.keyMeant? key = v.keyMeant? key := by
  cases key with
  | literal => rfl
  | ofIdentifier => simp only [World.keyMeant?, h.limiterNamed?]

/-- What is done to a named cache is done to caches that are alike, or to none. -/
theorem withCache (h : Alike f g keys w v) {name : String}
    {act act' : Nat → CacheCell → World × StepResult}
    {told : Prop} (there : ∀ {c x y}, w.caches[c]? = some x → v.caches[c]? = some y →
      ActAlike f g keys told (act c x) (act' c y)) :
    ActAlike f g keys told (w.withCache name act) (v.withCache name act') := by
  unfold World.withCache
  rcases h.cacheNamed? name with ⟨e, e'⟩ | ⟨c, x, y, e, e', hx, hy⟩
  · rw [e, e']
    exact ⟨h, fun _ => rfl⟩
  · rw [e, e']
    exact there hx hy

theorem withEntry (h : Alike f g keys w v) {name : String} {key : KeyName}
    {act act' : Nat → CacheCell → String → World × StepResult}
    {told : Prop} (there : ∀ {c x y text}, w.keyMeant? key = some text →
      w.caches[c]? = some x → v.caches[c]? = some y →
        ActAlike f g keys told (act c x text) (act' c y text)) :
    ActAlike f g keys told (w.withEntry name key act) (v.withEntry name key act') := by
  refine h.withCache fun {c x y} hx hy => ?_
  rw [← h.keyMeant?]
  cases ht : w.keyMeant? key with
  | none => exact ⟨h, fun _ => rfl⟩
  | some text => exact there ht hx hy

/-- Worlds stay alike when what caches store is changed alike. -/
theorem setStore (h : Alike f g keys w v) {c : Nat} {x y : CacheCell}
    (hx : w.caches[c]? = some x) (hy : v.caches[c]? = some y) {s t : Store}
    (hst : x.store.Alike keys w.clock.now y.store → s.Alike keys w.clock.now t) :
    Alike f g keys (w.setStore c s) (v.setStore c t) :=
  { h with
    caches := h.caches.modify fun _ _ hxy => hxy.setStore (hst (h.caches.cell hx hy).store) }

theorem logAll (h : Alike f g keys w v) (notices : List Notice) :
    Alike f g keys (w.logAll notices) (v.logAll notices) := by
  rw [logAll_eq, logAll_eq]
  exact { h with }

/-- The same timers come due. -/
theorem wakeTimers (h : Alike f g keys w v) : Alike f g keys w.wakeTimers v.wakeTimers :=
  { h with
    queue := by rw [queue_wakeTimers, queue_wakeTimers, h.queue, h.schedule, h.clock]
    schedule := by rw [schedule_wakeTimers, schedule_wakeTimers, h.schedule, h.clock] }

theorem advance (h : Alike f g keys w v) (d : Span) :
    Alike f g keys (w.advance d) (v.advance d) := by
  have later : Alike f g keys { w with clock := w.clock.advance d }
      { v with clock := v.clock.advance d } :=
    { h with
      clock := congrArg (·.advance d) h.clock
      caches := h.caches.mono (Nat.le_add_right ..) }
  exact later.wakeTimers

/-- Where nobody is parked, a gate is set without anybody being woken. -/
theorem setGate (h : Alike f g keys w v) {c : Nat} {x y : CacheCell} (hx : x.parked = [])
    (hy : y.parked = []) (kind : CallKind) (mode : GateMode) :
    Alike f g keys
      ({ w with caches := w.caches.modify c (·.setGate kind mode) }.unpark c x)
      ({ v with caches := v.caches.modify c (·.setGate kind mode) }.unpark c y) := by
  have set {x y : CacheCell} (hxy : x.Alike keys w.clock.now y) :
      (x.setGate kind mode).Alike keys w.clock.now (y.setGate kind mode) := by
    refine ⟨?_, fun kind' => ?_, ?_⟩
    · cases kind <;> exact hxy.name
    · rw [CacheCell.gate_setGate, CacheCell.gate_setGate, hxy.gate]
    · cases kind <;> exact hxy.store
  have cleared {x y : CacheCell} (hxy : x.Alike keys w.clock.now y) :
      CacheCell.Alike keys w.clock.now { x with parked := [] } { y with parked := [] } :=
    ⟨hxy.name, fun kind => by have := hxy.gate kind; cases kind <;> exact this, hxy.store⟩
  refine { h with
    caches := (h.caches.modify fun _ _ => set).modify fun _ _ => cleared
    queue := ?_ }
  have both := h.queue
  simp only [World.queue] at both
  simp [World.queue, unpark, enqueue, hx, hy, both]

theorem stopSweeper (h : Alike f g keys w v) (j : Nat) :
    Alike f g keys (w.stopSweeper j) (v.stopSweeper j) :=
  { h with
    sweepers := by simp [World.stopSweeper, endSweeper, setSweeperPhase, h.sweepers]
    queue := by rw [queue_stopSweeper, queue_stopSweeper, h.queue]
    schedule := by rw [schedule_stopSweeper, schedule_stopSweeper, h.schedule] }

/-- A step that is for no particular request leaves worlds alike, and has the same result in
    both, as far as that is seen. -/
theorem act {s : Step} (h : Alike f g keys w v) (hs : s.Flows w)
    (throttle : ∀ name identifier times, s ≠ .throttle name identifier times)
    (drop : ∀ i, s ≠ .dropHandle i)
    (free : ∀ {c : Nat} {x : CacheCell}, w.caches[c]? = some x → x.parked = [])
    (free' : ∀ {c : Nat} {y : CacheCell}, v.caches[c]? = some y → y.parked = []) :
    ActAlike f g keys (s.Told f keys w) (w.act s) (v.act s) := by
  cases s with
  | cache name =>
    refine ⟨{ h with caches := h.caches.push _, cacheNames := ?_ }, fun _ => rfl⟩
    show w.cacheNames.set name w.caches.size = v.cacheNames.set name v.caches.size
    rw [h.cacheNames, h.caches.size]
  | limiter name cache spec salt =>
    refine h.withCache fun {c x y} _ _ => ?_
    simp only [h.clock]
    cases spec.make v.clock.read salt with
    | error e => exact ⟨h.logAll _, fun _ => rfl⟩
    | ok made =>
      have logged := h.logAll (Limiter.noticesOf (.ok made))
      refine ⟨{ logged with limiters := ?_, limiterNames := ?_ }, fun _ => rfl⟩
      · simp only [addLimiter, logged.limiters]
      · simp only [addLimiter, logged.limiterNames, logged.limiters]
  | clone name copy =>
    simp only [World.act, h.limiterNamed?]
    cases v.limiterNamed? name with
    | none => exact ⟨h, fun _ => rfl⟩
    | some x =>
      exact ⟨{ h with limiterNames := congrArg (·.set copy x.1) h.limiterNames }, fun _ => rfl⟩
  | dropLimiter name =>
    exact ⟨{ h with limiterNames := congrArg (·.erase name) h.limiterNames },
      fun _ => by simp only [World.act, h.limiterNames]⟩
  | dropCache name =>
    exact ⟨{ h with cacheNames := congrArg (·.erase name) h.cacheNames },
      fun _ => by simp only [World.act, h.cacheNames]⟩
  | throttle => exact absurd rfl (throttle _ _ _)
  | dropHandle => exact absurd rfl (drop _)
  | advance d => exact ⟨h.advance d, fun _ => rfl⟩
  | setWall wall =>
    exact ⟨{ h with clock := congrArg (fun k => { k with wall }) h.clock }, fun _ => rfl⟩
  | put cache key value lifetime =>
    refine h.withEntry fun {c x y text} _ hx hy => ?_
    rw [← h.clock]
    -- Both entries can be stored, or neither, as the clocks are the same.
    rcases (h.caches.cell hx hy).store.set? w.clock.now text value lifetime with
      ⟨e, e'⟩ | ⟨s, t, e, e', hst⟩
    · rw [e, e']
      exact ⟨h, fun _ => rfl⟩
    · rw [e, e']
      exact ⟨h.setStore hx hy fun _ => hst, fun _ => rfl⟩
  | get cache key =>
    refine h.withEntry fun {c x y text} ht hx hy => ?_
    rw [← h.clock]
    -- To drop an entry that has expired is not seen.
    refine ⟨h.setStore hx hy fun hxy => (Store.Alike.get ..).trans (hxy.trans (.symm (.get ..))),
      fun told => ?_⟩
    simp only [Store.get_fst, (h.caches.cell hx hy).store.live? (told text ht) (Nat.le_refl _)]
  | purge cache =>
    refine h.withCache fun {c x y} hx hy => ?_
    rw [← h.clock]
    exact ⟨h.setStore hx hy fun hxy => (Store.Alike.purge ..).trans (hxy.trans (.symm (.purge ..))),
      fun told => told.elim⟩
  | clear cache =>
    refine h.withCache fun {c x y} hx hy => ?_
    exact ⟨h.setStore hx hy fun _ => .refl _, fun _ => rfl⟩
  | isEmpty cache =>
    exact h.withCache fun {c x y} _ _ => ⟨h, fun told => told.elim⟩
  | key key =>
    simp only [World.act, h.keyMeant?]
    cases v.keyMeant? key <;> exact ⟨h, fun _ => rfl⟩
  | sweeper cache interval =>
    refine h.withCache fun {c x y} _ _ => ?_
    rw [h.running]
    split
    · refine ⟨{ h with sweepers := ?_, queue := ?_ }, fun _ => by rw [h.sweepers]⟩
      · simp [addSweeper, enqueue, h.sweepers]
      · have both := h.queue
        simp only [World.queue] at both
        have none (f : View) (j : Nat) : [Task.sweeper j].filterMap f.task? = [] := rfl
        simp [World.queue, addSweeper, enqueue, List.filterMap_append, none, both]
    · exact ⟨h, fun _ => rfl⟩
  | abort j =>
    simp only [World.act, h.sweepers]
    split
    · exact ⟨h.stopSweeper j, fun _ => rfl⟩
    · exact ⟨h, fun _ => rfl⟩
  | gate cache kind mode =>
    refine h.withCache fun {c x y} hx hy => ?_
    exact ⟨h.setGate (free hx) (free' hy) kind mode, fun _ => rfl⟩
  | shutdown => exact hs.elim

/-- A request issued in both worlds is seen under the same number, or in none. -/
theorem issue (h : Alike f g keys w v)
    (hn : f.number? w.admissions.size = g.number? v.admissions.size) (l : Nat)
    (cell : LimiterCell) (identifier : String) :
    Alike f g keys (w.issue l cell identifier) (v.issue l cell identifier) :=
  { h with
    admission := by
      intro i j n hi hj
      rw [getElem?_issue, getElem?_issue, h.admission hi hj]
      have same : i = w.admissions.size ↔ j = v.admissions.size := by
        constructor
        · rintro rfl
          exact g.injective hj (hn ▸ hi)
        · rintro rfl
          exact f.injective hi (hn ▸ hj)
      simp only [same]
    queue := by
      have both := h.queue
      simp only [World.queue] at both
      simp [World.queue, World.issue, enqueue, List.filterMap_append, List.filterMap_cons,
        View.task?, both, hn] }

/-- To give up on an answer is the same in both worlds. -/
theorem dropHandle (h : Alike f g keys w v) {i j n : Nat} (hi : f.number? i = some n)
    (hj : g.number? j = some n) : Alike f g keys (w.dropHandle i).1 (v.dropHandle j).1 ∧
      (w.dropHandle i).2 = (v.dropHandle j).2 := by
  have owes : w.owes i = v.owes j := by
    simp only [World.owes, isAwaited, phase?, h.admission hi hj]
  rw [dropHandle_eq, dropHandle_eq, owes]
  split
  · refine ⟨{ h with admission := ?_ }, rfl⟩
    intro k l m hk hl
    have same : i = k ↔ j = l := by
      constructor
      · rintro rfl
        exact g.injective hj (Option.some.inj (hi.symm.trans hk) ▸ hl)
      · rintro rfl
        exact f.injective hi (Option.some.inj (hj.symm.trans hl) ▸ hk)
    simp only [Array.getElem?_modify, h.admission hk hl, same]
  · exact ⟨h, rfl⟩

end Alike

section

open World

variable {f : View} {keys : String → Prop} {w : World}

/-- A request that is not seen is issued without anything to be seen of it. -/
theorem alike_issue (hn : f.number? w.admissions.size = none) (l : Nat) (cell : LimiterCell)
    (identifier : String) : Alike f f keys (w.issue l cell identifier) w :=
  { Alike.refl f keys w with
    admission := by
      intro i j n hi hj
      obtain rfl := f.injective hi hj
      rw [getElem?_issue, if_neg]
      rintro rfl
      rw [hn] at hi
      cases hi
    queue := by
      simp [queue, World.issue, enqueue, List.filterMap_append, View.task?, hn] }

theorem alike_setStore {c : Nat} {x : CacheCell} {store : Store} (hx : w.caches[c]? = some x)
    (hs : store.Alike keys w.clock.now x.store) : Alike f f keys (w.setStore c store) w := by
  have caches : CachesAlike keys w.clock.now
      (w.caches.modify c fun cell => { cell with store }) w.caches := by
    refine .modify_left fun {y} hy => .setStore_left ?_
    obtain rfl : x = y := Option.some.inj (hx.symm.trans hy)
    exact hs
  exact { Alike.refl f keys w with caches }

/-- What is done to an entry that is not seen, or to none. -/
theorem alike_withEntry {name : String} {key : KeyName}
    {act : Nat → CacheCell → String → World × StepResult}
    (there : ∀ {c x text}, w.keyMeant? key = some text → w.caches[c]? = some x →
      Alike f f keys (act c x text).1 w) : Alike f f keys (w.withEntry name key act).1 w := by
  unfold withEntry withCache World.cacheNamed?
  cases w.cacheNames.get? name with
  | none => exact .refl ..
  | some c =>
    cases hx : w.caches[c]? with
    | none => simpa [hx] using .refl ..
    | some x =>
      cases ht : w.keyMeant? key with
      | none => simpa [hx, ht] using .refl ..
      | some text => simpa [hx, ht] using there ht hx

theorem alike_dropHandle {i : Nat} (hi : f.number? i = none) :
    Alike f f keys (w.dropHandle i).1 w := by
  rw [dropHandle_eq]
  split
  · refine { Alike.refl f keys w with admission := ?_ }
    intro j k n hj hk
    obtain rfl := f.injective hj hk
    rw [Array.getElem?_modify, if_neg]
    rintro rfl
    rw [hi] at hj
    cases hj
  · exact .refl ..

end

end Turnstile
