import Turnstile.Proofs.Session.History

/-!
# What steps do

A step of a session changes the world in one of a few ways (`World.Change`). Names
are looked up and results are made up on the side; what is left of a step is a
change of one or two fields of the world, and that the step starts the trace anew.

* `change_acted`: every step is one of these changes;
* `shutDown_eq`: what a shutdown leaves;
* `shown_acted`, `made_acted`: what a step shows by itself, before the tasks have their
  turns.
-/

namespace Turnstile

/-- An admission once it is answered. -/
def Admission.ended (a : Admission) : Admission := { a with phase := .finished }

/-- To arrange notices leaves none out. -/
theorem Notice.arrange_perm (notices : List Notice) : (Notice.arrange notices).Perm notices := by
  rw [Notice.arrange, List.partition_eq_filter_filter]
  have waits := List.mergeSort_perm (notices.filter (·.waitOver?.isSome)) Notice.waitsLess
  exact (waits.append_left _).trans
    (List.perm_append_comm.trans (List.filter_append_perm _ notices))

namespace World

/-- The world with nothing shown but some notices. -/
def shown (w : World) (notices : Array Notice) : World := { w with trace := { notices } }

/-- What a step stores in a cache, in place of what was there. -/
inductive Storing (w : World) (c : Nat) (cell : CacheCell) : Step → Store → Prop
  | put {cache : String} {key : KeyName} {text : String} {value : Value} {lifetime : Span}
      {store : Store} :
      w.cacheNames.get? cache = some c → w.keyMeant? key = some text →
      cell.store.set? w.clock.now text value lifetime = some store →
      Storing w c cell (.put cache key value lifetime) store
  | get {cache : String} {key : KeyName} {text : String} :
      Storing w c cell (.get cache key) (cell.store.get w.clock.now text).2
  | purge {cache : String} : Storing w c cell (.purge cache) (cell.store.purge w.clock.now)
  | clear {cache : String} :
      w.cacheNames.get? cache = some c → Storing w c cell (.clear cache) .empty

/-- How a step changes the world. -/
inductive Change (w : World) : Step → World → Prop
  /-- It changes names only, or nothing at all. -/
  | aside {s : Step} {cacheNames limiterNames : Table String Nat} {notices : Array Notice} :
      Change w s { w.shown notices with cacheNames, limiterNames }
  | cache {name : String} : Change w (.cache name) ((w.shown #[]).addCache name)
  | limiter {name cache : String} {spec : LimiterSpec} {salt : Except SystemError Salt}
      {notices : Array Notice} {made : Limiter} {c : Nat} :
      w.cacheNames.get? cache = some c → c < w.caches.size →
      Change w (.limiter name cache spec salt) ((w.shown notices).addLimiter name made c)
  | issue {name : String} {identifier : Identifier} {times l : Nat} {cell : LimiterCell} :
      w.limiterNames.get? name = some l → w.limiters[l]? = some cell →
      Change w (.throttle name identifier times)
        ((w.shown #[]).issueAll l cell identifier.render times)
  | drop {i : Nat} : Change w (.dropHandle i)
      { w.shown #[] with admissions := w.admissions.modify i fun a => { a with awaited := false } }
  | advance {d : Span} : Change w (.advance d) ((w.shown #[]).advance d)
  | setWall {wall : Int} :
      Change w (.setWall wall) { w.shown #[] with clock := { w.clock with wall } }
  | store {s : Step} {c : Nat} {cell : CacheCell} {store : Store} :
      w.caches[c]? = some cell → Storing w c cell s store →
      Change w s ((w.shown #[]).setStore c store)
  | sweeper {cache : String} {interval : Span} {c : Nat} :
      Change w (.sweeper cache interval) ((w.shown #[]).addSweeper c interval)
  | stop {j : Nat} : Change w (.abort j) ((w.shown #[]).stopSweeper j)
  | gate {cache : String} {kind : CallKind} {mode : GateMode} {c : Nat} {cell : CacheCell} :
      w.cacheNames.get? cache = some c → w.caches[c]? = some cell →
      Change w (.gate cache kind mode)
        ({ w.shown #[] with caches := w.caches.modify c (·.setGate kind mode) }.unpark c cell)
  | shutdown : Change w .shutdown (w.shown #[]).shutDown

section

variable {w : World} {s : Step}

theorem Change.nothing (notices : Array Notice) : Change w s (w.shown notices) := .aside

/-- What is done to a named cache is done to a cache that is there, or nothing is
    done. -/
theorem change_withCache {name : String} {act : Nat → CacheCell → World × StepResult}
    (h : ∀ {c cell}, w.cacheNames.get? name = some c → w.caches[c]? = some cell →
      Change w s (act c cell).1) : Change w s ((w.shown #[]).withCache name act).1 := by
  unfold withCache
  split
  · exact .nothing _
  · rename_i c cell hc
    simp only [cacheNamed?, Option.bind_eq_bind, Option.bind_eq_some_iff, Option.some.injEq,
      Prod.mk.injEq] at hc
    obtain ⟨_, hn, _, hc, rfl, rfl⟩ := hc
    exact h hn hc

theorem change_withEntry {name : String} {key : KeyName}
    {act : Nat → CacheCell → String → World × StepResult}
    (h : ∀ {c cell text}, w.cacheNames.get? name = some c → w.caches[c]? = some cell →
      w.keyMeant? key = some text → Change w s (act c cell text).1) :
    Change w s ((w.shown #[]).withEntry name key act).1 := by
  refine change_withCache fun {c cell} hn hc => ?_
  cases ht : (w.shown #[]).keyMeant? key with
  | none => exact .nothing _
  | some text => exact h hn hc ht

/-- A step changes the world in one of the ways above. -/
theorem change_acted (w : World) (s : Step) : Change w s (w.acted s) := by
  have e : w.acted s = ((w.shown #[]).act s).1 := rfl
  rw [e]
  cases s with
  | cache name => exact .cache
  | limiter name cache spec salt =>
    refine change_withCache fun {c cell} hn hc => ?_
    have there : c < w.caches.size := (Array.getElem?_eq_some_iff.1 hc).1
    simp only [logAll_eq]
    split
    · exact .nothing _
    · exact .limiter hn there
  | clone name copy =>
    simp only [act]
    split
    · exact .nothing _
    · exact .aside
  | dropLimiter name => exact .aside
  | dropCache name => exact .aside
  | throttle name identifier times =>
    simp only [act]
    split
    · exact .nothing _
    · rename_i l cell hl
      simp only [limiterNamed?, Option.bind_eq_bind, Option.bind_eq_some_iff, Option.some.injEq,
        Prod.mk.injEq] at hl
      obtain ⟨_, hn, _, hl, rfl, rfl⟩ := hl
      split
      · exact .issue hn hl
      · exact .nothing _
  | dropHandle i =>
    simp only [act, dropHandle]
    split
    · exact .nothing _
    · split
      · exact .drop
      · exact .nothing _
  | advance d => exact .advance
  | setWall wall => exact .setWall
  | put cache key value lifetime =>
    refine change_withEntry fun {c cell text} hn hc ht => ?_
    split
    · exact .nothing _
    · rename_i store hs
      exact .store hc (.put hn ht hs)
  | get cache key => exact change_withEntry fun {c cell text} hn hc ht => .store hc .get
  | purge cache => exact change_withCache fun {c cell} hn hc => .store hc .purge
  | clear cache => exact change_withCache fun {c cell} hn hc => .store hc (.clear hn)
  | isEmpty cache => exact change_withCache fun {c cell} hn hc => .nothing _
  | key key =>
    simp only [act]
    split <;> exact .nothing _
  | sweeper cache interval =>
    refine change_withCache fun {c cell} hn hc => ?_
    split
    · exact .sweeper
    · exact .nothing _
  | abort j =>
    simp only [act]
    split
    · exact .stop
    · exact .nothing _
  | gate cache kind mode => exact change_withCache fun {c cell} hn hc => .gate hn hc
  | shutdown => exact .shutdown

end

/-! ### Requests -/

/-- To issue requests adds admissions, and puts them into the queue. -/
theorem issueAll_eq (w : World) (l : Nat) (cell : LimiterCell) (identifier : String) (n : Nat) :
    ∃ (admissions : Array Admission) (numbers : List Nat), w.issueAll l cell identifier n =
      { w with admissions, ready := w.ready ++ numbers.map .admission } := by
  induction n generalizing w with
  | zero => exact ⟨w.admissions, [], by simp [issueAll]⟩
  | succ n ih =>
    obtain ⟨admissions, numbers, he⟩ := ih (w.issue l cell identifier)
    refine ⟨admissions, w.admissions.size :: numbers, ?_⟩
    rw [issueAll, he]
    simp [issue, enqueue]

/-! ### Shutdowns -/

theorem abandon_eq (w : World) {i : Nat} {a : Admission} (hi : w.admissions[i]? = some a) :
    ∃ answers, (∀ x ∈ answers, x ∈ w.trace.answers ∨ x = (i, .error .aborted)) ∧
      w.abandon i = { w with
        admissions := w.admissions.modify i Admission.ended
        trace := { w.trace with answers } } := by
  unfold abandon
  rw [hi]
  by_cases hf : a.isFinished
  · refine ⟨w.trace.answers, fun x hx => .inl hx, ?_⟩
    have same : w.admissions.modify i Admission.ended = w.admissions := by
      apply Array.ext_getElem?
      intro j
      rw [Array.getElem?_modify]
      split
      · subst j
        have : a.ended = a := by
          simp only [Admission.isFinished, decide_eq_true_eq] at hf
          rw [Admission.ended, ← hf]
        simp [hi, this]
      · rfl
    simp [hf, same]
  · refine ⟨w.trace.answers.push (i, .error .aborted), fun x hx => ?_, ?_⟩
    · exact Array.mem_push.1 hx
    · simp only [Option.map_some, Option.getD_some, hf]
      rfl

/-- All admissions below a number are abandoned one by one. -/
theorem abandonAll_eq (w : World) {n : Nat} (hn : n ≤ w.admissions.size) :
    ∃ admissions answers,
      (∀ j : Nat, admissions[j]? =
        if j < n then w.admissions[j]?.map Admission.ended else w.admissions[j]?) ∧
      (∀ x ∈ answers, x ∈ w.trace.answers ∨ x.2 = .error .aborted) ∧
      (List.range n).foldl abandon w =
        { w with admissions, trace := { w.trace with answers } } := by
  induction n with
  | zero => exact ⟨w.admissions, w.trace.answers, by simp, fun x hx => .inl hx, rfl⟩
  | succ n ih =>
    obtain ⟨as, answers, ha, hx, he⟩ := ih (by omega)
    rw [List.range_succ, List.foldl_append, he, List.foldl_cons, List.foldl_nil]
    have there : as[n]? = some w.admissions[n] := by simp [ha]
    obtain ⟨answers', hx', he'⟩ := abandon_eq
      { w with admissions := as, trace := { w.trace with answers } } there
    refine ⟨as.modify n Admission.ended, answers', fun j => ?_, fun x h => ?_, he'⟩
    · rw [Array.getElem?_modify, ha]
      by_cases hj : n = j
      · subst hj
        simp
      · by_cases hlt : j < n
        · simp [hj, hlt, show j < n + 1 by omega]
        · simp [hj, hlt, show ¬ j < n + 1 by omega]
    · rcases hx' x h with h | rfl
      · exact hx x h
      · exact .inr rfl

/-- A shutdown ends all tasks, and answers the requests that had no answer. -/
theorem shutDown_eq (w : World) : ∃ answers,
    (∀ x ∈ answers, x ∈ w.trace.answers ∨ x.2 = .error .aborted) ∧
    w.shutDown = { w with
      running := false
      admissions := w.admissions.map Admission.ended
      sweepers := w.sweepers.map fun s => { s with phase := .finished }
      caches := w.caches.map fun cell => { cell with parked := [] }
      lines := .empty
      ready := []
      timers := []
      trace := { w.trace with answers } } := by
  obtain ⟨as, answers, ha, hx, he⟩ := w.abandonAll_eq (Nat.le_refl _)
  have all : as = w.admissions.map Admission.ended := by
    apply Array.ext_getElem?
    intro j
    rw [ha, Array.getElem?_map]
    split
    · rfl
    · rename_i hj
      simp [Array.getElem?_eq_none (Nat.le_of_not_lt hj)]
  refine ⟨answers, hx, ?_⟩
  simp only [shutDown, he, all]

/-! ### What steps show -/

/-- A step by itself makes no calls and shows no faults of tasks. -/
theorem shown_acted (w : World) (s : Step) :
    (w.acted s).trace.calls = #[] ∧ (w.acted s).trace.faults = #[] := by
  have change := change_acted w s
  generalize w.acted s = w' at change
  cases change with
  | aside | cache | limiter | drop | advance | setWall | store | sweeper | stop | gate =>
    exact ⟨rfl, rfl⟩
  | issue =>
    obtain ⟨_, _, he⟩ := issueAll_eq (w.shown #[]) _ _ _ _
    rw [he]
    exact ⟨rfl, rfl⟩
  | shutdown =>
    obtain ⟨_, -, he⟩ := (w.shown #[]).shutDown_eq
    rw [he]
    exact ⟨rfl, rfl⟩

/-- What is so of a world stays so when something is done to a named cache, if it stays
    so when that is done to a cache. -/
theorem withCache_of {P : World → Prop} {w : World} (h : P w) {name : String}
    {act : Nat → CacheCell → World × StepResult} (there : ∀ c cell, P (act c cell).1) :
    P (w.withCache name act).1 := by
  cases hc : w.cacheNamed? name with
  | none => simpa only [withCache, hc] using h
  | some p => simpa only [withCache, hc] using there p.1 p.2

/-- The same for what is done to an entry of a named cache. -/
theorem withEntry_of {P : World → Prop} {w : World} (h : P w) {name : String} {key : KeyName}
    {act : Nat → CacheCell → String → World × StepResult}
    (there : ∀ c cell text, P (act c cell text).1) : P (w.withEntry name key act).1 := by
  refine withCache_of h fun c cell => ?_
  cases w.keyMeant? key with
  | none => exact h
  | some text => exact there c cell text

/-- That there are the limiters of a world and nothing is logged, or one more limiter,
    which was made, and that it was. -/
def Made (limiters : Array LimiterCell) (w : World) : Prop :=
  (w.limiters = limiters ∧ w.trace.notices = #[]) ∨
    ∃ (spec : LimiterSpec) (reading : Except Fault Timestamp) (salt : Except SystemError Salt)
      (l : Limiter) (c : Nat), spec.make reading salt = .ok l ∧
        w.limiters = limiters.push ⟨l, c⟩ ∧
        w.trace.notices = #[.limiterMade l.threshold l.deadline]

/-- A step by itself logs the limiter that it makes, and no more. -/
theorem made_acted (w : World) (s : Step) : (w.acted s).Made w.limiters := by
  have none {v : World} (hl : v.limiters = w.limiters) (hn : v.trace.notices = #[]) :
      v.Made w.limiters := .inl ⟨hl, hn⟩
  have start : (w.shown #[]).Made w.limiters := none rfl rfl
  have e : w.acted s = ((w.shown #[]).act s).1 := rfl
  rw [e]
  cases s with
  | cache | dropLimiter | dropCache | advance | setWall => exact none rfl rfl
  | limiter name cache spec salt =>
    refine withCache_of start fun c _ => ?_
    simp only [logAll_eq]
    cases made : spec.make (w.shown #[]).clock.read salt with
    | error e => exact none rfl rfl
    | ok limiter => exact .inr ⟨spec, _, salt, limiter, c, made, rfl, rfl⟩
  | clone name copy =>
    simp only [act]
    split <;> exact none rfl rfl
  | throttle name identifier times =>
    simp only [act]
    split
    · exact start
    · split
      · obtain ⟨_, _, he⟩ := issueAll_eq (w.shown #[]) _ _ identifier.render times
        exact none (by rw [he]; rfl) (by rw [he]; rfl)
      · exact start
  | dropHandle i =>
    simp only [act, dropHandle]
    split
    · exact start
    · split <;> exact none rfl rfl
  | put =>
    refine withEntry_of start fun _ _ _ => ?_
    split <;> exact none rfl rfl
  | get => exact withEntry_of start fun _ _ _ => none rfl rfl
  | purge | clear | isEmpty | gate => exact withCache_of start fun _ _ => none rfl rfl
  | key key =>
    simp only [act]
    split <;> exact start
  | sweeper cache interval =>
    refine withCache_of start fun _ _ => ?_
    split <;> exact none rfl rfl
  | abort j =>
    simp only [act]
    split <;> exact none rfl rfl
  | shutdown =>
    obtain ⟨_, -, he⟩ := (w.shown #[]).shutDown_eq
    exact none (by simp only [act]; rw [he]; rfl) (by simp only [act]; rw [he]; rfl)

/-- That nothing is logged but that limiters are made. -/
def LogsLimiters (w : World) : Prop :=
  ∀ n ∈ w.trace.notices, ∃ threshold deadline, n = .limiterMade threshold deadline

theorem logsLimiters_acted (w : World) (s : Step) : (w.acted s).LogsLimiters := by
  rcases made_acted w s with ⟨-, none⟩ | ⟨_, _, _, l, _, -, -, one⟩
  · simp [LogsLimiters, none]
  · simp [LogsLimiters, one]

end World

end Turnstile
