import Turnstile.Proofs.Session.Shift

/-!
# Sessions at another time

The date does not matter. A session is shifted by shifting the start of its wall clock, all
settings of it, and the timestamps that are put into its caches. Then everything shown of it
is the same, step by step, except that the timestamps in answers and calls are shifted too:
as long as in neither session a reading or a sum of timestamps fails (`World.Bounded`), and
none of the timestamps that are put is within a leap second.

* `LimiterSpec.make_eq`: what becomes of a construction does not depend on the reading;
* `World.act_shifted`, `World.settle_shifted`: steps and turns commute with a shift;
* `World.shifted_session`: so sessions do.
-/

namespace Turnstile

/-! ### Bounds -/

/-- Whether there is no limiter because of the wall clock: it could not be read, or the sum of
    the present and the threshold is past the last timestamp. -/
def LimiterError.isTemporal : LimiterError → Bool
  | .clock _ | .thresholdPastEnd _ => true
  | _ => false

/-- Whether a step has made no limiter because of the wall clock. -/
def StepResult.isTemporal : StepResult → Bool
  | .refused e => e.isTemporal
  | _ => false

namespace World

/-- That in a session that goes on from a world every reading of the wall clock succeeds, and
    every sum of timestamps is in the range: when limiters are made, and when requests are
    decided. -/
structure Bounded (w : World) (steps : List Step) : Prop where
  made : ∀ r ∈ w.run steps, !r.result.isTemporal
  turns : ∀ m ∈ w.history steps, m.Bounded

instance (w : World) (steps : List Step) : Decidable (w.Bounded steps) :=
  decidable_of_iff (_ ∧ _) ⟨fun ⟨hm, ht⟩ => ⟨hm, ht⟩, fun h => ⟨h.made, h.turns⟩⟩

theorem bounded_singleton {w : World} {s : Step} : w.Bounded [s] ↔
    !(w.step s).2.result.isTemporal ∧ ∀ m ∈ (w.acted s).settling, m.Bounded := by
  have run : w.run [s] = [(w.step s).2] := rfl
  have history : w.history [s] = (w.acted s).settling := List.append_nil _
  exact ⟨fun ⟨hm, ht⟩ => ⟨hm _ (by simp [run]), history ▸ ht⟩,
    fun ⟨hm, ht⟩ => ⟨by simpa [run] using hm, by rwa [history]⟩⟩

theorem bounded_cons {w : World} {s : Step} {rest : List Step} :
    w.Bounded (s :: rest) ↔ w.Bounded [s] ∧ (w.step s).1.Bounded rest := by
  have run : w.run (s :: rest) = (w.step s).2 :: (w.step s).1.run rest := rfl
  constructor
  · rintro ⟨made, turns⟩
    rw [run, List.forall_mem_cons] at made
    rw [history, List.forall_mem_append] at turns
    exact ⟨bounded_singleton.2 ⟨made.1, turns.1⟩, made.2, turns.2⟩
  · rintro ⟨first, made, turns⟩
    obtain ⟨made', turns'⟩ := bounded_singleton.1 first
    exact ⟨by rw [run, List.forall_mem_cons]; exact ⟨made', made⟩,
      by rw [history, List.forall_mem_append]; exact ⟨turns', turns⟩⟩

end World

/-- The timestamp that a step puts into a cache. -/
def Step.timestamp? : Step → Option Timestamp
  | .put _ _ value _ => value.timestamp?
  | _ => none

/-! ### What is shifted -/

variable (δ : Int)

/-- A step with the time shifted that it sets the wall clock to, or puts into a cache. -/
def Step.shifted : Step → Step
  | .setWall wall => .setWall (wall + δ)
  | .put name entry value lifetime => .put name entry (value.shifted δ) lifetime
  | s => s

/-- A result with the timestamp shifted that it shows. -/
def StepResult.shifted : StepResult → StepResult
  | .value found => .value (found.map (Value.shifted δ))
  | r => r

/-- A report with the timestamps shifted in its result and its calls. -/
def Report.shifted (r : Report) : Report :=
  { r with result := r.result.shifted δ, calls := r.calls.map (Call.shifted δ) }

theorem Step.shifted_zero {s : Step} (plain : ∀ t ∈ s.timestamp?, ¬ t.IsLeap) :
    s.shifted 0 = s := by
  cases s with
  | setWall wall => simp [shifted]
  | put cache key value lifetime =>
    cases value with
    | timestamp t => simp [shifted, Value.shifted, Timestamp.shifted_zero_iff.2 (plain t rfl)]
    | text | bytes => rfl
  | _ => rfl

/-! ### Constructions -/

/-- Limiters that are not refused because of the wall clock are made in the same way at any
    reading. -/
theorem Limiter.make_eq {threshold deadline : Span} {reading reading' : Except Fault Timestamp}
    {salt : Except SystemError Salt}
    (h : ∀ e, make threshold deadline reading salt = .error e → !e.isTemporal)
    (h' : ∀ e, make threshold deadline reading' salt = .error e → !e.isTemporal) :
    make threshold deadline reading' salt = make threshold deadline reading salt := by
  unfold make at *
  by_cases ht : threshold.nanos > Span.longestOffset.nanos
  · rw [if_pos ht, if_pos ht]
  by_cases hd : deadline.nanos > Span.longestOffset.nanos
  · rw [if_neg ht, if_neg ht, if_pos hd, if_pos hd]
  simp only [ht, hd, if_false] at *
  cases reading with
  | error => simpa [LimiterError.isTemporal] using h _ rfl
  | ok now =>
    cases reading' with
    | error => simpa [LimiterError.isTemporal] using h' _ rfl
    | ok now' =>
      have sum : ¬ (now.add? threshold).isNone := fun past => by
        simpa [past, LimiterError.isTemporal] using h (.thresholdPastEnd threshold)
      have sum' : ¬ (now'.add? threshold).isNone := fun past => by
        simpa [past, LimiterError.isTemporal] using h' (.thresholdPastEnd threshold)
      simp only [sum, sum']

theorem LimiterSpec.make_eq {spec : LimiterSpec} {reading reading' : Except Fault Timestamp}
    {salt : Except SystemError Salt}
    (h : ∀ e, spec.make reading salt = .error e → !e.isTemporal)
    (h' : ∀ e, spec.make reading' salt = .error e → !e.isTemporal) :
    spec.make reading' salt = spec.make reading salt := by
  cases spec <;> exact Limiter.make_eq h h'

namespace World

variable (w : World)

/-! ### Steps -/

/-- A step done at another time, with its result. -/
def displaced (r : World × StepResult) : World × StepResult := (r.1.shifted δ, r.2.shifted δ)

theorem enrol_shifted (a : Admission) :
    (w.shifted δ).enrol (a.shifted δ) = (w.enrol a).shifted δ := by
  simp only [enrol, enqueue, shifted, Array.map_push, Array.size_map]

theorem issueAll_shifted (l : Nat) (cell : LimiterCell) (identifier : String) (n : Nat) :
    (w.shifted δ).issueAll l cell identifier n = (w.issueAll l cell identifier n).shifted δ := by
  induction n generalizing w with
  | zero => rfl
  | succ n ih =>
    rw [issueAll, issueAll, ← ih]
    exact congrArg (·.issueAll l cell identifier n) (enrol_shifted δ w (request l cell identifier))

theorem dropHandle_shifted (i : Nat) :
    (w.shifted δ).dropHandle i = ((w.dropHandle i).1.shifted δ, (w.dropHandle i).2) := by
  have there : (w.shifted δ).admissions[i]? = w.admissions[i]?.map (Admission.shifted δ) := by
    simp [shifted]
  simp only [dropHandle, there]
  cases w.admissions[i]? with
  | none => rfl
  | some a =>
    have awaited : (a.shifted δ).awaited = a.awaited := rfl
    simp only [Option.map_some, awaited, a.isFinished_shifted δ]
    split
    · simp only [shifted]
      rw [map_modify (f := Admission.shifted δ) (g := fun a => { a with awaited := false })
        (k := fun a => { a with awaited := false }) fun _ => rfl]
    · rfl

theorem abandonAll_shifted (is : List Nat) :
    is.foldl abandon (w.shifted δ) = (is.foldl abandon w).shifted δ := by
  induction is generalizing w with
  | nil => rfl
  | cons i rest ih =>
    have one : (w.shifted δ).abandon i = (w.abandon i).shifted δ := by
      have ended : (w.shifted δ).admissions[i]?.map (·.isFinished) =
          w.admissions[i]?.map (·.isFinished) := by
        simp [shifted, Function.comp_def, Admission.isFinished_shifted]
      simp only [abandon, ended, answer_shifted]
      symm
      exact apply_ite (shifted δ) ..
    rw [List.foldl_cons, List.foldl_cons, one, ih]

theorem unpark_shifted (c : Nat) (cell : CacheCell) :
    (w.shifted δ).unpark c (cell.shifted δ) = (w.unpark c cell).shifted δ := by
  simp only [unpark, enqueue, shifted]
  rw [map_modify (f := CacheCell.shifted δ) (g := fun cell => { cell with parked := [] })
    (k := fun cell => { cell with parked := [] }) fun _ => rfl]
  rfl

theorem setGate_shifted (c : Nat) (kind : CallKind) (mode : GateMode) :
    { w.shifted δ with caches := (w.shifted δ).caches.modify c (·.setGate kind mode) } =
      { w with caches := w.caches.modify c (·.setGate kind mode) }.shifted δ := by
  simp only [shifted]
  rw [map_modify (f := CacheCell.shifted δ) (g := fun cell => cell.setGate kind mode)
    (k := fun cell => cell.setGate kind mode) fun _ => by cases kind <;> rfl]

theorem shutDown_shifted : (w.shifted δ).shutDown = w.shutDown.shifted δ := by
  simp only [shutDown, size_admissions_shifted, abandonAll_shifted]
  simp [shifted, CacheCell.shifted, Function.comp_def]

theorem cacheNamed?_shifted (name : String) : (w.shifted δ).cacheNamed? name =
    (w.cacheNamed? name).map fun (c, cell) => (c, cell.shifted δ) := by
  simp only [cacheNamed?, shifted, Array.getElem?_map, Option.bind_eq_bind]
  cases w.cacheNames.get? name with
  | none => rfl
  | some c => cases h : w.caches[c]? <;> simp [h]

theorem withCache_shifted (name : String) {act act' : Nat → CacheCell → World × StepResult}
    (h : ∀ c cell, w.cacheNamed? name = some (c, cell) →
      act' c (cell.shifted δ) = displaced δ (act c cell)) :
    (w.shifted δ).withCache name act' = displaced δ (w.withCache name act) := by
  simp only [withCache, cacheNamed?_shifted]
  cases hn : w.cacheNamed? name with
  | none => rfl
  | some p => exact h _ _ hn

theorem withEntry_shifted (name : String) (key : KeyName)
    {act act' : Nat → CacheCell → String → World × StepResult}
    (h : ∀ c cell text, act' c (cell.shifted δ) text = displaced δ (act c cell text)) :
    (w.shifted δ).withEntry name key act' = displaced δ (w.withEntry name key act) := by
  have meant : (w.shifted δ).keyMeant? key = w.keyMeant? key := rfl
  refine withCache_shifted δ w name fun c cell _ => ?_
  rw [meant]
  cases w.keyMeant? key with
  | none => rfl
  | some text => exact h ..

/-- A step does the same at another time, if the wall clock keeps it from making a limiter at
    neither. -/
theorem act_shifted (s : Step) (h : !(w.act s).2.isTemporal)
    (h' : !((w.shifted δ).act (s.shifted δ)).2.isTemporal) :
    (w.shifted δ).act (s.shifted δ) = displaced δ (w.act s) := by
  have store (c : Nat) (store : Store) (result : StepResult) :
      ((w.shifted δ).setStore c (store.shifted δ), result.shifted δ) =
        displaced δ (w.setStore c store, result) :=
    congrArg (·, result.shifted δ) (setStore_shifted δ w c store)
  cases s with
  | cache name =>
    simp only [act, Step.shifted, displaced, addCache, shifted, Array.map_push, Array.size_map]
    rfl
  | limiter name on spec salt =>
    refine withCache_shifted δ w on fun c cell hn => ?_
    have hn' : (w.shifted δ).cacheNamed? on = some (c, cell.shifted δ) := by
      rw [cacheNamed?_shifted, hn]
      rfl
    simp only [act, Step.shifted, withCache, hn, hn'] at h h'
    have made : spec.make (w.shifted δ).clock.read salt = spec.make w.clock.read salt :=
      LimiterSpec.make_eq (fun e he => by simpa [he, StepResult.isTemporal] using h)
        fun e he => by simpa [he, StepResult.isTemporal] using h'
    rw [made]
    cases spec.make w.clock.read salt <;> rfl
  | clone name copy =>
    have named : (w.shifted δ).limiterNamed? name = w.limiterNamed? name := rfl
    simp only [act, Step.shifted, named]
    cases w.limiterNamed? name <;> rfl
  | dropLimiter | dropCache | setWall => rfl
  | throttle name identifier times =>
    have named : (w.shifted δ).limiterNamed? name = w.limiterNamed? name := rfl
    have running : (w.shifted δ).running = w.running := rfl
    simp only [act, Step.shifted, named, running, size_admissions_shifted, issueAll_shifted]
    cases w.limiterNamed? name with
    | none => rfl
    | some p =>
      symm
      exact apply_ite (displaced δ) ..
  | dropHandle i =>
    simp only [act, Step.shifted, dropHandle_shifted]
    rfl
  | advance d =>
    have clock : (w.clock.shifted δ).advance d = (w.clock.advance d).shifted δ := by
      simp only [Clock.advance, Clock.shifted, Int.add_right_comm]
    have advanced : { w.shifted δ with clock := (w.clock.shifted δ).advance d } =
        { w with clock := w.clock.advance d }.shifted δ := by rw [clock]; rfl
    exact congrArg (fun v : World => (v.wakeTimers, StepResult.nothing)) advanced
  | put name key value lifetime =>
    refine withEntry_shifted δ w name key fun c cell text => ?_
    have set := cell.store.set?_shifted δ w.clock.now text value lifetime
    rw [CacheCell.store_shifted, now_shifted, set]
    cases cell.store.set? w.clock.now text value lifetime with
    | none => rfl
    | some s => exact store c s .nothing
  | get name key =>
    refine withEntry_shifted δ w name key fun c cell text => ?_
    have got := cell.store.get_shifted δ w.clock.now text
    rw [CacheCell.store_shifted, now_shifted, got]
    exact store c _ (.value _)
  | purge name =>
    refine withCache_shifted δ w name fun c cell _ => ?_
    rw [CacheCell.store_shifted, now_shifted, Store.purge_shifted, Store.expiredCount_shifted]
    exact store c _ (.count _)
  | clear name => exact withCache_shifted δ w name fun c _ _ => store c .empty .nothing
  | isEmpty name =>
    exact withCache_shifted δ w name fun _ cell _ =>
      congrArg (fun b => (w.shifted δ, StepResult.flag b)) (cell.store.isEmpty_shifted δ)
  | key key =>
    have meant : (w.shifted δ).keyMeant? key = w.keyMeant? key := rfl
    simp only [act, Step.shifted, meant]
    cases w.keyMeant? key <;> rfl
  | sweeper name interval =>
    refine withCache_shifted δ w name fun c cell _ => ?_
    symm
    exact apply_ite (displaced δ) ..
  | abort j =>
    symm
    exact apply_ite (displaced δ) ..
  | gate name kind mode =>
    refine withCache_shifted δ w name fun c cell _ => ?_
    rw [setGate_shifted, unpark_shifted]
    rfl
  | shutdown =>
    simp only [act, Step.shifted, shutDown_shifted]
    rfl

/-! ### Turns -/

section

variable {w} {δ}

/-- That there is no leap second in a world, and that its requests are where they belong, at
    this time and at another. -/
structure Regular (δ : Int) (w : World) : Prop where
  plain : w.shifted 0 = w
  orderly : w.Orderly
  orderly_shifted : (w.shifted δ).Orderly

theorem Regular.turn (k : w.Regular δ) {task : Task} (hr : w.ready.head? = some task)
    (h : Moment.Bounded ⟨w, task⟩) (h' : Moment.Bounded ⟨w.shifted δ, task⟩) :
    (w.shifted δ).taken.turn task = (w.taken.turn task).shifted δ ∧
      (w.taken.turn task).Regular δ := by
  have same := Moment.after_shifted (m := ⟨w, task⟩) δ k.plain k.orderly k.orderly_shifted hr h h'
  -- The turn of the world as it is, shifted by nothing, leaves no leap second behind.
  have moment : Moment.shifted 0 ⟨w, task⟩ = ⟨w, task⟩ := congrArg (Moment.mk · task) k.plain
  have plain := Moment.after_shifted (m := ⟨w, task⟩) 0 k.plain k.orderly
    (by rw [moment]; exact k.orderly) hr h (by rw [moment]; exact h)
  rw [moment] at plain
  refine ⟨same, plain.symm, k.orderly.turn hr, ?_⟩
  have turned : (w.shifted δ).taken.turn task = (w.taken.turn task).shifted δ := same
  rw [← turned]
  exact k.orderly_shifted.turn hr

theorem takeTurns_shifted (n : Nat) (k : w.Regular δ) (h : ∀ m ∈ turns n w, m.Bounded)
    (h' : ∀ m ∈ turns n (w.shifted δ), m.Bounded) :
    takeTurns n (w.shifted δ) = (takeTurns n w).shifted δ ∧ (takeTurns n w).Regular δ := by
  -- By induction on the turns: after each the worlds are as far apart as before.
  induction n generalizing w with
  | zero => exact ⟨rfl, k⟩
  | succ n ih =>
    have ready : (w.shifted δ).ready = w.ready := rfl
    cases hr : w.ready with
    | nil =>
      rw [takeTurns_of_ready_nil hr, takeTurns_of_ready_nil (ready.trans hr)]
      exact ⟨rfl, k⟩
    | cons task rest =>
      have head : w.ready.head? = some task := by rw [hr]; rfl
      simp only [turns, ready, hr, List.forall_mem_cons] at h h'
      obtain ⟨same, later⟩ := k.turn head h.1 h'.1
      have after : Moment.after ⟨w.shifted δ, task⟩ = (w.taken.turn task).shifted δ := same
      rw [takeTurns_succ head, takeTurns_succ (ready ▸ head), same]
      exact ih later h.2 (after ▸ h'.2)

/-- The tasks have the same turns at another time. -/
theorem settle_shifted (k : w.Regular δ) (h : ∀ m ∈ w.settling, m.Bounded)
    (h' : ∀ m ∈ (w.shifted δ).settling, m.Bounded) :
    (w.shifted δ).settle = w.settle.shifted δ ∧ w.settle.Regular δ := by
  have sweepers : (w.shifted δ).sweepers = w.sweepers := rfl
  rw [settling, size_admissions_shifted, sweepers] at h'
  rw [settle, settle, size_admissions_shifted, sweepers]
  exact takeTurns_shifted _ k h h'

/-! ### Sessions -/

theorem received_shifted (w : World) : (w.shifted δ).received = w.received := by
  have awaited (i : Nat) : (w.shifted δ).isAwaited i = w.isAwaited i := by
    simp [isAwaited, shifted, Function.comp_def, Admission.shifted]
  simp only [received, awaited]
  rfl

theorem sizes_shifted (w : World) : (w.shifted δ).sizes = w.sizes := by
  simp [sizes, shifted, Function.comp_def, Store.size_shifted]

theorem report_shifted (w : World) (result : StepResult) :
    (w.shifted δ).report (result.shifted δ) = (w.report result).shifted δ := by
  simp only [report, received_shifted, sizes_shifted, Report.shifted]
  simp [shifted, Trace.shifted]

theorem Regular.acted (k : w.Regular δ) {s : Step} (plain : ∀ t ∈ s.timestamp?, ¬ t.IsLeap)
    (h : !(w.step s).2.result.isTemporal)
    (h' : !((w.shifted δ).step (s.shifted δ)).2.result.isTemporal) :
    (w.shifted δ).acted (s.shifted δ) = (w.acted s).shifted δ ∧
      ((w.shifted δ).step (s.shifted δ)).2.result = (w.step s).2.result.shifted δ ∧
      (w.acted s).Regular δ := by
  have shown (δ : Int) : (w.shifted δ).shown #[] = (w.shown #[]).shifted δ := by
    simp [World.shown, shifted, Trace.shifted]
  have result (w : World) (s : Step) : (w.step s).2.result = ((w.shown #[]).act s).2 := rfl
  have acted (w : World) (s : Step) : w.acted s = ((w.shown #[]).act s).1 := rfl
  rw [result] at h h'
  rw [shown] at h'
  have same := act_shifted δ (w.shown #[]) s h h'
  have still : (w.shown #[]).shifted 0 = w.shown #[] := by rw [← shown, k.plain]
  have unmoved := act_shifted 0 (w.shown #[]) s h (by rwa [still, Step.shifted_zero plain])
  rw [still, Step.shifted_zero plain] at unmoved
  have moved : (w.shifted δ).acted (s.shifted δ) = (w.acted s).shifted δ := by
    rw [acted, shown, same]
    rfl
  refine ⟨moved, ?_, (congrArg Prod.fst unmoved :).symm, k.orderly.acted s, ?_⟩
  · rw [result, shown, same]
    rfl
  · rw [← moved]
    exact k.orderly_shifted.acted _

/-- A step is the same at another time, and so is its report. -/
theorem Regular.step (k : w.Regular δ) {s : Step} (plain : ∀ t ∈ s.timestamp?, ¬ t.IsLeap)
    (h : w.Bounded [s]) (h' : (w.shifted δ).Bounded [s.shifted δ]) :
    (w.shifted δ).step (s.shifted δ) = ((w.step s).1.shifted δ, (w.step s).2.shifted δ) ∧
      (w.step s).1.Regular δ := by
  obtain ⟨made, turns⟩ := bounded_singleton.1 h
  obtain ⟨made', turns'⟩ := bounded_singleton.1 h'
  obtain ⟨acted, result, regular⟩ := k.acted plain made made'
  rw [acted] at turns'
  obtain ⟨settled, later⟩ := settle_shifted regular turns turns'
  refine ⟨Prod.ext ?_ ?_, later⟩
  · exact (congrArg settle acted).trans settled
  · have report : ((w.shifted δ).step (s.shifted δ)).2 =
        (((w.shifted δ).acted (s.shifted δ)).settle).report
          ((w.shifted δ).step (s.shifted δ)).2.result := rfl
    rw [report, acted, settled, result, report_shifted]
    rfl

theorem run_shifted {steps : List Step} (k : w.Regular δ)
    (plain : ∀ s ∈ steps, ∀ t ∈ s.timestamp?, ¬ t.IsLeap) (h : w.Bounded steps)
    (h' : (w.shifted δ).Bounded (steps.map (Step.shifted δ))) :
    (w.shifted δ).run (steps.map (Step.shifted δ)) = (w.run steps).map (Report.shifted δ) := by
  induction steps generalizing w with
  | nil => rfl
  | cons s rest ih =>
    obtain ⟨first, others⟩ := List.forall_mem_cons.1 plain
    obtain ⟨bounded, h⟩ := bounded_cons.1 h
    obtain ⟨bounded', h'⟩ := bounded_cons.1 h'
    obtain ⟨same, later⟩ := k.step first bounded bounded'
    rw [same] at h'
    rw [List.map_cons, run, same]
    exact congrArg _ (ih later others h h')

/-- The date does not matter: if all times are shifted that a session is given, so are all
    that it shows, and nothing else changes. -/
theorem shifted_session (wall δ : Int) (steps : List Step)
    (plain : ∀ s ∈ steps, ∀ t ∈ s.timestamp?, ¬ t.IsLeap)
    (bounded : (starting wall).Bounded steps)
    (bounded' : (starting (wall + δ)).Bounded (steps.map (Step.shifted δ))) :
    session (wall + δ) (steps.map (Step.shifted δ)) =
      (session wall steps).map (Report.shifted δ) := by
  have start (δ : Int) : (starting wall).shifted δ = starting (wall + δ) := by
    simp [starting, shifted, Trace.shifted, Clock.starting, Clock.shifted]
  have regular : (starting wall).Regular δ :=
    ⟨by rw [start, Int.add_zero], orderly_starting wall, start δ ▸ orderly_starting _⟩
  rw [← start] at bounded'
  rw [session, session, ← start]
  exact run_shifted regular plain bounded bounded'

end

/-- A slot that others have left, a clock that is set back, and a request that waits. -/
def foreignSlot : List Step :=
  [.cache "c", .limiter "a" "c" (.spans (.ofParts 1 0) (.ofParts 5 0)) (.ok .zero),
    .put "c" (.ofIdentifier "a" "x") (.timestamp ⟨3, 500000000⟩) (.ofParts 10 0),
    .setWall 1900000000, .throttle "a" (.plain "x") 1]

/-- The session is the same a second and seven tenths earlier, and a nanosecond. -/
theorem shifted_session_foreignSlot :
    (starting 2200000000).Bounded foreignSlot ∧
      (starting (2200000000 + -1700000001)).Bounded
        (foreignSlot.map (Step.shifted (-1700000001))) ∧
      session (2200000000 + -1700000001) (foreignSlot.map (Step.shifted (-1700000001))) =
        (session 2200000000 foreignSlot).map (Report.shifted (-1700000001)) := by
  have bounded : (starting 2200000000).Bounded foreignSlot := by decide +kernel
  have bounded' : (starting (2200000000 + -1700000001)).Bounded
      (foreignSlot.map (Step.shifted (-1700000001))) := by decide +kernel
  exact ⟨bounded, bounded', shifted_session _ _ foreignSlot (by decide) bounded bounded'⟩

end World

end Turnstile
