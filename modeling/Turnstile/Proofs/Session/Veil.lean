import Turnstile.Proofs.Session.Change

/-!
# Behind a veil

Tasks do not see everything there is: no turn depends on the salts of the limiters, nor
on whether somebody waits for an answer. A `Veil` puts something else in the place of
these, and what goes on behind it is the same.

* `turn_under`, `settle_under`: a turn does to the world under a veil what it does to the
  world;
* `act_under`: so does a step that neither names an identifier nor drops a handle;
* `Step.Meets`: two steps, in two worlds, that agree in what they make of their
  identifiers; `step_eq_of_meets`: in worlds that are one under a veil they do the same;
* `report_eq_of_under`: what is reported of such worlds differs in the result of the step
  and in who waits for answers only.
-/

namespace Turnstile

/-- Where elements are changed alike before and after a map, so are arrays of them. -/
theorem map_modify {α β : Type} {f : α → β} {g : α → α} {k : β → β}
    (h : ∀ a, f (g a) = k (f a)) (as : Array α) (i : Nat) :
    (as.modify i g).map f = (as.map f).modify i k := by
  apply Array.ext_getElem?
  intro j
  simp only [Array.getElem?_map, Array.getElem?_modify]
  split
  · cases as[j]? with
    | none => rfl
    | some a => exact congrArg some (h a)
  · rfl

/-- What is put in the place of salts, and of whether somebody waits for an answer. -/
structure Veil where
  salt : Salt → Salt := id
  awaited : Bool → Bool := id

variable (f : Veil)

/-- A limiter under a veil. -/
def Limiter.under (l : Limiter) : Limiter := { l with salt := f.salt l.salt }

/-- A limiter of a session under a veil. -/
def LimiterCell.under (cell : LimiterCell) : LimiterCell :=
  { cell with limiter := cell.limiter.under f }

/-- An admission under a veil. -/
def Admission.under (a : Admission) : Admission :=
  { a with limiter := a.limiter.under f, awaited := f.awaited a.awaited }

/-- The result of a step under a veil. -/
def StepResult.under : StepResult → StepResult
  | .limiter l => .limiter (l.under f)
  | r => r

namespace World

/-- The world under a veil. -/
def under (w : World) : World :=
  { w with
    limiters := w.limiters.map (·.under f)
    admissions := w.admissions.map (·.under f) }

@[simp] theorem clock_under (w : World) : (w.under f).clock = w.clock := rfl

@[simp] theorem caches_under (w : World) : (w.under f).caches = w.caches := rfl

@[simp] theorem sweepers_under (w : World) : (w.under f).sweepers = w.sweepers := rfl

@[simp] theorem ready_under (w : World) : (w.under f).ready = w.ready := rfl

@[simp] theorem size_admissions_under (w : World) :
    (w.under f).admissions.size = w.admissions.size := Array.size_map

/-! ### Turns of admissions -/

section

variable (w : World) (i : Nat) (a : Admission)

theorem setPhase_under (phase : Phase) :
    (w.setPhase i phase).under f = (w.under f).setPhase i phase := by
  simp only [setPhase, under]
  rw [map_modify (f := Admission.under f) (g := fun a => { a with phase })
    (k := fun a => { a with phase }) fun _ => rfl]

theorem answer_under (outcome : Outcome) :
    (w.answer i outcome).under f = (w.under f).answer i outcome :=
  setPhase_under f _ i .finished

theorem abortAdmission_under (fault : Fault) :
    (w.abortAdmission i a fault).under f = (w.under f).abortAdmission i (a.under f) fault :=
  answer_under f _ i _

theorem conclude_under (outcome : Outcome) :
    (w.conclude i a outcome).under f = (w.under f).conclude i (a.under f) outcome := by
  match outcome with
  | .error reason => exact answer_under f _ i _
  | .ok delay =>
    simp only [conclude]
    split
    · exact answer_under f _ i _
    · exact congrArg (·.wait (.admission i) (w.clock.now.later delay.onTimer))
        (setPhase_under f (w.release a.lock) i (.waiting delay))

theorem logAll_under (notices : List Notice) :
    (w.logAll notices).under f = (w.under f).logAll notices := by
  rw [logAll_eq, logAll_eq]
  rfl

theorem passGate_under (kind : CallKind) (phase : Phase) (fault : Fault)
    {through through' : CacheCell → World}
    (h : ∀ cell, (through cell).under f = through' cell) :
    (w.passGate i a kind phase fault through).under f =
      (w.under f).passGate i (a.under f) kind phase fault through' := by
  have cache : (a.under f).cache = a.cache := rfl
  simp only [passGate, caches_under, cache]
  cases w.caches[a.cache]? with
  | none => rfl
  | some cell =>
    simp only
    cases cell.gate kind with
    | hold =>
      exact congrArg (·.park a.cache i)
        (setPhase_under f (w.observe (.held cell.name kind)) i phase)
    | fail => exact abortAdmission_under f w i a fault
    | pass => exact h cell

theorem storeReservation_under (d : Decision) (r : Reservation) :
    (w.storeReservation i a d r).under f = (w.under f).storeReservation i (a.under f) d r := by
  have key : (a.under f).key = a.key := rfl
  refine passGate_under f w i a _ _ _ fun cell => ?_
  have clock (v : World) (c : Call) : (v.observe c).clock = v.clock := rfl
  simp only [clock, clock_under, key]
  cases cell.store.set? w.clock.now a.key.text (.timestamp r.slot) r.lifetime with
  | none => exact abortAdmission_under f _ i a _
  | some store =>
    simp only
    rw [conclude_under, logAll_under]
    rfl

theorem carryOut_under (d : Decision) :
    (w.carryOut i a d).under f = (w.under f).carryOut i (a.under f) d := by
  simp only [carryOut]
  cases d.reservation? with
  | none =>
    simp only
    rw [conclude_under, logAll_under]
    rfl
  | some r =>
    simp only
    rw [storeReservation_under, logAll_under]
    rfl

theorem lookUp_under (reading : Timestamp) :
    (w.lookUp i a reading).under f = (w.under f).lookUp i (a.under f) reading :=
  passGate_under f w i a _ _ _ fun _ => carryOut_under f _ i a _

theorem enter_under : (w.enter i a).under f = (w.under f).enter i (a.under f) := by
  simp only [enter, clock_under]
  cases w.clock.read with
  | error fault => exact abortAdmission_under f w i a fault
  | ok reading => exact lookUp_under f w i a reading

theorem getInLine_under : (w.getInLine i a).under f = (w.under f).getInLine i (a.under f) := by
  have line : (w.under f).line (a.under f).lock = w.line a.lock := rfl
  simp only [getInLine, line]
  split
  · exact enter_under f _ i a
  · exact setPhase_under f _ i .inLine

/-- An admission has the same turn under a veil. -/
theorem admissionTurn_under : (w.admissionTurn i).under f = (w.under f).admissionTurn i := by
  have there : (w.under f).admissions[i]? = w.admissions[i]?.map (·.under f) := by simp [under]
  simp only [admissionTurn, there]
  cases w.admissions[i]? with
  | none => rfl
  | some a =>
    have phase : (a.under f).phase = a.phase := rfl
    simp only [Option.map_some, phase]
    cases a.phase with
    | issued => exact getInLine_under f w i a
    | inLine => exact enter_under f w i a
    | beforeLookup reading => exact lookUp_under f w i a reading
    | beforeStore d r => exact storeReservation_under f w i a d r
    | waiting delay => exact answer_under f _ i _
    | finished => rfl

end

/-! ### Turns of sweepers -/

section

variable (w : World) (j : Nat) (s : Sweeper) (tick : Instant)

/-- The same caches are reachable under a veil. -/
theorem reachable_under (c : Nat) : (w.under f).reachable c = w.reachable c := by
  simp only [reachable, under, Array.getElem?_map, Option.map_map, Array.any_map]
  rfl

theorem sweep_under (c : Nat) : (w.sweep c).under f = (w.under f).sweep c := by
  simp only [sweep, caches_under, clock_under]
  cases w.caches[c]? with
  | none => rfl
  | some cell => exact apply_ite (under f) ..

theorem catchUp_under (limit : Option Nat) :
    (w.catchUp j s tick limit).under f = (w.under f).catchUp j s tick limit := by
  simp only [catchUp, clock_under]
  exact apply_ite (under f) ..

theorem takeTick_under (limit : Option Nat) :
    (w.takeTick j s tick limit).under f = (w.under f).takeTick j s tick limit := by
  simp only [takeTick, clock_under, reachable_under, ← sweep_under, ← catchUp_under]
  rw [apply_ite (under f), apply_ite (under f)]
  rfl

theorem takeFirstTick_under :
    (w.takeFirstTick j s tick).under f = (w.under f).takeFirstTick j s tick := by
  simp only [takeFirstTick, clock_under, ← takeTick_under]
  exact apply_ite (under f) ..

/-- A sweeper has the same turn under a veil. -/
theorem sweeperTurn_under : (w.sweeperTurn j).under f = (w.under f).sweeperTurn j := by
  simp only [sweeperTurn, sweepers_under]
  cases w.sweepers[j]? with
  | none => rfl
  | some s =>
    simp only
    cases s.phase with
    | issued =>
      simp only [clock_under, ← takeFirstTick_under]
      exact apply_ite (under f) ..
    | first tick => exact takeFirstTick_under f w j s tick
    | ticking tick => exact takeTick_under f w j s tick _
    | behind tick => exact takeTick_under f w j s tick none
    | finished => rfl

end

/-! ### Settling -/

/-- A task has the same turn under a veil. -/
theorem turn_under (w : World) (task : Task) : (w.turn task).under f = (w.under f).turn task := by
  cases task with
  | admission i => exact admissionTurn_under f w i
  | sweeper j => exact sweeperTurn_under f w j

theorem takeTurns_under (n : Nat) (w : World) :
    (takeTurns n w).under f = takeTurns n (w.under f) := by
  induction n generalizing w with
  | zero => rfl
  | succ n ih =>
    simp only [takeTurns, ready_under]
    cases w.ready with
    | nil => rfl
    | cons task rest =>
      simp only
      rw [ih, turn_under]
      rfl

/-- The tasks have the same turns under a veil. -/
theorem settle_under (w : World) : w.settle.under f = (w.under f).settle := by
  rw [settle, settle, takeTurns_under, size_admissions_under, sweepers_under]

/-! ### Steps -/

end World

/-- A step under a veil. -/
def Step.under : Step → Step
  | .limiter name on spec salt => .limiter name on spec (salt.map f.salt)
  | s => s

/-- Whether a step neither names an identifier nor drops a handle. -/
def Step.isPlain : Step → Bool
  | .throttle .. | .dropHandle _ | .put .. | .get .. | .key _ => false
  | _ => true

/-- A step done under a veil, with its result. -/
def World.done (r : World × StepResult) : World × StepResult := (r.1.under f, r.2.under f)

/-- Limiters are made in the same way under a veil. -/
theorem LimiterSpec.make_under (spec : LimiterSpec) (reading : Except Fault Timestamp)
    (salt : Except SystemError Salt) :
    spec.make reading (salt.map f.salt) = (spec.make reading salt).map (·.under f) := by
  have make (threshold deadline : Span) :
      Limiter.make threshold deadline reading (salt.map f.salt) =
        (Limiter.make threshold deadline reading salt).map (·.under f) := by
    simp only [Limiter.make]
    split
    · rfl
    · split
      · rfl
      · cases reading with
        | error fault => rfl
        | ok now =>
          simp only
          split
          · rfl
          · cases salt <;> rfl
  cases spec <;> exact make ..

namespace World

section

variable {w v : World}

theorem limiterNamed?_under (w : World) (name : String) : (w.under f).limiterNamed? name =
    (w.limiterNamed? name).map fun (l, cell) => (l, cell.under f) := by
  simp only [limiterNamed?, under, Array.getElem?_map, Option.bind_eq_bind]
  cases w.limiterNames.get? name with
  | none => rfl
  | some l => cases h : w.limiters[l]? <;> simp [h]

theorem abandonAll_under (w : World) (is : List Nat) :
    (is.foldl abandon w).under f = is.foldl abandon (w.under f) := by
  induction is generalizing w with
  | nil => rfl
  | cons i rest ih =>
    have one : (w.abandon i).under f = (w.under f).abandon i := by
      have phases : (w.under f).admissions[i]?.map (·.isFinished) =
          w.admissions[i]?.map (·.isFinished) := by
        simp only [under, Array.getElem?_map, Option.map_map]
        rfl
      simp only [abandon, phases, ← answer_under]
      exact apply_ite (under f) ..
    rw [List.foldl_cons, List.foldl_cons, ih, one]

theorem shutDown_under (w : World) : w.shutDown.under f = (w.under f).shutDown := by
  simp only [shutDown, size_admissions_under, ← abandonAll_under]
  rfl

theorem withCache_under (w : World) (name : String)
    {act act' : Nat → CacheCell → World × StepResult}
    (h : ∀ c cell, act' c cell = done f (act c cell)) :
    (w.under f).withCache name act' = done f (w.withCache name act) := by
  have named : (w.under f).cacheNamed? name = w.cacheNamed? name := rfl
  simp only [withCache, named]
  cases w.cacheNamed? name with
  | none => rfl
  | some p => exact h _ _

/-- A plain step does the same under a veil. -/
theorem act_under (w : World) {s : Step} (h : s.isPlain) :
    (w.under f).act (s.under f) = done f (w.act s) := by
  cases s with
  | cache | dropLimiter | dropCache | advance | setWall => rfl
  | limiter name cache spec salt =>
    refine withCache_under f w cache fun c cell => ?_
    simp only [clock_under, spec.make_under]
    cases spec.make w.clock.read salt with
    | error e => rfl
    | ok limiter =>
      simp only [done, Except.map, Limiter.noticesOf, addLimiter, logAll, log, under,
        List.foldl_cons, List.foldl_nil, Array.map_push, Array.size_map, StepResult.under]
      rfl
  | clone name copy =>
    simp only [act, Step.under, limiterNamed?_under]
    cases w.limiterNamed? name <;> rfl
  | purge | clear | isEmpty | gate => exact withCache_under f w _ fun _ _ => rfl
  | sweeper cache interval =>
    refine withCache_under f w cache fun c _ => ?_
    rw [apply_ite (done f)]
    rfl
  | abort j =>
    simp only [act]
    rw [apply_ite (done f)]
    rfl
  | shutdown =>
    simp only [act, Step.under, ← shutDown_under]
    rfl
  | throttle | dropHandle | put | get | key => cases h

/-! ### Requests and entries -/

/-- The world with one more request, which stands in the queue. -/
def enrol (w : World) (a : Admission) : World :=
  { w with admissions := w.admissions.push a }.enqueue [.admission w.admissions.size]

theorem enrol_under (w : World) (a : Admission) :
    (w.enrol a).under f = (w.under f).enrol (a.under f) := by
  simp only [enrol, enqueue, under, Array.map_push, Array.size_map]

/-- Requests with the same key are issued alike under a veil. -/
theorem issueAll_eq_of_under (h : w.under f = v.under f) {l : Nat} {cell cell' : LimiterCell}
    (hc : cell.under f = cell'.under f) {id id' : String} {n : Nat}
    (hk : n ≠ 0 → cell.limiter.anonymize id = cell'.limiter.anonymize id') :
    (w.issueAll l cell id n).under f = (v.issueAll l cell' id' n).under f := by
  induction n generalizing w v with
  | zero => exact h
  | succ n ih =>
    have key := hk (Nat.succ_ne_zero n)
    refine ih ?_ fun _ => key
    have limiter : cell.limiter.under f = cell'.limiter.under f :=
      (congrArg LimiterCell.limiter hc :)
    have cache : cell.cache = cell'.cache := (congrArg LimiterCell.cache hc :)
    have one (w : World) (cell : LimiterCell) (id : String) : w.issue l cell id = w.enrol
        { owner := l, limiter := cell.limiter, cache := cell.cache,
          key := cell.limiter.anonymize id } := rfl
    rw [one, one, enrol_under, enrol_under, h, key, cache]
    simp only [Admission.under, limiter]

/-- A handle is dropped in the same way under a veil that leaves who waits for answers. -/
theorem dropHandle_under (w : World) (hf : f.awaited = id) (i : Nat) :
    (w.under f).dropHandle i = ((w.dropHandle i).1.under f, (w.dropHandle i).2) := by
  have there : (w.under f).admissions[i]? = w.admissions[i]?.map (·.under f) := by simp [under]
  have drop := map_modify (f := Admission.under f) (g := fun a => { a with awaited := false })
    (k := fun a => { a with awaited := false })
    (fun a => by simp [Admission.under, hf]) w.admissions i
  simp only [dropHandle, there]
  cases w.admissions[i]? with
  | none => rfl
  | some a =>
    have owed : ((a.under f).awaited && !(a.under f).isFinished) =
        (a.awaited && !a.isFinished) := by simp [Admission.under, hf, Admission.isFinished]
    simp only [Option.map_some, owed]
    split
    · simp only [under, drop]
    · rfl

/-- Names of limiters lead to the same limiters under a veil. -/
theorem limiterNamed?_eq_of_under (h : w.under f = v.under f) (name : String) :
    (w.limiterNamed? name = none ∧ v.limiterNamed? name = none) ∨
      ∃ l cell cell', w.limiterNamed? name = some (l, cell) ∧
        v.limiterNamed? name = some (l, cell') ∧ cell.under f = cell'.under f := by
  have e := congrArg (·.limiterNamed? name) h
  simp only [limiterNamed?_under] at e
  cases hw : w.limiterNamed? name with
  | none =>
    rw [hw] at e
    exact .inl ⟨rfl, Option.map_eq_none_iff.1 e.symm⟩
  | some p =>
    rw [hw, Option.map_some] at e
    obtain ⟨q, hq, eq⟩ := Option.map_eq_some_iff.1 e.symm
    refine .inr ⟨p.1, p.2, q.2, rfl, ?_, (congrArg Prod.snd eq :).symm⟩
    rw [hq, ← show q.1 = p.1 from (congrArg Prod.fst eq :)]

/-- What is done to the entry of the same key is done alike. -/
theorem withEntry_eq_of_under (h : w.under f = v.under f) (name : String) {k k' : KeyName}
    (hk : w.keyMeant? k = v.keyMeant? k')
    {act act' : Nat → CacheCell → String → World × StepResult}
    (ha : ∀ c cell text, done f (act c cell text) = done f (act' c cell text)) :
    done f (w.withEntry name k act) = done f (v.withEntry name k' act') := by
  have named : w.cacheNamed? name = v.cacheNamed? name := (congrArg (·.cacheNamed? name) h :)
  simp only [withEntry, withCache, named, hk]
  cases v.cacheNamed? name with
  | none => exact congrArg (·, StepResult.missing .cache) h
  | some p =>
    cases v.keyMeant? k' with
    | none => exact congrArg (·, StepResult.missing .limiter) h
    | some text => exact ha _ _ text

end

end World

/-- That two steps agree, in two worlds, in what they make of their identifiers. -/
inductive Step.Meets (w v : World) : Step → Step → Prop
  /-- They name none, and are one step under a veil. -/
  | plain {s s' : Step} : s.isPlain → s'.isPlain → s.under f = s'.under f → Meets w v s s'
  | throttle {name : String} {id id' : Identifier} {times : Nat} :
      (times ≠ 0 → w.keyMeant? (.ofIdentifier name id.render) =
        v.keyMeant? (.ofIdentifier name id'.render)) →
      Meets w v (.throttle name id times) (.throttle name id' times)
  | put {cache : String} {k k' : KeyName} {value : Value} {lifetime : Span} :
      w.keyMeant? k = v.keyMeant? k' →
      Meets w v (.put cache k value lifetime) (.put cache k' value lifetime)
  | get {cache : String} {k k' : KeyName} :
      w.keyMeant? k = v.keyMeant? k' → Meets w v (.get cache k) (.get cache k')
  /-- They drop a handle, if the veil leaves who waits for answers as it is. -/
  | drop {i : Nat} : f.awaited = id → Meets w v (.dropHandle i) (.dropHandle i)
  | key {k k' : KeyName} : w.keyMeant? k = v.keyMeant? k' → Meets w v (.key k) (.key k')

/-- Steps agree in their keys whatever was shown before. -/
theorem Step.Meets.shown {f : Veil} {w v : World} {s s' : Step} (m : Step.Meets f w v s s')
    (notices : Array Notice) : Step.Meets f (w.shown notices) (v.shown notices) s s' := by
  cases m with
  | plain hs hs' e => exact .plain hs hs' e
  | throttle hk => exact .throttle hk
  | put hk => exact .put hk
  | get hk => exact .get hk
  | drop hf => exact .drop hf
  | key hk => exact .key hk

namespace World

variable {f} {w v : World}

/-- In worlds that are one under a veil, steps that agree in their keys do the same. -/
theorem act_eq_of_meets (h : w.under f = v.under f) {s s' : Step} (m : Step.Meets f w v s s') :
    done f (w.act s) = done f (v.act s') := by
  have clock : w.clock = v.clock := (congrArg World.clock h :)
  have stored (c : Nat) (store : Store) (r : StepResult) :
      done f (w.setStore c store, r) = done f (v.setStore c store, r) :=
    (congrArg (fun u => (u.setStore c store, r.under f)) h :)
  cases m with
  | plain hs hs' e => rw [← act_under f w hs, ← act_under f v hs', h, e]
  | @throttle name id id' times hk =>
    have size : w.admissions.size = v.admissions.size := by
      simpa using congrArg (·.admissions.size) h
    have running : w.running = v.running := (congrArg World.running h :)
    simp only [act, keyMeant?] at hk ⊢
    rcases limiterNamed?_eq_of_under f h name with ⟨hw, hv⟩ | ⟨l, cell, cell', hw, hv, hc⟩
    · rw [hw, hv]
      exact congrArg (·, StepResult.missing .limiter) h
    · simp only [hw, hv, Option.map_some, Option.some.injEq] at hk ⊢
      rw [running]
      split
      · have issued := issueAll_eq_of_under f h hc (l := l)
          fun n => congrArg Key.mk (hk n)
        rw [done, done, issued, size]
      · exact congrArg (·, StepResult.fault .notRunning) h
  | put hk =>
    refine withEntry_eq_of_under f h _ hk fun c cell text => ?_
    rw [clock]
    split
    · exact congrArg (·, StepResult.fault .instantOverflow) h
    · exact stored ..
  | get hk =>
    refine withEntry_eq_of_under f h _ hk fun c cell text => ?_
    rw [clock]
    exact stored ..
  | @drop i hf =>
    have dropped (w : World) := congrArg (fun r => (r.1, StepResult.flag r.2))
      (dropHandle_under f w hf i)
    exact (dropped w).symm.trans ((congrArg (fun u => ((u.dropHandle i).1,
      StepResult.flag (u.dropHandle i).2)) h :).trans (dropped v))
  | @key k k' hk =>
    simp only [act, hk]
    cases v.keyMeant? k' with
    | none => exact congrArg (·, StepResult.missing .limiter) h
    | some text => exact congrArg (·, StepResult.key text) h

/-- In worlds that are one under a veil, but for what was shown before, steps that agree in
    their keys lead to worlds that are one under it, with such results. -/
theorem step_eq_of_meets (h : (w.shown #[]).under f = (v.shown #[]).under f) {s s' : Step}
    (m : Step.Meets f w v s s') : (w.step s).1.under f = (v.step s').1.under f ∧
      (w.step s).2.result.under f = (v.step s').2.result.under f := by
  have acted := act_eq_of_meets h (m.shown #[])
  have settled := congrArg (fun r : World × StepResult => r.1.settle) acted
  simp only [done, ← settle_under] at settled
  exact ⟨settled, (congrArg Prod.snd acted :)⟩

/-- Worlds that are one under a veil are so whatever was shown. -/
theorem shown_under_eq (h : w.under f = v.under f) :
    (w.shown #[]).under f = (v.shown #[]).under f :=
  (congrArg (fun u : World => u.shown #[]) h :)

/-- What is reported of worlds that are one under a veil, but for who waits. -/
theorem report_eq_of_under (h : w.under f = v.under f) (result : StepResult) :
    w.report result = { v.report result with outcomes := w.received } := by
  have sizes : w.sizes = v.sizes := (congrArg World.sizes h :)
  have sweepers : w.sweepers = v.sweepers := (congrArg World.sweepers h :)
  have trace : w.trace = v.trace := (congrArg World.trace h :)
  simp only [report, sizes, sweepers, trace]

end World

end Turnstile
