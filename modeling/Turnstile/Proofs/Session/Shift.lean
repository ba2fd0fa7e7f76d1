import Turnstile.Proofs.Limiter.Shift
import Turnstile.Proofs.Session.Conclusion
import Turnstile.Proofs.Session.Veil

/-!
# Turns at another time

A world can be shifted on the wall clock as a whole: the clock itself, all timestamps that
are stored, carried along by requests or shown. Nothing else depends on the date, so a turn
does in a shifted world what it does in the world, shifted: as long as the wall clock can be
read when it is, and sums of timestamps are in the range, in both (`Moment.Bounded`).

* `Admission.passage_shifted`: so it is with passages through the critical section;
* `World.sweeperTurn_shifted`: with sweepers without exception;
* `Moment.after_shifted`: and with turns, in a world without leap seconds. That it has none
  is to say that a shift by nothing leaves it as it is, so it has none after the turn.
-/

namespace Turnstile

variable (δ : Int)

/-! ### What is shifted -/

/-- The clocks with the wall clock shifted. -/
def Clock.shifted (k : Clock) : Clock := { k with wall := k.wall + δ }

/-- A phase with the timestamps shifted that a request carries along in it. -/
def Phase.shifted : Phase → Phase
  | .beforeLookup reading => .beforeLookup (reading.shifted δ)
  | .beforeStore d r => .beforeStore (d.shifted δ) (r.shifted δ)
  | p => p

/-- A call with its timestamp shifted. -/
def Call.shifted : Call → Call
  | .lookup cache key found => .lookup cache key (found.map (Value.shifted δ))
  | .store cache key value lifetime => .store cache key (value.shifted δ) lifetime
  | .held cache kind => .held cache kind

/-- A request with its phase shifted. -/
def Admission.shifted (a : Admission) : Admission := { a with phase := a.phase.shifted δ }

/-- A cache with what it stores shifted. -/
def CacheCell.shifted (cell : CacheCell) : CacheCell :=
  { cell with store := cell.store.shifted δ }

/-- A trace with its calls shifted. -/
def Trace.shifted (t : Trace) : Trace := { t with calls := t.calls.map (Call.shifted δ) }

/-- A world with all that is shifted which is on the wall clock. -/
def World.shifted (w : World) : World :=
  { w with
    clock := w.clock.shifted δ
    caches := w.caches.map (CacheCell.shifted δ)
    admissions := w.admissions.map (Admission.shifted δ)
    trace := w.trace.shifted δ }

@[simp] theorem Admission.limiter_shifted (a : Admission) : (a.shifted δ).limiter = a.limiter := rfl

@[simp] theorem Admission.cache_shifted (a : Admission) : (a.shifted δ).cache = a.cache := rfl

@[simp] theorem Admission.key_shifted (a : Admission) : (a.shifted δ).key = a.key := rfl

@[simp] theorem CacheCell.store_shifted (cell : CacheCell) :
    (cell.shifted δ).store = cell.store.shifted δ := rfl

@[simp] theorem World.now_shifted (w : World) : (w.shifted δ).clock.now = w.clock.now := rfl

@[simp] theorem World.size_admissions_shifted (w : World) :
    (w.shifted δ).admissions.size = w.admissions.size := Array.size_map

/-- The same turn in a shifted world. -/
def Moment.shifted (m : Moment) : Moment := ⟨m.world.shifted δ, m.task⟩

/-- How a turn ends, with what it goes on with shifted. -/
def Exit.shifted : Exit → Exit
  | .held phase => .held (phase.shifted δ)
  | e => e

/-- A passage with its calls and what it stores shifted. -/
def Passage.shifted (p : Passage) : Passage :=
  { p with
    calls := p.calls.map (Call.shifted δ)
    store := p.store.shifted δ
    exit := p.exit.shifted δ }

/-! ### Passages -/

theorem Phase.stage_shifted (p : Phase) : (p.shifted δ).stage = p.stage := by
  cases p <;> rfl

/-- Two readings are as far apart as the clocks. -/
theorem Clock.read_shifted {k : Clock} {t t' : Timestamp} (h : k.read = .ok t)
    (h' : (k.shifted δ).read = .ok t') : t' = t.shifted δ := by
  rw [read_eq_ofNanos h, read_eq_ofNanos h', Timestamp.shifted, Timestamp.nanos_ofNanos]
  rfl

theorem Admission.isFinished_shifted (a : Admission) :
    (a.shifted δ).isFinished = a.isFinished := by
  cases hp : a.phase <;> simp [isFinished, shifted, Phase.shifted, hp]

namespace Admission

/-- That the wall clock can be read in a passage if it is, and no sum of its decision, if one
    is made, is past the last timestamp. -/
structure Bounded (a : Admission) (cell : CacheCell) (clock : Clock) : Prop where
  read : a.phase.stage ≤ 1 → ∃ reading, clock.read = .ok reading
  ruling : cell.lookupGate = .pass → ∀ reading,
    a.phase = .beforeLookup reading ∨ a.phase.stage ≤ 1 ∧ clock.read = .ok reading →
      (a.limiter.decide (cell.store.live? clock.now a.key.text) reading).Bounded

variable (a : Admission) (cell : CacheCell) (now : Instant)

theorem storing_shifted (d : Decision) (r : Reservation) :
    (a.shifted δ).storing (cell.shifted δ) now (d.shifted δ) (r.shifted δ) =
      (a.storing cell now d r).shifted δ := by
  have gate : (cell.shifted δ).storeGate = cell.storeGate := rfl
  have set := cell.store.set?_shifted δ now a.key.text (.timestamp r.slot) r.lifetime
  unfold storing
  rw [gate]
  cases cell.storeGate with
  | hold | fail => rfl
  | pass =>
    simp only [Value.shifted] at set
    simp only [shifted, CacheCell.shifted, Reservation.shifted, set,
      Decision.noticesAfter_shifted]
    cases cell.store.set? now a.key.text (.timestamp r.slot) r.lifetime <;> rfl

theorem carryingOut_shifted (d : Decision) :
    (a.shifted δ).carryingOut (cell.shifted δ) now (d.shifted δ) =
      (a.carryingOut cell now d).shifted δ := by
  simp only [carryingOut, Decision.reservation?_shifted, Decision.refusal?_shifted,
    Decision.noticesBefore_shifted, limiter_shifted, key_shifted]
  cases d.reservation? with
  | none => rfl
  | some r =>
    simp only [Option.map_some, storing_shifted]
    rfl

/-- What is found, outside of leap seconds. -/
theorem live?_shifted_zero (hc : cell.shifted 0 = cell) (key : String) :
    (cell.store.live? now key).map (Value.shifted 0) = cell.store.live? now key := by
  have found := congrArg Prod.fst (cell.store.get_shifted 0 now key)
  rw [show cell.store.shifted 0 = cell.store from congrArg CacheCell.store hc,
    Store.get_fst] at found
  exact found.symm

theorem lookingUp_shifted (hc : cell.shifted 0 = cell) {reading : Timestamp}
    (hr : ¬ reading.IsLeap)
    (bounded : cell.lookupGate = .pass →
      (a.limiter.decide (cell.store.live? now a.key.text) reading).Bounded)
    (bounded' : cell.lookupGate = .pass → (a.limiter.decide
      ((cell.shifted δ).store.live? now a.key.text) (reading.shifted δ)).Bounded) :
    (a.shifted δ).lookingUp (cell.shifted δ) now (reading.shifted δ) =
      (a.lookingUp cell now reading).shifted δ := by
  have gate : (cell.shifted δ).lookupGate = cell.lookupGate := rfl
  have got : (cell.shifted δ).store.get now a.key.text = _ :=
    cell.store.get_shifted δ now a.key.text
  unfold lookingUp
  rw [gate]
  cases hg : cell.lookupGate with
  | hold | fail => rfl
  | pass =>
    -- The lookup finds what it found, shifted, so the decision is the same.
    have plain := live?_shifted_zero cell now hc a.key.text
    have bounded := bounded hg
    have bounded' := bounded' hg
    rw [← Store.get_fst, got] at bounded'
    rw [← Store.get_fst] at plain bounded
    have decided := a.limiter.decide_shifted δ plain hr bounded bounded'
    have carried := a.carryingOut_shifted δ { cell with store := (cell.store.get now a.key.text).2 }
      now (a.limiter.decide (cell.store.get now a.key.text).1 reading)
    simp only [limiter_shifted, key_shifted, got, decided]
    exact congrArg (fun p : Passage => { p with
      calls := .lookup cell.name a.key ((cell.store.get now a.key.text).1.map (Value.shifted δ)) ::
        p.calls }) carried

theorem entering_shifted {clock : Clock} (hc : cell.shifted 0 = cell)
    (early : a.phase.stage ≤ 1) (bounded : a.Bounded cell clock)
    (bounded' : (a.shifted δ).Bounded (cell.shifted δ) (clock.shifted δ)) :
    (a.shifted δ).entering (cell.shifted δ) (clock.shifted δ) =
      (a.entering cell clock).shifted δ := by
  have early' : (a.shifted δ).phase.stage ≤ 1 := by rwa [shifted, Phase.stage_shifted]
  obtain ⟨reading, hr⟩ := bounded.read early
  obtain ⟨reading', hr'⟩ := bounded'.read early'
  obtain rfl := Clock.read_shifted δ hr hr'
  simp only [entering, hr, hr']
  exact a.lookingUp_shifted δ cell clock.now hc (Clock.nanos_of_read hr).2
    (fun hg => bounded.ruling hg reading (.inr ⟨early, hr⟩))
    fun hg => bounded'.ruling hg _ (.inr ⟨early', hr'⟩)

/-- An undecided request has the same passage at another time. -/
theorem passage_shifted {clock : Clock} (ha : a.shifted 0 = a) (hc : cell.shifted 0 = cell)
    (undecided : a.phase.stage ≤ 2) (bounded : a.Bounded cell clock)
    (bounded' : (a.shifted δ).Bounded (cell.shifted δ) (clock.shifted δ)) :
    (a.shifted δ).passage (cell.shifted δ) (clock.shifted δ) =
      (a.passage cell clock).shifted δ := by
  have phase : (a.shifted δ).phase = a.phase.shifted δ := rfl
  unfold passage
  rw [phase]
  cases hp : a.phase with
  | issued | inLine =>
    exact a.entering_shifted δ cell hc (by simp [hp, Phase.stage]) bounded bounded'
  | beforeLookup reading =>
    have plain : reading.shifted 0 = reading := by
      have same := congrArg Admission.phase ha
      rw [shifted, hp] at same
      exact Phase.beforeLookup.inj same
    exact a.lookingUp_shifted δ cell clock.now hc (Timestamp.shifted_zero_iff.1 plain)
      (fun hg => bounded.ruling hg reading (.inl hp))
      fun hg => bounded'.ruling hg _ (.inl (by rw [phase, hp]; rfl))
  | beforeStore d r => exact a.storing_shifted δ cell clock.now d r
  | waiting | finished => simp [hp, Phase.stage] at undecided

end Admission

/-! ### Turns of admissions -/

namespace World

variable (w : World) (i : Nat) (a : Admission)

theorem setPhase_shifted (phase : Phase) :
    (w.shifted δ).setPhase i (phase.shifted δ) = (w.setPhase i phase).shifted δ := by
  simp only [setPhase, shifted]
  rw [map_modify (f := Admission.shifted δ) (g := fun a => { a with phase })
    (k := fun a => { a with phase := phase.shifted δ }) fun _ => rfl]

theorem answer_shifted (outcome : Outcome) :
    (w.shifted δ).answer i outcome = (w.answer i outcome).shifted δ :=
  setPhase_shifted δ
    { w with trace := { w.trace with answers := w.trace.answers.push (i, outcome) } } i .finished

theorem abortAdmission_shifted (fault : Fault) :
    (w.shifted δ).abortAdmission i (a.shifted δ) fault =
      (w.abortAdmission i a fault).shifted δ :=
  answer_shifted δ ((w.fault fault).release a.lock) i _

theorem conclude_shifted (outcome : Outcome) :
    (w.shifted δ).conclude i (a.shifted δ) outcome = (w.conclude i a outcome).shifted δ := by
  match outcome with
  | .error reason => exact answer_shifted δ (w.release a.lock) i _
  | .ok delay =>
    simp only [conclude]
    split
    · exact answer_shifted δ (w.release a.lock) i _
    · exact congrArg (·.wait (.admission i) (w.clock.now.later delay.onTimer))
        (setPhase_shifted δ (w.release a.lock) i (.waiting delay))

theorem park_shifted (c : Nat) : (w.shifted δ).park c i = (w.park c i).shifted δ := by
  simp only [park, shifted]
  rw [map_modify (f := CacheCell.shifted δ)
    (g := fun cell => { cell with parked := cell.parked ++ [i] })
    (k := fun cell => { cell with parked := cell.parked ++ [i] }) fun _ => rfl]

theorem setStore_shifted (c : Nat) (store : Store) :
    (w.shifted δ).setStore c (store.shifted δ) = (w.setStore c store).shifted δ := by
  simp only [setStore, shifted]
  rw [map_modify (f := CacheCell.shifted δ) (g := fun cell => { cell with store })
    (k := fun cell => { cell with store := store.shifted δ }) fun _ => rfl]

theorem exhibit_shifted (c : Nat) (calls : List Call) (notices : List Notice) (store : Store) :
    (w.shifted δ).exhibit c (calls.map (Call.shifted δ)) notices (store.shifted δ) =
      (w.exhibit c calls notices store).shifted δ := by
  have shown : (w.trace.calls ++ calls).map (Call.shifted δ) =
      w.trace.calls.map (Call.shifted δ) ++ calls.map (Call.shifted δ) :=
    Array.ext' (by simp)
  rw [exhibit, exhibit, ← setStore_shifted]
  simp only [shifted, Trace.shifted, shown]

theorem leave_shifted (e : Exit) :
    (w.shifted δ).leave i (a.shifted δ) (e.shifted δ) = (w.leave i a e).shifted δ := by
  cases e with
  | held phase =>
    simp only [leave, Exit.shifted, setPhase_shifted]
    exact park_shifted δ _ i a.cache
  | failed fault => exact abortAdmission_shifted δ w i a fault
  | decided outcome => exact conclude_shifted δ w i a outcome

theorem pass_shifted (p : Passage) :
    (w.shifted δ).pass i (a.shifted δ) (p.shifted δ) = (w.pass i a p).shifted δ := by
  rw [pass, pass, ← leave_shifted, ← exhibit_shifted]
  rfl

variable {w i a} in
theorem admission_shifted (hi : w.admissions[i]? = some a) :
    (w.shifted δ).admissions[i]? = some (a.shifted δ) := by
  simp [shifted, hi]

variable {w} in
theorem cache_shifted {c : Nat} {cell : CacheCell} (hc : w.caches[c]? = some cell) :
    (w.shifted δ).caches[c]? = some (cell.shifted δ) := by
  simp [shifted, hc]

/-! ### Turns of sweepers -/

variable (j : Nat) (s : Sweeper) (tick : Instant)

theorem reachable_shifted (c : Nat) : (w.shifted δ).reachable c = w.reachable c := by
  simp only [reachable, shifted, Array.any_map, Function.comp_def, Admission.isFinished_shifted,
    Admission.cache_shifted]

theorem sweep_shifted (c : Nat) : (w.shifted δ).sweep c = (w.sweep c).shifted δ := by
  have there : (w.shifted δ).caches[c]? = w.caches[c]?.map (CacheCell.shifted δ) := by
    simp [shifted]
  simp only [sweep, there, now_shifted]
  cases w.caches[c]? with
  | none => rfl
  | some cell =>
    simp only [Option.map_some, CacheCell.store_shifted, Store.purge_shifted,
      Store.expiredCount_shifted, Store.size_shifted, setStore_shifted]
    symm
    exact apply_ite (shifted δ) ..

theorem catchUp_shifted (limit : Option Nat) :
    (w.shifted δ).catchUp j s tick limit = (w.catchUp j s tick limit).shifted δ := by
  symm
  exact apply_ite (shifted δ) ..

theorem takeTick_shifted (limit : Option Nat) :
    (w.shifted δ).takeTick j s tick limit = (w.takeTick j s tick limit).shifted δ := by
  simp only [takeTick, reachable_shifted, sweep_shifted, catchUp_shifted]
  rw [apply_ite (shifted δ), apply_ite (shifted δ)]
  rfl

theorem takeFirstTick_shifted :
    (w.shifted δ).takeFirstTick j s tick = (w.takeFirstTick j s tick).shifted δ := by
  simp only [takeFirstTick, takeTick_shifted]
  symm
  exact apply_ite (shifted δ) ..

/-- A sweeper has the same turn at another time. -/
theorem sweeperTurn_shifted : (w.shifted δ).sweeperTurn j = (w.sweeperTurn j).shifted δ := by
  have sweepers : (w.shifted δ).sweepers = w.sweepers := rfl
  simp only [sweeperTurn, sweepers]
  cases w.sweepers[j]? with
  | none => rfl
  | some s =>
    simp only
    cases s.phase with
    | issued =>
      simp only [takeFirstTick_shifted]
      symm
      exact apply_ite (shifted δ) ..
    | first tick => exact takeFirstTick_shifted δ w j s tick
    | ticking tick => exact takeTick_shifted δ w j s tick _
    | behind tick => exact takeTick_shifted δ w j s tick none
    | finished => rfl

end World

/-! ### Turns -/

/-- What a call has found, if it is a lookup. -/
def Call.answer? : Call → Option (Option Value)
  | .lookup _ _ found => some found
  | _ => none

namespace Moment

open World

variable {m : Moment} {i : Nat} {a : Admission} {cell : CacheCell}

instance (m : Moment) (i : Nat) : Decidable (m.Enters i) :=
  inferInstanceAs (Decidable ((_ ∧ _ ∧ _) ∧ _))

/-- What the wall clock shows to a request that reads it in a turn. -/
def reading? (m : Moment) : Option (Except Fault Timestamp) :=
  match m.task with
  | .admission i => if m.Enters i then some m.world.clock.read else none
  | .sweeper _ => none

/-- The decision made in a turn, on what is found in it, and on the present or the time that
    the request has kept. -/
def ruling? (m : Moment) : Option Decision :=
  match m.task with
  | .admission i => do
    let a ← m.world.admissions[i]?
    let found ← m.calls.findSome? Call.answer?
    let reading ←
      match a.phase with
      | .beforeLookup reading => some reading
      | _ => m.world.clock.read.toOption
    some (a.limiter.decide found reading)
  | .sweeper _ => none

/-- That in a turn the wall clock can be read if it is, and no sum of a decision is past the
    last timestamp. -/
structure Bounded (m : Moment) : Prop where
  reading : ∀ r ∈ m.reading?, r.isOk
  ruling : ∀ d ∈ m.ruling?, d.Bounded

instance (m : Moment) : Decidable m.Bounded :=
  decidable_of_iff (_ ∧ _) ⟨fun ⟨hr, hd⟩ => ⟨hr, hd⟩, fun h => ⟨h.reading, h.ruling⟩⟩

theorem Serving.bounded (s : m.Serving i a cell) (b : m.Bounded) :
    a.Bounded cell m.world.clock where
  read early := by
    have enters : m.Enters i := ⟨s.serves, by simp [phase?_eq s.admission, early]⟩
    have ok := b.reading m.world.clock.read (by simp [reading?, s.task, enters])
    cases hr : m.world.clock.read with
    | error => simp [hr, Except.isOk, Except.toBool] at ok
    | ok reading => exact ⟨reading, rfl⟩
  ruling hg reading hr := by
    have looks : a.passage cell m.world.clock = a.lookingUp cell m.world.clock.now reading := by
      rcases hr with hp | ⟨early, hr⟩
      · simp [Admission.passage, hp]
      · cases hp : a.phase <;> simp_all [Phase.stage, Admission.passage, Admission.entering]
    have found : m.calls.findSome? Call.answer? =
        some (cell.store.live? m.world.clock.now a.key.text) := by
      rw [s.calls, looks, Admission.lookingUp, hg, ← Store.get_fst]
      rfl
    refine b.ruling _ ?_
    simp only [ruling?, s.task, s.admission, found]
    rcases hr with hp | ⟨early, hr⟩
    · simp [hp]
    · cases hp : a.phase <;> simp_all [Phase.stage, Except.toOption]

/-- Who goes through its critical section is served. -/
theorem serving_of_pass (o : m.world.Orderly) (hr : m.world.ready.head? = some m.task)
    (ht : m.task = .admission i) (hi : m.world.admissions[i]? = some a)
    (hc : m.world.caches[a.cache]? = some cell) (undecided : a.phase.stage ≤ 2) {v : World}
    (hv : v.admissions = m.world.admissions) {k : Clock}
    (after : m.after = v.pass i a (a.passage cell k)) : m.Serving i a cell := by
  have phase : m.after.phase? i = some (a.passage cell k).exit.phase := by
    rw [after, phase?, admissions_pass, Array.getElem?_modify, if_pos rfl, hv, hi]
    rfl
  have serves : m.Serves i := by
    refine ⟨ht, ?_, ?_⟩
    · rw [phase?_eq hi]
      cases hp : a.phase <;> simp_all [Phase.isDecided, Phase.stage]
    · rw [phase]
      intro joined
      have late : 2 ≤ (a.passage cell k).exit.phase.stage :=
        Admission.two_le_stage_passage
      simp [Option.some.inj joined, Phase.stage] at late
  obtain ⟨b, there, s⟩ := serves.serving o hr
  obtain rfl : b = a := Option.some.inj (s.admission.symm.trans hi)
  obtain rfl : there = cell := Option.some.inj (s.cache.symm.trans hc)
  exact s

/-- A passage in a turn is the same at another time, and so is what comes of it. -/
theorem after_shifted_of_pass (plain : m.world.shifted 0 = m.world) (o : m.world.Orderly)
    (o' : (m.shifted δ).world.Orderly) (hr : m.world.ready.head? = some m.task)
    (bounded : m.Bounded) (bounded' : (m.shifted δ).Bounded) (ht : m.task = .admission i)
    (hi : m.world.admissions[i]? = some a) (hc : m.world.caches[a.cache]? = some cell)
    (undecided : a.phase.stage ≤ 2) {v : World} (hv : v.admissions = m.world.admissions)
    (h : m.after = v.pass i a (a.passage cell m.world.clock))
    (h' : (m.shifted δ).after = (v.shifted δ).pass i (a.shifted δ)
      ((a.shifted δ).passage (cell.shifted δ) (m.world.clock.shifted δ))) :
    (m.shifted δ).after = m.after.shifted δ := by
  have plain_admission : a.shifted 0 = a := by
    have same := congrArg (fun w : World => w.admissions[i]?) plain
    simpa [World.shifted, hi] using same
  have plain_cell : cell.shifted 0 = cell := by
    have same := congrArg (fun w : World => w.caches[a.cache]?) plain
    simpa [World.shifted, hc] using same
  have s := serving_of_pass o hr ht hi hc undecided hv h
  have s' : (m.shifted δ).Serving i (a.shifted δ) (cell.shifted δ) :=
    serving_of_pass o' hr ht (admission_shifted δ hi) (cache_shifted δ hc)
      (by rwa [Admission.shifted, Phase.stage_shifted])
      (congrArg (Array.map (Admission.shifted δ)) hv) h'
  rw [h', a.passage_shifted δ cell plain_admission plain_cell undecided (s.bounded bounded)
    (s'.bounded bounded'), pass_shifted, ← h]

/-- A turn is the same at another time. -/
theorem after_shifted (plain : m.world.shifted 0 = m.world) (o : m.world.Orderly)
    (o' : (m.shifted δ).world.Orderly) (hr : m.world.ready.head? = some m.task)
    (bounded : m.Bounded) (bounded' : (m.shifted δ).Bounded) :
    (m.shifted δ).after = m.after.shifted δ := by
  cases ht : m.task with
  | sweeper j =>
    rw [after, after, shifted, ht]
    exact sweeperTurn_shifted δ m.world.taken j
  | admission i =>
    obtain ⟨a, hi, -⟩ := o.admissionTurn_cases (ht ▸ hr)
    obtain ⟨cell, hc⟩ : ∃ cell, m.world.caches[a.cache]? = some cell :=
      ⟨_, Array.getElem?_eq_getElem (o.cache_lt hi)⟩
    have passes {v : World} :=
      after_shifted_of_pass (v := v) δ plain o o' hr bounded bounded' ht hi hc
    -- Both turns are read off the phase of the request, which is the same.
    have turn : m.after = m.world.taken.admissionTurn i := by rw [after, ht, World.turn]
    have turn' : (m.shifted δ).after = (m.world.taken.shifted δ).admissionTurn i := by
      rw [after, shifted, ht]
      rfl
    have e := turn.trans (admissionTurn_eq (w := m.world.taken) hi hc)
    have e' := turn'.trans (admissionTurn_eq (w := m.world.taken.shifted δ)
      (admission_shifted δ hi) (cache_shifted δ hc))
    have phase : (a.shifted δ).phase = a.phase.shifted δ := rfl
    have line : (m.world.taken.shifted δ).line (a.shifted δ).lock = m.world.taken.line a.lock := rfl
    rw [phase, line] at e'
    cases hp : a.phase with
    | issued =>
      rw [hp] at e e'
      by_cases free : (m.world.taken.line a.lock).isEmpty
      · simp only [Phase.shifted, free, if_true] at e e'
        exact passes (v := m.world.taken.setLine a.lock [i]) (by simp [hp, Phase.stage]) rfl e e'
      · simp only [Phase.shifted, free, Bool.false_eq_true, if_false] at e e'
        rw [e, e', ← setPhase_shifted]
        rfl
    | inLine | beforeLookup | beforeStore =>
      rw [hp] at e e'
      exact passes (v := m.world.taken) (by simp [hp, Phase.stage]) rfl e e'
    | waiting delay =>
      rw [hp] at e e'
      simp only [Phase.shifted, finishWait] at e e'
      rw [e, e', ← answer_shifted]
      rfl
    | finished =>
      rw [hp] at e e'
      simp only [Phase.shifted] at e e'
      rw [e, e']

end Moment

end Turnstile
