import Turnstile.Proofs.Cache.TimedMap
import Turnstile.Proofs.Session.Reach

/-!
# What is done to a cache in a session

In a session a cache is used directly, by steps; by limiters, in the turns of
admissions; and by sweepers. `World.records` is the log of all that, read off what
the session shows: results of steps, calls, and the sweeps that dropped something.

* `Admission.passage_recorded`, `recorded_turn`, `recorded_acted`: the log tells all
  that becomes of what is stored, turn by turn and step by step;
* `cache_is_timed_map`: so the lookups of a session are answered by a timed map.
-/

namespace Turnstile

open Store

/-! ### The log -/

/-- A call of a limiter as an event at a cache, if it is let through and comes to
    something. -/
def Call.record? (now : Instant) : Call → Option Record
  | .lookup _ key found => some ⟨⟨now, .get key.text⟩, found⟩
  | .store _ key value lifetime =>
    let event : Event := ⟨now, .set key.text value lifetime⟩
    if event.InRange then some ⟨event, none⟩ else none
  | .held _ _ => none

/-- The cache that a step uses. -/
def Step.cache? : Step → Option String
  | .put name .. | .get name _ | .purge name | .clear name => some name
  | _ => none

/-- What a lookup has found. -/
def StepResult.found? : StepResult → Option Value
  | value found => found
  | _ => none

namespace World

/-- What a cache stores: nothing, if there is no such cache. -/
def storeAt (w : World) (c : Nat) : Store := (w.caches[c]?.map CacheCell.store).getD .empty

/-- What a step asks a cache to do. -/
def asked? (w : World) : Step → Option Op
  | .put _ key value lifetime => (w.keyMeant? key).map fun text => .set text value lifetime
  | .get _ key => (w.keyMeant? key).map fun text => .get text
  | .purge _ => some .purge
  | .clear _ => some .clear
  | _ => none

/-- The use that a step makes of a cache, if it comes to something, with the answer that
    its result tells. -/
def direct (w : World) (c : Nat) (s : Step) : List Record :=
  if (s.cache?.bind w.cacheNamed?).map Prod.fst = some c then
    (w.asked? s).toList.filterMap fun op =>
      let event : Event := ⟨w.clock.now, op⟩
      if event.InRange then some ⟨event, ({ w with trace := {} }.act s).2.found?⟩ else none
  else []

end World

/-- The use that a turn makes of a cache: the calls of an admission, or the purge of a
    sweeper that drops something. -/
def Moment.records (m : Moment) (c : Nat) : List Record :=
  match m.task with
  | .admission i =>
    if m.world.admissions[i]?.map Admission.cache = some c then
      m.calls.filterMap (Call.record? m.world.clock.now)
    else []
  | .sweeper _ =>
    if m.after.storeAt c = m.world.storeAt c then [] else [⟨⟨m.world.clock.now, .purge⟩, none⟩]

namespace World

/-- The use that is made of a cache in a session that goes on from a world. -/
def records (w : World) (c : Nat) : List Step → List Record
  | [] => []
  | s :: rest =>
    w.direct c s ++ (w.acted s).settling.flatMap (·.records c) ++ (w.step s).1.records c rest

end World

/-! ### Turns -/

section

variable {log : List Record} {clock : Clock} {cell : CacheCell} {now : Instant}

/-- A store is logged if it does not fail. -/
theorem Store.record?_store (s : Store) (now : Instant) (name : String) (key : Key)
    (value : Value) (lifetime : Span) :
    (s.set? now key.text value lifetime = none ∧
      Call.record? now (.store name key value lifetime) = none) ∨
    ∃ s', s.set? now key.text value lifetime = some s' ∧
      (⟨now, .set key.text value lifetime⟩ : Event).InRange ∧
      s.perform ⟨now, .set key.text value lifetime⟩ = (none, s') ∧
      Call.record? now (.store name key value lifetime) =
        some ⟨⟨now, .set key.text value lifetime⟩, none⟩ := by
  cases he : now.add? lifetime with
  | none => simp [set?, Call.record?, Event.InRange, he]
  | some expiry => simp [set?, Call.record?, Event.InRange, perform, he]

namespace Admission

variable (a : Admission)

theorem storing_recorded (cell : CacheCell) (h : Recorded log now cell.store) (d : Decision)
    (r : Reservation) :
    let p := a.storing cell now d r
    Recorded (log ++ p.calls.filterMap (Call.record? now)) now p.store := by
  unfold storing
  split
  · have none : Call.record? now (.held cell.name .store) = none := rfl
    simpa [none] using h
  · simpa using h
  · rcases cell.store.record?_store now cell.name a.key (.timestamp r.slot) r.lifetime with
      ⟨hs, hr⟩ | ⟨store, hs, range, hp, hr⟩
    · simpa [hs, hr] using h
    · simpa [hs, hr, hp] using h.concat _ range

theorem lookingUp_recorded (h : Recorded log now cell.store) (reading : Timestamp) :
    let p := a.lookingUp cell now reading
    Recorded (log ++ p.calls.filterMap (Call.record? now)) now p.store := by
  unfold lookingUp
  split
  · have none : Call.record? now (.held cell.name .lookup) = none := rfl
    simpa [none] using h
  · simpa using h
  · have looked := h.concat (.get a.key.text) trivial
    simp only [perform] at looked
    -- What comes after the lookup goes on from the log with it.
    simp only [carryingOut]
    split
    · rename_i r _
      simpa [Call.record?] using
        a.storing_recorded { cell with store := (cell.store.get now a.key.text).2 }
          looked (a.limiter.decide (cell.store.get now a.key.text).1 reading) r
    · simpa [Call.record?] using looked

/-- The calls of a passage tell what becomes of what is stored. -/
theorem passage_recorded (h : Recorded log clock.now cell.store) :
    let p := a.passage cell clock
    Recorded (log ++ p.calls.filterMap (Call.record? clock.now)) clock.now p.store := by
  unfold passage
  split
  · exact a.lookingUp_recorded h _
  · exact a.storing_recorded cell h _ _
  · unfold entering
    split
    · simpa using h
    · exact a.lookingUp_recorded h _

end Admission

end

namespace World

variable {w : World} {log : List Record} {c : Nat}

theorem storeAt_eq {cell : CacheCell} (hc : w.caches[c]? = some cell) :
    w.storeAt c = cell.store := by
  rw [storeAt, hc]
  rfl

theorem storeAt_congr {w' : World} (h : w'.caches[c]? = w.caches[c]?) :
    w'.storeAt c = w.storeAt c := by
  rw [storeAt, h, storeAt]

/-- The log goes on in a turn. -/
theorem recorded_turn {task : Task} (o : w.Orderly) (hr : w.ready.head? = some task)
    (h : Recorded log w.clock.now (w.storeAt c)) :
    let m : Moment := ⟨w, task⟩
    Recorded (log ++ m.records c) m.after.clock.now (m.after.storeAt c) := by
  intro m
  cases task with
  | sweeper j =>
    have after : m.after = w.taken.sweeperTurn j := rfl
    have same : m.records c = [] ∧ m.after.storeAt c = w.storeAt c ∨
        m.records c = [⟨⟨w.clock.now, .purge⟩, none⟩] ∧ m.after.storeAt c ≠ w.storeAt c := by
      by_cases e : m.after.storeAt c = w.storeAt c
      · exact .inl ⟨if_pos e, e⟩
      · exact .inr ⟨if_neg e, e⟩
    rcases w.taken.sweeperTurn_cases j with e | ⟨s, -, swept⟩
    · rw [← after] at e
      rcases same with ⟨nothing, stays⟩ | ⟨-, changed⟩
      · rw [nothing, stays, List.append_nil, e]
        exact h
      · exact absurd (storeAt_congr (by rw [e]; rfl)) changed
    · rw [← after] at swept
      rw [swept.same.2.2.2.1]
      rcases same with ⟨nothing, stays⟩ | ⟨purge, changed⟩
      · rw [nothing, stays, List.append_nil]
        exact h
      · -- What has changed is there, and is purged.
        rw [purge]
        cases hc : w.caches[c]? with
        | none => exact absurd (storeAt_congr (by rw [swept.cell_none hc, hc])) changed
        | some cell =>
          rcases swept.cell hc with hc' | hc'
          · exact absurd (storeAt_congr (by rw [hc', hc])) changed
          · rw [storeAt_eq hc] at h
            rw [storeAt_eq hc']
            exact h.concat .purge trivial
  | admission i =>
    obtain ⟨a, hi, turn⟩ := o.admissionTurn_cases hr
    have after : w.taken.admissionTurn i = m.after := rfl
    rw [after] at turn
    have records : m.records c =
        if a.cache = c then m.calls.filterMap (Call.record? w.clock.now) else [] := by
      simp only [Moment.records, hi, Option.map_some, Option.some.injEq, m]
    have calls : m.calls = m.after.trace.calls.toList.drop w.trace.calls.size := rfl
    generalize hw : m.after = w' at turn calls
    cases turn with
    | joins | ends =>
      have none : m.calls = [] := by
        rw [calls]
        exact List.drop_length
      rw [records, none]
      simp only [List.filterMap_nil, ite_self, List.append_nil]
      exact h
    | @works cell _ lines hc =>
      obtain ⟨parked, e⟩ := caches_pass (w.begun lines) i a (a.passage cell w.clock) c
      have e' : (w.begun lines).caches[c]? = w.caches[c]? := rfl
      rw [e'] at e
      have shown : m.calls = (a.passage cell w.clock).calls := by
        rw [calls, calls_pass, Array.toList_appendList]
        exact List.drop_left
      have clock : (w.begun lines).clock = w.clock := rfl
      rw [records, shown, clock_pass, clock]
      by_cases here : a.cache = c
      · subst here
        rw [hc] at e
        rw [storeAt_eq hc] at h
        rw [storeAt_eq e]
        simpa using a.passage_recorded h
      · have stays : ((w.begun lines).pass i a (a.passage cell w.clock)).caches[c]? =
            w.caches[c]? := by
          rw [e]
          simp [here]
        rw [storeAt_congr stays]
        simpa [here] using h

/-- The log goes on turn by turn. -/
theorem recorded_turns (n : Nat) (o : w.Orderly) (h : Recorded log w.clock.now (w.storeAt c)) :
    Recorded (log ++ (turns n w).flatMap (·.records c)) (takeTurns n w).clock.now
      ((takeTurns n w).storeAt c) := by
  induction n generalizing w log with
  | zero => simpa [turns, takeTurns] using h
  | succ n ih =>
    cases hr : w.ready with
    | nil => simpa [turns, takeTurns, hr] using h
    | cons task rest =>
      have head : w.ready.head? = some task := by rw [hr]; rfl
      have e : Moment.after ⟨w, task⟩ = { w with ready := rest }.turn task := by
        simp [Moment.after, taken, hr]
      have next := ih (o.turn head) (recorded_turn o head h)
      simp only [turns, takeTurns, hr, List.flatMap_cons, ← List.append_assoc]
      rw [← e]
      exact next

/-! ### Steps -/

theorem cacheNamed?_eq_some_iff {name : String} {cell : CacheCell} :
    w.cacheNamed? name = some (c, cell) ↔
      w.cacheNames.get? name = some c ∧ w.caches[c]? = some cell := by
  simp only [cacheNamed?, Option.bind_eq_bind, Option.bind_eq_some_iff, Option.some.injEq,
    Prod.mk.injEq]
  constructor
  · rintro ⟨_, hn, _, hc, rfl, rfl⟩
    exact ⟨hn, hc⟩
  · rintro ⟨hn, hc⟩
    exact ⟨c, hn, cell, hc, rfl, rfl⟩

/-- A step that uses a cache does what it asks for, and nothing else. -/
theorem act_of_asked {s : Step} {name : String} {cell : CacheCell} (hs : s.cache? = some name)
    (hn : w.cacheNamed? name = some (c, cell)) {op : Op} (ho : w.asked? s = some op) :
    let done := cell.store.perform ⟨w.clock.now, op⟩
    ∃ result, w.act s = (w.setStore c done.2, result) ∧ result.found? = done.1 := by
  have hc := (cacheNamed?_eq_some_iff.1 hn).2
  cases s with
  | put cache key value lifetime =>
    cases hs
    obtain ⟨text, ht, rfl⟩ := Option.map_eq_some_iff.1 ho
    simp only [act, withEntry, withCache, hn, ht, perform]
    split
    · -- Nothing is stored by a put that fails.
      rename_i failed
      exact ⟨_, by rw [failed, Option.getD_none, setStore_self hc], rfl⟩
    · rename_i store stored
      exact ⟨_, by rw [stored, Option.getD_some], rfl⟩
  | get cache key =>
    cases hs
    obtain ⟨text, ht, rfl⟩ := Option.map_eq_some_iff.1 ho
    simp only [act, withEntry, withCache, hn, ht, perform]
    exact ⟨_, rfl, rfl⟩
  | purge cache =>
    cases hs
    cases ho
    simp only [act, withCache, hn, perform]
    exact ⟨_, rfl, rfl⟩
  | clear cache =>
    cases hs
    cases ho
    simp only [act, withCache, hn, perform]
    exact ⟨_, rfl, rfl⟩
  | _ => cases hs

/-- A step that is to use a cache that is not there, or a key that is not known, does
    nothing. -/
theorem act_of_not_asked {s : Step} {name : String} (hs : s.cache? = some name)
    (h : w.cacheNamed? name = none ∨ w.asked? s = none) : (w.act s).1 = w := by
  have missing {act : Nat → CacheCell → World × StepResult}
      (hw : w.cacheNamed? name = none ∨ ∀ c cell, (act c cell).1 = w) :
      (w.withCache name act).1 = w := by
    unfold withCache
    split
    · rfl
    · rename_i c cell hn
      rcases hw with hw | hw
      · rw [hw] at hn
        cases hn
      · exact hw c cell
  cases s with
  | put cache key value lifetime | get cache key =>
    cases hs
    exact missing (h.imp_right fun ho c cell => by rw [Option.map_eq_none_iff.1 ho])
  | purge cache | clear cache =>
    cases hs
    exact missing (h.imp_right nofun)
  | _ => cases hs

theorem storeAt_setStore {d : Nat} (store : Store) (hd : d < w.caches.size) :
    (w.setStore d store).storeAt c = if d = c then store else w.storeAt c := by
  simp only [storeAt, setStore, Array.getElem?_modify]
  split
  · subst d
    simp [hd]
  · rfl

/-- A step that uses no cache leaves what is stored. -/
theorem storeAt_acted {s : Step} (hs : s.cache? = none) :
    (w.acted s).storeAt c = w.storeAt c := by
  cases hc : w.caches[c]? with
  | some cell =>
    obtain ⟨cell', hc', change⟩ := cell_acted (s := s) hc
    rw [storeAt_eq hc, storeAt_eq hc']
    refine change.store.resolve_right fun storing => ?_
    generalize cell'.store = store at storing
    cases storing <;> cases hs
  | none =>
    have nothing : w.storeAt c = .empty := by
      rw [storeAt, hc]
      rfl
    cases hc' : (w.acted s).caches[c]? with
    | none =>
      rw [nothing, storeAt, hc']
      rfl
    | some cell =>
      obtain ⟨name, rfl⟩ := cell_acted_new hc hc'
      rw [nothing, storeAt_eq hc']

/-- The log goes on in a step that uses the cache. -/
theorem recorded_asked {s : Step} {name : String} {cell : CacheCell} {op : Op}
    (hs : s.cache? = some name) (hn : w.cacheNamed? name = some (c, cell))
    (ho : w.asked? s = some op) (h : Recorded log w.clock.now cell.store) :
    Recorded (log ++ w.direct c s) w.clock.now (cell.store.perform ⟨w.clock.now, op⟩).2 := by
  obtain ⟨result, e, answer⟩ := act_of_asked (w := w.shown #[]) hs hn ho
  have shown : ({ w with trace := {} }.act s).2.found? =
      (cell.store.perform ⟨w.clock.now, op⟩).1 := by
    have acted : { w with trace := {} }.act s = (_, result) := e
    rw [acted]
    exact answer
  by_cases range : (⟨w.clock.now, op⟩ : Event).InRange
  · have one : w.direct c s =
        [⟨⟨w.clock.now, op⟩, (cell.store.perform ⟨w.clock.now, op⟩).1⟩] := by
      simp [direct, hs, hn, ho, range, shown]
    rw [one]
    exact h.concat _ range
  · have none : w.direct c s = [] := by simp [direct, ho, range]
    rwa [none, List.append_nil, perform_of_not_inRange range]

/-- The log goes on in a step. -/
theorem recorded_acted (s : Step) (h : Recorded log w.clock.now (w.storeAt c)) :
    Recorded (log ++ w.direct c s) (w.acted s).clock.now ((w.acted s).storeAt c) := by
  refine Recorded.later ?_ (w.now_le_acted s)
  have nothing (e : (w.acted s).storeAt c = w.storeAt c) (none : w.direct c s = []) :
      Recorded (log ++ w.direct c s) w.clock.now ((w.acted s).storeAt c) := by
    rwa [e, none, List.append_nil]
  have idle {name : String} (hs : s.cache? = some name)
      (ho : w.cacheNamed? name = none ∨ w.asked? s = none) :
      (w.acted s).storeAt c = w.storeAt c := by
    have e : w.acted s = w.shown #[] := act_of_not_asked (w := w.shown #[]) hs ho
    rw [e]
    rfl
  cases hs : s.cache? with
  | none => exact nothing (storeAt_acted hs) (by simp [direct, hs])
  | some name =>
    cases hn : w.cacheNamed? name with
    | none => exact nothing (idle hs (.inl hn)) (by simp [direct, hs, hn])
    | some found =>
      obtain ⟨d, cell⟩ := found
      have hc := (cacheNamed?_eq_some_iff.1 hn).2
      cases ho : w.asked? s with
      | none => exact nothing (idle hs (.inr ho)) (by simp [direct, ho])
      | some op =>
        obtain ⟨result, e, -⟩ := act_of_asked (w := w.shown #[]) hs hn ho
        have stored : (w.acted s).storeAt c =
            if d = c then (cell.store.perform ⟨w.clock.now, op⟩).2 else w.storeAt c := by
          have acted : w.acted s = _ := congrArg Prod.fst e
          rw [acted]
          exact storeAt_setStore _ (Array.getElem?_eq_some_iff.1 hc).1
        by_cases here : d = c
        · subst here
          rw [storeAt_eq hc] at h
          rw [stored, if_pos rfl]
          exact recorded_asked hs hn ho h
        · exact nothing (by rw [stored, if_neg here]) (by simp [direct, hs, hn, here])

/-! ### Sessions -/

/-- The log goes on in a session. -/
theorem recorded_session (steps : List Step) (o : w.Orderly)
    (h : Recorded log w.clock.now (w.storeAt c)) :
    Recorded (log ++ w.records c steps) (w.final steps).clock.now ((w.final steps).storeAt c) := by
  induction steps generalizing w log with
  | nil => simpa [records, final] using h
  | cons s rest ih =>
    have acted := o.acted s
    have settled := recorded_turns (2 * ((w.acted s).admissions.size + (w.acted s).sweepers.size))
      acted (recorded_acted s h)
    have course : Course (fun _ _ => True) (w.acted s) (w.acted s).settling (w.acted s).settle :=
      .of_turns _ _
    have next := ih (course.orderly acted) settled
    rw [records, final, ← List.append_assoc, ← List.append_assoc]
    exact next

/-- A cache is a map that forgets nothing. A lookup finds the value that its key was given
    last since the cache was cleared, if there is one, as long as its time is not over;
    so lookups and purges make no difference to other lookups.

    In a session this is so for each cache and all uses of it, by steps, limiters and
    sweepers. -/
theorem cache_is_timed_map :
    (∀ {es : List Event} {now : Instant}, Past es now → ∀ key value,
      ((empty.after es).get now key).1 = some value ↔
        ∃ time lifetime, LastSet es key time value lifetime ∧
          now.nanos < time.nanos + lifetime.nanos) ∧
    (∀ {es es' : List Event} {now : Instant}, Past es now → Past es' now →
      es.filter (·.op.writes) = es'.filter (·.op.writes) →
      ∀ key, ((empty.after es).get now key).1 = ((empty.after es').get now key).1) ∧
    ∀ (wall : Int) (steps : List Step) (c : Nat),
      let log := (World.starting wall).records c steps
      let final := (World.starting wall).final steps
      Past (log.map Record.event) final.clock.now ∧
      final.storeAt c = empty.after (log.map Record.event) ∧
      ∀ {before r rest}, log = before ++ r :: rest → ∀ {key}, r.event.op = .get key →
        ∀ value, r.found = some value ↔
          ∃ time lifetime, LastSet (before.map Record.event) key time value lifetime ∧
            r.event.time.nanos < time.nanos + lifetime.nanos := by
  refine ⟨fun past => get_after_iff past, fun past past' => get_after_congr past past',
    fun wall steps c => ?_⟩
  have recorded := recorded_session (w := .starting wall) (c := c) steps (orderly_starting wall)
    (Recorded.nil _)
  exact ⟨recorded.past, recorded.stored, fun split key get => recorded.found_iff split get⟩

end World

end Turnstile
