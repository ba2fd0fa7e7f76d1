import Turnstile.Proofs.Limiter.Burst
import Turnstile.Proofs.Session.Conclusion

/-!
# Corrupt entries

A limiter takes the entry that it finds for corrupt if it is no timestamp, or one
without a successor. In a session in which nobody but limiters writes to a cache, all
that is stored there are slots (`Timestamp.Plain`, `World.Plain`). So a request is
refused as corrupt only for a slot that has no successor (`LooksUp`,
`Serving.answers_corrupt_iff`).

Such slots are not the work of others alone. A limiter may reserve them itself, by
steps of its threshold, if its threshold and its deadline reach past the last
timestamp (`Lone.corrupt_iff`).
-/

namespace Turnstile

/-- That a timestamp is in range, and not within a leap second. -/
structure Timestamp.Plain (t : Timestamp) : Prop where
  inRange : t.InRange
  leap : ¬ t.IsLeap

theorem Timestamp.Plain.add? {t s : Timestamp} {d : Span} (h : t.Plain)
    (hs : t.add? d = some s) : s.Plain := by
  refine ⟨?_, (nanos_of_add? h.leap hs).2⟩
  unfold Timestamp.add? at hs
  split at hs
  · cases hs
    assumption
  · cases hs

theorem Clock.plain_of_read {k : Clock} {t : Timestamp} (h : k.read = .ok t) : t.Plain :=
  ⟨inRange_of_read h, (nanos_of_read h).2⟩

/-- That an entry, if there is one, is a slot. -/
def Value.Plain (found : Option Value) : Prop :=
  ∀ value ∈ found, ∃ t, value = .timestamp t ∧ t.Plain

/-- What a request carries along while it is held up. -/
def Phase.Plain : Phase → Prop
  | .beforeLookup reading => reading.Plain
  | .beforeStore _ r => r.slot.Plain
  | _ => True

/-- That a cache holds nothing but slots. -/
def Store.Plain (s : Store) (now : Instant) : Prop :=
  ∀ (t : Instant) (key : String), now.nanos ≤ t.nanos → Value.Plain (s.live? t key)

/-- Who finds a slot reserves one. -/
theorem Limiter.plain_of_reservation {l : Limiter} {found : Option Value} {now : Timestamp}
    {r : Reservation} (hf : Value.Plain found) (hn : now.Plain)
    (hr : (l.decide found now).reservation? = some r) : r.slot.Plain := by
  rcases reservation_cases hr with ⟨-, hs, -⟩ | ⟨t, rfl, hs, -⟩
  · exact hn.add? hs
  · obtain ⟨t', e, plain⟩ := hf _ rfl
    cases e
    exact plain.add? hs

/-- That a slot is due within the deadline of a limiter, and has no successor. -/
structure Limiter.LastSlot (l : Limiter) (reading t : Timestamp) : Prop where
  plain : t.Plain
  due : (t.remaining reading).nanos ≤ l.deadline.nanos
  last : t.add? l.threshold = none

/-- Before the last slot there is less time left than the deadline and the threshold. -/
theorem Limiter.LastSlot.not_inRange {l : Limiter} {reading t : Timestamp}
    (k : l.LastSlot reading t) (h : reading.Plain) :
    ¬ (reading.later ⟨l.deadline.nanos + l.threshold.nanos⟩).InRange := by
  intro room
  have due := k.due
  have wait := Timestamp.nanos_remaining k.plain.leap h.leap
  have inRange := k.plain.inRange
  have last : ¬ (t.later l.threshold).InRange := by
    have none := k.last
    unfold Timestamp.add? at none
    split at none
    · cases none
    · assumption
  refine last ?_
  simp only [Timestamp.later, if_neg h.leap, if_neg k.plain.leap, Timestamp.InRange,
    Timestamp.ofNanos, Timestamp.nanos] at *
  omega

/-- Who finds a slot is refused as corrupt if this is due within the deadline and has no
    successor. -/
theorem Limiter.decide_corrupt_iff (l : Limiter) (now : Timestamp) {found : Option Value}
    (hf : Value.Plain found) : (l.decide found now).refusal? = some .corruptEntry ↔
      ∃ t, found = some (.timestamp t) ∧ l.LastSlot now t := by
  unfold decide
  cases found with
  | none => cases now.add? l.threshold <;> simp [Decision.refusal?]
  | some value =>
    obtain ⟨t, rfl, plain⟩ := hf value rfl
    simp only [Value.timestamp?, Option.some.injEq, Value.timestamp.injEq, exists_eq_left']
    split
    · rename_i late
      simp only [Decision.refusal?, Option.some.injEq, reduceCtorEq, false_iff]
      exact fun k => absurd k.due (Nat.not_le.2 late)
    · rename_i due
      cases hs : t.add? l.threshold with
      | none =>
        simp only [Decision.refusal?, true_iff]
        exact ⟨plain, Nat.le_of_not_lt due, hs⟩
      | some slot =>
        simp only [Decision.refusal?, reduceCtorEq, false_iff]
        exact fun k => by simp [k.last] at hs

/-! ### Passages -/

namespace Store.Plain

variable {s s' : Store} {now : Instant}

theorem get (h : s.Plain now) (key : String) : (s.get now key).2.Plain now := by
  intro t other ht
  rw [live?_get ht]
  exact h t other ht

theorem set? (h : s.Plain now) {key : String} {slot : Timestamp} {lifetime : Span}
    (hs : s.set? now key (.timestamp slot) lifetime = some s') (plain : slot.Plain) :
    s'.Plain now := by
  intro t other ht
  rw [live?_of_set? hs]
  split
  · split
    · intro value hv
      cases hv
      exact ⟨slot, rfl, plain⟩
    · simp [Value.Plain]
  · exact h t other ht

theorem later (h : s.Plain now) {later : Instant} (ht : now.nanos ≤ later.nanos) :
    s.Plain later :=
  fun t key hl => h t key (Nat.le_trans ht hl)

end Store.Plain

namespace Admission

variable (a : Admission) {cell : CacheCell} {now : Instant} {reading : Timestamp}

theorem storing_plain (cell : CacheCell) (h : cell.store.Plain now) {d : Decision}
    {r : Reservation} (plain : r.slot.Plain) :
    let p := a.storing cell now d r
    p.store.Plain now ∧ ∀ phase, p.exit = .held phase → phase.Plain := by
  intro p
  rcases a.storing_cases cell now d r with ⟨-, he, hs⟩ | ⟨-, _, he, hs⟩ | ⟨-, he, hs, -⟩
  · refine ⟨by rw [hs]; exact h, fun phase e => ?_⟩
    rw [he] at e
    cases e
    exact plain
  · exact ⟨by rw [hs]; exact h, by simp [p, he]⟩
  · exact ⟨h.set? hs plain, by simp [p, he]⟩

theorem lookingUp_plain (h : cell.store.Plain now) (plain : reading.Plain) :
    let p := a.lookingUp cell now reading
    p.store.Plain now ∧ ∀ phase, p.exit = .held phase → phase.Plain := by
  intro p
  rcases a.lookingUp_cases cell now reading with
    ⟨-, he, hs⟩ | ⟨-, he, hs⟩ | ⟨-, ⟨-, he, hs, -⟩ | ⟨r, hd, he, hs, -⟩⟩
  · refine ⟨by rw [hs]; exact h, fun phase e => ?_⟩
    rw [he] at e
    cases e
    exact plain
  · exact ⟨by rw [hs]; exact h, by simp [p, he]⟩
  · exact ⟨by rw [hs]; exact h.get _, by simp [p, he]⟩
  · have slot := Limiter.plain_of_reservation (h now _ (Nat.le_refl _)) plain hd
    have stored := a.storing_plain { cell with store := (cell.store.get now a.key.text).2 }
      (h.get _) slot (d := a.limiter.decide (cell.store.live? now a.key.text) reading)
    exact ⟨by rw [hs]; exact stored.1, fun phase e => stored.2 phase (he ▸ e)⟩

/-- A passage leaves nothing but slots. -/
theorem passage_plain {clock : Clock} (h : cell.store.Plain clock.now) (hp : a.phase.Plain) :
    let p := a.passage cell clock
    p.store.Plain clock.now ∧ ∀ phase, p.exit = .held phase → phase.Plain := by
  unfold passage
  split
  · rename_i e
    rw [e] at hp
    exact a.lookingUp_plain h hp
  · rename_i e
    rw [e] at hp
    exact a.storing_plain cell h hp
  · unfold entering
    split
    · exact ⟨h, by simp⟩
    · exact a.lookingUp_plain h (Clock.plain_of_read ‹_›)

/-- A store shows no lookup. -/
theorem lookup_not_mem_storing (cell : CacheCell) (d : Decision) (r : Reservation) (name : String)
    (key : Key) (found : Option Value) :
    .lookup name key found ∉ (a.storing cell now d r).calls := by
  unfold storing
  split
  · simp
  · simp
  · simp only []
    split <;> simp

/-- A store does not refuse a request as corrupt. -/
theorem storing_not_corrupt (cell : CacheCell) (d : Decision) (r : Reservation) :
    (a.storing cell now d r).exit ≠ .decided (.error .corruptEntry) := by
  rcases a.storing_cases cell now d r with ⟨-, he, -⟩ | ⟨-, _, he, -⟩ | ⟨-, he, -⟩ <;> simp [he]

/-- A lookup refuses a request as corrupt exactly if it finds a slot that is due within
    the deadline and has no successor. -/
theorem lookingUp_corrupt_iff (h : cell.store.Plain now) :
    (a.lookingUp cell now reading).exit = .decided (.error .corruptEntry) ↔
      ∃ t, (∃ name key, .lookup name key (some (.timestamp t)) ∈
          (a.lookingUp cell now reading).calls) ∧ a.limiter.LastSlot reading t := by
  have corrupt := a.limiter.decide_corrupt_iff reading
    (h now a.key.text (Nat.le_refl _))
  rw [← Store.get_fst] at corrupt
  unfold lookingUp
  split
  · simp
  · simp
  · simp only [carryingOut]
    generalize (cell.store.get now a.key.text).1 = found at corrupt ⊢
    split
    · rename_i r hr
      -- Who has a reservation is not refused at all.
      have admitted : (a.limiter.decide found reading).refusal? = none := by
        generalize a.limiter.decide found reading = d at hr
        cases d <;> first | rfl | cases hr
      rw [admitted] at corrupt
      refine ⟨fun he => (a.storing_not_corrupt _ _ _ he).elim, fun h => ?_⟩
      obtain ⟨t, ⟨name, key, shown⟩, last⟩ := h
      rcases List.mem_cons.1 shown with e | shown
      · cases e
        cases corrupt.2 ⟨t, rfl, last⟩
      · exact (a.lookup_not_mem_storing _ _ _ _ _ _ shown).elim
    · rename_i hr
      have refused : (a.limiter.decide found reading).refusal?.getD .aborted = .corruptEntry ↔
          (a.limiter.decide found reading).refusal? = some .corruptEntry := by
        cases (a.limiter.decide found reading).refusal? <;> simp
      simp only [Exit.decided.injEq, Except.error.injEq, refused, corrupt, List.mem_singleton,
        Call.lookup.injEq, exists_eq_left, exists_and_left, @eq_comm _ found]

end Admission

/-! ### Turns -/

namespace Moment

open World

/-- That a request looks up its entry in a turn, and goes by a reading of the wall clock:
    the one that it has taken before it was held up, or that of the turn. -/
structure LooksUp (m : Moment) (i : Nat) (reading : Timestamp) (found : Option Value) : Prop where
  serves : m.Serves i
  call : ∃ cache key, .lookup cache key found ∈ m.calls
  reading : m.world.phase? i = some (.beforeLookup reading) ∨
    ((m.world.phase? i).any fun p => p.stage ≤ 1) ∧ m.world.clock.read = .ok reading

variable {m : Moment} {i : Nat} {a : Admission} {cell : CacheCell}

/-- Where there are only slots, a turn refuses a request as corrupt exactly if it finds
    one that is due within the deadline and has no successor. -/
theorem Serving.answers_corrupt_iff (s : m.Serving i a cell)
    (h : cell.store.Plain m.world.clock.now) :
    (a.passage cell m.world.clock).exit = .decided (.error .corruptEntry) ↔
      ∃ reading t, m.LooksUp i reading (some (.timestamp t)) ∧
        a.limiter.LastSlot reading t := by
  have looksUp (reading : Timestamp) (found : Option Value) : m.LooksUp i reading found ↔
      (∃ cache key, .lookup cache key found ∈ (a.passage cell m.world.clock).calls) ∧
        (a.phase = .beforeLookup reading ∨
          a.phase.stage ≤ 1 ∧ m.world.clock.read = .ok reading) := by
    rw [← s.calls]
    have phase := phase?_eq s.admission
    constructor
    · rintro ⟨-, call, reading⟩
      simpa [phase] using And.intro call reading
    · rintro ⟨call, reading⟩
      exact ⟨s.serves, call, by simpa [phase] using reading⟩
  simp only [looksUp]
  -- A passage with a lookup goes by one reading.
  have byLookup (reading : Timestamp)
      (e : a.passage cell m.world.clock = a.lookingUp cell m.world.clock.now reading)
      (only : ∀ now, a.phase = .beforeLookup now ∨
        a.phase.stage ≤ 1 ∧ m.world.clock.read = .ok now ↔ now = reading) :
      (a.passage cell m.world.clock).exit = .decided (.error .corruptEntry) ↔
        ∃ now t, ((∃ cache key, .lookup cache key (some (.timestamp t)) ∈
            (a.passage cell m.world.clock).calls) ∧ (a.phase = .beforeLookup now ∨
          a.phase.stage ≤ 1 ∧ m.world.clock.read = .ok now)) ∧
          a.limiter.LastSlot now t := by
    simp only [only, e, Admission.lookingUp_corrupt_iff a h]
    constructor
    · rintro ⟨t, call, k⟩
      exact ⟨reading, t, ⟨call, rfl⟩, k⟩
    · rintro ⟨_, t, ⟨call, rfl⟩, k⟩
      exact ⟨t, call, k⟩
  cases hp : a.phase with
  | beforeLookup reading =>
    rw [← hp]
    exact byLookup reading (by simp [Admission.passage, hp])
      fun now => by simp [hp, Phase.stage, @eq_comm _ now]
  | beforeStore d r =>
    simp [Admission.passage, hp, Admission.storing_not_corrupt, Admission.lookup_not_mem_storing]
  | issued | inLine =>
    rw [← hp]
    cases hr : m.world.clock.read with
    | error => simp [Admission.passage, Admission.entering, hp, hr]
    | ok reading =>
      rw [← hr]
      exact byLookup reading (by simp [Admission.passage, Admission.entering, hp, hr])
        fun now => by simp [hp, hr, Phase.stage, @eq_comm _ now]
  | waiting | finished =>
    obtain ⟨rest, t⟩ := s.holder
    have := t.undecided
    simp [hp, Phase.stage] at this

end Moment

/-! ### Sessions -/

/-- That a step puts nothing into a cache. -/
def Untouched (c : Nat) (w : World) : Step → Prop
  | .put cache .. => w.cacheNames.get? cache ≠ some c
  | _ => True

instance (c : Nat) (w : World) (s : Step) : Decidable (Untouched c w s) :=
  match s with
  | .put .. => inferInstanceAs (Decidable (_ ≠ _))
  | .cache _ | .limiter .. | .clone .. | .dropLimiter _ | .dropCache _ | .throttle .. |
    .dropHandle _ | .advance _ | .setWall _ | .get .. | .purge _ | .clear _ | .isEmpty _ |
    .key _ | .sweeper .. | .abort _ | .gate .. | .shutdown => .isTrue trivial

namespace World

/-- That there is nothing but slots in a cache, and with those that are held up there. -/
structure Plain (w : World) (c : Nat) : Prop where
  store : ∀ {cell : CacheCell}, w.caches[c]? = some cell → cell.store.Plain w.clock.now
  phase : ∀ {i : Nat} {a : Admission}, w.admissions[i]? = some a → a.cache = c → a.phase.Plain

variable {w : World} {c : Nat} {s : Step}

theorem Plain.acted (h : w.Plain c) (hs : Untouched c w s) : (w.acted s).Plain c where
  store {cell'} hc' := by
    refine Store.Plain.later ?_ (w.now_le_acted s)
    cases hc : w.caches[c]? with
    | none =>
      obtain ⟨name, rfl⟩ := cell_acted_new hc hc'
      exact fun _ _ _ => by simp [Value.Plain]
    | some cell =>
      obtain ⟨cell'', hc'', change⟩ := cell_acted (s := s) hc
      obtain rfl : cell' = cell'' := Option.some.inj (hc'.symm.trans hc'')
      have plain := h.store hc
      rcases change.store with e | storing
      · rw [e]
        exact plain
      · generalize cell'.store = store at storing
        cases storing with
        | put hn => exact absurd hn hs
        | get => exact plain.get _
        | purge =>
          intro t key ht
          rw [Store.live?_purge ht]
          exact plain t key ht
        | clear => exact fun _ _ _ => by simp [Value.Plain]
  phase {i b} hb hc := by
    rcases admission_acted hb with ⟨a, ha, hab, e | ⟨-, e⟩⟩ | ⟨-, _, _, _, _, _, _, _, _, rfl⟩
    · rw [e]
      exact h.phase ha (hab.cache.symm.trans hc)
    · rw [e]
      trivial
    · trivial

end World

namespace Moment

open World

variable {m : Moment} {c : Nat}

theorem Serving.plain_after {i : Nat} {a : Admission} {cell : CacheCell} (s : m.Serving i a cell)
    (h : m.world.Plain c) : m.after.Plain c := by
  constructor
  case store =>
    intro cell' hc'
    rw [s.clock]
    cases hc : m.world.caches[c]? with
    | none =>
      rw [s.cell_none hc] at hc'
      cases hc'
    | some there =>
      obtain ⟨cell'', hc'', store, -⟩ := s.cell_after hc
      obtain rfl : cell' = cell'' := Option.some.inj (hc'.symm.trans hc'')
      rw [store]
      split
      · rename_i e
        subst e
        exact (a.passage_plain (h.store s.cache) (h.phase s.admission rfl)).1
      · exact h.store hc
  case phase =>
    intro j b hb hc
    obtain ⟨b', hb', rfl⟩ := s.admission_after hb
    split
    · subst j
      obtain rfl : a = b' := Option.some.inj (s.admission.symm.trans hb')
      obtain rfl : a.cache = c := hc
      have plain := (a.passage_plain (h.store s.cache) (h.phase s.admission rfl)).2
      cases he : (a.passage cell m.world.clock).exit.outcome? with
      | none =>
        obtain ⟨phase, e⟩ := Exit.held_of_outcome he
        rw [e]
        exact plain phase e
      | some outcome =>
        rcases Exit.phase_of_outcome he with ⟨e, -⟩ | ⟨_, e, -⟩ <;> rw [e] <;> trivial
    · exact h.phase hb' hc

theorem Idle.plain_after (idle : m.Idle) (h : m.world.Plain c) (o : m.world.Orderly)
    (hr : m.world.ready.head? = some m.task) : m.after.Plain c := by
  constructor
  case store =>
    intro cell' hc'
    rw [idle.clock]
    cases hc : m.world.caches[c]? with
    | none =>
      rw [show m.after.caches[c]? = _ from o.cell_turn_none hr hc] at hc'
      cases hc'
    | some cell =>
      have plain := h.store hc
      rcases idle.cell hc with e | e
      · obtain rfl : cell' = cell := Option.some.inj (hc'.symm.trans e)
        exact plain
      · obtain rfl : cell' = _ := Option.some.inj (hc'.symm.trans e)
        intro t key ht
        rw [CacheCell.purged, Store.live?_purge ht]
        exact plain t key ht
  case phase =>
    intro i b hb hc
    obtain ⟨a, ha, e, idles⟩ := idle.admission hb
    rw [e] at hc
    have plain := h.phase ha hc
    generalize a.phase = p at plain idles
    generalize b.phase = q at idles ⊢
    cases idles with
    | stays => exact plain
    | joins | ends => trivial

/-- A turn leaves nothing but slots where there were only slots. -/
theorem plain_after (h : m.world.Plain c) (o : m.world.Orderly)
    (hr : m.world.ready.head? = some m.task) : m.after.Plain c := by
  rcases serving_or_idle o hr with ⟨i, a, cell, s⟩ | idle
  · exact s.plain_after h
  · exact idle.plain_after h o hr

/-- Where there are only slots, a request is answered as corrupt in a turn exactly if it
    finds one in it that is due within the deadline and has no successor. -/
theorem answers_corrupt_iff (h : m.world.Plain c) (o : m.world.Orderly)
    (hr : m.world.ready.head? = some m.task) {i : Nat} {a : Admission}
    (hi : m.world.admissions[i]? = some a) (hc : a.cache = c) :
    (i, .error .corruptEntry) ∈ m.answers ↔
      ∃ reading t, m.LooksUp i reading (some (.timestamp t)) ∧
        a.limiter.LastSlot reading t := by
  subst hc
  rcases serving_or_idle o hr with ⟨j, b, cell, s⟩ | idle
  · by_cases hj : j = i
    · subst hj
      obtain rfl : a = b := Option.some.inj (hi.symm.trans s.admission)
      rw [← s.answers_corrupt_iff (h.store s.cache), s.answers]
      constructor
      · intro given
        obtain ⟨-, e | ⟨_, -, e⟩⟩ := Exit.cases_of_mem_answers given
        · exact e
        · cases e
      · intro e
        simp [e, Exit.answers]
    · -- Only the one that is served is answered, or looks up anything.
      constructor
      · intro given
        rw [s.answers] at given
        exact absurd (Exit.cases_of_mem_answers given).1.symm hj
      · rintro ⟨_, _, ⟨serves, -, -⟩, -⟩
        exact absurd (serves.eq s.task).symm hj
  · constructor
    · intro given
      obtain ⟨_, -, -, e⟩ := idle.answers _ given
      cases e
    · rintro ⟨_, _, ⟨serves, -, -⟩, -⟩
      exact absurd serves (idle.serves i)

/-- A reading that a request goes by is within the range of timestamps. -/
theorem LooksUp.plain {i : Nat} {a : Admission} {reading : Timestamp} {found : Option Value}
    (k : m.LooksUp i reading found) (h : m.world.Plain c)
    (hi : m.world.admissions[i]? = some a) (hc : a.cache = c) : reading.Plain := by
  rcases k.reading with before | ⟨-, now⟩
  · rw [phase?_eq hi, Option.some.injEq] at before
    have plain := h.phase hi hc
    rwa [before] at plain
  · exact Clock.plain_of_read now

end Moment

namespace Course

open World

variable {w₀ w : World} {h : List Moment} {c : Nat}

theorem plain {wall : Int} (k : Course (Untouched c) (starting wall) h w) : w.Plain c := by
  have start := orderly_starting wall
  induction k with
  | start => exact ⟨fun hc => by simp [starting] at hc, fun hi => by simp [starting] at hi⟩
  | act _ hs ih => exact ih.acted hs
  | turn k hr ih => exact Moment.plain_after ih (k.orderly start) (by rw [hr]; rfl)

/-- A request goes by what its limiter was made with. -/
theorem limiter_eq {ok : World → Step → Prop} {wall : Int} (k : Course ok (starting wall) h w)
    {m : Moment} (hm : m ∈ h) {i : Nat} {a : Admission} (ha : m.world.admissions[i]? = some a)
    {cell : LimiterCell} (hl : w.limiters[a.owner]? = some cell) : a.limiter = cell.limiter := by
  have start := orderly_starting wall
  obtain ⟨b, hb, becomes⟩ := (k.evolves_from start hm).becomes ha
  obtain ⟨cell', hl', e, -⟩ := (k.owned start (owned_starting wall)).limiter hb
  rw [becomes.owner, hl] at hl'
  cases hl'
  exact becomes.limiter.symm.trans e

end Course

namespace World

/-- A session in which a limiter alone writes to its cache. -/
structure Lone (wall : Int) (steps : List Step) (l : Nat) (cell : LimiterCell) : Prop where
  untouched : (starting wall).Along (Untouched cell.cache) steps
  limiter : ((starting wall).final steps).limiters[l]? = some cell
  /-- All requests on the cache are of the limiter. -/
  owner : ∀ a ∈ ((starting wall).final steps).admissions, a.cache = cell.cache → a.owner = l

instance (wall : Int) (steps : List Step) (l : Nat) (cell : LimiterCell) :
    Decidable (Lone wall steps l cell) :=
  decidable_of_iff ((starting wall).Along (Untouched cell.cache) steps ∧
      ((starting wall).final steps).limiters[l]? = some cell ∧
      ∀ a ∈ ((starting wall).final steps).admissions, a.cache = cell.cache → a.owner = l)
    ⟨fun h => ⟨h.1, h.2.1, h.2.2⟩, fun h => ⟨h.untouched, h.limiter, h.owner⟩⟩

/-- That a request which is there at a turn is on a cache. -/
def On (w : World) (i c : Nat) : Prop := ∃ a, w.admissions[i]? = some a ∧ a.cache = c

variable {wall : Int} {steps : List Step} {l : Nat} {cell : LimiterCell}

/-- The requests on the cache go by what the limiter was made with. -/
theorem Lone.limiter_eq (k : Lone wall steps l cell) {m : Moment}
    (hm : m ∈ (starting wall).history steps) {i : Nat} {a : Admission}
    (ha : m.world.admissions[i]? = some a) (hc : a.cache = cell.cache) :
    a.limiter = cell.limiter := by
  have course := course_history k.untouched
  obtain ⟨b, hb, becomes⟩ := (course.evolves_from (orderly_starting wall) hm).becomes ha
  have owner : a.owner = l :=
    becomes.owner.symm.trans (k.owner b (Array.mem_of_getElem? hb) (becomes.cache.trans hc))
  exact course.limiter_eq hm ha (by rw [owner, k.limiter])

/-- Where a limiter alone writes to its cache, a request is answered as corrupt in a turn
    exactly if it finds the last slot. So none is, as long as there is time for the
    deadline and the threshold after the readings that requests go by. -/
theorem Lone.corrupt_iff (k : Lone wall steps l cell) :
    let limiter := cell.limiter
    let h := (starting wall).history steps
    (∀ m ∈ h, ∀ i, m.world.On i cell.cache → ((i, .error .corruptEntry) ∈ m.answers ↔
      ∃ reading t, m.LooksUp i reading (some (.timestamp t)) ∧ limiter.LastSlot reading t)) ∧
    ((∀ m ∈ h, ∀ i, m.world.On i cell.cache → ∀ reading found, m.LooksUp i reading found →
        (reading.later ⟨limiter.deadline.nanos + limiter.threshold.nanos⟩).InRange) →
      ∀ m ∈ h, ∀ i, m.world.On i cell.cache → (i, .error .corruptEntry) ∉ m.answers) := by
  intro limiter h
  have start := orderly_starting wall
  have course := course_history k.untouched
  have iff : ∀ m ∈ h, ∀ i, m.world.On i cell.cache → ((i, .error .corruptEntry) ∈ m.answers ↔
      ∃ reading t, m.LooksUp i reading (some (.timestamp t)) ∧ limiter.LastSlot reading t) := by
    rintro m hm i ⟨a, ha, hc⟩
    obtain ⟨_, _, -, before, _, hr⟩ := course.before hm
    rw [Moment.answers_corrupt_iff before.plain (before.orderly start) (by rw [hr]; rfl) ha hc,
      k.limiter_eq hm ha hc]
  refine ⟨iff, fun room m hm i on given => ?_⟩
  obtain ⟨reading, t, looksUp, last⟩ := (iff m hm i on).1 given
  obtain ⟨a, ha, hc⟩ := on
  obtain ⟨_, _, -, before, -⟩ := course.before hm
  exact last.not_inRange (looksUp.plain before.plain ha hc)
    (room m hm i ⟨a, ha, hc⟩ reading _ looksUp)

/-- Two requests at once, with a threshold and a deadline beyond half of the time that is
    left. -/
def twoAtTheEnd : List Step :=
  [.cache "c", .limiter "a" "c" (.spans (.ofParts 5000000000000 0) (.ofParts 5000000000000 0))
    (.ok .zero), .throttle "a" (.plain "x") 2]

/-- The limiter of `twoAtTheEnd`. -/
def endLimiter : LimiterCell :=
  ⟨⟨.ofParts 5000000000000 0, .ofParts 5000000000000 0, .zero⟩, 0⟩

/-- The first request reserves the last slot for the second, which is answered that the
    entry is corrupt. -/
theorem twoAtTheEnd_run :
    Lone 0 twoAtTheEnd 0 endLimiter ∧ ∃ m ∈ (starting 0).history twoAtTheEnd,
      m.world.On 1 0 ∧ (1, .error .corruptEntry) ∈ m.answers := by
  have run : Lone 0 twoAtTheEnd 0 endLimiter ∧ ∃ m ∈ (starting 0).history twoAtTheEnd,
      (∃ a, m.world.admissions[1]? = some a ∧ a.cache = 0) ∧
        (1, .error .corruptEntry) ∈ m.answers := by
    decide +kernel
  exact run

theorem Lone.corrupt_iff_twoAtTheEnd :
    Lone 0 twoAtTheEnd 0 endLimiter ∧ ∃ m ∈ (starting 0).history twoAtTheEnd,
      (1, .error .corruptEntry) ∈ m.answers ∧
      ∃ reading t, m.LooksUp 1 reading (some (.timestamp t)) ∧
        endLimiter.limiter.LastSlot reading t := by
  obtain ⟨lone, m, hm, on, corrupt⟩ := twoAtTheEnd_run
  exact ⟨lone, m, hm, corrupt, ((Lone.corrupt_iff lone).1 m hm 1 on).1 corrupt⟩

/-- A limiter may run into the last slot by itself. -/
theorem Lone.may_be_corrupt : ¬ ∀ (wall : Int) (steps : List Step) (l : Nat) (cell : LimiterCell),
    Lone wall steps l cell → ∀ m ∈ (starting wall).history steps, ∀ i,
      m.world.On i cell.cache → (i, .error .corruptEntry) ∉ m.answers := by
  intro sound
  obtain ⟨lone, m, hm, on, corrupt⟩ := twoAtTheEnd_run
  exact sound _ _ _ _ lone m hm 1 on corrupt

end World

end Turnstile
