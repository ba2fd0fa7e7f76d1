import Turnstile.Proofs.Session.Anonymity
import Turnstile.Proofs.Session.Provenance

/-!
# Nothing fails

A limiter is made of spans that are offsets of the wall clock, and all that it computes
from them and from any timestamp is in range, and is logged as it is. So an admission
ends by a fault only for what is outside of it: a gate of its cache fails, the wall clock
cannot be read, or an entry would outlive the monotonic clock.

* `Timestamp.natAbs_since_le`: the difference of two timestamps is an offset;
* `Admission.passage_unfailed`: what lets a passage end without a fault;
* `Admission.passage_exact`: a passage logs spans to the millisecond;
* `World.nothing_fails`: so do all requests of a session, whatever is put into its caches.
-/

namespace Turnstile

/-! ### Timestamps -/

namespace Timestamp

/-- That a timestamp is one that there is: in the range, with no more nanoseconds than a second
    has that a leap second follows. -/
def Representable (t : Timestamp) : Prop := t.InRange ∧ t.part < 2000000000

instance (t : Timestamp) : Decidable t.Representable := inferInstanceAs (Decidable (_ ∧ _))

/-- A sum is representable if there is one. -/
theorem representable_of_add? {t s : Timestamp} {d : Span} (h : t.add? d = some s) :
    s.Representable := by
  unfold add? at h
  split at h
  · rename_i range
    rw [← Option.some.inj h]
    refine ⟨range, ?_⟩
    unfold later
    split
    · split
      · assumption
      · simp only [ofNanos]
        omega
    · simp only [ofNanos]
      omega
  · cases h

/-- The difference of two timestamps is an offset of the wall clock, forwards or
    backwards. -/
theorem natAbs_since_le {t s : Timestamp} (ht : t.Representable) (hs : s.Representable) :
    (t.since s).natAbs ≤ Span.longestOffset.nanos := by
  obtain ⟨⟨first, last⟩, part⟩ := ht
  obtain ⟨⟨first', last'⟩, part'⟩ := hs
  have longest : Span.longestOffset.nanos = 9223372036854775807000000 := by decide
  simp only [firstSecond, lastSecond] at first last first' last'
  rw [longest]
  simp only [since, nanos]
  split
  · omega
  · split <;> omega

theorem remaining_le {t s : Timestamp} (ht : t.Representable) (hs : s.Representable) :
    (t.remaining s).nanos ≤ Span.longestOffset.nanos := by
  have := natAbs_since_le ht hs
  simp only [remaining]
  omega

end Timestamp

theorem Clock.representable_of_read {k : Clock} {t : Timestamp} (h : k.read = .ok t) :
    t.Representable :=
  ⟨inRange_of_read h, Nat.lt_trans (Nat.lt_of_not_le (nanos_of_read h).2) (by decide)⟩

/-- A wall clock that shows a time from the epoch to the last timestamp can be read. -/
theorem Clock.exists_read {k : Clock} (first : 0 ≤ k.wall)
    (last : k.wall < (Timestamp.lastSecond + 1) * 1000000000) : ∃ t, k.read = .ok t := by
  have range : (Timestamp.ofNanos k.wall).InRange := by
    simp only [Timestamp.lastSecond] at last
    simp only [Timestamp.InRange, Timestamp.ofNanos, Timestamp.firstSecond, Timestamp.lastSecond]
    omega
  exact ⟨_, by rw [read, if_neg (Int.not_lt.2 first), if_pos range]⟩

/-- That a value is not a timestamp, or one that there is. -/
def Value.Representable (v : Value) : Prop := ∀ t ∈ v.timestamp?, t.Representable

instance (v : Value) : Decidable v.Representable :=
  inferInstanceAs (Decidable (∀ t ∈ v.timestamp?, t.Representable))

/-! ### Limiters -/

namespace Limiter

/-- That the spans of a limiter are offsets of the wall clock. -/
structure Accepted (l : Limiter) : Prop where
  threshold : l.threshold.nanos ≤ Span.longestOffset.nanos
  deadline : l.deadline.nanos ≤ Span.longestOffset.nanos

theorem accepted_of_make {threshold deadline : Span} {reading : Except Fault Timestamp}
    {salt : Except SystemError Salt} {l : Limiter}
    (h : make threshold deadline reading salt = .ok l) : l.Accepted := by
  unfold make at h
  split at h
  · cases h
  · split at h
    · cases h
    · split at h
      · cases h
      · split at h
        · cases h
        · split at h
          · cases h
          · cases h
            constructor <;> simp only [] <;> omega

/-- Whoever is too late has found a slot. -/
theorem found_of_tooLate {l : Limiter} {found : Option Value} {reading : Timestamp}
    {remaining : Span} (h : l.decide found reading = .tooLate remaining) :
    ∃ slot, found = some (.timestamp slot) ∧ remaining = slot.remaining reading := by
  cases found with
  | none =>
    simp only [decide] at h
    split at h <;> cases h
  | some value =>
    cases value with
    | timestamp slot =>
      simp only [decide, Value.timestamp?] at h
      split at h
      · cases h
        exact ⟨slot, rfl, rfl⟩
      · split at h <;> cases h
    | text | bytes => cases h

theorem delay_le_of_outcome {l : Limiter} {found : Option Value} {reading : Timestamp}
    {delay : Span} (h : (l.decide found reading).outcome = .ok delay) :
    delay.nanos ≤ l.deadline.nanos := by
  cases hr : (l.decide found reading).reservation? with
  | none => simp [Decision.outcome, hr] at h
  | some r =>
    rw [Decision.outcome_of_reservation hr] at h
    rw [← Except.ok.inj h]
    exact delay_le hr

/-- A slot is representable. -/
theorem representable_of_reservation {l : Limiter} {found : Option Value} {reading : Timestamp}
    {r : Reservation} (h : (l.decide found reading).reservation? = some r) :
    r.slot.Representable := by
  rcases reservation_cases h with ⟨-, next, -⟩ | ⟨t, -, next, -⟩ <;>
    exact Timestamp.representable_of_add? next

end Limiter

theorem LimiterSpec.accepted_of_make {spec : LimiterSpec} {reading : Except Fault Timestamp}
    {salt : Except SystemError Salt} {l : Limiter} (h : spec.make reading salt = .ok l) :
    l.Accepted := by
  cases spec <;> exact Limiter.accepted_of_make h

/-! ### Notices -/

/-- The milliseconds of an offset fit into a word. -/
theorem Span.millisWord_eq {d : Span} (h : d.nanos ≤ longestOffset.nanos) :
    d.millisWord = d.millis := by
  have longest : longestOffset.nanos = 9223372036854775807000000 := by decide
  refine Nat.mod_eq_of_lt ?_
  simp only [millis, UInt64.size]
  omega

namespace Notice

/-- The spans that a notice gives in milliseconds, by the names of their fields. -/
def spans : Notice → List (String × Span)
  | settingsRead threshold deadline =>
    [("threshold_ms", .ofMillis threshold), ("deadline_ms", .ofMillis deadline)]
  | limiterMade threshold deadline => [("threshold_ms", threshold), ("deadline_ms", deadline)]
  | beyondDeadline _ remaining deadline => [("remaining_ms", remaining), ("deadline_ms", deadline)]
  | slotReserved _ delay | waitOver _ delay | admitted _ delay => [("delay_ms", delay)]
  | _ => []

/-- The fields of a notice that are in milliseconds. -/
def millisFields (n : Notice) : List (String × FieldValue) :=
  n.fields.filter fun (name, _) =>
    name ∈ ["threshold_ms", "deadline_ms", "delay_ms", "remaining_ms"]

/-- That a notice gives its spans exactly, in whole milliseconds. -/
def Exact (n : Notice) : Prop :=
  n.millisFields = n.spans.map fun (name, d) => (name, .number d.millis)

theorem exact_of_spans {n : Notice}
    (h : ∀ p ∈ n.spans, p.2.nanos ≤ Span.longestOffset.nanos) : n.Exact := by
  cases n <;> simp_all [Exact, millisFields, fields, spans, Span.millisWord_eq, Span.millis,
    Span.ofMillis]

/-- A notice without spans is exact. -/
theorem exact_of_nil {n : Notice} (h : n.spans = []) : n.Exact :=
  exact_of_spans (by simp [h])

theorem IsSweep.exact {n : Notice} (h : n.IsSweep) : n.Exact := by
  rcases h with rfl | ⟨_, _, rfl⟩ <;> exact exact_of_nil rfl

end Notice

/-! ### Passages -/

namespace Admission

variable {a : Admission} {cell : CacheCell} {now : Instant} {found : Option Value}
  {reading : Timestamp}

/-- That no entry which is stored with some calls outlives the monotonic clock. -/
def Fits (now : Instant) (calls : List Call) : Prop :=
  ∀ (name : String) (key : Key) (value : Value) (lifetime : Span),
    .store name key value lifetime ∈ calls → now.nanos + lifetime.nanos < Instant.limit

theorem storing_unfailed {d : Decision} {r : Reservation} (hg : cell.storeGate ≠ .fail)
    (fits : Fits now (a.storing cell now d r).calls) :
    (a.storing cell now d r).exit.faults = [] := by
  unfold storing at fits ⊢
  cases h : cell.storeGate with
  | hold => rfl
  | fail => exact absurd h hg
  | pass =>
    simp only [h] at fits ⊢
    cases hs : cell.store.set? now a.key.text (.timestamp r.slot) r.lifetime with
    | some => rfl
    | none =>
      rw [hs] at fits
      have room := fits _ _ _ _ (.head _)
      simp [Store.set?, Instant.add?, room] at hs

theorem lookingUp_unfailed (hg : ∀ kind, cell.gate kind ≠ .fail)
    (fits : Fits now (a.lookingUp cell now reading).calls) :
    (a.lookingUp cell now reading).exit.faults = [] := by
  rcases a.lookingUp_cases cell now reading with
    ⟨-, e, -⟩ | ⟨fails, -⟩ | ⟨-, ⟨-, e, -⟩ | ⟨r, -, e, -, calls⟩⟩
  · rw [e]
    rfl
  · exact absurd fails (hg .lookup)
  · rw [e]
    rfl
  · rw [e]
    refine storing_unfailed (hg .store) fun name key value lifetime call => ?_
    exact fits name key value lifetime (by rw [calls]; exact .tail _ call)

/-- A passage does not fail if no gate does, the wall clock can be read when it is, and
    what is stored fits. -/
theorem passage_unfailed {clock : Clock} (hg : ∀ kind, cell.gate kind ≠ .fail)
    (read : a.phase.stage ≤ 1 → ∃ reading, clock.read = .ok reading)
    (undecided : a.phase.stage ≤ 2) (fits : Fits clock.now (a.passage cell clock).calls) :
    (a.passage cell clock).exit.faults = [] := by
  unfold passage at fits ⊢
  cases hp : a.phase with
  | issued | inLine =>
    obtain ⟨reading, hr⟩ := read (by simp [hp, Phase.stage])
    simp only [hp, entering, hr] at fits ⊢
    exact lookingUp_unfailed hg fits
  | beforeLookup =>
    rw [hp] at fits
    exact lookingUp_unfailed hg fits
  | beforeStore =>
    rw [hp] at fits
    exact storing_unfailed (hg .store) fits
  | waiting | finished => simp [hp, Phase.stage] at undecided

theorem storing_exact (hl : a.limiter.Accepted) {r : Reservation}
    (hr : (a.limiter.decide found reading).reservation? = some r) :
    ∀ n ∈ (a.storing cell now (a.limiter.decide found reading) r).notices, n.Exact := by
  have after : ∀ n ∈ (a.limiter.decide found reading).noticesAfter a.key, n.Exact := by
    intro n hn
    cases hd : a.limiter.decide found reading with
    | next r' =>
      rw [hd] at hn hr
      obtain rfl := List.mem_singleton.1 hn
      cases hr
      have within := Limiter.delay_le (by rw [hd]; rfl)
      exact Notice.exact_of_spans (by simpa [Notice.spans] using Nat.le_trans within hl.deadline)
    | first | noFirstSlot | foreign | tooLate | noNextSlot =>
      rw [hd] at hn
      cases hn
  unfold storing
  cases cell.storeGate with
  | hold | fail => simp
  | pass =>
    simp only []
    split
    · simp
    · exact after

theorem lookingUp_exact (hl : a.limiter.Accepted) (hr : reading.Representable)
    (hs : ∀ value, cell.store.live? now a.key.text = some value → value.Representable) :
    ∀ n ∈ (a.lookingUp cell now reading).notices, n.Exact := by
  have before (found : Option Value) (hf : ∀ value, found = some value → value.Representable) :
      ∀ n ∈ (a.limiter.decide found reading).noticesBefore a.key a.limiter.deadline, n.Exact := by
    intro n hn
    cases hd : a.limiter.decide found reading with
    | tooLate remaining =>
      rw [hd] at hn
      obtain rfl := List.mem_singleton.1 hn
      obtain ⟨slot, e, rfl⟩ := Limiter.found_of_tooLate hd
      have fits := Timestamp.remaining_le (hf _ e _ rfl) hr
      exact Notice.exact_of_spans (by simpa [Notice.spans] using ⟨fits, hl.deadline⟩)
    | first | foreign | noNextSlot =>
      rw [hd] at hn
      rw [List.mem_singleton.1 hn]
      exact Notice.exact_of_nil rfl
    | next | noFirstSlot =>
      rw [hd] at hn
      cases hn
  unfold lookingUp
  cases cell.lookupGate with
  | hold | fail => simp
  | pass =>
    rw [← Store.get_fst] at hs
    generalize cell.store.get now a.key.text = answer at hs
    obtain ⟨found, store⟩ := answer
    simp only [carryingOut]
    intro n hn
    rcases List.mem_append.1 hn with hn | hn
    · exact before found hs n hn
    · split at hn
      · exact storing_exact hl ‹_› n hn
      · cases hn

/-- A passage logs spans exactly. -/
theorem passage_exact {clock : Clock} (hl : a.limiter.Accepted)
    (underway : a.phase.stage = 2 → ∃ reading calls, reading.Representable ∧
      a.limiter.Underway cell.name a.key reading calls a.phase)
    (hs : ∀ value, cell.store.live? clock.now a.key.text = some value → value.Representable) :
    ∀ n ∈ (a.passage cell clock).notices, n.Exact := by
  have entering : ∀ n ∈ (a.entering cell clock).notices, n.Exact := by
    unfold entering
    cases hr : clock.read with
    | error => simp
    | ok reading => exact lookingUp_exact hl (Clock.representable_of_read hr) hs
  unfold passage
  cases hp : a.phase with
  | beforeLookup =>
    rw [hp] at underway
    obtain ⟨reading, _, hr, rfl, -⟩ := underway rfl
    exact lookingUp_exact hl hr hs
  | beforeStore =>
    rw [hp] at underway
    obtain ⟨_, _, -, found, -, rfl, hr⟩ := underway rfl
    exact storing_exact hl hr
  | issued | inLine | waiting | finished => exact entering

end Admission

/-! ### Turns -/

namespace Moment

open World

variable {m : Moment} {i : Nat} {a : Admission} {cell : CacheCell}

/-- A turn that serves a request logs the notices of its passage. -/
theorem Serving.notices (s : m.Serving i a cell) :
    m.notices = (a.passage cell m.world.clock).notices := by
  obtain ⟨lines, h⟩ := s.after
  rw [Moment.notices, h, notices_pass, Array.toList_appendList]
  exact List.drop_left

/-- A request enters its critical section in a turn if it has not been in it. -/
theorem Serving.enters_iff (s : m.Serving i a cell) : m.Enters i ↔ a.phase.stage ≤ 1 := by
  rw [Moment.Enters, phase?_eq s.admission]
  simp [s.serves]

/-- A turn that serves no request shows no fault of an admission, and logs no more than
    that a wait is over, or what a sweeper does. -/
theorem serving_or_quiet (o : m.world.Orderly) (hr : m.world.ready.head? = some m.task) :
    (∃ i a cell, m.Serving i a cell) ∨
      (∀ i, m.task = .admission i → m.faults = []) ∧
        ∀ n ∈ m.notices, n.IsSweep ∨ ∃ (i : Nat) (a : Admission) (delay : Span),
          m.world.admissions[i]? = some a ∧ a.phase = .waiting delay ∧
            n = .waitOver a.key delay := by
  have unshown (h : m.after.trace.notices = m.world.trace.notices) : m.notices = [] := by
    simp [Moment.notices, h]
  have faultless (h : m.after.trace.faults = m.world.trace.faults) : m.faults = [] := by
    simp [Moment.faults, h]
  cases ht : m.task with
  | sweeper j =>
    refine .inr ⟨fun i hi => Task.noConfusion hi, fun n hn => .inl ?_⟩
    have after := after_of_sweeper ht
    rcases m.world.taken.sweeperTurn_logsSweep j with same | ⟨n', logged, sweep⟩
    · rw [unshown (by rw [after, same]; rfl)] at hn
      cases hn
    · have one : m.notices = [n'] := by
        rw [Moment.notices, after, logged, Array.toList_push]
        exact List.drop_left
      rw [one] at hn
      rwa [List.mem_singleton.1 hn]
  | admission i =>
    obtain ⟨a, hi, turn⟩ := admissionTurn_cases o hr ht
    generalize hw : m.after = w' at turn
    cases turn with
    | @works cell rest lines hc t b => exact .inl ⟨i, a, cell, ht, hi, hc, ⟨rest, t⟩, lines, hw⟩
    | joins =>
      refine .inr ⟨fun _ _ => faultless (by rw [hw]; rfl), fun n hn => ?_⟩
      rw [unshown (by rw [hw]; rfl)] at hn
      cases hn
    | @ends delay hp =>
      refine .inr ⟨fun _ _ => faultless (by rw [hw]; rfl),
        fun n hn => .inr ⟨i, a, delay, hi, hp, ?_⟩⟩
      simpa [Moment.notices, hw, finishWait, answer, log, setPhase, taken] using hn

end Moment

/-! ### Sessions -/

namespace World

/-- That a step leaves it at that: it is no shutdown, makes no gate fail, and puts no
    timestamp that there is not. -/
def Harmless (_ : World) : Step → Prop
  | .shutdown => False
  | .gate _ _ mode => mode ≠ .fail
  | .put _ _ value _ => value.Representable
  | _ => True

instance (w : World) (s : Step) : Decidable (Harmless w s) :=
  match s with
  | .shutdown => .isFalse id
  | .gate _ _ mode => inferInstanceAs (Decidable (mode ≠ .fail))
  | .put _ _ value _ => inferInstanceAs (Decidable value.Representable)
  | .cache _ | .limiter .. | .clone .. | .dropLimiter _ | .dropCache _ | .throttle .. |
    .dropHandle _ | .advance _ | .setWall _ | .get .. | .purge _ | .clear _ | .isEmpty _ |
    .key _ | .sweeper .. | .abort _ => .isTrue trivial

end World

namespace Moment

open World

/-- That nothing is in the way of a request: the wall clock shows a time from the epoch to
    the last timestamp when it reads it, and the time that the entries of its limiter live
    ends within the range of the monotonic clock when it stores one. -/
structure Spared (h : List Moment) (i : Nat) : Prop where
  reading : ∀ m ∈ h, m.Enters i → 0 ≤ m.world.clock.wall ∧
    m.world.clock.wall < (Timestamp.lastSecond + 1) * 1000000000
  writing : ∀ m ∈ h, m.Serves i → ∀ a, m.world.admissions[i]? = some a →
    ∀ name key value lifetime, .store name key value lifetime ∈ m.calls →
      m.world.clock.now.nanos + a.limiter.entryTime < Instant.limit

end Moment

open World Moment

/-- That nothing fails in a session. -/
structure Faultless (wall : Int) (steps : List Step) : Prop where
  /-- A request that is spared does not fail in any turn. -/
  unfailed : ∀ i, Spared ((starting wall).history steps) i →
    ∀ m ∈ (starting wall).history steps, m.task = .admission i → m.faults = []
  /-- It is not answered as aborted. -/
  answered : ∀ i, Spared ((starting wall).history steps) i →
    ∀ before s after, steps = before ++ s :: after →
      (i, .error .aborted) ∉ (((starting wall).final before).step s).2.outcomes
  /-- If all requests are, the only faults are those of sweepers without an interval. -/
  faults : (∀ i, Spared ((starting wall).history steps) i) →
    ∀ before s after, steps = before ++ s :: after →
      ∀ f ∈ (((starting wall).final before).step s).2.faults, f = .zeroInterval
  /-- Every request has a stripe. -/
  stripe : ∀ a ∈ ((starting wall).final steps).admissions, a.lock.stripe < stripeCount
  /-- The difference of the slot that a request finds from the reading that it goes by is
      an offset of the wall clock. -/
  difference : ∀ m ∈ (starting wall).history steps, ∀ i a slot,
    m.Asks i a (some (.timestamp slot)) → ∃ reading,
      GoesBy ((starting wall).history steps) i reading ∧
        (slot.since reading).natAbs ≤ Span.longestOffset.nanos
  /-- All spans are logged to the millisecond. -/
  exact : ∀ before s after, steps = before ++ s :: after →
    ∀ n ∈ (((starting wall).final before).step s).2.notices, n.Exact

namespace Course

variable {ok : World → Step → Prop} {w : World} {h : List Moment} {wall : Int}

/-- The limiters of a session are accepted. -/
theorem accepted (k : Course ok (starting wall) h w) {l : Nat} {cell : LimiterCell}
    (hl : w.limiters[l]? = some cell) : cell.limiter.Accepted := by
  induction k with
  | start => simp [starting] at hl
  | @act h w s _ _ ih =>
    rcases made_acted w s with ⟨same, -⟩ | ⟨_, _, _, made, c, accepted, more, -⟩
    · exact ih (by rwa [same] at hl)
    · rw [more, Array.getElem?_push] at hl
      split at hl
      · cases hl
        exact LimiterSpec.accepted_of_make accepted
      · exact ih hl
  | @turn h w task rest k hr ih =>
    have head : w.ready.head? = some task := by rw [hr]; rfl
    rw [Moment.after, (k.orderly (orderly_starting wall)).limiters_turn head] at hl
    exact ih hl

/-- No gate fails. -/
theorem unbarred (k : Course Harmless (starting wall) h w) {c : Nat} {cell : CacheCell}
    (hc : w.caches[c]? = some cell) (kind : CallKind) : cell.gate kind ≠ .fail := by
  induction k generalizing cell with
  | start => simp [starting] at hc
  | @act h w s _ hs ih =>
    cases hc' : w.caches[c]? with
    | none =>
      obtain ⟨name, rfl⟩ := cell_acted_new hc' hc
      cases kind <;> simp [CacheCell.gate]
    | some there =>
      obtain ⟨cell', hc'', change⟩ := cell_acted (s := s) hc'
      obtain rfl : cell = cell' := Option.some.inj (hc.symm.trans hc'')
      rcases change.gate kind with same | ⟨_, mode, rfl, -, set⟩
      · rw [same]
        exact ih hc'
      · rw [set]
        exact hs
  | @turn h w task rest k hr ih =>
    have o := k.orderly (orderly_starting wall)
    obtain ⟨there, hc', -, gates⟩ := o.cell_before (by rw [hr]; rfl) hc
    rw [gates]
    exact ih hc'

/-- All timestamps in caches are representable. -/
theorem representable (k : Course Harmless (starting wall) h w) {c : Nat} {cell : CacheCell}
    (hc : w.caches[c]? = some cell) {text : String} {e : Entry}
    (he : cell.store.stored? text = some e) : e.value.Representable := by
  have stored := k.stored (fun _ _ e => e.value.Representable) (fun harmless put => by
    obtain ⟨_, _, _, rfl, -⟩ := put
    exact harmless) hc he
  refine stored.elim id fun ⟨m, hm, i, a, sets, _⟩ => ?_
  obtain ⟨-, _, slot, _, call, value, -⟩ := sets.leaves
  obtain ⟨-, found, reading, r, hr, e, -⟩ := k.reserved hm sets.serves sets.admission call
  intro t ht
  rw [value, e] at ht
  rw [← Option.some.inj ht]
  exact Limiter.representable_of_reservation hr

theorem representable_of_live? (k : Course Harmless (starting wall) h w) {c : Nat}
    {cell : CacheCell} (hc : w.caches[c]? = some cell) {now : Instant} {text : String}
    {value : Value} (hv : cell.store.live? now text = some value) : value.Representable := by
  obtain ⟨e, he, rfl, -⟩ := Store.stored?_of_live? hv
  exact k.representable hc he

/-- A request that is spared does not fail in any turn. -/
theorem unfailed (k : Course Harmless (starting wall) h w) {i : Nat} (spared : Spared h i)
    {m : Moment} (hm : m ∈ h) (ht : m.task = .admission i) : m.faults = [] := by
  obtain ⟨before, after, -, k', rest, hr⟩ := k.before hm
  have o := k'.orderly (orderly_starting wall)
  rcases serving_or_quiet o (by rw [hr]; rfl) with ⟨j, a, cell, s⟩ | ⟨quiet, -⟩
  · obtain rfl : i = j := Task.admission.inj (ht.symm.trans s.task)
    obtain ⟨rest', t⟩ := s.holder
    rw [s.faults]
    refine Admission.passage_unfailed (k'.unbarred s.cache) (fun early => ?_) t.undecided ?_
    · obtain ⟨first, last⟩ := spared.reading m hm (s.enters_iff.2 early)
      exact Clock.exists_read first last
    · intro name key value lifetime call
      rw [← s.calls] at call
      have room := spared.writing m hm s.serves a s.admission name key value lifetime call
      obtain ⟨-, found, reading, r, reserved, -, rfl⟩ := k.reserved hm s.serves s.admission call
      exact Nat.lt_of_le_of_lt (Nat.add_le_add_left (Limiter.lifetime_le reserved) _) room
  · exact quiet i ht

/-- All spans are logged exactly. -/
theorem exact (k : Course Harmless (starting wall) h w) {m : Moment} (hm : m ∈ h) :
    ∀ n ∈ m.notices, n.Exact := by
  have start := orderly_starting wall
  obtain ⟨before, after, -, k', rest, hr⟩ := k.before hm
  have accepted {i : Nat} {a : Admission} (ha : m.world.admissions[i]? = some a) :
      a.limiter.Accepted := by
    obtain ⟨cell, hl, e, -⟩ := (k'.owned start (owned_starting wall)).limiter ha
    rw [e]
    exact k'.accepted hl
  rcases serving_or_quiet (k'.orderly start) (by rw [hr]; rfl) with ⟨i, a, cell, s⟩ | ⟨-, quiet⟩
  · rw [s.notices]
    obtain ⟨cell', hc', knows⟩ := k'.informed s.admission
    obtain rfl : cell = cell' := Option.some.inj (s.cache.symm.trans hc')
    have live (value : Value) (hv : cell.store.live? m.world.clock.now a.key.text = some value) :=
      k'.representable_of_live? s.cache hv
    refine Admission.passage_exact (accepted s.admission) (fun within => ?_) live
    obtain ⟨reading, ⟨⟨n, hn, enters⟩, all⟩, underway⟩ := knows.inside within
    exact ⟨reading, _, Clock.representable_of_read (all n hn enters), underway⟩
  · intro n hn
    rcases quiet n hn with sweep | ⟨i, a, delay, ha, hp, rfl⟩
    · exact sweep.exact
    · -- Who has waited was admitted within the deadline.
      obtain ⟨-, m', hm', hd⟩ := k'.decision_of_waiting (by rw [phase?_eq ha, hp])
      obtain ⟨a', cell, e, ha', -, he, -, ended⟩ := k'.ended_of_decision hm' hd
      obtain rfl : a = a' := Option.some.inj (ha.symm.trans ha')
      rw [Exit.decided_of_ne_aborted he (by simp)] at ended
      obtain ⟨reading, -, found, outcome, -⟩ := ended.resolve_left (by simp)
      have within := Limiter.delay_le_of_outcome outcome.symm
      exact Notice.exact_of_spans
        (by simpa [Notice.spans] using Nat.le_trans within (accepted ha).deadline)

end Course

namespace World

/-- In every session nothing fails: neither a request that is spared, nor its arithmetic,
    nor the log of it. -/
theorem nothing_fails {wall : Int} {steps : List Step}
    (harmless : (starting wall).Along Harmless steps) : Faultless wall steps := by
  have start := orderly_starting wall
  have course := course_history harmless
  -- What comes after a step is part of the history.
  have among {before after : List Step} {s : Step} (e : steps = before ++ s :: after)
      {m : Moment} (hm : m ∈ (((starting wall).final before).acted s).settling) :
      m ∈ (starting wall).history steps := by
    rw [e, ← List.singleton_append, ← List.append_assoc, history_append, history_concat]
    exact List.mem_append_left _ (List.mem_append_right _ hm)
  constructor
  case unfailed => exact fun i spared m hm => course.unfailed spared hm
  case answered =>
    intro i spared before s after e hx
    generalize ho : Except.error Refusal.aborted = o at hx
    cases grounds wall before s hx with
    | concluded _ decided => exact decided ho.symm
    | failed hm serving exit =>
      have none := course.unfailed spared (among e hm) serving.task
      rw [serving.faults, exit] at none
      cases none
    | shutdown stop =>
      subst e stop
      exact ((along_append ..).1 harmless).2.1
  case faults =>
    intro spared before s after e f hf
    have orderly := (course_history ((starting wall).along_true before)).orderly start
    rw [faults_step orderly] at hf
    obtain ⟨m, hm, hf⟩ := List.mem_flatMap.1 hf
    obtain ⟨orderly, head⟩ := (course_settling _ s).orderly_at (orderly.acted s) hm
    have shown := (Moment.faults_after orderly head).2 f hf
    refine shown.resolve_left fun ⟨i, ht⟩ => ?_
    rw [course.unfailed (spared i) (among e hm) ht] at hf
    cases hf
  case stripe => exact fun a _ => Nat.mod_lt _ (by decide)
  case difference =>
    intro m hm i a slot asks
    obtain ⟨reading, goes⟩ := course.goesBy_of_asks hm asks
    obtain ⟨before, after, -, k', rest, hr⟩ := course.before hm
    obtain ⟨a', cell, s⟩ := asks.serves.serving (k'.orderly start) (by rw [hr]; rfl)
    obtain rfl : a = a' := Option.some.inj (asks.admission.symm.trans s.admission)
    obtain ⟨name, call⟩ := asks.call
    obtain ⟨e, stored, value, -⟩ := s.found call
    have slot_representable := k'.representable s.cache stored
    rw [value] at slot_representable
    obtain ⟨n, hn, enters⟩ := goes.1
    have read := Clock.representable_of_read (goes.2 n hn enters)
    exact ⟨reading, goes, Timestamp.natAbs_since_le (slot_representable slot rfl) read⟩
  case exact =>
    intro before s after e n hn
    have orderly := (course_history ((starting wall).along_true before)).orderly start
    have logged := (notices_perm orderly s).mem_iff.1 hn
    rcases List.mem_append.1 logged with made | turn
    · rcases made_acted ((starting wall).final before) s with
        ⟨-, none⟩ | ⟨_, _, _, l, _, ok, -, one⟩
      · simp [none] at made
      · obtain rfl : n = .limiterMade l.threshold l.deadline := by simpa [one] using made
        have accepted := LimiterSpec.accepted_of_make ok
        exact Notice.exact_of_spans
          (by simpa [Notice.spans] using ⟨accepted.threshold, accepted.deadline⟩)
    · obtain ⟨m, hm, hn⟩ := List.mem_flatMap.1 turn
      exact course.exact (among e hm) n hn

/-- A slot in a leap second of the last minutes of all timestamps, in the cache of a limiter
    that would wait for it. -/
def farAhead : List Step :=
  [.cache "c", .limiter "a" "c" (.spans (.ofParts 1 0) .longestOffset) (.ok .zero),
    .put "c" (.ofIdentifier "a" "x") (.timestamp ⟨Timestamp.lastSecond - 60, 1999999999⟩)
      (.ofParts 10 0)]

/-- The requests of `farAhead`. -/
def farAheadRequests : Step := .throttle "a" (.plain "x") 2

/-- The time from the epoch to the slot of `farAhead`. -/
def farAheadDelay : Span := ⟨8210266876740999999999⟩

theorem farAhead_run :
    let steps := farAhead ++ [farAheadRequests]
    (starting 0).Along Harmless steps ∧
      (∀ m ∈ (starting 0).history steps, (0 ≤ m.world.clock.wall ∧
        m.world.clock.wall < (Timestamp.lastSecond + 1) * 1000000000) ∧
        ∀ a ∈ m.world.admissions,
          m.world.clock.now.nanos + a.limiter.entryTime < Instant.limit) ∧
      .slotReserved (Salt.zero.anonymize "x") farAheadDelay ∈
        (((starting 0).final farAhead).step farAheadRequests).2.notices := by
  decide +kernel

/-- Neither request of `farAhead` fails, and the delay is logged to the millisecond. -/
theorem nothing_fails_farAhead :
    (starting 0).Along Harmless (farAhead ++ [farAheadRequests]) ∧
      (∀ i, Spared ((starting 0).history (farAhead ++ [farAheadRequests])) i) ∧
      (∀ m ∈ (starting 0).history (farAhead ++ [farAheadRequests]), ∀ i,
        m.task = .admission i → m.faults = []) ∧
      (Notice.slotReserved (Salt.zero.anonymize "x") farAheadDelay).Exact := by
  obtain ⟨harmless, within, logged⟩ := farAhead_run
  have faultless := nothing_fails harmless
  have spared (i : Nat) : Spared ((starting 0).history (farAhead ++ [farAheadRequests])) i :=
    ⟨fun m hm _ => (within m hm).1,
      fun m hm _ a ha _ _ _ _ _ => (within m hm).2 a (Array.mem_of_getElem? ha)⟩
  exact ⟨harmless, spared, fun m hm i => faultless.unfailed i (spared i) m hm,
    faultless.exact farAhead farAheadRequests [] rfl _ logged⟩

end World

end Turnstile
