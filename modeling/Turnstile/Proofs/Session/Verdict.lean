import Turnstile.Proofs.Session.Exclusion
import Turnstile.Proofs.Session.Release

/-!
# Verdicts

What becomes of a request follows from two things: what it finds under its key, and the
reading of the wall clock when it gets its stripe. This module says how, and that
nothing else has a part in it: not the turns of others in between, not a gate that
keeps the request waiting, and not a clock that is set meanwhile.

* `Limiter.verdict_decide`: the outcome of a decision, case by case;
* `Limiter.Knows`: what a request in its critical section has called, for the reading
  that it goes by (`Course.knows`);
* `decided_by_rule`: in every session a request that is decided has called a lookup of
  its key, is answered by the rule for what it found, and has stored its reservation
  exactly if it is admitted.

Slots that others have left may be anywhere in the range of timestamps, and within
leap seconds. `since_of_not_isLeap` and `nanos_of_add?_eq` say what differences and sums
come to there.
-/

namespace Turnstile

namespace Timestamp

variable {t s : Timestamp} {d : Span}

/-- From a reading a difference is that of the counts, but a second less until a leap
    second at an earlier time of day. -/
theorem since_of_not_isLeap (hs : ¬ s.IsLeap) : t.since s = t.nanos - s.nanos -
    if t.IsLeap ∧ t.secondOfDay < s.secondOfDay then 1000000000 else 0 := by
  simp only [since, hs, and_false, if_false, and_comm (a := t.IsLeap)]
  split <;> omega

/-- A sum is that of the counts, but a second less where it leaves a leap second. -/
theorem nanos_of_add?_eq (h : t.add? d = some s) : s.nanos = t.nanos + d.nanos -
    if t.IsLeap ∧ 2000000000 ≤ t.part + d.nanos then 1000000000 else 0 := by
  have sum : s = t.later d := by
    unfold add? at h
    split at h
    · exact (Option.some.inj h).symm
    · cases h
  rw [sum]
  by_cases leap : t.IsLeap
  · by_cases within : t.part + d.nanos < 2000000000
    · rw [later, if_pos leap, if_pos within, if_neg (by omega)]
      simp only [nanos]
      omega
    · rw [later, if_pos leap, if_neg within, nanos_ofNanos, if_pos ⟨leap, by omega⟩]
  · rw [nanos_later leap, if_neg (fun h => leap h.1)]
    omega

theorem remaining_eq_zero_iff : t.remaining s = .zero ↔ t.since s ≤ 0 := by
  simp only [remaining, Span.zero, Span.mk.injEq]
  omega

theorem remaining_eq_iff (hd : d ≠ .zero) :
    t.remaining s = d ↔ t.since s = d.nanos ∧ 0 < d.nanos := by
  have positive : 0 < d.nanos := Nat.pos_of_ne_zero (Span.nanos_ne_zero hd)
  obtain ⟨nanos⟩ := d
  simp only [remaining, Span.mk.injEq] at positive ⊢
  omega

end Timestamp

/-! ### The rule -/

namespace Limiter

section

variable (l : Limiter) (found : Option Value) (reading : Timestamp)

/-- That a request is admitted without a delay: there is no entry, or its slot is due,
    and there is a next slot. -/
def AtOnce : Prop :=
  (found = none ∧ (reading.add? l.threshold).isSome) ∨
    ∃ slot, found = some (.timestamp slot) ∧ slot.since reading ≤ 0 ∧
      (slot.add? l.threshold).isSome

/-- That a request is admitted with a delay: so long it is until the slot of the entry,
    which is within the deadline, and there is a next slot. -/
def After (delay : Span) : Prop :=
  ∃ slot, found = some (.timestamp slot) ∧ slot.since reading = delay.nanos ∧
    0 < delay.nanos ∧ delay.nanos ≤ l.deadline.nanos ∧ (slot.add? l.threshold).isSome

/-- That the entry is corrupt: no timestamp, or one within the deadline that has no next
    slot. -/
def Corrupt : Prop :=
  (∃ text, found = some (.text text)) ∨ (∃ bytes, found = some (.bytes bytes)) ∨
    ∃ slot, found = some (.timestamp slot) ∧ max 0 (slot.since reading) ≤ l.deadline.nanos ∧
      slot.add? l.threshold = none

/-- That an outcome is the one for what was found and the reading of the clock. -/
structure Verdict (o : Outcome) : Prop where
  at_once : o = .ok .zero ↔ l.AtOnce found reading
  after : ∀ delay, delay ≠ .zero → (o = .ok delay ↔ l.After found reading delay)
  corrupt : o = .error .corruptEntry ↔ l.Corrupt found reading
  /-- In all other cases the deadline is exceeded. -/
  otherwise : o = .error .deadlineExceeded ↔ ¬ l.AtOnce found reading ∧
    (∀ delay, ¬ l.After found reading delay) ∧ ¬ l.Corrupt found reading

end

variable {l : Limiter} {found : Option Value} {reading slot : Timestamp} {delay : Span}

/-! What the rule comes to without an entry, and with a slot. -/

@[simp] theorem atOnce_none : l.AtOnce none reading ↔ (reading.add? l.threshold).isSome := by
  simp [AtOnce]

@[simp] theorem atOnce_timestamp : l.AtOnce (some (.timestamp slot)) reading ↔
    slot.since reading ≤ 0 ∧ (slot.add? l.threshold).isSome := by
  simp [AtOnce]

@[simp] theorem not_after_none : ¬ l.After none reading delay := by
  simp [After]

@[simp] theorem after_timestamp : l.After (some (.timestamp slot)) reading delay ↔
    slot.since reading = delay.nanos ∧ 0 < delay.nanos ∧ delay.nanos ≤ l.deadline.nanos ∧
      (slot.add? l.threshold).isSome := by
  simp [After]

@[simp] theorem not_corrupt_none : ¬ l.Corrupt none reading := by
  simp [Corrupt]

@[simp] theorem corrupt_timestamp : l.Corrupt (some (.timestamp slot)) reading ↔
    max 0 (slot.since reading) ≤ l.deadline.nanos ∧ slot.add? l.threshold = none := by
  simp [Corrupt]

theorem outcome_none : (l.decide none reading).outcome =
    if (reading.add? l.threshold).isSome then .ok .zero else .error .deadlineExceeded := by
  cases hs : reading.add? l.threshold <;>
    simp [decide, hs, Decision.outcome, Decision.reservation?, Decision.refusal?]

theorem outcome_timestamp : (l.decide (some (.timestamp slot)) reading).outcome =
    if (slot.remaining reading).nanos > l.deadline.nanos then .error .deadlineExceeded
    else if (slot.add? l.threshold).isSome then .ok (slot.remaining reading)
    else .error .corruptEntry := by
  by_cases late : (slot.remaining reading).nanos > l.deadline.nanos
  · simp [decide, Value.timestamp?, late, Decision.outcome, Decision.reservation?,
      Decision.refusal?]
  · cases hs : slot.add? l.threshold <;>
      simp [decide, Value.timestamp?, late, hs, Decision.outcome, Decision.reservation?,
        Decision.refusal?]

theorem verdict_none : l.Verdict none reading (l.decide none reading).outcome := by
  rw [outcome_none]
  split
  · rename_i next
    exact ⟨by simp [next], fun delay hd => by simp [hd.symm], by simp, by simp [next]⟩
  · rename_i next
    exact ⟨by simp [next], by simp, by simp, by simp [next]⟩

/-- With a slot that is due after the deadline. -/
theorem verdict_late (late : (slot.remaining reading).nanos > l.deadline.nanos) :
    l.Verdict (some (.timestamp slot)) reading (.error .deadlineExceeded) := by
  have far : l.deadline.nanos < slot.since reading := by
    simp only [Timestamp.remaining] at late
    omega
  have notDue : ¬ l.AtOnce (some (.timestamp slot)) reading := fun h => by
    have := (atOnce_timestamp.1 h).1
    omega
  have notWaits (delay : Span) : ¬ l.After (some (.timestamp slot)) reading delay := fun h => by
    obtain ⟨e, -, within, -⟩ := after_timestamp.1 h
    omega
  have notCorrupt : ¬ l.Corrupt (some (.timestamp slot)) reading := fun h => by
    have := (corrupt_timestamp.1 h).1
    omega
  exact ⟨by simp [notDue], by simp [notWaits], by simp [notCorrupt],
    by simp [notDue, notWaits, notCorrupt]⟩

/-- With a slot in time that has no next one. -/
theorem verdict_last (intime : (slot.remaining reading).nanos ≤ l.deadline.nanos)
    (last : slot.add? l.threshold = none) :
    l.Verdict (some (.timestamp slot)) reading (.error .corruptEntry) := by
  have near : slot.since reading ≤ l.deadline.nanos := by
    simp only [Timestamp.remaining] at intime
    omega
  constructor <;> simp [last, near]

/-- With a slot in time that has a next one. -/
theorem verdict_next (intime : (slot.remaining reading).nanos ≤ l.deadline.nanos)
    (next : (slot.add? l.threshold).isSome) :
    l.Verdict (some (.timestamp slot)) reading (.ok (slot.remaining reading)) := by
  have successor : slot.add? l.threshold ≠ none := Option.isSome_iff_ne_none.1 next
  constructor
  case at_once => simp [next, Timestamp.remaining_eq_zero_iff]
  case after =>
    intro delay hd
    rw [Except.ok.injEq, Timestamp.remaining_eq_iff hd, after_timestamp]
    constructor
    · rintro ⟨e, positive⟩
      refine ⟨e, positive, ?_, next⟩
      simpa only [Timestamp.remaining, e, Int.toNat_natCast] using intime
    · rintro ⟨e, positive, -⟩
      exact ⟨e, positive⟩
  case corrupt => simp [successor]
  case otherwise =>
    -- It is due, or is to be waited for.
    simp only [reduceCtorEq, false_iff, not_and, atOnce_timestamp]
    intro notDue waits
    have positive : 0 < slot.since reading := lt_of_not_ge fun due => notDue due next
    refine absurd (after_timestamp.2 ⟨?_, ?_, intime, next⟩) (waits (slot.remaining reading)) <;>
      simp only [Timestamp.remaining] <;> omega

/-- A request is decided by the rule. -/
theorem verdict_decide (l : Limiter) (found : Option Value) (reading : Timestamp) :
    l.Verdict found reading (l.decide found reading).outcome := by
  cases found with
  | none => exact verdict_none
  | some value =>
    cases value with
    | timestamp slot =>
      rw [outcome_timestamp]
      split
      · exact verdict_late ‹_›
      · rename_i intime
        split
        · exact verdict_next (Nat.le_of_not_lt intime) ‹_›
        · exact verdict_last (Nat.le_of_not_lt intime) (Option.not_isSome_iff_eq_none.1 ‹_›)
    | text | bytes => constructor <;>
        simp [decide, Value.timestamp?, Decision.outcome, Decision.reservation?,
          Decision.refusal?, AtOnce, After, Corrupt]

end Limiter

/-- Who is not aborted is decided. -/
theorem Exit.decided_of_ne_aborted {e : Exit} {o : Outcome} (h : e.outcome? = some o)
    (ho : o ≠ .error .aborted) : e = .decided o := by
  cases e with
  | held => cases h
  | failed => exact absurd (Option.some.inj h).symm ho
  | decided => rw [Option.some.inj h]

/-! ### What is called -/

/-- What is stored on a decision. -/
def Decision.stores (d : Decision) (cache : String) (key : Key) : List Call :=
  d.reservation?.toList.map fun r => .store cache key (.timestamp r.slot) r.lifetime

theorem Decision.stores_of_reservation {d : Decision} {r : Reservation}
    (h : d.reservation? = some r) (cache : String) (key : Key) :
    d.stores cache key = [.store cache key (.timestamp r.slot) r.lifetime] := by
  rw [stores, h]
  rfl

theorem Decision.stores_of_none {d : Decision} (h : d.reservation? = none) (cache : String)
    (key : Key) : d.stores cache key = [] := by
  rw [stores, h]
  rfl

namespace Limiter

variable (l : Limiter) (cache : String) (key : Key) (reading : Timestamp) (calls : List Call)

/-- What a request has called when it is kept waiting in its critical section, for the
    reading that it goes by. -/
def Underway : Phase → Prop
  | .beforeLookup r => r = reading ∧ calls = []
  | .beforeStore d r => ∃ found, calls = [.lookup cache key found] ∧
      d = l.decide found reading ∧ d.reservation? = some r
  | _ => False

/-- What a request has called at the end of a turn in its critical section. Once it has
    an answer to its lookup, it can only fail to store its reservation. -/
def Through : Exit → Prop
  | .held phase => l.Underway cache key reading calls phase
  | .failed fault => calls = [] ∨ (fault = .storeFailed ∨ fault = .instantOverflow) ∧
      ∃ found r, (l.decide found reading).reservation? = some r ∧
        [.lookup cache key found] <+: calls ∧
        calls <+: .lookup cache key found :: (l.decide found reading).stores cache key
  | .decided o => ∃ found, o = (l.decide found reading).outcome ∧
      calls = .lookup cache key found :: (l.decide found reading).stores cache key

end Limiter

namespace Admission

variable {a : Admission} {cell : CacheCell} {now : Instant} {reading : Timestamp}

theorem storing_through {found : Option Value} {r : Reservation}
    (hr : (a.limiter.decide found reading).reservation? = some r) :
    a.limiter.Through cell.name a.key reading ([.lookup cell.name a.key found] ++
      (a.storing cell now (a.limiter.decide found reading) r).passed)
      (a.storing cell now (a.limiter.decide found reading) r).exit := by
  unfold storing
  cases cell.storeGate with
  | hold => exact ⟨found, rfl, rfl, hr⟩
  | fail => exact .inr ⟨.inl rfl, found, r, hr, List.prefix_refl _, List.prefix_append ..⟩
  | pass =>
    have stores := Decision.stores_of_reservation hr cell.name a.key
    simp only []
    cases cell.store.set? now a.key.text (.timestamp r.slot) r.lifetime with
    | none =>
      refine .inr ⟨.inr rfl, found, r, hr, List.prefix_append .., ?_⟩
      rw [stores]
      exact List.prefix_refl _
    | some store => exact ⟨found, (Decision.outcome_of_reservation hr).symm, by rw [stores]; rfl⟩

theorem carryingOut_through {found : Option Value} :
    a.limiter.Through cell.name a.key reading (.lookup cell.name a.key found ::
      (a.carryingOut cell now (a.limiter.decide found reading)).passed)
      (a.carryingOut cell now (a.limiter.decide found reading)).exit := by
  unfold carryingOut
  cases hr : (a.limiter.decide found reading).reservation? with
  | none =>
    exact ⟨found, by simp [Decision.outcome, hr], by rw [Decision.stores_of_none hr]; rfl⟩
  | some r => exact storing_through hr

theorem lookingUp_through : a.limiter.Through cell.name a.key reading
    (a.lookingUp cell now reading).passed (a.lookingUp cell now reading).exit := by
  unfold lookingUp
  cases cell.lookupGate with
  | hold => exact ⟨rfl, rfl⟩
  | fail => exact .inl rfl
  | pass =>
    obtain ⟨found, store⟩ := cell.store.get now a.key.text
    exact @carryingOut_through a { cell with store } now reading found

/-- A passage goes on for the reading that the request goes by, which is the present one
    if the request has just got its stripe. -/
theorem passage_through {clock : Clock} {calls : List Call}
    (early : a.phase.stage ≤ 1 → clock.read = .ok reading ∧ calls = [])
    (late : a.phase.stage = 2 → a.limiter.Underway cell.name a.key reading calls a.phase)
    (hp : a.phase.stage ≤ 2) :
    a.limiter.Through cell.name a.key reading (calls ++ (a.passage cell clock).passed)
      (a.passage cell clock).exit := by
  unfold passage
  cases he : a.phase with
  | issued | inLine =>
    obtain ⟨hr, rfl⟩ := early (by simp [he, Phase.stage])
    simp only [entering, hr]
    exact lookingUp_through
  | beforeLookup =>
    have underway := late (by simp [he, Phase.stage])
    rw [he] at underway
    obtain ⟨rfl, rfl⟩ := underway
    exact lookingUp_through
  | beforeStore =>
    have underway := late (by simp [he, Phase.stage])
    rw [he] at underway
    obtain ⟨found, rfl, rfl, hr⟩ := underway
    exact storing_through hr
  | waiting | finished => simp [he, Phase.stage] at hp

end Admission

/-! ### What requests know -/

namespace Moment

open World

/-- That a request goes by a reading: it got its stripe at it, and at no other. -/
def GoesBy (h : List Moment) (i : Nat) (reading : Timestamp) : Prop :=
  (∃ m ∈ h, m.Enters i) ∧ ∀ m ∈ h, m.Enters i → m.world.clock.read = .ok reading

/-- What a request has read and called so far, as long as it is not decided. -/
structure Knows (h : List Moment) (i : Nat) (a : Admission) (cache : String) : Prop where
  outside : a.phase.stage ≤ 1 → (∀ m ∈ h, ¬ m.Enters i) ∧ callsOf i h = []
  inside : a.phase.stage = 2 → ∃ reading, GoesBy h i reading ∧
    a.limiter.Underway cache a.key reading (callsOf i h) a.phase

/-- How a turn in the critical section of a request has ended, given its history: by a
    fault of the clock, or for the reading that the request goes by. -/
def Ended (h : List Moment) (i : Nat) (a : Admission) (cache : String) (e : Exit) : Prop :=
  ((∃ fault, e = .failed fault) ∧ callsOf i h = []) ∨
    ∃ reading, GoesBy h i reading ∧ a.limiter.Through cache a.key reading (callsOf i h) e

variable {m : Moment} {h : List Moment} {i : Nat} {a b : Admission} {cell : CacheCell}
  {cache : String} {reading : Timestamp}

theorem GoesBy.concat (k : GoesBy h i reading) (hm : ¬ m.Enters i) :
    GoesBy (h ++ [m]) i reading := by
  obtain ⟨⟨n, hn, enters⟩, all⟩ := k
  refine ⟨⟨n, List.mem_append_left _ hn, enters⟩, fun n hn enters => ?_⟩
  rcases List.mem_append.1 hn with hn | hn
  · exact all n hn enters
  · rw [List.mem_singleton.1 hn] at enters
    exact absurd enters hm

/-- A request goes by one reading. -/
theorem GoesBy.unique {h : List Moment} {i : Nat} {s t : Timestamp} (hs : GoesBy h i s)
    (ht : GoesBy h i t) : s = t := by
  obtain ⟨m, hm, enters⟩ := hs.1
  exact Except.ok.inj ((hs.2 m hm enters).symm.trans (ht.2 m hm enters))

/-- Turns in which a request is not served leave what it knows. -/
theorem Knows.concat (k : Knows h i a cache) (hs : ¬ m.Serves i)
    (hc : m.task = .admission i → m.calls = []) : Knows (h ++ [m]) i a cache := by
  have same := callsOf_concat_of_nil (h := h) hc
  constructor
  case outside =>
    intro early
    obtain ⟨never, calls⟩ := k.outside early
    refine ⟨fun n hn enters => ?_, by rw [same, calls]⟩
    rcases List.mem_append.1 hn with hn | hn
    · exact never n hn enters
    · rw [List.mem_singleton.1 hn] at enters
      exact hs enters.1
  case inside =>
    intro within
    obtain ⟨reading, goes, underway⟩ := k.inside within
    exact ⟨reading, goes.concat fun enters => hs enters.1, by rwa [same]⟩

/-- It depends on the limiter, the key and the phase only. -/
theorem Knows.of_eq (k : Knows h i a cache) (hl : b.limiter = a.limiter) (hk : b.key = a.key)
    (hp : b.phase = a.phase) : Knows h i b cache where
  outside early := k.outside (by rwa [← hp])
  inside within := by
    rw [hl, hk, hp]
    exact k.inside (by rwa [← hp])

/-- Who is decided knows all that it needs. -/
theorem Knows.of_decided (hp : a.phase.stage = 3) : Knows h i a cache where
  outside early := by omega
  inside within := by omega

theorem Knows.idles (k : Knows h i a cache) {phase : Phase} (hp : a.phase.Idles phase) :
    Knows h i { a with phase } cache := by
  generalize ha : a.phase = before at hp
  cases hp with
  | stays => exact k.of_eq rfl rfl ha.symm
  | joins => exact ⟨fun _ => k.outside (by simp [ha, Phase.stage]), fun within => nomatch within⟩
  | ends => exact .of_decided rfl

/-- A turn that serves a request goes on for the reading that it goes by, unless there is
    none. -/
theorem Serving.ended (s : m.Serving i a cell) (k : Knows h i a cell.name) :
    Ended (h ++ [m]) i a cell.name (a.passage cell m.world.clock).exit := by
  obtain ⟨rest, t⟩ := s.holder
  have undecided := t.undecided
  have calls : callsOf i (h ++ [m]) = callsOf i h ++ (a.passage cell m.world.clock).passed := by
    rw [callsOf_concat, if_pos s.task, s.calls]
    rfl
  rw [Ended, calls]
  have enters : m.Enters i ↔ a.phase.stage ≤ 1 := by
    rw [Moment.Enters, phase?_eq s.admission]
    simp [s.serves]
  by_cases early : a.phase.stage ≤ 1
  · obtain ⟨never, none⟩ := k.outside early
    cases hr : m.world.clock.read with
    | error fault =>
      have entering : a.passage cell m.world.clock = a.entering cell m.world.clock := by
        cases hp : a.phase <;> simp_all [Admission.passage, Phase.stage]
      refine .inl ⟨⟨fault, by rw [entering, Admission.entering, hr]⟩, ?_⟩
      rw [none, entering, Admission.entering, hr]
      rfl
    | ok reading =>
      refine .inr ⟨reading, ⟨⟨m, by simp, enters.2 early⟩, fun n hn he => ?_⟩, ?_⟩
      · rcases List.mem_append.1 hn with hn | hn
        · exact absurd he (never n hn)
        · rw [List.mem_singleton.1 hn, hr]
      · exact Admission.passage_through (fun _ => ⟨hr, none⟩) (by omega) undecided
  · obtain ⟨reading, goes, underway⟩ := k.inside (by omega)
    exact .inr ⟨reading, goes.concat fun he => early (enters.1 he),
      Admission.passage_through (absurd · early) (fun _ => underway) undecided⟩

/-- What a request knows after a turn that serves it. -/
theorem Serving.knows (s : m.Serving i a cell) (k : Knows h i a cell.name) :
    Knows (h ++ [m]) i { a with phase := (a.passage cell m.world.clock).exit.phase } cell.name := by
  rcases s.ended k with ⟨⟨fault, failed⟩, -⟩ | ⟨reading, goes, through⟩
  · exact .of_decided (by rw [failed]; rfl)
  · cases he : (a.passage cell m.world.clock).exit with
    | held phase =>
      have two := (Admission.passage_held he).stage
      rw [he] at through
      exact ⟨fun (early : phase.stage ≤ 1) => by omega, fun _ => ⟨reading, goes, through⟩⟩
    | failed fault => exact .of_decided rfl
    | decided o => exact .of_decided (Exit.stage_of_outcome (e := .decided o) rfl)

end Moment

namespace World

open Moment

variable {w : World} {h : List Moment}

/-- That all requests know what they have read and called. -/
def Informed (w : World) (h : List Moment) : Prop :=
  ∀ {i : Nat} {a : Admission}, w.admissions[i]? = some a →
    ∃ cell, w.caches[a.cache]? = some cell ∧ Knows h i a cell.name

theorem Informed.acted (k : w.Informed h) (o : w.Orderly) (s : Step)
    (unknown : ∀ {i : Nat}, w.admissions[i]? = none →
      (∀ m ∈ h, ¬ m.Enters i) ∧ callsOf i h = []) : (w.acted s).Informed h := by
  intro i b hb
  rcases admission_acted hb with ⟨a, ha, hab, hp⟩ | ⟨hn, _, _, _, l, cell, rfl, _, hl, rfl⟩
  · obtain ⟨cell, hc, knows⟩ := k ha
    obtain ⟨cell', hc', change⟩ := cell_acted (s := s) hc
    rw [hab.cache]
    refine ⟨cell', hc', ?_⟩
    rw [change.name]
    rcases hp with hp | ⟨-, hp⟩
    · exact knows.of_eq hab.limiter hab.key hp
    · exact .of_decided (by rw [hp]; rfl)
  · obtain ⟨cell', hc', -⟩ := cell_acted (s := .throttle _ _ _)
      (Array.getElem?_eq_getElem (o.cell_cache_lt hl))
    exact ⟨cell', hc', fun _ => unknown hn, fun within => nomatch within⟩

theorem Informed.turn {m : Moment} (k : m.world.Informed h) (o : m.world.Orderly)
    (hr : m.world.ready.head? = some m.task) : m.after.Informed (h ++ [m]) := by
  intro j b hb
  rcases serving_or_idle o hr with ⟨i, a, cell, s⟩ | idle
  · obtain ⟨a', ha', rfl⟩ := s.admission_after hb
    obtain ⟨cell₀, hc₀, knows⟩ := k ha'
    obtain ⟨cell', hc', hn, -⟩ := o.cell_turn hr hc₀
    refine ⟨cell', hc', ?_⟩
    rw [hn]
    by_cases hij : i = j
    · subst j
      obtain rfl : a = a' := Option.some.inj (s.admission.symm.trans ha')
      obtain rfl : cell = cell₀ := Option.some.inj (s.cache.symm.trans hc₀)
      rw [if_pos rfl]
      exact s.knows knows
    · rw [if_neg hij]
      have other : m.task ≠ .admission j := by
        rw [s.task]
        exact fun e => hij (Task.admission.inj e)
      exact knows.concat (fun serves => other serves.1) (absurd · other)
  · obtain ⟨a, ha, e, idles⟩ := idle.admission hb
    obtain ⟨cell, hc, knows⟩ := k ha
    obtain ⟨cell', hc', hn, -⟩ := o.cell_turn hr hc
    refine ⟨cell', by rw [e]; exact hc', ?_⟩
    rw [hn, e]
    exact (knows.concat (idle.serves j) fun _ => idle.calls).idles idles

end World

namespace Course

open World Moment

variable {ok : World → Step → Prop} {w : World} {h : List Moment} {wall : Int}

/-- Who has no number yet has not been served. -/
theorem not_serves (c : Course ok (starting wall) h w) {i : Nat} (hi : w.admissions[i]? = none)
    {m : Moment} (hm : m ∈ h) : ¬ m.Serves i := by
  intro hs
  obtain ⟨a, ha, -⟩ := c.passed (orderly_starting wall) hm hs
  rw [hi] at ha
  cases ha

/-- In a session all requests know what they have read and called. -/
theorem informed (c : Course ok (starting wall) h w) : w.Informed h := by
  have start := orderly_starting wall
  induction c with
  | start => exact fun hi => by simp [starting] at hi
  | act c _ ih =>
    exact Informed.acted ih (c.orderly start) _ fun hi =>
      ⟨fun m hm enters => c.not_serves hi hm enters.1, c.accounted.unknown hi⟩
  | turn c hr ih => exact Informed.turn ih (c.orderly start) (by rw [hr]; rfl)

/-- Who is decided has read and called what its outcome is for, and nothing since. -/
theorem ended_of_decision (c : Course ok (starting wall) h w) {m : Moment} (hm : m ∈ h)
    {i : Nat} {o : Outcome} (hd : m.decision? = some (i, o)) :
    ∃ a cell e, w.admissions[i]? = some a ∧ w.caches[a.cache]? = some cell ∧
      e.outcome? = some o ∧ m.faults = e.faults ∧ Ended h i a cell.name e := by
  have start := orderly_starting wall
  induction c with
  | start => simp at hm
  | @act h w s c _ ih =>
    obtain ⟨a, cell, e, ha, hc, he, faults, ended⟩ := ih hm
    obtain ⟨b, hb, hab⟩ := (evolves_acted w s).becomes ha
    obtain ⟨cell', hc', change⟩ := cell_acted (s := s) hc
    refine ⟨b, cell', e, hb, by rwa [hab.cache], he, faults, ?_⟩
    rwa [Ended, hab.limiter, hab.key, change.name]
  | @turn h w task rest c hr ih =>
    have o := c.orderly start
    have head : w.ready.head? = some task := by rw [hr]; rfl
    rcases List.mem_append.1 hm with hm | hm
    · obtain ⟨a, cell, e, ha, hc, he, faults, ended⟩ := ih hm
      obtain ⟨b, hb, hab⟩ := (o.evolves_turn head).becomes ha
      obtain ⟨cell', hc', hn, -⟩ := o.cell_turn head hc
      -- Who is decided is not served again, and so calls nothing more.
      obtain ⟨a', ha', decided⟩ := c.decided start hm hd
      have unserved : ¬ Moment.Serves ⟨w, task⟩ i := fun serves =>
        serves.undecided ha' decided
      have silent (ht : task = .admission i) : Moment.calls ⟨w, task⟩ = [] := by
        rcases serving_or_idle (m := ⟨w, task⟩) o head with ⟨j, _, _, s⟩ | idle
        · obtain rfl : j = i := Task.admission.inj (s.task.symm.trans ht)
          exact absurd s.serves unserved
        · exact idle.calls
      refine ⟨b, cell', e, hb, by rw [hab.cache]; exact hc', he, faults, ?_⟩
      rw [Ended, hab.limiter, hab.key, hn, callsOf_concat_of_nil silent]
      exact ended.imp_right fun ⟨reading, goes, through⟩ =>
        ⟨reading, goes.concat fun enters => unserved enters.1, through⟩
    · obtain rfl := List.mem_singleton.1 hm
      obtain ⟨a, cell, s, he⟩ := serving_of_decision o head hd
      obtain ⟨cell₀, hc₀, knows⟩ := c.informed s.admission
      obtain rfl : cell = cell₀ := Option.some.inj (s.cache.symm.trans hc₀)
      obtain ⟨cell', hc', hn, -⟩ := o.cell_turn head s.cache
      refine ⟨_, cell', _, s.admission_self, hc', he, s.faults, ?_⟩
      rw [hn]
      exact s.ended knows

/-- Who was served in its critical section has entered it for good. -/
theorem served (c : Course ok (starting wall) h w) {m : Moment} (hm : m ∈ h) {i : Nat}
    (hs : m.Serves i) : ∃ a, w.admissions[i]? = some a ∧ 2 ≤ a.phase.stage := by
  have start := orderly_starting wall
  obtain ⟨orderly, head⟩ := c.orderly_at start hm
  obtain ⟨a, cell, s⟩ := hs.serving orderly head
  obtain ⟨b, hb, hab⟩ := (c.evolves_after start hm).becomes s.admission_self
  exact ⟨b, hb, Nat.le_trans Admission.two_le_stage_passage hab.stage_le⟩

/-- Nobody enters its critical section twice. -/
theorem enters_once (c : Course ok (starting wall) h w) :
    h.Pairwise fun m n => ∀ i, m.Serves i → ¬ n.Enters i := by
  induction c with
  | start => exact .nil
  | act _ _ ih => exact ih
  | @turn h w task rest c hr ih =>
    refine List.pairwise_append.2 ⟨ih, List.pairwise_singleton .., fun m hm n hn i hs he => ?_⟩
    cases List.mem_singleton.1 hn
    obtain ⟨a, ha, entered⟩ := c.served hm hs
    have early := he.2
    rw [phase?_eq ha] at early
    simp only [Option.any_some, decide_eq_true_eq] at early
    omega

/-- The reading at which a request has entered its critical section is the one that it
    goes by. -/
theorem goesBy_of_enters (c : Course ok (starting wall) h w) {m : Moment} (hm : m ∈ h) {i : Nat}
    (he : m.Enters i) {reading : Timestamp} (hr : m.world.clock.read = .ok reading) :
    GoesBy h i reading := by
  refine ⟨⟨m, hm, he⟩, fun n hn he' => ?_⟩
  have once := List.pairwise_iff_getElem.1 c.enters_once
  obtain ⟨x, hx, rfl⟩ := List.getElem_of_mem hm
  obtain ⟨y, hy, rfl⟩ := List.getElem_of_mem hn
  rcases Nat.lt_trichotomy x y with lt | rfl | lt
  · exact absurd he' (once x y hx hy lt i he.1)
  · exact hr
  · exact absurd he (once y x hy hx lt i he'.1)

/-- Who is through with its critical section was decided in some turn, unless all tasks
    were stopped. -/
theorem decision_of_stage (c : Course ok (starting wall) h w) (running : w.running) {i : Nat}
    {a : Admission} (ha : w.admissions[i]? = some a) (decided : a.phase.stage = 3) :
    ∃ m ∈ h, ∃ o, m.decision? = some (i, o) := by
  have start := orderly_starting wall
  induction c generalizing a with
  | start => simp [starting] at ha
  | act c _ ih =>
    obtain ⟨on, up⟩ := (running_acted _ _).1 running
    rcases admission_acted ha with ⟨b, hb, -, same | ⟨down, -⟩⟩ | ⟨-, _, _, _, _, _, -, -, -, rfl⟩
    · exact ih on hb (by rwa [← same])
    · exact absurd down up
    · cases decided
  | @turn h w task rest c hr ih =>
    have o := c.orderly start
    have head : w.ready.head? = some task := by rw [hr]; rfl
    have on : w.running := by
      rw [← o.running_turn head]
      exact running
    have before (k : ∃ m ∈ h, ∃ o, m.decision? = some (i, o)) :
        ∃ m ∈ h ++ [⟨w, task⟩], ∃ o, m.decision? = some (i, o) := by
      obtain ⟨m, hm, rest⟩ := k
      exact ⟨m, List.mem_append_left _ hm, rest⟩
    rcases serving_or_idle (m := ⟨w, task⟩) o head with ⟨j, b, cell, s⟩ | idle
    · obtain ⟨a', ha', rfl⟩ := s.admission_after ha
      by_cases hj : j = i
      · subst hj
        rw [if_pos rfl] at decided
        refine ⟨_, List.mem_append_right _ (.head _), ?_⟩
        cases he : (b.passage cell w.clock).exit.outcome? with
        | none =>
          obtain ⟨phase, held⟩ := Exit.held_of_outcome he
          have two := (Admission.passage_held held).stage
          rw [held] at decided
          rw [show phase.stage = 3 from decided] at two
          cases two
        | some out => exact ⟨out, by rw [s.decision?, he]; rfl⟩
      · rw [if_neg hj] at decided
        exact before (ih on ha' decided)
    · obtain ⟨b, hb, -, idles⟩ := idle.admission ha
      refine before (ih on hb ?_)
      generalize a.phase = p at idles decided
      generalize b.phase = q at idles
      cases idles with
      | stays => exact decided
      | joins => cases decided
      | ends => rfl

end Course

/-! ### Sessions -/

namespace Moment

/-- That a request is decided by the rule, given the history of a session: for what a
    lookup of its key answered, and the reading at which it got its stripe. -/
structure Ruled (h : List Moment) (i : Nat) (l : Limiter) (cache : String) (key : Key)
    (found : Option Value) (reading : Timestamp) (o : Outcome) : Prop where
  goesBy : GoesBy h i reading
  verdict : l.Verdict found reading o
  /-- Who is refused stores nothing. -/
  refused : (∀ delay, o ≠ .ok delay) → callsOf i h = [.lookup cache key found]
  /-- Who is admitted without an entry stores the slot a threshold after the reading, for
      the threshold. -/
  first : ∀ delay, o = .ok delay → found = none →
    ∃ slot, reading.add? l.threshold = some slot ∧
      callsOf i h = [.lookup cache key found, .store cache key (.timestamp slot) l.threshold]
  /-- Who is admitted at a slot stores the one a threshold after it, for as long as it is
      until the slot. -/
  next : ∀ delay, o = .ok delay → found ≠ none →
    ∃ slot following lifetime, found = some (.timestamp slot) ∧
      slot.add? l.threshold = some following ∧
      (lifetime.nanos : Int) = max 0 (slot.since reading) ∧
      callsOf i h = [.lookup cache key found, .store cache key (.timestamp following) lifetime]
  /-- A reading is the count of the wall clock, and never within a leap second. -/
  plain : ¬ reading.IsLeap ∧ ∀ m ∈ h, m.Enters i → reading.nanos = m.world.clock.wall
  /-- What the difference from a slot comes to. -/
  difference : ∀ slot, found = some (.timestamp slot) → slot.since reading =
    slot.nanos - reading.nanos -
      if slot.IsLeap ∧ slot.secondOfDay < reading.secondOfDay then 1000000000 else 0
  /-- What the sum with the threshold comes to. -/
  sum : ∀ slot following : Timestamp, slot.add? l.threshold = some following → following.nanos =
    slot.nanos + l.threshold.nanos -
      if slot.IsLeap ∧ 2000000000 ≤ slot.part + l.threshold.nanos then 1000000000 else 0

/-- Who is through is decided by the rule. -/
theorem GoesBy.ruled {h : List Moment} {i : Nat} {l : Limiter} {cache : String} {key : Key}
    {reading : Timestamp} {o : Outcome} (goes : GoesBy h i reading)
    (through : l.Through cache key reading (callsOf i h) (.decided o)) :
    ∃ found, Ruled h i l cache key found reading o := by
  obtain ⟨found, rfl, calls⟩ := through
  obtain ⟨⟨m, hm, enters⟩, all⟩ := goes
  have plain := (Clock.nanos_of_read (all m hm enters)).2
  have admitted {delay : Span} (ho : (l.decide found reading).outcome = .ok delay) :
      ∃ r, (l.decide found reading).reservation? = some r ∧
        callsOf i h =
          [.lookup cache key found, .store cache key (.timestamp r.slot) r.lifetime] := by
    cases hr : (l.decide found reading).reservation? with
    | none => simp [Decision.outcome, hr] at ho
    | some r => exact ⟨r, rfl, by rw [calls, Decision.stores_of_reservation hr]⟩
  refine ⟨found, ?_⟩
  constructor
  case goesBy => exact ⟨⟨m, hm, enters⟩, all⟩
  case verdict => exact l.verdict_decide found reading
  case refused =>
    intro refused
    cases hr : (l.decide found reading).reservation? with
    | none => rw [calls, Decision.stores_of_none hr]
    | some r => exact absurd (Decision.outcome_of_reservation hr) (refused _)
  case first =>
    intro delay ho none
    obtain ⟨r, hr, calls⟩ := admitted ho
    rcases Limiter.reservation_cases hr with ⟨-, hs, hl, -⟩ | ⟨t, hf, -⟩
    · exact ⟨r.slot, hs, by rw [calls, hl]⟩
    · rw [none] at hf
      cases hf
  case next =>
    intro delay ho some
    obtain ⟨r, hr, calls⟩ := admitted ho
    rcases Limiter.reservation_cases hr with ⟨hf, -⟩ | ⟨t, hf, hs, hl, -⟩
    · exact absurd hf some
    · refine ⟨t, r.slot, r.lifetime, hf, hs, ?_, calls⟩
      rw [hl, Timestamp.remaining]
      exact Int.ofNat_toNat _ |>.trans (max_comm ..)
  case plain => exact ⟨plain, fun n hn enters => (Clock.nanos_of_read (all n hn enters)).1⟩
  case difference => exact fun slot _ => Timestamp.since_of_not_isLeap plain
  case sum => exact fun slot following => Timestamp.nanos_of_add?_eq

end Moment

open World Moment

/-- That the requests of a session are decided by the rule. -/
structure DecidedByRule (wall : Int) (steps : List Step) : Prop where
  /-- Whoever is decided is decided by the rule. -/
  ruled : ∀ m ∈ (starting wall).history steps, ∀ i o, m.decision? = some (i, o) →
    o ≠ .error .aborted → ∃ a limiter cache, ((starting wall).final steps).admissions[i]? = some a ∧
      ((starting wall).final steps).limiters[a.owner]? = some limiter ∧
      ((starting wall).final steps).caches[limiter.cache]? = some cache ∧
      ∃ found reading, Ruled ((starting wall).history steps) i limiter.limiter cache.name a.key
        found reading o
  /-- There is one decision on a request. -/
  once : ∀ m ∈ (starting wall).history steps, ∀ n ∈ (starting wall).history steps, ∀ i o o',
    m.decision? = some (i, o) → n.decision? = some (i, o') → m = n
  /-- Whoever is answered, but for who is aborted, is decided so. -/
  reported : ∀ before s after, steps = before ++ s :: after → ∀ i o,
    (i, o) ∈ (((starting wall).final before).step s).2.outcomes → o ≠ .error .aborted →
      ∃ m ∈ (starting wall).history steps, m.decision? = some (i, o)

/-- In every session the requests are decided by the rule. -/
theorem World.decided_by_rule (wall : Int) (steps : List Step) : DecidedByRule wall steps := by
  have c := course_history ((starting wall).along_true steps)
  constructor
  case ruled =>
    intro m hm i o hd ho
    obtain ⟨a, cell, e, ha, hc, he, -, ended⟩ := c.ended_of_decision hm hd
    rw [Exit.decided_of_ne_aborted he ho] at ended
    obtain ⟨reading, goes, through⟩ := ended.resolve_left (by simp)
    obtain ⟨owner, hl, limiter, cache⟩ :=
      (c.owned (orderly_starting wall) (owned_starting wall)).limiter ha
    rw [limiter] at through
    rw [cache] at hc
    obtain ⟨found, ruled⟩ := goes.ruled through
    exact ⟨a, owner, cell, ha, hl, hc, found, reading, ruled⟩
  case once => exact fun m hm n hn i o o' => c.decision_unique hm hn
  case reported =>
    rintro before s after rfl i o hx ho
    cases grounds wall before s hx with
    | concluded k _ =>
      obtain ⟨m, hm, a, cell, d, serving, he, -⟩ := k
      refine ⟨m, ?_, by rw [serving.decision?, he]; rfl⟩
      rw [← List.singleton_append, ← List.append_assoc, history_append]
      exact List.mem_append_left _ hm
    | failed | shutdown => exact absurd rfl ho

end Turnstile
