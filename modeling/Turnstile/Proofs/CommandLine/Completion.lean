import Mathlib.Data.List.Sort
import Turnstile.Proofs.CommandLine.Reckoning
import Turnstile.Proofs.Session.Faultless

/-!
# Completion

A run comes to an end, at whatever time it starts and whatever its requests are told: in the
end all of them are answered, none is aborted, and no task has ended by a fault
(`Complete`). A request is decided in its first turn, as no gate keeps it from its cache and
there is room for its entry, and then it only waits; a sweeper with an interval ticks, and
does no more than that.

This is shown step by step: how the world of a run stands (`Going`) is kept by the turn of
a task (`Going.turn`), and as time passes once no request is still to begin
(`Going.advance`). In between time jumps to the next timer, which is no later than the
last wait that there was at first (`Awaiting`), so the jumps are enough
(`Awaiting.finishWithin`).
-/

namespace Turnstile

/-! ### Requests -/

namespace Admission

/-- That nothing is in the way of a request: the wall clock can be read, and no entry of its
    limiter outlives the monotonic clock. -/
structure Unhindered (a : Admission) (clock : Clock) : Prop where
  readable : ∃ t, clock.read = .ok t
  room : clock.now.nanos + a.limiter.entryTime < Instant.limit

variable {a : Admission} {cell : CacheCell} {clock : Clock}

/-- A reservation for which there is room is stored. -/
theorem storing_decided {now : Instant} {d : Decision} {r : Reservation}
    (gate : cell.storeGate = .pass) (room : now.nanos + r.lifetime.nanos < Instant.limit) :
    (a.storing cell now d r).exit = .decided (.ok r.delay) := by
  simp only [storing, gate, Store.set?, Instant.add?, if_pos room, Option.map_some]

/-- A request that nothing is in the way of is decided in its first turn. -/
theorem entering_decided (gate : ∀ kind, cell.gate kind = .pass) (free : a.Unhindered clock) :
    ∃ d : Decision, (a.entering cell clock).exit = .decided d.outcome := by
  obtain ⟨reading, read⟩ := free.readable
  have lookup : cell.lookupGate = .pass := gate .lookup
  simp only [entering, read]
  rcases a.lookingUp_cases cell clock.now reading with
    ⟨holds, -⟩ | ⟨fails, -⟩ | ⟨-, ⟨none, e, -⟩ | ⟨r, reserved, e, -⟩⟩
  · cases lookup.symm.trans holds
  · cases lookup.symm.trans fails
  · exact ⟨_, by rw [e, Decision.outcome, none]⟩
  · have room : clock.now.nanos + r.lifetime.nanos < Instant.limit :=
      Nat.lt_of_le_of_lt (Nat.add_le_add_left (Limiter.lifetime_le reserved) _) free.room
    refine ⟨a.limiter.decide (cell.store.live? clock.now a.key.text) reading, ?_⟩
    rw [e, Decision.outcome_of_reservation reserved]
    exact storing_decided (gate .store) room

end Admission

/-! ### A run that goes on -/

open World CommandLine

namespace World

/-- How the world of a run stands in which nothing is in the way of the requests. -/
structure Going (keys : List Key) (w : World) : Prop where
  orderly : w.Orderly
  tidy : w.Tidy
  flowing : w.Flowing
  origin_le : Instant.origin.nanos ≤ w.clock.now.nanos
  gate : ∀ {c : Nat} {cell : CacheCell}, w.caches[c]? = some cell →
    ∀ kind, cell.gate kind = .pass
  /-- The sweepers have intervals. -/
  ticks : ∀ s ∈ w.sweepers, s.interval ≠ .zero
  keys : w.admissions.toList.map Admission.key = keys
  awaited : ∀ {i : Nat} {a : Admission}, w.admissions[i]? = some a → a.awaited
  unhindered : ∀ {i : Nat} {a : Admission}, w.admissions[i]? = some a → a.phase = .issued →
    a.Unhindered w.clock
  /-- Timers are still to come. -/
  later : ∀ t ∈ w.timers, w.clock.now.millisDown < t.due
  nodup : (w.trace.answers.toList.map Prod.fst).Nodup
  answered : ∀ i, i ∈ w.trace.answers.toList.map Prod.fst ↔ w.Done i
  decided : ∀ x ∈ w.trace.answers.toList, x.2 ≠ .error .aborted
  faults : w.trace.faults = #[]

/-- The end of a run: no task can go on, and all requests are answered. -/
structure Complete (keys : List Key) (w : World) : Prop where
  going : w.Going keys
  settled : w.ready = []
  done : ∀ i < w.admissions.size, w.Done i

variable {w : World} {keys : List Key} {task : Task}

namespace Going

theorem paced (k : w.Going keys) (j : Nat) : ∀ s ∈ w.taken.sweepers[j]?, s.Paced :=
  fun s hs zero => absurd zero (k.ticks s (Array.mem_of_getElem? hs))

/-- Whoever is served is decided. -/
theorem passage_decided (k : w.Going keys) {i : Nat} {a : Admission} {cell : CacheCell}
    (s : Moment.Serving ⟨w, task⟩ i a cell) :
    ∃ d : Decision, (a.passage cell w.clock).exit = .decided d.outcome := by
  obtain ⟨_, holder⟩ := s.holder
  have issued : a.phase = .issued := by
    have undecided := holder.undecided
    have outside := k.flowing.outside s.admission
    cases hp : a.phase <;> simp_all [Phase.stage]
  have entering : a.passage cell w.clock = a.entering cell w.clock := by
    simp only [Admission.passage, issued]
  rw [entering]
  exact Admission.entering_decided (k.gate s.cache) (k.unhindered s.admission issued)

/-- No task fails in its turn. -/
theorem faults_turn (k : w.Going keys) (hr : w.ready.head? = some task) :
    Moment.faults ⟨w, task⟩ = [] := by
  cases task with
  | sweeper j =>
    have none : (w.taken.sweeperTurn j).trace.faults = w.trace.faults :=
      faults_sweeperTurn_of_interval fun s hs => k.ticks s (Array.mem_of_getElem? hs)
    simp [Moment.faults, Moment.after, World.turn, none]
  | admission i =>
    rcases Moment.serving_or_quiet (m := ⟨w, .admission i⟩) k.orderly hr with
      ⟨j, a, cell, s⟩ | ⟨quiet, -⟩
    · obtain ⟨d, decided⟩ := k.passage_decided s
      rw [s.faults, decided]
      rfl
    · exact quiet i rfl

/-- Nobody is aborted in a turn. -/
theorem answers_turn (k : w.Going keys) (hr : w.ready.head? = some task) :
    ∀ x ∈ Moment.answers ⟨w, task⟩, x.2 ≠ .error .aborted := by
  intro x hx
  rcases Moment.serving_or_idle (m := ⟨w, task⟩) k.orderly hr with ⟨j, a, cell, s⟩ | idle
  · obtain ⟨d, decided⟩ := k.passage_decided s
    rw [s.answers, decided] at hx
    obtain ⟨-, e | ⟨_, e, -⟩⟩ := Exit.cases_of_mem_answers hx
    · rw [← Exit.decided.inj e]
      exact d.outcome_ne_aborted
    · cases e
  · obtain ⟨_, -, -, e⟩ := idle.answers x hx
    rw [e]
    exact nofun

/-- A turn sets timers for what is still to come. -/
theorem timers_turn (k : w.Going keys) (hr : w.ready.head? = some task) :
    ∀ t ∈ (w.taken.turn task).timers, w.clock.now.millisDown < t.due := by
  intro t ht
  cases task with
  | sweeper j =>
    rcases (sweeperTurn_ticked (k.paced j)).timer t ht with old | ⟨-, ahead⟩
    · exact k.later t old
    · exact ahead
  | admission i =>
    obtain ⟨a, -, turn⟩ := k.flowing.turn_cases k.orderly hr
    generalize w.taken.turn (.admission i) = w' at turn ht
    cases turn with
    | ends => exact k.later t ((List.mem_append.1 ht).resolve_right List.not_mem_nil)
    | decides =>
      rcases List.mem_append.1 ht with old | new
      · exact k.later t old
      · obtain ⟨delay, nonzero, -, rfl⟩ := Exit.cases_of_mem_timers new
        exact Instant.millisDown_lt_millisUp k.origin_le
          (Span.nanos_ne_zero (Span.onTimer_ne_zero nonzero))

/-- Sweepers keep their intervals. -/
theorem ticks_turn (k : w.Going keys) (hr : w.ready.head? = some task) :
    ∀ s ∈ (w.taken.turn task).sweepers, s.interval ≠ .zero := by
  intro s hs
  cases task with
  | sweeper j =>
    have there := (k.tidy.lt_size (List.mem_of_mem_head? hr)).1
    have hj : w.taken.sweepers[j]? = some w.sweepers[j] := Array.getElem?_eq_getElem there
    obtain ⟨phase, modified, -⟩ := sweepers_sweeperTurn hj (k.paced j _ hj)
    rw [World.turn, modified] at hs
    obtain ⟨i, hi⟩ := Array.getElem?_of_mem hs
    rw [Array.getElem?_modify] at hi
    split at hi
    · obtain ⟨s', hs', rfl⟩ := Option.map_eq_some_iff.1 hi
      exact k.ticks s' (Array.mem_of_getElem? hs')
    · exact k.ticks s (Array.mem_of_getElem? hi)
  | admission i =>
    obtain ⟨a, -, turn⟩ := k.flowing.turn_cases k.orderly hr
    generalize w.taken.turn (.admission i) = w' at turn hs
    cases turn with
    | ends | decides => exact k.ticks s hs

/-- Whoever comes to its end in a turn is answered in it. -/
theorem accounts_turn (k : w.Going keys) (hr : w.ready.head? = some task) :
    ((w.taken.turn task).trace.answers.toList.map Prod.fst).Nodup ∧
      ∀ i, i ∈ (w.taken.turn task).trace.answers.toList.map Prod.fst ↔
        (w.taken.turn task).Done i := by
  cases Moment.answering (m := ⟨w, task⟩) k.orderly hr with
  | nobody same done =>
    rw [show (w.taken.turn task).trace.answers.toList = _ from same]
    exact ⟨k.nodup, fun i => (k.answered i).trans (done i).symm⟩
  | @one i o ht pending given done =>
    rw [show (w.taken.turn task).trace.answers.toList = _ from given, List.map_append]
    refine ⟨k.nodup.append (List.nodup_singleton _) ?_, fun j => ?_⟩
    · simpa using fun o' ho' => pending.2 ((k.answered i).1 (List.mem_map.2 ⟨_, ho', rfl⟩))
    · rw [List.mem_append, k.answered, List.map_singleton, List.mem_singleton]
      exact (done j).symm

/-- A turn keeps a run going. -/
theorem turn (k : w.Going keys) (hr : w.ready.head? = some task) :
    (w.taken.turn task).Going keys := by
  have clock : (w.taken.turn task).clock = w.clock := k.orderly.clock_turn hr
  have size : (w.taken.turn task).admissions.size = w.admissions.size :=
    Moment.size_after (m := ⟨w, task⟩) k.orderly hr
  have answers : (w.taken.turn task).trace.answers.toList =
      w.trace.answers.toList ++ Moment.answers ⟨w, task⟩ :=
    Moment.answers_after (m := ⟨w, task⟩) k.orderly hr
  constructor
  case orderly => exact k.orderly.turn hr
  case tidy => exact k.tidy.turn k.orderly hr
  case flowing => exact k.flowing.turn k.orderly hr
  case origin_le => exact clock ▸ k.origin_le
  case gate =>
    intro c cell hc kind
    obtain ⟨there, hc', -, gates⟩ := k.orderly.cell_before hr hc
    rw [gates, k.gate hc']
  case ticks => exact k.ticks_turn hr
  case keys =>
    rw [← k.keys]
    refine List.ext_getElem? fun i => ?_
    simp only [List.getElem?_map, Array.getElem?_toList]
    cases hb : (w.taken.turn task).admissions[i]? with
    | none => rw [Array.getElem?_eq_none (size ▸ Array.getElem?_eq_none_iff.1 hb)]
    | some b =>
      obtain ⟨a, ha, e, -⟩ := k.orderly.admission_turn hr hb
      rw [ha, e]
      rfl
  case awaited =>
    intro i b hb
    obtain ⟨a, ha, e, -⟩ := k.orderly.admission_turn hr hb
    have awaited := k.awaited ha
    rw [e]
    exact awaited
  case unhindered =>
    intro i b hb issued
    -- A request that is still to begin has not had a turn.
    obtain ⟨a, ha, e, further⟩ := k.orderly.admission_turn hr hb
    have early : a.phase.stage ≤ 0 := by simpa [issued, Phase.stage] using further
    have fresh : a.phase = .issued := by
      cases hp : a.phase <;> simp [hp, Phase.stage] at early
      rfl
    have unhindered := k.unhindered ha fresh
    rw [e, clock]
    exact ⟨unhindered.readable, unhindered.room⟩
  case later =>
    rw [clock]
    exact k.timers_turn hr
  case nodup => exact (k.accounts_turn hr).1
  case answered => exact (k.accounts_turn hr).2
  case decided =>
    rw [answers]
    intro x hx
    exact (List.mem_append.1 hx).elim (k.decided x) (k.answers_turn hr x)
  case faults =>
    have shown := (Moment.faults_after (m := ⟨w, task⟩) k.orderly hr).1
    rw [k.faults_turn hr, List.append_nil] at shown
    exact (Array.toList_inj.1 shown).trans k.faults

/-- The turns that the tasks are given keep a run going, and take no time. -/
theorem settle (k : w.Going keys) : w.settle.Going keys ∧ w.settle.clock = w.clock :=
  takeTurns_induction (P := fun v => v.Going keys ∧ v.clock = w.clock)
    (fun ⟨k, clock⟩ hr => ⟨k.turn hr, (k.orderly.clock_turn hr).trans clock⟩) _ ⟨k, rfl⟩

theorem takeNotices (k : w.Going keys) : w.takeNotices.2.Going keys :=
  { k with
    orderly := k.orderly.takeNotices
    tidy := k.tidy.takeNotices
    flowing := k.flowing.takeNotices }

/-- Once no task can go on, all requests have had a turn. -/
theorem begun (k : w.Going keys) (settled : w.ready = []) {i : Nat} {a : Admission}
    (ha : w.admissions[i]? = some a) : 1 ≤ a.phase.stage := by
  have placed := k.orderly.placed ha
  cases hp : a.phase <;> simp_all [Placed, World.queued, Phase.stage]

/-- Time may pass when no request is still to begin. -/
theorem advance (k : w.Going keys)
    (begun : ∀ {i : Nat} {a : Admission}, w.admissions[i]? = some a → 1 ≤ a.phase.stage)
    (d : Span) : (w.advance d).Going keys where
  orderly := k.orderly.advance d
  tidy := k.tidy.advance d
  flowing := k.flowing.advance d
  origin_le := Nat.le_add_right_of_le k.origin_le
  gate := k.gate
  ticks := k.ticks
  keys := k.keys
  awaited := k.awaited
  unhindered ha issued := absurd (begun ha) (by simp [issued, Phase.stage])
  later _ ht := (mem_timers_wakeTimers.1 ht).2
  nodup := k.nodup
  answered := k.answered
  decided := k.decided
  faults := k.faults

end Going

/-! ### A run that waits -/

/-- A run that goes on in which all requests have had a turn, and no wait is longer than up to
    some millisecond. -/
structure Awaiting (keys : List Key) (last : Nat) (w : World) : Prop where
  going : w.Going keys
  begun : ∀ {i : Nat} {a : Admission}, w.admissions[i]? = some a → 1 ≤ a.phase.stage
  le_last : ∀ due ∈ w.waits, due ≤ last

namespace Awaiting

variable {last : Nat}

/-- A turn begins no wait. -/
theorem mem_waits_turn (k : w.Awaiting keys last) (hr : w.ready.head? = some task) {due : Nat}
    (h : due ∈ (w.taken.turn task).waits) : due ∈ w.waits := by
  obtain ⟨j, ht⟩ := mem_waits.1 h
  refine mem_waits.2 ⟨j, ?_⟩
  cases task with
  | sweeper i =>
    rcases (sweeperTurn_ticked (k.going.paced i)).timer _ ht with old | ⟨own, -⟩
    · exact old
    · cases own
  | admission i =>
    obtain ⟨a, ha, turn⟩ := k.going.flowing.turn_cases k.going.orderly hr
    generalize w.taken.turn (.admission i) = w' at turn ht
    cases turn with
    | ends => exact (List.mem_append.1 ht).resolve_right List.not_mem_nil
    | decides hp => exact absurd (k.begun ha) (by simp [hp, Phase.stage])

theorem turn (k : w.Awaiting keys last) (hr : w.ready.head? = some task) :
    (w.taken.turn task).Awaiting keys last := by
  refine ⟨k.going.turn hr, fun {i b} hb => ?_, fun due h => k.le_last due (k.mem_waits_turn hr h)⟩
  obtain ⟨a, ha, -, further⟩ := k.going.orderly.admission_turn hr hb
  exact Nat.le_trans (k.begun ha) further

theorem settle (k : w.Awaiting keys last) : w.settle.Awaiting keys last :=
  takeTurns_induction (P := fun v => v.Awaiting keys last) (fun k hr => k.turn hr) _ k

theorem takeNotices (k : w.Awaiting keys last) : w.takeNotices.2.Awaiting keys last :=
  ⟨k.going.takeNotices, k.begun, k.le_last⟩

theorem advance (k : w.Awaiting keys last) (d : Span) : (w.advance d).Awaiting keys last := by
  refine ⟨k.going.advance k.begun d, k.begun, fun due h => k.le_last due ?_⟩
  obtain ⟨i, ht⟩ := mem_waits.1 h
  exact mem_waits.2 ⟨i, (mem_timers_wakeTimers.1 ht).1⟩

/-- If no wait is to come, all requests are answered. -/
theorem complete (k : w.Awaiting keys last) (settled : w.ready = []) (none : w.waits = []) :
    w.Complete keys := by
  refine ⟨k.going, settled, fun i hi => ?_⟩
  have ha := Array.getElem?_eq_getElem hi
  rw [Done, phase?_eq ha, Option.some.injEq]
  -- Nobody is still to begin, in its critical section, or waits.
  have begun := k.begun ha
  have outside := k.going.flowing.outside ha
  cases hp : w.admissions[i].phase with
  | finished => rfl
  | waiting delay =>
    obtain ⟨due, hd, -⟩ := k.going.orderly.timer_of_waiting settled (by rw [phase?_eq ha, hp])
    exact absurd hd (none ▸ List.not_mem_nil)
  | issued | inLine | beforeLookup | beforeStore => simp [hp, Phase.stage] at begun outside

/-- Enough jumps lead to the end. -/
theorem finishWithin (k : w.Awaiting keys last) (settled : w.ready = []) {n : Nat}
    (enough : last ≤ w.clock.now.millisDown + n) (log : Array (Instant × Notice)) :
    (World.finishWithin n w log).2.Complete keys := by
  have ended := finishWithin_induction (P := fun _ w => w.Awaiting keys last ∧ w.ready = [])
    ?later ?bound ?jump log enough ⟨k, settled⟩
  case later => exact fun ⟨k, _⟩ => k.going.later
  case bound => exact fun ⟨k, _⟩ => k.le_last
  case jump =>
    intro _ w due _ ⟨k, _⟩ ahead _ _
    have jumped : (w.advanceTo due).Awaiting keys last := k.advance _
    have settled' := settle_settled jumped.going.orderly jumped.going.tidy
    have clock := jumped.going.settle.2
    refine ⟨⟨jumped.settle.takeNotices, settled'⟩, ?_⟩
    rw [show (w.advanceTo due).settle.takeNotices.2.clock = _ from clock,
      millisDown_advanceTo k.going.origin_le ahead]
  obtain ⟨⟨k', settled'⟩, none⟩ := ended
  exact k'.complete settled' none

end Awaiting

/-- A run that goes on comes to an end. -/
theorem Going.finish (k : w.Going keys) : w.finish.2.Complete keys := by
  have settled := settle_settled k.orderly k.tidy
  have going := k.settle.1
  have awaiting : w.settle.Awaiting keys (w.settle.waits.foldl max 0) :=
    ⟨going, going.begun settled, fun due h => le_foldl_max (.inl h)⟩
  exact awaiting.takeNotices.finishWithin settled (Nat.sub_le_iff_le_add'.1 (Nat.le_refl _)) _

/-! ### The end of a run -/

namespace Complete

/-- In the end there is an answer to every request, in their order. -/
theorem received_fst (k : w.Complete keys) :
    w.received.map Prod.fst = List.range keys.length := by
  have size : keys.length = w.admissions.size := by
    rw [← k.going.keys, List.length_map, Array.length_toList]
  have all : w.trace.answers.toList.filter (fun x => w.isAwaited x.1) =
      w.trace.answers.toList := by
    refine List.filter_eq_self.2 fun x hx => ?_
    obtain ⟨a, ha, -⟩ :=
      phase?_eq_some_iff.1 ((k.going.answered x.1).1 (List.mem_map.2 ⟨x, hx, rfl⟩))
    simp [isAwaited, ha, k.going.awaited ha]
  have perm : (w.trace.answers.toList.map Prod.fst).Perm (List.range keys.length) := by
    refine (List.perm_ext_iff_of_nodup k.going.nodup List.nodup_range).2 fun i => ?_
    rw [k.going.answered, List.mem_range, size]
    exact ⟨Done.lt_size, k.done i⟩
  rw [received, all, List.map_mergeSort (s := fun i j => decide (i ≤ j)) fun _ _ _ _ => rfl]
  exact ((List.mergeSort_perm ..).trans perm).eq_of_pairwise' (List.pairwise_mergeSort' (· ≤ ·) _)
    List.pairwise_le_range

/-- In the end the outcomes are said in the order of the requests, and none is aborted. -/
theorem closingNotices_eq (k : w.Complete keys) : ∃ outcomes entries,
    outcomes.length = keys.length ∧ .error .aborted ∉ outcomes ∧
      closingNotices w = keys.zipWith outcomeNotice outcomes ++
        [.summary keys.length (outcomes.countP fun o => !o.isOk) entries] := by
  refine ⟨w.received.map Prod.snd, (w.store?.map Store.size).getD 0, ?_, fun aborted => ?_, ?_⟩
  · have length := congrArg List.length k.received_fst
    rwa [List.length_map, List.length_range, ← List.length_map (f := Prod.snd)] at length
  · obtain ⟨x, hx, e⟩ := List.mem_map.1 aborted
    exact k.going.decided x (mem_received.1 hx).1 e
  · rw [closingNotices_of_received, k.going.keys]

end Complete

end World

/-- The world of a run that is about to begin. -/
theorem Workload.going_start {env : Environment} {s : Settings} {l : Limiter} (ids : List String)
    (accepted : l.Accepted) (readable : ∃ t, (Clock.starting env.wall).read = .ok t)
    (ticks : s.cache.sweepInterval ≠ .zero) :
    (issueRequests (prepare env s) l ids).Going (ids.map l.anonymize) := by
  have eq := issueRequests_eq env s l ids
  have undone (i : Nat) : ¬ (issueRequests (prepare env s) l ids).Done i :=
    fun done => by cases phase?_start done
  constructor
  case orderly => exact orderly_start ..
  case tidy => exact tidy_start ..
  case flowing => exact flowing_start ..
  case origin_le => rw [eq]; exact Nat.le_refl _
  case gate =>
    intro c cell hc kind
    rw [eq] at hc
    obtain rfl : cell = { name := "" } := by simpa using Array.mem_of_getElem? hc
    cases kind <;> rfl
  case ticks =>
    intro sweeper hs
    rw [eq] at hs
    obtain rfl : sweeper = ⟨0, s.cache.sweepInterval.onTimer, .issued⟩ := by simpa using hs
    exact Span.onTimer_ne_zero ticks
  case keys =>
    rw [eq]
    simp [request, Function.comp_def]
  case awaited =>
    intro i a ha
    obtain ⟨id, -, rfl⟩ := admission_start ha
    rfl
  case unhindered =>
    intro i a ha _
    obtain ⟨id, -, rfl⟩ := admission_start ha
    rw [eq]
    have room : Instant.origin.nanos + Span.longestOffset.nanos < Instant.limit := by decide
    have entryTime : l.entryTime ≤ Span.longestOffset.nanos :=
      Nat.max_le.2 ⟨accepted.threshold, accepted.deadline⟩
    exact ⟨readable, Nat.lt_of_le_of_lt (Nat.add_le_add_left entryTime _) room⟩
  case later => rw [eq]; exact fun t ht => absurd ht List.not_mem_nil
  case nodup => rw [eq]; exact .nil
  case answered =>
    intro i
    simp only [undone, iff_false]
    rw [eq]
    exact List.not_mem_nil
  case decided => rw [eq]; exact fun x hx => absurd hx List.not_mem_nil
  case faults => rw [eq]

end Turnstile
