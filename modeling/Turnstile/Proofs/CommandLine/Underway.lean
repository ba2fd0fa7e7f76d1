import Turnstile.CommandLine.Run
import Turnstile.Proofs.Limiter.Batch
import Turnstile.Proofs.Session.Flowing
import Turnstile.Proofs.Session.Ticking

/-!
# Runs under way

A run issues requests for some keys at one instant, and each of them has an outcome that
depends on those before it only (`Limiter.outcomes`). Throughout the run a request is
still to be decided, waits for its slot, or is answered with its outcome; and nothing
above minor is logged (`Workload.Underway`). This is kept by the turns of the sweeper
(`Underway.sweeperTurn`) and of the requests (`Underway.admissionTurn`), and when time
passes (`Underway.advance`).
-/

namespace Turnstile

/-- Of decisions only those on corrupt entries are more than minor. -/
theorem Decision.notices_minor {d : Decision} (hd : d.refusal? ≠ some .corruptEntry) (key : Key)
    (deadline : Span) : (∀ n ∈ d.noticesBefore key deadline, n.IsMinor) ∧
      ∀ n ∈ d.noticesAfter key, n.IsMinor := by
  cases d <;>
    simp_all [noticesBefore, noticesAfter, refusal?, Notice.IsMinor, Notice.level, Level.rank]

namespace Batch

variable {b : Batch} {n : Nat} {a : Admission} {cell : CacheCell}

/-- The passage of a request that comes after some others for its key. -/
theorem entering (gate : ∀ kind, cell.gate kind = .pass) (hl : a.limiter = b.limiter)
    (hs : cell.store.stored? a.key.text = b.stored n) :
    let p := a.entering cell b.clock
    p.exit = .decided (b.limiter.answerAfter n) ∧
    (∀ text, p.store.stored? text =
      if text = a.key.text then b.stored (n + 1) else cell.store.stored? text) ∧
    ∀ notice ∈ p.notices, notice.IsMinor := by
  have lookup : cell.lookupGate = .pass := gate .lookup
  have store : cell.storeGate = .pass := gate .store
  have answered : (cell.store.get b.clock.now a.key.text).1 = b.found n := by
    rw [Store.get_fst, Store.live?, hs]
    rfl
  simp only [Admission.entering, b.read, Admission.lookingUp, lookup, answered, hl,
    Admission.carryingOut]
  rcases b.decide_cases n with ⟨r, hd, answer, next, life⟩ | ⟨⟨remaining, hd⟩, kept, answer, next⟩
  · have within := b.within
    have room : (cell.store.get b.clock.now a.key.text).2.set? b.clock.now a.key.text
        (.timestamp r.slot) r.lifetime = some (((cell.store.get b.clock.now a.key.text).2).insert
          a.key.text ⟨.timestamp r.slot, b.clock.now.later r.lifetime⟩) := by
      rw [Store.set?, Instant.add?, if_pos (by omega), Option.map_some]
    have reserved : (b.limiter.decide (b.found n) b.reading).reservation? = some r := by
      rcases hd with hd | hd <;> rw [hd] <;> rfl
    -- The reservation is stored, as its entry expires within the range of instants.
    simp only [reserved, Admission.storing, store, room]
    refine ⟨by rw [answer], fun text => ?_, fun notice hn => ?_⟩
    · obtain ⟨expiry, range, stored⟩ := Store.stored?_of_set? room
      obtain rfl := Instant.eq_later_of_add? range
      rw [stored, ← next]
      split
      · rfl
      · rw [Store.stored?_get, if_neg ‹_›]
    · have sound : (b.limiter.decide (b.found n) b.reading).refusal? ≠ some .corruptEntry := by
        rcases hd with hd | hd <;> simp [hd, Decision.refusal?]
      obtain ⟨before, after⟩ := Decision.notices_minor sound a.key b.limiter.deadline
      exact (List.mem_append.1 hn).elim (before _) (after _)
  · simp only [hd, Decision.reservation?, Decision.refusal?, Option.getD_some]
    refine ⟨by rw [answer], fun text => ?_, fun notice hn => ?_⟩
    · -- The entry that makes the request late is not expired, so it is not taken out.
      rw [Store.stored?_get, next, hs]
      split
      · rw [found] at kept
        cases he : b.stored n with
        | none => rfl
        | some e =>
          simp only [he, Option.bind_some, Option.map_some, Entry.live?] at kept
          split at kept
          · cases kept
          · simp [Option.filter_some, *]
      · rfl
    · rw [List.append_nil] at hn
      exact (Decision.notices_minor (by simp [Decision.refusal?]) _ _).1 _ hn

end Batch

/-- The outcomes of requests for some keys at one instant. -/
def Limiter.outcomes (l : Limiter) (keys : List Key) : List Outcome :=
  keys.mapIdx fun i key => l.answerAfter ((keys.take i).count key)

/-- What there is to do in a run. -/
structure Workload extends Batch where
  /-- The keys of the requests. -/
  keys : List Key
  /-- The time from tick to tick of the sweeper. -/
  interval : Span
  /-- The run has just begun. -/
  start : clock.now = .origin

/-- A turn of a request logs the notices of its passage, and minor ones. -/
theorem World.Orderly.notices_turn {w : World} (o : w.Orderly) {i : Nat} {a : Admission}
    (hr : w.ready.head? = some (.admission i)) (hi : w.admissions[i]? = some a) :
    ∀ n ∈ (w.taken.turn (.admission i)).trace.notices, n ∈ w.trace.notices ∨ n.IsMinor ∨
      a.phase.stage ≤ 2 ∧ ∃ cell, w.caches[a.cache]? = some cell ∧
        n ∈ (a.passage cell w.clock).notices := by
  obtain ⟨a', hi', turn⟩ := o.admissionTurn_cases hr
  obtain rfl : a = a' := Option.some.inj (hi.symm.trans hi')
  intro n hn
  rw [World.turn] at hn
  generalize w.taken.admissionTurn i = w' at turn hn
  cases turn with
  | joins => exact .inl hn
  | @works cell _ lines hc t =>
    rw [World.notices_pass, ← Array.mem_toList_iff, Array.toList_appendList] at hn
    rcases List.mem_append.1 hn with hn | hn
    · exact .inl (Array.mem_toList_iff.1 hn)
    · exact .inr (.inr ⟨t.undecided, cell, hc, hn⟩)
  | @ends delay =>
    rcases Array.mem_push.1 hn with hn | rfl
    · exact .inl hn
    · exact .inr (.inl (by simp [Notice.IsMinor, Notice.level, Level.rank]))

/-- In a turn an admission gets further at most, and nothing else changes of it. -/
theorem World.Orderly.admission_turn {w : World} {task : Task} (o : w.Orderly)
    (hr : w.ready.head? = some task) {i : Nat} {b : Admission}
    (hb : (w.taken.turn task).admissions[i]? = some b) :
    ∃ a, w.admissions[i]? = some a ∧ b = { a with phase := b.phase } ∧
      a.phase.stage ≤ b.phase.stage := by
  obtain ⟨a, ha, e⟩ := Moment.admission_before (m := ⟨w, task⟩) o hr hb
  obtain ⟨b', hb', becomes⟩ := (o.evolves_turn hr).becomes ha
  obtain rfl : b = b' := Option.some.inj (hb.symm.trans hb')
  exact ⟨a, ha, e, becomes.stage_le⟩

/-- Who has a timer is not in the queue. -/
theorem World.Orderly.not_ready {w : World} (o : w.Orderly) {i : Nat} {delay : Span} {t : Timer}
    (hp : w.phase? i = some (.waiting delay)) (ht : t ∈ w.timers) (own : t.task = .admission i) :
    .admission i ∉ w.ready := by
  intro hr
  obtain ⟨a, ha, phase⟩ := World.phase?_eq_some_iff.1 hp
  have placed := o.placed ha
  simp only [World.Placed, phase] at placed
  have queued : 0 < w.queued i := List.count_pos_iff.2 hr
  have timed : 0 < w.timed i := List.count_pos_iff.2 (List.mem_map.2 ⟨t, ht, own⟩)
  omega

/-! ### Time and notices -/

namespace World

variable {w : World}

theorem Orderly.advance (o : w.Orderly) (d : Span) : (w.advance d).Orderly :=
  Orderly.wakeTimers (o.frame (.of_same rfl rfl rfl rfl rfl) o.cell_cache_lt)

theorem Tidy.advance (t : w.Tidy) (d : Span) : (w.advance d).Tidy :=
  Tidy.wakeTimers (t.mono (Nat.le_refl _) fun _ => Nat.le_refl _)

theorem Flowing.advance (k : w.Flowing) (d : Span) : (w.advance d).Flowing :=
  ⟨k.running, k.opened, k.outside⟩

/-- Taking notices out of the trace changes nothing else. -/
theorem Orderly.takeNotices (o : w.Orderly) : w.takeNotices.2.Orderly :=
  o.frame (.of_same rfl rfl rfl rfl rfl) o.cell_cache_lt

theorem Tidy.takeNotices (t : w.Tidy) : w.takeNotices.2.Tidy :=
  t.mono (Nat.le_refl _) fun _ => Nat.le_refl _

theorem Flowing.takeNotices (k : w.Flowing) : w.takeNotices.2.Flowing :=
  ⟨k.running, k.opened, k.outside⟩

end World

/-- Who gets in the queue as time passes: those whose timers come due. -/
theorem World.mem_ready_advance {w : World} {d : Span} {task : Task} :
    task ∈ (w.advance d).ready ↔ task ∈ w.ready ∨
      ∃ t ∈ w.timers, t.task = task ∧ t.due ≤ (w.advance d).clock.now.millisDown := by
  have ready : (w.advance d).ready = w.ready ++
      ((w.timers.filter fun t => t.due ≤ (w.clock.advance d).now.millisDown).mergeSort
        fun s t => s.due ≤ t.due).map Timer.task := by
    simp only [advance, wakeTimers, List.partition_eq_filter_filter, enqueue]
  rw [ready, List.mem_append, List.mem_map]
  simp only [List.mem_mergeSort, List.mem_filter, decide_eq_true_eq]
  refine or_congr_right (exists_congr fun t => ?_)
  rw [and_assoc, and_comm (a := t.due ≤ _)]
  rfl

namespace Workload

/-- The outcome of a request. -/
def outcome? (r : Workload) (i : Nat) : Option Outcome := (r.limiter.outcomes r.keys)[i]?

theorem lt_length {r : Workload} {i : Nat} {o : Outcome} (h : r.outcome? i = some o) :
    i < r.keys.length := by
  obtain ⟨lt, -⟩ := List.getElem?_eq_some_iff.1 h
  simpa [Limiter.outcomes] using lt

/-- The millisecond up to which a request with a delay has to wait. -/
def due (r : Workload) (delay : Span) : Nat := (r.clock.now.later delay.onTimer).millisUp

/-- How a run stands. -/
structure Underway (r : Workload) (w : World) : Prop where
  orderly : w.Orderly
  tidy : w.Tidy
  flowing : w.Flowing
  origin_le : Instant.origin.nanos ≤ w.clock.now.nanos
  /-- The cache has a name, so it is not dropped. -/
  named : w.cacheNames.get? "" = some 0
  sweeper : ∃ phase, w.sweepers = #[⟨0, r.interval, phase⟩] ∧
    Sweeper.Paced ⟨0, r.interval, phase⟩
  size : w.admissions.size = r.keys.length
  request : ∀ {i : Nat} {a : Admission}, w.admissions[i]? = some a →
    a.limiter = r.limiter ∧ a.cache = 0 ∧ r.keys[i]? = some a.key ∧ a.awaited
  phase : ∀ {i : Nat} {a : Admission}, w.admissions[i]? = some a → a.phase = .issued ∨
    a.phase = .finished ∨ ∃ delay, a.phase = .waiting delay ∧ r.outcome? i = some (.ok delay)
  nodup : (w.trace.answers.toList.map Prod.fst).Nodup
  mem_answers : ∀ {i : Nat} {o : Outcome},
    (i, o) ∈ w.trace.answers.toList ↔ w.Done i ∧ r.outcome? i = some o
  /-- Timers are still to come. -/
  later : ∀ t ∈ w.timers, w.clock.now.millisDown < t.due
  /-- A request has a timer for its delay. -/
  timer : ∀ t ∈ w.timers, ∀ i, t.task = .admission i →
    ∃ delay, r.outcome? i = some (.ok delay) ∧ t.due = r.due delay
  /-- Nobody goes on before its delay is over. -/
  passed : ∀ i delay, r.outcome? i = some (.ok delay) →
    w.Done i ∨ (w.phase? i = some (.waiting delay) ∧ .admission i ∈ w.ready) →
    r.due delay ≤ w.clock.now.millisDown
  minor : ∀ n ∈ w.trace.notices, n.IsMinor

namespace Underway

variable {r : Workload} {w : World}

open World

/-- There is one sweeper only. -/
theorem sweeper_eq (k : r.Underway w) {j : Nat} (hr : w.ready.head? = some (.sweeper j)) :
    j = 0 := by
  obtain ⟨phase, alone, -⟩ := k.sweeper
  have := (k.tidy.lt_size (List.mem_of_mem_head? hr)).1
  simp only [alone, List.size_toArray, List.length_singleton] at this
  omega

/-- A turn of the sweeper leaves the requests alone. -/
theorem sweeperTurn (k : r.Underway w) {j : Nat} (hr : w.ready.head? = some (.sweeper j)) :
    r.Underway (w.taken.turn (.sweeper j)) := by
  obtain ⟨phase, alone, paced⟩ := k.sweeper
  obtain rfl := k.sweeper_eq hr
  have hs : w.taken.sweepers[0]? = some ⟨0, r.interval, phase⟩ := by simp [taken, alone]
  have orderly := k.orderly.turn hr
  have tidy := k.tidy.turn k.orderly hr
  have flowing := k.flowing.turn k.orderly hr
  have ticked := sweeperTurn_ticked (w := w.taken) (j := 0) (by simpa [hs] using paced)
  obtain ⟨phase', sweepers, paced'⟩ := sweepers_sweeperTurn hs paced
  obtain ⟨_, _, again, _, _, _, none, e⟩ := w.taken.sweeperTurn_frame 0
  rw [World.turn] at orderly tidy flowing ⊢
  -- Only the sweepers, the timers, the queue, the trace and the stores may differ.
  rw [e] at ticked sweepers orderly tidy flowing ⊢
  exact {
    orderly, tidy, flowing
    origin_le := k.origin_le
    named := k.named
    sweeper := ⟨phase', by rw [sweepers]; simp [taken, alone], paced'⟩
    size := k.size
    request := k.request
    phase := k.phase
    nodup := k.nodup
    mem_answers := k.mem_answers
    later := fun t ht => (ticked.timer t ht).elim (k.later t) And.right
    timer := fun t ht i hi => by
      rcases ticked.timer t ht with ht | ⟨own, -⟩
      · exact k.timer t ht i hi
      · rw [hi] at own
        cases own
    passed := fun i delay ho h => k.passed i delay ho <| h.imp_right <| And.imp_right fun hi =>
      List.mem_of_mem_tail ((List.mem_append.1 hi).resolve_right (none i))
    minor := fun n hn => (ticked.minor n hn).elim (k.minor n) id }

/-- How a request goes on to a phase, given its outcome: it is answered, if its delay is
    over, or begins to wait. -/
inductive Goes (r : Workload) (now : Instant) (i : Nat) :
    Outcome → Phase → List (Nat × Outcome) → List Timer → Prop
  | ends {o : Outcome} : (∀ delay, o = .ok delay → r.due delay ≤ now.millisDown) →
      Goes r now i o .finished [(i, o)] []
  | waits {delay : Span} : now.millisDown < r.due delay →
      Goes r now i (.ok delay) (.waiting delay) [] [⟨r.due delay, .admission i⟩]

namespace Goes

variable {now : Instant} {i : Nat} {o : Outcome} {phase : Phase} {given : List (Nat × Outcome)}
  {timers : List Timer}

/-- It is answered if it has ended, and with its outcome. -/
theorem mem_given (goes : Goes r now i o phase given timers) {x : Nat × Outcome} :
    x ∈ given ↔ x = (i, o) ∧ phase = .finished := by
  cases goes <;> simp

theorem nodup_given (goes : Goes r now i o phase given timers) :
    (given.map Prod.fst).Nodup := by
  cases goes <;> simp

/-- Its timer is for its delay, and is still to come. -/
theorem eq_of_mem_timers (goes : Goes r now i o phase given timers) {t : Timer}
    (ht : t ∈ timers) : ∃ delay, o = .ok delay ∧ t = ⟨r.due delay, .admission i⟩ ∧
      now.millisDown < t.due := by
  cases goes with
  | ends => cases ht
  | @waits delay later =>
    obtain rfl := List.mem_singleton.1 ht
    exact ⟨delay, rfl, rfl, later⟩

end Goes

/-- A request that goes on in its turn keeps a run going. -/
theorem moved (k : r.Underway w) {i : Nat} {a : Admission} {o : Outcome} {phase : Phase}
    {given : List (Nat × Outcome)} {timers : List Timer} {caches : Array CacheCell}
    {lines : Table LockId (List Nat)} {trace : Trace} (hi : w.admissions[i]? = some a)
    (unfinished : a.phase ≠ .finished) (ho : r.outcome? i = some o)
    (goes : Goes r w.clock.now i o phase given timers)
    (answers : trace.answers.toList = w.trace.answers.toList ++ given)
    (minor : ∀ n ∈ trace.notices, n ∈ w.trace.notices ∨ n.IsMinor)
    (orderly : (w.moved i phase caches timers lines trace).Orderly)
    (tidy : (w.moved i phase caches timers lines trace).Tidy)
    (flowing : (w.moved i phase caches timers lines trace).Flowing) :
    r.Underway (w.moved i phase caches timers lines trace) := by
  have phase? (j : Nat) : (w.moved i phase caches timers lines trace).phase? j =
      if i = j then some phase else w.phase? j := phase?_of_modify hi rfl j
  have undone : ¬ w.Done i := by
    rw [Done, phase?_eq hi, Option.some.injEq]
    exact unfinished
  have admission {j : Nat} {b : Admission}
      (hb : (w.moved i phase caches timers lines trace).admissions[j]? = some b) :
      ∃ b', w.admissions[j]? = some b' ∧
        b = { b' with phase := if i = j then phase else b'.phase } := by
    have hb : (w.setPhase i phase).admissions[j]? = some b := hb
    exact admission_setPhase rfl hb
  have done (j : Nat) : (w.moved i phase caches timers lines trace).Done j ↔
      w.Done j ∨ (i = j ∧ phase = .finished) := by
    rw [Done, phase?]
    by_cases hj : i = j
    · subst j
      simp [undone]
    · simp [hj, Done]
  constructor
  case orderly => exact orderly
  case tidy => exact tidy
  case flowing => exact flowing
  case origin_le => exact k.origin_le
  case named => exact k.named
  case sweeper => exact k.sweeper
  case size => exact (Array.size_modify ..).trans k.size
  case request =>
    intro j b hb
    obtain ⟨b', hb', rfl⟩ := admission hb
    have request := k.request hb'
    exact request
  case phase =>
    intro j b hb
    obtain ⟨b', hb', rfl⟩ := admission hb
    by_cases hj : i = j
    · subst j
      simp only [if_true]
      cases goes with
      | ends => exact .inr (.inl rfl)
      | waits => exact .inr (.inr ⟨_, rfl, ho⟩)
    · simp only [if_neg hj]
      exact k.phase hb'
  case nodup =>
    rw [show (w.moved i phase caches timers lines trace).trace.answers.toList = _ from answers,
      List.map_append]
    refine k.nodup.append goes.nodup_given fun j hj hj' => ?_
    obtain ⟨x, hx, rfl⟩ := List.mem_map.1 hj
    obtain ⟨y, hy, e⟩ := List.mem_map.1 hj'
    -- Who is answered now was not answered before.
    obtain ⟨rfl, -⟩ := goes.mem_given.1 hy
    obtain rfl : i = x.1 := e
    exact undone (k.mem_answers.1 hx).1
  case mem_answers =>
    intro j o'
    rw [show (w.moved i phase caches timers lines trace).trace.answers.toList = _ from answers,
      List.mem_append, k.mem_answers, goes.mem_given, done]
    by_cases hj : i = j
    · subst j
      simp [undone, ho, eq_comm, and_comm]
    · simp [hj, Ne.symm hj]
  case later =>
    intro t (ht : t ∈ w.timers ++ timers)
    rcases List.mem_append.1 ht with ht | ht
    · exact k.later t ht
    · obtain ⟨_, -, -, later⟩ := goes.eq_of_mem_timers ht
      exact later
  case timer =>
    intro t (ht : t ∈ w.timers ++ timers) j hj
    rcases List.mem_append.1 ht with ht | ht
    · exact k.timer t ht j hj
    · obtain ⟨delay, rfl, rfl, -⟩ := goes.eq_of_mem_timers ht
      cases hj
      exact ⟨delay, ho, rfl⟩
  case passed =>
    intro j delay hd h
    rw [done, phase?] at h
    have ready (hj : .admission j ∈ (w.moved i phase caches timers lines trace).ready) :
        .admission j ∈ w.ready := List.mem_of_mem_tail hj
    by_cases own : i = j
    · subst j
      obtain rfl : o = .ok delay := Option.some.inj (ho.symm.trans hd)
      cases goes with
      | ends past => exact past delay rfl
      | waits =>
        -- It has a timer, so it is not in the queue.
        obtain ⟨-, hj⟩ := h.resolve_left (by simp [undone])
        have timer : ⟨r.due delay, .admission i⟩ ∈ w.timers ++ [⟨r.due delay, .admission i⟩] :=
          List.mem_append_right _ (.head _)
        exact absurd hj (orderly.not_ready (by rw [phase?, if_pos rfl]) timer rfl)
    · simp only [own, false_and, or_false, if_false] at h
      exact k.passed j delay hd (h.imp_right (And.imp_right ready))
  case minor => exact fun n hn => (minor n hn).elim (k.minor n) id

/-- How a request that is decided at the start goes on. -/
theorem Goes.of_decided (r : Workload) (i : Nat) (o : Outcome) :
    Goes r r.clock.now i o (Exit.decided o).phase ((Exit.decided o).answers i)
      ((Exit.decided o).timers i r.clock.now) := by
  cases o with
  | error reason => exact .ends nofun
  | ok delay =>
    by_cases zero : delay = .zero
    · simp only [Exit.phase, Exit.answers, Exit.timers, if_pos zero]
      refine .ends fun delay' e => ?_
      cases e
      rw [due, zero, r.start]
      decide
    · simp only [Exit.phase, Exit.answers, Exit.timers, if_neg zero]
      exact .waits (Instant.millisDown_lt_millisUp
        (Nat.le_of_eq (congrArg Instant.nanos r.start.symm))
        (Span.nanos_ne_zero (Span.onTimer_ne_zero zero)))

/-- A turn of a request keeps a run going, if it is decided as is due to it. -/
theorem admissionTurn (k : r.Underway w) {i : Nat} (hr : w.ready.head? = some (.admission i))
    (fresh : ∀ {a cell}, w.admissions[i]? = some a → a.phase = .issued →
      w.caches[0]? = some cell → w.clock = r.clock ∧ ∃ o, r.outcome? i = some o ∧
        (a.entering cell r.clock).exit = .decided o ∧
        ∀ n ∈ (a.entering cell r.clock).notices, n.IsMinor) :
    r.Underway (w.taken.turn (.admission i)) := by
  have orderly := k.orderly.turn hr
  have tidy := k.tidy.turn k.orderly hr
  have flowing := k.flowing.turn k.orderly hr
  obtain ⟨a, hi, turn⟩ := k.flowing.turn_cases k.orderly hr
  have notices := k.orderly.notices_turn hr hi
  obtain ⟨-, cache, -, -⟩ := k.request hi
  generalize w.taken.turn (.admission i) = w' at turn orderly tidy flowing notices
  cases turn with
  | @decides cell _ lines trace hp hc _ given =>
    -- A request that is decided has not had a turn before.
    obtain ⟨clock, o, ho, he, minor⟩ := fresh hi hp (cache ▸ hc)
    rw [clock, he] at orderly tidy flowing given ⊢
    refine k.moved hi (by simp [hp]) ho (clock ▸ Goes.of_decided r i o) given (fun n hn => ?_)
      orderly tidy flowing
    rcases notices n hn with old | small | ⟨-, cell', hc', hn⟩
    · exact .inl old
    · exact .inr small
    · obtain rfl : cell = cell' := Option.some.inj (hc.symm.trans hc')
      have passage : a.passage cell w.clock = a.entering cell r.clock := by
        simp [Admission.passage, hp, clock]
      exact .inr (minor n (passage ▸ hn))
  | @ends delay trace hp given =>
    have ho : r.outcome? i = some (.ok delay) := by
      rcases k.phase hi with h | h | ⟨delay', h, ho⟩
      · simp [hp] at h
      · simp [hp] at h
      · rw [hp] at h
        cases h
        exact ho
    refine k.moved hi (by simp [hp]) ho (.ends fun delay' e => ?_) given (fun n hn => ?_)
      orderly tidy flowing
    · cases e
      exact k.passed i delay ho (.inr ⟨by rw [phase?_eq hi, hp], List.mem_of_mem_head? hr⟩)
    · rcases notices n hn with old | small | ⟨early, -⟩
      · exact .inl old
      · exact .inr small
      · simp [hp, Phase.stage] at early

/-- As time passes those who have waited for their delays get in the queue again. -/
theorem advance (k : r.Underway w) (d : Span) : r.Underway (w.advance d) := by
  have on : w.clock.now.millisDown ≤ (w.advance d).clock.now.millisDown :=
    Instant.millisDown_mono (Nat.le_add_right ..)
  have timers {t : Timer} : t ∈ (w.advance d).timers ↔
      t ∈ w.timers ∧ (w.advance d).clock.now.millisDown < t.due := mem_timers_wakeTimers
  exact {
    orderly := k.orderly.advance d
    tidy := k.tidy.advance d
    flowing := k.flowing.advance d
    origin_le := Nat.le_add_right_of_le k.origin_le
    named := k.named
    sweeper := k.sweeper
    size := k.size
    request := k.request
    phase := k.phase
    nodup := k.nodup
    mem_answers := k.mem_answers
    later := fun t ht => (timers.1 ht).2
    timer := fun t ht => k.timer t (timers.1 ht).1
    passed := fun i delay ho h => by
      rcases h with done | ⟨waits, hi⟩
      · exact Nat.le_trans (k.passed i delay ho (.inl done)) on
      · rcases mem_ready_advance.1 hi with hi | ⟨t, ht, own, due⟩
        · exact Nat.le_trans (k.passed i delay ho (.inr ⟨waits, hi⟩)) on
        · obtain ⟨delay', ho', e⟩ := k.timer t ht i own
          cases ho.symm.trans ho'
          rwa [← e]
    minor := k.minor }

theorem takeNotices (k : r.Underway w) : r.Underway w.takeNotices.2 :=
  { k with
    orderly := k.orderly.takeNotices
    tidy := k.tidy.takeNotices
    flowing := k.flowing.takeNotices
    minor := fun n hn => by simp [World.takeNotices] at hn }

end Underway

end Workload

end Turnstile
