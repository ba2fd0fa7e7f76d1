import Turnstile.Proofs.CommandLine.Waiting

/-!
# Issuing

At the start of a run the sweeper has its first turn, and then the requests have theirs,
in the order in which they were issued (`Workload.Issuing`). Each is decided in its turn,
and finds in the cache what those before it for its key have left there
(`Batch.entering`).

* `foldl_issue`: the world when all requests are issued;
* `Issuing.turn`: the turn of a request;
* `waits_start`: when no task can go on, every request has been decided, and what is
  stored is known.
-/

namespace Turnstile

open World CommandLine

/-- To issue some requests adds them to the admissions, and to the queue. -/
theorem foldl_issue (w : World) (l : Nat) (cell : LimiterCell) (ids : List String) :
    ids.foldl (fun w id => w.issue l cell id) w =
      { w with
        admissions := w.admissions ++ ids.map (request l cell)
        ready := w.ready ++ (List.range' w.admissions.size ids.length).map .admission } := by
  induction ids generalizing w with
  | nil => simp
  | cons id rest ih =>
    rw [List.foldl_cons, ih]
    simp [World.issue, request, enqueue, List.range'_succ]

theorem World.Orderly.foldl_issue {w : World} (o : w.Orderly) {l : Nat} {cell : LimiterCell}
    (hl : w.limiters[l]? = some cell) (ids : List String) :
    (ids.foldl (fun w id => w.issue l cell id) w).Orderly := by
  induction ids generalizing w with
  | nil => exact o
  | cons id rest ih => exact ih (o.issue hl id) hl

namespace Workload

variable {r : Workload} {env : Environment} {s : Settings} {ids : List String} {w : World}

/-- That a workload is that of a run with some settings, for some identifiers. -/
structure Arises (r : Workload) (env : Environment) (s : Settings) (ids : List String) : Prop where
  clock : r.clock = .starting env.wall
  keys : r.keys = ids.map r.limiter.anonymize
  interval : r.interval = s.cache.sweepInterval.onTimer

/-! ### The start -/

/-- The world of a run with all its requests issued. -/
theorem issueRequests_eq (env : Environment) (s : Settings) (l : Limiter) (ids : List String) :
    issueRequests (prepare env s) l ids =
      { clock := .starting env.wall
        caches := #[{ name := "" }]
        limiters := #[⟨l, 0⟩]
        admissions := (ids.map (request 0 ⟨l, 0⟩)).toArray
        sweepers := #[⟨0, s.cache.sweepInterval.onTimer, .issued⟩]
        cacheNames := Table.empty.set "" 0
        limiterNames := Table.empty.set "" 0
        ready := .sweeper 0 :: (List.range' 0 ids.length).map .admission } := by
  rw [issueRequests, foldl_issue]
  simp [prepare, addLimiter, addSweeper, addCache, starting, enqueue]

theorem orderly_start (env : Environment) (s : Settings) (l : Limiter) (ids : List String) :
    (issueRequests (prepare env s) l ids).Orderly := by
  have unlimited {w : World} (h : w.limiters = #[]) {i : Nat} {cell : LimiterCell}
      (hl : w.limiters[i]? = some cell) : cell.cache < w.caches.size := by
    simp [h] at hl
  have cached : ((starting env.wall).addCache "").Orderly :=
    (orderly_starting env.wall).frame (.addCache ..) (unlimited rfl)
  have prepared : (prepare env s).Orderly := cached.frame (.addSweeper ..) (unlimited rfl)
  have limited : ((prepare env s).addLimiter "" l 0).Orderly :=
    prepared.frame (.of_same rfl rfl rfl rfl rfl) fun {i cell} hl => by
      obtain rfl := List.mem_singleton.1 (Array.mem_toList_iff.2 (Array.mem_of_getElem? hl))
      exact Nat.zero_lt_one
  exact limited.foldl_issue rfl ids

/-- At the start no request has had a turn. -/
theorem admission_start {l : Limiter} {i : Nat} {a : Admission}
    (hi : (issueRequests (prepare env s) l ids).admissions[i]? = some a) :
    ∃ id, ids[i]? = some id ∧ a = request 0 ⟨l, 0⟩ id := by
  rw [issueRequests_eq] at hi
  obtain ⟨id, hid, e⟩ : ∃ id, ids[i]? = some id ∧ request 0 ⟨l, 0⟩ id = a := by simpa using hi
  exact ⟨id, hid, e.symm⟩

theorem phase?_start {l : Limiter} {i : Nat} {p : Phase}
    (h : (issueRequests (prepare env s) l ids).phase? i = some p) : p = .issued := by
  obtain ⟨a, hi, rfl⟩ := phase?_eq_some_iff.1 h
  obtain ⟨id, -, rfl⟩ := admission_start hi
  rfl

theorem tidy_start (env : Environment) (s : Settings) (l : Limiter) (ids : List String) :
    (issueRequests (prepare env s) l ids).Tidy := by
  constructor
  intro j
  rw [issueRequests_eq]
  simp only [sweeperPlaces, List.count_cons, count_sweeper_map_admission, List.map_nil,
    List.count_nil, beq_iff_eq, Task.sweeper.injEq, List.size_toArray, List.length_singleton]
  split <;> split <;> omega

theorem flowing_start (env : Environment) (s : Settings) (l : Limiter) (ids : List String) :
    (issueRequests (prepare env s) l ids).Flowing := by
  have eq := issueRequests_eq env s l ids
  refine ⟨by rw [eq], fun cell hc => ?_, fun hi => ?_⟩
  · rw [eq] at hc
    obtain rfl : cell = { name := "" } := by simpa using hc
    exact fun kind => by cases kind <;> simp [CacheCell.gate]
  · obtain ⟨id, -, rfl⟩ := admission_start hi
    exact .inl rfl

/-- A run that has issued its requests is under way. -/
theorem underway_start (h : r.Arises env s ids) :
    r.Underway (issueRequests (prepare env s) r.limiter ids) := by
  have eq := issueRequests_eq env s r.limiter ids
  have undone {i : Nat} : ¬ (issueRequests (prepare env s) r.limiter ids).Done i :=
    fun done => by cases phase?_start done
  constructor
  case orderly => exact orderly_start ..
  case tidy => exact tidy_start ..
  case flowing => exact flowing_start ..
  case origin_le => rw [eq]; exact Nat.le_refl _
  case named => rw [eq]; rfl
  case sweeper => exact ⟨.issued, by rw [eq, h.interval], fun _ => .inl rfl⟩
  case size => rw [eq]; simp [h.keys]
  case request =>
    intro i a hi
    obtain ⟨id, hid, rfl⟩ := admission_start hi
    exact ⟨rfl, rfl, by simp [h.keys, hid, request], rfl⟩
  case phase =>
    intro i a hi
    obtain ⟨id, -, rfl⟩ := admission_start hi
    exact .inl rfl
  case nodup => rw [eq]; exact .nil
  case mem_answers =>
    intro i o
    simp only [undone, false_and, iff_false]
    rw [eq]
    exact List.not_mem_nil
  case later => rw [eq]; exact fun t ht => absurd ht List.not_mem_nil
  case timer => rw [eq]; exact fun t ht => absurd ht List.not_mem_nil
  case passed =>
    rintro i delay - (done | ⟨waits, -⟩)
    · exact absurd done undone
    · cases phase?_start waits
  case minor => rw [eq]; exact fun n hn => absurd hn (Array.not_mem_empty n)

/-! ### The turns of the requests -/

/-- A run in which some requests have had their turns, and the others are still to have
    theirs. -/
structure Issuing (r : Workload) (k : Nat) (w : World) : Prop where
  underway : r.Underway w
  clock : w.clock = r.clock
  ready : w.ready = (List.range' k (r.keys.length - k)).map .admission
  begun : ∀ {i : Nat} {a : Admission}, w.admissions[i]? = some a → (1 ≤ a.phase.stage ↔ i < k)
  /-- What is stored for a key was left by the requests for it. -/
  cell : ∃ cell, w.caches[0]? = some cell ∧ (∀ kind, cell.gate kind = .pass) ∧
    ∀ key : Key, cell.store.stored? key.text = r.stored ((r.keys.take k).count key)
  /-- The sweeper waits for its tick. -/
  sweeper : r.interval = .zero ∨
    w.sweepers[0]? = some ⟨0, r.interval, .ticking r.tick⟩ ∧
      ⟨r.tick.millisUp, .sweeper 0⟩ ∈ w.timers

/-- First the sweeper has its turn. -/
theorem issuing_start (h : r.Arises env s ids) :
    r.Issuing 0 ((issueRequests (prepare env s) r.limiter ids).taken.turn (.sweeper 0)) := by
  have eq := issueRequests_eq env s r.limiter ids
  have start := underway_start h
  have untouched {i : Nat} {a : Admission}
      (hi : (issueRequests (prepare env s) r.limiter ids).admissions[i]? = some a) :
      1 ≤ a.phase.stage ↔ i < 0 := by
    obtain ⟨id, -, rfl⟩ := admission_start hi
    simp [Phase.stage]
  generalize issueRequests (prepare env s) r.limiter ids = w at *
  have hs : w.taken.sweepers[0]? = some ⟨0, r.interval, .issued⟩ := by rw [eq, h.interval]; rfl
  have clock : w.clock = r.clock := by rw [eq, h.clock]
  have underway := start.sweeperTurn (j := 0) (by rw [eq]; rfl)
  obtain ⟨sweepers, timers, trace, after, waits⟩ : ∃ sweepers timers trace,
      w.taken.turn (.sweeper 0) = { w.taken with sweepers, timers, trace } ∧
        (r.interval = .zero ∨ sweepers[0]? = some ⟨0, r.interval, .ticking r.tick⟩ ∧
          ⟨r.tick.millisUp, .sweeper 0⟩ ∈ timers) := by
    rw [World.turn]
    by_cases zero : r.interval = .zero
    · simp only [sweeperTurn, hs, if_pos zero]
      exact ⟨_, _, _, rfl, .inl zero⟩
    · have tick : w.taken.clock.now.later r.interval = r.tick := by
        rw [show w.taken.clock = w.clock from rfl, clock, tick]
      rw [sweeperTurn_issued (w := w.taken) hs rfl zero
        (show w.clock.now = _ by rw [clock, r.start]), tick]
      refine ⟨_, _, _, rfl, .inr ⟨?_, List.mem_append_right _ (.head _)⟩⟩
      rw [setSweeperPhase, Array.getElem?_modify, hs]
      rfl
  rw [after] at underway ⊢
  refine ⟨underway, clock, ?_, untouched, ⟨{ name := "" }, by rw [eq]; rfl, ?_, ?_⟩, waits⟩
  · simp [taken, eq, h.keys]
  · exact fun kind => by cases kind <;> rfl
  · exact fun key => rfl

namespace Issuing

variable {k : Nat}

/-- The next request is decided by what those before it have left. -/
theorem turn (h : r.Issuing k w) {task : Task} (hr : w.ready.head? = some task) :
    r.Issuing (k + 1) (w.taken.turn task) := by
  -- The queue holds the requests in their order.
  have next : k < r.keys.length ∧ task = .admission k := by
    have ready := h.ready
    cases n : r.keys.length - k with
    | zero => simp [ready, n] at hr
    | succ n =>
      rw [ready, n, List.range'_succ] at hr
      exact ⟨by omega, by simpa [eq_comm] using hr⟩
  obtain ⟨lt, rfl⟩ := next
  have underway := h.underway
  obtain ⟨a, hi, turn⟩ := underway.flowing.turn_cases underway.orderly hr
  obtain ⟨limiter, cache, key, -⟩ := underway.request hi
  obtain ⟨cell, hc, gate, stored⟩ := h.cell
  obtain ⟨exit, store, minor⟩ := r.entering gate limiter (stored a.key)
  have outcome : r.outcome? k = some (r.limiter.answerAfter ((r.keys.take k).count a.key)) := by
    simp [outcome?, Limiter.outcomes, key]
  have after : r.Underway (w.taken.turn (.admission k)) := by
    refine underway.admissionTurn hr fun {b cell'} hb _ hc' => ?_
    cases hi.symm.trans hb
    cases hc.symm.trans hc'
    exact ⟨h.clock, _, outcome, exit, minor⟩
  generalize w.taken.turn (.admission k) = w' at turn after
  cases turn with
  | ends hp =>
    have := (h.begun hi).1 (by simp [hp, Phase.stage])
    omega
  | @decides cell' _ lines trace hp hc' he given =>
    rw [cache] at hc'
    cases hc.symm.trans hc'
    rw [h.clock] at he after ⊢
    constructor
    case underway => exact after
    case clock => exact h.clock
    case ready =>
      have left : r.keys.length - k = r.keys.length - (k + 1) + 1 := by omega
      simp [World.moved, taken, h.ready, left, List.range'_succ]
    case begun =>
      intro j b hb
      obtain ⟨b', hb', rfl⟩ := admission_setPhase (i := k) rfl hb
      by_cases own : k = j
      · subst j
        simp [Exit.stage_of_outcome he]
      · simp only [if_neg own, h.begun hb']
        omega
    case cell =>
      refine ⟨{ cell with store := (a.entering cell r.clock).store }, ?_, ?_, fun other => ?_⟩
      · rw [cache]
        simp only [World.moved, Array.getElem?_modify, hc]
        rfl
      · intro kind
        cases kind with
        | lookup => exact gate .lookup
        | store => exact gate .store
      · have count : (r.keys.take (k + 1)).count other =
            (r.keys.take k).count other + if a.key = other then 1 else 0 := by
          rw [List.take_add_one, key, Option.toList_some, List.count_append, List.count_singleton]
          simp
        -- Keys with the same text are the same, so an entry is that of one key.
        rw [count, store other.text]
        by_cases own : a.key = other
        · simp [own]
        · have text : other.text ≠ a.key.text := fun e => own (by
            rw [← show Key.mk other.text = other from rfl, e])
          simp [own, text, stored]
    case sweeper => exact h.sweeper.imp_right (And.imp_right (List.mem_append_left _))

/-- When no task can go on, all requests have had their turns. -/
theorem waits (h : r.Issuing k w) (settled : w.ready = []) : ∃ store, r.Waits store w ∧
    ∀ key : Key, store.stored? key.text = r.stored (r.keys.count key) := by
  have all : r.keys.length ≤ k := by
    have none := h.ready.symm.trans settled
    simp only [List.map_eq_nil_iff, List.range'_eq_nil_iff] at none
    omega
  obtain ⟨cell, hc, -, stored⟩ := h.cell
  have store : w.store? = some cell.store := by rw [store?, hc]; rfl
  refine ⟨cell.store, ⟨h.underway, fun {i a} hi => (h.begun hi).2 ?_, fun _ => ?_⟩, fun key => ?_⟩
  · have := (Array.getElem?_eq_some_iff.1 hi).1
    have := h.underway.size
    omega
  · rcases h.sweeper with zero | ⟨ticking, timer⟩
    · exact .never zero store
    · exact .ahead ticking (.inr timer) (.inl (h.underway.later _ timer)) store
  · rw [stored, List.take_of_length_le all]

end Issuing

/-- Once the requests of a run are issued and no task can go on, all of them have had
    their turns. -/
theorem waits_start (h : r.Arises env s ids) :
    let w := (issueRequests (prepare env s) r.limiter ids).settle
    ∃ store, r.Waits store w ∧ w.clock = r.clock ∧
      ∀ key : Key, store.stored? key.text = r.stored (r.keys.count key) := by
  have start := underway_start h
  have settled := settle_settled start.orderly start.tidy
  obtain ⟨k, issuing⟩ : ∃ k, r.Issuing k (issueRequests (prepare env s) r.limiter ids).settle := by
    have head : (issueRequests (prepare env s) r.limiter ids).ready.head? = some (.sweeper 0) := by
      rw [issueRequests_eq]
      rfl
    have turns : 2 * ((issueRequests (prepare env s) r.limiter ids).admissions.size +
        (issueRequests (prepare env s) r.limiter ids).sweepers.size) = 2 * ids.length + 1 + 1 := by
      rw [issueRequests_eq]
      simp
      omega
    rw [settle, turns, takeTurns_succ head]
    exact takeTurns_induction (P := fun w => ∃ k, r.Issuing k w)
      (fun ⟨k, h⟩ hr => ⟨k + 1, h.turn hr⟩) _ ⟨0, issuing_start h⟩
  obtain ⟨store, waits, stored⟩ := issuing.waits settled
  exact ⟨store, waits, issuing.clock, stored⟩

end Workload

end Turnstile
