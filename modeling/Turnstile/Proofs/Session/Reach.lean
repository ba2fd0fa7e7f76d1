import Turnstile.Proofs.Session.Change
import Turnstile.Proofs.Session.Order

/-!
# Reachable worlds

The steps of a session keep the admissions where they belong, as their turns do
(`Orderly.acted`), so every world of a session is orderly (`Course.orderly`).

* `Orderly.issue`: a new request stands last in the queue, and nowhere else;
* `Orderly.wakeTimers`, `Orderly.touched`: who is woken goes from one place into the
  queue;
* `Orderly.shutDown`: after a shutdown nobody is anywhere;
* `Course.evolves`: no admission is lost, becomes one for another request, or goes
  back.
-/

namespace Turnstile

/-- What a step makes of the clocks. -/
def Step.clockAfter (k : Clock) : Step → Clock
  | .advance d => k.advance d
  | .setWall wall => { k with wall }
  | _ => k

theorem Clock.advance_zero (k : Clock) : k.advance .zero = k := by
  simp [Clock.advance, Instant.later, Span.zero]

/-- That an admission has become another: it is for the same request, and has not
    gone back. -/
structure Admission.Becomes (a b : Admission) : Prop where
  owner : b.owner = a.owner
  limiter : b.limiter = a.limiter
  cache : b.cache = a.cache
  key : b.key = a.key
  stage_le : a.phase.stage ≤ b.phase.stage

theorem Admission.Becomes.refl (a : Admission) : a.Becomes a :=
  ⟨rfl, rfl, rfl, rfl, Nat.le_refl _⟩

theorem Admission.Becomes.trans {a b c : Admission} (h : a.Becomes b) (h' : b.Becomes c) :
    a.Becomes c :=
  ⟨h'.owner.trans h.owner, h'.limiter.trans h.limiter, h'.cache.trans h.cache,
    h'.key.trans h.key, Nat.le_trans h.stage_le h'.stage_le⟩

theorem Admission.Becomes.lock {a b : Admission} (h : a.Becomes b) : b.lock = a.lock := by
  rw [Admission.lock, h.owner, h.key, Admission.lock]

namespace World

variable {w : World}

/-! ### Requests -/

section

variable {l : Nat} {cell : LimiterCell} {identifier : String}

/-- The request that a limiter issues. -/
def request (l : Nat) (cell : LimiterCell) (identifier : String) : Admission :=
  { owner := l, limiter := cell.limiter, cache := cell.cache,
    key := cell.limiter.anonymize identifier }

@[simp] theorem phase_request : (request l cell identifier).phase = .issued := rfl

/-- After the issue of a request there is that one more. -/
theorem getElem?_issue (w : World) (i : Nat) : (w.issue l cell identifier).admissions[i]? =
    if i = w.admissions.size then some (request l cell identifier) else w.admissions[i]? := by
  simp only [World.issue, enqueue, Array.getElem?_push, request]

theorem admission_issue {i : Nat} {a : Admission} (ha : w.admissions[i]? = some a) :
    (w.issue l cell identifier).admissions[i]? = some a := by
  have := (Array.getElem?_eq_some_iff.1 ha).1
  rw [getElem?_issue, if_neg (by omega)]
  exact ha

theorem admission_issue_cases {i : Nat} {b : Admission}
    (hb : (w.issue l cell identifier).admissions[i]? = some b) :
    w.admissions[i]? = some b ∨ (i = w.admissions.size ∧ b = request l cell identifier) := by
  rw [getElem?_issue] at hb
  split at hb
  · exact .inr ⟨‹_›, (Option.some.inj hb).symm⟩
  · exact .inl hb

theorem queued_issue (w : World) (i : Nat) : (w.issue l cell identifier).queued i =
    w.queued i + if i = w.admissions.size then 1 else 0 := by
  simp only [World.queued, World.issue, enqueue, List.count_append, List.count_singleton]
  by_cases h : i = w.admissions.size
  · simp [h]
  · simp [h, Ne.symm h]

/-- Nobody with the number of the next request is anywhere. -/
theorem Orderly.fresh (o : w.Orderly) : w.queued w.admissions.size = 0 ∧
    w.timed w.admissions.size = 0 ∧ ∀ c, w.admissions.size ∉ w.parked c := by
  have none : w.admissions[w.admissions.size]? = none := by simp
  have absent := o.absent none
  refine ⟨absent.1, absent.2, fun c h => ?_⟩
  obtain ⟨a, ha, -⟩ := o.parked_held h
  rw [none] at ha
  cases ha

/-- A request just issued stands behind all others in the queue. -/
theorem Orderly.fifo_issue (o : w.Orderly) :
    (w.issue l cell identifier).ready.Pairwise (w.issue l cell identifier).InOrder := by
  have issued {i : Nat} (hi : i ≠ w.admissions.size)
      (h : (w.issue l cell identifier).phase? i = some .issued) : w.phase? i = some .issued := by
    rwa [phase?, getElem?_issue, if_neg hi] at h
  -- Who stood in the queue before has a lower number than the new request.
  have ne {i : Nat} (hi : Task.admission i ∈ w.ready) : i ≠ w.admissions.size := by
    rintro rfl
    exact List.count_eq_zero.1 o.fresh.1 hi
  have ready : (w.issue l cell identifier).ready =
      w.ready ++ [.admission w.admissions.size] := rfl
  rw [ready, List.pairwise_append]
  refine ⟨o.fifo.imp_of_mem fun {s t} hs ht h i j hi hj pi pj => ?_, List.pairwise_singleton ..,
    fun s hs t ht i j hi hj pi pj => ?_⟩
  · subst hi hj
    exact h i j rfl rfl (issued (ne hs) pi) (issued (ne ht) pj)
  · subst hi hj
    cases List.mem_singleton.1 ht
    obtain ⟨a, ha, -⟩ := Option.map_eq_some_iff.1 (issued (ne hs) pi)
    exact (Array.getElem?_eq_some_iff.1 ha).1

theorem Orderly.placed_issue (o : w.Orderly) {i : Nat} {b : Admission}
    (hb : (w.issue l cell identifier).admissions[i]? = some b) :
    (w.issue l cell identifier).Placed i b := by
  have timed (i : Nat) : (w.issue l cell identifier).timed i = w.timed i := rfl
  have parked (c : Nat) : (w.issue l cell identifier).parked c = w.parked c := rfl
  have line (k : LockId) : (w.issue l cell identifier).line k = w.line k := rfl
  rcases admission_issue_cases hb with hb | ⟨rfl, rfl⟩
  · have placed := o.placed hb
    have := (Array.getElem?_eq_some_iff.1 hb).1
    simp only [Placed, queued_issue, timed, parked, line] at placed ⊢
    rw [if_neg (by omega)]
    exact placed
  · have fresh := o.fresh
    have out : (w.parked cell.cache).count w.admissions.size = 0 :=
      List.count_eq_zero.2 (fresh.2.2 _)
    simp [Placed, request, queued_issue, timed, parked, fresh, out]

/-- A request just issued is in the queue only. -/
theorem Orderly.issue (o : w.Orderly) (hl : w.limiters[l]? = some cell) (identifier : String) :
    (w.issue l cell identifier).Orderly := by
  constructor
  case cache_lt =>
    intro i b hb
    rcases admission_issue_cases hb with h | ⟨-, rfl⟩
    · exact o.cache_lt h
    · exact o.cell_cache_lt hl
  case cell_cache_lt => exact o.cell_cache_lt
  case sorted => exact o.sorted
  case mem_line =>
    intro k i
    have line : (w.issue l cell identifier).line k = w.line k := rfl
    rw [line, o.mem_line]
    constructor
    · rintro ⟨a, ha, h⟩
      exact ⟨a, admission_issue ha, h⟩
    · rintro ⟨b, hb, hk, h1, h2⟩
      rcases admission_issue_cases hb with hb | ⟨-, rfl⟩
      · exact ⟨b, hb, hk, h1, h2⟩
      · cases h1
  case order =>
    intro i j a b hij ha hb hab
    rcases admission_issue_cases hb with hb | ⟨-, rfl⟩
    · rcases admission_issue_cases ha with ha | ⟨hi, -⟩
      · exact o.order hij ha hb hab
      · have := (Array.getElem?_eq_some_iff.1 hb).1
        omega
    · simp [Phase.stage]
  case fifo => exact o.fifo_issue
  case placed => exact o.placed_issue
  case absent =>
    intro i hi
    rw [getElem?_issue] at hi
    split at hi
    · cases hi
    · rw [queued_issue, if_neg ‹_›]
      exact o.absent hi
  case parked_held =>
    intro c i hi
    obtain ⟨a, ha, hc, hh⟩ := o.parked_held hi
    exact ⟨a, admission_issue ha, hc, hh⟩

end

theorem Orderly.issueAll (o : w.Orderly) {l : Nat} {cell : LimiterCell}
    (hl : w.limiters[l]? = some cell) (identifier : String) (times : Nat) :
    (w.issueAll l cell identifier times).Orderly := by
  induction times generalizing w with
  | zero => exact o
  | succ n ih => exact ih (o.issue hl identifier) hl

/-! ### Wakers -/

/-- The timers that have come due go into the queue, the others stay. -/
theorem wakeTimers_eq (w : World) : ∃ due later, (due ++ later).Perm w.timers ∧
    w.wakeTimers = { w with timers := later, ready := w.ready ++ due.map Timer.task } := by
  unfold wakeTimers
  rw [List.partition_eq_filter_filter]
  exact ⟨_, _, ((List.mergeSort_perm ..).append_right _).trans (List.filter_append_perm ..), rfl⟩

/-- Admissions that go from a timer or a gate into the queue, where nothing else
    changes. -/
structure Woken (w w' : World) (woken : List Task) : Prop where
  admissions : w'.admissions = w.admissions
  limiters : w'.limiters = w.limiters
  size : w'.caches.size = w.caches.size
  line : ∀ l, w'.line l = w.line l
  ready : w'.ready = w.ready ++ woken
  /-- Who is woken was at a timer or parked, and is there no more. -/
  moved : ∀ {i : Nat} {a : Admission}, w.admissions[i]? = some a →
    w'.timed i + (w'.parked a.cache).count i + woken.count (.admission i) =
      w.timed i + (w.parked a.cache).count i
  absent : ∀ {i : Nat}, w.admissions[i]? = none → w'.timed i + woken.count (.admission i) = 0
  timed_le : ∀ i, w'.timed i ≤ w.timed i
  parked_le : ∀ c i, (w'.parked c).count i ≤ (w.parked c).count i
  parked_held : ∀ {c i}, i ∈ w'.parked c → i ∈ w.parked c ∧ ∀ kind, w.holds c kind → w'.holds c kind

/-- To wake admissions keeps them where they belong. -/
theorem Orderly.woken {w' : World} {woken : List Task} (o : w.Orderly) (k : Woken w w' woken) :
    w'.Orderly := by
  have queued (i : Nat) : w'.queued i = w.queued i + woken.count (.admission i) := by
    rw [World.queued, k.ready, List.count_append, World.queued]
  have phase (i : Nat) : w'.phase? i = w.phase? i := by
    rw [phase?, k.admissions, phase?]
  -- Who is woken has had a turn, so no order is asked of it.
  have fresh {i : Nat} (hi : Task.admission i ∈ woken) : w.phase? i ≠ some .issued := by
    have pos : 1 ≤ woken.count (.admission i) := List.count_pos_iff.2 hi
    intro h
    obtain ⟨a, ha, hp⟩ := Option.map_eq_some_iff.1 h
    have placed := o.placed ha
    have := k.moved ha
    simp only [Placed, hp] at placed
    omega
  constructor
  case cache_lt =>
    intro i a ha
    rw [k.admissions] at ha
    rw [k.size]
    exact o.cache_lt ha
  case cell_cache_lt =>
    intro l cell hl
    rw [k.limiters] at hl
    rw [k.size]
    exact o.cell_cache_lt hl
  case sorted =>
    intro l
    rw [k.line]
    exact o.sorted l
  case mem_line =>
    intro l i
    rw [k.line, k.admissions]
    exact o.mem_line
  case order =>
    intro i j a b hij ha hb
    rw [k.admissions] at ha hb
    exact o.order hij ha hb
  case fifo =>
    rw [k.ready, List.pairwise_append]
    refine ⟨o.fifo.imp fun h i j hi hj pi pj => ?_,
      List.pairwise_of_forall_mem_list fun s hs t _ i j hi _ pi _ => ?_,
      fun s _ t ht i j _ hj _ pj => ?_⟩
    · rw [phase] at pi pj
      exact h i j hi hj pi pj
    · subst hi
      rw [phase] at pi
      exact absurd pi (fresh hs)
    · subst hj
      rw [phase] at pj
      exact absurd pj (fresh ht)
  case placed =>
    intro i a ha
    rw [k.admissions] at ha
    have placed := o.placed ha
    have moved := k.moved ha
    have := k.timed_le i
    have := k.parked_le a.cache i
    unfold Placed at placed ⊢
    rw [queued, k.line]
    cases hp : a.phase with
    | inLine =>
      simp only [hp] at placed ⊢
      omega
    | _ =>
      simp only [hp] at placed ⊢
      omega
  case absent =>
    intro i hi
    rw [k.admissions] at hi
    have := k.absent hi
    have := o.absent hi
    rw [queued]
    omega
  case parked_held =>
    intro c i hi
    obtain ⟨hi, held⟩ := k.parked_held hi
    obtain ⟨a, ha, hc, hh⟩ := o.parked_held hi
    refine ⟨a, by rwa [k.admissions], hc, ?_⟩
    cases hp : a.phase with
    | beforeLookup | beforeStore =>
      rw [hp] at hh
      exact held _ hh
    | _ =>
      rw [hp] at hh
      exact hh.elim

/-- To let time pass keeps the admissions where they belong. -/
theorem Orderly.wakeTimers (o : w.Orderly) : w.wakeTimers.Orderly := by
  obtain ⟨due, later, hp, he⟩ := w.wakeTimers_eq
  have split (i : Nat) : (later.map Timer.task).count (.admission i) +
      (due.map Timer.task).count (.admission i) = w.timed i := by
    have := (hp.map Timer.task).count_eq (.admission i)
    rw [List.map_append, List.count_append] at this
    rw [timed, ← this, Nat.add_comm]
  have k : Woken w w.wakeTimers (due.map Timer.task) := by
    rw [he]
    constructor
    case admissions | limiters | size | line | ready => intros; rfl
    case moved =>
      intro i a _
      have := split i
      simp only [timed, parked] at this ⊢
      omega
    case absent =>
      intro i hi
      have h := split i
      rw [(o.absent hi).2] at h
      exact h
    case timed_le =>
      intro i
      have := split i
      simp only [timed] at this ⊢
      omega
    case parked_le => exact fun _ _ => Nat.le_refl _
    case parked_held => exact fun {c i} hi => ⟨hi, fun kind h => h⟩
  exact o.woken k

/-- The world once a gate of a cache is touched: whoever was parked there may try
    again. -/
def touched (w : World) (c : Nat) (cell : CacheCell) (kind : CallKind) (mode : GateMode) : World :=
  { w with caches := w.caches.modify c (·.setGate kind mode) }.unpark c cell

section

variable {c : Nat} {cell : CacheCell} {kind : CallKind} {mode : GateMode}

theorem getElem?_touched (d : Nat) : (w.touched c cell kind mode).caches[d]? =
    if c = d then w.caches[d]?.map fun cell => { cell.setGate kind mode with parked := [] }
    else w.caches[d]? := by
  simp only [touched, World.unpark, enqueue, Array.getElem?_modify]
  split
  · simp [Option.map_map, Function.comp_def]
  · rfl

theorem parked_touched (d : Nat) :
    (w.touched c cell kind mode).parked d = if c = d then [] else w.parked d := by
  simp only [World.parked, getElem?_touched]
  split
  · cases w.caches[d]? <;> rfl
  · rfl

/-- Who is parked at another cache, or nowhere, is not woken. -/
theorem Orderly.count_parked (o : w.Orderly) (hc : w.caches[c]? = some cell) {i : Nat}
    (h : ∀ {a : Admission}, w.admissions[i]? = some a → a.cache ≠ c) : cell.parked.count i = 0 := by
  refine List.count_eq_zero.2 fun hi => ?_
  obtain ⟨a, ha, cache, -⟩ := o.parked_held (c := c) (i := i) (by simpa [parked, hc] using hi)
  exact h ha cache

/-- To touch a gate keeps the admissions where they belong. -/
theorem Orderly.touched (o : w.Orderly) (hc : w.caches[c]? = some cell) (kind : CallKind)
    (mode : GateMode) : (w.touched c cell kind mode).Orderly := by
  have here : w.parked c = cell.parked := by simp [parked, hc]
  have k : Woken w (w.touched c cell kind mode) (cell.parked.map .admission) := by
    constructor
    case admissions | limiters | line | ready => intros; rfl
    case size => simp [World.touched, World.unpark, enqueue]
    case moved =>
      -- At the cache that is touched all are woken, and elsewhere none.
      intro i a ha
      rw [parked_touched, count_map_admission]
      split
      · rename_i h
        rw [← h, here]
        rfl
      · rename_i h
        have out : cell.parked.count i = 0 := by
          refine o.count_parked hc fun hb => ?_
          rw [ha] at hb
          rw [← Option.some.inj hb]
          exact Ne.symm h
        rw [out]
        rfl
    case absent =>
      intro i hi
      have out : cell.parked.count i = 0 := o.count_parked hc fun hb => by simp [hi] at hb
      rw [count_map_admission, out]
      exact (o.absent hi).2
    case timed_le => exact fun _ => Nat.le_refl _
    case parked_le =>
      intro d i
      rw [parked_touched]
      split
      · exact Nat.zero_le _
      · exact Nat.le_refl _
    case parked_held =>
      intro d i hi
      rw [parked_touched] at hi
      split at hi
      · simp at hi
      · rename_i h
        refine ⟨hi, fun kind' hh => ?_⟩
        rwa [holds, getElem?_touched, if_neg h]
  exact o.woken k

end

/-! ### Steps -/

/-- After a shutdown nobody is anywhere. -/
theorem Orderly.shutDown (o : w.Orderly) : w.shutDown.Orderly := by
  obtain ⟨answers, -, he⟩ := w.shutDown_eq
  have ended {i : Nat} {b : Admission} (hb : (w.admissions.map Admission.ended)[i]? = some b) :
      ∃ a, w.admissions[i]? = some a ∧ b = a.ended := by
    rw [Array.getElem?_map] at hb
    obtain ⟨a, ha, h⟩ := Option.map_eq_some_iff.1 hb
    exact ⟨a, ha, h.symm⟩
  have nobody (c : Nat) : (w.caches.map fun cell => { cell with parked := [] })[c]?.map
      CacheCell.parked = w.caches[c]?.map fun _ => [] := by
    simp [Function.comp_def]
  rw [he]
  constructor
  case cache_lt =>
    intro i b hb
    obtain ⟨a, ha, rfl⟩ := ended hb
    rw [Array.size_map]
    have := o.cache_lt ha
    exact this
  case cell_cache_lt =>
    intro l cell hl
    rw [Array.size_map]
    exact o.cell_cache_lt hl
  case sorted => exact fun l => .nil
  case mem_line =>
    intro l i
    refine ⟨fun h => absurd h List.not_mem_nil, ?_⟩
    rintro ⟨b, hb, -, -, h⟩
    obtain ⟨a, -, rfl⟩ := ended hb
    simp [Admission.ended, Phase.stage] at h
  case order =>
    intro i j a b _ ha _ _
    obtain ⟨a, -, rfl⟩ := ended ha
    simp [Admission.ended, Phase.stage]
  case fifo => exact .nil
  case placed =>
    intro i b hb
    obtain ⟨a, -, rfl⟩ := ended hb
    refine ⟨rfl, rfl, ?_⟩
    simp only [parked, nobody]
    cases w.caches[a.ended.cache]? <;> rfl
  case absent => exact fun _ => ⟨rfl, rfl⟩
  case parked_held =>
    intro c i hi
    simp only [parked, nobody] at hi
    cases hc : w.caches[c]? <;> simp [hc] at hi

theorem Frame.addCache (w : World) (name : String) : Frame w (w.addCache name) where
  place _ := rfl
  size := by simp [World.addCache]
  line _ := rfl
  ready := rfl
  timed _ := rfl
  parked c := by
    simp only [World.parked, World.addCache, Array.getElem?_push]
    split
    · subst c
      simp
    · rfl
  holds {c kind} h := by
    simp only [World.holds, World.addCache, Array.getElem?_push] at h ⊢
    split
    · subst c
      simp at h
    · exact h

theorem Frame.dropHandle (w : World) (i : Nat) :
    Frame w { w with
      admissions := w.admissions.modify i fun a => { a with awaited := false } } where
  place j := by
    rw [Array.getElem?_modify]
    split
    · cases w.admissions[j]? <;> rfl
    · rfl
  size := Nat.le_refl _
  line _ := rfl
  ready := rfl
  timed _ := rfl
  parked _ := rfl
  holds h := h

theorem Frame.addSweeper (w : World) (c : Nat) (interval : Span) :
    Frame w (w.addSweeper c interval) where
  place _ := rfl
  size := Nat.le_refl _
  line _ := rfl
  ready := by simp [World.addSweeper, enqueue, Task.isAdmission]
  timed _ := rfl
  parked _ := rfl
  holds h := h

theorem Frame.stopSweeper (w : World) (j : Nat) : Frame w (w.stopSweeper j) where
  place _ := rfl
  size := Nat.le_refl _
  line _ := rfl
  ready := by
    simp only [World.stopSweeper, endSweeper, setSweeperPhase, List.filter_filter]
    refine List.filter_congr fun t _ => ?_
    cases t <;> simp [Task.isAdmission]
  timed i := by
    simp only [World.timed, World.stopSweeper, endSweeper, setSweeperPhase, List.count_eq_countP,
      List.countP_map, List.countP_filter]
    refine List.countP_congr fun t _ => ?_
    cases h : t.task <;> simp [h]
  parked _ := rfl
  holds h := h

/-- A step keeps the admissions where they belong. -/
theorem Orderly.acted (o : w.Orderly) (s : Step) : (w.acted s).Orderly := by
  have shown (notices : Array Notice) : (w.shown notices).Orderly :=
    o.frame (.of_same rfl rfl rfl rfl rfl) o.cell_cache_lt
  have change := change_acted w s
  generalize w.acted s = w' at change
  cases change with
  | aside => exact o.frame (.of_same rfl rfl rfl rfl rfl) o.cell_cache_lt
  | @cache name =>
    have f := Frame.addCache (w.shown #[]) name
    exact (shown #[]).frame f fun hl => Nat.lt_of_lt_of_le (o.cell_cache_lt hl) f.size
  | limiter hn hc =>
    refine o.frame (.of_same rfl rfl rfl rfl rfl) fun {l cell} hl => ?_
    simp only [addLimiter, World.shown, Array.getElem?_push] at hl
    split at hl
    · cases hl
      exact hc
    · exact o.cell_cache_lt hl
  | issue hn hl => exact (shown #[]).issueAll hl ..
  | drop => exact (shown #[]).frame (.dropHandle ..) o.cell_cache_lt
  | @advance d =>
    have later : { w.shown #[] with clock := w.clock.advance d }.Orderly :=
      o.frame (.of_same rfl rfl rfl rfl rfl) o.cell_cache_lt
    exact later.wakeTimers
  | setWall => exact o.frame (.of_same rfl rfl rfl rfl rfl) o.cell_cache_lt
  | @store _ c _ store hc hs =>
    have f := Frame.setStore (w.shown #[]) c store
    exact (shown #[]).frame f fun hl => Nat.lt_of_lt_of_le (o.cell_cache_lt hl) f.size
  | sweeper => exact (shown #[]).frame (.addSweeper ..) o.cell_cache_lt
  | stop => exact (shown #[]).frame (.stopSweeper ..) o.cell_cache_lt
  | gate hn hc => exact (shown #[]).touched hc ..
  | shutdown => exact (shown #[]).shutDown

/-! ### What becomes of admissions -/

/-- That every admission of a world is still there in another. -/
structure Evolves (w w' : World) : Prop where
  becomes : ∀ {i : Nat} {a : Admission}, w.admissions[i]? = some a →
    ∃ b, w'.admissions[i]? = some b ∧ a.Becomes b

theorem Evolves.of_eq {w' : World} (h : w'.admissions = w.admissions) : Evolves w w' :=
  ⟨fun {_ a} ha => ⟨a, by rwa [h], .refl a⟩⟩

theorem Evolves.trans {w' w'' : World} (h : Evolves w w') (h' : Evolves w' w'') :
    Evolves w w'' := by
  constructor
  intro i a ha
  obtain ⟨b, hb, hab⟩ := h.becomes ha
  obtain ⟨c, hc, hbc⟩ := h'.becomes hb
  exact ⟨c, hc, hab.trans hbc⟩

theorem Evolves.size_le {w' : World} (h : Evolves w w') :
    w.admissions.size ≤ w'.admissions.size := by
  refine Nat.le_of_not_lt fun lt => ?_
  obtain ⟨b, hb, -⟩ := h.becomes (Array.getElem?_eq_getElem lt)
  exact Nat.lt_irrefl _ (Array.getElem?_eq_some_iff.1 hb).1

/-- Only one admission goes on, and not back. -/
theorem Evolves.setPhase {w' : World} {i : Nat} {a : Admission} {phase : Phase}
    (h : w'.admissions = w.admissions.modify i fun b => { b with phase })
    (hi : w.admissions[i]? = some a) (hp : a.phase.stage ≤ phase.stage) : Evolves w w' := by
  constructor
  intro j b hb
  rw [h, Array.getElem?_modify]
  split
  · subst j
    rw [hi] at hb
    cases hb
    exact ⟨{ a with phase }, by rw [hi]; rfl, rfl, rfl, rfl, rfl, hp⟩
  · exact ⟨b, hb, .refl b⟩

theorem Orderly.evolves_turn {task : Task} (o : w.Orderly) (hr : w.ready.head? = some task) :
    Evolves w (w.taken.turn task) := by
  cases task with
  | sweeper j =>
    rcases w.taken.sweeperTurn_cases j with e | ⟨s, -, swept⟩
    · exact .of_eq (show (w.taken.sweeperTurn j).admissions = _ by rw [e]; rfl)
    · exact .of_eq swept.same.1
  | admission i =>
    obtain ⟨a, hi, turn⟩ := o.admissionTurn_cases hr
    rw [World.turn]
    generalize w.taken.admissionTurn i = w' at turn
    cases turn with
    | joins hp hl => exact .setPhase rfl hi (by simp [hp, Phase.stage])
    | works hc t b =>
      refine .setPhase (admissions_pass ..) hi (Nat.le_trans t.undecided ?_)
      exact Admission.two_le_stage_passage
    | ends hp => exact .setPhase rfl hi (by simp [hp, Phase.stage])

theorem evolves_issue (w : World) (l : Nat) (cell : LimiterCell) (identifier : String) :
    Evolves w (w.issue l cell identifier) :=
  ⟨fun {_ a} ha => ⟨a, admission_issue ha, .refl a⟩⟩

theorem evolves_acted (w : World) (s : Step) : Evolves w (w.acted s) := by
  have change := change_acted w s
  generalize w.acted s = w' at change
  cases change with
  | aside | cache | limiter | advance | setWall | store | sweeper | stop | gate =>
    exact .of_eq rfl
  | @issue _ identifier times l cell _ _ =>
    have all (n : Nat) (v : World) : Evolves v (v.issueAll l cell identifier.render n) := by
      induction n generalizing v with
      | zero => exact .of_eq rfl
      | succ n ih => exact (evolves_issue ..).trans (ih _)
    have same : Evolves w (w.shown #[]) := .of_eq rfl
    exact same.trans (all times (w.shown #[]))
  | drop =>
    constructor
    intro i a ha
    rw [Array.getElem?_modify, ha]
    split
    · exact ⟨{ a with awaited := false }, rfl, rfl, rfl, rfl, rfl, Nat.le_refl _⟩
    · exact ⟨a, rfl, .refl a⟩
  | shutdown =>
    obtain ⟨answers, -, he⟩ := (w.shown #[]).shutDown_eq
    rw [he]
    constructor
    intro i a ha
    refine ⟨a.ended, ?_, rfl, rfl, rfl, rfl, a.phase.stage_le⟩
    rw [Array.getElem?_map]
    exact congrArg (Option.map Admission.ended) ha

/-- Where the admissions after a step come from: they were there before, and go on
    only by a shutdown, or they are for new requests. -/
theorem admission_acted {s : Step} {i : Nat} {b : Admission}
    (hb : (w.acted s).admissions[i]? = some b) :
    (∃ a, w.admissions[i]? = some a ∧ a.Becomes b ∧
      (b.phase = a.phase ∨ s = .shutdown ∧ b.phase = .finished)) ∨
    (w.admissions[i]? = none ∧ ∃ name identifier times l cell,
      s = .throttle name identifier times ∧ w.limiterNames.get? name = some l ∧
      w.limiters[l]? = some cell ∧
      b = request l cell identifier.render) := by
  have change := change_acted w s
  generalize w.acted s = w' at change hb
  cases change with
  | aside | cache | limiter | advance | setWall | store | sweeper | stop | gate =>
    exact .inl ⟨b, hb, .refl b, .inl rfl⟩
  | @issue name identifier times l cell hn hl =>
    have all (n : Nat) (v : World) (hb : (v.issueAll l cell identifier.render n).admissions[i]? =
        some b) : v.admissions[i]? = some b ∨
          (v.admissions[i]? = none ∧ b = request l cell identifier.render) := by
      induction n generalizing v with
      | zero => exact .inl hb
      | succ n ih =>
        rcases ih (v.issue l cell identifier.render) hb with hb | ⟨hn, e⟩
        · rcases admission_issue_cases hb with hb | ⟨rfl, e⟩
          · exact .inl hb
          · exact .inr ⟨by simp, e⟩
        · refine .inr ⟨Option.eq_none_iff_forall_ne_some.2 fun a ha => ?_, e⟩
          rw [admission_issue ha] at hn
          cases hn
    rcases all times _ hb with h | ⟨h, e⟩
    · exact .inl ⟨b, h, .refl b, .inl rfl⟩
    · exact .inr ⟨h, name, identifier, times, l, cell, rfl, hn, hl, e⟩
  | drop =>
    rw [Array.getElem?_modify] at hb
    split at hb
    · obtain ⟨a, ha, rfl⟩ := Option.map_eq_some_iff.1 hb
      exact .inl ⟨a, ha, ⟨rfl, rfl, rfl, rfl, Nat.le_refl _⟩, .inl rfl⟩
    · exact .inl ⟨b, hb, .refl b, .inl rfl⟩
  | shutdown =>
    obtain ⟨answers, -, he⟩ := (w.shown #[]).shutDown_eq
    rw [he, Array.getElem?_map] at hb
    obtain ⟨a, ha, rfl⟩ := Option.map_eq_some_iff.1 hb
    exact .inl ⟨a, ha, ⟨rfl, rfl, rfl, rfl, a.phase.stage_le⟩, .inr ⟨rfl, rfl⟩⟩

/-! ### What becomes of caches -/

/-- What a step may do to a cache. -/
structure CellChange (w : World) (s : Step) (c : Nat) (cell cell' : CacheCell) : Prop where
  name : cell'.name = cell.name
  store : cell'.store = cell.store ∨ Storing w c cell s cell'.store
  gate : ∀ kind, cell'.gate kind = cell.gate kind ∨
    ∃ cache mode, s = .gate cache kind mode ∧ w.cacheNames.get? cache = some c ∧
      cell'.gate kind = mode

theorem CellChange.refl {s : Step} {c : Nat} (cell : CacheCell) : CellChange w s c cell cell :=
  ⟨rfl, .inl rfl, fun _ => .inl rfl⟩

theorem CacheCell.gate_setGate (cell : CacheCell) (kind kind' : CallKind) (mode : GateMode) :
    (cell.setGate kind mode).gate kind' = if kind' = kind then mode else cell.gate kind' := by
  cases kind <;> cases kind' <;> rfl

theorem cell_acted {s : Step} {c : Nat} {cell : CacheCell} (hc : w.caches[c]? = some cell) :
    ∃ cell', (w.acted s).caches[c]? = some cell' ∧ CellChange w s c cell cell' := by
  have change := change_acted w s
  generalize w.acted s = w' at change
  cases change with
  | aside | limiter | drop | advance | setWall | sweeper | stop => exact ⟨cell, hc, .refl _⟩
  | cache =>
    refine ⟨cell, ?_, .refl _⟩
    simp only [addCache, Array.getElem?_push]
    split
    · subst c
      simp [World.shown] at hc
    · exact hc
  | issue =>
    obtain ⟨_, _, he⟩ := issueAll_eq (w.shown #[]) _ _ _ _
    rw [he]
    exact ⟨cell, hc, .refl _⟩
  | @store _ d cell' store hd hs =>
    simp only [setStore, Array.getElem?_modify]
    split
    · subst d
      obtain rfl : cell = cell' := by
        rw [hc] at hd
        exact Option.some.inj hd
      exact ⟨{ cell with store }, by rw [show (w.shown #[]).caches[c]? = _ from hc]; rfl, rfl,
        .inr hs, fun kind => .inl (by cases kind <;> rfl)⟩
    · exact ⟨cell, hc, .refl _⟩
  | @gate cache kind mode d cell' hn hd =>
    simp only [unpark, enqueue, Array.getElem?_modify]
    split
    · subst d
      refine ⟨{ cell.setGate kind mode with parked := [] }, by rw [hc]; rfl, ?_, .inl ?_,
        fun kind' => ?_⟩
      · cases kind <;> rfl
      · cases kind <;> rfl
      · have e : ({ cell.setGate kind mode with parked := [] } : CacheCell).gate kind' =
            (cell.setGate kind mode).gate kind' := by cases kind' <;> rfl
        rw [e, CacheCell.gate_setGate]
        split
        · subst kind'
          exact .inr ⟨cache, mode, rfl, hn, rfl⟩
        · exact .inl rfl
    · exact ⟨cell, hc, .refl _⟩
  | shutdown =>
    obtain ⟨answers, -, he⟩ := (w.shown #[]).shutDown_eq
    rw [he, Array.getElem?_map]
    exact ⟨{ cell with parked := [] }, by rw [show (w.shown #[]).caches[c]? = _ from hc]; rfl, rfl,
      .inl rfl, fun kind => .inl (by cases kind <;> rfl)⟩

/-- A cache that a step makes is empty, and its gates are open. -/
theorem cell_acted_new {s : Step} {c : Nat} {cell : CacheCell} (hc : w.caches[c]? = none)
    (hc' : (w.acted s).caches[c]? = some cell) : ∃ name, cell = { name } := by
  have change := change_acted w s
  generalize w.acted s = w' at change hc'
  cases change with
  | aside | limiter | drop | advance | setWall | sweeper | stop =>
    rw [show w.caches[c]? = _ from hc'] at hc
    cases hc
  | @cache name =>
    simp only [addCache, Array.getElem?_push] at hc'
    split at hc'
    · cases hc'
      exact ⟨name, rfl⟩
    · rw [show w.caches[c]? = _ from hc'] at hc
      cases hc
  | issue =>
    obtain ⟨_, _, he⟩ := issueAll_eq (w.shown #[]) _ _ _ _
    rw [he, show (w.shown #[]).caches[c]? = _ from hc] at hc'
    cases hc'
  | store =>
    simp only [setStore, Array.getElem?_modify] at hc'
    split at hc'
    · rw [show (w.shown #[]).caches[c]? = _ from hc] at hc'
      cases hc'
    · rw [show w.caches[c]? = _ from hc'] at hc
      cases hc
  | gate =>
    simp only [unpark, enqueue, Array.getElem?_modify, hc] at hc'
    split at hc' <;> cases hc'
  | shutdown =>
    obtain ⟨answers, -, he⟩ := (w.shown #[]).shutDown_eq
    rw [he, Array.getElem?_map, show (w.shown #[]).caches[c]? = _ from hc] at hc'
    cases hc'

theorem clock_acted (w : World) (s : Step) : (w.acted s).clock = s.clockAfter w.clock := by
  -- All but two steps leave the clocks alone.
  have same (ha : ∀ d, s ≠ .advance d) (hs : ∀ wall, s ≠ .setWall wall) :
      (w.acted s).clock = w.clock := by
    have change := change_acted w s
    generalize w.acted s = w' at change
    cases change with
    | aside | cache | limiter | drop | store | sweeper | stop | gate => rfl
    | issue =>
      obtain ⟨_, _, he⟩ := issueAll_eq (w.shown #[]) _ _ _ _
      rw [he]
      rfl
    | advance => exact absurd rfl (ha _)
    | setWall => exact absurd rfl (hs _)
    | shutdown =>
      obtain ⟨answers, -, he⟩ := (w.shown #[]).shutDown_eq
      rw [he]
      rfl
  cases s <;> first | rfl | exact same (by simp) (by simp)

/-- The monotonic clock does not go back. -/
theorem now_le_acted (w : World) (s : Step) :
    w.clock.now.nanos ≤ (w.acted s).clock.now.nanos := by
  rw [clock_acted]
  cases s with
  | advance d => exact Nat.le_add_right ..
  | _ => exact Nat.le_refl _

/-- A step moves both clocks on together, unless it sets the wall clock. -/
theorem clock_acted_advance (w : World) {s : Step} (hs : ∀ wall, s ≠ .setWall wall) :
    ∃ d, (w.acted s).clock = w.clock.advance d := by
  have none : w.clock = w.clock.advance .zero := w.clock.advance_zero.symm
  rw [clock_acted]
  cases s with
  | advance d => exact ⟨d, rfl⟩
  | setWall wall => exact absurd rfl (hs wall)
  | _ => exact ⟨.zero, none⟩

/-- A turn changes what a cache stores, and who is parked there, and nothing else of
    it. -/
theorem Orderly.cell_turn {task : Task} (o : w.Orderly) (hr : w.ready.head? = some task) {c : Nat}
    {cell : CacheCell} (hc : w.caches[c]? = some cell) :
    ∃ cell', (w.taken.turn task).caches[c]? = some cell' ∧ cell'.name = cell.name ∧
      ∀ kind, cell'.gate kind = cell.gate kind := by
  cases task with
  | sweeper j =>
    rw [World.turn]
    rcases w.taken.sweeperTurn_cases j with e | ⟨s, -, swept⟩
    · rw [e]
      exact ⟨cell, hc, rfl, fun _ => rfl⟩
    · rcases swept.cell hc with h | h
      · exact ⟨_, h, rfl, fun _ => rfl⟩
      · exact ⟨_, h, rfl, fun kind => by cases kind <;> rfl⟩
  | admission i =>
    obtain ⟨a, hi, turn⟩ := o.admissionTurn_cases hr
    rw [World.turn]
    generalize w.taken.admissionTurn i = w' at turn
    cases turn with
    | joins | ends => exact ⟨cell, hc, rfl, fun _ => rfl⟩
    | @works there _ lines _ _ _ =>
      obtain ⟨parked, e⟩ := caches_pass (w.begun lines) i a (a.passage there w.clock) c
      rw [e, show (w.begun lines).caches[c]? = _ from hc]
      refine ⟨_, rfl, ?_⟩
      split
      · exact ⟨rfl, fun kind => by cases kind <;> rfl⟩
      · exact ⟨rfl, fun _ => rfl⟩

/-- A turn makes no caches. -/
theorem Orderly.cell_turn_none {task : Task} (o : w.Orderly) (hr : w.ready.head? = some task)
    {c : Nat} (hc : w.caches[c]? = none) : (w.taken.turn task).caches[c]? = none := by
  cases task with
  | sweeper j =>
    rw [World.turn]
    rcases w.taken.sweeperTurn_cases j with e | ⟨s, -, swept⟩
    · rw [e]
      exact hc
    · exact swept.cell_none hc
  | admission i =>
    obtain ⟨a, hi, turn⟩ := o.admissionTurn_cases hr
    rw [World.turn]
    generalize w.taken.admissionTurn i = w' at turn
    cases turn with
    | joins | ends => exact hc
    | @works there _ lines _ _ _ =>
      obtain ⟨parked, e⟩ := caches_pass (w.begun lines) i a (a.passage there w.clock) c
      rw [e, show (w.begun lines).caches[c]? = _ from hc]
      rfl

/-- A cache after a turn was there before, with its name and its gates. -/
theorem Orderly.cell_before {task : Task} (o : w.Orderly) (hr : w.ready.head? = some task) {c : Nat}
    {cell' : CacheCell} (hc' : (w.taken.turn task).caches[c]? = some cell') :
    ∃ cell, w.caches[c]? = some cell ∧ cell'.name = cell.name ∧
      ∀ kind, cell'.gate kind = cell.gate kind := by
  cases hc : w.caches[c]? with
  | none =>
    rw [o.cell_turn_none hr hc] at hc'
    cases hc'
  | some cell =>
    obtain ⟨there, h, same⟩ := o.cell_turn hr hc
    obtain rfl : there = cell' := Option.some.inj (h.symm.trans hc')
    exact ⟨cell, rfl, same⟩

/-! ### What becomes of limiters -/

/-- Limiters stay as they are made. -/
theorem limiter_acted {s : Step} {l : Nat} {cell : LimiterCell} (hl : w.limiters[l]? = some cell) :
    (w.acted s).limiters[l]? = some cell := by
  have change := change_acted w s
  generalize w.acted s = w' at change
  cases change with
  | aside | cache | drop | advance | setWall | store | sweeper | stop | gate => exact hl
  | limiter =>
    simp only [addLimiter, Array.getElem?_push]
    split
    · subst l
      simp [World.shown] at hl
    · exact hl
  | issue =>
    obtain ⟨_, _, he⟩ := issueAll_eq (w.shown #[]) _ _ _ _
    rw [he]
    exact hl
  | shutdown =>
    obtain ⟨answers, -, he⟩ := (w.shown #[]).shutDown_eq
    rw [he]
    exact hl

theorem Orderly.limiters_turn {task : Task} (o : w.Orderly) (hr : w.ready.head? = some task) :
    (w.taken.turn task).limiters = w.limiters := by
  cases task with
  | sweeper j =>
    rw [World.turn]
    rcases w.taken.sweeperTurn_cases j with e | ⟨s, -, swept⟩
    · rw [e]
      rfl
    · exact swept.same.2.1
  | admission i =>
    obtain ⟨a, hi, turn⟩ := o.admissionTurn_cases hr
    rw [World.turn]
    generalize w.taken.admissionTurn i = w' at turn
    cases turn with
    | joins | ends => rfl
    | works => exact limiters_pass ..

/-- That every admission is one of its limiter. -/
structure Owned (w : World) : Prop where
  limiter : ∀ {i : Nat} {a : Admission}, w.admissions[i]? = some a → ∃ cell,
    w.limiters[a.owner]? = some cell ∧ a.limiter = cell.limiter ∧ a.cache = cell.cache

end World

/-! ### Turns of a history -/

namespace Moment

variable {m : Moment}

theorem after_of_sweeper {j : Nat} (ht : m.task = .sweeper j) :
    m.after = m.world.taken.sweeperTurn j := by
  rw [after, ht, World.turn]

/-- A turn of an admission, which is there. -/
theorem admissionTurn_cases {i : Nat} (o : m.world.Orderly)
    (hr : m.world.ready.head? = some m.task) (ht : m.task = .admission i) :
    ∃ a, m.world.admissions[i]? = some a ∧ m.world.AdmissionTurn i a m.after := by
  rw [after, ht, World.turn]
  exact o.admissionTurn_cases (hr.trans (congrArg some ht))

end Moment

/-- The worlds of a course from an orderly one are orderly. -/
theorem Course.orderly {ok : World → Step → Prop} {w₀ w : World} {h : List Moment}
    (c : Course ok w₀ h w) (o : w₀.Orderly) : w.Orderly := by
  induction c with
  | start => exact o
  | act _ _ ih => exact ih.acted _
  | turn _ hr ih => exact ih.turn (by rw [hr]; rfl)

/-- No admission is lost in a course from an orderly world, or goes back. -/
theorem Course.evolves {ok : World → Step → Prop} {w₀ w : World} {h : List Moment}
    (c : Course ok w₀ h w) (o : w₀.Orderly) : World.Evolves w₀ w := by
  induction c with
  | start => exact .of_eq rfl
  | act _ _ ih => exact ih.trans (World.evolves_acted ..)
  | turn c hr ih => exact ih.trans ((c.orderly o).evolves_turn (by rw [hr]; rfl))

section

variable {ok : World → Step → Prop} {w₀ w : World} {h : List Moment} {m : Moment}

/-- A turn of a course from an orderly world is that of the next task of an orderly one. -/
theorem Course.orderly_at (c : Course ok w₀ h w) (o : w₀.Orderly) (hm : m ∈ h) :
    m.world.Orderly ∧ m.world.ready.head? = some m.task := by
  obtain ⟨_, _, -, hither, rest, hr⟩ := c.before hm
  exact ⟨hither.orderly o, List.head?_eq_some_iff.2 ⟨rest, hr⟩⟩

/-- The admissions after a turn are still there at the end. -/
theorem Course.evolves_after (c : Course ok w₀ h w) (o : w₀.Orderly) (hm : m ∈ h) :
    m.after.Evolves w := by
  obtain ⟨_, _, split⟩ := List.append_of_mem hm
  obtain ⟨hither, ⟨_, hr⟩, thence⟩ := c.at_split split
  exact thence.evolves ((hither.turn hr).orderly o)

/-- The admissions at a turn are still there at the end. -/
theorem Course.evolves_from (c : Course ok w₀ h w) (o : w₀.Orderly) (hm : m ∈ h) :
    m.world.Evolves w := by
  obtain ⟨orderly, head⟩ := c.orderly_at o hm
  have turn : m.world.Evolves m.after := orderly.evolves_turn head
  exact turn.trans (c.evolves_after o hm)

end

end Turnstile
