import Mathlib.Algebra.Group.Action.Defs
import Mathlib.Algebra.Order.BigOperators.Group.Finset
import Turnstile.Proofs.Session.Reach

/-!
# Settling

After every step the tasks have their turns until none can go on, and the turns that
they are given are always enough for that (`World.final_settled`).

The proof counts the turns to which a task is still entitled while time stands still
(`World.work`): two for a request that was issued, one for a request in line and for
any other that stands in the queue, two for a sweeper in the queue, or one if it has
had a turn already. Every turn takes at least one of them (`work_turn_lt`).

A sweeper is in one place at most (`World.Tidy`), which is to sweepers what
`World.Orderly` is to admissions.
-/

namespace Turnstile.World

variable {w w' : World}

/-! ### Sweepers -/

/-- How often a sweeper stands in the queue or has a timer. -/
def sweeperPlaces (w : World) (j : Nat) : Nat :=
  w.ready.count (.sweeper j) + (w.timers.map Timer.task).count (.sweeper j)

/-- That every sweeper is in one place at most. -/
structure Tidy (w : World) : Prop where
  places_le : ∀ j, w.sweeperPlaces j ≤ if j < w.sweepers.size then 1 else 0

theorem tidy_starting (wall : Int) : (starting wall).Tidy :=
  ⟨fun _ => Nat.zero_le _⟩

theorem Tidy.mono (t : w.Tidy) (size : w.sweepers.size ≤ w'.sweepers.size)
    (places : ∀ j, w'.sweeperPlaces j ≤ w.sweeperPlaces j) : w'.Tidy := by
  constructor
  intro j
  have := t.places_le j
  have := places j
  split at * <;> split <;> omega

theorem Tidy.lt_size (t : w.Tidy) {j : Nat} (h : .sweeper j ∈ w.ready) :
    j < w.sweepers.size ∧ w.sweeperPlaces j = 1 := by
  have one : 1 ≤ w.ready.count (.sweeper j) := List.count_pos_iff.2 h
  have le := t.places_le j
  unfold sweeperPlaces at *
  split at le
  · exact ⟨‹_›, by omega⟩
  · omega

theorem count_sweeper_map_admission (is : List Nat) (j : Nat) :
    (is.map Task.admission).count (.sweeper j) = 0 :=
  List.count_eq_zero.2 (by simp)

theorem sweeperPlaces_enqueue (is : List Nat) (j : Nat) :
    (w.enqueue (is.map .admission)).sweeperPlaces j = w.sweeperPlaces j := by
  simp [sweeperPlaces, enqueue, count_sweeper_map_admission]

theorem Tidy.wakeTimers (t : w.Tidy) : w.wakeTimers.Tidy := by
  obtain ⟨due, later, hp, he⟩ := w.wakeTimers_eq
  rw [he]
  refine t.mono (Nat.le_refl _) fun j => ?_
  have := (hp.map Timer.task).count_eq (.sweeper j)
  simp only [List.map_append, List.count_append, sweeperPlaces] at this ⊢
  omega

/-- A step keeps every sweeper in one place at most. -/
theorem Tidy.acted (t : w.Tidy) (s : Step) : (w.acted s).Tidy := by
  have same {v : World} (hs : v.sweepers = w.sweepers) (hr : v.ready = w.ready)
      (ht : v.timers = w.timers) : v.Tidy :=
    t.mono (by rw [hs]) fun j => by rw [sweeperPlaces, hr, ht, sweeperPlaces]
  have change := change_acted w s
  generalize w.acted s = w' at change
  cases change with
  | aside | cache | limiter | drop | setWall | store => exact same rfl rfl rfl
  | issue =>
    obtain ⟨admissions, numbers, he⟩ := issueAll_eq (w.shown #[]) _ _ _ _
    rw [he]
    exact t.mono (Nat.le_refl _) fun j => Nat.le_of_eq (sweeperPlaces_enqueue numbers j)
  | @advance d =>
    have later : { w.shown #[] with clock := w.clock.advance d }.Tidy := same rfl rfl rfl
    exact later.wakeTimers
  | sweeper =>
    constructor
    intro j
    have := t.places_le j
    simp only [sweeperPlaces, addSweeper, enqueue, shown, Array.size_push, List.count_append,
      List.count_cons, List.count_nil, beq_iff_eq, Task.sweeper.injEq] at this ⊢
    split at this <;> split <;> split <;> omega
  | @stop j =>
    refine t.mono (by simp [stopSweeper, endSweeper, setSweeperPhase, shown]) fun k => ?_
    have ready : (w.ready.filter (· != Task.sweeper j)).count (.sweeper k) ≤
        w.ready.count (.sweeper k) := List.filter_sublist.count_le _
    have timers : ((w.timers.filter (·.task != Task.sweeper j)).map Timer.task).count
        (.sweeper k) ≤ (w.timers.map Timer.task).count (.sweeper k) :=
      (List.filter_sublist.map _).count_le _
    exact Nat.add_le_add ready timers
  | gate =>
    refine t.mono (Nat.le_refl _) fun j => Nat.le_of_eq ?_
    exact sweeperPlaces_enqueue _ j
  | shutdown =>
    obtain ⟨answers, -, he⟩ := (w.shown #[]).shutDown_eq
    rw [he]
    exact t.mono (by simp [shown]) fun j => Nat.zero_le _

/-- What a turn of an admission does to sweepers: nothing. -/
theorem AdmissionTurn.sweepers {i : Nat} {a : Admission} (turn : w.AdmissionTurn i a w')
    (hr : w.ready.head? = some (.admission i)) : w'.sweepers = w.sweepers ∧
      ∀ j, w'.ready.count (.sweeper j) = w.ready.count (.sweeper j) ∧
        (w'.timers.map Timer.task).count (.sweeper j) =
          (w.timers.map Timer.task).count (.sweeper j) := by
  obtain ⟨tail, ht⟩ := List.head?_eq_some_iff.1 hr
  have taken (j : Nat) : w.ready.tail.count (.sweeper j) = w.ready.count (.sweeper j) := by
    simp [ht]
  cases turn with
  | joins | ends => exact ⟨rfl, fun j => ⟨taken j, rfl⟩⟩
  | @works cell rest lines _ _ _ =>
    refine ⟨sweepers_pass .., fun j => ?_⟩
    obtain ⟨ready, timers⟩ := count_sweeper_pass (w.begun lines) i a (a.passage cell w.clock) j
    exact ⟨ready.trans (taken j), timers⟩

/-- A turn of a sweeper puts nobody else anywhere. -/
theorem sweeperPlaces_sweeperTurn (w : World) (j k : Nat) :
    (w.sweeperTurn j).sweeperPlaces k ≤ w.sweeperPlaces k + if k = j then 1 else 0 := by
  rcases w.sweeperTurn_cases j with e | ⟨_, -, _, _, -, _, _, _, again, timers, going, e⟩
  · rw [e]
    exact Nat.le_add_right ..
  · rw [e]
    simp only [sweeperPlaces, List.map_append, List.count_append]
    cases going <;> simp [List.count_cons, eq_comm (a := k)] <;> split <;> omega

/-- How a sweeper goes on after its turn, if it is in the queue or has a timer then. -/
theorem Tidy.sweeperTurn {j : Nat} {rest : List Task} (t : w.Tidy)
    (hr : w.ready = .sweeper j :: rest) :
    ∃ again, (w.taken.sweeperTurn j).ready = rest ++ again ∧
      (again = [] ∨ again = [.sweeper j] ∧ ∃ s, w.sweepers[j]? = some s ∧
        s.phase.isBehind = false ∧ ((w.taken.sweeperTurn j).sweepers[j]?).any (·.phase.isBehind)) ∧
      (∀ k, k ≠ j → (w.taken.sweeperTurn j).sweepers[k]? = w.sweepers[k]?) ∧
      (w.taken.sweeperTurn j).Tidy := by
  have places : rest.count (.sweeper j) = 0 ∧ (w.timers.map Timer.task).count (.sweeper j) = 0 := by
    have := (t.lt_size (j := j) (by simp [hr])).2
    simp only [sweeperPlaces, hr, List.count_cons_self] at this
    omega
  have taken : w.taken.ready = rest := by simp [World.taken, hr]
  have others (k : Nat) :
      w.taken.sweeperPlaces k + (if k = j then 1 else 0) = w.sweeperPlaces k := by
    simp only [sweeperPlaces, taken, hr, List.count_cons, beq_iff_eq, Task.sweeper.injEq,
      eq_comm (a := k)]
    simp only [World.taken]
    omega
  rcases w.taken.sweeperTurn_cases j with e | ⟨s, hs, _, _, -, _, _, phase, again, timers, going, e⟩
  · rw [e]
    refine ⟨[], by simp [taken], .inl rfl, fun _ _ => rfl, t.mono (Nat.le_refl _) fun k => ?_⟩
    have := others k
    omega
  · have tidy : (w.taken.sweeperTurn j).Tidy := by
      refine t.mono (by rw [e]; simp [World.taken]) fun k => ?_
      have := others k
      have := w.taken.sweeperPlaces_sweeperTurn j k
      omega
    refine ⟨again, by rw [e]; simp [taken], ?_, fun k hk => ?_, tidy⟩
    · rw [e]
      cases going with
      | ended | waits => exact .inl rfl
      | again hb =>
        refine .inr ⟨rfl, s, hs, hb, ?_⟩
        simp only [Array.getElem?_modify, if_pos]
        rw [show w.taken.sweepers[j]? = some s from hs]
        rfl
    · rw [e]
      simp only [Array.getElem?_modify, if_neg hk.symm]
      rfl

/-- A turn keeps every sweeper in one place at most. -/
theorem Tidy.turn {task : Task} (t : w.Tidy) (o : w.Orderly) (hr : w.ready.head? = some task) :
    (w.taken.turn task).Tidy := by
  cases task with
  | admission i =>
    obtain ⟨a, -, turn⟩ := o.admissionTurn_cases hr
    obtain ⟨hs, hp⟩ := turn.sweepers hr
    refine t.mono (Nat.le_of_eq (congrArg Array.size hs.symm)) fun j => ?_
    rw [sweeperPlaces, sweeperPlaces]
    exact Nat.le_of_eq (congrArg₂ (· + ·) (hp j).1 (hp j).2)
  | sweeper j =>
    obtain ⟨rest, hr⟩ := List.head?_eq_some_iff.1 hr
    obtain ⟨_, -, -, -, tidy⟩ := t.sweeperTurn hr
    exact tidy

/-! ### Turns left -/

/-- The turns that an admission may still have while time stands still. -/
def turnsLeft (w : World) (i : Nat) : Nat :=
  match w.phase? i with
  | some .issued => 2
  | some .inLine => 1
  | _ => w.queued i

/-- The turns that a sweeper may still have while time stands still. -/
def sweeperTurnsLeft (w : World) (j : Nat) : Nat :=
  w.ready.count (.sweeper j) * if (w.sweepers[j]?).any (·.phase.isBehind) then 1 else 2

/-- The turns that all tasks together may still have while time stands still. -/
def work (w : World) : Nat :=
  ∑ i ∈ Finset.range w.admissions.size, w.turnsLeft i +
    ∑ j ∈ Finset.range w.sweepers.size, w.sweeperTurnsLeft j

theorem work_le (o : w.Orderly) (t : w.Tidy) :
    w.work ≤ 2 * (w.admissions.size + w.sweepers.size) := by
  have admissions : ∑ i ∈ Finset.range w.admissions.size, w.turnsLeft i ≤
      (Finset.range w.admissions.size).card • 2 := by
    refine Finset.sum_le_card_nsmul _ _ _ fun i _ => ?_
    have := o.queued_le_one i
    unfold turnsLeft
    split <;> omega
  have sweepers : ∑ j ∈ Finset.range w.sweepers.size, w.sweeperTurnsLeft j ≤
      (Finset.range w.sweepers.size).card • 2 := by
    refine Finset.sum_le_card_nsmul _ _ _ fun j hj => ?_
    have places := t.places_le j
    rw [if_pos (Finset.mem_range.1 hj)] at places
    have one : w.ready.count (.sweeper j) ≤ 1 := by
      unfold sweeperPlaces at places
      omega
    refine Nat.le_trans (Nat.mul_le_mul one (?_ : _ ≤ 2)) (Nat.le_refl _)
    split <;> omega
  simp only [Finset.card_range, smul_eq_mul] at admissions sweepers
  unfold work
  omega

/-- A turn of an admission takes one of those left to it, and none of the others'. -/
theorem turnsLeft_turn {i : Nat} {a : Admission} (o : w.Orderly) (hi : w.admissions[i]? = some a)
    (h : w.Shifts w' i a) :
    w'.turnsLeft i < w.turnsLeft i ∧ ∀ j, j ≠ i → w'.turnsLeft j = w.turnsLeft j := by
  obtain ⟨phase, line, next, sleeping, held, s, p⟩ := h
  obtain ⟨rest, hr, -⟩ := s.ready
  have phase_eq (j : Nat) : w'.phase? j = if i = j then some phase else w.phase? j := by
    rw [phase?, s.getElem?_eq]
    split
    · subst j
      rw [hi]
      rfl
    · rfl
  constructor
  · have alone := (o.alone hi hr).1
    have out : next.count i = 0 := List.count_eq_zero.2 fun h => (p.next_inLine i h).1 rfl
    have queued := s.queued_eq i
    rw [if_pos rfl] at queued
    have begun := p.begun
    have joined := p.joined
    have before : w.phase? i = some a.phase := by rw [phase?, hi]; rfl
    simp only [turnsLeft, phase_eq, if_pos, before]
    cases phase with
    | issued => simp [Phase.stage] at begun
    | inLine => simp [joined rfl]
    | beforeLookup | beforeStore | waiting | finished =>
      simp only []
      split <;> omega
  · intro j hj
    have queued := s.queued_eq j
    rw [if_neg hj.symm] at queued
    simp only [turnsLeft, phase_eq, if_neg hj.symm]
    -- Who is next in line has the one turn left to it before and afterwards.
    by_cases hn : j ∈ next
    · obtain ⟨-, b, hb, -, hp⟩ := p.next_inLine j hn
      have inLine : w.phase? j = some .inLine := by rw [phase?, hb, Option.map_some, hp]
      simp [inLine]
    · rw [List.count_eq_zero.2 hn] at queued
      rw [show w'.queued j = w.queued j by omega]

/-- A turn of a sweeper takes one of those left to it, and none of the others'. -/
theorem sweeperTurnsLeft_turn {j : Nat} {rest : List Task} (t : w.Tidy)
    (hr : w.ready = .sweeper j :: rest) :
    (w.taken.sweeperTurn j).sweeperTurnsLeft j < w.sweeperTurnsLeft j ∧
      ∀ k, k ≠ j → (w.taken.sweeperTurn j).sweeperTurnsLeft k = w.sweeperTurnsLeft k := by
  obtain ⟨again, ready, going, others, -⟩ := t.sweeperTurn hr
  have out : rest.count (.sweeper j) = 0 := by
    have := (t.lt_size (j := j) (by simp [hr])).2
    simp only [sweeperPlaces, hr, List.count_cons_self] at this
    omega
  constructor
  · -- It is in the queue again only to be behind for the first time.
    simp only [sweeperTurnsLeft, ready, hr, List.count_append, out, List.count_cons_self]
    rcases going with rfl | ⟨rfl, s, hs, hb, behind⟩
    · simp only [List.count_nil, Nat.zero_mul, Nat.zero_add, Nat.one_mul]
      split <;> omega
    · simp [hs, hb, behind]
  · intro k hk
    have same : (rest ++ again).count (.sweeper k) = w.ready.count (.sweeper k) := by
      rcases going with rfl | ⟨rfl, -⟩ <;> simp [hr, hk.symm]
    rw [sweeperTurnsLeft, ready, same, others k hk, sweeperTurnsLeft]

theorem sum_lt_sum_of_one {f g : Nat → Nat} {n i : Nat} (hi : i < n) (less : f i < g i)
    (same : ∀ k, k ≠ i → f k = g k) :
    ∑ k ∈ Finset.range n, f k < ∑ k ∈ Finset.range n, g k := by
  refine Finset.sum_lt_sum (fun k _ => ?_) ⟨i, Finset.mem_range.2 hi, less⟩
  by_cases h : k = i
  · subst k
    exact Nat.le_of_lt less
  · exact Nat.le_of_eq (same k h)

theorem work_admissionTurn_lt {i : Nat} (o : w.Orderly)
    (hr : w.ready.head? = some (.admission i)) : (w.taken.admissionTurn i).work < w.work := by
  obtain ⟨a, hi, turn⟩ := o.admissionTurn_cases hr
  obtain ⟨hs, hp⟩ := turn.sweepers hr
  have shifts := o.shifts hi hr turn
  obtain ⟨less, same⟩ := turnsLeft_turn o hi shifts
  obtain ⟨_, _, _, _, _, s, -⟩ := shifts
  have size : (w.taken.admissionTurn i).admissions.size = w.admissions.size := by
    rw [s.admissions, Array.size_modify]
  have admissions := sum_lt_sum_of_one (Array.getElem?_eq_some_iff.1 hi).1 less same
  have sweepers (k : Nat) :
      (w.taken.admissionTurn i).sweeperTurnsLeft k = w.sweeperTurnsLeft k := by
    rw [sweeperTurnsLeft, (hp k).1, hs, sweeperTurnsLeft]
  rw [work, work, size, hs]
  simp only [sweepers]
  omega

theorem work_sweeperTurn_lt {j : Nat} (t : w.Tidy) (hr : w.ready.head? = some (.sweeper j)) :
    (w.taken.sweeperTurn j).work < w.work := by
  obtain ⟨rest, hr⟩ := List.head?_eq_some_iff.1 hr
  obtain ⟨less, same⟩ := sweeperTurnsLeft_turn t hr
  obtain ⟨again, ready, going, -⟩ := t.sweeperTurn hr
  have sweepers := sum_lt_sum_of_one (t.lt_size (by simp [hr])).1 less same
  have size : (w.taken.sweeperTurn j).admissions = w.admissions ∧
      (w.taken.sweeperTurn j).sweepers.size = w.sweepers.size := by
    rcases w.taken.sweeperTurn_cases j with e | ⟨s, hs, _, _, -, _, _, _, _, _, -, e⟩
    · rw [e]
      exact ⟨rfl, rfl⟩
    · rw [e]
      exact ⟨rfl, by simp [World.taken]⟩
  have admissions (i : Nat) : (w.taken.sweeperTurn j).turnsLeft i = w.turnsLeft i := by
    have queued : (w.taken.sweeperTurn j).queued i = w.queued i := by
      rw [World.queued, ready, World.queued, hr]
      rcases going with rfl | ⟨rfl, -⟩ <;> simp
    rw [turnsLeft, phase?, size.1, queued, turnsLeft, phase?]
  rw [work, work, size.1, size.2]
  simp only [admissions]
  omega

/-- Every turn takes one of those left. -/
theorem work_turn_lt {task : Task} (o : w.Orderly) (t : w.Tidy) (hr : w.ready.head? = some task) :
    (w.taken.turn task).work < w.work := by
  cases task with
  | admission i => exact work_admissionTurn_lt o hr
  | sweeper j => exact work_sweeperTurn_lt t hr

/-! ### Settled worlds -/

/-- As many turns as there may be left are enough. -/
theorem takeTurns_settled {n : Nat} (o : w.Orderly) (t : w.Tidy) (h : w.work ≤ n) :
    (takeTurns n w).ready = [] := by
  -- By induction on the number of turns: each takes one of those left.
  induction n generalizing w with
  | zero =>
    cases hr : w.ready with
    | nil => exact hr
    | cons task rest =>
      have head : w.ready.head? = some task := by rw [hr]; rfl
      have := work_turn_lt o t head
      omega
  | succ n ih =>
    cases hr : w.ready.head? with
    | none =>
      have settled := List.head?_eq_none_iff.1 hr
      rwa [takeTurns_of_ready_nil settled]
    | some task =>
      have less := work_turn_lt o t hr
      rw [takeTurns_succ hr]
      exact ih (o.turn hr) (t.turn o hr) (by omega)

/-- No task can go on once the world has settled. -/
theorem settle_settled (o : w.Orderly) (t : w.Tidy) : w.settle.ready = [] :=
  takeTurns_settled o t (work_le o t)

/-- Where no gate of its cache holds, a request is decided once no task can go on: the
    first of its stripe would be in the queue or parked. -/
theorem Orderly.decided_of_settled (o : w.Orderly) (owned : w.Owned) (hr : w.ready = [])
    {i : Nat} {a : Admission} (hi : w.admissions[i]? = some a)
    (opened : ∀ kind, w.holds a.cache kind = false) : a.phase.stage = 3 := by
  have queued (j : Nat) : w.queued j = 0 := by simp [World.queued, hr]
  refine Nat.le_antisymm a.phase.stage_le (Nat.le_of_not_lt fun early => ?_)
  -- A request that has not had a turn would be in the queue.
  have begun : 1 ≤ a.phase.stage := by
    refine Nat.pos_of_ne_zero fun zero => ?_
    have placed := o.placed hi
    cases hp : a.phase <;> simp [hp, Phase.stage, Placed, queued] at zero placed
  have mem : i ∈ w.line a.lock := o.mem_line.2 ⟨a, hi, rfl, begun, by omega⟩
  cases hl : w.line a.lock with
  | nil => simp [hl] at mem
  | cons j rest =>
    obtain ⟨b, hb, lock, first, second⟩ := o.mem_line.1 (show j ∈ w.line a.lock by simp [hl])
    have placed := o.placed hb
    -- Requests of one stripe are of one limiter, and so go to one cache.
    have cache : b.cache = a.cache := by
      obtain ⟨cell, hl, -, hc⟩ := owned.limiter hi
      obtain ⟨cell', hl', -, hc'⟩ := owned.limiter hb
      have owner : b.owner = a.owner := congrArg LockId.owner lock
      rw [owner, hl] at hl'
      cases hl'
      rw [hc, hc']
    have parked (stage : b.phase.stage = 2) : j ∈ w.parked b.cache := by
      refine List.count_pos_iff.1 ?_
      cases hp : b.phase <;> simp [hp, Phase.stage, Placed, queued] at stage placed
      · omega
      · omega
    cases hp : b.phase with
    | inLine => simp [Placed, hp, queued, lock, hl] at placed
    | beforeLookup | beforeStore =>
      obtain ⟨c, hc, -, held⟩ := o.parked_held (parked (by rw [hp]; rfl))
      obtain rfl : b = c := Option.some.inj (hb.symm.trans hc)
      simp [HeldAt, hp, cache, opened] at held
    | issued | waiting | finished => simp [hp, Phase.stage] at first second

end Turnstile.World

namespace Turnstile

/-- The worlds of a course from an orderly and tidy one are tidy. -/
theorem Course.tidy {ok : World → Step → Prop} {w₀ w : World} {h : List Moment}
    (c : Course ok w₀ h w) (o : w₀.Orderly) (t : w₀.Tidy) : w.Tidy := by
  induction c with
  | start => exact t
  | act _ _ ih => exact ih.acted _
  | turn c hr ih => exact ih.turn (c.orderly o) (by rw [hr]; rfl)

/-- After every step of a session no task can go on. -/
theorem World.final_settled {w : World} (o : w.Orderly) (t : w.Tidy) (hr : w.ready = [])
    (steps : List Step) : (w.final steps).ready = [] := by
  induction steps generalizing w with
  | nil => exact hr
  | cons s rest ih =>
    have o' := o.acted s
    have t' := t.acted s
    have settling : Course (fun _ _ => True) (w.acted s) _ (w.acted s).settle := .of_turns ..
    exact ih (settling.orderly o') (settling.tidy o' t') (settle_settled o' t')

/-! ### Between steps -/

/-- That a world is one between two steps of a session: every task is in its place, and
    none can go on. -/
structure World.Rested (w : World) : Prop where
  orderly : w.Orderly
  tidy : w.Tidy
  settled : w.ready = []

theorem World.rested_starting (wall : Int) : (starting wall).Rested :=
  ⟨orderly_starting wall, tidy_starting wall, rfl⟩

theorem World.Rested.step {w : World} (r : w.Rested) (s : Step) : (w.step s).1.Rested := by
  have course : Course (fun _ _ => True) (w.acted s) _ (w.acted s).settle := .of_turns ..
  have orderly := r.orderly.acted s
  have tidy := r.tidy.acted s
  exact ⟨course.orderly orderly, course.tidy orderly tidy, settle_settled orderly tidy⟩

theorem World.rested_final (wall : Int) (steps : List Step) :
    ((starting wall).final steps).Rested := by
  have course := course_history ((starting wall).along_true steps)
  have orderly := orderly_starting wall
  have tidy := tidy_starting wall
  exact ⟨course.orderly orderly, course.tidy orderly tidy, final_settled orderly tidy rfl steps⟩

end Turnstile
