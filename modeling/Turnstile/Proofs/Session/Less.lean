import Mathlib.Data.List.Forall2
import Turnstile.Proofs.Session.Abreast
import Turnstile.Proofs.Session.Anonymity
import Turnstile.Proofs.Session.Reachability

/-!
# Worlds less some requests

If the requests that are gone from a session are all refused, then nothing else of it
changes but what its caches have dropped. The other tasks stand in the same order in the
queue and have the same timers, and the sweepers are in the same phases (`Less`): who is
refused has no timer, and as long as it is not answered its limiter has a name, so that its
cache is reachable without it.

This stays so turn by turn. A request that is gone has turns in the full session only. All
other tasks have theirs in both, in the same order, and show the same in them but for what
sweeps count (`Moment.ShowsAlike`).

* `Less.turn_gone`, `Less.turn_kept`: what a turn does that is gone, and one that is not;
* `Less.takeTurns`: so what all the turns do;
* `Less.acted`: what a step does, and what is left of it.
-/

namespace Turnstile

/-! ### Tasks -/

section

variable (gone : Nat → Bool)

/-- A task under the number that it has once some requests are gone, unless it is the task
    of one of them. -/
def Task.less? : Task → Option Task
  | .admission i => ((View.all.cut gone).number? i).map .admission
  | .sweeper j => some (.sweeper j)

/-- A timer of such a task. -/
def Timer.less? (t : Timer) : Option Timer := (t.task.less? gone).map fun task => { t with task }

variable {gone} {i : Nat}

theorem Task.less?_gone (hi : gone i) : (Task.admission i).less? gone = none := by
  rw [less?, View.cut_gone hi]
  rfl

theorem Task.less?_kept (hi : gone i = false) :
    (Task.admission i).less? gone = some (.admission (renumber gone i)) := by
  rw [less?, View.cut_kept hi]
  rfl

/-- Of requests with numbers in a row those that are kept have numbers in a row. -/
theorem filterMap_less?_range' (a n : Nat) :
    ((List.range' a n).map Task.admission).filterMap (Task.less? gone) =
      (List.range' (renumber gone a) (renumber gone (a + n) - renumber gone a)).map
        .admission := by
  rw [← renumber_range', List.map_map, List.filterMap_map, ← List.filterMap_eq_map,
    List.filterMap_filter]
  congr 1
  funext i
  cases hi : gone i with
  | true => simp [Task.less?_gone hi]
  | false => simp [Task.less?_kept hi]

theorem Exit.filterMap_timers_gone (hi : gone i) (e : Exit) (now : Instant) :
    (e.timers i now).filterMap (Timer.less? gone) = [] := by
  unfold Exit.timers
  split
  · split <;> simp [Timer.less?, Task.less?_gone hi]
  · rfl

theorem Exit.filterMap_timers_kept (hi : gone i = false) (e : Exit) (now : Instant) :
    (e.timers i now).filterMap (Timer.less? gone) = e.timers (renumber gone i) now := by
  unfold Exit.timers
  split
  · split <;> simp [Timer.less?, Task.less?_kept hi]
  · rfl

theorem SweeperExit.filterMap_tasks (e : SweeperExit) (j : Nat) :
    (e.tasks j).filterMap (Task.less? gone) = e.tasks j := by
  cases e <;> rfl

theorem SweeperExit.filterMap_timers (e : SweeperExit) (j : Nat) :
    (e.timers j).filterMap (Timer.less? gone) = e.timers j := by
  cases e <;> rfl

/-- All numbers up to that of the next request are in use. -/
theorem exists_renumber {j n : Nat} (h : j < renumber gone n) :
    ∃ i < n, gone i = false ∧ renumber gone i = j := by
  induction n with
  | zero => simp [renumber] at h
  | succ n ih =>
    rw [renumber_succ] at h
    by_cases before : j < renumber gone n
    · obtain ⟨i, hi, rest⟩ := ih before
      exact ⟨i, Nat.lt_succ_of_lt hi, rest⟩
    · cases away : gone n with
      | true => simp [away, before] at h
      | false =>
        rw [away] at h
        simp only [Bool.false_eq_true, if_false] at h
        exact ⟨n, Nat.lt_succ_self n, away, by omega⟩

end

/-! ### Worlds -/

/-- That a limiter with a name is on a cache. -/
def World.Limits (w : World) (c : Nat) : Prop :=
  ∃ name l cell, w.limiterNames.get? name = some l ∧ w.limiters[l]? = some cell ∧ cell.cache = c

/-- That a world is another one less some requests, which are refused, or are yet to be: the
    tasks that are not gone are in the same places. -/
structure Less (gone : Nat → Bool) (w v : World) : Prop
    extends Abreast gone .all (fun _ => True) w v where
  sweepers : w.sweepers = v.sweepers
  ready : w.ready.filterMap (Task.less? gone) = v.ready
  timers : w.timers.filterMap (Timer.less? gone) = v.timers
  /-- Who is gone is answered, or has not had its turn. -/
  stands : ∀ {i : Nat} {a : Admission}, gone i → w.admissions[i]? = some a →
    a.phase = .finished ∨ a.phase = .issued ∧ w.Limits a.cache

/-- That the requests that are gone are refused when they have their turns, and change no
    answer of a cache. -/
structure Moment.Refuses (gone : Nat → Bool) (m : Moment) : Prop
    extends m.Spares (View.all.cut gone) (fun _ => True) where
  refused : ∀ {i : Nat} {a : Admission} {cell : CacheCell}, m.task = .admission i → gone i →
    m.world.admissions[i]? = some a → a.phase = .issued →
    m.world.caches[a.cache]? = some cell →
    ∃ reason, (a.entering cell m.world.clock).exit.outcome? = some (.error reason)

/-- That two turns show the same, but for what sweeps count. -/
structure Moment.ShowsAlike (m n : Moment) : Prop where
  calls : m.calls = n.calls
  notices : m.notices.filter (!·.isSwept) = n.notices.filter (!·.isSwept)
  faults : m.faults = n.faults

theorem Exit.phase_of_refused {e : Exit} {reason : Refusal}
    (h : e.outcome? = some (.error reason)) : e.phase = .finished := by
  match e, h with
  | .failed _, _ | .decided (.error _), _ => rfl

section

open World

variable {gone : Nat → Bool} {w v w' v' : World} {i : Nat} {task task' : Task} {m n : Moment}

/-- Where no gate holds, who is refused changes no answer of a cache. -/
theorem Moment.Refuses.of_refused (opened : m.world.Opened)
    (refused : ∀ {i : Nat} {a : Admission} {cell : CacheCell}, m.task = .admission i → gone i →
      m.world.admissions[i]? = some a → a.phase = .issued →
      m.world.caches[a.cache]? = some cell →
      ∃ reason, (a.entering cell m.world.clock).exit.outcome? = some (.error reason)) :
    m.Refuses gone := by
  refine ⟨⟨fun {i a cell} ht hi ha hp hc => ?_⟩, refused⟩
  obtain ⟨reason, refused⟩ := refused ht (View.all_cut_eq_none.1 hi) ha hp hc
  rcases a.entering_cases cell (opened cell (Array.mem_of_getElem? hc)) with
    ⟨-, same⟩ | ⟨_, _, _, -, -, admitted, -⟩
  · exact ⟨fun _ hl => same _ hl⟩
  · rw [admitted] at refused
    cases refused

theorem Moment.shown_of_adds {calls : List Call} {notices : List Notice} {faults : List Fault}
    (h : m.world.trace.Adds m.after.trace calls notices faults) :
    m.calls = calls ∧ m.notices = notices ∧ m.faults = faults := by
  refine ⟨?_, ?_, ?_⟩
  · rw [Moment.calls, h.calls]
    exact List.drop_left
  · rw [Moment.notices, h.notices]
    exact List.drop_left
  · rw [Moment.faults, h.faults]
    exact List.drop_left

/-- Turns show alike what they add alike. -/
theorem Moment.ShowsAlike.of_adds {calls : List Call} {notices notices' : List Notice}
    {faults : List Fault} (hm : m.after = w') (hn : n.after = v')
    (adds : m.world.trace.Adds w'.trace calls notices faults)
    (adds' : n.world.trace.Adds v'.trace calls notices' faults)
    (same : notices.filter (!·.isSwept) = notices'.filter (!·.isSwept)) : m.ShowsAlike n := by
  obtain ⟨c, l, f⟩ := shown_of_adds (hm ▸ adds)
  obtain ⟨c', l', f'⟩ := shown_of_adds (hn ▸ adds')
  exact ⟨c.trans c'.symm, by rw [l, l', same], f.trans f'.symm⟩

theorem World.Orderly.limits_turn (o : w.Orderly) (hr : w.ready.head? = some task) {c : Nat}
    (h : w.Limits c) : (w.taken.turn task).Limits c := by
  rw [Limits, (o.names_turn hr).2, o.limiters_turn hr]
  exact h

/-- What a turn of a sweeper adds to the trace, besides what it counts, is said by its end. -/
theorem World.Leaves.adds {j : Nat} {e : SweeperExit} (h : w.taken.Leaves j e w') :
    ∃ swept : List Notice, swept.filter (!·.isSwept) = [] ∧
      w.trace.Adds w'.trace [] (swept ++ e.notices) e.faults := by
  obtain ⟨_, ⟨_, swept, -, counted, rfl⟩, -, rfl⟩ := h
  refine ⟨swept.toList, by simpa using counted, ?_⟩
  constructor <;> simp [leaveSweeper, taken]

theorem World.turns_of_ready_nil (hr : w.ready = []) (n : Nat) : turns n w = [] := by
  cases n with
  | zero => rfl
  | succ n => simp only [turns, hr]

end

namespace Less

open World

variable {gone : Nat → Bool} {w v w' v' : World} {i : Nat} {task task' : Task}

/-- The same caches are reachable. -/
theorem reachable_eq (h : Less gone w v) (c : Nat) : w.reachable c = v.reachable c := by
  rw [Bool.eq_iff_iff, reachable_iff, reachable_iff]
  constructor
  · intro leads
    cases leads with
    | name named => exact .name (h.alike.cacheNames ▸ named)
    | limiter named hl e => exact .limiter (h.alike.limiterNames ▸ named) (h.alike.limiters ▸ hl) e
    | @request i a ha e unanswered =>
      cases away : gone i with
      | true =>
        obtain ⟨-, _, _, _, named, hl, e'⟩ := (h.stands away ha).resolve_left unanswered
        exact .limiter (h.alike.limiterNames ▸ named) (h.alike.limiters ▸ hl) (e'.trans e)
      | false =>
        rw [h.alike.admission (View.cut_kept away) rfl] at ha
        exact .request ha e unanswered
  · intro leads
    cases leads with
    | name named => exact .name (h.alike.cacheNames ▸ named)
    | limiter named hl e => exact .limiter (h.alike.limiterNames ▸ named) (h.alike.limiters ▸ hl) e
    | @request j b hb e unanswered =>
      have there := (Array.getElem?_eq_some_iff.1 hb).1
      rw [h.size] at there
      obtain ⟨i, -, kept, rfl⟩ := exists_renumber there
      rw [← h.alike.admission (View.cut_kept kept) rfl] at hb
      exact .request hb e unanswered

/-- So the turns of sweepers end the same way. -/
theorem sweeperExit?_eq (h : Less gone w v) (j : Nat) :
    w.taken.sweeperExit? j = v.taken.sweeperExit? j := by
  have reachable (u : World) : u.taken.reachable = u.reachable := rfl
  simp only [sweeperExit?, reachable, h.reachable_eq]
  simp only [taken, h.sweepers, h.alike.clock]

/-! ### Turns -/

/-- The task that has the next turn has it in both worlds, or only the other tasks have. -/
theorem next (h : Less gone w v) (hr : w.ready.head? = some task) :
    (task.less? gone).toList ++ w.ready.tail.filterMap (Task.less? gone) = v.ready := by
  obtain ⟨rest, e⟩ := List.head?_eq_some_iff.1 hr
  rw [← h.ready, e]
  cases hl : task.less? gone <;> simp [hl]

/-- Worlds stay less some requests by turns that leave those alone. -/
theorem of_turn (h : Less gone w v) (o : w.Orderly) (hr : w.ready.head? = some task)
    (turn : w.taken.turn task = w') (alike : Alike (View.all.cut gone) .all (fun _ => True) w' v')
    (ev : Evolves v v') (sv : v'.admissions.size = v.admissions.size)
    (sweepers : w'.sweepers = v'.sweepers)
    (ready : w'.ready.filterMap (Task.less? gone) = v'.ready)
    (timers : w'.timers.filterMap (Timer.less? gone) = v'.timers)
    (stands : ∀ {i : Nat} {a : Admission}, gone i → w'.admissions[i]? = some a →
      a.phase = .finished ∨ w.admissions[i]? = some a) : Less gone w' v' where
  toAbreast := by
    subst turn
    exact h.of_evolves alike (o.evolves_turn hr) (Moment.size_after (m := ⟨w, task⟩) o hr) ev sv
  sweepers := sweepers
  ready := ready
  timers := timers
  stands hi ha := by
    rcases stands hi ha with finished | ha
    · exact .inl finished
    · exact (h.stands hi ha).imp_right fun ⟨hp, limits⟩ => ⟨hp, turn ▸ o.limits_turn hr limits⟩

section

variable (h : Less gone w v) (kw : w.Viewed (View.all.cut gone) fun _ => True)
include h kw

/-- A request that is gone has its turn in the one world only. -/
theorem turn_gone (hr : w.ready.head? = some (.admission i)) (hi : gone i)
    (refuses : Moment.Refuses gone ⟨w, .admission i⟩) :
    Less gone (w.taken.turn (.admission i)) v := by
  have unseen : (View.all.cut gone).task? (.admission i) = none := View.cut_gone hi
  have alike := (kw.turn_unseen hr unseen refuses.toSpares).trans_left h.alike
  have next := h.next hr
  rw [Task.less?_gone hi] at next
  obtain ⟨a, ha, turn⟩ := kw.flowing.turn_cases kw.orderly hr
  generalize hw : w.taken.turn (.admission i) = w' at turn alike ⊢
  cases turn with
  | decides hp hc _ _ _ =>
    obtain ⟨reason, refused⟩ := refuses.refused rfl hi ha hp hc
    refine h.of_turn kw.orderly hr hw alike (.of_eq rfl) rfl h.sweepers next ?_
      fun {j b} _ hb => ?_
    · have timers := h.timers
      simp [World.moved, taken, List.filterMap_append, timers, Exit.filterMap_timers_gone hi]
    · rw [World.moved, Array.getElem?_modify] at hb
      split at hb
      · obtain ⟨_, -, rfl⟩ := Option.map_eq_some_iff.1 hb
        exact .inl (Exit.phase_of_refused refused)
      · exact .inr hb
  | ends hp _ _ =>
    rcases h.stands hi ha with finished | ⟨issued, -⟩
    · rw [hp] at finished
      cases finished
    · rw [hp] at issued
      cases issued

variable (kv : v.Viewed .all fun _ => True)
include kv

/-- A request that is not gone has its turn in both worlds. -/
theorem turn_request (hr : w.ready.head? = some (.admission i))
    (hr' : v.ready.head? = some (.admission (renumber gone i)))
    (rest : w.ready.tail.filterMap (Task.less? gone) = v.ready.tail) (hi : gone i = false) :
    Less gone (w.taken.turn (.admission i)) (v.taken.turn (.admission (renumber gone i))) ∧
      Moment.ShowsAlike ⟨w, .admission i⟩ ⟨v, .admission (renumber gone i)⟩ := by
  have alike := h.alike.turn_seen kw kv hr hr' (View.cut_kept hi) rfl
  have ev := kv.orderly.evolves_turn hr'
  have sv : (v.taken.turn (.admission (renumber gone i))).admissions.size = v.admissions.size :=
    Moment.size_after (m := ⟨v, _⟩) kv.orderly hr'
  obtain ⟨a, ha, turn⟩ := kw.flowing.turn_cases kw.orderly hr
  obtain ⟨b, hb, turn'⟩ := kv.flowing.turn_cases kv.orderly hr'
  obtain rfl : a = b := by
    rw [h.alike.admission (View.cut_kept hi) rfl, hb] at ha
    exact (Option.some.inj ha).symm
  have others {phase : Phase} {j : Nat} {b : Admission} (hj : gone j)
      (hb : (w.admissions.modify i fun a => { a with phase })[j]? = some b) :
      w.admissions[j]? = some b := by
    rw [Array.getElem?_modify, if_neg] at hb
    · exact hb
    · rintro rfl
      rw [hi] at hj
      cases hj
  have timers := h.timers
  generalize hw : w.taken.turn (.admission i) = w' at turn alike ⊢
  generalize hv : v.taken.turn (.admission (renumber gone i)) = v' at turn' alike ev sv ⊢
  -- They are in the same phase, so both are decided, or the waits of both are over.
  cases turn with
  | @decides x _ _ _ hp hx _ _ adds =>
    cases turn' with
    | @decides y _ _ _ _ hy _ _ adds' =>
      have passages := a.entering_alike (h.alike.caches.cell hx hy) trivial
      rw [← h.alike.clock, ← passages.calls, ← passages.notices, ← passages.exit] at adds'
      refine ⟨h.of_turn kw.orderly hr hw alike ev sv h.sweepers rest ?_
        fun hj hb => .inr (others hj hb), .of_adds hw hv adds adds' rfl⟩
      simp [World.moved, taken, List.filterMap_append, timers, Exit.filterMap_timers_kept hi,
        passages.exit, ← h.alike.clock]
    | ends hp' =>
      rw [hp] at hp'
      cases hp'
  | ends hp _ adds =>
    cases turn' with
    | decides hp' =>
      rw [hp] at hp'
      cases hp'
    | ends hp' _ adds' =>
      rw [hp] at hp'
      cases hp'
      refine ⟨h.of_turn kw.orderly hr hw alike ev sv h.sweepers rest ?_
        fun hj hb => .inr (others hj hb), .of_adds hw hv adds adds' rfl⟩
      simpa [World.moved, taken] using timers

/-- A sweeper has its turn in both worlds. -/
theorem turn_sweeper {j : Nat} (hr : w.ready.head? = some (.sweeper j))
    (hr' : v.ready.head? = some (.sweeper j))
    (rest : w.ready.tail.filterMap (Task.less? gone) = v.ready.tail) :
    Less gone (w.taken.turn (.sweeper j)) (v.taken.turn (.sweeper j)) ∧
      Moment.ShowsAlike ⟨w, .sweeper j⟩ ⟨v, .sweeper j⟩ := by
  have spares {f : View} {u : World} : Moment.Spares f (fun _ => True) ⟨u, .sweeper j⟩ := ⟨nofun⟩
  have alike := (kw.turn_unseen hr rfl spares).trans_left
    (h.alike.trans_right (kv.turn_unseen hr' rfl spares))
  have ev := kv.orderly.evolves_turn hr'
  have sv : (v.taken.turn (.sweeper j)).admissions.size = v.admissions.size :=
    Moment.size_after (m := ⟨v, _⟩) kv.orderly hr'
  have exits := h.sweeperExit?_eq j
  generalize hw : w.taken.turn (.sweeper j) = w' at alike ⊢
  generalize hv : v.taken.turn (.sweeper j) = v' at alike ev sv ⊢
  have turn : w.taken.sweeperTurn j = w' := hw
  have turn' : v.taken.sweeperTurn j = v' := hv
  cases he : v.taken.sweeperExit? j with
  | none =>
    rw [sweeperTurn_of_none (exits.trans he)] at turn
    rw [sweeperTurn_of_none he] at turn'
    subst turn turn'
    have nothing (u : World) : u.trace.Adds u.taken.trace [] [] [] := by
      constructor <;> simp [taken]
    exact ⟨h.of_turn kw.orderly hr hw alike ev sv h.sweepers rest h.timers fun _ hb => .inr hb,
      .of_adds hw hv (nothing w) (nothing v) rfl⟩
  | some e =>
    have left : w.taken.Leaves j e w' := turn ▸ sweeperTurn_of_exit (exits.trans he)
    have left' : v.taken.Leaves j e v' := turn' ▸ sweeperTurn_of_exit he
    obtain ⟨admissions, sweepers, ready, timers⟩ := left.frame
    obtain ⟨-, sweepers', ready', timers'⟩ := left'.frame
    obtain ⟨swept, counted, adds⟩ := left.adds
    obtain ⟨swept', counted', adds'⟩ := left'.adds
    refine ⟨h.of_turn kw.orderly hr hw alike ev sv ?_ ?_ ?_ fun _ hb => .inr (admissions ▸ hb),
      .of_adds hw hv adds adds' ?_⟩
    · rw [sweepers, sweepers', taken, taken, h.sweepers]
    · rw [ready, ready', List.filterMap_append, e.filterMap_tasks, taken, taken, rest]
    · rw [timers, timers', List.filterMap_append, e.filterMap_timers, taken, taken, h.timers]
    · rw [List.filter_append, List.filter_append, counted, counted']

/-- A task that is not gone has its turn in both worlds. -/
theorem turn_kept (hr : w.ready.head? = some task) (kept : task.less? gone = some task') :
    v.ready.head? = some task' ∧ Less gone (w.taken.turn task) (v.taken.turn task') ∧
      Moment.ShowsAlike ⟨w, task⟩ ⟨v, task'⟩ := by
  have next := h.next hr
  rw [kept] at next
  have hr' : v.ready.head? = some task' := by
    rw [← next]
    rfl
  have rest : w.ready.tail.filterMap (Task.less? gone) = v.ready.tail := by
    rw [← next]
    rfl
  refine ⟨hr', ?_⟩
  cases task with
  | sweeper j =>
    cases kept
    exact h.turn_sweeper kw kv hr hr' rest
  | admission i =>
    cases hi : gone i with
    | true =>
      rw [Task.less?_gone hi] at kept
      cases kept
    | false =>
      rw [Task.less?_kept hi] at kept
      cases kept
      exact h.turn_request kw kv hr hr' rest hi

end

/-! ### Settling -/

/-- After all turns a world is still another one less some requests, if these are refused in
    theirs. The turns of all other tasks show the same. -/
theorem takeTurns {p q : Nat} (h : Less gone w v)
    (kw : w.Viewed (View.all.cut gone) fun _ => True) (kv : v.Viewed .all fun _ => True)
    (hp : w.work ≤ p) (hq : v.work ≤ q) (refuses : ∀ m ∈ turns p w, m.Refuses gone) :
    Less gone (World.takeTurns p w) (World.takeTurns q v) ∧
      List.Forall₂ Moment.ShowsAlike
        ((turns p w).filter fun m => (m.task.less? gone).isSome) (turns q v) := by
  -- By induction on the turns of the full session: the other one keeps up with it.
  induction p using Nat.strongRecOn generalizing q w v with
  | ind p ih =>
    cases hr : w.ready.head? with
    | none =>
      have nil := List.head?_eq_none_iff.1 hr
      have nil' : v.ready = [] := by rw [← h.ready, nil]; rfl
      rw [takeTurns_of_ready_nil nil, takeTurns_of_ready_nil nil', turns_of_ready_nil nil,
        turns_of_ready_nil nil']
      exact ⟨h, .nil⟩
    | some task =>
      obtain ⟨p, rfl, lessp⟩ := kw.work_turn hr hp
      rw [turns_succ hr] at refuses ⊢
      rw [takeTurns_succ hr]
      have later := fun m hm => refuses m (.tail _ hm)
      cases kept : task.less? gone with
      | none =>
        match task with
        | .admission i =>
          have hi : gone i := by
            cases hi : gone i with
            | true => rfl
            | false => simp [Task.less?_kept hi] at kept
          rw [List.filter_cons_of_neg (by simp [kept])]
          exact ih p (Nat.lt_succ_self p) (h.turn_gone kw hr hi (refuses _ (.head _))) (kw.turn hr)
            kv lessp hq later
      | some task' =>
        obtain ⟨hr', turn, shows⟩ := h.turn_kept kw kv hr kept
        obtain ⟨q, rfl, lessq⟩ := kv.work_turn hr' hq
        rw [turns_succ hr', takeTurns_succ hr', List.filter_cons_of_pos (by simp [kept])]
        obtain ⟨settled, rest⟩ :=
          ih p (Nat.lt_succ_self p) turn (kw.turn hr) (kv.turn hr') lessp lessq later
        exact ⟨settled, .cons shows rest⟩

theorem settle (h : Less gone w v) (kw : w.Viewed (View.all.cut gone) fun _ => True)
    (kv : v.Viewed .all fun _ => True) (refuses : ∀ m ∈ w.settling, m.Refuses gone) :
    Less gone w.settle v.settle ∧
      List.Forall₂ Moment.ShowsAlike
        (w.settling.filter fun m => (m.task.less? gone).isSome) v.settling :=
  h.takeTurns kw kv (work_le kw.orderly kw.tidy) (work_le kv.orderly kv.tidy) refuses

end Less

/-! ### Steps -/

/-- That a step leaves the tasks alone, where nobody is parked. -/
def Step.IsIdle : Step → Prop
  | .throttle .. | .advance _ | .sweeper .. | .abort _ | .shutdown => False
  | _ => True

section

open World

variable {gone : Nat → Bool} {w v v' : World} {s : Step}

theorem World.idle_acted (idle : s.IsIdle)
    (free : ∀ {c : Nat} {x : CacheCell}, w.caches[c]? = some x → x.parked = []) :
    (w.acted s).sweepers = w.sweepers ∧ (w.acted s).ready = w.ready ∧
      (w.acted s).timers = w.timers := by
  have change := change_acted w s
  generalize w.acted s = w' at change
  cases change with
  | aside | cache | limiter | drop | setWall | store => exact ⟨rfl, rfl, rfl⟩
  | gate _ hc => exact ⟨rfl, by simp [unpark, enqueue, free hc, World.shown], rfl⟩
  | issue | advance | sweeper | stop | shutdown => exact idle.elim

theorem World.ready_issueAll (l : Nat) (cell : LimiterCell) (identifier : String) (n : Nat) :
    (w.issueAll l cell identifier n).ready =
      w.ready ++ (List.range' w.admissions.size n).map .admission := by
  induction n generalizing w with
  | zero => simp [issueAll]
  | succ n ih =>
    rw [issueAll, ih, size_issue, List.range'_succ]
    simp [World.issue, enqueue]

/-- Requests stand in the queue in the order of their numbers once they are issued. -/
theorem World.tasks_throttle (running : w.running) (name : String) (form : Identifier)
    (times : Nat) :
    let w' := w.acted (.throttle name form times)
    w'.sweepers = w.sweepers ∧ w'.timers = w.timers ∧
      w'.ready = w.ready ++ (List.range' w.admissions.size
        (w'.admissions.size - w.admissions.size)).map .admission := by
  intro w'
  cases hl : w.limiterNamed? name with
  | none =>
    have acted : w' = w.shown #[] := (acted_throttle_none form times hl).1
    rw [acted]
    simp [World.shown]
  | some x =>
    obtain ⟨l, cell⟩ := x
    have acted : w' = (w.shown #[]).issueAll l cell form.render times :=
      (acted_throttle form times running hl).1
    obtain ⟨admissions, numbers, same⟩ := issueAll_eq (w.shown #[]) l cell form.render times
    refine ⟨by rw [acted, same]; rfl, by rw [acted, same]; rfl, ?_⟩
    rw [acted, ready_issueAll, size_issueAll]
    simp [World.shown]

/-- The timers that come due put the same tasks into the queue. -/
theorem World.less_wakeTimers (clock : w.clock = v.clock)
    (ready : w.ready.filterMap (Task.less? gone) = v.ready)
    (timers : w.timers.filterMap (Timer.less? gone) = v.timers) :
    w.wakeTimers.ready.filterMap (Task.less? gone) = v.wakeTimers.ready ∧
      w.wakeTimers.timers.filterMap (Timer.less? gone) = v.wakeTimers.timers := by
  have seen : (w.timers.filterMap fun t => (t.task.less? gone).map (t.due, ·)) =
      v.timers.filterMap fun t => (some t.task).map (t.due, ·) := by
    rw [← timers, List.filterMap_filterMap]
    congr 1
    funext t
    cases h : t.task.less? gone <;> simp [Timer.less?, h]
  constructor
  · have all := v.filterMap_wakeTimers some
    rw [List.filterMap_some, List.filterMap_some] at all
    rw [filterMap_wakeTimers, ready, seen, clock, all]
  · simp only [wakeTimers, enqueue, List.partition_eq_filter_filter, clock]
    rw [← timers, List.filterMap_filter, List.filter_filterMap]
    congr 1
    funext t
    cases h : t.task.less? gone <;> simp [Timer.less?, h, Option.filter_some]

/-- To stop a sweeper takes it out of the same places. -/
theorem World.less_stopSweeper (j : Nat)
    (ready : w.ready.filterMap (Task.less? gone) = v.ready)
    (timers : w.timers.filterMap (Timer.less? gone) = v.timers) :
    (w.stopSweeper j).ready.filterMap (Task.less? gone) = (v.stopSweeper j).ready ∧
      (w.stopSweeper j).timers.filterMap (Timer.less? gone) = (v.stopSweeper j).timers := by
  have own {t u : Task} (h : t.less? gone = some u) :
      (t != .sweeper j) = (u != .sweeper j) := by
    cases t with
    | sweeper k =>
      cases h
      rfl
    | admission i =>
      obtain ⟨n, -, rfl⟩ := Option.map_eq_some_iff.1 h
      rfl
  simp only [stopSweeper, endSweeper, setSweeperPhase]
  rw [← ready, ← timers, List.filterMap_filter, List.filter_filterMap, List.filterMap_filter,
    List.filter_filterMap]
  constructor
  · congr 1
    funext t
    cases h : t.less? gone with
    | none => simp
    | some u => simp [own h, Option.filter_some]
  · congr 1
    funext t
    cases h : t.task.less? gone with
    | none => simp [Timer.less?, h]
    | some u => simp [Timer.less?, h, own h, Option.filter_some]

variable {told : Prop} {result : StepResult} {left : List Step}

theorem CutTo.idle (h : CutTo v told result left v') (idle : ∀ s ∈ left, s.IsIdle)
    (free : ∀ {c : Nat} {y : CacheCell}, v.caches[c]? = some y → y.parked = []) :
    v'.sweepers = v.sweepers ∧ v'.ready = v.ready ∧ v'.timers = v.timers := by
  cases h with
  | nothing => exact ⟨rfl, rfl, rfl⟩
  | step => exact idle_acted (idle _ (.head _)) free

/-- What is left of a step that issues requests issues those that are kept. -/
theorem CutTo.tasks_throttle {name : String} {form : Identifier} {times : Nat}
    (h : CutTo v told result (w.cutStep gone (.throttle name form times, false)) v')
    (running : v.running) : v'.sweepers = v.sweepers ∧ v'.timers = v.timers ∧
      v'.ready = v.ready ++
        (List.range' v.admissions.size (v'.admissions.size - v.admissions.size)).map
          .admission := by
  simp only [cutStep] at h
  split at h
  · cases h
    exact World.tasks_throttle running name form times
  · split at h
    · cases h
      simp [World.shown]
    · cases h
      exact World.tasks_throttle running name form _

end

namespace Less

open World

variable {gone : Nat → Bool} {w v v' : World} {s : Step} {told : Prop} {result : StepResult}

/-- The tasks that are not gone are put in the same places by a step and by what is left of
    it. -/
theorem tasks_acted (h : Less gone (w.shown #[]) (v.shown #[])) (running : w.running)
    (free : ∀ {c : Nat} {x : CacheCell}, w.caches[c]? = some x → x.parked = [])
    (free' : ∀ {c : Nat} {y : CacheCell}, v.caches[c]? = some y → y.parked = [])
    (flows : s.Flows w) (cutTo : CutTo v told result (w.cutStep gone (s, false)) v')
    (acted : Abreast gone .all (fun _ => True) (w.acted s) v') :
    (w.acted s).sweepers = v'.sweepers ∧
      (w.acted s).ready.filterMap (Task.less? gone) = v'.ready ∧
      (w.acted s).timers.filterMap (Timer.less? gone) = v'.timers := by
  have sweepers : w.sweepers = v.sweepers := h.sweepers
  have ready : w.ready.filterMap (Task.less? gone) = v.ready := h.ready
  have timers : w.timers.filterMap (Timer.less? gone) = v.timers := h.timers
  have running' : v.running := h.alike.running.symm.trans running
  have eq (u : World) (s : Step) : u.acted s = ((u.shown #[]).act s).1 := rfl
  have idle (hs : s.IsIdle) (left : ∀ t ∈ w.cutStep gone (s, false), t.IsIdle) :
      (w.acted s).sweepers = v'.sweepers ∧
        (w.acted s).ready.filterMap (Task.less? gone) = v'.ready ∧
        (w.acted s).timers.filterMap (Timer.less? gone) = v'.timers := by
    obtain ⟨s₁, r₁, t₁⟩ := idle_acted hs free
    obtain ⟨s₂, r₂, t₂⟩ := cutTo.idle left free'
    rw [s₁, s₂, r₁, r₂, t₁, t₂]
    exact ⟨sweepers, ready, timers⟩
  cases s with
  | throttle name form times =>
    obtain ⟨s₁, t₁, r₁⟩ := World.tasks_throttle running name form times
    obtain ⟨s₂, t₂, r₂⟩ := cutTo.tasks_throttle running'
    have before : v.admissions.size = renumber gone w.admissions.size := h.size
    have le := (evolves_acted w (.throttle name form times)).size_le
    rw [s₁, s₂, r₁, r₂, t₁, t₂, List.filterMap_append, filterMap_less?_range', ready, acted.size,
      before, Nat.add_sub_cancel' le]
    exact ⟨sweepers, rfl, timers⟩
  | advance d =>
    cases cutTo
    have clock : (w.clock.advance d) = v.clock.advance d := congrArg (·.advance d) h.alike.clock
    exact ⟨sweepers, less_wakeTimers (w := { w.shown #[] with clock := w.clock.advance d })
      (v := { v.shown #[] with clock := v.clock.advance d }) clock ready timers⟩
  | sweeper cache interval =>
    cases cutTo
    rw [eq, eq, act, act, withCache, withCache]
    rcases h.alike.cacheNamed? cache with ⟨e, e'⟩ | ⟨c, x, y, e, e', -⟩
    · rw [e, e']
      exact ⟨sweepers, ready, timers⟩
    · rw [e, e']
      simp only [show (w.shown #[]).running = true from running,
        show (v.shown #[]).running = true from running', if_true]
      simp [addSweeper, enqueue, World.shown, List.filterMap_append, sweepers, ready, timers,
        Task.less?]
  | abort j =>
    cases cutTo
    rw [eq, eq, act, act, show (w.shown #[]).sweepers = (v.shown #[]).sweepers from sweepers]
    split
    · refine ⟨?_, less_stopSweeper j ready timers⟩
      simp [stopSweeper, endSweeper, setSweeperPhase, World.shown, sweepers]
    · exact ⟨sweepers, ready, timers⟩
  | dropHandle i =>
    refine idle trivial fun t ht => ?_
    simp only [cutStep] at ht
    split at ht
    · cases ht
    · rw [List.mem_singleton.1 ht]
      trivial
  | shutdown => exact flows.elim
  | _ =>
    refine idle trivial fun t ht => ?_
    rw [List.mem_singleton.1 ht]
    trivial

/-- A world stays another one less some requests by a step, and by what is left of it. -/
theorem acted (h : Less gone (w.shown #[]) (v.shown #[])) (o : w.Orderly) (settled : w.ready = [])
    (running : w.running)
    (free : ∀ {c : Nat} {x : CacheCell}, w.caches[c]? = some x → x.parked = [])
    (free' : ∀ {c : Nat} {y : CacheCell}, v.caches[c]? = some y → y.parked = [])
    (flows : s.Flows w) (cutTo : CutTo v told result (w.cutStep gone (s, false)) v')
    (acted : Abreast gone .all (fun _ => True) (w.acted s) v') : Less gone (w.acted s) v' := by
  obtain ⟨sweepers, ready, timers⟩ := h.tasks_acted running free free' flows cutTo acted
  refine { acted with sweepers, ready, timers, stands := fun {i b} hi hb => ?_ }
  rcases admission_acted hb with
    ⟨a, ha, -, same | ⟨rfl, -⟩⟩ | ⟨-, name, form, times, l, cell, rfl, hn, hl, rfl⟩
  · rcases h.stands hi ha with finished | ⟨issued, -⟩
    · exact .inl (same.trans finished)
    · -- Nobody is yet to have a turn where no task can go on.
      have placed := o.placed ha
      simp [Placed, issued, queued, settled] at placed
  · exact flows.elim
  · have named : w.limiterNamed? name = some (l, cell) := by simp [limiterNamed?, hn, hl]
    obtain ⟨_, _, same⟩ := issueAll_eq (w.shown #[]) l cell form.render times
    refine .inr ⟨rfl, name, l, cell, ?_⟩
    rw [(acted_throttle form times running named).1, same]
    exact ⟨hn, hl, rfl⟩

end Less

end Turnstile
