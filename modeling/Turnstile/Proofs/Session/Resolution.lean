import Mathlib.Data.List.Induction
import Turnstile.Proofs.Session.Answers

/-!
# Resolution

Every request is answered exactly once: with the outcome of the decision on it, or
as aborted if its task ends by a fault or in a shutdown.

The reports of a session tell of all its requests (`Ledger`): whom they name as
answered are those that are answered and waited for, and the others are issued
requests without an answer, or given up on. This is kept by every step.

* `answered_once`: in every session each request is answered once, and not after it
  is given up on; no answer is made up, and a shutdown leaves no request without one.
-/

namespace Turnstile

/-! ### What reports say -/

/-- The numbers of the requests that were issued, if the result is that. -/
def StepResult.issued : StepResult → List Nat
  | requests numbers => numbers
  | _ => []

/-- The request that a step gives up on, as its report says. -/
def Step.givenUp? (s : Step) (r : Report) : Option Nat :=
  match s, r.result with
  | .dropHandle i, .flag true => some i
  | _, _ => none

/-- The requests issued in a session. -/
def issued (reports : List Report) : List Nat := reports.flatMap (·.result.issued)

/-- The requests answered in a session, answer by answer. -/
def resolved (reports : List Report) : List Nat :=
  (reports.flatMap Report.outcomes).map Prod.fst

/-- The requests given up on in a session. -/
def givenUp (steps : List Step) (reports : List Report) : List Nat :=
  (steps.zip reports).filterMap fun (s, r) => s.givenUp? r

namespace World

variable {w : World} {s : Step}

theorem issued_withCache {name : String} {act : Nat → CacheCell → World × StepResult}
    (h : ∀ c cell, (act c cell).2.issued = []) : (w.withCache name act).2.issued = [] := by
  unfold withCache
  split
  · rfl
  · exact h _ _

theorem issued_withEntry {name : String} {key : KeyName}
    {act : Nat → CacheCell → String → World × StepResult}
    (h : ∀ c cell text, (act c cell text).2.issued = []) :
    (w.withEntry name key act).2.issued = [] := by
  refine issued_withCache fun c cell => ?_
  split
  · rfl
  · exact h _ _ _

/-- Only requests are issued. -/
theorem issued_act (w : World) (hs : ∀ name identifier times, s ≠ .throttle name identifier times) :
    (w.act s).2.issued = [] := by
  cases s with
  | throttle => exact absurd rfl (hs _ _ _)
  | cache | dropLimiter | dropCache | dropHandle | advance | setWall | shutdown => rfl
  | clone | key | abort =>
    simp only [act]
    split <;> rfl
  | limiter =>
    refine issued_withCache fun c cell => ?_
    simp only []
    split <;> rfl
  | sweeper =>
    refine issued_withCache fun c cell => ?_
    split <;> rfl
  | purge | clear | isEmpty | gate => exact issued_withCache fun c cell => rfl
  | put =>
    refine issued_withEntry fun c cell text => ?_
    split <;> rfl
  | get => exact issued_withEntry fun c cell text => rfl

/-- Requests get the numbers that follow, and are issued before a shutdown only. -/
theorem issued_step (w : World) (s : Step) :
    ∃ n, (w.step s).2.result.issued = (List.range n).map (w.admissions.size + ·) ∧
      (w.acted s).admissions.size = w.admissions.size + n ∧ (n ≠ 0 → w.running) := by
  have result : (w.step s).2.result = ((w.shown #[]).act s).2 := rfl
  by_cases throttle : ∃ name identifier times, s = .throttle name identifier times
  · obtain ⟨name, identifier, times, rfl⟩ := throttle
    have acted : w.acted (.throttle name identifier times) =
        ((w.shown #[]).act (.throttle name identifier times)).1 := rfl
    rw [result, acted, act]
    cases (w.shown #[]).limiterNamed? name with
    | none => exact ⟨0, rfl, rfl, absurd rfl⟩
    | some x =>
      obtain ⟨l, cell⟩ := x
      by_cases ht : w.running || times = 0
      · refine ⟨times, ?_, ?_, fun nonzero => by simpa [nonzero] using ht⟩
        · simp only [show (w.shown #[]).running = w.running from rfl, ht, if_true]
          rfl
        · simp only [show (w.shown #[]).running = w.running from rfl, ht, if_true]
          exact size_issueAll ..
      · refine ⟨0, ?_, ?_, absurd rfl⟩ <;>
          · simp only [show (w.shown #[]).running = w.running from rfl, ht]
            rfl
  · have other : ∀ name identifier times, s ≠ .throttle name identifier times :=
      fun name identifier times e => throttle ⟨_, _, _, e⟩
    refine ⟨0, by rw [result, issued_act _ other]; rfl, ?_, absurd rfl⟩
    have change := change_acted w s
    generalize w.acted s = w' at change
    cases change with
    | issue => exact absurd rfl (other _ _ _)
    | drop => exact Array.size_modify
    | shutdown =>
      obtain ⟨_, -, he⟩ := (w.shown #[]).shutDown_eq
      rw [he]
      exact Array.size_map
    | _ => rfl

theorem givenUp?_eq_some_iff {r : Report} {i : Nat} :
    s.givenUp? r = some i ↔ s = .dropHandle i ∧ r.result = .flag true := by
  unfold Step.givenUp?
  split
  · simp [*]
  · rename_i h
    exact ⟨nofun, fun ⟨e, e'⟩ => (h _ e e').elim⟩

theorem givenUp?_step {i : Nat} : s.givenUp? (w.step s).2 = some i ↔ w.GivesUp s i := by
  rw [givenUp?_eq_some_iff, GivesUp]
  refine and_congr_right fun hs => ?_
  subst hs
  have flag : (w.step (.dropHandle i)).2.result = .flag (w.owes i) := by
    rw [show (w.step (.dropHandle i)).2.result = ((w.shown #[]).act (.dropHandle i)).2 from rfl,
      act, dropHandle_eq, show (w.shown #[]).owes i = w.owes i from rfl]
    cases w.owes i <;> rfl
  rw [flag, StepResult.flag.injEq]

theorem running_acted (w : World) (s : Step) :
    (w.acted s).running = true ↔ w.running = true ∧ s ≠ .shutdown := by
  by_cases hs : s = .shutdown
  · subst hs
    obtain ⟨_, -, he⟩ := (w.shown #[]).shutDown_eq
    rw [show w.acted .shutdown = (w.shown #[]).shutDown from rfl, he]
    simp
  · simp only [ne_eq, hs, not_false_eq_true, and_true]
    have change := change_acted w s
    generalize w.acted s = w' at change
    cases change with
    | issue =>
      obtain ⟨_, _, he⟩ := issueAll_eq (w.shown #[]) _ _ _ _
      rw [he]
      rfl
    | shutdown => exact absurd rfl hs
    | _ => rfl

theorem Orderly.running_turn {task : Task} (o : w.Orderly) (hr : w.ready.head? = some task) :
    (w.taken.turn task).running = w.running := by
  cases task with
  | sweeper j =>
    rw [World.turn]
    rcases w.taken.sweeperTurn_cases j with e | ⟨s, -, _, _, -, _, _, _, _, _, -, e⟩
    · rw [e]
      rfl
    · rw [e]
      rfl
  | admission i =>
    obtain ⟨a, -, turn⟩ := o.admissionTurn_cases hr
    rw [World.turn]
    generalize w.taken.admissionTurn i = w' at turn
    cases turn with
    | joins | ends => rfl
    | @works cell _ lines =>
      obtain ⟨_, _, _, _, _, _, e⟩ := pass_frame (w.begun lines) i a (a.passage cell w.clock)
      rw [e]
      rfl

theorem running_step (o : w.Orderly) (s : Step) :
    (w.step s).1.running = true ↔ w.running = true ∧ s ≠ .shutdown := by
  rw [← running_acted]
  have c := w.course_settling s
  have same {v w : World} {h : List Moment} (o : v.Orderly)
      (c : Course (fun _ _ => False) v h w) : w.running = v.running := by
    induction c with
    | start => rfl
    | act _ h => exact h.elim
    | turn c hr ih => exact ((c.orderly o).running_turn (by rw [hr]; rfl)).trans ih
  rw [same (o.acted s) c]

/-! ### Sessions -/

/-- What the reports of a session tell of the requests in its last world. -/
structure Ledger (steps : List Step) (reports : List Report) (w : World) : Prop where
  nodup : (resolved reports).Nodup
  resolved_iff : ∀ i, i ∈ resolved reports ↔ w.Done i ∧ w.isAwaited i
  issued_iff : ∀ i, i ∈ issued reports ↔ i < w.admissions.size
  givenUp_iff : ∀ i, i ∈ givenUp steps reports ↔ i < w.admissions.size ∧ ¬ w.isAwaited i
  running_iff : w.running ↔ .shutdown ∉ steps
  ended : ¬ w.running → ∀ i < w.admissions.size, w.Done i

theorem ledger_starting (wall : Int) : Ledger [] [] (starting wall) where
  nodup := .nil
  resolved_iff i := by simp [resolved, Done, phase?, starting]
  issued_iff i := by simp [issued, starting]
  givenUp_iff i := by simp [givenUp, starting]
  running_iff := by simp [starting]
  ended h := by simp [starting] at h

theorem GivesUp.lt_size {i : Nat} (h : w.GivesUp s i) : i < w.admissions.size := by
  have h := h.2
  rw [owes, Bool.and_eq_true] at h
  exact lt_size_of_isAwaited h.1

/-- Nobody gives up on a request that is answered. -/
theorem Done.not_givesUp {i : Nat} (hi : w.Done i) : ¬ w.GivesUp s i := by
  rintro ⟨_, h⟩
  simp [owes, show w.phase? i = some .finished from hi] at h

/-- The turns of a step add no requests. -/
theorem Orderly.size_step (o : w.Orderly) (s : Step) :
    (w.step s).1.admissions.size = (w.acted s).admissions.size :=
  (Answered.course (o.acted s) (w.course_settling s)).size

/-- The answer is awaited of those who are issued, until it is given up on. -/
theorem Orderly.isAwaited_step (o : w.Orderly) (s : Step) (i : Nat) :
    (w.step s).1.isAwaited i ↔ (w.isAwaited i ∧ ¬ w.GivesUp s i) ∨
      (w.admissions.size ≤ i ∧ i < (w.step s).1.admissions.size) := by
  rw [(Answered.course (o.acted s) (w.course_settling s)).isAwaited, isAwaited_acted, o.size_step]

/-- The answers received are those to requests that come to their ends. -/
theorem Orderly.mem_received_step (o : w.Orderly) (s : Step) (i : Nat) :
    i ∈ (w.step s).1.received.map Prod.fst ↔
      ((w.step s).1.Done i ∧ ¬ w.Done i) ∧ (w.step s).1.isAwaited i := by
  rw [← (o.stepAnswers s).mem_iff]
  simp only [List.mem_map, mem_received]
  constructor
  · rintro ⟨x, ⟨hx, awaited⟩, rfl⟩
    exact ⟨⟨x, hx, rfl⟩, awaited⟩
  · rintro ⟨⟨x, hx, rfl⟩, awaited⟩
    exact ⟨x, ⟨hx, awaited⟩, rfl⟩

/-- The requests that a step issues are those that there are more after it. -/
theorem Orderly.mem_issued_step (o : w.Orderly) (s : Step) (i : Nat) :
    i ∈ (w.step s).2.result.issued ↔
      w.admissions.size ≤ i ∧ i < (w.step s).1.admissions.size := by
  obtain ⟨n, issued, size, -⟩ := issued_step w s
  rw [o.size_step, size, issued]
  simp only [List.mem_map, List.mem_range]
  constructor
  · rintro ⟨j, hj, rfl⟩
    omega
  · rintro ⟨first, last⟩
    exact ⟨i - w.admissions.size, by omega, by omega⟩

theorem mem_givenUp_concat {steps : List Step} {reports : List Report}
    (length : steps.length = reports.length) (i : Nat) :
    i ∈ givenUp (steps ++ [s]) (reports ++ [(w.step s).2]) ↔
      i ∈ givenUp steps reports ∨ w.GivesUp s i := by
  rw [givenUp, List.zip_append length, List.filterMap_append, List.mem_append, ← givenUp,
    ← givenUp?_step]
  simp

/-- Every step keeps the account. -/
theorem Ledger.step {steps : List Step} {reports : List Report} (k : Ledger steps reports w)
    (o : w.Orderly) (length : steps.length = reports.length) (s : Step) :
    Ledger (steps ++ [s]) (reports ++ [(w.step s).2]) (w.step s).1 := by
  have answers := o.stepAnswers s
  have awaited := o.isAwaited_step s
  have received := o.mem_received_step s
  have size : w.admissions.size ≤ (w.step s).1.admissions.size := by
    rw [o.size_step]
    exact (evolves_acted w s).size_le
  have outcomes : resolved (reports ++ [(w.step s).2]) =
      resolved reports ++ ((w.step s).1.received.map Prod.fst) := by
    simp only [resolved, List.flatMap_append, List.flatMap_singleton, List.map_append]
    rfl
  constructor
  case nodup =>
    rw [outcomes]
    refine k.nodup.append (nodup_received answers.nodup) fun i hi hi' => ?_
    exact ((received i).1 hi').1.2 ((k.resolved_iff i).1 hi).1
  case resolved_iff =>
    intro i
    rw [outcomes, List.mem_append, k.resolved_iff, received, awaited]
    by_cases hi : w.Done i
    · have := hi.lt_size
      have fresh : ¬ (w.admissions.size ≤ i ∧ i < (w.step s).1.admissions.size) := by omega
      simp [hi, answers.done i hi, hi.not_givesUp, fresh]
    · simp [hi]
  case issued_iff =>
    intro i
    have issued : i ∈ issued (reports ++ [(w.step s).2]) ↔
        i ∈ issued reports ∨ i ∈ (w.step s).2.result.issued := by simp [issued]
    rw [issued, k.issued_iff, o.mem_issued_step]
    omega
  case givenUp_iff =>
    intro i
    rw [mem_givenUp_concat length, k.givenUp_iff, awaited]
    by_cases hi : w.GivesUp s i
    · have there := hi.lt_size
      simp [hi, there]
      omega
    · simp only [hi, or_false, not_false_eq_true, and_true]
      by_cases ha : w.isAwaited i
      · simp [ha]
      · simp only [ha, Bool.false_eq_true, false_or, not_false_eq_true, and_true]
        omega
  case running_iff =>
    rw [running_step o, k.running_iff]
    simp [eq_comm]
  case ended =>
    intro stopped i hi
    rw [running_step o, not_and_or, not_not] at stopped
    rcases stopped with stopped | rfl
    · obtain ⟨n, -, size, running⟩ := issued_step w s
      have zero : n = 0 := Decidable.byContradiction fun h => stopped (running h)
      rw [o.size_step] at hi
      exact answers.done i (k.ended stopped i (by omega))
    · rw [done_shutdown]
      obtain ⟨_, -, he⟩ := (w.shown #[]).shutDown_eq
      rw [step_shutdown, he, Array.size_map] at hi
      exact hi

theorem ledger (wall : Int) (steps : List Step) :
    Ledger steps (session wall steps) ((starting wall).final steps) := by
  induction steps using List.reverseRecOn with
  | nil => exact ledger_starting wall
  | append_singleton before s ih =>
    have o := (course_history ((starting wall).along_true before)).orderly (orderly_starting wall)
    rw [session, run_concat, final_concat]
    exact ih.step o (length_run ..).symm s

end World

/-! ### Faults -/

open World

namespace Moment

variable {m : Moment}

/-- The faults shown in a turn. -/
def faults (m : Moment) : List Fault :=
  m.after.trace.faults.toList.drop m.world.trace.faults.size

/-- A turn that serves a request shows the fault that its passage ends by. -/
theorem Serving.faults {i : Nat} {a : Admission} {cell : CacheCell} (s : m.Serving i a cell) :
    m.faults = (a.passage cell m.world.clock).exit.faults := by
  obtain ⟨lines, h⟩ := s.after
  rw [Moment.faults, h, faults_pass, Array.toList_appendList]
  exact List.drop_left

/-- A turn adds to the faults that are shown, a sweeper only that it has no interval. -/
theorem faults_after (o : m.world.Orderly) (hr : m.world.ready.head? = some m.task) :
    m.after.trace.faults.toList = m.world.trace.faults.toList ++ m.faults ∧
      ∀ f ∈ m.faults, (∃ i, m.task = .admission i) ∨ f = .zeroInterval := by
  have shows (fs : List Fault)
      (h : m.after.trace.faults.toList = m.world.trace.faults.toList ++ fs) : m.faults = fs := by
    simp [Moment.faults, h]
  suffices ∃ fs : List Fault,
      m.after.trace.faults.toList = m.world.trace.faults.toList ++ fs ∧
        ∀ f ∈ fs, (∃ i, m.task = .admission i) ∨ f = .zeroInterval by
    obtain ⟨fs, h, each⟩ := this
    rw [shows fs h]
    exact ⟨h, each⟩
  cases ht : m.task with
  | sweeper j =>
    rw [after_of_sweeper ht]
    rcases faults_sweeperTurn m.world.taken j with e | e
    · exact ⟨[], by rw [e, List.append_nil]; rfl, by simp⟩
    · exact ⟨[.zeroInterval], by rw [e, Array.toList_push]; rfl, by simp⟩
  | admission i =>
    obtain ⟨a, -, turn⟩ := admissionTurn_cases o hr ht
    generalize m.after = w' at turn
    cases turn with
    | joins | ends => exact ⟨[], by rw [List.append_nil]; rfl, by simp⟩
    | works =>
      exact ⟨_, by rw [faults_pass, Array.toList_appendList]; rfl, fun _ _ => .inl ⟨i, rfl⟩⟩

end Moment

/-- What is shown of faults after the turns is what each of them has shown. -/
theorem Course.shows_faults {v w : World} {h : List Moment}
    (c : Course (fun _ _ => False) v h w) (o : v.Orderly) :
    w.trace.faults.toList = v.trace.faults.toList ++ h.flatMap Moment.faults := by
  induction c with
  | start => simp
  | act _ h => exact h.elim
  | turn c hr ih =>
    rw [(Moment.faults_after (c.orderly o) (by rw [hr]; rfl)).1, List.flatMap_append,
      List.flatMap_singleton, ← List.append_assoc, ← ih]

/-- The faults of a step are those of the turns after it. -/
theorem World.faults_step {w : World} (o : w.Orderly) (s : Step) :
    (w.step s).2.faults = (w.acted s).settling.flatMap Moment.faults := by
  have shown := (w.course_settling s).shows_faults (o.acted s)
  rw [(shown_acted w s).2] at shown
  exact shown

/-! ### Grounds of answers -/

/-- Why a request is answered as it is in a step of a session. -/
inductive Grounds (wall : Int) (before : List Step) (s : Step) (i : Nat) : Outcome → Prop
  /-- So it was decided. -/
  | concluded {o : Outcome} :
      Moment.Concluded ((starting wall).history (before ++ [s])) i o → o ≠ .error .aborted →
      Grounds wall before s i o
  /-- Its task ended by a fault after this step. -/
  | failed {m : Moment} {a : Admission} {cell : CacheCell} {fault : Fault} :
      m ∈ (((starting wall).final before).acted s).settling → m.Serving i a cell →
      (a.passage cell m.world.clock).exit = .failed fault →
      fault ∈ (((starting wall).final before).step s).2.faults →
      Grounds wall before s i (.error .aborted)
  /-- The step ended all tasks before it had an answer. -/
  | shutdown :
      s = .shutdown → ((starting wall).final before).Pending i →
      Grounds wall before s i (.error .aborted)

theorem Moment.Concluded.ne_aborted {h : List Moment} {i : Nat} {o : Outcome}
    (k : Concluded h i o) : o ≠ .error .aborted := by
  obtain ⟨_, -, _, _, d, -, -, -, rfl⟩ := k
  exact d.outcome_ne_aborted

/-- No answer is made up. -/
theorem World.grounds (wall : Int) (before : List Step) (s : Step) {i : Nat} {o : Outcome}
    (hx : (i, o) ∈ (((starting wall).final before).step s).2.outcomes) :
    Grounds wall before s i o := by
  have start := orderly_starting wall
  have course := course_history ((starting wall).along_true (before ++ [s]))
  have orderly := (course_history ((starting wall).along_true before)).orderly start
  rw [final_concat, history_concat] at course
  generalize hw : (starting wall).final before = w at hx course orderly
  have given := (mem_outcomes.1 hx).1
  by_cases hs : s = .shutdown
  · subst hs
    obtain ⟨pending, e⟩ := mem_answers_shutdown.1 given
    rw [show o = _ from e]
    exact .shutdown rfl (by rwa [hw])
  · have turns := w.course_settling s
    rw [(Answered.course (orderly.acted s) turns).answers, answers_acted hs, Array.toList_empty,
      List.nil_append] at given
    obtain ⟨m, hm, hx⟩ := List.mem_flatMap.1 given
    have concluded {h : List Moment}
        (e : ∃ h', (starting wall).history before ++ (w.acted s).settling = h ++ h')
        (k : Moment.Concluded h i o) : Grounds wall before s i o := by
      obtain ⟨h', e⟩ := e
      refine .concluded ?_ k.ne_aborted
      rw [history_concat, hw, e]
      exact k.append h'
    obtain ⟨h₁, h₂, e, c, rest, hr⟩ := course.before (List.mem_append_right _ hm)
    have head : m.world.ready.head? = some m.task := by rw [hr]; rfl
    rcases Moment.serving_or_idle (c.orderly start) head with ⟨j, a, cell, k⟩ | idle
    · rw [k.answers] at hx
      obtain ⟨rfl, he | ⟨fault, he, rfl⟩⟩ := Exit.cases_of_mem_answers hx
      · exact concluded ⟨h₂, by rw [e]; simp⟩ (k.concluded (c.grounded k.admission) he)
      · refine .failed (by rwa [hw]) k he ?_
        rw [hw, faults_step orderly]
        exact List.mem_flatMap.2 ⟨m, hm, by rw [k.faults, he]; exact .head _⟩
    · obtain ⟨delay, -, hp, rfl⟩ := idle.answers _ hx
      exact concluded ⟨m :: h₂, e⟩ (c.concluded_of_waiting hp)

/-! ### Every request is answered once -/

/-- That every request of a session is answered exactly once. -/
structure AnsweredOnce (wall : Int) (steps : List Step) : Prop where
  /-- No request is answered twice. -/
  once : (resolved (session wall steps)).Nodup
  /-- Who is answered was issued. -/
  issued : ∀ i ∈ resolved (session wall steps), i ∈ Turnstile.issued (session wall steps)
  /-- Who is given up on is not answered. -/
  silent : ∀ i ∈ givenUp steps (session wall steps), i ∉ resolved (session wall steps)
  /-- The answers are the outcomes of decisions, but for who is torn down. -/
  grounds : ∀ before s after, steps = before ++ s :: after → ∀ i o,
    (i, o) ∈ (((starting wall).final before).step s).2.outcomes → Grounds wall before s i o
  /-- There is one decision on a request. -/
  decided_once : ((starting wall).history steps).Pairwise fun m n =>
    ∀ i o, m.decision? = some (i, o) → ¬ n.Serves i
  /-- A shutdown answers whoever has no answer yet and is not given up on. -/
  shutdown : ∀ before after, steps = before ++ .shutdown :: after →
    ∀ i ∈ Turnstile.issued (session wall before), i ∉ resolved (session wall before) →
      i ∉ givenUp before (session wall before) →
        (i, .error .aborted) ∈ (((starting wall).final before).step .shutdown).2.outcomes
  /-- After a shutdown nobody is without an answer, unless given up on. -/
  complete : .shutdown ∈ steps → ∀ i ∈ Turnstile.issued (session wall steps),
    i ∈ resolved (session wall steps) ∨ i ∈ givenUp steps (session wall steps)

namespace World

/-- In every session every request is answered exactly once. -/
theorem answered_once (wall : Int) (steps : List Step) : AnsweredOnce wall steps := by
  have start := orderly_starting wall
  have last := ledger wall steps
  constructor
  case once => exact last.nodup
  case issued =>
    intro i hi
    exact (last.issued_iff i).2 ((last.resolved_iff i).1 hi).1.lt_size
  case silent =>
    intro i hi hi'
    exact ((last.givenUp_iff i).1 hi).2 ((last.resolved_iff i).1 hi').2
  case grounds => exact fun before s after _ i o hx => grounds wall before s hx
  case decided_once => exact (course_history ((starting wall).along_true steps)).decided_once start
  case shutdown =>
    intro before after _ i issued unresolved kept
    have k := ledger wall before
    have there := (k.issued_iff i).1 issued
    have awaited : ((starting wall).final before).isAwaited i :=
      Decidable.byContradiction fun h => kept ((k.givenUp_iff i).2 ⟨there, h⟩)
    have undone : ¬ ((starting wall).final before).Done i :=
      fun h => unresolved ((k.resolved_iff i).2 ⟨h, awaited⟩)
    refine mem_outcomes.2 ⟨?_, ?_⟩
    · exact mem_answers_shutdown.2 ⟨⟨there, undone⟩, rfl⟩
    · have acted := isAwaited_acted ((starting wall).final before) .shutdown i
      rw [step_shutdown]
      exact acted.2 (.inl ⟨awaited, fun h => nomatch h.1⟩)
  case complete =>
    intro stopped i issued
    have there := (last.issued_iff i).1 issued
    have done := last.ended (fun h => last.running_iff.1 h stopped) i there
    by_cases awaited : ((starting wall).final steps).isAwaited i
    · exact .inl ((last.resolved_iff i).2 ⟨done, awaited⟩)
    · exact .inr ((last.givenUp_iff i).2 ⟨there, awaited⟩)

end World

end Turnstile
