import Mathlib.Data.List.Nodup
import Turnstile.Proofs.Session.Conclusion

/-!
# Answers

A request is answered at its end, and only then. An answer is reported if somebody
still waits for it.

* `Moment.answering`: a turn answers the request whose turn it is, if that ends in
  it, and no other;
* `Answered.course`: so the turns after a step answer those requests, once each, that
  end in them;
* `Orderly.stepAnswers`: a step answers whom its turns do, or, if it is a shutdown,
  all that have no answer yet;
* `isAwaited_acted`: somebody waits for an answer from the issue of the request on,
  unless its handle is dropped before the answer.
-/

namespace Turnstile

namespace World

/-! ### Who is answered -/

/-- That a request has been issued and is answered. -/
def Done (w : World) (i : Nat) : Prop := w.phase? i = some .finished

/-- That a request has been issued and is not answered. -/
def Pending (w : World) (i : Nat) : Prop := i < w.admissions.size ∧ ¬ w.Done i

variable {w w' : World} {i : Nat}

theorem phase?_of_modify {p : Phase} {a : Admission} (hi : w.admissions[i]? = some a)
    (h : w'.admissions = w.admissions.modify i fun b => { b with phase := p }) (j : Nat) :
    w'.phase? j = if i = j then some p else w.phase? j := by
  rw [phase?, h, Array.getElem?_modify]
  split
  · subst j
    rw [hi]
    rfl
  · rfl

theorem isAwaited_of_modify {p : Phase}
    (h : w'.admissions = w.admissions.modify i fun b => { b with phase := p }) (j : Nat) :
    w'.isAwaited j = w.isAwaited j := by
  rw [isAwaited, h, Array.getElem?_modify]
  split
  · cases hj : w.admissions[j]? <;> simp [isAwaited, hj]
  · rfl

theorem Done.lt_size (h : w.Done i) : i < w.admissions.size := by
  obtain ⟨a, ha, -⟩ := phase?_eq_some_iff.1 h
  exact (Array.getElem?_eq_some_iff.1 ha).1

theorem lt_size_of_isAwaited (h : w.isAwaited i) : i < w.admissions.size := by
  refine Nat.lt_of_not_le fun le => ?_
  simp [isAwaited, Array.getElem?_eq_none le] at h

/-- What is received are the answers that somebody waits for. -/
theorem mem_received {x : Nat × Outcome} :
    x ∈ w.received ↔ x ∈ w.trace.answers.toList ∧ w.isAwaited x.1 := by
  simp [received, List.mem_mergeSort]

theorem nodup_received (h : (w.trace.answers.toList.map Prod.fst).Nodup) :
    (w.received.map Prod.fst).Nodup := by
  have perm := (List.mergeSort_perm (w.trace.answers.toList.filter fun x => w.isAwaited x.1)
    fun a b => decide (a.1 ≤ b.1)).map Prod.fst
  exact perm.nodup_iff.2 (h.sublist (List.filter_sublist.map _))

end World

open World

/-! ### Turns -/

/-- Who leaves its critical section without an answer is not at its end. -/
theorem Exit.answers_cases {e : Exit} (i : Nat) (held : ∀ {p}, e = .held p → p.stage = 2) :
    (e.answers i = [] ∧ e.phase ≠ .finished) ∨
      ∃ o, e.answers i = [(i, o)] ∧ e.phase = .finished := by
  cases e with
  | held p =>
    refine .inl ⟨rfl, fun h => ?_⟩
    have two := held rfl
    rw [show p = .finished from h] at two
    cases two
  | failed f => exact .inr ⟨_, rfl, rfl⟩
  | decided o =>
    cases o with
    | error reason => exact .inr ⟨_, rfl, rfl⟩
    | ok delay => by_cases hd : delay = .zero <;> simp [answers, phase, hd]

namespace Moment

/-- Whom a turn answers. -/
inductive Answering (m : Moment) : Prop
  /-- Nobody, when no request ends. -/
  | nobody :
      m.after.trace.answers.toList = m.world.trace.answers.toList →
      (∀ j, m.after.Done j ↔ m.world.Done j) → Answering m
  /-- The one whose turn it is, which ends. -/
  | one {i : Nat} {o : Outcome} :
      m.task = .admission i → m.world.Pending i →
      m.after.trace.answers.toList = m.world.trace.answers.toList ++ [(i, o)] →
      (∀ j, m.after.Done j ↔ m.world.Done j ∨ j = i) → Answering m

variable {m : Moment}

/-- A request goes on to a phase in its turn and is answered just if it is at its end
    then. -/
theorem Answering.of_modify {i : Nat} {a : Admission} {p : Phase} {given : List (Nat × Outcome)}
    (ht : m.task = .admission i) (hi : m.world.admissions[i]? = some a)
    (ha : a.phase ≠ .finished)
    (hw : m.after.admissions = m.world.admissions.modify i fun b => { b with phase := p })
    (hg : m.after.trace.answers.toList = m.world.trace.answers.toList ++ given)
    (cases : (given = [] ∧ p ≠ .finished) ∨ ∃ o, given = [(i, o)] ∧ p = .finished) :
    m.Answering := by
  have phase := phase?_of_modify hi hw
  have before : ¬ m.world.Done i := by
    rw [Done, phase?_eq hi, Option.some.injEq]
    exact ha
  rcases cases with ⟨rfl, hp⟩ | ⟨o, rfl, rfl⟩
  · refine .nobody (by simpa using hg) fun j => ?_
    rw [Done, phase]
    split
    · subst j
      simp [hp, before]
    · rfl
  · refine .one ht ⟨(Array.getElem?_eq_some_iff.1 hi).1, before⟩ hg fun j => ?_
    rw [Done, phase]
    by_cases hj : i = j
    · simp [hj]
    · simp [hj, Ne.symm hj, Done]

/-- A turn answers the request whose turn it is, if that ends in it. -/
theorem answering (o : m.world.Orderly) (hr : m.world.ready.head? = some m.task) :
    m.Answering := by
  cases ht : m.task with
  | sweeper j =>
    have after := after_of_sweeper ht
    rcases m.world.taken.sweeperTurn_cases j with e | ⟨s, -, swept⟩
    · rw [e] at after
      exact .nobody (by rw [after]; rfl) fun j => by rw [after]; rfl
    · rw [← after] at swept
      obtain ⟨ha, -, -, -, -, hw⟩ := swept.same
      exact .nobody (by rw [hw]; rfl) fun j => by rw [Done, phase?, ha]; rfl
  | admission i =>
    obtain ⟨a, hi, turn⟩ := admissionTurn_cases o hr ht
    generalize hw : m.after = w' at turn
    cases turn with
    | joins hp =>
      exact .of_modify ht hi (by simp [hp]) (by rw [hw]; rfl)
        (show _ = _ ++ [] by rw [hw, List.append_nil]; rfl) (.inl ⟨rfl, by simp⟩)
    | @works cell rest lines hc t =>
      have unfinished : a.phase ≠ .finished := fun h => by
        have := t.undecided
        simp [h, Phase.stage] at this
      refine .of_modify ht hi unfinished (by rw [hw]; exact admissions_pass ..)
        (by rw [hw, answers_pass, Array.toList_appendList]; rfl) (Exit.answers_cases i ?_)
      exact fun he => (Admission.passage_held he).stage
    | ends hp =>
      exact .of_modify ht hi (by simp [hp]) (by rw [hw]; rfl)
        (by rw [hw]; simp [finishWait, answer, log, setPhase, taken]; rfl) (.inr ⟨_, rfl, rfl⟩)

/-- A turn leaves it to others who waits for answers. -/
theorem isAwaited_after (o : m.world.Orderly) (hr : m.world.ready.head? = some m.task) (i : Nat) :
    m.after.isAwaited i = m.world.isAwaited i := by
  cases ht : m.task with
  | sweeper j =>
    have after := after_of_sweeper ht
    rcases m.world.taken.sweeperTurn_cases j with e | ⟨s, -, swept⟩
    · rw [after, e]
      rfl
    · rw [← after] at swept
      rw [isAwaited, swept.same.1]
      rfl
  | admission j =>
    obtain ⟨a, hj, turn⟩ := admissionTurn_cases o hr ht
    generalize m.after = w' at turn
    cases turn with
    | joins | ends => exact isAwaited_of_modify rfl i
    | works => exact isAwaited_of_modify (admissions_pass ..) i

/-- What a turn answers comes after what was answered before. -/
theorem answers_after (o : m.world.Orderly) (hr : m.world.ready.head? = some m.task) :
    m.after.trace.answers.toList = m.world.trace.answers.toList ++ m.answers := by
  cases answering o hr with
  | nobody ha => simp [Moment.answers, ha]
  | one _ _ ha => simp [Moment.answers, ha]

/-- Who is answered stays so. -/
theorem done_after (o : m.world.Orderly) (hr : m.world.ready.head? = some m.task) {i : Nat}
    (done : m.world.Done i) : m.after.Done i := by
  cases answering o hr with
  | nobody _ same => exact (same i).2 done
  | one _ _ _ same => exact (same i).2 (.inl done)

/-- A turn issues no requests. -/
theorem size_after (o : m.world.Orderly) (hr : m.world.ready.head? = some m.task) :
    m.after.admissions.size = m.world.admissions.size := by
  refine Nat.le_antisymm (Nat.le_of_not_lt fun lt => ?_) (o.evolves_turn hr).size_le
  obtain ⟨a, ha, -⟩ := admission_before o hr (Array.getElem?_eq_getElem lt)
  exact Nat.lt_irrefl _ (Array.getElem?_eq_some_iff.1 ha).1

end Moment

/-- What the turns of a history answer. -/
def Moment.given (h : List Moment) : List (Nat × Outcome) := h.flatMap Moment.answers

/-- That the turns from a world to another answer those requests that end in them, once
    each. -/
structure Answered (v : World) (h : List Moment) (w : World) : Prop where
  answers : w.trace.answers.toList = v.trace.answers.toList ++ Moment.given h
  nodup : ((Moment.given h).map Prod.fst).Nodup
  mem_iff : ∀ i, i ∈ (Moment.given h).map Prod.fst ↔ w.Done i ∧ ¬ v.Done i
  done : ∀ i, v.Done i → w.Done i
  isAwaited : ∀ i, w.isAwaited i = v.isAwaited i
  size : w.admissions.size = v.admissions.size

/-- One turn more answers at most one request more. -/
theorem Answered.turn {v : World} {h : List Moment} {m : Moment} (k : Answered v h m.world)
    (o : m.world.Orderly) (hr : m.world.ready.head? = some m.task) :
    Answered v (h ++ [m]) m.after := by
  have given : Moment.given (h ++ [m]) = Moment.given h ++ m.answers := by simp [Moment.given]
  have answers : m.after.trace.answers.toList =
      v.trace.answers.toList ++ Moment.given (h ++ [m]) := by
    rw [Moment.answers_after o hr, k.answers, given, List.append_assoc]
  have awaited (i : Nat) : m.after.isAwaited i = v.isAwaited i :=
    (Moment.isAwaited_after o hr i).trans (k.isAwaited i)
  have size : m.after.admissions.size = v.admissions.size :=
    (Moment.size_after o hr).trans k.size
  cases Moment.answering o hr with
  | nobody ha hd =>
    have none : m.answers = [] := by simp [Moment.answers, ha]
    rw [none, List.append_nil] at given
    refine ⟨answers, by rw [given]; exact k.nodup, fun i => ?_, fun i hi => ?_, awaited, size⟩
    · rw [given, k.mem_iff, hd]
    · exact (hd i).2 (k.done i hi)
  | @one i out _ hp ha hd =>
    have one : m.answers = [(i, out)] := by simp [Moment.answers, ha]
    rw [one] at given
    -- Who is answered now was not answered before.
    have fresh : i ∉ (Moment.given h).map Prod.fst := fun hi => hp.2 ((k.mem_iff i).1 hi).1
    refine ⟨answers, ?_, fun j => ?_, fun j hj => (hd j).2 (.inl (k.done j hj)), awaited, size⟩
    · rw [given, List.map_append]
      exact k.nodup.append (List.nodup_singleton _) (by simpa using fresh)
    · have old : ¬ v.Done i := fun h => hp.2 (k.done i h)
      rw [given, List.map_append, List.mem_append, k.mem_iff, hd]
      by_cases hj : j = i
      · subst hj
        simp [old]
      · simp [hj]

/-- The turns of a settling answer the requests that end in them. -/
theorem Answered.course {v w : World} {h : List Moment} (o : v.Orderly)
    (c : Course (fun _ _ => False) v h w) : Answered v h w := by
  induction c with
  | start => exact ⟨by simp [Moment.given], .nil, by simp [Moment.given], fun _ h => h,
      fun _ => rfl, rfl⟩
  | act _ h => exact h.elim
  | turn c hr ih => exact ih.turn (c.orderly o) (by rw [hr]; rfl)

/-! ### Steps -/

namespace World

variable {w : World} {s : Step}

/-- A step answers nothing by itself, unless it is a shutdown. -/
theorem answers_acted (hs : s ≠ .shutdown) : (w.acted s).trace.answers = #[] := by
  have change := change_acted w s
  generalize w.acted s = w' at change
  cases change with
  | aside | cache | limiter | drop | advance | setWall | store | sweeper | stop | gate => rfl
  | issue =>
    obtain ⟨_, _, he⟩ := issueAll_eq (w.shown #[]) _ _ _ _
    rw [he]
    rfl
  | shutdown => exact absurd rfl hs

/-- A step lets no request go on, unless it is a shutdown. -/
theorem done_acted (hs : s ≠ .shutdown) (i : Nat) : (w.acted s).Done i ↔ w.Done i := by
  constructor
  · intro h
    obtain ⟨b, hb, hp⟩ := phase?_eq_some_iff.1 h
    rcases admission_acted hb with ⟨a, ha, -, hab | ⟨e, -⟩⟩ | ⟨-, _, _, _, _, _, -, -, -, rfl⟩
    · exact phase?_eq_some_iff.2 ⟨a, ha, hab.symm.trans hp⟩
    · exact absurd e hs
    · cases hp
  · intro h
    obtain ⟨a, ha, hp⟩ := phase?_eq_some_iff.1 h
    obtain ⟨b, hb, -⟩ := (evolves_acted w s).becomes ha
    rcases admission_acted hb with ⟨a', ha', -, hab | ⟨e, -⟩⟩ | ⟨none, -⟩
    · obtain rfl : a = a' := Option.some.inj (ha.symm.trans ha')
      exact phase?_eq_some_iff.2 ⟨b, hb, hab.trans hp⟩
    · exact absurd e hs
    · rw [ha] at none
      cases none

/-- The numbers of the requests that are abandoned, when all below a number are. -/
theorem answers_abandonAll (w : World) {n : Nat} (hn : n ≤ w.admissions.size) :
    ((List.range n).foldl abandon w).trace.answers.toList = w.trace.answers.toList ++
      ((List.range n).filter fun i => w.phase? i ≠ some .finished).map
        fun i => (i, .error .aborted) := by
  induction n with
  | zero => simp
  | succ n ih =>
    -- The admission in turn is as it was at first.
    obtain ⟨as, answers, ha, -, he⟩ := w.abandonAll_eq (n := n) (by omega)
    have there : as[n]? = some w.admissions[n] := by simp [ha]
    have phase : w.phase? n = some w.admissions[n].phase :=
      phase?_eq (Array.getElem?_eq_getElem (by omega))
    have before := ih (by omega)
    rw [he] at before
    rw [List.range_succ, List.foldl_append, he, List.foldl_cons, List.foldl_nil, abandon]
    simp only [there, Option.map_some, Option.getD_some, Admission.isFinished, List.filter_append,
      List.map_append, ← List.append_assoc]
    rw [← before]
    by_cases hp : w.admissions[n].phase = .finished <;> simp [hp, phase, answer, setPhase]

/-- After a shutdown no task has a turn. -/
theorem step_shutdown (w : World) : (w.step .shutdown).1 = (w.shown #[]).shutDown := by
  obtain ⟨_, -, he⟩ := (w.shown #[]).shutDown_eq
  have ready : (w.shown #[]).shutDown.ready = [] := by rw [he]
  exact takeTurns_of_ready_nil ready _

/-- A shutdown aborts whoever has no answer yet. -/
theorem answers_shutdown (w : World) : (w.step .shutdown).1.trace.answers.toList =
    ((List.range w.admissions.size).filter fun i => w.phase? i ≠ some .finished).map
      fun i => (i, .error .aborted) := by
  rw [step_shutdown]
  exact (w.shown #[]).answers_abandonAll (Nat.le_refl _)

theorem mem_answers_shutdown {x : Nat × Outcome} :
    x ∈ (w.step .shutdown).1.trace.answers.toList ↔ w.Pending x.1 ∧ x.2 = .error .aborted := by
  obtain ⟨i, o⟩ := x
  simp only [answers_shutdown, List.mem_map, List.mem_filter, List.mem_range, decide_eq_true_eq,
    Prod.mk.injEq]
  constructor
  · rintro ⟨j, hj, rfl, rfl⟩
    exact ⟨hj, rfl⟩
  · rintro ⟨pending, rfl⟩
    exact ⟨i, pending, rfl, rfl⟩

theorem done_shutdown (w : World) (i : Nat) :
    (w.step .shutdown).1.Done i ↔ i < w.admissions.size := by
  obtain ⟨_, -, he⟩ := (w.shown #[]).shutDown_eq
  rw [step_shutdown, Done, phase?, he, Array.getElem?_map]
  refine ⟨fun h => ?_, fun h => ?_⟩
  · refine Nat.lt_of_not_le fun le => ?_
    simp [shown, Array.getElem?_eq_none le] at h
  · simp [shown, Array.getElem?_eq_getElem h, Admission.ended]

/-- A report has the answers that somebody waits for. -/
theorem mem_outcomes {x : Nat × Outcome} : x ∈ (w.step s).2.outcomes ↔
    x ∈ (w.step s).1.trace.answers.toList ∧ (w.step s).1.isAwaited x.1 := mem_received

/-- That a step answers those requests that end in it, once each. -/
structure StepAnswers (w : World) (s : Step) : Prop where
  nodup : ((w.step s).1.trace.answers.toList.map Prod.fst).Nodup
  mem_iff : ∀ i, i ∈ (w.step s).1.trace.answers.toList.map Prod.fst ↔
    (w.step s).1.Done i ∧ ¬ w.Done i
  done : ∀ i, w.Done i → (w.step s).1.Done i

/-- The turns after a step. -/
theorem course_settling (w : World) (s : Step) :
    Course (fun _ _ => False) (w.acted s) (w.acted s).settling (w.step s).1 := .of_turns ..

theorem Orderly.stepAnswers (o : w.Orderly) (s : Step) : w.StepAnswers s := by
  by_cases hs : s = .shutdown
  · subst hs
    refine ⟨?_, fun i => ?_, fun i hi => (done_shutdown w i).2 hi.lt_size⟩
    · rw [answers_shutdown, List.map_map]
      exact (List.map_id _).symm ▸ List.nodup_range.filter _
    · simp only [List.mem_map, mem_answers_shutdown, done_shutdown]
      exact ⟨fun ⟨x, hx, e⟩ => e ▸ hx.1, fun h => ⟨(i, _), ⟨h, rfl⟩, rfl⟩⟩
  · have k := Answered.course (o.acted s) (w.course_settling s)
    have answers := k.answers
    rw [answers_acted hs, Array.toList_empty, List.nil_append] at answers
    refine ⟨?_, fun i => ?_, fun i hi => ?_⟩
    · rw [answers]
      exact k.nodup
    · rw [answers, k.mem_iff, done_acted hs]
    · exact k.done i ((done_acted hs i).2 hi)

/-! ### Who waits for answers -/

/-- Whether somebody waits for an answer that is still to come. -/
def owes (w : World) (i : Nat) : Bool := w.isAwaited i && w.phase? i != some .finished

/-- That a step gives up on the answer to a request. -/
def GivesUp (w : World) (s : Step) (i : Nat) : Prop := s = .dropHandle i ∧ w.owes i

/-- To drop a handle gives up on an answer that is still to come, if somebody waits for
    it. -/
theorem dropHandle_eq (w : World) (i : Nat) : w.dropHandle i =
    if w.owes i then
      ({ w with admissions := w.admissions.modify i fun a => { a with awaited := false } }, true)
    else (w, false) := by
  unfold dropHandle owes isAwaited phase?
  cases w.admissions[i]? with
  | none => rfl
  | some a =>
    have finished : (some a.phase != some .finished) = !a.isFinished := by
      simp [Admission.isFinished, bne, Bool.beq_eq_decide_eq]
    simp only [Option.map_some, Option.getD_some, finished]

theorem isAwaited_dropHandle (w : World) (i j : Nat) :
    (w.dropHandle i).1.isAwaited j ↔ w.isAwaited j ∧ ¬ (w.owes i ∧ j = i) := by
  rw [dropHandle_eq]
  split
  · simp only [isAwaited, Array.getElem?_modify, true_and, *]
    by_cases hj : i = j
    · subst hj
      cases w.admissions[i]? <;> simp
    · simp [hj, Ne.symm hj]
  · simp [*]

theorem isAwaited_issue (w : World) (l : Nat) (cell : LimiterCell) (identifier : String)
    (i : Nat) : (w.issue l cell identifier).isAwaited i ↔
      w.isAwaited i ∨ i = w.admissions.size := by
  rw [isAwaited, getElem?_issue]
  split
  · simp [request, *]
  · simp [isAwaited, *]

theorem size_issueAll (w : World) (l : Nat) (cell : LimiterCell) (identifier : String) (n : Nat) :
    (w.issueAll l cell identifier n).admissions.size = w.admissions.size + n := by
  induction n generalizing w with
  | zero => rfl
  | succ n ih =>
    rw [issueAll, ih, issue, enqueue, Array.size_push]
    omega

theorem isAwaited_issueAll (w : World) (l : Nat) (cell : LimiterCell) (identifier : String)
    (n i : Nat) : (w.issueAll l cell identifier n).isAwaited i ↔
      w.isAwaited i ∨ (w.admissions.size ≤ i ∧ i < w.admissions.size + n) := by
  induction n generalizing w with
  | zero =>
    have none : ¬ (w.admissions.size ≤ i ∧ i < w.admissions.size + 0) := by omega
    simp only [issueAll, none, or_false]
  | succ n ih =>
    have size : (w.issue l cell identifier).admissions.size = w.admissions.size + 1 := by
      simp [issue, enqueue]
    rw [issueAll, ih, isAwaited_issue, size, or_assoc]
    refine or_congr_right ?_
    omega

/-- Somebody waits for whom somebody waited, unless the step gives up on it, and for
    new requests. -/
theorem isAwaited_acted (w : World) (s : Step) (i : Nat) : (w.acted s).isAwaited i ↔
    (w.isAwaited i ∧ ¬ w.GivesUp s i) ∨
      (w.admissions.size ≤ i ∧ i < (w.acted s).admissions.size) := by
  by_cases drop : ∃ j, s = .dropHandle j
  · obtain ⟨j, rfl⟩ := drop
    have e : w.acted (.dropHandle j) = ((w.shown #[]).dropHandle j).1 := rfl
    have size : (w.acted (.dropHandle j)).admissions.size = w.admissions.size := by
      rw [e, dropHandle_eq]
      split
      · exact Array.size_modify
      · rfl
    have gives : w.GivesUp (.dropHandle j) i ↔ (w.shown #[]).owes j ∧ i = j := by
      rw [GivesUp, Step.dropHandle.injEq, eq_comm, and_comm]
      exact and_congr_left fun h => by rw [h]; rfl
    have none : ¬ (w.admissions.size ≤ i ∧ i < w.admissions.size) := by omega
    rw [size, e, isAwaited_dropHandle, gives]
    simp only [none, or_false]
    rfl
  · have hs : ¬ w.GivesUp s i := fun h => drop ⟨i, h.1⟩
    have known {v : World} (h : v.admissions = w.admissions) : v.isAwaited i ↔
        w.isAwaited i ∨ (w.admissions.size ≤ i ∧ i < v.admissions.size) := by
      rw [isAwaited, h]
      exact ⟨.inl, fun h => h.resolve_right fun h => by omega⟩
    simp only [hs, not_false_eq_true, and_true]
    have change := change_acted w s
    generalize w.acted s = w' at change
    cases change with
    | aside | cache | limiter | advance | setWall | store | sweeper | stop | gate =>
      exact known rfl
    | drop => exact absurd ⟨_, rfl⟩ drop
    | issue =>
      rw [isAwaited_issueAll, size_issueAll]
      rfl
    | shutdown =>
      obtain ⟨_, -, he⟩ := (w.shown #[]).shutDown_eq
      have none : ¬ (w.admissions.size ≤ i ∧ i < w.admissions.size) := by omega
      rw [he]
      simp only [isAwaited, Array.getElem?_map, Option.map_map, Array.size_map, shown, none,
        or_false]
      rfl

end World

end Turnstile
