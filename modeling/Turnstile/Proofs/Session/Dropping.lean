import Turnstile.Proofs.Session.Alike
import Turnstile.Proofs.Session.Answers
import Turnstile.Proofs.Session.Veil

/-!
# Dropped handles

To drop a handle is to give up on the answer to a request, and no more: the request goes
on as if somebody waited for it. So drops may be put into a session anywhere. Nothing
else that is reported changes, except that no answers are received under the handles
dropped, and that a later step that drops one of them again finds it dropped.

A session that drops are put into is a list of its steps and of the handles that are
dropped in between (`World.withDrops`, `World.withoutDrops`). The worlds of the two
sessions are `Beside` each other: they are one under the veil over who waits.

* `Beside.step`: they stay so by a step, and what is reported of it is the same otherwise;
* `Beside.drop`: they stay so by a drop that is put in, which shows nothing.
-/

namespace Turnstile

/-- The veil over who waits for answers. -/
def Veil.waiting : Veil := { awaited := fun _ => false }

/-- What a step results in when some handles are dropped already. -/
def Step.resultWithout (gone : List Nat) (s : Step) (result : StepResult) : StepResult :=
  match s with
  | .dropHandle i => if i ∈ gone then .flag false else result
  | _ => result

/-- The report on a step when some handles are dropped already. -/
def Report.without (gone : List Nat) (s : Step) (r : Report) : Report :=
  { r with
    result := s.resultWithout gone r.result
    outcomes := r.outcomes.filter fun x => x.1 ∉ gone }

/-- To sort and then to leave some elements out is the same the other way round. -/
theorem filter_mergeSort {α : Type} {le : α → α → Bool} (p : α → Bool)
    (trans : ∀ a b c, le a b → le b c → le a c) (total : ∀ a b, le a b || le b a) (l : List α) :
    (l.mergeSort le).filter p = (l.filter p).mergeSort le := by
  have same {a b x y : α} (ha : Option.guard p a = some x) (hb : Option.guard p b = some y) :
      le a b = le x y := by
    obtain ⟨rfl, -⟩ := Option.guard_eq_some_iff.1 ha
    obtain ⟨rfl, -⟩ := Option.guard_eq_some_iff.1 hb
    rfl
  simpa only [List.filterMap_eq_filter] using filterMap_mergeSort trans total trans total same l

namespace World

/-- The report on a step, with a result, when nothing else happens. -/
def quiet (w : World) (result : StepResult) : Report where
  result
  sizes := w.sizes
  calls := []
  outcomes := []
  notices := []
  faults := []
  sweepersEnded := w.sweepers.toList.map (·.phase == .finished)

/-- A session with the drops that are put into it. -/
def withDrops (steps : List (Step ⊕ Nat)) : List Step := steps.map (Sum.elim id .dropHandle)

/-- A session without the drops that are put into it. -/
def withoutDrops (steps : List (Step ⊕ Nat)) : List Step := steps.filterMap Sum.getLeft?

/-- The handles that the drops put into a session drop: those under which an answer is
    still to come. -/
def goneBy (w : World) : List (Step ⊕ Nat) → List Nat
  | [] => []
  | .inl s :: rest => (w.step s).1.goneBy rest
  | .inr i :: rest => (if w.owes i then [i] else []) ++ (w.step (.dropHandle i)).1.goneBy rest

variable {w v : World} {gone : List Nat}

/-- Under the veil a drop does nothing. -/
theorem dropHandle_waiting (w : World) (i : Nat) :
    (w.dropHandle i).1.under .waiting = w.under .waiting := by
  rw [dropHandle_eq]
  split
  · have same : (w.admissions.modify i fun a => { a with awaited := false }).map
        (·.under .waiting) = w.admissions.map (·.under .waiting) := by
      apply Array.ext_getElem?
      intro j
      simp only [Array.getElem?_map, Array.getElem?_modify]
      split
      · rw [Option.map_map]
        rfl
      · rfl
    simp only [under, same]
  · rfl

/-- A drop finds out whether an answer was still to come. -/
theorem result_dropHandle (w : World) (i : Nat) :
    (w.step (.dropHandle i)).2.result = .flag (w.owes i) := by
  have dropped : ((w.shown #[]).dropHandle i).2 = w.owes i := by
    have owes : (w.shown #[]).owes i = w.owes i := rfl
    rw [dropHandle_eq, owes]
    cases w.owes i <;> rfl
  exact congrArg StepResult.flag dropped

/-- Between two steps no task can go on, so nothing comes of a drop but the drop. -/
theorem Rested.step_dropHandle (r : w.Rested) (i : Nat) :
    (w.step (.dropHandle i)).1 = ((w.shown #[]).dropHandle i).1 := by
  have ready : ((w.shown #[]).dropHandle i).1.ready = [] := by
    rw [dropHandle_eq]
    split <;> exact r.settled
  exact takeTurns_of_ready_nil ready _

/-- That two worlds are the same, but for what was shown before, and that for some handles
    nobody waits in the first one. -/
structure Beside (gone : List Nat) (w v : World) : Prop where
  world : (w.shown #[]).under .waiting = (v.shown #[]).under .waiting
  isAwaited : ∀ i, w.isAwaited i ↔ v.isAwaited i ∧ i ∉ gone
  issued : ∀ i ∈ gone, i < w.admissions.size
  left : w.Rested
  right : v.Rested

namespace Beside

theorem limiters (h : Beside gone w v) : w.limiters = v.limiters := by
  have same (w : World) : ((w.shown #[]).under .waiting).limiters = w.limiters :=
    (Array.map_id _ :)
  rw [← same w, h.world, same]

theorem size (h : Beside gone w v) : w.admissions.size = v.admissions.size := by
  have same (w : World) : ((w.shown #[]).under .waiting).admissions.size = w.admissions.size :=
    size_admissions_under ..
  rw [← same w, h.world, same]

theorem phase? (h : Beside gone w v) (i : Nat) : w.phase? i = v.phase? i := by
  have same (w : World) : ((w.shown #[]).under .waiting).phase? i = w.phase? i := by
    simp only [World.phase?, under, Array.getElem?_map, Option.map_map]
    rfl
  rw [← same w, h.world, same]

theorem owes_eq (h : Beside gone w v) (i : Nat) : w.owes i = (v.owes i && i ∉ gone) := by
  rw [Bool.eq_iff_iff]
  simp only [owes, h.phase?, Bool.and_eq_true, h.isAwaited, decide_eq_true_eq]
  tauto

theorem keyMeant? (h : Beside gone w v) (key : KeyName) : w.keyMeant? key = v.keyMeant? key := by
  have names : w.limiterNames = v.limiterNames := (congrArg World.limiterNames h.world :)
  cases key with
  | literal => rfl
  | ofIdentifier => simp only [World.keyMeant?, limiterNamed?, names, h.limiters]

/-- A step does the same in both worlds, but that it finds a handle dropped that was
    dropped before. -/
theorem under_step (h : Beside gone w v) (s : Step) :
    (w.step s).1.under .waiting = (v.step s).1.under .waiting ∧
      (w.step s).2.result = s.resultWithout gone (v.step s).2.result := by
  have alike {s : Step} (meets : Step.Meets .waiting w v s s) :
      (w.step s).1.under .waiting = (v.step s).1.under .waiting ∧
        (w.step s).2.result = (v.step s).2.result := by
    have plain (r : StepResult) : r.under .waiting = r := by cases r <;> rfl
    simpa only [plain] using step_eq_of_meets h.world meets
  cases s with
  | dropHandle i =>
    have world (w : World) : (w.step (.dropHandle i)).1.under .waiting =
        ((w.shown #[]).under .waiting).settle := by
      rw [← dropHandle_waiting (w.shown #[]) i, ← settle_under]
      rfl
    refine ⟨by rw [world, world, h.world], ?_⟩
    rw [result_dropHandle, result_dropHandle, Step.resultWithout, h.owes_eq]
    by_cases hi : i ∈ gone <;> simp [hi]
  | throttle => exact alike (.throttle fun _ => h.keyMeant? _)
  | put => exact alike (.put (h.keyMeant? _))
  | get => exact alike (.get (h.keyMeant? _))
  | key => exact alike (.key (h.keyMeant? _))
  | _ => exact alike (.plain rfl rfl rfl)

/-- The worlds of two sessions stay beside each other by a step. -/
theorem step (h : Beside gone w v) (s : Step) : Beside gone (w.step s).1 (v.step s).1 := by
  have world := (h.under_step s).1
  have size := (congrArg (·.admissions.size) world :)
  simp only [size_admissions_under] at size
  constructor
  case world => exact shown_under_eq world
  case isAwaited =>
    intro i
    rw [h.left.orderly.isAwaited_step, h.right.orderly.isAwaited_step, h.isAwaited, h.size, size]
    by_cases hi : i ∈ gone
    · have known : ¬ v.admissions.size ≤ i := Nat.not_le.2 (h.size ▸ h.issued i hi)
      simp [hi, known]
    · simp only [GivesUp, h.owes_eq, hi, not_false_eq_true, decide_true, Bool.and_true, and_true]
  case issued =>
    intro i hi
    rw [h.left.orderly.size_step]
    exact Nat.lt_of_lt_of_le (h.issued i hi) (evolves_acted w s).size_le
  case left => exact h.left.step s
  case right => exact h.right.step s

/-- What is reported of a step is the same, but for the handles that are dropped. -/
theorem report (h : Beside gone w v) (s : Step) :
    (w.step s).2 = (v.step s).2.without gone s := by
  obtain ⟨world, result⟩ := h.under_step s
  have next := h.step s
  have received : (w.step s).1.received =
      (v.step s).1.received.filter fun x => x.1 ∉ gone := by
    have answers : (w.step s).1.trace = (v.step s).1.trace := (congrArg World.trace world :)
    have kept : (fun x : Nat × Outcome => (w.step s).1.isAwaited x.1) =
        fun x => decide (x.1 ∉ gone) && (v.step s).1.isAwaited x.1 := by
      funext x
      rw [Bool.eq_iff_iff, next.isAwaited]
      simp [and_comm]
    rw [World.received, World.received, answers, filter_mergeSort, List.filter_filter]
    · exact congrArg (fun p => ((v.step s).1.trace.answers.toList.filter p).mergeSort _) kept
    all_goals
      simp only [decide_eq_true_eq, Bool.or_eq_true]
      omega
  have whole : (w.step s).2 = (w.step s).1.report (s.resultWithout gone (v.step s).2.result) := by
    rw [← result]
    rfl
  rw [whole, report_eq_of_under world, received]
  rfl

/-- The worlds stay beside each other by a drop that is put in, which adds to the handles
    dropped. -/
theorem drop (h : Beside gone w v) (i : Nat) :
    Beside (gone ++ if w.owes i then [i] else []) (w.step (.dropHandle i)).1 v := by
  have mem (j : Nat) : j ∈ (gone ++ if w.owes i then [i] else []) ↔
      j ∈ gone ∨ (w.owes i ∧ j = i) := by
    rw [List.mem_append]
    split <;> simp [*]
  have dropped := h.left.step_dropHandle i
  constructor
  case world =>
    rw [dropped]
    have same := dropHandle_waiting (w.shown #[]) i
    exact (shown_under_eq (same.trans h.world) :)
  case isAwaited =>
    intro j
    rw [dropped, isAwaited_dropHandle, mem, not_or, ← and_assoc]
    exact and_congr_left' (h.isAwaited j)
  case issued =>
    intro j hj
    rw [h.left.orderly.size_step]
    refine Nat.lt_of_lt_of_le ?_ (evolves_acted w _).size_le
    rcases (mem j).1 hj with hj | ⟨owed, rfl⟩
    · exact h.issued j hj
    · exact GivesUp.lt_size (s := .dropHandle j) ⟨rfl, owed⟩
  case left => exact h.left.step _
  case right => exact h.right

/-- A drop that is put in shows nothing. -/
theorem report_drop (h : Beside gone w v) (i : Nat) :
    (w.step (.dropHandle i)).2 = v.quiet (.flag (v.owes i && i ∉ gone)) := by
  have whole : (w.step (.dropHandle i)).2 =
      (w.step (.dropHandle i)).1.report (.flag (w.owes i)) := by
    rw [← result_dropHandle]
    rfl
  have world : ((w.shown #[]).dropHandle i).1.under .waiting = (v.shown #[]).under .waiting :=
    (dropHandle_waiting ..).trans h.world
  have none : ((w.shown #[]).dropHandle i).1.received = [] := by
    have empty : ((w.shown #[]).dropHandle i).1.trace.answers = #[] :=
      (congrArg (fun u : World => u.trace.answers) world :)
    simp [received, empty]
  rw [whole, h.left.step_dropHandle, report_eq_of_under world, none, h.owes_eq]
  simp [World.report, quiet, sizes, shown, Notice.arrange]

end Beside

/-- The worlds that a session comes to with drops put in and without are beside each
    other. -/
theorem Beside.final (h : Beside gone w v) (steps : List (Step ⊕ Nat)) :
    Beside (gone ++ w.goneBy steps) (w.final (withDrops steps)) (v.final (withoutDrops steps)) := by
  induction steps generalizing gone w v with
  | nil =>
    rw [goneBy, List.append_nil]
    exact h
  | cons x rest ih =>
    cases x with
    | inl s => exact ih (h.step s)
    | inr i =>
      have next := ih (h.drop i)
      rw [List.append_assoc] at next
      exact next

/-- Drops that are put into a session cancel nothing. What is reported of each of its steps
    is the same, but for the handles that were dropped before; and of a drop that is put in
    nothing is reported but whether there was an answer to give up on. -/
theorem drops_cancel_nothing (wall : Int) (steps : List (Step ⊕ Nat)) :
    (∀ s, (((starting wall).final (withDrops steps)).step s).2 =
      (((starting wall).final (withoutDrops steps)).step s).2.without
        ((starting wall).goneBy steps) s) ∧
    ∀ i, (((starting wall).final (withDrops steps)).step (.dropHandle i)).2 =
      ((starting wall).final (withoutDrops steps)).quiet
        (.flag (((starting wall).final (withoutDrops steps)).owes i &&
          i ∉ (starting wall).goneBy steps)) := by
  have start : Beside [] (starting wall) (starting wall) :=
    ⟨rfl, by simp, by simp, rested_starting wall, rested_starting wall⟩
  have beside := start.final steps
  rw [List.nil_append] at beside
  exact ⟨beside.report, beside.report_drop⟩

/-- A session in which a request is held, and its handle dropped. -/
def heldAndDropped : List (Step ⊕ Nat) :=
  [.inl (.cache "c"), .inl (.limiter "a" "c" (.spans ⟨1000000000⟩ ⟨1000000000⟩) (.ok .zero)),
    .inl (.gate "c" .lookup .hold), .inl (.throttle "a" (.plain "x") 1), .inr 0]

/-- A step that drops a handle has another result when a drop of it is put in before. -/
theorem handle_dropped_before :
    (((starting 0).final (withDrops heldAndDropped)).step (.dropHandle 0)).2.result =
      .flag false ∧
    (((starting 0).final (withoutDrops heldAndDropped)).step (.dropHandle 0)).2.result =
      .flag true :=
  ⟨rfl, rfl⟩

end World

end Turnstile
