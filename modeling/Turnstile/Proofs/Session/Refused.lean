import Turnstile.Proofs.Session.Dropping
import Turnstile.Proofs.Session.Less

/-!
# Requests that are not admitted

A request that is refused or aborted where no gate holds leaves no trace: it holds its
stripe for one turn only, sets no timer, and changes no answer of a cache, since all
that it can have done there is to drop an entry that had expired.

So the session without it (`World.without`) goes on in the same way. The requests after
it have other numbers, and an entry that it dropped is left for others to drop, so that
more entries may be counted, in caches and by purges and sweeps. Whatever else is
reported is the same, but for what the request itself has shown (`World.reportWithout`).

* `Course.refuses_of_refusal`: what is answered with a refusal changes no answer;
* `Less.step`, `StepLess.report`: what a step does, and what is reported of it, less the
  requests that are gone;
* `refusal_leaves_no_trace`: every step shows the same in the session without it.
-/

namespace Turnstile

/-- The result of a step, but for what it says of the number of entries stored. -/
def Step.uncounted : Step → StepResult → StepResult
  | .purge _, .count _ => .count 0
  | .isEmpty _, .flag _ => .flag false
  | _, result => result

/-- The report on a step, but for the numbers of entries stored, and of those dropped by
    purges and sweeps. -/
def Report.uncounted (s : Step) (r : Report) : Report :=
  { r with
    result := s.uncounted r.result
    sizes := r.sizes.map fun (name, _) => (name, 0)
    notices := r.notices.filter (!·.isSwept) }

/-- The result of a step without a request, if that is among those issued. -/
def StepResult.without (r : Nat) : StepResult → StepResult
  | .requests numbers => .requests ((numbers.filter (· != r)).map (renumber (· == r)))
  | result => result

namespace World

variable (w : World) (r : Nat)

/-- What is reported when no task can go on any more, if only some tasks show what they do
    until then. -/
def reportOf (shows : Task → Bool) (result : StepResult) : Report :=
  let turns := w.settling.filter fun m => shows m.task
  { w.settle.report result with
    calls := w.trace.calls.toList ++ turns.flatMap Moment.calls
    notices := Notice.arrange (w.trace.notices.toList ++ turns.flatMap Moment.notices)
    faults := w.trace.faults.toList ++ turns.flatMap Moment.faults }

/-- What is reported of a step but for what a request shows, the other requests having the
    numbers that they have without it. -/
def reportWithout (s : Step) : Report :=
  let report := (w.acted s).reportOf (· != .admission r) (w.step s).2.result
  { report with
    result := report.result.without r
    outcomes := (report.outcomes.filter (·.1 != r)).map fun (i, o) => (renumber (· == r) i, o) }

/-- What is left of a step without a request. -/
def stepWithout (s : Step) : List Step := w.cutStep (· == r) (s, false)

/-- What is left without a request of a session that goes on from a world. -/
def without (steps : List Step) : List Step := w.cut (· == r) (steps.map (·, false))

/-- That a step shows the same in a world of the session without a request, as far as
    entries stored are not counted. -/
structure SameWithout (v : World) (s : Step) : Prop where
  report : ∀ t ∈ w.stepWithout r s,
    (v.step t).2.uncounted s = (w.reportWithout r s).uncounted s
  /-- If nothing is left of the step, then only the request has shown something. -/
  nothing : w.stepWithout r s = [] →
    (v.quiet (w.reportWithout r s).result).uncounted s = (w.reportWithout r s).uncounted s

end World

open World

/-! ### What tasks show -/

/-- To arrange notices and then to leave some out is the same the other way round, if the
    waits that are over stay. -/
theorem Notice.filter_arrange {p : Notice → Bool} (waits : ∀ n, n.waitOver?.isSome → p n)
    (l : List Notice) : (arrange l).filter p = arrange (l.filter p) := by
  have swap (q : Notice → Bool) : (l.filter p).filter q = (l.filter q).filter p := by
    rw [List.filter_filter, List.filter_filter]
    exact congrArg (l.filter ·) (funext fun _ => Bool.and_comm ..)
  have stay : (l.filter p).filter (·.waitOver?.isSome) = l.filter (·.waitOver?.isSome) := by
    rw [swap, List.filter_eq_self]
    exact fun n hn => waits n ((List.mem_filter.1 hn).2 :)
  have sorted : ((l.filter (·.waitOver?.isSome)).mergeSort waitsLess).filter p =
      (l.filter (·.waitOver?.isSome)).mergeSort waitsLess := by
    rw [List.filter_eq_self]
    exact fun n hn => waits n ((List.mem_filter.1 (List.mem_mergeSort.1 hn)).2 :)
  simp only [arrange, List.partition_eq_filter_filter]
  rw [List.filter_append, sorted, swap, stay]

/-- Lists that are related entry by entry give the same when related entries do. -/
theorem flatMap_eq_of_forall₂ {α β γ : Type} {rel : α → β → Prop} {l : List α} {m : List β}
    {f : α → List γ} {g : β → List γ} (h : List.Forall₂ rel l m)
    (same : ∀ {a b}, rel a b → f a = g b) : l.flatMap f = m.flatMap g := by
  have entries : Relator.LiftFun rel (List.Forall₂ Eq) f g := fun _ _ hab =>
    List.forall₂_eq_eq_eq ▸ same hab
  have all := List.rel_flatMap h entries
  rwa [List.forall₂_eq_eq_eq] at all

theorem Task.isSome_less? (r : Nat) (t : Task) :
    (t.less? (· == r)).isSome = (t != .admission r) := by
  cases t with
  | sweeper => rfl
  | admission i => by_cases hi : i = r <;> simp [less?, View.cut, View.all, hi]

section

variable {w v v' : World} {told : Prop} {result : StepResult} {left : List Step}

/-- What is reported is what all tasks show. -/
theorem World.Orderly.reportOf_all (o : w.Orderly) (result : StepResult) :
    w.reportOf (fun _ => true) result = w.settle.report result := by
  have c : Course (fun _ _ => False) w w.settling w.settle := .of_turns ..
  obtain ⟨calls, notices⟩ := c.shows o
  have faults := c.shows_faults o
  rw [reportOf, List.filter_true, World.report, calls, notices, faults]

/-- A limiter that is made in two worlds, or in neither, is logged alike. -/
theorem World.Made.notices_eq {limiters : Array LimiterCell} (hw : w.Made limiters)
    (hv : v.Made limiters) (same : w.limiters = v.limiters) :
    w.trace.notices = v.trace.notices := by
  rcases hw with ⟨kept, none⟩ | ⟨_, _, _, _, _, -, pushed, one⟩
  · rcases hv with ⟨-, none'⟩ | ⟨_, _, _, _, _, -, pushed', -⟩
    · rw [none, none']
    · have := congrArg Array.size (same.symm.trans kept)
      simp [pushed'] at this
  · rcases hv with ⟨kept', -⟩ | ⟨_, _, _, _, _, -, pushed', one'⟩
    · have := congrArg Array.size (same.trans kept')
      simp [pushed] at this
    · rw [pushed, pushed'] at same
      have last := congrArg Array.back? same
      simp only [Array.back?_push, Option.some.injEq, LimiterCell.mk.injEq] at last
      rw [one, one', last.1]

/-- The caches that have names are the same in both worlds. -/
theorem World.names_sizes (names : w.cacheNames = v.cacheNames)
    (size : w.caches.size = v.caches.size) :
    w.sizes.map (fun (name, _) => (name, 0)) = v.sizes.map fun (name, _) => (name, 0) := by
  simp only [sizes, List.map_filterMap, names]
  congr 1
  funext x
  by_cases there : x.2 < v.caches.size <;> simp [size, there]

theorem CutTo.made (h : CutTo v told result left v') : v'.Made v.limiters := by
  cases h with
  | nothing => exact .inl ⟨rfl, rfl⟩
  | step => exact made_acted ..

theorem CutTo.silent (h : CutTo v told result left v') :
    v'.trace.calls = #[] ∧ v'.trace.faults = #[] := by
  cases h with
  | nothing => exact ⟨rfl, rfl⟩
  | step => exact shown_acted ..

end

/-! ### Steps less some requests -/

/-- What comes of a step and of what is left of it: before the turns the worlds are abreast,
    and after them one is the other less the requests that are gone, the turns of the other
    tasks having shown the same. -/
structure StepLess (gone : Nat → Bool) (w v : World) (s : Step) (v' : World) : Prop where
  cutTo : CutTo v (s.Told (View.all.cut gone) (fun _ => True) w) (w.step s).2.result
    (w.cutStep gone (s, false)) v'
  abreast : Abreast gone .all (fun _ => True) (w.acted s) v'
  orderly : v'.Orderly
  less : Less gone (w.step s).1 v'.settle
  shows : List.Forall₂ Moment.ShowsAlike
    ((w.acted s).settling.filter fun m => (m.task.less? gone).isSome) v'.settling

section

variable {gone : Nat → Bool} {w v v' : World} {s : Step} {steps : List Step}

/-- All requests are seen, and so are all keys. -/
theorem World.fits_all (w : World) : w.Fits .all fun _ => True :=
  ⟨fun _ => by simp [View.all]⟩

namespace Less

theorem shown (h : Less gone w v) : Less gone (w.shown #[]) (v.shown #[]) :=
  { h.toAbreast.shown with
    sweepers := h.sweepers
    ready := h.ready
    timers := h.timers
    stands := h.stands }

theorem starting (gone : Nat → Bool) (wall : Int) :
    Less gone ((World.starting wall).shown #[]) ((World.starting wall).shown #[]) :=
  { (Together.starting gone .all (fun _ => True) wall).abreast with
    sweepers := rfl
    ready := rfl
    timers := rfl
    stands := fun _ ha => by simp [World.starting, World.shown] at ha }

variable (l : Less gone (w.shown #[]) (v.shown #[])) (h : Together gone .all (fun _ => True) w v)
include l h

/-- A world is still another one less some requests after a step, if these are refused in
    their turns. -/
theorem step (flows : s.Flows w) (refuses : ∀ m ∈ (w.acted s).settling, m.Refuses gone) :
    ∃ v', StepLess gone w v s v' := by
  obtain ⟨v', cutTo, acted⟩ := h.act (x := (s, false)) flows nofun
  obtain ⟨kv, -⟩ := cutTo.viewed h.right (fits_all _)
  have kw := h.left.acted flows (acted.key_seen kv.key)
  have less := l.acted h.left.orderly h.settled_left h.left.flowing.running
    (fun hx => h.left.parked hx) (fun hy => h.right.parked hy) flows cutTo acted
  obtain ⟨settled, shows⟩ := less.settle kw kv refuses
  exact ⟨v', cutTo, acted, kv.orderly, settled, shows⟩

/-- So it is at the end of a session. -/
theorem final (flows : w.Along Step.Flows steps)
    (refuses : ∀ m ∈ w.history steps, m.Refuses gone) :
    let v' := v.final (w.cut gone (steps.map (·, false)))
    Less gone ((w.final steps).shown #[]) (v'.shown #[]) ∧
      Together gone .all (fun _ => True) (w.final steps) v' := by
  induction steps generalizing w v with
  | nil => exact ⟨l, h⟩
  | cons s rest ih =>
    have now (m : Moment) (hm : m ∈ (w.acted s).settling) : m.Refuses gone :=
      refuses m (List.mem_append_left _ hm)
    obtain ⟨v', settled⟩ := l.step h flows.1 now
    have less := settled.less.shown
    rw [← settled.cutTo.final h.settled_right] at less
    have together := (h.step (x := (s, false)) flows.1 nofun (fits_all _)
      fun m hm => (now m hm).toSpares).1
    simp only [List.map_cons, World.final, cut, final_append]
    exact ih less together flows.2 fun m hm => refuses m (List.mem_append_right _ hm)

end Less

/-- What is reported after what is left of a step is what the tasks that are not gone have
    shown after the step. -/
theorem StepLess.report (h : StepLess gone w v s v') (limiters : w.limiters = v.limiters)
    {result result' : StepResult} (results : s.uncounted result = s.uncounted result') :
    (v'.settle.report result).uncounted s =
      ({ (w.acted s).reportOf (fun t => (t.less? gone).isSome) result' with
        outcomes := v'.settle.received } : Report).uncounted s := by
  have waits (n : Notice) (hn : n.waitOver?.isSome) : !n.isSwept := by
    cases n <;> simp_all [Notice.waitOver?, Notice.isSwept]
  have made : (w.acted s).trace.notices = v'.trace.notices :=
    (made_acted w s).notices_eq (limiters ▸ h.cutTo.made) h.abreast.alike.limiters
  have sizes := names_sizes h.less.alike.cacheNames h.less.alike.caches.size
  have sweepers : (v'.settle.report result).sweepersEnded = (w.step s).2.sweepersEnded := by
    rw [World.report, ← h.less.sweepers]
    rfl
  rw [← h.orderly.reportOf_all]
  simp only [Report.uncounted, reportOf, List.filter_true, Report.mk.injEq]
  refine ⟨results, sizes.symm, ?_, rfl, ?_, ?_, sweepers⟩
  · rw [h.cutTo.silent.1, (shown_acted w s).1, flatMap_eq_of_forall₂ h.shows (·.calls)]
  · rw [Notice.filter_arrange waits, Notice.filter_arrange waits, List.filter_append,
      List.filter_append, List.filter_flatMap, List.filter_flatMap, made,
      flatMap_eq_of_forall₂ h.shows (·.notices)]
  · rw [h.cutTo.silent.2, (shown_acted w s).2, flatMap_eq_of_forall₂ h.shows (·.faults)]

end

/-! ### Results -/

namespace View

theorem filterMap_all (l : List (Nat × Outcome)) : l.filterMap all.answer? = l :=
  List.filterMap_some

/-- All answers are seen but those to requests that are gone. -/
theorem filterMap_cut (gone : Nat → Bool) (l : List (Nat × Outcome)) :
    l.filterMap (all.cut gone).answer? =
      (l.filter fun x => !gone x.1).map fun (i, o) => (renumber gone i, o) := by
  have number (i : Nat) : (all.cut gone).number? i =
      if !gone i then some (renumber gone i) else none := by
    cases away : gone i with
    | true => exact cut_gone away
    | false => exact cut_kept away
  exact filterMap_answer? number l

end View

theorem StepResult.without_eq {result : StepResult} (h : result.issued = []) (r : Nat) :
    result.without r = result := by
  cases result with
  | requests numbers =>
    obtain rfl : numbers = [] := h
    rfl
  | _ => rfl

namespace World

variable {w v : World} {s t : Step} {r : Nat}

theorem stepWithout_throttle {name : String} {form : Identifier} {times : Nat}
    (left : w.stepWithout r (.throttle name form times) = [t]) :
    ∃ k, t = .throttle name form k := by
  simp only [stepWithout, cutStep] at left
  split at left
  · exact ⟨_, (List.cons.inj left).1.symm⟩
  · split at left
    · cases left
    · exact ⟨_, (List.cons.inj left).1.symm⟩

section

variable (alike : Alike (View.all.cut (· == r)) .all (fun _ => True) (w.shown #[]) (v.shown #[]))
  (running : w.running)
include alike running

/-- If the requests issued are the same, then so is the result. -/
theorem result_throttle {name : String} {form : Identifier} {times k : Nat}
    (issued : ((w.step (.throttle name form times)).2.result.issued.filter (· != r)).map
      (renumber (· == r)) = (v.step (.throttle name form k)).2.result.issued) :
    (v.step (.throttle name form k)).2.result =
      (w.step (.throttle name form times)).2.result.without r := by
  have running' : v.running := alike.running.symm.trans running
  have named : w.limiterNamed? name = v.limiterNamed? name := alike.limiterNamed? name
  cases hl : w.limiterNamed? name with
  | none =>
    rw [(acted_throttle_none form times hl).2, (acted_throttle_none form k (named ▸ hl)).2]
    rfl
  | some x =>
    rw [(acted_throttle form times running hl).2,
      (acted_throttle form k running' (named ▸ hl)).2] at issued ⊢
    exact congrArg StepResult.requests issued.symm

/-- What is left of a step without a request has the same result, as far as entries stored
    are not counted. -/
theorem uncounted_result (shown : ShownAlike (· == r) .all (fun _ => True) w v (s, false))
    (left : w.stepWithout r s = [t]) :
    s.uncounted (v.step t).2.result = s.uncounted ((w.step s).2.result.without r) := by
  have cut : w.cutStep (· == r) (s, false) = [t] := left
  have told (hs : ∀ name form times, s ≠ .throttle name form times)
      (ht : s.Told (View.all.cut (· == r)) (fun _ => True) w) :
      (v.step t).2.result = (w.step s).2.result.without r := by
    have none : (w.step s).2.result.issued = [] := issued_act (w.shown #[]) hs
    rw [StepResult.without_eq none]
    exact shown.result ht _ (cut ▸ .head _)
  -- All results are told but those that count entries or requests.
  cases s with
  | throttle name form times =>
    obtain ⟨k, rfl⟩ := stepWithout_throttle left
    have issued := shown.issued
    rw [cut] at issued
    exact result_throttle alike running (issued.trans (List.append_nil _))
  | purge name | isEmpty name =>
    obtain rfl := (List.cons.inj left).1
    have eq (u : World) (s : Step) : (u.step s).2.result = ((u.shown #[]).act s).2 := rfl
    rw [eq, eq, act, act, withCache, withCache]
    rcases alike.cacheNamed? name with ⟨e, e'⟩ | ⟨_, _, _, e, e', -⟩ <;> rw [e, e'] <;> rfl
  | get => exact told (by simp) fun _ _ => trivial
  | dropHandle i =>
    refine told (by simp) fun unseen => ?_
    rw [stepWithout, cutStep, if_pos (View.all_cut_eq_none.1 unseen)] at left
    cases left
  | _ => exact told (by simp) trivial

end

/-- Where nothing is done, nothing is reported but a result. -/
theorem quiet_eq (settled : v.ready = []) (result : StepResult) :
    v.quiet result = (v.shown #[]).settle.report result := by
  rw [settle, takeTurns_of_ready_nil (show (v.shown #[]).ready = [] from settled)]
  simp [quiet, World.report, received, sizes, World.shown, Notice.arrange]

/-- A step shows the same without a request that is refused. -/
theorem sameWithout (l : Less (· == r) (w.shown #[]) (v.shown #[]))
    (h : Together (· == r) .all (fun _ => True) w v) (flows : s.Flows w)
    (refuses : ∀ m ∈ (w.acted s).settling, m.Refuses (· == r)) : w.SameWithout r v s := by
  obtain ⟨v', less⟩ := l.step h flows refuses
  have shown := (h.step (x := (s, false)) flows nofun (fits_all _)
    fun m hm => (refuses m hm).toSpares).2
  have outcomes := shown.outcomes
  rw [View.filterMap_cut, View.filterMap_all, less.cutTo.outcomes h.settled_right] at outcomes
  have report {result : StepResult}
      (results : s.uncounted result = s.uncounted ((w.step s).2.result.without r)) :
      (v'.settle.report result).uncounted s = (w.reportWithout r s).uncounted s := by
    rw [less.report l.alike.limiters results, ← outcomes, reportWithout]
    simp only [Task.isSome_less?]
    rfl
  have cut := less.cutTo
  generalize hl : w.cutStep (· == r) (s, false) = left at cut
  constructor
  case report =>
    intro t ht
    rw [stepWithout, hl] at ht
    cases cut with
    | nothing => cases ht
    | step =>
      obtain rfl := List.mem_singleton.1 ht
      exact report (uncounted_result l.alike h.left.flowing.running shown hl)
  case nothing =>
    intro none
    rw [stepWithout, hl] at none
    cases cut with
    | nothing =>
      rw [quiet_eq h.settled_right]
      exact report rfl
    | step => cases none

end World

/-! ### Refusals -/

namespace Course

variable {w : World} {h : List Moment} {wall : Int} {r : Nat} {reason : Refusal}

/-- Whoever is answered with a refusal is decided so in the same turn. -/
theorem decision_of_refusal {ok : World → Step → Prop} (c : Course ok (starting wall) h w)
    {n : Moment} (hn : n ∈ h) (ha : (r, .error reason) ∈ n.answers) :
    n.decision? = some (r, .error reason) := by
  obtain ⟨orderly, head⟩ := c.orderly_at (orderly_starting wall) hn
  rcases Moment.serving_or_idle orderly head with ⟨i, a, cell, s⟩ | idle
  · rw [s.answers] at ha
    obtain ⟨rfl, e | ⟨fault, e, refused⟩⟩ := Exit.cases_of_mem_answers ha
    · rw [s.decision?, e]
      rfl
    · rw [s.decision?, e, refused]
      rfl
  · obtain ⟨_, -, -, e⟩ := idle.answers _ ha
    cases e

/-- A request that is answered with a refusal is refused in its first turn, in which it
    changes no answer of a cache. -/
theorem refuses_of_refusal (c : Course Step.Flows (starting wall) h w)
    (refused : ∃ n ∈ h, (r, .error reason) ∈ n.answers) {m : Moment} (hm : m ∈ h) :
    m.Refuses (· == r) := by
  obtain ⟨n, hn, answered⟩ := refused
  have decided := c.decision_of_refusal hn answered
  obtain ⟨_, _, -, c', rest, hr⟩ := c.before hm
  have o := c'.orderly (orderly_starting wall)
  have k := c'.flowing (orderly_starting wall) (flowing_starting wall)
  refine .of_refused k.opened fun {i a cell} ht hi ha hp hc => ?_
  obtain rfl : i = r := eq_of_beq hi
  have s : m.Serving i a cell := by
    have s := k.serving o (by rw [hr, ht]; rfl) ha hp hc
    rwa [← ht] at s
  have enters : a.passage cell m.world.clock = a.entering cell m.world.clock := by
    simp [Admission.passage, hp]
  obtain ⟨o, exit⟩ : ∃ o, (a.passage cell m.world.clock).exit.outcome? = some o :=
    Admission.passage_ends (k.opened cell (Array.mem_of_getElem? hc))
  -- Another decision in this turn would be a second one on the same request.
  have now := s.decision?
  rw [exit, Option.map_some] at now
  obtain rfl := c.decision_unique hm hn now decided
  rw [decided] at now
  cases now
  exact ⟨reason, enters ▸ exit⟩

end Course

namespace World

variable {wall : Int} {steps : List Step} {r : Nat} {reason : Refusal}

/-- A request that is not admitted leaves no trace: where no gate holds, every step shows
    the same in the session without it. -/
theorem refusal_leaves_no_trace (flows : (starting wall).Along Step.Flows steps)
    (refused : ∃ m ∈ (starting wall).history steps, (r, .error reason) ∈ m.answers)
    {before after : List Step} {s : Step} (split : steps = before ++ s :: after) :
    ((starting wall).final before).SameWithout r
      ((starting wall).final ((starting wall).without r before)) s := by
  have c := course_history flows
  have refuses (m : Moment) (hm : m ∈ (starting wall).history steps) : m.Refuses (· == r) :=
    c.refuses_of_refusal refused hm
  subst split
  rw [along_append] at flows
  rw [history_append] at refuses
  obtain ⟨less, together⟩ := (Less.starting (· == r) wall).final (.starting ..) flows.1
    fun m hm => refuses m (List.mem_append_left _ hm)
  exact sameWithout less together flows.2.1 fun m hm =>
    refuses m (List.mem_append_right _ (List.mem_append_left _ hm))

/-- Two requests at a limiter that lets nobody wait, and a lookup of their key. -/
def impatient : List Step :=
  [.cache "c", .limiter "a" "c" (.spans (.ofMillis 1000) .zero) (.ok .zero),
    .throttle "a" (.plain "x") 2, .get "c" (.ofIdentifier "a" "x")]

theorem refusal_leaves_no_trace_impatient :
    let w := (starting 0).final (impatient.take 2)
    let v := (starting 0).final ((starting 0).without 1 (impatient.take 2))
    (starting 0).Along Step.Flows impatient ∧
      (∃ m ∈ (starting 0).history impatient, (1, .error .deadlineExceeded) ∈ m.answers) ∧
      w.stepWithout 1 (.throttle "a" (.plain "x") 2) = [.throttle "a" (.plain "x") 1] ∧
      w.SameWithout 1 v (.throttle "a" (.plain "x") 2) := by
  have run : (starting 0).Along Step.Flows impatient ∧
      (∃ m ∈ (starting 0).history impatient, (1, .error .deadlineExceeded) ∈ m.answers) := by
    decide +kernel
  exact ⟨run.1, run.2, by rfl, refusal_leaves_no_trace run.1 run.2 rfl⟩

/-- A request that drops an entry that has expired, and is aborted when it is to store one. -/
def forgetful : List Step :=
  [.cache "c", .limiter "a" "c" (.spans (.ofMillis 1000) .zero) (.ok .zero),
    .put "c" (.ofIdentifier "a" "x") (.text "left") (.ofMillis 1000), .advance (.ofMillis 2000),
    .gate "c" .store .fail, .throttle "a" (.plain "x") 1]

/-- Without it the entry is still stored. -/
example : ((starting 0).final forgetful).sizes = [("c", 0)] ∧
    ((starting 0).final ((starting 0).without 0 forgetful)).sizes = [("c", 1)] := by
  decide +kernel

end World

end Turnstile
