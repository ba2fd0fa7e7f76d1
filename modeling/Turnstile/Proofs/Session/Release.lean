import Turnstile.Proofs.Session.Resolution
import Turnstile.Proofs.Session.Settling

/-!
# Release

A request that is admitted with a delay is let through in time: not before its timer
has come due, and as soon as it has. A timer runs for the delay, but not for longer
than timers run (`Span.onTimer`), and is rounded up to a millisecond, so it cuts no
wait short that is within that range.

* `Timely`: what holds of timers and waits throughout a session, by `Timely.acted` and
  `Timely.turn`;
* `Course.never_early`: no wait ends before its timer;
* `released`: where no gate holds, nobody is left at a stripe or at a gate, and those
  requests have no answer that wait for a timer still to come;
* `wait_cut_short`: a delay beyond the range of timers is not waited for.
-/

namespace Turnstile

/-! ### Milliseconds -/

namespace Instant

/-- A wait that takes any time at all is not over at once. -/
theorem millisDown_lt_millisUp {now : Instant} (h : origin.nanos ≤ now.nanos) {d : Span}
    (hd : d.nanos ≠ 0) : now.millisDown < (now.later d).millisUp := by
  simp only [millisDown, millisUp, later, rounding]
  omega

/-- A wait that is over is not cut short. -/
theorem le_of_millisUp_le {t now : Instant} (h : origin.nanos ≤ now.nanos)
    (past : t.millisUp ≤ now.millisDown) : t.nanos ≤ now.nanos := by
  simp only [millisDown, millisUp, rounding] at past
  omega

theorem millisDown_mono {s t : Instant} (h : s.nanos ≤ t.nanos) : s.millisDown ≤ t.millisDown := by
  simp only [millisDown]
  omega

end Instant

theorem Exit.decided_of_outcome {e : Exit} {delay : Span} (h : e.outcome? = some (.ok delay)) :
    e = .decided (.ok delay) := by
  cases e <;> simp_all [outcome?]

/-! ### Gates -/

namespace World

/-- That no gate holds. -/
def Opened (w : World) : Prop := ∀ cell ∈ w.caches, ∀ kind, cell.gate kind ≠ .hold

theorem Opened.holds {w : World} (h : w.Opened) (c : Nat) (kind : CallKind) :
    w.holds c kind = false := by
  unfold World.holds
  cases hc : w.caches[c]? with
  | none => rfl
  | some cell => simpa using h cell (Array.mem_of_getElem? hc) kind

end World

/-! ### Timers -/

/-- The millisecond from which a request that is admitted in a turn may go on. -/
def Moment.due (m : Moment) (delay : Span) : Nat :=
  (m.world.clock.now.later delay.onTimer).millisUp

open World

namespace World

/-- That a request waits for a millisecond, or has waited for it. -/
def Waits (w : World) (i : Nat) (delay : Span) (due : Nat) : Prop :=
  (w.phase? i = some (.waiting delay) ∧
      (⟨due, .admission i⟩ ∈ w.timers ∨ due ≤ w.clock.now.millisDown)) ∨
    (w.Done i ∧ due ≤ w.clock.now.millisDown)

end World

/-- That waits and timers go together. -/
structure Timely (h : List Moment) (w : World) : Prop where
  origin_le : Instant.origin.nanos ≤ w.clock.now.nanos
  /-- A timer of a request is one for its delay, and is still to come. -/
  timer : ∀ t ∈ w.timers, ∀ i, t.task = .admission i → ∃ m ∈ h, ∃ delay, delay ≠ .zero ∧
    m.decision? = some (i, .ok delay) ∧ t.due = m.due delay ∧ w.clock.now.millisDown < t.due
  /-- Who is admitted with a delay waits for it. -/
  waits : w.running → ∀ m ∈ h, ∀ i delay, m.decision? = some (i, .ok delay) → delay ≠ .zero →
    w.Waits i delay (m.due delay)
  /-- After a shutdown all are answered. -/
  ended : ¬ w.running → ∀ i < w.admissions.size, w.Done i

theorem timely_starting (wall : Int) : Timely [] (starting wall) where
  origin_le := Nat.le_refl _
  timer t ht := by simp [starting] at ht
  waits _ m hm := by simp at hm
  ended h := by simp [starting] at h

namespace World

variable {w : World} {s : Step}

theorem mem_timers_wakeTimers {t : Timer} :
    t ∈ w.wakeTimers.timers ↔ t ∈ w.timers ∧ w.clock.now.millisDown < t.due := by
  have timers : w.wakeTimers.timers =
      w.timers.filter fun t => !decide (t.due ≤ w.clock.now.millisDown) := by
    rw [wakeTimers, List.partition_eq_filter_filter]
    rfl
  rw [timers, List.mem_filter]
  simp

/-- Who has its turn has no timer. -/
theorem Orderly.no_timer (o : w.Orderly) {i : Nat} (hr : w.ready.head? = some (.admission i))
    {t : Timer} (ht : t ∈ w.timers) : t.task ≠ .admission i := by
  intro own
  obtain ⟨rest, hr'⟩ := List.head?_eq_some_iff.1 hr
  obtain ⟨a, ha, -⟩ := o.admissionTurn_cases hr
  have alone : (w.timers.map Timer.task).count (.admission i) = 0 := (o.alone ha hr').2.1
  exact List.count_eq_zero.1 alone (List.mem_map.2 ⟨t, ht, own⟩)

/-- A step takes away the timers of those tasks that it wakes or stops. -/
theorem mem_timers_acted (hs : s ≠ .shutdown) {t : Timer}
    (unstopped : ∀ j, s = .abort j → t.task ≠ .sweeper j)
    (later : t ∈ w.timers → w.clock.now.millisDown < t.due) :
    t ∈ (w.acted s).timers ↔ t ∈ w.timers ∧ (w.acted s).clock.now.millisDown < t.due := by
  have same {v : World} (timers : v.timers = w.timers) (clock : v.clock.now = w.clock.now) :
      t ∈ v.timers ↔ t ∈ w.timers ∧ v.clock.now.millisDown < t.due := by
    rw [timers, clock]
    exact ⟨fun h => ⟨h, later h⟩, And.left⟩
  have change := change_acted w s
  generalize w.acted s = w' at change
  cases change with
  | aside | cache | limiter | drop | setWall | store | sweeper | gate => exact same rfl rfl
  | issue =>
    obtain ⟨_, _, he⟩ := issueAll_eq (w.shown #[]) _ _ _ _
    rw [he]
    exact same rfl rfl
  | advance =>
    exact mem_timers_wakeTimers (w := { w.shown #[] with clock := w.clock.advance _ })
  | @stop j =>
    have kept : t ∈ (w.timers.filter (·.task != Task.sweeper j)) ↔ t ∈ w.timers := by
      simp [List.mem_filter, unstopped j rfl]
    exact kept.trans (same rfl rfl)
  | shutdown => exact absurd rfl hs

end World

namespace Timely

variable {h : List Moment} {w : World} {s : Step}

theorem timers_acted (k : Timely h w) (hs : s ≠ .shutdown) {t : Timer} {i : Nat}
    (ht : t.task = .admission i) :
    t ∈ (w.acted s).timers ↔ t ∈ w.timers ∧ (w.acted s).clock.now.millisDown < t.due :=
  mem_timers_acted hs (fun _ _ => by simp [ht]) fun there => by
    obtain ⟨_, -, _, -, -, -, due⟩ := k.timer t there i ht
    exact due

/-- Who waits, or has waited, still does so after a step, unless that shuts down. -/
theorem waits_acted (k : Timely h w) (hs : s ≠ .shutdown) {i : Nat} {delay : Span} {due : Nat}
    (waits : w.Waits i delay due) : (w.acted s).Waits i delay due := by
  have later := Instant.millisDown_mono (now_le_acted w s)
  rcases waits with ⟨hp, ht⟩ | ⟨done, ht⟩
  · refine .inl ⟨?_, ?_⟩
    · obtain ⟨a, ha, hp⟩ := phase?_eq_some_iff.1 hp
      obtain ⟨b, hb, -⟩ := (evolves_acted w s).becomes ha
      rcases admission_acted hb with ⟨a', ha', -, e | ⟨e, -⟩⟩ | ⟨none, -⟩
      · obtain rfl : a = a' := Option.some.inj (ha.symm.trans ha')
        rw [phase?_eq hb, e, hp]
      · exact absurd e hs
      · rw [ha] at none
        cases none
    · by_cases passed : due ≤ (w.acted s).clock.now.millisDown
      · exact .inr passed
      · have there := ht.resolve_right fun h => passed (Nat.le_trans h later)
        exact .inl ((k.timers_acted hs rfl).2 ⟨there, Nat.lt_of_not_le passed⟩)
  · exact .inr ⟨(done_acted hs i).2 done, Nat.le_trans ht later⟩

/-- A shutdown leaves no request without an answer, and no timer. -/
theorem acted_shutdown (k : Timely h w) : Timely h (w.acted .shutdown) := by
  obtain ⟨_, -, he⟩ := (w.shown #[]).shutDown_eq
  have acted : w.acted .shutdown = (w.shown #[]).shutDown := rfl
  refine ⟨Nat.le_trans k.origin_le (now_le_acted ..), fun t ht => ?_, fun running => ?_,
    fun _ i hi => ?_⟩
  · rw [acted, he] at ht
    simp at ht
  · exact absurd rfl ((running_acted w .shutdown).1 running).2
  · rw [acted, ← step_shutdown, done_shutdown]
    rw [acted, he, Array.size_map] at hi
    exact hi

/-- A step keeps waits and timers together. -/
theorem acted (k : Timely h w) (s : Step) : Timely h (w.acted s) := by
  by_cases hs : s = .shutdown
  · exact hs ▸ k.acted_shutdown
  refine ⟨Nat.le_trans k.origin_le (now_le_acted w s), fun t ht i hi => ?_,
    fun running m hm i delay hd hz => ?_, fun stopped i hi => ?_⟩
  · obtain ⟨there, due⟩ := (k.timers_acted hs hi).1 ht
    obtain ⟨m, hm, delay, hz, hd, e, -⟩ := k.timer t there i hi
    exact ⟨m, hm, delay, hz, hd, e, due⟩
  · exact k.waits_acted hs (k.waits ((running_acted w s).1 running).1 m hm i delay hd hz)
  · have stopped : ¬ w.running := fun h => stopped ((running_acted w s).2 ⟨h, hs⟩)
    obtain ⟨n, -, size, issued⟩ := issued_step w s
    have zero : n = 0 := Decidable.byContradiction fun h => stopped (issued h)
    exact (done_acted hs i).2 (k.ended stopped i (by omega))

end Timely

namespace Moment

variable {m : Moment} {i : Nat}

theorem Serving.timers {a : Admission} {cell : CacheCell} (s : m.Serving i a cell) :
    m.after.timers = m.world.timers ++
      (a.passage cell m.world.clock).exit.timers i m.world.clock.now := by
  obtain ⟨lines, after⟩ := s.after
  rw [after, timers_pass]
  rfl

/-- What timers a turn sets. -/
theorem timers_after (o : m.world.Orderly) (hr : m.world.ready.head? = some m.task) :
    ∃ new, m.after.timers = m.world.timers ++ new ∧ ∀ t ∈ new, ∀ i, t.task = .admission i →
      ∃ a cell, m.Serving i a cell ∧
        t ∈ (a.passage cell m.world.clock).exit.timers i m.world.clock.now := by
  rcases serving_or_idle o hr with ⟨j, a, cell, s⟩ | idle
  · refine ⟨_, s.timers, fun t ht i hi => ?_⟩
    obtain ⟨_, -, -, rfl⟩ := Exit.cases_of_mem_timers ht
    cases hi
    exact ⟨a, cell, s, ht⟩
  · cases ht : m.task with
    | sweeper j =>
      have after := after_of_sweeper ht
      rcases m.world.taken.sweeperTurn_cases j with
        e | ⟨s, -, _, _, -, _, _, _, _, timers, going, e⟩
      · exact ⟨[], by rw [after, e, List.append_nil]; rfl, by simp⟩
      · refine ⟨timers, by rw [after, e]; rfl, fun t ht i hi => ?_⟩
        cases going with
        | ended | again => simp at ht
        | waits =>
          rw [List.mem_singleton.1 ht] at hi
          cases hi
    | admission i =>
      obtain ⟨a, ha, turn⟩ := admissionTurn_cases o hr ht
      generalize hw : m.after = w' at turn
      cases turn with
      | joins | ends => exact ⟨[], (List.append_nil _).symm, by simp⟩
      | @works cell rest lines hc t b =>
        exact absurd (Serving.serves ⟨ht, ha, hc, ⟨rest, t⟩, lines, hw⟩) (idle.serves i)

/-- A wait goes on in the turns of others. -/
theorem waiting_after (o : m.world.Orderly) (hr : m.world.ready.head? = some m.task)
    {delay : Span} (hp : m.world.phase? i = some (.waiting delay)) :
    m.after.phase? i = some (.waiting delay) ∨ m.after.Done i ∧ m.task = .admission i := by
  obtain ⟨a, ha, phase⟩ := phase?_eq_some_iff.1 hp
  have undone : ¬ m.world.Done i := by simp [Done, hp]
  obtain ⟨b, hb, -⟩ := (o.evolves_turn hr).becomes ha
  have hb : m.after.admissions[i]? = some b := hb
  rw [phase?_eq hb, Done, phase?_eq hb]
  have own (done : b.phase = .finished) : m.task = .admission i := by
    have after : m.after.Done i := by rw [Done, phase?_eq hb, done]
    cases answering o hr with
    | nobody _ hd => exact absurd ((hd i).1 after) undone
    | one ht _ _ hd =>
      obtain rfl := ((hd i).1 after).resolve_left undone
      exact ht
  rcases serving_or_idle o hr with ⟨j, a', cell, s⟩ | idle
  · have other : j ≠ i := by
      rintro rfl
      obtain ⟨rest, t⟩ := s.holder
      obtain rfl : a = a' := Option.some.inj (ha.symm.trans s.admission)
      have := t.undecided
      simp [phase, Phase.stage] at this
    rw [s.admission_other other, ha] at hb
    obtain rfl := Option.some.inj hb
    exact .inl (by rw [phase])
  · obtain ⟨a', ha', -, idles⟩ := idle.admission hb
    obtain rfl : a = a' := Option.some.inj (ha.symm.trans ha')
    rw [phase] at idles
    generalize b.phase = p at idles own
    cases idles with
    | stays => exact .inl rfl
    | ends => exact .inr ⟨rfl, own rfl⟩

end Moment

namespace Timely

variable {h : List Moment} {m : Moment}

/-- A turn keeps waits and timers together. -/
theorem turn (k : Timely h m.world) (o : m.world.Orderly)
    (hr : m.world.ready.head? = some m.task) : Timely (h ++ [m]) m.after := by
  have clock : m.after.clock = m.world.clock := by
    rcases Moment.serving_or_idle o hr with ⟨i, a, cell, s⟩ | idle
    · exact s.clock
    · exact idle.clock
  have running : m.after.running = m.world.running := o.running_turn hr
  have last : m ∈ h ++ [m] := by simp
  obtain ⟨new, timers, own⟩ := Moment.timers_after o hr
  constructor
  case origin_le =>
    rw [clock]
    exact k.origin_le
  case timer =>
    intro t ht i hi
    rw [timers] at ht
    rw [clock]
    rcases List.mem_append.1 ht with ht | ht
    · obtain ⟨n, hn, rest⟩ := k.timer t ht i hi
      exact ⟨n, List.mem_append_left _ hn, rest⟩
    · obtain ⟨a, cell, s, ht⟩ := own t ht i hi
      obtain ⟨delay, nonzero, he, rfl⟩ := Exit.cases_of_mem_timers ht
      refine ⟨m, last, delay, nonzero, ?_, rfl, ?_⟩
      · rw [s.decision?, he]
        rfl
      · exact Instant.millisDown_lt_millisUp k.origin_le
          (Span.nanos_ne_zero (Span.onTimer_ne_zero nonzero))
  case waits =>
    intro on n hn i delay hd nonzero
    rw [running] at on
    rw [Waits, clock, timers]
    rcases List.mem_append.1 hn with hn | hn
    · rcases k.waits on n hn i delay hd nonzero with ⟨hp, ht⟩ | ⟨done, due⟩
      · rcases Moment.waiting_after o hr hp with hp' | ⟨done, task⟩
        · exact .inl ⟨hp', ht.imp_left (List.mem_append_left _)⟩
        · rw [task] at hr
          exact .inr ⟨done, ht.resolve_left fun ht => o.no_timer hr ht rfl⟩
      · exact .inr ⟨Moment.done_after o hr done, due⟩
    · rw [List.mem_singleton.1 hn] at hd ⊢
      obtain ⟨a, cell, s, he⟩ := Moment.serving_of_decision o hr hd
      have exit := Exit.decided_of_outcome he
      refine .inl ⟨?_, .inl (List.mem_append_right _ ?_)⟩
      · rw [s.phase, exit, Exit.phase, if_neg nonzero]
      · rw [List.append_cancel_left (timers.symm.trans s.timers), exit, Exit.timers,
          if_neg nonzero]
        exact List.mem_singleton.2 rfl
  case ended =>
    intro stopped i hi
    rw [running] at stopped
    rw [Moment.size_after o hr] at hi
    exact Moment.done_after o hr (k.ended stopped i hi)

end Timely

namespace Course

variable {ok : World → Step → Prop} {w : World} {h : List Moment} {wall : Int}

/-- In a session waits and timers go together. -/
theorem timely (c : Course ok (starting wall) h w) : Timely h w := by
  induction c with
  | start => exact timely_starting wall
  | act _ _ ih => exact ih.acted _
  | turn c hr ih => exact ih.turn (c.orderly (orderly_starting wall)) (by rw [hr]; rfl)

/-- Who waits for its slot was admitted with its delay. -/
theorem decision_of_waiting (c : Course ok (starting wall) h w) {i : Nat} {delay : Span}
    (hp : w.phase? i = some (.waiting delay)) :
    delay ≠ .zero ∧ ∃ m ∈ h, m.decision? = some (i, .ok delay) := by
  induction c with
  | start => simp [starting, phase?] at hp
  | act _ _ ih =>
    obtain ⟨b, hb, hp⟩ := phase?_eq_some_iff.1 hp
    rcases admission_acted hb with ⟨a, ha, -, e | ⟨-, e⟩⟩ | ⟨-, _, _, _, _, _, -, -, -, rfl⟩
    · exact ih (phase?_eq_some_iff.2 ⟨a, ha, e.symm.trans hp⟩)
    · rw [hp] at e
      cases e
    · cases hp
  | @turn h w task rest c hr ih =>
    obtain ⟨b, hb, hp⟩ := phase?_eq_some_iff.1 hp
    have o := c.orderly (orderly_starting wall)
    have head : w.ready.head? = some task := by rw [hr]; rfl
    have later (k : delay ≠ .zero ∧ ∃ m ∈ h, m.decision? = some (i, .ok delay)) :
        delay ≠ .zero ∧ ∃ m ∈ h ++ [⟨w, task⟩], m.decision? = some (i, .ok delay) := by
      obtain ⟨nonzero, m, hm, hd⟩ := k
      exact ⟨nonzero, m, List.mem_append_left _ hm, hd⟩
    rcases Moment.serving_or_idle (m := ⟨w, task⟩) o head with ⟨j, a, cell, s⟩ | idle
    · obtain ⟨a', ha', rfl⟩ := s.admission_after hb
      by_cases hj : j = i
      · subst hj
        rw [if_pos rfl] at hp
        have exit := Exit.decided_of_waiting hp fun he => (Admission.passage_held he).stage
        refine ⟨fun zero => ?_, _, List.mem_append_right _ (.head _), by rw [s.decision?, exit]; rfl⟩
        rw [exit, zero] at hp
        cases hp
      · rw [if_neg hj] at hp
        exact later (ih (phase?_eq_some_iff.2 ⟨a', ha', hp⟩))
    · obtain ⟨a, ha, -, idles⟩ := idle.admission hb
      rw [hp] at idles
      generalize ha' : a.phase = p at idles
      cases idles
      exact later (ih (phase?_eq_some_iff.2 ⟨a, ha, ha'⟩))

/-- There is one decision on a request. -/
theorem decision_unique (c : Course ok (starting wall) h w) {m n : Moment} (hm : m ∈ h)
    (hn : n ∈ h) {i : Nat} {o o' : Outcome} (hd : m.decision? = some (i, o))
    (hd' : n.decision? = some (i, o')) : m = n := by
  have start := orderly_starting wall
  have once := List.pairwise_iff_getElem.1 (c.decided_once start)
  have serves {n : Moment} (hn : n ∈ h) {o : Outcome} (hd : n.decision? = some (i, o)) :
      n.Serves i := by
    obtain ⟨orderly, head⟩ := c.orderly_at start hn
    obtain ⟨_, _, s, -⟩ := Moment.serving_of_decision orderly head hd
    exact s.serves
  obtain ⟨a, ha, rfl⟩ := List.getElem_of_mem hm
  obtain ⟨b, hb, rfl⟩ := List.getElem_of_mem hn
  rcases Nat.lt_trichotomy a b with lt | rfl | lt
  · exact absurd (serves hn hd') (once a b ha hb lt i o hd)
  · rfl
  · exact absurd (serves hm hd) (once b a hb ha lt i o' hd')

/-- No wait ends before its timer. -/
theorem never_early (c : Course ok (starting wall) h w) {n : Moment} (hn : n ∈ h) {i : Nat}
    {delay : Span} (ha : (i, .ok delay) ∈ n.answers) : ∃ m ∈ h, m.decision? = some (i, .ok delay) ∧
      (m.world.clock.now.later delay.onTimer).nanos ≤ n.world.clock.now.nanos := by
  have start := orderly_starting wall
  obtain ⟨h₁, h₂, rfl, c', rest, hr⟩ := c.before hn
  have o := c'.orderly start
  have head : n.world.ready.head? = some n.task := by rw [hr]; rfl
  rcases Moment.serving_or_idle o head with ⟨j, a, cell, s⟩ | idle
  · rw [s.answers] at ha
    obtain ⟨rfl, exit⟩ := Exit.decided_of_answers ha
    have zero : delay = .zero := by
      rw [exit, Exit.answers] at ha
      split at ha
      · assumption
      · simp at ha
    refine ⟨n, by simp, by rw [s.decision?, exit]; rfl, ?_⟩
    rw [zero]
    exact Nat.le_refl _
  · obtain ⟨delay', task, hp, e⟩ := idle.answers _ ha
    cases e
    obtain ⟨nonzero, m, hm, hd⟩ := c'.decision_of_waiting hp
    refine ⟨m, List.mem_append_left _ hm, hd, ?_⟩
    have k := c'.timely
    obtain ⟨a, hi, hp'⟩ := phase?_eq_some_iff.1 hp
    have running : n.world.running := by
      by_contra stopped
      have done := k.ended stopped i (Array.getElem?_eq_some_iff.1 hi).1
      rw [Done, hp] at done
      cases done
    rcases k.waits running m hm i delay hd nonzero with ⟨-, timer | due⟩ | ⟨done, -⟩
    · rw [task] at head
      exact absurd rfl (o.no_timer head timer)
    · exact Instant.le_of_millisUp_le k.origin_le due
    · rw [Done, hp] at done
      cases done

/-- Whoever does not have to wait is answered as it is decided. -/
theorem at_once (c : Course ok (starting wall) h w) {m : Moment} (hm : m ∈ h) {i : Nat}
    {o : Outcome} (hd : m.decision? = some (i, o)) (now : ∀ delay, o = .ok delay → delay = .zero) :
    (i, o) ∈ m.answers := by
  obtain ⟨orderly, head⟩ := c.orderly_at (orderly_starting wall) hm
  obtain ⟨a, cell, s, he⟩ := Moment.serving_of_decision orderly head hd
  rw [s.answers]
  cases hx : (a.passage cell m.world.clock).exit with
  | held => simp [hx, Exit.outcome?] at he
  | failed => simp_all [Exit.outcome?, Exit.answers]
  | decided outcome =>
    obtain rfl : outcome = o := by simpa [hx, Exit.outcome?] using he
    cases outcome with
    | error => simp [Exit.answers]
    | ok delay => simp [Exit.answers, now delay rfl]

end Course

/-! ### Sessions -/

/-- The millisecond from which the delay of a request that is admitted in a turn has
    passed. -/
def Moment.dueInFull (m : Moment) (delay : Span) : Nat :=
  (m.world.clock.now.later delay).millisUp

/-- That a wait is over, but the delay has not passed. -/
def Moment.CutShort (m : Moment) (delay : Span) (now : Instant) : Prop :=
  m.due delay ≤ now.millisDown ∧ now.millisDown < m.dueInFull delay

/-- No wait is cut short that is within the range of timers. -/
theorem Moment.CutShort.longestTimer_lt {m : Moment} {delay : Span} {now : Instant}
    (h : m.CutShort delay now) : Span.longestTimer.nanos < delay.nanos := by
  refine Nat.lt_of_not_le fun le => ?_
  have := h.1
  rw [Moment.due, Span.onTimer_of_le le] at this
  exact Nat.lt_irrefl _ (Nat.lt_of_lt_of_le h.2 this)

theorem Moment.due_le_dueInFull (m : Moment) (delay : Span) : m.due delay ≤ m.dueInFull delay := by
  have := delay.onTimer_le
  simp only [due, dueInFull, Instant.millisUp, Instant.later]
  omega

/-- That those requests have no answer that wait, each until its delay is over by a
    measure of it. -/
def PendsUntil (due : Moment → Span → Nat) (h : List Moment) (last : World) : Prop :=
  ∀ i, last.Pending i ↔ ∃ m ∈ h, ∃ delay, delay ≠ .zero ∧ m.decision? = some (i, .ok delay) ∧
    last.clock.now.millisDown < due m delay

/-- That no request of a session is left behind, or let through before its timer, given
    its history and its last world. -/
structure Released (h : List Moment) (last : World) : Prop where
  /-- Where no gate holds, all stripes are free. -/
  lines : last.Opened → ∀ l, last.line l = []
  /-- Nobody is at a gate then. -/
  parked : last.Opened → ∀ c, last.parked c = []
  /-- All requests are decided. -/
  decided : last.Opened → ∀ a ∈ last.admissions, a.phase.isDecided
  /-- Those have no answer whose timers are still to come. -/
  pending : last.Opened → last.running → PendsUntil Moment.due h last
  /-- They are those whose delay has not passed, just if no wait is cut short. -/
  pending_in_full : last.Opened → last.running → (PendsUntil Moment.dueInFull h last ↔
    ∀ m ∈ h, ∀ i delay, m.decision? = some (i, .ok delay) → ¬ m.CutShort delay last.clock.now)
  /-- Nobody is let through before its timer. -/
  never_early : ∀ n ∈ h, ∀ i delay, (i, .ok delay) ∈ n.answers →
    ∃ m ∈ h, m.decision? = some (i, .ok delay) ∧
      (m.world.clock.now.later delay.onTimer).nanos ≤ n.world.clock.now.nanos
  /-- Whoever does not have to wait is answered as it is decided. -/
  at_once : ∀ m ∈ h, ∀ i o, m.decision? = some (i, o) → (∀ delay, o = .ok delay → delay = .zero) →
    (i, o) ∈ m.answers

namespace World

instance (w : World) : Decidable w.Opened :=
  inferInstanceAs (Decidable (∀ cell ∈ w.caches, ∀ kind, cell.gate kind ≠ .hold))

variable {w : World}

/-- Where nobody is in line or in its critical section, all stripes are free. -/
theorem Orderly.line_eq_nil (o : w.Orderly) (outside : ∀ {i : Nat} {a : Admission},
    w.admissions[i]? = some a → a.phase.stage = 0 ∨ a.phase.stage = 3) (l : LockId) :
    w.line l = [] := by
  refine List.eq_nil_iff_forall_not_mem.2 fun i hi => ?_
  obtain ⟨a, ha, -, begun, undecided⟩ := o.mem_line.1 hi
  have := outside ha
  omega

theorem Orderly.parked_eq_nil (o : w.Orderly) (outside : ∀ {i : Nat} {a : Admission},
    w.admissions[i]? = some a → a.phase.stage = 0 ∨ a.phase.stage = 3) (c : Nat) :
    w.parked c = [] := by
  refine List.eq_nil_iff_forall_not_mem.2 fun i hi => ?_
  obtain ⟨a, ha, -, held⟩ := o.parked_held hi
  have := outside ha
  cases hp : a.phase <;> simp_all [HeldAt, Phase.stage]

/-- Where no gate holds, those are pending whose timers are still to come. -/
theorem pends_until_due {h : List Moment} {wall : Int} {ok : World → Step → Prop}
    (c : Course ok (starting wall) h w) (settled : w.ready = []) (running : w.running)
    (decided : ∀ {i : Nat} {a : Admission}, w.admissions[i]? = some a → a.phase.stage = 3) :
    PendsUntil Moment.due h w := by
  have k := c.timely
  have o := c.orderly (orderly_starting wall)
  intro i
  constructor
  · rintro ⟨there, undone⟩
    have hi := Array.getElem?_eq_getElem there
    have stage := decided hi
    have placed := o.placed hi
    -- Who has no answer and cannot go on has a timer.
    cases hp : w.admissions[i].phase with
    | waiting delay =>
      simp only [Placed, hp, queued, settled, List.count_nil, Nat.zero_add] at placed
      have timed : .admission i ∈ w.timers.map Timer.task :=
        List.count_pos_iff.1 (Nat.lt_of_lt_of_eq Nat.zero_lt_one placed.1.symm)
      obtain ⟨t, ht, own⟩ := List.mem_map.1 timed
      obtain ⟨m, hm, delay, nonzero, hd, e, due⟩ := k.timer t ht i own
      exact ⟨m, hm, delay, nonzero, hd, by rwa [← e]⟩
    | finished => exact absurd (by rw [Done, phase?_eq hi, hp]) undone
    | issued | inLine | beforeLookup | beforeStore => simp [hp, Phase.stage] at stage
  · rintro ⟨m, hm, delay, nonzero, hd, due⟩
    rcases k.waits running m hm i delay hd nonzero with ⟨hp, -⟩ | ⟨-, past⟩
    · obtain ⟨a, ha, -⟩ := phase?_eq_some_iff.1 hp
      exact ⟨(Array.getElem?_eq_some_iff.1 ha).1, by simp [Done, hp]⟩
    · exact absurd due (Nat.not_lt_of_le past)

/-- Those are pending whose delays have not passed, just if no wait is cut short. -/
theorem pends_in_full_iff {h : List Moment} {wall : Int} {ok : World → Step → Prop}
    (c : Course ok (starting wall) h w) (pends : PendsUntil Moment.due h w) :
    PendsUntil Moment.dueInFull h w ↔ ∀ m ∈ h, ∀ i delay, m.decision? = some (i, .ok delay) →
      ¬ m.CutShort delay w.clock.now := by
  constructor
  · rintro full m hm i delay hd ⟨past, short⟩
    have nonzero : delay ≠ .zero := by
      rintro rfl
      exact Nat.lt_irrefl _ (Nat.lt_of_lt_of_le short past)
    obtain ⟨n, hn, delay', -, hd', due⟩ := (pends i).1 ((full i).2 ⟨m, hm, delay, nonzero, hd, short⟩)
    obtain rfl := c.decision_unique hm hn hd hd'
    rw [hd] at hd'
    cases hd'
    omega
  · intro none i
    rw [pends i]
    constructor
    · rintro ⟨m, hm, delay, nonzero, hd, due⟩
      exact ⟨m, hm, delay, nonzero, hd, Nat.lt_of_lt_of_le due (m.due_le_dueInFull delay)⟩
    · rintro ⟨m, hm, delay, nonzero, hd, short⟩
      exact ⟨m, hm, delay, nonzero, hd, Nat.lt_of_not_le fun past => none m hm i delay hd ⟨past, short⟩⟩

/-- In every session requests are let through as soon as their timers have come due,
    and no earlier. -/
theorem released (wall : Int) (steps : List Step) :
    Released ((starting wall).history steps) ((starting wall).final steps) := by
  have start := orderly_starting wall
  have settled := final_settled start (tidy_starting wall) rfl steps
  have c := course_history ((starting wall).along_true steps)
  generalize (starting wall).history steps = h at c
  generalize (starting wall).final steps = last at c settled
  have o := c.orderly start
  have owned := c.owned start (owned_starting wall)
  have decided (opened : last.Opened) {i : Nat} {a : Admission} (hi : last.admissions[i]? = some a) :
      a.phase.stage = 3 := o.decided_of_settled owned settled hi fun kind => opened.holds _ kind
  constructor
  case lines => exact fun opened => o.line_eq_nil fun hi => .inr (decided opened hi)
  case parked => exact fun opened => o.parked_eq_nil fun hi => .inr (decided opened hi)
  case decided =>
    intro opened a ha
    obtain ⟨i, hi, rfl⟩ := Array.getElem_of_mem ha
    exact (Phase.isDecided_iff _).2 (decided opened (Array.getElem?_eq_getElem hi))
  case pending => exact fun opened running => pends_until_due c settled running (decided opened)
  case pending_in_full =>
    exact fun opened running => pends_in_full_iff c (pends_until_due c settled running (decided opened))
  case never_early => exact fun n hn i delay => c.never_early hn
  case at_once => exact fun m hm i o => c.at_once hm

/-- Two requests at a limiter of sixty years, and thirty years. -/
def sixtyYears : List Step :=
  [.cache "c",
    .limiter "a" "c" (.spans (.ofParts 1892160000 0) (.ofParts 1892160000 0)) (.ok .zero),
    .throttle "a" (.plain "x") 2, .advance .longestTimer]

theorem sixtyYears_run :
    let h := (starting 0).history sixtyYears
    let last := (starting 0).final sixtyYears
    last.running ∧ last.Opened ∧ last.phase? 1 = some .finished ∧
      last.clock.now = Instant.origin.later .longestTimer ∧
      ∃ m ∈ h, m.world.clock.now = .origin ∧
        m.decision? = some (1, .ok (.ofParts 1892160000 0)) := by
  decide +kernel

/-- A delay beyond the range of timers is not waited for. -/
theorem wait_cut_short : ¬ ∀ (wall : Int) (steps : List Step),
    let h := (starting wall).history steps
    let last := (starting wall).final steps
    last.Opened → last.running → PendsUntil Moment.dueInFull h last := by
  intro full
  obtain ⟨running, opened, done, now, m, hm, start, hd⟩ := sixtyYears_run
  have short : ((starting 0).final sixtyYears).clock.now.millisDown <
      m.dueInFull (.ofParts 1892160000 0) := by
    rw [now, Moment.dueInFull, start]
    decide
  have pending := (full 0 sixtyYears opened running 1).2 ⟨m, hm, _, by decide, hd, short⟩
  exact pending.2 done

end World

end Turnstile
