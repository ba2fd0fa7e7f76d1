import Turnstile.Proofs.Session.Reach

/-!
# Turns that serve a request

A turn *serves* a request if it goes through its critical section in it, as far as
it gets. Such a turn is the passage of the request, with the line of its stripe
behind it (`Moment.Serving`). All other turns are idle as far as caches and
decisions go (`Moment.Idle`): a request gets in line, a wait is over, or a cache is
purged.

* `serving_or_idle`: every turn of an orderly world is one or the other;
* `Serving.calls`, `Serving.phase`, `Serving.admission_after`: what is seen of a turn that serves
  a request.
-/

namespace Turnstile

/-- What becomes of the phase of an admission in a turn that does not serve it. -/
inductive Phase.Idles : Phase → Phase → Prop
  | stays {p : Phase} : Idles p p
  | joins : Idles .issued .inLine
  | ends {delay : Span} : Idles (.waiting delay) .finished

namespace World

variable {w : World} {i : Nat} {a : Admission}

theorem phase?_eq_some_iff {p : Phase} :
    w.phase? i = some p ↔ ∃ a, w.admissions[i]? = some a ∧ a.phase = p := by
  rw [phase?, Option.map_eq_some_iff]

theorem phase?_eq (hi : w.admissions[i]? = some a) : w.phase? i = some a.phase := by
  rw [phase?, hi]
  rfl

theorem phase?_setPhase (hi : w.admissions[i]? = some a) (phase : Phase) :
    (w.setPhase i phase).phase? i = some phase := by
  simp only [phase?, setPhase, Array.getElem?_modify, if_pos, hi]
  rfl

/-- To set a phase changes that only. -/
theorem admission_setPhase {w' : World} {phase : Phase} {j : Nat} {b : Admission}
    (h : w'.admissions = w.admissions.modify i fun b => { b with phase })
    (hb : w'.admissions[j]? = some b) : ∃ a, w.admissions[j]? = some a ∧
      b = { a with phase := if i = j then phase else a.phase } := by
  rw [h, Array.getElem?_modify] at hb
  split at hb
  · obtain ⟨a, ha, rfl⟩ := Option.map_eq_some_iff.1 hb
    exact ⟨a, ha, by simp [*]⟩
  · exact ⟨b, hb, by simp [*]⟩

theorem admission_idles {w' : World} {phase : Phase} {j : Nat} {b : Admission}
    (h : w'.admissions = w.admissions.modify i fun b => { b with phase })
    (hi : w.admissions[i]? = some a) (hp : a.phase.Idles phase)
    (hb : w'.admissions[j]? = some b) : ∃ a, w.admissions[j]? = some a ∧
      b = { a with phase := b.phase } ∧ a.phase.Idles b.phase := by
  obtain ⟨a', ha', e⟩ := admission_setPhase h hb
  refine ⟨a', ha', by rw [e], ?_⟩
  rw [e]
  simp only []
  split
  · subst j
    obtain rfl : a = a' := by
      rw [hi] at ha'
      exact Option.some.inj ha'
    exact hp
  · exact .stays

end World

namespace Moment

open World

/-- That a turn is one in the critical section of a request: it is not decided yet,
    and does not only get in line. -/
def Serves (m : Moment) (i : Nat) : Prop :=
  m.task = .admission i ∧ (m.world.phase? i).any (!·.isDecided) ∧ m.after.phase? i ≠ some .inLine

/-- A passage of a request through its critical section. -/
structure Serving (m : Moment) (i : Nat) (a : Admission) (cell : CacheCell) : Prop where
  task : m.task = .admission i
  admission : m.world.admissions[i]? = some a
  cache : m.world.caches[a.cache]? = some cell
  holder : ∃ rest, m.world.Holder i a rest
  after : ∃ lines, m.after = (m.world.begun lines).pass i a (a.passage cell m.world.clock)

/-- A turn that serves no request. -/
structure Idle (m : Moment) : Prop where
  serves : ∀ i, ¬ m.Serves i
  calls : m.calls = []
  answers : ∀ x ∈ m.answers, ∃ delay, m.task = .admission x.1 ∧
    m.world.phase? x.1 = some (.waiting delay) ∧ x.2 = .ok delay
  clock : m.after.clock = m.world.clock
  cell : ∀ {c : Nat} {cell : CacheCell}, m.world.caches[c]? = some cell →
    m.after.caches[c]? = some cell ∨ m.after.caches[c]? = some (cell.purged m.world.clock.now)
  admission : ∀ {i : Nat} {b : Admission}, m.after.admissions[i]? = some b →
    ∃ a, m.world.admissions[i]? = some a ∧ b = { a with phase := b.phase } ∧
      a.phase.Idles b.phase

variable {m : Moment} {i : Nat} {a : Admission} {cell : CacheCell}

theorem calls_eq_nil (h : m.after.trace.calls = m.world.trace.calls) : m.calls = [] := by
  simp [Moment.calls, h]

theorem answers_eq_nil (h : m.after.trace.answers = m.world.trace.answers) : m.answers = [] := by
  simp [Moment.answers, h]

theorem Serving.phase (s : m.Serving i a cell) :
    m.after.phase? i = some (a.passage cell m.world.clock).exit.phase := by
  obtain ⟨lines, h⟩ := s.after
  rw [h, phase?, admissions_pass, Array.getElem?_modify, if_pos rfl,
    show (m.world.begun lines).admissions[i]? = _ from s.admission]
  rfl

theorem Serving.calls (s : m.Serving i a cell) :
    m.calls = (a.passage cell m.world.clock).calls := by
  obtain ⟨lines, h⟩ := s.after
  rw [Moment.calls, h, calls_pass, Array.toList_appendList]
  exact List.drop_left

theorem Serving.serves (s : m.Serving i a cell) : m.Serves i := by
  obtain ⟨rest, t⟩ := s.holder
  refine ⟨s.task, ?_, ?_⟩
  · rw [phase?_eq s.admission]
    have := t.undecided
    cases hp : a.phase <;> simp_all [Phase.isDecided, Phase.stage]
  · rw [s.phase]
    intro h
    have two : 2 ≤ (a.passage cell m.world.clock).exit.phase.stage :=
      Admission.two_le_stage_passage
    rw [Option.some.inj h] at two
    cases two
    contradiction

/-- The other admissions are as they were. -/
theorem Serving.admission_after (s : m.Serving i a cell) {j : Nat} {b : Admission}
    (hb : m.after.admissions[j]? = some b) : ∃ a', m.world.admissions[j]? = some a' ∧
      b = { a' with
        phase := if i = j then (a.passage cell m.world.clock).exit.phase else a'.phase } := by
  obtain ⟨lines, h⟩ := s.after
  have e : m.after.admissions = m.world.admissions.modify i fun b =>
      { b with phase := (a.passage cell m.world.clock).exit.phase } := by
    rw [h, admissions_pass]
    rfl
  exact admission_setPhase e hb

theorem Serving.admission_self (s : m.Serving i a cell) : m.after.admissions[i]? =
    some { a with phase := (a.passage cell m.world.clock).exit.phase } := by
  obtain ⟨lines, h⟩ := s.after
  rw [h, admissions_pass, Array.getElem?_modify, if_pos rfl,
    show (m.world.begun lines).admissions[i]? = _ from s.admission]
  rfl

theorem Serving.admission_other (s : m.Serving i a cell) {j : Nat} (hj : i ≠ j) :
    m.after.admissions[j]? = m.world.admissions[j]? := by
  obtain ⟨lines, h⟩ := s.after
  rw [h, admissions_pass, Array.getElem?_modify, if_neg hj]
  rfl

/-- Who is served is the admission that has its turn. -/
theorem Serves.eq {j : Nat} (h : m.Serves j) (ht : m.task = .admission i) : j = i := by
  have := h.1
  rw [ht] at this
  cases this
  rfl

/-- Who is served is not decided. -/
theorem Serves.undecided (h : m.Serves i) (hi : m.world.admissions[i]? = some a) :
    a.phase.stage ≠ 3 := by
  intro decided
  have undecided := h.2.1
  rw [phase?_eq hi] at undecided
  simp [(Phase.isDecided_iff _).2 decided] at undecided

/-- A turn of a sweeper may purge a cache, and no more. -/
theorem Idle.of_sweeper {j : Nat} (ht : m.task = .sweeper j) : m.Idle := by
  have after := after_of_sweeper ht
  rcases m.world.taken.sweeperTurn_cases j with e | ⟨s, -, swept⟩
  · rw [e] at after
    have answers : m.answers = [] := answers_eq_nil (by rw [after]; rfl)
    constructor
    case serves => exact fun i h => by simp [Serves, ht] at h
    case calls => exact calls_eq_nil (by rw [after]; rfl)
    case answers => simp [answers]
    case clock => rw [after]; rfl
    case cell =>
      intro c cell hc
      rw [after]
      exact .inl hc
    case admission =>
      intro i b hb
      rw [after] at hb
      exact ⟨b, hb, rfl, .stays⟩
  · rw [← after] at swept
    obtain ⟨ha, -, -, hk, hc, hw⟩ := swept.same
    have answers : m.answers = [] := answers_eq_nil hw
    constructor
    case serves => exact fun i h => by simp [Serves, ht] at h
    case calls => exact calls_eq_nil hc
    case answers => simp [answers]
    case clock => exact hk
    case cell => exact fun hc => swept.cell hc
    case admission =>
      intro i b hb
      rw [ha] at hb
      exact ⟨b, hb, rfl, .stays⟩

/-- To get in line behind others is no passage. -/
theorem Idle.of_join (ht : m.task = .admission i) (hi : m.world.admissions[i]? = some a)
    (hp : a.phase = .issued) {line : List Nat}
    (hw : m.after = (m.world.taken.setLine a.lock line).setPhase i .inLine) : m.Idle := by
  have answers : m.answers = [] := answers_eq_nil (by rw [hw]; rfl)
  constructor
  case serves =>
    intro j h
    refine h.2.2 ?_
    rw [h.eq ht, hw]
    exact phase?_setPhase hi _
  case calls => exact calls_eq_nil (by rw [hw]; rfl)
  case answers => simp [answers]
  case clock => rw [hw]; rfl
  case cell =>
    intro c cell hc
    rw [hw]
    exact .inl hc
  case admission =>
    intro j b hb
    rw [hw] at hb
    exact admission_idles rfl hi (by rw [hp]; exact .joins) hb

/-- To end a wait is no passage: the request is decided before it. -/
theorem Idle.of_finishWait (ht : m.task = .admission i) (hi : m.world.admissions[i]? = some a)
    {delay : Span} (hp : a.phase = .waiting delay)
    (hw : m.after = m.world.taken.finishWait i a delay) : m.Idle := by
  constructor
  case serves =>
    intro j h
    have undecided := h.2.1
    rw [h.eq ht, phase?_eq hi] at undecided
    simp [hp, Phase.isDecided] at undecided
  case calls => exact calls_eq_nil (by rw [hw]; rfl)
  case answers =>
    intro x hx
    obtain rfl : x = (i, .ok delay) := by
      simpa [Moment.answers, hw, finishWait, answer, log, setPhase, taken] using hx
    exact ⟨delay, ht, by rw [phase?_eq hi, hp], rfl⟩
  case clock => rw [hw]; rfl
  case cell =>
    intro c cell hc
    rw [hw]
    exact .inl hc
  case admission =>
    intro j b hb
    rw [hw] at hb
    exact admission_idles rfl hi (by rw [hp]; exact .ends) hb

/-- A turn serves a request by a passage through its critical section, or is idle. -/
theorem serving_or_idle (o : m.world.Orderly) (hr : m.world.ready.head? = some m.task) :
    (∃ i a cell, m.Serving i a cell) ∨ m.Idle := by
  cases ht : m.task with
  | sweeper j => exact .inr (.of_sweeper ht)
  | admission i =>
    obtain ⟨a, hi, turn⟩ := admissionTurn_cases o hr ht
    generalize hw : m.after = w' at turn
    cases turn with
    | @works cell rest lines hc t b => exact .inl ⟨i, a, cell, ht, hi, hc, ⟨rest, t⟩, lines, hw⟩
    | joins hp hl => exact .inr (.of_join ht hi hp hw)
    | ends hp => exact .inr (.of_finishWait ht hi hp hw)

/-- Whoever is served goes through its critical section. -/
theorem Serves.serving (h : m.Serves i) (o : m.world.Orderly)
    (hr : m.world.ready.head? = some m.task) : ∃ a cell, m.Serving i a cell := by
  rcases serving_or_idle o hr with ⟨j, a, cell, s⟩ | idle
  · obtain rfl := h.eq s.task
    exact ⟨a, cell, s⟩
  · exact absurd h (idle.serves i)

/-- An admission after a turn was there before, in some phase. -/
theorem admission_before (o : m.world.Orderly) (hr : m.world.ready.head? = some m.task) {j : Nat}
    {b : Admission} (hb : m.after.admissions[j]? = some b) :
    ∃ a, m.world.admissions[j]? = some a ∧ b = { a with phase := b.phase } := by
  rcases serving_or_idle o hr with ⟨i, a, cell, s⟩ | idle
  · obtain ⟨a', ha', e⟩ := s.admission_after hb
    exact ⟨a', ha', by rw [e]⟩
  · obtain ⟨a, ha, e, -⟩ := idle.admission hb
    exact ⟨a, ha, e⟩

end Moment

theorem World.owned_starting (wall : Int) : (World.starting wall).Owned :=
  ⟨fun hi => by simp [World.starting] at hi⟩

/-- In the worlds of a course every admission is one of its limiter, if it is so at the
    start. -/
theorem Course.owned {ok : World → Step → Prop} {w₀ w : World} {h : List Moment}
    (c : Course ok w₀ h w) (start : w₀.Orderly) (owned : w₀.Owned) : w.Owned := by
  induction c with
  | start => exact owned
  | act c _ ih =>
    constructor
    intro i b hb
    rcases World.admission_acted hb with ⟨a, ha, hab, -⟩ | ⟨-, _, _, _, l, cell, rfl, _, hl, rfl⟩
    · obtain ⟨cell, hl, h⟩ := ih.limiter ha
      rw [hab.owner, hab.limiter, hab.cache]
      exact ⟨cell, World.limiter_acted hl, h⟩
    · exact ⟨cell, World.limiter_acted hl, rfl, rfl⟩
  | @turn h w task rest c hr ih =>
    have head : w.ready.head? = some task := by rw [hr]; rfl
    have o := c.orderly start
    constructor
    intro i b hb
    obtain ⟨a, ha, e⟩ := Moment.admission_before (m := ⟨w, task⟩) o head hb
    obtain ⟨cell, hl, h⟩ := ih.limiter ha
    rw [e]
    have limiters : (Moment.after ⟨w, task⟩).limiters = w.limiters := o.limiters_turn head
    rw [limiters]
    exact ⟨cell, hl, h⟩

end Turnstile
