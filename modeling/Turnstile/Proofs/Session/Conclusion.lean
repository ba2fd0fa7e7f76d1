import Turnstile.Proofs.Session.Granting

/-!
# Conclusions

A request is decided once, and for what it read and found. The turn at the end of
its critical section *concludes* it: with the outcome of the decision that its
limiter makes on the value it found under its key and the time it read when it got
its stripe.

A request that is kept waiting, at a gate or for its slot, carries the result so
far in its phase. What the phase says is so in every world of a session
(`Course.grounded`), so nothing of it is lost or made up on the way.

* `Course.concluded_of_waiting`: who waits for a slot was admitted with that delay;
* `Course.decided_once`: who is decided is not served again.
-/

namespace Turnstile

/-- The answer to a request that is so decided. -/
def Decision.outcome (d : Decision) : Outcome :=
  match d.reservation? with
  | some r => .ok r.delay
  | none => .error (d.refusal?.getD .aborted)

/-- No decision is to abort a request. -/
theorem Decision.outcome_ne_aborted (d : Decision) : d.outcome ≠ .error .aborted := by
  cases d <;> simp [outcome, reservation?, refusal?]

theorem Decision.outcome_of_reservation {d : Decision} {r : Reservation}
    (h : d.reservation? = some r) : d.outcome = .ok r.delay := by
  simp [outcome, h]

namespace Moment

/-! ### What a request knows -/

/-- That a request enters its critical section in a turn. -/
def Enters (m : Moment) (i : Nat) : Prop :=
  m.Serves i ∧ (m.world.phase? i).any (·.stage ≤ 1)

/-- That a request gets its stripe at a reading of the wall clock. -/
def Reads (h : List Moment) (i : Nat) (reading : Timestamp) : Prop :=
  ∃ m ∈ h, m.Enters i ∧ m.world.clock.read = .ok reading

/-- That a request is told what is under a key. -/
def Finds (h : List Moment) (i : Nat) (key : Key) (found : Option Value) : Prop :=
  ∃ m ∈ h, m.Serves i ∧ ∃ cache, .lookup cache key found ∈ m.calls

/-- That a decision is the one on a request, for what it finds under its key and the
    time it reads. -/
def Judged (h : List Moment) (i : Nat) (a : Admission) (d : Decision) : Prop :=
  ∃ reading found, Reads h i reading ∧ Finds h i a.key found ∧ d = a.limiter.decide found reading

/-- That the critical section of a request ends with the outcome of the decision on
    it. -/
def Concluded (h : List Moment) (i : Nat) (o : Outcome) : Prop :=
  ∃ m ∈ h, ∃ a cell d, m.Serving i a cell ∧
    (a.passage cell m.world.clock).exit = .decided o ∧ Judged h i a d ∧ d.outcome = o

/-- What the phase of a request says of it. -/
def Grounded (h : List Moment) (i : Nat) (a : Admission) : Phase → Prop
  | .issued | .inLine | .finished => True
  | .beforeLookup reading => Reads h i reading
  | .beforeStore d r => Judged h i a d ∧ d.reservation? = some r
  | .waiting delay => Concluded h i (.ok delay)

section

variable {h : List Moment} {i : Nat} {a : Admission} {d : Decision}

theorem Reads.append {reading : Timestamp} (k : Reads h i reading) (h' : List Moment) :
    Reads (h ++ h') i reading := by
  obtain ⟨m, hm, k⟩ := k
  exact ⟨m, List.mem_append_left _ hm, k⟩

theorem Judged.append (k : Judged h i a d) (h' : List Moment) : Judged (h ++ h') i a d := by
  obtain ⟨reading, found, hr, ⟨m, hm, hf⟩, hd⟩ := k
  exact ⟨reading, found, hr.append h', ⟨m, List.mem_append_left _ hm, hf⟩, hd⟩

theorem Concluded.append {o : Outcome} (k : Concluded h i o) (h' : List Moment) :
    Concluded (h ++ h') i o := by
  obtain ⟨m, hm, a, cell, d, s, he, hd, ho⟩ := k
  exact ⟨m, List.mem_append_left _ hm, a, cell, d, s, he, hd.append h', ho⟩

theorem Grounded.append {p : Phase} (k : Grounded h i a p) (h' : List Moment) :
    Grounded (h ++ h') i a p := by
  cases p with
  | issued | inLine | finished => trivial
  | beforeLookup => exact Reads.append k h'
  | beforeStore => exact ⟨k.1.append h', k.2⟩
  | waiting => exact Concluded.append k h'

/-- It depends on the limiter and the key only. -/
theorem Grounded.of_eq {b : Admission} {p : Phase} (k : Grounded h i a p)
    (hl : b.limiter = a.limiter) (hk : b.key = a.key) : Grounded h i b p := by
  cases p with
  | issued | inLine | finished => trivial
  | beforeLookup => exact k
  | beforeStore =>
    obtain ⟨⟨reading, found, hr, hf, hd⟩, k⟩ := k
    exact ⟨⟨reading, found, hr, by rwa [hk], by rwa [hl]⟩, k⟩
  | waiting => exact k

end

end Moment

/-! ### How passages end -/

/-- That a passage ends as what its request knows demands. -/
def Exit.Grounded (h : List Moment) (i : Nat) (a : Admission) : Exit → Prop
  | .held phase => Moment.Grounded h i a phase
  | .failed _ => True
  | .decided o => ∃ d, Moment.Judged h i a d ∧ d.outcome = o

namespace Admission

variable {a : Admission} {cell : CacheCell} {h : List Moment} {i : Nat}

theorem storing_grounded {now : Instant} {d : Decision} {r : Reservation}
    (hd : Moment.Judged h i a d) (hr : d.reservation? = some r) :
    (a.storing cell now d r).exit.Grounded h i a := by
  rcases a.storing_cases cell now d r with ⟨-, e, -⟩ | ⟨-, _, e, -⟩ | ⟨-, e, -⟩
  · rw [e]
    exact ⟨hd, hr⟩
  · rw [e]
    trivial
  · rw [e]
    exact ⟨d, hd, Decision.outcome_of_reservation hr⟩

/-- The call of a lookup that is let through is shown. -/
theorem lookingUp_grounded {now : Instant} {reading : Timestamp} (hr : Moment.Reads h i reading)
    (hf : ∀ found, .lookup cell.name a.key found ∈ (a.lookingUp cell now reading).calls →
      Moment.Finds h i a.key found) :
    (a.lookingUp cell now reading).exit.Grounded h i a := by
  rcases a.lookingUp_cases cell now reading with
    ⟨-, e, -⟩ | ⟨-, e, -⟩ | ⟨-, ⟨hd, e, -, hc⟩ | ⟨r, hd, e, -, hc⟩⟩
  · rw [e]
    exact hr
  · rw [e]
    trivial
  · rw [e]
    refine ⟨_, ⟨reading, _, hr, hf _ (by rw [hc]; exact .head _), rfl⟩, ?_⟩
    simp [Decision.outcome, hd]
  · rw [e]
    exact storing_grounded ⟨reading, _, hr, hf _ (by rw [hc]; exact .head _), rfl⟩ hd

end Admission

namespace Moment

open World

variable {m : Moment} {h : List Moment} {i : Nat} {a : Admission} {cell : CacheCell}

/-- A turn that serves a request ends as what the request knows demands. -/
theorem Serving.grounded (s : m.Serving i a cell) (k : Grounded h i a a.phase) :
    (a.passage cell m.world.clock).exit.Grounded (h ++ [m]) i a := by
  have last : m ∈ h ++ [m] := by simp
  have finds (found : Option Value)
      (hf : .lookup cell.name a.key found ∈ (a.passage cell m.world.clock).calls) :
      Finds (h ++ [m]) i a.key found :=
    ⟨m, last, s.serves, cell.name, by rwa [s.calls]⟩
  have entering (early : a.phase.stage ≤ 1)
      (hp : a.passage cell m.world.clock = a.entering cell m.world.clock) :
      (a.passage cell m.world.clock).exit.Grounded (h ++ [m]) i a := by
    have enters : m.Enters i := ⟨s.serves, by simp [phase?_eq s.admission, early]⟩
    rw [hp] at finds ⊢
    unfold Admission.entering at finds ⊢
    cases hr : m.world.clock.read with
    | error => trivial
    | ok reading =>
      rw [hr] at finds
      exact Admission.lookingUp_grounded ⟨m, last, enters, hr⟩ finds
  cases hp : a.phase with
  | issued | inLine => exact entering (by simp [hp, Phase.stage]) (by simp [Admission.passage, hp])
  | beforeLookup reading =>
    have e : a.passage cell m.world.clock = a.lookingUp cell m.world.clock.now reading := by
      simp [Admission.passage, hp]
    rw [hp] at k
    rw [e] at finds ⊢
    exact Admission.lookingUp_grounded (Reads.append k _) finds
  | beforeStore d r =>
    have e : a.passage cell m.world.clock = a.storing cell m.world.clock.now d r := by
      simp [Admission.passage, hp]
    rw [hp] at k
    rw [e]
    exact Admission.storing_grounded (k.1.append _) k.2
  | waiting | finished =>
    obtain ⟨rest, t⟩ := s.holder
    have := t.undecided
    simp [hp, Phase.stage] at this

/-- The turn that ends the critical section of a request concludes it. -/
theorem Serving.concluded (s : m.Serving i a cell) (k : Grounded h i a a.phase) {o : Outcome}
    (he : (a.passage cell m.world.clock).exit = .decided o) : Concluded (h ++ [m]) i o := by
  have grounded := s.grounded k
  rw [he] at grounded
  obtain ⟨d, hd, ho⟩ := grounded
  exact ⟨m, by simp, a, cell, d, s, he, hd, ho⟩

theorem Serving.grounded_after (s : m.Serving i a cell) (k : Grounded h i a a.phase) :
    Grounded (h ++ [m]) i a (a.passage cell m.world.clock).exit.phase := by
  have grounded := s.grounded k
  cases he : (a.passage cell m.world.clock).exit with
  | held phase =>
    rw [he] at grounded
    exact grounded
  | failed => trivial
  | decided o =>
    cases o with
    | error => trivial
    | ok delay =>
      by_cases hd : delay = .zero
      · simp only [Exit.phase, hd, if_true]
        trivial
      · simp only [Exit.phase, hd, if_false]
        exact s.concluded k he

/-- A decision of a turn is the end of its passage. -/
theorem serving_of_decision (o : m.world.Orderly) (hr : m.world.ready.head? = some m.task)
    {out : Outcome} (hd : m.decision? = some (i, out)) : ∃ a cell, m.Serving i a cell ∧
      (a.passage cell m.world.clock).exit.outcome? = some out := by
  rcases serving_or_idle o hr with ⟨j, a, cell, s⟩ | idle
  · rw [s.decision?] at hd
    obtain ⟨out', he, e⟩ := Option.map_eq_some_iff.1 hd
    cases e
    exact ⟨a, cell, s, he⟩
  · rw [idle.decision?] at hd
    cases hd

end Moment

/-! ### Courses -/

namespace Course

open World Moment

variable {ok : World → Step → Prop} {w₀ w : World} {h : List Moment}

/-- In a session the phases say what is so. -/
theorem grounded {wall : Int} (c : Course ok (starting wall) h w) {i : Nat} {a : Admission}
    (hi : w.admissions[i]? = some a) : Grounded h i a a.phase := by
  have start := orderly_starting wall
  induction c generalizing i a with
  | start => simp [starting] at hi
  | act c _ ih =>
    rcases admission_acted hi with ⟨b, hb, hba, hp⟩ | ⟨-, _, _, _, _, _, -, -, -, rfl⟩
    · rcases hp with hp | ⟨-, hp⟩
      · rw [hp]
        exact (ih hb).of_eq hba.limiter hba.key
      · rw [hp]
        trivial
    · trivial
  | @turn h w task rest c hr ih =>
    have head : w.ready.head? = some task := by rw [hr]; rfl
    rcases serving_or_idle (m := ⟨w, task⟩) (c.orderly start) head with ⟨j, b, cell, s⟩ | idle
    · obtain ⟨a', ha', rfl⟩ := s.admission_after hi
      have before := ih ha'
      by_cases hj : j = i
      · subst hj
        obtain rfl : b = a' := Option.some.inj (s.admission.symm.trans ha')
        rw [if_pos rfl]
        exact (s.grounded_after before).of_eq rfl rfl
      · rw [if_neg hj]
        exact (before.append _).of_eq rfl rfl
    · obtain ⟨b, hb, e, idles⟩ := idle.admission hi
      have before := (ih hb).append [⟨w, task⟩]
      rw [e]
      generalize a.phase = p at idles
      generalize b.phase = q at idles before
      cases idles with
      | stays => exact before.of_eq rfl rfl
      | joins | ends => trivial

/-- Who waits for its slot was admitted with the delay that it waits. -/
theorem concluded_of_waiting {wall : Int} (c : Course ok (starting wall) h w) {i : Nat}
    {delay : Span} (hi : w.phase? i = some (.waiting delay)) : Concluded h i (.ok delay) := by
  obtain ⟨a, ha, hp⟩ := phase?_eq_some_iff.1 hi
  have grounded := c.grounded ha
  rw [hp] at grounded
  exact grounded

/-- Who is decided stays so. -/
theorem decided (c : Course ok w₀ h w) (start : w₀.Orderly) {m : Moment} (hm : m ∈ h) {i : Nat}
    {o : Outcome} (hd : m.decision? = some (i, o)) :
    ∃ a, w.admissions[i]? = some a ∧ a.phase.stage = 3 := by
  obtain ⟨orderly, head⟩ := c.orderly_at start hm
  obtain ⟨a, cell, s, he⟩ := serving_of_decision orderly head hd
  obtain ⟨b, hb, hab⟩ := (c.evolves_after start hm).becomes s.admission_self
  have decided : 3 ≤ b.phase.stage :=
    Nat.le_trans (Nat.le_of_eq (Exit.stage_of_outcome he).symm) hab.stage_le
  exact ⟨b, hb, Nat.le_antisymm b.phase.stage_le decided⟩

/-- Who is decided is not served again. -/
theorem decided_once (c : Course ok w₀ h w) (start : w₀.Orderly) :
    h.Pairwise fun m n => ∀ i o, m.decision? = some (i, o) → ¬ n.Serves i := by
  induction c with
  | start => exact .nil
  | act _ _ ih => exact ih
  | @turn h w task rest c hr ih =>
    have head : w.ready.head? = some task := by rw [hr]; rfl
    refine List.pairwise_append.2 ⟨ih, List.pairwise_singleton .., fun m hm n hn i o hd hs => ?_⟩
    cases List.mem_singleton.1 hn
    obtain ⟨a, ha, decided⟩ := c.decided start hm hd
    exact hs.undecided ha decided

end Course

end Turnstile
