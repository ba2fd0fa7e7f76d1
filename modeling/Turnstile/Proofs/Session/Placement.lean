import Turnstile.Proofs.Session.History

/-!
# Where admissions are

An admission that is not answered is in exactly one place: in the queue, parked at
its cache, with a timer, or in the line of its stripe behind others. Which one it
may be is said by its phase (`World.Placed`), and together with what the lines hold
and how the requests of a stripe follow each other, this is what every turn and
every step keeps (`World.Orderly`).

The requests of a stripe come through it one by one in the order in which they were
issued: if one of them is in its critical section, all before it are decided
(`Orderly.order`).

* `Shift`: what a turn of an admission does to the places;
* `Orderly.shift`: a shift keeps the order, if it hands the stripe on properly.
-/

namespace Turnstile

/-- How far an admission has come: issued, in line, in its critical section, or
    decided. -/
def Phase.stage : Phase → Nat
  | .issued => 0
  | .inLine => 1
  | .beforeLookup _ | .beforeStore _ _ => 2
  | .waiting _ | .finished => 3

theorem Phase.isDecided_iff (p : Phase) : p.isDecided ↔ p.stage = 3 := by
  cases p <;> simp [isDecided, stage]

theorem Phase.stage_le (p : Phase) : p.stage ≤ 3 := by
  cases p <;> simp [stage]

instance (p : CallKind → Prop) [DecidablePred p] : Decidable (∀ kind, p kind) :=
  decidable_of_iff (p .lookup ∧ p .store)
    ⟨fun h => fun | .lookup => h.1 | .store => h.2, fun h => ⟨h _, h _⟩⟩

/-- Whether a task is an admission. -/
def Task.isAdmission : Task → Bool
  | .admission _ => true
  | .sweeper _ => false

/-- What of an admission decides where it may be. -/
def Admission.place (a : Admission) : LockId × Nat × Phase := (a.lock, a.cache, a.phase)

namespace World

/-! ### Places -/

/-- How often an admission stands in the queue. -/
def queued (w : World) (i : Nat) : Nat := w.ready.count (.admission i)

/-- How many timers an admission has. -/
def timed (w : World) (i : Nat) : Nat := (w.timers.map Timer.task).count (.admission i)

/-- The admissions parked at a cache. -/
def parked (w : World) (c : Nat) : List Nat := (w.caches[c]?.map CacheCell.parked).getD []

/-- Whether a gate of a cache holds. -/
def holds (w : World) (c : Nat) (kind : CallKind) : Bool :=
  (w.caches[c]?.map fun cell => cell.gate kind) == some .hold

/-- The places of an admission are those of its phase. -/
def Placed (w : World) (i : Nat) (a : Admission) : Prop :=
  match a.phase with
  | .issued => w.queued i = 1 ∧ w.timed i = 0 ∧ (w.parked a.cache).count i = 0
  | .inLine =>
    w.queued i = (if (w.line a.lock).head? = some i then 1 else 0) ∧ w.timed i = 0 ∧
      (w.parked a.cache).count i = 0
  | .beforeLookup _ | .beforeStore _ _ =>
    w.queued i + (w.parked a.cache).count i = 1 ∧ w.timed i = 0
  | .waiting _ => w.queued i + w.timed i = 1 ∧ (w.parked a.cache).count i = 0
  | .finished => w.queued i = 0 ∧ w.timed i = 0 ∧ (w.parked a.cache).count i = 0

/-- A gate holds an admission that is in the given phase. -/
def HeldAt (w : World) (c : Nat) : Phase → Prop
  | .beforeLookup _ => w.holds c .lookup
  | .beforeStore _ _ => w.holds c .store
  | _ => False

/-- Two tasks that stand in the queue one after the other: if both are requests
    that have not had a turn, the first was issued before the second. -/
def InOrder (w : World) (s t : Task) : Prop :=
  ∀ i j, s = .admission i → t = .admission j → w.phase? i = some .issued →
    w.phase? j = some .issued → i < j

/-- The admissions are where they belong. -/
structure Orderly (w : World) : Prop where
  cache_lt : ∀ {i : Nat} {a : Admission}, w.admissions[i]? = some a → a.cache < w.caches.size
  cell_cache_lt : ∀ {l : Nat} {cell : LimiterCell}, w.limiters[l]? = some cell →
    cell.cache < w.caches.size
  sorted : ∀ l, (w.line l).Pairwise (· < ·)
  /-- In the line of a stripe are the requests for it that have come to it and are
      not decided. -/
  mem_line : ∀ {l i}, i ∈ w.line l ↔
    ∃ a, w.admissions[i]? = some a ∧ a.lock = l ∧ 1 ≤ a.phase.stage ∧ a.phase.stage ≤ 2
  /-- A request does not get to a stripe before those issued before it, and not into
      its critical section before they are decided. -/
  order : ∀ {i j : Nat} {a b : Admission}, i < j → w.admissions[i]? = some a →
    w.admissions[j]? = some b → a.lock = b.lock →
    (1 ≤ b.phase.stage → 1 ≤ a.phase.stage) ∧ (2 ≤ b.phase.stage → a.phase.stage = 3)
  fifo : w.ready.Pairwise w.InOrder
  placed : ∀ {i a}, w.admissions[i]? = some a → w.Placed i a
  absent : ∀ {i}, w.admissions[i]? = none → w.queued i = 0 ∧ w.timed i = 0
  parked_held : ∀ {c i}, i ∈ w.parked c →
    ∃ a, w.admissions[i]? = some a ∧ a.cache = c ∧ w.HeldAt c a.phase

theorem orderly_starting (wall : Int) : (starting wall).Orderly where
  cache_lt h := by simp [starting] at h
  cell_cache_lt h := by simp [starting] at h
  sorted l := by simp [starting, line]
  mem_line := by simp [starting, line]
  order _ h := by simp [starting] at h
  fifo := .nil
  placed h := by simp [starting] at h
  absent _ := ⟨rfl, rfl⟩
  parked_held h := by simp [starting, parked] at h

theorem count_map_admission (is : List Nat) (i : Nat) :
    (is.map Task.admission).count (.admission i) = is.count i := by
  induction is with
  | nil => rfl
  | cons j rest ih => simp [List.count_cons, ih]

/-! ### Shifts -/

/-- What a turn of an admission does to the places: it goes on to a phase, the line
    of its stripe becomes another, some admissions are put into the queue, and it may
    be given a timer or be parked. -/
structure Shift (w w' : World) (i : Nat) (a : Admission) (phase : Phase)
    (line next sleeping held : List Nat) : Prop where
  admissions : w'.admissions = w.admissions.modify i fun b => { b with phase }
  limiters : w'.limiters = w.limiters
  size : w'.caches.size = w.caches.size
  line : ∀ l, w'.line l = if l = a.lock then line else w.line l
  ready : ∃ rest, w.ready = .admission i :: rest ∧ w'.ready = rest ++ next.map .admission
  timed : ∀ j, w'.timed j = w.timed j + sleeping.count j
  parked : ∀ c, w'.parked c = w.parked c ++ if c = a.cache then held else []
  holds : ∀ c kind, w'.holds c kind = w.holds c kind

/-- What makes a shift a proper one. -/
structure Proper (w : World) (i : Nat) (a : Admission) (phase : Phase)
    (line next sleeping held : List Nat) : Prop where
  stage_le : a.phase.stage ≤ phase.stage
  begun : 1 ≤ phase.stage
  joined : phase = .inLine → a.phase = .issued
  /-- All requests for the stripe that were issued before have come to it, and are
      decided if this one is in its critical section. -/
  first : ∀ {j : Nat} {b : Admission}, j < i → w.admissions[j]? = some b → b.lock = a.lock →
    1 ≤ b.phase.stage ∧ (2 ≤ phase.stage → b.phase.stage = 3)
  sorted : line.Pairwise (· < ·)
  mem_line : ∀ j, j ∈ line ↔
    (j = i ∧ phase.stage ≤ 2) ∨ (j ≠ i ∧ j ∈ w.line a.lock)
  /-- The stripe goes to the next in line. -/
  handed : ∀ j, j ≠ i → (if (w.line a.lock).head? = some j then 1 else 0) + next.count j =
    if line.head? = some j then 1 else 0
  next_inLine : ∀ j ∈ next, j ≠ i ∧
    ∃ b, w.admissions[j]? = some b ∧ b.lock = a.lock ∧ b.phase = .inLine
  sleeping_le : ∀ j, j ≠ i → j ∉ sleeping ∧ j ∉ held
  placed : match phase with
    | .issued => False
    | .inLine => line.head? ≠ some i ∧ sleeping = [] ∧ held = []
    | .beforeLookup _ | .beforeStore _ _ => sleeping = [] ∧ held = [i]
    | .waiting _ => sleeping = [i] ∧ held = []
    | .finished => sleeping = [] ∧ held = []
  held_at : i ∈ held → w.HeldAt a.cache phase

/-- That a turn of an admission is a proper shift. -/
def Shifts (w w' : World) (i : Nat) (a : Admission) : Prop :=
  ∃ phase line next sleeping held, Shift w w' i a phase line next sleeping held ∧
    Proper w i a phase line next sleeping held

namespace Shift

variable {w w' : World} {i : Nat} {a : Admission} {phase : Phase}
  {line next sleeping held : List Nat}

theorem getElem?_eq (s : Shift w w' i a phase line next sleeping held) (j : Nat) :
    w'.admissions[j]? =
      if i = j then (w.admissions[j]?).map fun b => { b with phase } else w.admissions[j]? := by
  rw [s.admissions, Array.getElem?_modify]

theorem queued_eq (s : Shift w w' i a phase line next sleeping held) (j : Nat) :
    w'.queued j + (if i = j then 1 else 0) = w.queued j + next.count j := by
  obtain ⟨rest, hr, hr'⟩ := s.ready
  rw [queued, queued, hr, hr', List.count_append, List.count_cons, count_map_admission]
  by_cases h : i = j <;> simp [h]
  omega

theorem heldAt_iff (s : Shift w w' i a phase line next sleeping held) (c : Nat) (p : Phase) :
    w'.HeldAt c p ↔ w.HeldAt c p := by
  cases p <;> simp [HeldAt, s.holds]

end Shift

theorem Orderly.queued_le_one {w : World} (o : w.Orderly) (i : Nat) : w.queued i ≤ 1 := by
  cases hi : w.admissions[i]? with
  | none => have := o.absent hi; omega
  | some a =>
    have := o.placed hi
    unfold Placed at this
    split at this
    · omega
    · split at this <;> omega
    all_goals omega

/-- An admission that is first in the queue is nowhere else. -/
theorem Orderly.alone {w : World} (o : w.Orderly) {i : Nat} {a : Admission} {rest : List Task}
    (hi : w.admissions[i]? = some a) (hr : w.ready = .admission i :: rest) :
    w.queued i = 1 ∧ w.timed i = 0 ∧ (w.parked a.cache).count i = 0 := by
  have one : 1 ≤ w.queued i := by simp [queued, hr]
  have := o.placed hi
  unfold Placed at this
  split at this
  · omega
  · split at this <;> omega
  all_goals omega

section

variable {w w' : World} {i : Nat} {a : Admission} {phase : Phase}
  {line next sleeping held : List Nat}

/-- The admissions after a shift: one has gone on, the others are as they were. -/
theorem Shift.getElem?_eq_some_iff (s : Shift w w' i a phase line next sleeping held)
    (hi : w.admissions[i]? = some a) {j : Nat} {b : Admission} :
    w'.admissions[j]? = some b ↔
      (j = i ∧ b = { a with phase }) ∨ (j ≠ i ∧ w.admissions[j]? = some b) := by
  rw [s.getElem?_eq]
  by_cases h : i = j
  · subst h
    simp [hi, eq_comm]
  · simp [h, Ne.symm h]

/-- After a proper shift, in the lines are the requests that have come to them and are
    not decided. -/
theorem Orderly.mem_line_shift (o : w.Orderly) (hi : w.admissions[i]? = some a)
    (s : Shift w w' i a phase line next sleeping held)
    (p : Proper w i a phase line next sleeping held) {l : LockId} {j : Nat} :
    j ∈ w'.line l ↔ ∃ b, w'.admissions[j]? = some b ∧ b.lock = l ∧ 1 ≤ b.phase.stage ∧
      b.phase.stage ≤ 2 := by
  have old := o.mem_line (l := l) (i := j)
  simp only [s.getElem?_eq_some_iff hi]
  rw [s.line]
  by_cases hl : l = a.lock
  · subst hl
    rw [if_pos rfl, p.mem_line, old]
    constructor
    · rintro (⟨rfl, hp⟩ | ⟨hj, b, hb⟩)
      · exact ⟨_, .inl ⟨rfl, rfl⟩, rfl, p.begun, hp⟩
      · exact ⟨b, .inr ⟨hj, hb.1⟩, hb.2⟩
    · rintro ⟨b, ⟨rfl, rfl⟩ | ⟨hj, hb⟩, hl, hp⟩
      · exact .inl ⟨rfl, hp.2⟩
      · exact .inr ⟨hj, b, hb, hl, hp⟩
  · rw [if_neg hl, old]
    constructor
    · rintro ⟨b, hb, hbl, hp⟩
      have hj : j ≠ i := by
        rintro rfl
        rw [hi] at hb
        exact hl (by rw [← hbl, Option.some.inj hb])
      exact ⟨b, .inr ⟨hj, hb⟩, hbl, hp⟩
    · rintro ⟨b, ⟨rfl, rfl⟩ | ⟨-, hb⟩, hbl, hp⟩
      · exact absurd hbl.symm hl
      · exact ⟨b, hb, hbl, hp⟩

/-- After a proper shift, the requests in the queue that have not had a turn are in
    order. -/
theorem Orderly.fifo_shift (o : w.Orderly) (hi : w.admissions[i]? = some a)
    (s : Shift w w' i a phase line next sleeping held)
    (p : Proper w i a phase line next sleeping held) : w'.ready.Pairwise w'.InOrder := by
  obtain ⟨rest, hr, hr'⟩ := s.ready
  have issued {j : Nat} (h : w'.phase? j = some .issued) : w.phase? j = some .issued ∧ j ≠ i := by
    obtain ⟨b, hb, hp⟩ := Option.map_eq_some_iff.1 h
    rcases (s.getElem?_eq_some_iff hi).1 hb with ⟨rfl, rfl⟩ | ⟨hj, hb⟩
    · have := p.begun
      simp only at hp
      simp [hp, Phase.stage] at this
    · exact ⟨Option.map_eq_some_iff.2 ⟨b, hb, hp⟩, hj⟩
  have old := o.fifo
  rw [hr, List.pairwise_cons] at old
  rw [hr', List.pairwise_append]
  -- Who is put into the queue has had a turn, so it stands in order behind anybody.
  have fresh {j : Nat} (hj : j ∈ next) : w.phase? j ≠ some .issued := by
    obtain ⟨-, b, hb, -, hp⟩ := p.next_inLine j hj
    simp [phase?, hb, hp]
  refine ⟨old.2.imp fun h j k hj hk pj pk => h j k hj hk (issued pj).1 (issued pk).1, ?_, ?_⟩
  · refine List.pairwise_of_forall_mem_list fun t ht u _ j k hj _ pj _ => ?_
    obtain ⟨j', hj', rfl⟩ := List.mem_map.1 ht
    cases hj
    exact absurd (issued pj).1 (fresh hj')
  · intro t _ u hu j k _ hk _ pk
    obtain ⟨k', hk', rfl⟩ := List.mem_map.1 hu
    cases hk
    exact absurd (issued pk).1 (fresh hk')

/-- Whose turn it was is where it belongs after a proper shift. -/
theorem Orderly.placed_shift_self (o : w.Orderly) (hi : w.admissions[i]? = some a)
    (s : Shift w w' i a phase line next sleeping held)
    (p : Proper w i a phase line next sleeping held) : w'.Placed i { a with phase } := by
  obtain ⟨rest, hr, -⟩ := s.ready
  have queued := s.queued_eq i
  have timed := s.timed i
  have alone := o.alone hi hr
  have absent : next.count i = 0 :=
    List.count_eq_zero.2 fun h => (p.next_inLine i h).1 rfl
  have placed := p.placed
  rw [if_pos rfl] at queued
  cases phase with
  | issued => exact placed.elim
  | inLine =>
    obtain ⟨hh, rfl, rfl⟩ := placed
    have : (w'.line a.lock).head? ≠ some i := by rwa [s.line, if_pos rfl]
    have : (w'.line ({ a with phase := Phase.inLine } : Admission).lock).head? ≠ some i := this
    simp [Placed, s.parked, this] at timed ⊢
    omega
  | beforeLookup | beforeStore | waiting | finished =>
    obtain ⟨rfl, rfl⟩ := placed
    simp [Placed, s.parked] at timed ⊢
    omega

/-- The others are where they belong after a proper shift. -/
theorem Orderly.placed_shift_other (o : w.Orderly)
    (s : Shift w w' i a phase line next sleeping held)
    (p : Proper w i a phase line next sleeping held) {j : Nat} {b : Admission} (hj' : j ≠ i)
    (hj : w.admissions[j]? = some b) : w'.Placed j b := by
  have queued := s.queued_eq j
  have timed := s.timed j
  have still := p.sleeping_le j hj'
  have hs : sleeping.count j = 0 := List.count_eq_zero.2 still.1
  have parked : (w'.parked b.cache).count j = (w.parked b.cache).count j := by
    rw [s.parked]
    split
    · simp [List.count_eq_zero.2 still.2]
    · simp
  have fresh (h : ¬ (b.lock = a.lock ∧ b.phase = .inLine)) : next.count j = 0 := by
    refine List.count_eq_zero.2 fun hm => h ?_
    obtain ⟨-, b', hb', hl⟩ := p.next_inLine j hm
    rw [hj] at hb'
    rw [Option.some.inj hb']
    exact hl
  have old := o.placed hj
  rw [if_neg (Ne.symm hj')] at queued
  unfold Placed at old ⊢
  cases hb : b.phase with
  | inLine =>
    simp only [hb] at old ⊢
    rw [s.line]
    -- In line for the same stripe, it is in the queue just if it is the first now.
    by_cases hl : b.lock = a.lock
    · have := p.handed j hj'
      rw [if_pos hl]
      rw [hl] at old
      omega
    · have := fresh fun h => hl h.1
      rw [if_neg hl]
      omega
  | _ =>
    have := fresh fun h => by simp [hb] at h
    simp only [hb] at old ⊢
    omega

/-- A proper shift keeps the admissions where they belong. -/
theorem Orderly.shift (o : w.Orderly) (hi : w.admissions[i]? = some a)
    (s : Shift w w' i a phase line next sleeping held)
    (p : Proper w i a phase line next sleeping held) : w'.Orderly where
  cache_lt hj := by
    rw [s.size]
    rcases (s.getElem?_eq_some_iff hi).1 hj with ⟨-, rfl⟩ | ⟨-, hj⟩
    · have := o.cache_lt hi
      exact this
    · exact o.cache_lt hj
  cell_cache_lt hl := by
    rw [s.limiters] at hl
    rw [s.size]
    exact o.cell_cache_lt hl
  sorted l := by
    rw [s.line]
    split
    · exact p.sorted
    · exact o.sorted l
  mem_line := o.mem_line_shift hi s p
  order {j k b c} hjk hj hk hl := by
    rcases (s.getElem?_eq_some_iff hi).1 hj with ⟨rfl, rfl⟩ | ⟨hj', hj⟩ <;>
      rcases (s.getElem?_eq_some_iff hi).1 hk with ⟨rfl, rfl⟩ | ⟨hk', hk⟩
    · omega
    · have old := o.order hjk hi hk hl
      have := p.stage_le
      have := p.begun
      have := phase.stage_le
      exact ⟨fun _ => p.begun, fun h => by have := old.2 h; simp only; omega⟩
    · have := p.first hjk hj hl
      exact ⟨fun _ => this.1, this.2⟩
    · exact o.order hjk hj hk hl
  fifo := o.fifo_shift hi s p
  placed {j b} hj := by
    rcases (s.getElem?_eq_some_iff hi).1 hj with ⟨rfl, rfl⟩ | ⟨hj', hj⟩
    · exact o.placed_shift_self hi s p
    · exact o.placed_shift_other s p hj' hj
  absent {j} hj := by
    rw [s.getElem?_eq] at hj
    have hj' : i ≠ j := by
      rintro rfl
      simp [hi] at hj
    rw [if_neg hj'] at hj
    have queued := s.queued_eq j
    rw [if_neg hj'] at queued
    have fresh : next.count j = 0 := by
      refine List.count_eq_zero.2 fun hm => ?_
      obtain ⟨-, b, hb, -⟩ := p.next_inLine j hm
      rw [hj] at hb
      cases hb
    have hs : sleeping.count j = 0 := List.count_eq_zero.2 (p.sleeping_le j (Ne.symm hj')).1
    have := s.timed j
    have := o.absent hj
    omega
  parked_held {c j} hj := by
    rw [s.parked, List.mem_append] at hj
    obtain ⟨rest, hr, -⟩ := s.ready
    rcases hj with hj | hj
    · obtain ⟨b, hb, hc, hh⟩ := o.parked_held hj
      refine ⟨b, (s.getElem?_eq_some_iff hi).2 (.inr ⟨?_, hb⟩), hc, (s.heldAt_iff _ _).2 hh⟩
      -- The admission that has its turn was in the queue, and so not parked.
      rintro rfl
      rw [hi] at hb
      obtain rfl := Option.some.inj hb
      have := (o.alone hi hr).2.2
      rw [hc] at this
      exact List.count_eq_zero.1 this hj
    · split at hj
      · rename_i hc
        have e : j = i := Decidable.byContradiction fun h => (p.sleeping_le j h).2 hj
        subst e hc
        exact ⟨_, (s.getElem?_eq_some_iff hi).2 (.inl ⟨rfl, rfl⟩), rfl,
          (s.heldAt_iff _ _).2 (p.held_at hj)⟩
      · simp at hj

end

end World

end Turnstile
