import Turnstile.Proofs.Session.Placement
import Turnstile.Proofs.Session.Sweeping

/-!
# Order is kept

Every turn and every step of a session keeps the admissions where they belong
(`World.Orderly`), so this holds in every world of a session.

* `Orderly.shifts`: an admission gets in line behind others, or goes through its
  critical section as the first in line (`Holder`), or ends its wait. Each is a proper
  shift;
* `Orderly.frame`: turns of sweepers and most steps leave the places of the
  admissions as they are (`Frame`);
* `Orderly.turn`: so every turn keeps the admissions where they belong.
-/

namespace Turnstile

/-! ### Ends of critical sections -/

theorem Exit.phase_of_outcome {e : Exit} {o : Outcome} (h : e.outcome? = some o) :
    (e.phase = .finished ∧ ∀ i now, e.timers i now = []) ∨
      ∃ delay, e.phase = .waiting delay ∧
        ∀ i now, ∃ due, e.timers i now = [⟨due, .admission i⟩] := by
  match e, h with
  | .failed _, _ => exact .inl ⟨rfl, fun _ _ => rfl⟩
  | .decided (.error _), _ => exact .inl ⟨rfl, fun _ _ => rfl⟩
  | .decided (.ok delay), _ =>
    by_cases hd : delay = .zero
    · simp [phase, timers, hd]
    · simp [phase, timers, hd]

/-- Who leaves its critical section is decided. -/
theorem Exit.stage_of_outcome {e : Exit} {o : Outcome} (h : e.outcome? = some o) :
    e.phase.stage = 3 := by
  rcases phase_of_outcome h with ⟨hp, -⟩ | ⟨delay, hp, -⟩ <;> rw [hp] <;> rfl

/-- Who is not held before its lookup or its store is decided. -/
theorem Exit.two_le_stage {e : Exit} (h : ∀ {phase}, e = .held phase → phase.stage = 2) :
    2 ≤ e.phase.stage := by
  cases he : e.outcome? with
  | none =>
    obtain ⟨phase, rfl⟩ := Exit.held_of_outcome he
    exact Nat.le_of_eq (h rfl).symm
  | some o => exact Nat.le_of_lt (Nat.lt_of_lt_of_eq (by decide) (stage_of_outcome he).symm)

namespace Admission

variable {a : Admission} {cell : CacheCell} {phase : Phase}

/-- That a gate keeps an admission waiting, which is then in the phase before it. -/
def KeptAt (cell : CacheCell) : Phase → Prop
  | .beforeLookup _ => cell.lookupGate = .hold
  | .beforeStore _ _ => cell.storeGate = .hold
  | _ => False

theorem storing_held {now : Instant} {d : Decision} {r : Reservation}
    (h : (a.storing cell now d r).exit = .held phase) :
    phase = .beforeStore d r ∧ cell.storeGate = .hold := by
  unfold storing at h
  cases hg : cell.storeGate with
  | hold =>
    simp only [hg, Exit.held.injEq] at h
    exact ⟨h.symm, rfl⟩
  | fail => simp [hg] at h
  | pass =>
    simp only [hg] at h
    split at h <;> simp at h

theorem carryingOut_held {now : Instant} {d : Decision}
    (h : (a.carryingOut cell now d).exit = .held phase) :
    ∃ r, d.reservation? = some r ∧ phase = .beforeStore d r ∧ cell.storeGate = .hold := by
  unfold carryingOut at h
  cases hd : d.reservation? with
  | none => simp [hd] at h
  | some r =>
    simp only [hd] at h
    exact ⟨r, rfl, storing_held h⟩

theorem lookingUp_held {now : Instant} {reading : Timestamp}
    (h : (a.lookingUp cell now reading).exit = .held phase) : KeptAt cell phase := by
  unfold lookingUp at h
  cases hg : cell.lookupGate with
  | hold =>
    simp only [hg, Exit.held.injEq] at h
    rw [← h]
    exact hg
  | fail => simp [hg] at h
  | pass =>
    simp only [hg] at h
    obtain ⟨r, -, rfl, hs⟩ := carryingOut_held h
    exact hs

/-- An admission is kept waiting only by a gate that holds. -/
theorem passage_held {clock : Clock} (h : (a.passage cell clock).exit = .held phase) :
    KeptAt cell phase := by
  unfold passage at h
  split at h
  · exact lookingUp_held h
  · obtain ⟨rfl, hs⟩ := storing_held h
    exact hs
  · unfold entering at h
    split at h
    · simp at h
    · exact lookingUp_held h

theorem KeptAt.stage (h : KeptAt cell phase) : phase.stage = 2 := by
  cases phase <;> simp_all [KeptAt, Phase.stage]

/-- After a passage an admission is in its critical section still, or decided. -/
theorem two_le_stage_passage {clock : Clock} : 2 ≤ (a.passage cell clock).exit.phase.stage :=
  Exit.two_le_stage fun held => (passage_held held).stage

end Admission

namespace World

/-! ### What does not touch the places -/

section

variable (w : World) (c d : Nat) (calls : List Call) (notices : List Notice) (store : Store)

@[simp] theorem parked_setStore : (w.setStore c store).parked d = w.parked d := by
  simp only [parked, setStore, Array.getElem?_modify]
  split <;> cases w.caches[d]? <;> rfl

@[simp] theorem holds_setStore (kind : CallKind) :
    (w.setStore c store).holds d kind = w.holds d kind := by
  simp only [holds, setStore, Array.getElem?_modify]
  split <;> cases w.caches[d]? <;> cases kind <;> rfl

@[simp] theorem parked_exhibit :
    (w.exhibit c calls notices store).parked d = w.parked d :=
  parked_setStore ..

@[simp] theorem holds_exhibit (kind : CallKind) :
    (w.exhibit c calls notices store).holds d kind = w.holds d kind :=
  holds_setStore ..

@[simp] theorem line_exhibit (l : LockId) :
    (w.exhibit c calls notices store).line l = w.line l := rfl

end

theorem heldAt_of_keptAt {w : World} {c : Nat} {cell : CacheCell} {phase : Phase}
    (hc : w.caches[c]? = some cell) (h : Admission.KeptAt cell phase) : w.HeldAt c phase := by
  cases phase <;> simp_all [Admission.KeptAt, HeldAt, holds, CacheCell.gate]

/-! ### Turns in the critical section -/

/-- An admission that goes through its critical section in its turn: all requests for
    its stripe that were issued before are decided, and it is the first in line. -/
structure Holder (w : World) (i : Nat) (a : Admission) (rest : List Nat) : Prop where
  undecided : a.phase.stage ≤ 2
  before : ∀ {j : Nat} {b : Admission}, j < i → w.admissions[j]? = some b → b.lock = a.lock →
    b.phase.stage = 3
  line : (a.phase ≠ .issued ∧ w.line a.lock = i :: rest) ∨
    (a.phase = .issued ∧ w.line a.lock = [] ∧ rest = [])

/-- The world in the turn of an admission, once it is the first in line. -/
def begun (w : World) (lines : Table LockId (List Nat)) : World := { w.taken with lines }

/-- The lines once an admission is the first in one. -/
def Heads (w : World) (i : Nat) (a : Admission) (rest : List Nat)
    (lines : Table LockId (List Nat)) : Prop :=
  ∀ l, (w.begun lines).line l = if l = a.lock then i :: rest else w.line l

section

variable {w : World} {i : Nat} {a : Admission} {rest : List Nat}
  {lines : Table LockId (List Nat)}

/-- A request gets its first turn after those issued before. -/
theorem Orderly.begun_before (o : w.Orderly) (hr : w.ready.head? = some (.admission i))
    (hi : w.phase? i = some .issued) {j : Nat} {b : Admission} (hj : j < i)
    (hb : w.admissions[j]? = some b) : 1 ≤ b.phase.stage := by
  refine Nat.pos_of_ne_zero fun hs => ?_
  have hp : b.phase = .issued := by
    cases hp : b.phase <;> simp_all [Phase.stage]
  obtain ⟨tail, ht⟩ : ∃ tail, w.ready = .admission i :: tail := by
    cases hw : w.ready with
    | nil => simp [hw] at hr
    | cons t tail =>
      rw [hw] at hr
      exact ⟨tail, by rw [Option.some.inj hr]⟩
  -- One that has not had a turn stands in the queue, and behind the first one.
  have placed := o.placed hb
  simp only [Placed, hp, queued, ht, List.count_cons] at placed
  have mem : Task.admission j ∈ tail := by
    refine List.count_pos_iff.1 ?_
    have : i ≠ j := by omega
    simp [this] at placed
    omega
  have fifo := o.fifo
  rw [ht, List.pairwise_cons] at fifo
  have := fifo.1 _ mem i j rfl rfl hi (by simp [phase?, hb, hp])
  omega

/-- Who is in its critical section, or can go on in the line, is the first in line. -/
theorem Orderly.head_line (o : w.Orderly) (hi : w.admissions[i]? = some a)
    (h : a.phase.stage = 2 ∨ (a.phase = .inLine ∧ .admission i ∈ w.ready)) :
    (w.line a.lock).head? = some i := by
  rcases h with hp | ⟨hp, hr⟩
  · have mem : i ∈ w.line a.lock := o.mem_line.2 ⟨a, hi, rfl, by omega, by omega⟩
    have sorted := o.sorted a.lock
    cases hl : w.line a.lock with
    | nil => simp [hl] at mem
    | cons k rest =>
      rw [hl, List.pairwise_cons] at sorted
      rw [hl, List.mem_cons] at mem
      rcases mem with rfl | mem
      · rfl
      · -- Another one at the head was issued before, and would have to be decided.
        have first : k ∈ w.line a.lock := by simp [hl]
        obtain ⟨b, hb, hbl, -, h2⟩ := o.mem_line.1 first
        have decided := (o.order (sorted.1 i mem) hb hi hbl).2 (by omega)
        omega
  · have one : 1 ≤ w.queued i := List.count_pos_iff.2 hr
    have placed := o.placed hi
    simp only [Placed, hp] at placed
    split at placed
    · assumption
    · omega

/-- The first in line holds its stripe. -/
theorem Orderly.holder_of_head (o : w.Orderly) (hi : w.admissions[i]? = some a)
    (hl : (w.line a.lock).head? = some i) :
    ∃ rest, w.line a.lock = i :: rest ∧ w.Holder i a rest := by
  obtain ⟨rest, hl⟩ := List.head?_eq_some_iff.1 hl
  have mem : i ∈ w.line a.lock := by simp [hl]
  obtain ⟨b, hb, -, h1, h2⟩ := o.mem_line.1 mem
  obtain rfl : a = b := by
    rw [hi] at hb
    exact Option.some.inj hb
  have sorted := o.sorted a.lock
  rw [hl, List.pairwise_cons] at sorted
  refine ⟨rest, hl, h2, fun {j c} hj hc hcl => ?_, .inl ⟨?_, hl⟩⟩
  · -- One issued before has come to the stripe too, but is not in line any more.
    have begun := (o.order hj hc hi hcl).1 h1
    have out : j ∉ w.line a.lock := by
      rw [hl, List.mem_cons, not_or]
      exact ⟨by omega, fun h => by have := sorted.1 j h; omega⟩
    rw [o.mem_line] at out
    exact Nat.le_antisymm c.phase.stage_le
      (Nat.lt_of_not_le fun h => out ⟨c, hc, hcl, begun, h⟩)
  · intro hp
    simp [hp, Phase.stage] at h1

/-- A request whose stripe nobody has gets it in its first turn. -/
theorem Orderly.holder_of_issued (o : w.Orderly) (hi : w.admissions[i]? = some a)
    (hr : w.ready.head? = some (.admission i)) (hp : a.phase = .issued)
    (hl : w.line a.lock = []) : w.Holder i a [] := by
  refine ⟨by simp [hp, Phase.stage], fun {j b} hj hb hbl => ?_, .inr ⟨hp, hl, rfl⟩⟩
  have begun := o.begun_before hr (by simp [phase?, hi, hp]) hj hb
  have out : j ∉ w.line a.lock := by simp [hl]
  rw [o.mem_line] at out
  exact Nat.le_antisymm b.phase.stage_le
    (Nat.lt_of_not_le fun h => out ⟨b, hb, hbl, begun, h⟩)

/-- In line after an admission that is in its critical section are requests that have
    not come to theirs. -/
theorem Orderly.inLine_of_rest (o : w.Orderly) (hi : w.admissions[i]? = some a)
    (t : w.Holder i a rest) {j : Nat} (hj : j ∈ rest) :
    i < j ∧ ∃ b, w.admissions[j]? = some b ∧ b.lock = a.lock ∧ b.phase = .inLine := by
  rcases t.line with ⟨-, hl⟩ | ⟨-, -, hl⟩
  · have sorted := o.sorted a.lock
    rw [hl, List.pairwise_cons] at sorted
    have lt := sorted.1 j hj
    have mem : j ∈ w.line a.lock := by simp [hl, hj]
    obtain ⟨b, hb, hbl, h1, h2⟩ := o.mem_line.1 mem
    refine ⟨lt, b, hb, hbl, ?_⟩
    have decided := (o.order lt hi hb hbl.symm).2
    have := t.undecided
    cases hp : b.phase with
    | inLine => rfl
    | issued | waiting | finished => simp [hp, Phase.stage] at h1 h2
    | beforeLookup | beforeStore =>
      have := decided (by simp [hp, Phase.stage])
      omega
  · simp [hl] at hj

/-- The line without the admission in its critical section. -/
theorem Holder.mem_rest (o : w.Orderly) (hi : w.admissions[i]? = some a)
    (t : w.Holder i a rest) (j : Nat) : j ∈ rest ↔ j ≠ i ∧ j ∈ w.line a.lock := by
  constructor
  · intro hj
    obtain ⟨lt, b, hb, hl, hp⟩ := o.inLine_of_rest hi t hj
    exact ⟨by omega, o.mem_line.2 ⟨b, hb, hl, by simp [hp, Phase.stage]⟩⟩
  · rintro ⟨hj, hm⟩
    rcases t.line with ⟨-, hl⟩ | ⟨-, hl, -⟩
    · rw [hl, List.mem_cons] at hm
      exact hm.resolve_left hj
    · simp [hl] at hm

theorem Holder.sorted (o : w.Orderly) (t : w.Holder i a rest) :
    (i :: rest).Pairwise (· < ·) := by
  rcases t.line with ⟨-, hl⟩ | ⟨-, -, rfl⟩
  · rw [← hl]
    exact o.sorted _
  · simp

/-- Nobody else of the stripe is in its critical section. -/
theorem Holder.stage_lt_two (o : w.Orderly) (hi : w.admissions[i]? = some a)
    (t : w.Holder i a rest) {j : Nat} {b : Admission} (hj : i ≠ j)
    (hb : w.admissions[j]? = some b) (hl : b.lock = a.lock) (undecided : b.phase.stage ≤ 2) :
    b.phase.stage < 2 := by
  refine Nat.lt_of_not_le fun two => ?_
  rcases Nat.lt_or_gt_of_ne hj with lt | lt
  · have := (o.order lt hi hb hl.symm).2 two
    have := t.undecided
    omega
  · have := t.before lt hb hl
    omega

theorem Holder.head_ne (t : w.Holder i a rest) {j : Nat} (hj : j ≠ i) :
    (w.line a.lock).head? ≠ some j := by
  rcases t.line with ⟨-, hl⟩ | ⟨-, hl, -⟩
  · simp [hl, Ne.symm hj]
  · simp [hl]

/-- What is proper for a turn that leaves the critical section. -/
theorem Holder.proper_left (o : w.Orderly) (hi : w.admissions[i]? = some a)
    (t : w.Holder i a rest) {phase : Phase} {sleeping : List Nat} (hp : phase.stage = 3)
    (hs : (phase = .finished ∧ sleeping = []) ∨ ∃ delay, phase = .waiting delay ∧ sleeping = [i]) :
    w.Proper i a phase rest (rest.take 1) sleeping [] where
  stage_le := by rw [hp]; exact a.phase.stage_le
  begun := by omega
  joined h := by rw [h] at hp; cases hp
  first hj hb hl := by
    have := t.before hj hb hl
    exact ⟨by omega, fun _ => this⟩
  sorted := (List.pairwise_cons.1 (t.sorted o)).2
  mem_line j := by
    rw [t.mem_rest o hi, hp]
    simp
  handed j hj := by
    rw [if_neg (t.head_ne hj)]
    cases rest with
    | nil => rfl
    | cons k tail => simp [List.count_cons]
  next_inLine j hj := by
    obtain ⟨lt, b, hb, hl, hp⟩ := o.inLine_of_rest hi t (List.mem_of_mem_take hj)
    exact ⟨by omega, b, hb, hl, hp⟩
  sleeping_le j hj := by
    rcases hs with ⟨-, rfl⟩ | ⟨_, -, rfl⟩ <;> simp [hj]
  placed := by
    rcases hs with ⟨rfl, rfl⟩ | ⟨delay, rfl, rfl⟩ <;> simp
  held_at h := by simp at h

/-- What is proper for a turn that ends at a gate. -/
theorem Holder.proper_held (o : w.Orderly) (hi : w.admissions[i]? = some a)
    (t : w.Holder i a rest) {phase : Phase} (hp : phase.stage = 2) (hh : w.HeldAt a.cache phase) :
    w.Proper i a phase (i :: rest) [] [] [i] where
  stage_le := by rw [hp]; exact t.undecided
  begun := by omega
  joined h := by rw [h] at hp; cases hp
  first hj hb hl := by
    have := t.before hj hb hl
    exact ⟨by omega, fun _ => this⟩
  sorted := t.sorted o
  mem_line j := by
    rw [List.mem_cons, t.mem_rest o hi]
    simp [hp]
  handed j hj := by simp [t.head_ne hj, Ne.symm hj]
  next_inLine j hj := by simp at hj
  sleeping_le j hj := by simp [hj]
  placed := by
    cases phase with
    | beforeLookup | beforeStore => exact ⟨rfl, rfl⟩
    | _ => cases hp
  held_at _ := hh

/-- A turn that leaves the critical section is a shift. -/
theorem shift_left (b : Heads w i a rest lines) (hr : w.ready.head? = some (.admission i))
    (p : Passage) {o : Outcome} (he : p.exit.outcome? = some o) :
    Shift w ((w.begun lines).pass i a p) i a p.exit.phase rest (rest.take 1)
      ((p.exit.timers i w.clock.now).map fun _ => i) [] := by
  have line : ((w.begun lines).exhibit a.cache p.calls p.notices p.store).line a.lock =
      i :: rest := by
    rw [line_exhibit, b, if_pos rfl]
  obtain ⟨tail, ht⟩ := List.head?_eq_some_iff.1 hr
  rw [pass, leave_of_outcome _ _ _ he, line]
  constructor
  case admissions => rfl
  case limiters => rfl
  case size => simp [exhibit, setStore, begun, taken]
  case line =>
    intro l
    simp only [World.line, Table.get?_set]
    split
    · rfl
    · have := b l
      rwa [if_neg ‹_›] at this
  case ready => exact ⟨tail, ht, by simp [exhibit, setStore, begun, taken, ht]⟩
  case timed =>
    intro j
    simp only [World.timed, List.count_append, List.map_append]
    rcases Exit.phase_of_outcome he with ⟨-, hn⟩ | ⟨delay, -, hd⟩
    · simp [hn, exhibit, setStore, begun, taken]
    · obtain ⟨_, h⟩ := hd i w.clock.now
      simp [h, exhibit, setStore, begun, taken, List.count_cons]
  case parked =>
    intro c
    rw [← show (w.begun lines).parked c = w.parked c from rfl,
      ← parked_exhibit (w.begun lines) a.cache c p.calls p.notices p.store]
    simp [World.parked]
  case holds =>
    intro c kind
    rw [← show (w.begun lines).holds c kind = w.holds c kind from rfl,
      ← holds_exhibit (w.begun lines) a.cache c p.calls p.notices p.store]
    rfl

/-- A turn that ends at a gate is a shift. -/
theorem shift_held (b : Heads w i a rest lines) (hr : w.ready.head? = some (.admission i))
    (hc : a.cache < w.caches.size) (p : Passage) {phase : Phase} (he : p.exit = .held phase) :
    Shift w ((w.begun lines).pass i a p) i a phase (i :: rest) [] [] [i] := by
  obtain ⟨tail, ht⟩ := List.head?_eq_some_iff.1 hr
  rw [pass, he, leave_held]
  constructor
  case admissions => rfl
  case limiters => rfl
  case size => simp [exhibit, setStore, begun, taken]
  case line => exact b
  case ready => exact ⟨tail, ht, by simp [exhibit, setStore, begun, taken, ht]⟩
  case timed => exact fun j => rfl
  case parked =>
    intro c
    rw [← show (w.begun lines).parked c = w.parked c from rfl,
      ← parked_exhibit (w.begun lines) a.cache c p.calls p.notices p.store]
    have size : ((w.begun lines).exhibit a.cache p.calls p.notices p.store).caches.size =
        w.caches.size := by
      simp [exhibit, setStore, begun, taken]
    simp only [World.parked, Array.getElem?_modify]
    by_cases h : a.cache = c
    · subst h
      rw [if_pos rfl, if_pos rfl, Array.getElem?_eq_getElem (by rwa [size])]
      rfl
    · rw [if_neg h, if_neg (Ne.symm h)]
      simp
  case holds =>
    intro c kind
    rw [← show (w.begun lines).holds c kind = w.holds c kind from rfl,
      ← holds_exhibit (w.begun lines) a.cache c p.calls p.notices p.store]
    simp only [World.holds, Array.getElem?_modify]
    split
    · cases ((w.begun lines).exhibit a.cache p.calls p.notices p.store).caches[c]? <;>
        cases kind <;> rfl
    · rfl

/-- To go through the critical section is a proper shift. -/
theorem Orderly.shifts_pass {cell : CacheCell} {clock : Clock} (o : w.Orderly)
    (hi : w.admissions[i]? = some a) (hr : w.ready.head? = some (.admission i))
    (hc : w.caches[a.cache]? = some cell) (t : w.Holder i a rest) (b : Heads w i a rest lines) :
    w.Shifts ((w.begun lines).pass i a (a.passage cell clock)) i a := by
  cases he : (a.passage cell clock).exit.outcome? with
  | none =>
    obtain ⟨phase, hp⟩ := Exit.held_of_outcome he
    have kept := Admission.passage_held hp
    exact ⟨_, _, _, _, _, shift_held b hr (o.cache_lt hi) _ hp,
      t.proper_held o hi kept.stage (heldAt_of_keptAt hc kept)⟩
  | some outcome =>
    refine ⟨_, _, _, _, _, shift_left b hr _ he, t.proper_left o hi ?_ ?_⟩
    · exact Exit.stage_of_outcome he
    · rcases Exit.phase_of_outcome he with ⟨h, hn⟩ | ⟨delay, h, hd⟩
      · exact .inl ⟨h, by simp [hn]⟩
      · obtain ⟨due, hd⟩ := hd i w.clock.now
        exact .inr ⟨delay, h, by simp [hd]⟩

/-- To get in line behind others is a shift. -/
theorem shift_join (w : World) (hr : w.ready.head? = some (.admission i)) (a : Admission)
    (line : List Nat) :
    Shift w ((w.taken.setLine a.lock line).setPhase i .inLine) i a .inLine line [] [] [] := by
  obtain ⟨tail, ht⟩ := List.head?_eq_some_iff.1 hr
  constructor
  case admissions => rfl
  case limiters => rfl
  case size => rfl
  case line =>
    intro l
    simp only [World.line, setPhase, setLine, Table.get?_set]
    split <;> rfl
  case ready => exact ⟨tail, ht, by simp [setPhase, setLine, taken, ht]⟩
  case timed => exact fun j => rfl
  case parked =>
    intro c
    simp only [ite_self, List.append_nil]
    rfl
  case holds => exact fun c kind => rfl

/-- What is proper for a request that gets in line behind others. -/
theorem Orderly.proper_join (o : w.Orderly) (hi : w.admissions[i]? = some a)
    (hr : w.ready.head? = some (.admission i)) (hp : a.phase = .issued)
    (hl : w.line a.lock ≠ []) : w.Proper i a .inLine (w.line a.lock ++ [i]) [] [] [] := by
  -- Who is in line has come to the stripe, and so was issued before this one.
  have before {j : Nat} (hj : j ∈ w.line a.lock) : j < i := by
    obtain ⟨b, hb, hbl, h1, -⟩ := o.mem_line.1 hj
    rcases Nat.lt_trichotomy j i with h | rfl | h
    · exact h
    · rw [hi] at hb
      cases hb
      simp [hp, Phase.stage] at h1
    · have := (o.order h hi hb hbl.symm).1 h1
      simp [hp, Phase.stage] at this
  have out : i ∉ w.line a.lock := fun h => Nat.lt_irrefl _ (before h)
  constructor
  case stage_le => simp [hp, Phase.stage]
  case begun => exact Nat.le_refl 1
  case joined => exact fun _ => hp
  case first =>
    intro j b hj hb hbl
    exact ⟨o.begun_before hr (by simp [phase?, hi, hp]) hj hb, by simp [Phase.stage]⟩
  case sorted =>
    rw [List.pairwise_append]
    refine ⟨o.sorted _, by simp, fun j hj k hk => ?_⟩
    rw [List.mem_singleton.1 hk]
    exact before hj
  case mem_line =>
    intro j
    by_cases h : j = i
    · simp [h, Phase.stage]
    · simp [h]
  case handed =>
    intro j hj
    cases hw : w.line a.lock with
    | nil => exact absurd hw hl
    | cons k rest => simp
  case next_inLine => simp
  case sleeping_le => simp
  case placed =>
    refine ⟨?_, rfl, rfl⟩
    cases hw : w.line a.lock with
    | nil => exact absurd hw hl
    | cons k rest =>
      rintro h
      cases h
      simp [hw] at out
  case held_at => simp

/-- To end a wait is a shift. -/
theorem shift_finishWait (w : World) (hr : w.ready.head? = some (.admission i)) (a : Admission)
    (delay : Span) :
    Shift w (w.taken.finishWait i a delay) i a .finished (w.line a.lock) [] [] [] := by
  obtain ⟨tail, ht⟩ := List.head?_eq_some_iff.1 hr
  constructor
  case admissions => rfl
  case limiters => rfl
  case size => rfl
  case line =>
    intro l
    split
    · subst l
      rfl
    · rfl
  case ready => exact ⟨tail, ht, by simp [World.finishWait, answer, log, setPhase, taken, ht]⟩
  case timed => exact fun j => rfl
  case parked =>
    intro c
    simp only [ite_self, List.append_nil]
    rfl
  case holds => exact fun c kind => rfl

/-- What is proper for a request whose wait is over. -/
theorem Orderly.proper_finishWait (o : w.Orderly) (hi : w.admissions[i]? = some a) {delay : Span}
    (hp : a.phase = .waiting delay) : w.Proper i a .finished (w.line a.lock) [] [] [] := by
  have out : i ∉ w.line a.lock := by
    rw [o.mem_line]
    rintro ⟨b, hb, -, -, h⟩
    rw [hi] at hb
    cases hb
    simp [hp, Phase.stage] at h
  constructor
  case stage_le => simp [hp, Phase.stage]
  case begun => simp [Phase.stage]
  case joined => simp
  case first =>
    intro j b hj hb hl
    have order := o.order hj hb hi hl
    have decided := order.2 (by simp [hp, Phase.stage])
    exact ⟨by omega, fun _ => decided⟩
  case sorted => exact o.sorted _
  case mem_line =>
    intro j
    by_cases h : j = i
    · simp [h, out, Phase.stage]
    · simp [h]
  case handed => simp
  case next_inLine => simp
  case sleeping_le => simp
  case placed => exact ⟨rfl, rfl⟩
  case held_at => simp

end

/-- What an admission does in its turn. -/
inductive AdmissionTurn (w : World) (i : Nat) (a : Admission) : World → Prop
  /-- It gets in line behind others. -/
  | joins : a.phase = .issued → w.line a.lock ≠ [] →
      AdmissionTurn w i a
        ((w.taken.setLine a.lock (w.line a.lock ++ [i])).setPhase i .inLine)
  /-- It goes through its critical section. -/
  | works {cell : CacheCell} {rest : List Nat} {lines : Table LockId (List Nat)} :
      w.caches[a.cache]? = some cell → w.Holder i a rest → w.Heads i a rest lines →
      AdmissionTurn w i a ((w.begun lines).pass i a (a.passage cell w.clock))
  /-- Its wait is over. -/
  | ends {delay : Span} :
      a.phase = .waiting delay → AdmissionTurn w i a (w.taken.finishWait i a delay)

/-- An admission that is the next in the queue does one of these in its turn. -/
theorem Orderly.admissionTurn_cases {w : World} {i : Nat} (o : w.Orderly)
    (hr : w.ready.head? = some (.admission i)) :
    ∃ a, w.admissions[i]? = some a ∧ w.AdmissionTurn i a (w.taken.admissionTurn i) := by
  obtain ⟨tail, ht⟩ := List.head?_eq_some_iff.1 hr
  cases hi : w.admissions[i]? with
  | none =>
    have := (o.absent hi).1
    simp [queued, ht] at this
  | some a =>
    refine ⟨a, rfl, ?_⟩
    obtain ⟨cell, hc⟩ : ∃ cell, w.caches[a.cache]? = some cell :=
      ⟨_, Array.getElem?_eq_getElem (o.cache_lt hi)⟩
    have goOn (h : a.phase.stage = 2 ∨ (a.phase = .inLine ∧ .admission i ∈ w.ready)) :
        w.AdmissionTurn i a (w.taken.pass i a (a.passage cell w.clock)) := by
      obtain ⟨rest, hl, t⟩ := o.holder_of_head hi (o.head_line hi h)
      have heads : w.Heads i a rest w.lines := by
        intro l
        split
        · rename_i hla
          rw [hla]
          exact hl
        · rfl
      exact .works hc t heads
    have he := admissionTurn_eq (w := w.taken) hi hc
    rw [he]
    cases hp : a.phase with
    | issued =>
      -- A request whose stripe nobody has does not wait for a second turn.
      simp only []
      split
      · rename_i he
        have he := List.isEmpty_iff.1 he
        have heads : w.Heads i a [] (w.lines.set a.lock [i]) := by
          intro l
          simp only [World.line, begun, Table.get?_set]
          split <;> rfl
        exact .works hc (o.holder_of_issued hi hr hp he) heads
      · rename_i he
        exact .joins hp fun h => he (List.isEmpty_iff.2 h)
    | inLine => exact goOn (.inr ⟨hp, List.mem_of_mem_head? hr⟩)
    | beforeLookup | beforeStore => exact goOn (.inl (by rw [hp]; rfl))
    | waiting delay => exact .ends hp
    | finished =>
      have := o.placed hi
      simp [Placed, hp, queued, ht] at this

/-- A turn of an admission is a proper shift. -/
theorem Orderly.shifts {w w' : World} {i : Nat} {a : Admission} (o : w.Orderly)
    (hi : w.admissions[i]? = some a) (hr : w.ready.head? = some (.admission i))
    (turn : w.AdmissionTurn i a w') : w.Shifts w' i a := by
  cases turn with
  | joins hp hl =>
    exact ⟨_, _, _, _, _, shift_join w hr a _, o.proper_join hi hr hp hl⟩
  | works hc t b => exact o.shifts_pass hi hr hc t b
  | ends hp => exact ⟨_, _, _, _, _, shift_finishWait w hr a _, o.proper_finishWait hi hp⟩

/-- A turn of an admission keeps the admissions where they belong. -/
theorem Orderly.admissionTurn {w : World} {i : Nat} (o : w.Orderly)
    (hr : w.ready.head? = some (.admission i)) : (w.taken.admissionTurn i).Orderly := by
  obtain ⟨a, hi, turn⟩ := o.admissionTurn_cases hr
  obtain ⟨_, _, _, _, _, s, p⟩ := o.shifts hi hr turn
  exact o.shift hi s p

/-! ### What leaves the places as they are -/

/-- That nothing changes in the places of the admissions. Only gates may begin to
    hold, and caches may be added. -/
structure Frame (w w' : World) : Prop where
  place : ∀ i : Nat,
    w'.admissions[i]?.map Admission.place = w.admissions[i]?.map Admission.place
  size : w.caches.size ≤ w'.caches.size
  line : ∀ l, w'.line l = w.line l
  ready : w'.ready.filter Task.isAdmission = w.ready.filter Task.isAdmission
  timed : ∀ i, w'.timed i = w.timed i
  parked : ∀ c, w'.parked c = w.parked c
  holds : ∀ {c kind}, w.holds c kind → w'.holds c kind

section

variable {w w' : World}

theorem Frame.queued (f : Frame w w') (i : Nat) : w'.queued i = w.queued i := by
  have (ts : List Task) : ts.count (.admission i) =
      (ts.filter Task.isAdmission).count (.admission i) := by
    rw [List.count_filter]
    rfl
  rw [World.queued, World.queued, this, this w.ready, f.ready]

theorem Frame.exists_of (f : Frame w w') {i : Nat} {b : Admission}
    (hb : w'.admissions[i]? = some b) : ∃ a, w.admissions[i]? = some a ∧ b.place = a.place := by
  have := f.place i
  rw [hb] at this
  obtain ⟨a, ha, he⟩ := Option.map_eq_some_iff.1 this.symm
  exact ⟨a, ha, he.symm⟩

theorem Frame.symm_exists (f : Frame w w') {i : Nat} {a : Admission}
    (ha : w.admissions[i]? = some a) : ∃ b, w'.admissions[i]? = some b ∧ b.place = a.place := by
  have := f.place i
  rw [ha] at this
  exact Option.map_eq_some_iff.1 this

theorem Frame.heldAt (f : Frame w w') {c : Nat} {p : Phase} (h : w.HeldAt c p) :
    w'.HeldAt c p := by
  cases p <;> first | exact f.holds h | exact h.elim

/-- What leaves the places as they are keeps the admissions where they belong. -/
theorem Orderly.frame (o : w.Orderly) (f : Frame w w')
    (hl : ∀ {l : Nat} {cell : LimiterCell}, w'.limiters[l]? = some cell →
      cell.cache < w'.caches.size) : w'.Orderly where
  cache_lt hi := by
    obtain ⟨a, ha, he⟩ := f.exists_of hi
    have := o.cache_lt ha
    simp only [Admission.place, Prod.mk.injEq] at he
    have := f.size
    omega
  cell_cache_lt := hl
  sorted l := by
    rw [f.line]
    exact o.sorted l
  mem_line {l i} := by
    rw [f.line, o.mem_line]
    constructor
    · rintro ⟨a, ha, h⟩
      obtain ⟨b, hb, he⟩ := f.symm_exists ha
      simp only [Admission.place, Prod.mk.injEq] at he
      exact ⟨b, hb, by rw [he.1, he.2.2]; exact h⟩
    · rintro ⟨b, hb, h⟩
      obtain ⟨a, ha, he⟩ := f.exists_of hb
      simp only [Admission.place, Prod.mk.injEq] at he
      exact ⟨a, ha, by rw [← he.1, ← he.2.2]; exact h⟩
  order {i j a b} hij ha hb hab := by
    obtain ⟨a', ha', ea⟩ := f.exists_of ha
    obtain ⟨b', hb', eb⟩ := f.exists_of hb
    simp only [Admission.place, Prod.mk.injEq] at ea eb
    rw [ea.2.2, eb.2.2]
    exact o.order hij ha' hb' (by rw [← ea.1, ← eb.1, hab])
  fifo := by
    -- The order is one of admissions only, so the sweepers in between do not matter.
    have phase (i : Nat) : w'.phase? i = w.phase? i := by
      have := congrArg (Option.map fun p : LockId × Nat × Phase => p.2.2) (f.place i)
      simpa [phase?, Function.comp_def, Admission.place] using this
    have iff (v : World) : v.ready.Pairwise v.InOrder ↔
        (v.ready.filter Task.isAdmission).Pairwise v.InOrder := by
      rw [List.pairwise_filter]
      refine List.Pairwise.iff fun s t => ⟨fun h _ _ => h, fun h i j hs ht => ?_⟩
      subst hs ht
      exact h rfl rfl i j rfl rfl
    have old := (iff w).1 o.fifo
    rw [iff, f.ready]
    refine old.imp fun h i j hi hj pi pj => h i j hi hj ?_ ?_
    · rwa [← phase]
    · rwa [← phase]
  placed {i b} hb := by
    obtain ⟨a, ha, he⟩ := f.exists_of hb
    simp only [Admission.place, Prod.mk.injEq] at he
    have := o.placed ha
    simp only [Placed, f.queued, f.timed, f.parked, f.line, he] at this ⊢
    exact this
  absent {i} hi := by
    have := f.place i
    rw [hi] at this
    have := o.absent (Option.map_eq_none_iff.1 this.symm)
    rwa [f.queued, f.timed]
  parked_held {c i} hi := by
    rw [f.parked] at hi
    obtain ⟨a, ha, hc, hh⟩ := o.parked_held hi
    obtain ⟨b, hb, he⟩ := f.symm_exists ha
    simp only [Admission.place, Prod.mk.injEq] at he
    exact ⟨b, hb, by rw [he.2.1, hc], by rw [he.2.2]; exact f.heldAt hh⟩

theorem Frame.of_same (ha : w'.admissions = w.admissions) (hc : w'.caches = w.caches)
    (hl : w'.lines = w.lines) (hr : w'.ready = w.ready) (ht : w'.timers = w.timers) :
    Frame w w' where
  place i := by rw [ha]
  size := Nat.le_of_eq (congrArg Array.size hc.symm)
  line l := by rw [World.line, hl, World.line]
  ready := by rw [hr]
  timed i := by rw [World.timed, ht, World.timed]
  parked c := by rw [World.parked, hc, World.parked]
  holds h := by rwa [World.holds, hc]

theorem Frame.trans {w'' : World} (f : Frame w w') (g : Frame w' w'') : Frame w w'' where
  place i := (g.place i).trans (f.place i)
  size := Nat.le_trans f.size g.size
  line l := (g.line l).trans (f.line l)
  ready := g.ready.trans f.ready
  timed i := (g.timed i).trans (f.timed i)
  parked c := (g.parked c).trans (f.parked c)
  holds h := g.holds (f.holds h)

theorem Frame.setStore (w : World) (c : Nat) (store : Store) : Frame w (w.setStore c store) where
  place _ := rfl
  size := by simp [World.setStore]
  line _ := rfl
  ready := rfl
  timed _ := rfl
  parked d := parked_setStore ..
  holds h := by rwa [holds_setStore]

theorem Frame.goesOn {j : Nat} {before : SweeperPhase} (h : w.GoesOn j before w') :
    Frame w w' := by
  obtain ⟨notices, faults, phase, again, timers, hg, rfl⟩ := h
  refine ⟨fun _ => rfl, Nat.le_refl _, fun _ => rfl, ?_, fun i => ?_, fun _ => rfl, id⟩
  · cases hg <;> simp [Task.isAdmission]
  · cases hg <;> simp [World.timed]

theorem Frame.sweptTo {j : Nat} {before : SweeperPhase} (h : w.SweptTo j before w') :
    Frame w w' := by
  obtain ⟨caches, notices, hc, hg⟩ := h
  refine Frame.trans ?_ (.goesOn hg)
  rcases hc with rfl | ⟨c, rfl⟩
  · exact .of_same rfl rfl rfl rfl rfl
  · -- A purge touches what is stored only.
    refine ⟨fun _ => rfl, by simp, fun _ => rfl, rfl, fun _ => rfl, fun d => ?_,
      fun {d kind} h => ?_⟩
    · simp only [World.parked, Array.getElem?_modify]
      split <;> cases w.caches[d]? <;> rfl
    · rw [← h]
      simp only [World.holds, Array.getElem?_modify]
      split <;> cases w.caches[d]? <;> cases kind <;> rfl

end

/-- A turn of a sweeper keeps the admissions where they belong. -/
theorem Orderly.sweeperTurn {w : World} {j : Nat} (o : w.Orderly)
    (hr : w.ready.head? = some (.sweeper j)) : (w.taken.sweeperTurn j).Orderly := by
  obtain ⟨tail, ht⟩ := List.head?_eq_some_iff.1 hr
  have taken : Frame w w.taken := by
    refine ⟨fun _ => rfl, Nat.le_refl _, fun _ => rfl, ?_, fun _ => rfl, fun _ => rfl, id⟩
    simp [World.taken, ht, Task.isAdmission]
  have out : w.taken.Orderly := o.frame taken o.cell_cache_lt
  rcases w.taken.sweeperTurn_cases j with e | ⟨s, -, swept⟩
  · rw [e]
    exact out
  · refine out.frame (.sweptTo swept) fun {l cell} hl => ?_
    rw [swept.same.2.1] at hl
    exact Nat.lt_of_lt_of_le (o.cell_cache_lt hl) (Frame.sweptTo swept).size

/-- A turn keeps the admissions where they belong. -/
theorem Orderly.turn {w : World} {task : Task} (o : w.Orderly)
    (hr : w.ready.head? = some task) : (w.taken.turn task).Orderly := by
  cases task with
  | admission i => exact o.admissionTurn hr
  | sweeper j => exact o.sweeperTurn hr

end World

end Turnstile
