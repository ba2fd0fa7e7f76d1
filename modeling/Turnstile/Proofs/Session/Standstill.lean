import Turnstile.Proofs.Limiter.Standstill
import Turnstile.Proofs.Session.Spacing

/-!
# Standstills

Requests for a key that are decided while both clocks stand still, whatever was in the
cache at first, whatever else goes on, and wherever gates hold them up for a while.
Each admission finds the entry that the one before has left, so the delays are known
from the first entry (`Standstill.delayAfter`), and no two requests get the same slot
(`Session.delays_apart_iff`), with one exception: a slot that was due already when the
clocks stopped is given away twice.
-/

namespace Turnstile

/-- A key at a limiter, and a reading of the clocks. -/
structure Standstill where
  limiter : Limiter
  /-- The number of the limiter. -/
  owner : Nat
  /-- The number of its cache. -/
  cache : Nat
  key : Key
  clock : Clock
  /-- The entry of the key at first. -/
  entry : Option Value

namespace Standstill

variable (p : Standstill)

/-- The entry after some admissions. -/
def entryAfter (n : Nat) : Option Value := (p.limiter.entryNext p.clock.wall)^[n] p.entry

/-- The nanoseconds that the next one has to wait after some admissions. -/
def delayAfter (n : Nat) : Nat :=
  if slotIsDue p.clock.wall p.entry then (n - 1) * p.limiter.threshold.nanos
  else waitFor p.clock.wall p.entry + n * p.limiter.threshold.nanos

/-- How far an undecided request may have come that finds an entry. -/
def Reached (found : Option Value) : Phase → Prop
  | .beforeLookup reading => p.clock.read = .ok reading
  | .beforeStore _ r => ∃ reading, p.clock.read = .ok reading ∧
    (p.limiter.decide found reading).reservation? = some r
  | _ => True

instance (found : Option Value) (phase : Phase) : Decidable (p.Reached found phase) :=
  match phase with
  | .beforeLookup _ => inferInstanceAs (Decidable (_ = _))
  | .beforeStore _ r =>
    match h : p.clock.read with
    | .ok now => decidable_of_iff ((p.limiter.decide found now).reservation? = some r)
        (by simp [Reached, h])
    | .error _ => .isFalse (by simp [Reached, h])
  | .issued | .inLine | .waiting _ | .finished => .isTrue trivial

/-- That a step leaves the clocks as they are, and the entry of the key to the limiter. -/
def Still (w : World) (s : Step) : Prop :=
  s.clockAfter w.clock = w.clock ∧ w.Spares p.cache p.key.text s ∧
    match s with
    | .throttle name identifier _ => ∀ x ∈ w.limiterNamed? name, x.2.cache = p.cache →
        x.2.limiter.anonymize identifier.render = p.key → x.1 = p.owner
    | _ => True

instance (w : World) (s : Step) : Decidable (p.Still w s) := by
  unfold Still
  cases s <;> infer_instance

/-! ### The passage of a request -/

/-- How the passage of a request ends that finds an entry, and which entry it leaves. -/
def Ends (found : Option Value) (passage : Passage) : Prop :=
  (∃ delay, passage.exit = .decided (.ok delay) ∧ delay.nanos = waitFor p.clock.wall found ∧
    passage.store.live? p.clock.now p.key.text = p.limiter.entryNext p.clock.wall found) ∨
  ((∀ delay, passage.exit ≠ .decided (.ok delay)) ∧
    (∀ phase, passage.exit = .held phase → p.Reached found phase) ∧
    passage.store.live? p.clock.now p.key.text = found)

variable {p} {found : Option Value} {a : Admission} {cell : CacheCell}

theorem ends_storing (cell : CacheCell) (slotted : Slotted found)
    (pos : 0 < p.limiter.threshold.nanos)
    (hk : a.key = p.key) (live : cell.store.live? p.clock.now p.key.text = found)
    {d : Decision} {r : Reservation} (reached : p.Reached found (.beforeStore d r)) :
    p.Ends found (a.storing cell p.clock.now d r) := by
  rcases a.storing_cases cell p.clock.now d r with
    ⟨-, he, hs⟩ | ⟨-, fault, he, hs⟩ | ⟨-, he, hs, -⟩
  · refine .inr ⟨by simp [he], fun phase h => ?_, by rw [hs, live]⟩
    rw [he] at h
    cases h
    exact reached
  · exact .inr ⟨by simp [he], by simp [he], by rw [hs, live]⟩
  · obtain ⟨reading, read, hr⟩ := reached
    obtain ⟨wall, leap⟩ := Clock.nanos_of_read read
    obtain ⟨delay, next⟩ := Limiter.reservation_next slotted leap pos hr
    rw [wall] at delay next
    refine .inl ⟨_, he, delay, ?_⟩
    rw [hk] at hs
    rw [Store.live?_of_set? hs, if_pos rfl, ← next]
    -- It is live as long as its time is not nothing.
    simp only [Nat.lt_add_right_iff_pos]

theorem ends_lookingUp (slotted : Slotted found) (pos : 0 < p.limiter.threshold.nanos)
    (hl : a.limiter = p.limiter) (hk : a.key = p.key)
    (live : cell.store.live? p.clock.now p.key.text = found) {reading : Timestamp}
    (read : p.clock.read = .ok reading) :
    p.Ends found (a.lookingUp cell p.clock.now reading) := by
  have kept : (cell.store.get p.clock.now p.key.text).2.live? p.clock.now p.key.text = found := by
    rw [Store.live?_get (Nat.le_refl _), live]
  rcases a.lookingUp_cases cell p.clock.now reading with
    ⟨-, he, hs⟩ | ⟨-, he, hs⟩ | ⟨-, ⟨-, he, hs, -⟩ | ⟨r, hd, he, hs, -⟩⟩
  · refine .inr ⟨by simp [he], fun phase h => ?_, by rw [hs, live]⟩
    rw [he] at h
    cases h
    exact read
  · exact .inr ⟨by simp [he], by simp [he], by rw [hs, live]⟩
  · exact .inr ⟨by simp [he], by simp [he], by rw [hs, hk, kept]⟩
  · rw [hk] at hd he hs
    rw [live, hl] at hd he hs
    have ends := ends_storing (a := a)
      { cell with store := (cell.store.get p.clock.now p.key.text).2 }
      slotted pos hk kept (d := p.limiter.decide found reading) ⟨reading, read, hd⟩
    unfold Ends at ends ⊢
    rwa [he, hs]

/-- A request is admitted with the wait that the entry asks for, or changes nothing. -/
theorem ends_passage (slotted : Slotted found) (pos : 0 < p.limiter.threshold.nanos)
    (hl : a.limiter = p.limiter) (hk : a.key = p.key)
    (live : cell.store.live? p.clock.now p.key.text = found) (reached : p.Reached found a.phase) :
    p.Ends found (a.passage cell p.clock) := by
  have entering : p.Ends found (a.entering cell p.clock) := by
    unfold Admission.entering
    split
    · exact .inr ⟨by simp, by simp, live⟩
    · exact ends_lookingUp slotted pos hl hk live ‹_›
  unfold Admission.passage
  split
  · rename_i reading hp
    rw [hp] at reached
    exact ends_lookingUp slotted pos hl hk live reached
  · rename_i d r hp
    rw [hp] at reached
    exact ends_storing cell slotted pos hk live reached
  · exact entering

/-! ### Requests among others -/

variable (p) in
/-- How things stand after some admissions of the key. -/
structure Stands (n : Nat) (h : List Moment) (w : World) : Prop where
  clock : w.clock = p.clock
  limiter : w.limiters[p.owner]? = some ⟨p.limiter, p.cache⟩
  cell : ∃ cell, w.caches[p.cache]? = some cell ∧
    cell.store.live? p.clock.now p.key.text = p.entryAfter n
  reached : ∀ {i : Nat} {a : Admission}, w.admissions[i]? = some a → a.cache = p.cache →
    a.key = p.key → a.phase.stage ≤ 2 → a.owner = p.owner ∧ p.Reached (p.entryAfter n) a.phase
  delays : (grants p.cache p.key h).map (·.delay.nanos) =
    (List.range n).map fun k => waitFor p.clock.wall (p.entryAfter k)

theorem entryAfter_succ (n : Nat) :
    p.entryAfter (n + 1) = p.limiter.entryNext p.clock.wall (p.entryAfter n) :=
  Function.iterate_succ_apply' ..

theorem slotted_entryAfter (slotted : Slotted p.entry) (n : Nat) : Slotted (p.entryAfter n) := by
  induction n with
  | zero => exact slotted
  | succ n ih =>
    rw [entryAfter_succ]
    exact ih.entryNext

/-- Who is in its critical section is the only one of its stripe. -/
theorem reached_of_early {phase : Phase} (h : phase.stage < 2) : p.Reached found phase := by
  cases phase with
  | beforeLookup | beforeStore => simp [Phase.stage] at h
  | _ => trivial

namespace Stands

open World

variable {n : Nat} {h : List Moment} {w : World} {m : Moment} {i : Nat}

theorem acted {s : Step} (k : p.Stands n h w) (hs : p.Still w s) : p.Stands n h (w.acted s) where
  clock := by rw [clock_acted, hs.1, k.clock]
  limiter := limiter_acted k.limiter
  cell := by
    obtain ⟨cell, hc, live⟩ := k.cell
    obtain ⟨cell', hc', same, -⟩ := live?_acted hs.2.1 hc
    exact ⟨cell', hc', (same (by rw [k.clock])).trans live⟩
  reached {i b} hb hc hk hp := by
    rcases admission_acted hb with ⟨a, ha, hab, e | ⟨-, e⟩⟩ |
      ⟨-, name, identifier, _, l, cell, rfl, hn, hl, rfl⟩
    · rw [e] at hp ⊢
      rw [hab.owner]
      exact k.reached ha (hab.cache.symm.trans hc) (hab.key.symm.trans hk) hp
    · rw [e] at hp
      cases hp
      contradiction
    · -- A new request for the key is of the limiter.
      have named : (l, cell) ∈ w.limiterNamed? name := by simp [limiterNamed?, hn, hl]
      exact ⟨hs.2.2 _ named hc hk, trivial⟩
  delays := k.delays

/-- What is to be shown of a turn: neither clocks nor limiters change in it. -/
theorem of_turn {n' : Nat} (k : p.Stands n h m.world) (o : m.world.Orderly)
    (hr : m.world.ready.head? = some m.task) (clock : m.after.clock = m.world.clock)
    (cell : ∃ cell, m.after.caches[p.cache]? = some cell ∧
      cell.store.live? p.clock.now p.key.text = p.entryAfter n')
    (reached : ∀ {i : Nat} {a : Admission}, m.after.admissions[i]? = some a → a.cache = p.cache →
      a.key = p.key → a.phase.stage ≤ 2 → a.owner = p.owner ∧ p.Reached (p.entryAfter n') a.phase)
    (delays : (grants p.cache p.key (h ++ [m])).map (·.delay.nanos) =
      (List.range n').map fun k => waitFor p.clock.wall (p.entryAfter k)) :
    p.Stands n' (h ++ [m]) m.after where
  clock := clock.trans k.clock
  limiter := by
    rw [show m.after.limiters = _ from o.limiters_turn hr]
    exact k.limiter
  cell := cell
  reached := reached
  delays := delays

theorem idle (k : p.Stands n h m.world) (o : m.world.Orderly)
    (hr : m.world.ready.head? = some m.task) (idle : m.Idle) :
    p.Stands n (h ++ [m]) m.after := by
  refine k.of_turn o hr idle.clock ?cell ?reached ?delays
  case cell =>
    obtain ⟨cell, hc, live⟩ := k.cell
    rcases idle.cell hc with hc' | hc'
    · exact ⟨cell, hc', live⟩
    · refine ⟨_, hc', ?_⟩
      rw [← live, ← k.clock]
      exact Store.live?_purge (Nat.le_refl _) ..
  case reached =>
    intro i b hb hc hk hp
    obtain ⟨a, ha, e, idles⟩ := idle.admission hb
    rw [e] at hc hk
    rw [show b.owner = a.owner by rw [e]]
    have reached := k.reached ha hc hk
    generalize a.phase = q at reached idles
    generalize b.phase = q' at hp idles ⊢
    cases idles with
    | stays => exact reached hp
    | joins => exact ⟨(reached (Nat.zero_le _)).1, trivial⟩
    | ends =>
      cases hp
      contradiction
  case delays => rw [grants_concat, idle.grant?, Option.toList_none, List.append_nil, k.delays]

variable {a : Admission} {cell : CacheCell}

/-- A turn that serves a request for another entry. -/
theorem serving_other (k : p.Stands n h m.world) (o : m.world.Orderly)
    (hr : m.world.ready.head? = some m.task) (s : m.Serving i a cell)
    (other : ¬ (a.cache = p.cache ∧ a.key = p.key)) : p.Stands n (h ++ [m]) m.after := by
  refine k.of_turn o hr s.clock ?cell ?reached ?delays
  case cell =>
    obtain ⟨there, hc, live⟩ := k.cell
    obtain ⟨cell', hc', same, -⟩ := s.live?_other other hc
    exact ⟨cell', hc', (same (by rw [k.clock])).trans live⟩
  case reached =>
    intro j b hb hc hk hp
    have ne : i ≠ j := by
      rintro rfl
      rw [s.admission_self] at hb
      cases hb
      exact other ⟨hc, hk⟩
    rw [s.admission_other ne] at hb
    exact k.reached hb hc hk hp
  case delays =>
    have none : m.grant? p.cache p.key = none := by
      rw [s.grant?]
      split
      · rw [if_neg other]
      · rfl
    rw [grants_concat, none, Option.toList_none, List.append_nil, k.delays]

/-- A turn that serves a request for the key. -/
theorem serving (k : p.Stands n h m.world) (o : m.world.Orderly) (owned : m.world.Owned)
    (hr : m.world.ready.head? = some m.task) (slotted : Slotted p.entry)
    (pos : 0 < p.limiter.threshold.nanos) (s : m.Serving i a cell) (hc : a.cache = p.cache)
    (hk : a.key = p.key) : ∃ n', p.Stands n' (h ++ [m]) m.after := by
  obtain ⟨tail, holder⟩ := s.holder
  obtain ⟨owner, reached⟩ := k.reached s.admission hc hk holder.undecided
  obtain ⟨there, hthere, live⟩ := k.cell
  obtain rfl : cell = there := by
    have := s.cache
    rw [hc, hthere] at this
    exact (Option.some.inj this).symm
  have limiter : a.limiter = p.limiter := by
    obtain ⟨cell', hl, e, -⟩ := owned.limiter s.admission
    rw [owner, k.limiter] at hl
    cases hl
    exact e
  have ends := ends_passage (slotted_entryAfter slotted n) pos limiter hk live reached
  obtain ⟨cell', hc', store, -⟩ := s.cell_after hthere
  rw [if_pos hc, k.clock] at store
  have exit : m.grant? p.cache p.key = _ := s.grant?
  rw [k.clock] at exit
  -- The others for the key are not in their critical section, whatever the entry is now.
  have others {n' : Nat} {j : Nat} {b : Admission} (ne : i ≠ j)
      (hb : m.after.admissions[j]? = some b) (hbc : b.cache = p.cache) (hbk : b.key = p.key)
      (hp : b.phase.stage ≤ 2) : b.owner = p.owner ∧ p.Reached (p.entryAfter n') b.phase := by
    rw [s.admission_other ne] at hb
    obtain ⟨owner', -⟩ := k.reached hb hbc hbk hp
    have lock : b.lock = a.lock := by
      rw [Admission.lock, Admission.lock, owner, owner', hk, hbk]
    exact ⟨owner', reached_of_early (holder.stage_lt_two o s.admission ne hb lock hp)⟩
  rcases ends with ⟨delay, he, wait, next⟩ | ⟨refused, held, same⟩
  · refine ⟨n + 1, k.of_turn o hr s.clock ⟨cell', hc', ?_⟩ ?_ ?_⟩
    · rw [store, next, entryAfter_succ]
    · intro j b hb hbc hbk hp
      by_cases ne : i = j
      · subst j
        -- Who is admitted is decided.
        rw [s.admission_self, k.clock] at hb
        cases hb
        rw [Exit.stage_of_outcome (o := .ok delay) (by rw [he]; rfl)] at hp
        contradiction
      · exact others ne hb hbc hbk hp
    · rw [he] at exit
      simp only [hc, hk, and_self, if_true] at exit
      rw [grants_concat, exit, List.map_append, k.delays, List.range_succ, List.map_append]
      simp [wait]
  · refine ⟨n, k.of_turn o hr s.clock ⟨cell', hc', ?_⟩ ?_ ?_⟩
    · rw [store, same]
    · intro j b hb hbc hbk hp
      by_cases ne : i = j
      · subst j
        rw [s.admission_self, k.clock] at hb
        cases hb
        refine ⟨owner, ?_⟩
        cases he : (a.passage cell p.clock).exit.outcome? with
        | none =>
          obtain ⟨phase, e⟩ := Exit.held_of_outcome he
          rw [e]
          exact held phase e
        | some outcome =>
          rw [Exit.stage_of_outcome he] at hp
          contradiction
      · exact others ne hb hbc hbk hp
    · have none : m.grant? p.cache p.key = none := by
        rw [exit]
        split
        · exact absurd ‹_› (refused _)
        · rfl
      rw [grants_concat, none, Option.toList_none, List.append_nil, k.delays]

/-- Throughout a standstill the delays are known from the number of admissions. -/
theorem course {w₀ : World} (start : p.Stands 0 [] w₀) (o : w₀.Orderly) (owned : w₀.Owned)
    (slotted : Slotted p.entry) (pos : 0 < p.limiter.threshold.nanos)
    (c : Course p.Still w₀ h w) : ∃ n, p.Stands n h w := by
  induction c with
  | start => exact ⟨0, start⟩
  | act c hs ih =>
    obtain ⟨n, k⟩ := ih
    exact ⟨n, k.acted hs⟩
  | @turn h w task _ c hr ih =>
    obtain ⟨n, k⟩ := ih
    have head : w.ready.head? = some task := by rw [hr]; rfl
    have o := c.orderly o
    rcases Moment.serving_or_idle (m := ⟨w, task⟩) o head with ⟨i, a, cell, s⟩ | idle
    · by_cases own : a.cache = p.cache ∧ a.key = p.key
      · exact serving (m := ⟨w, task⟩) k o (c.owned ‹_› owned) head slotted pos s own.1 own.2
      · exact ⟨n, serving_other (m := ⟨w, task⟩) k o head s own⟩
    · exact ⟨n, Stands.idle (m := ⟨w, task⟩) k o head idle⟩

end Stands

/-! ### Sessions -/

/-- A session that goes on from a world while the clocks stand still. -/
structure Session (p : Standstill) (w : World) (steps : List Step) : Prop where
  clock : w.clock = p.clock
  limiter : w.limiters[p.owner]? = some ⟨p.limiter, p.cache⟩
  threshold_pos : 0 < p.limiter.threshold.nanos
  entry : ∀ cell ∈ w.caches[p.cache]?, cell.store.live? p.clock.now p.key.text = p.entry
  slotted : Slotted p.entry
  /-- Requests for the key that are not decided yet are of the limiter, and if they have
      read the clock or found an entry, it was this one. -/
  undecided : ∀ a ∈ w.admissions, a.cache = p.cache → a.key = p.key →
    a.phase.isDecided = false → a.owner = p.owner ∧ p.Reached p.entry a.phase
  still : w.Along p.Still steps

instance (p : Standstill) (w : World) (steps : List Step) : Decidable (p.Session w steps) :=
  decidable_of_iff (w.clock = p.clock ∧ w.limiters[p.owner]? = some ⟨p.limiter, p.cache⟩ ∧
      0 < p.limiter.threshold.nanos ∧
      (∀ cell ∈ w.caches[p.cache]?, cell.store.live? p.clock.now p.key.text = p.entry) ∧
      Slotted p.entry ∧
      (∀ a ∈ w.admissions, a.cache = p.cache → a.key = p.key → a.phase.isDecided = false →
        a.owner = p.owner ∧ p.Reached p.entry a.phase) ∧
      w.Along p.Still steps)
    ⟨fun ⟨clock, limiter, pos, entry, slotted, undecided, still⟩ =>
      ⟨clock, limiter, pos, entry, slotted, undecided, still⟩,
     fun k => ⟨k.clock, k.limiter, k.threshold_pos, k.entry, k.slotted, k.undecided, k.still⟩⟩

open World

variable {w : World} {steps : List Step}

theorem Session.stands (k : p.Session w steps) (o : w.Orderly) : p.Stands 0 [] w where
  clock := k.clock
  limiter := k.limiter
  cell := by
    have there := Array.getElem?_eq_getElem (o.cell_cache_lt k.limiter)
    exact ⟨_, there, k.entry _ there⟩
  reached ha hc hk hp := by
    refine k.undecided _ (Array.mem_of_getElem? ha) hc hk ?_
    rw [Bool.eq_false_iff]
    intro decided
    rw [Phase.isDecided_iff] at decided
    omega
  delays := rfl

/-- Two delays are a threshold apart, but for the first two if the first slot was due. -/
theorem apart_delayAfter (pos : 0 < p.limiter.threshold.nanos) {i j : Nat} (lt : i < j) :
    p.limiter.threshold.nanos ≤ ((p.delayAfter j : Int) - p.delayAfter i).natAbs ↔
      ¬ (slotIsDue p.clock.wall p.entry ∧ i = 0 ∧ j = 1) := by
  have step {k n : Nat} (h : k < n) :
      k * p.limiter.threshold.nanos + p.limiter.threshold.nanos ≤
        n * p.limiter.threshold.nanos := by
    rw [← Nat.succ_mul]
    exact Nat.mul_le_mul_right _ h
  unfold delayAfter
  cases slotIsDue p.clock.wall p.entry with
  | false =>
    have := step lt
    simp only [Bool.false_eq_true, if_false, false_and, not_false_eq_true, iff_true]
    omega
  | true =>
    by_cases first : i = 0 ∧ j = 1
    · obtain ⟨rfl, rfl⟩ := first
      simpa using Nat.ne_of_gt pos
    · have := step (k := i - 1) (n := j - 1) (by omega)
      simp only [if_true, first, and_false, not_false_eq_true, iff_true]
      omega

/-- While the clocks stand still, the delays of the admissions of a key are known from
    the entry that is there at first. Any two differ by the threshold, except for the
    first two if the slot found at first was due: both are admitted at once. -/
theorem Session.delays_apart_iff {wall : Int} {past steps : List Step}
    (k : p.Session ((starting wall).final past) steps) :
    let gs := grants p.cache p.key (((starting wall).final past).history steps)
    (∀ {n g}, gs[n]? = some g → g.delay.nanos = p.delayAfter n) ∧
    ∀ {i j a b}, i < j → gs[i]? = some a → gs[j]? = some b →
      (p.limiter.threshold.nanos ≤ ((b.delay.nanos : Int) - a.delay.nanos).natAbs ↔
        ¬ (slotIsDue p.clock.wall p.entry ∧ i = 0 ∧ j = 1)) := by
  intro gs
  have before := course_history ((starting wall).along_true past)
  have o := before.orderly (orderly_starting wall)
  have owned := before.owned (orderly_starting wall) (owned_starting wall)
  obtain ⟨n, stands⟩ :=
    (k.stands o).course o owned k.slotted k.threshold_pos (course_history k.still)
  have delay {n : Nat} {g : Grant} (hg : gs[n]? = some g) : g.delay.nanos = p.delayAfter n := by
    rw [delayAfter, ← waitFor_iterate k.slotted k.threshold_pos n]
    have known := congrArg (·[n]?) stands.delays
    simp only [List.getElem?_map, show (grants _ _ _)[n]? = _ from hg, Option.map_some] at known
    obtain ⟨j, hj, e⟩ := Option.map_eq_some_iff.1 known.symm
    obtain ⟨_, rfl⟩ := List.getElem?_eq_some_iff.1 hj
    rw [← e, List.getElem_range, entryAfter]
  refine ⟨delay, fun {i j a b} lt ha hb => ?_⟩
  rw [delay ha, delay hb]
  exact apart_delayAfter k.threshold_pos lt

/-- A limiter of ten seconds that has admitted a request, and whose wall clock is then set
    twenty seconds ahead: the slot it has handed out is due. -/
def ahead : Standstill where
  limiter := ⟨.ofMillis 10000, .ofMillis 10000, .zero⟩
  owner := 0
  cache := 0
  key := Salt.zero.anonymize "x"
  clock := ⟨.origin, 20000000000⟩
  entry := some (.timestamp (.ofNanos 10000000000))

/-- The request that is admitted, and the setting of the clock. -/
def aheadPast : List Step :=
  [.cache "c", .limiter "a" "c" (.spans (.ofMillis 10000) (.ofMillis 10000)) (.ok .zero),
    .throttle "a" (.plain "x") 1, .setWall 20000000000]

/-- Three more requests, while the clocks stand still. -/
theorem ahead_run :
    let gs := grants ahead.cache ahead.key (((starting 0).final aheadPast).history
      [.throttle "a" (.plain "x") 3])
    ahead.Session ((starting 0).final aheadPast) [.throttle "a" (.plain "x") 3] ∧
      gs = [⟨1, true, 20000000000, .zero⟩, ⟨2, false, 20000000000, .zero⟩,
        ⟨3, true, 20000000000, .ofMillis 10000⟩] := by
  decide +kernel

theorem Session.delays_apart_iff_ahead :
    ahead.Session ((starting 0).final aheadPast) [.throttle "a" (.plain "x") 3] ∧
      ahead.delayAfter 2 = (Span.ofMillis 10000).nanos ∧
      ahead.limiter.threshold.nanos ≤ ((ahead.delayAfter 2 : Int) - ahead.delayAfter 1).natAbs := by
  obtain ⟨session, run⟩ := ahead_run
  obtain ⟨delay, apart⟩ := Session.delays_apart_iff session
  have third := delay (n := 2) (by rw [run]; rfl)
  have second := delay (n := 1) (by rw [run]; rfl)
  refine ⟨session, third.symm, ?_⟩
  rw [← second, ← third]
  exact (apart (i := 1) (j := 2) (by decide) (by rw [run]; rfl) (by rw [run]; rfl)).2 (by decide)

/-- Two requests in a row may get the same slot. -/
theorem Session.slot_given_twice : ¬ ∀ (p : Standstill) (wall : Int) (past steps : List Step),
    p.Session ((starting wall).final past) steps →
      ∀ a b, [a, b] <:+: grants p.cache p.key (((starting wall).final past).history steps) →
        p.limiter.threshold.nanos ≤ ((b.delay.nanos : Int) - a.delay.nanos).natAbs := by
  intro apart
  obtain ⟨session, run⟩ := ahead_run
  have far := apart ahead 0 aheadPast _ session ⟨1, true, 20000000000, .zero⟩
    ⟨2, false, 20000000000, .zero⟩ ⟨[], [⟨3, true, 20000000000, .ofMillis 10000⟩], run.symm⟩
  exact absurd far (by decide)

end Standstill

end Turnstile
