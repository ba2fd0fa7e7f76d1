import Turnstile.Proofs.Limiter.Slot
import Turnstile.Proofs.Session.Serving

/-!
# Decisions and grants

What a turn decides, and what it does to the entry of its key: the lookup answers
what is live, and what is stored is what the decision reserves.

* `Serving.decision?`: a turn that serves a request decides it as its passage ends;
* `Admission.lookingUp_cases`, `Admission.storing_cases`: how passages end, and what
  they store;
* `Admission.entering_cases`: the same for a passage that no gate interrupts;
* `Serving.live?_other`, `live?_acted`: what turns and steps leave of an entry.
-/

namespace Turnstile

namespace Exit

variable {e : Exit} {delay : Span}

/-- An answer given at once is the outcome. -/
theorem cases_of_mem_answers {i j : Nat} {o : Outcome} (h : (j, o) ∈ e.answers i) :
    j = i ∧ (e = .decided o ∨ ∃ fault, e = .failed fault ∧ o = .error .aborted) := by
  cases e with
  | held => simp [answers] at h
  | failed fault => simp_all [answers]
  | decided outcome =>
    cases outcome with
    | error reason => simp_all [answers]
    | ok delay =>
      simp only [answers] at h
      split at h <;> simp_all

/-- Who is answered with an admission is admitted. -/
theorem decided_of_answers {i j : Nat} (h : (j, .ok delay) ∈ e.answers i) :
    j = i ∧ e = .decided (.ok delay) := by
  obtain ⟨rfl, he | ⟨_, -, he⟩⟩ := cases_of_mem_answers h
  · exact ⟨rfl, he⟩
  · cases he

/-- Who is to wait for its slot is admitted. -/
theorem decided_of_waiting (h : e.phase = .waiting delay)
    (held : ∀ {p : Phase}, e = .held p → p.stage = 2) : e = .decided (.ok delay) := by
  cases e with
  | held p =>
    have two := held rfl
    rw [show p = .waiting delay from h] at two
    cases two
  | failed => simp [phase] at h
  | decided outcome =>
    cases outcome with
    | error reason => simp [phase] at h
    | ok delay' =>
      simp only [phase] at h
      split at h
      · cases h
      · cases h
        rfl

end Exit

namespace Admission

variable (a : Admission) (cell : CacheCell) (now : Instant)

/-- How the passage from before the store ends: at the gate, with a fault, or admitted
    with the reservation stored. -/
theorem storing_cases (d : Decision) (r : Reservation) :
    let p := a.storing cell now d r
    (cell.storeGate = .hold ∧ p.exit = .held (.beforeStore d r) ∧ p.store = cell.store) ∨
    ((cell.storeGate = .fail ∨
        cell.store.set? now a.key.text (.timestamp r.slot) r.lifetime = none) ∧
      ∃ fault, p.exit = .failed fault ∧ p.store = cell.store) ∨
    (cell.storeGate = .pass ∧ p.exit = .decided (.ok r.delay) ∧
      cell.store.set? now a.key.text (.timestamp r.slot) r.lifetime = some p.store ∧
      p.calls = [.store cell.name a.key (.timestamp r.slot) r.lifetime]) := by
  unfold storing
  cases cell.storeGate with
  | hold => exact .inl ⟨rfl, rfl, rfl⟩
  | fail => exact .inr (.inl ⟨.inl rfl, _, rfl, rfl⟩)
  | pass =>
    cases hs : cell.store.set? now a.key.text (.timestamp r.slot) r.lifetime with
    | none => exact .inr (.inl ⟨.inr rfl, _, rfl, rfl⟩)
    | some store => exact .inr (.inr ⟨rfl, rfl, rfl, rfl⟩)

/-- How the passage from before the lookup ends: at the gate, with a fault, refused, or
    as that from before the store. -/
theorem lookingUp_cases (reading : Timestamp) :
    let p := a.lookingUp cell now reading
    let found := cell.store.live? now a.key.text
    let d := a.limiter.decide found reading
    let next := { cell with store := (cell.store.get now a.key.text).2 }
    (cell.lookupGate = .hold ∧ p.exit = .held (.beforeLookup reading) ∧ p.store = cell.store) ∨
    (cell.lookupGate = .fail ∧ p.exit = .failed .lookupFailed ∧ p.store = cell.store) ∨
    (cell.lookupGate = .pass ∧
      ((d.reservation? = none ∧ p.exit = .decided (.error (d.refusal?.getD .aborted)) ∧
          p.store = next.store ∧ p.calls = [.lookup cell.name a.key found]) ∨
        ∃ r, d.reservation? = some r ∧ p.exit = (a.storing next now d r).exit ∧
          p.store = (a.storing next now d r).store ∧
          p.calls = .lookup cell.name a.key found :: (a.storing next now d r).calls)) := by
  have he := cell.store.get_fst now a.key.text
  unfold lookingUp
  cases cell.lookupGate with
  | hold => exact .inl ⟨rfl, rfl, rfl⟩
  | fail => exact .inr (.inl ⟨rfl, rfl, rfl⟩)
  | pass =>
    refine .inr (.inr ⟨rfl, ?_⟩)
    simp only [carryingOut]
    rw [← he]
    cases hr : (a.limiter.decide (cell.store.get now a.key.text).1 reading).reservation? with
    | none => exact .inl ⟨rfl, rfl, rfl, rfl⟩
    | some r => exact .inr ⟨r, rfl, rfl, rfl, rfl⟩

/-- How a passage from the beginning ends where no gate holds: without an admission,
    when it changes no answer of the cache, or with one, when it stores what is
    reserved. -/
theorem entering_cases {clock : Clock} (hg : ∀ kind, cell.gate kind ≠ .hold) :
    let p := a.entering cell clock
    let found := cell.store.live? clock.now a.key.text
    ((∀ delay, p.exit ≠ .decided (.ok delay)) ∧
      ∀ {t : Instant} (k : String), clock.now.nanos ≤ t.nanos →
        p.store.live? t k = cell.store.live? t k) ∨
    ∃ (reading : Timestamp) (r : Reservation) (kept : Store), clock.read = .ok reading ∧
      (a.limiter.decide found reading).reservation? = some r ∧
      p.exit = .decided (.ok r.delay) ∧
      (∀ {t : Instant} (k : String), clock.now.nanos ≤ t.nanos →
        kept.live? t k = cell.store.live? t k) ∧
      kept.set? clock.now a.key.text (.timestamp r.slot) r.lifetime = some p.store ∧
      p.calls = [.lookup cell.name a.key found,
        .store cell.name a.key (.timestamp r.slot) r.lifetime] := by
  have kept {t : Instant} (k : String) (ht : clock.now.nanos ≤ t.nanos) :=
    Store.live?_get ht cell.store a.key.text k
  have lookup : cell.lookupGate ≠ .hold := hg .lookup
  have store : cell.storeGate ≠ .hold := hg .store
  simp only [entering]
  cases hr : clock.read with
  | error fault => exact .inl ⟨by simp, fun _ _ => rfl⟩
  | ok reading =>
    rcases a.lookingUp_cases cell clock.now reading with
      ⟨h, -⟩ | ⟨-, he, hs⟩ | ⟨-, ⟨-, he, hs, -⟩ | ⟨r, hd, he, hs, hc⟩⟩
    · exact absurd h lookup
    · exact .inl ⟨by simp [he], fun _ _ => by rw [hs]⟩
    · exact .inl ⟨by simp [he], fun k ht => by rw [hs]; exact kept k ht⟩
    · -- A lookup may take an expired entry out, which answers nothing new.
      rcases a.storing_cases { cell with store := (cell.store.get clock.now a.key.text).2 }
        clock.now (a.limiter.decide (cell.store.live? clock.now a.key.text) reading) r with
        ⟨h, -⟩ | ⟨-, fault, he', hs'⟩ | ⟨-, he', hs', hc'⟩
      · exact absurd h store
      · exact .inl ⟨by simp [he, he'], fun k ht => by rw [hs, hs']; exact kept k ht⟩
      · refine .inr ⟨reading, r, _, rfl, hd, by rw [he, he'], kept, by rw [hs]; exact hs', ?_⟩
        rw [hc, hc']

/-- A passage changes no answer for another key. -/
theorem passage_other {clock : Clock} {t : Instant} {k : String} (hk : k ≠ a.key.text)
    (ht : clock.now.nanos ≤ t.nanos) :
    (a.passage cell clock).store.live? t k = cell.store.live? t k := by
  have storing (cell : CacheCell) (d : Decision) (r : Reservation) :
      (a.storing cell clock.now d r).store.live? t k = cell.store.live? t k := by
    rcases a.storing_cases cell clock.now d r with ⟨-, -, e⟩ | ⟨-, _, -, e⟩ | ⟨-, -, hs, -⟩
    · rw [e]
    · rw [e]
    · rw [Store.live?_of_set? hs, if_neg hk]
  have lookingUp (reading : Timestamp) :
      (a.lookingUp cell clock.now reading).store.live? t k = cell.store.live? t k := by
    rcases a.lookingUp_cases cell clock.now reading with
      ⟨-, -, e⟩ | ⟨-, -, e⟩ | ⟨-, ⟨-, -, e, -⟩ | ⟨r, -, -, e, -⟩⟩
    · rw [e]
    · rw [e]
    · rw [e]
      exact Store.live?_get ht ..
    · rw [e, storing]
      exact Store.live?_get ht ..
  unfold passage
  split
  · exact lookingUp _
  · exact storing ..
  · unfold entering
    split
    · rfl
    · exact lookingUp _

end Admission

namespace World

/-- That a step does not put an entry under a key of a cache, and does not clear it. -/
def Spares (w : World) (c : Nat) (text : String) : Step → Prop
  | .put cache key _ _ => w.cacheNames.get? cache = some c → w.keyMeant? key ≠ some text
  | .clear cache => w.cacheNames.get? cache ≠ some c
  | _ => True

instance (w : World) (c : Nat) (text : String) (s : Step) : Decidable (w.Spares c text s) :=
  match s with
  | .put .. => inferInstanceAs (Decidable (_ → _))
  | .clear _ => inferInstanceAs (Decidable (_ ≠ _))
  | .cache _ | .limiter .. | .clone .. | .dropLimiter _ | .dropCache _ | .throttle .. |
    .dropHandle _ | .advance _ | .setWall _ | .get .. | .purge _ | .isEmpty _ | .key _ |
    .sweeper .. | .abort _ | .gate .. | .shutdown => .isTrue trivial

/-- A step that spares an entry changes no answer for its key. -/
theorem live?_acted {w : World} {s : Step} {c : Nat} {text : String} {cell : CacheCell}
    (hs : w.Spares c text s) (hc : w.caches[c]? = some cell) :
    ∃ cell', (w.acted s).caches[c]? = some cell' ∧
      (∀ {t : Instant}, w.clock.now.nanos ≤ t.nanos →
        cell'.store.live? t text = cell.store.live? t text) ∧
      CellChange w s c cell cell' := by
  obtain ⟨cell', hc', change⟩ := cell_acted (s := s) hc
  refine ⟨cell', hc', fun {t} ht => ?_, change⟩
  rcases change.store with e | storing
  · rw [e]
  · generalize cell'.store = store at storing
    cases storing with
    | @put _ _ other _ _ _ hn hk hset =>
      have different : text ≠ other := fun e => hs hn (by rw [hk, e])
      rw [Store.live?_of_set? hset, if_neg different]
    | get => exact Store.live?_get ht ..
    | purge => exact Store.live?_purge ht ..
    | clear hn => exact absurd hn hs

end World

namespace Moment

open World

variable {m : Moment} {i : Nat} {a : Admission} {cell : CacheCell}

/-- What is in the caches after a turn that serves a request. -/
theorem Serving.cell_after (s : m.Serving i a cell) {d : Nat} {there : CacheCell}
    (hd : m.world.caches[d]? = some there) : ∃ cell', m.after.caches[d]? = some cell' ∧
      cell'.store =
        (if a.cache = d then (a.passage cell m.world.clock).store else there.store) ∧
      ∀ kind, cell'.gate kind = there.gate kind := by
  obtain ⟨lines, h⟩ := s.after
  obtain ⟨parked, e⟩ := caches_pass (m.world.begun lines) i a (a.passage cell m.world.clock) d
  rw [h, e, show (m.world.begun lines).caches[d]? = _ from hd]
  refine ⟨_, rfl, ?_⟩
  split
  · exact ⟨rfl, fun kind => by cases kind <;> rfl⟩
  · exact ⟨rfl, fun _ => rfl⟩

/-- A turn that serves a request changes no other entry. -/
theorem Serving.live?_other (s : m.Serving i a cell) {c : Nat} {key : Key} {there : CacheCell}
    (other : ¬ (a.cache = c ∧ a.key = key)) (hc : m.world.caches[c]? = some there) :
    ∃ cell', m.after.caches[c]? = some cell' ∧
      (∀ {t : Instant}, m.world.clock.now.nanos ≤ t.nanos →
        cell'.store.live? t key.text = there.store.live? t key.text) ∧
      ∀ kind, cell'.gate kind = there.gate kind := by
  obtain ⟨cell', hc', store, gates⟩ := s.cell_after hc
  refine ⟨cell', hc', fun {t} ht => ?_, gates⟩
  rw [store]
  split
  · rename_i e
    obtain rfl : cell = there := by
      have := s.cache
      rw [e, hc] at this
      exact (Option.some.inj this).symm
    -- The same cache is asked, but for the entry of another key.
    have different : key.text ≠ a.key.text := by
      intro h
      exact other ⟨e, by cases ha : a.key; cases key; simp_all⟩
    exact Admission.passage_other a cell different ht
  · rfl

theorem Serving.cell_none (s : m.Serving i a cell) {d : Nat} (hd : m.world.caches[d]? = none) :
    m.after.caches[d]? = none := by
  obtain ⟨lines, h⟩ := s.after
  obtain ⟨parked, e⟩ := caches_pass (m.world.begun lines) i a (a.passage cell m.world.clock) d
  rw [h, e, show (m.world.begun lines).caches[d]? = _ from hd]
  rfl

theorem Serving.clock (s : m.Serving i a cell) : m.after.clock = m.world.clock := by
  obtain ⟨lines, h⟩ := s.after
  rw [h, clock_pass]
  rfl

theorem Serving.answers (s : m.Serving i a cell) :
    m.answers = (a.passage cell m.world.clock).exit.answers i := by
  obtain ⟨lines, h⟩ := s.after
  rw [Moment.answers, h, answers_pass, Array.toList_appendList]
  exact List.drop_left

/-- A turn that serves a request decides it as its passage ends. -/
theorem Serving.decision? (s : m.Serving i a cell) :
    m.decision? = (a.passage cell m.world.clock).exit.outcome?.map fun o => (i, o) := by
  have undecided := s.serves.2.1
  rw [phase?_eq s.admission, Option.any_some, Bool.not_eq_true'] at undecided
  simp only [Moment.decision?, s.task, phase?_eq s.admission, Option.any_some, undecided, s.phase,
    s.answers]
  cases he : (a.passage cell m.world.clock).exit with
  | held phase =>
    have two := (Admission.passage_held he).stage
    cases phase <;> first | rfl | cases two
  | failed fault => rfl
  | decided outcome =>
    cases outcome with
    | error reason => rfl
    | ok delay =>
      by_cases hd : delay = .zero
      · simp [Exit.phase, Exit.answers, Exit.outcome?, hd]
      · simp [Exit.phase, Exit.outcome?, hd]

theorem Idle.decision? (idle : m.Idle) : m.decision? = none := by
  unfold Moment.decision?
  cases ht : m.task with
  | sweeper j => rfl
  | admission i =>
    simp only []
    split
    · rfl
    · rename_i hd
      -- The only answer in an idle turn is to a request that was decided before.
      have none : m.answers.head? = none := by
        cases ha : m.answers with
        | nil => rfl
        | cons x rest =>
          obtain ⟨delay, hx, hw, -⟩ := idle.answers x (by simp [ha])
          rw [ht] at hx
          cases hx
          simp [hw, Phase.isDecided] at hd
      split
      · rename_i delay hp
        obtain ⟨b, hb, hp⟩ := phase?_eq_some_iff.1 hp
        obtain ⟨a, ha, -, idles⟩ := idle.admission hb
        rw [phase?_eq ha] at hd
        rw [hp] at idles
        generalize a.phase = p at hd idles
        cases idles
        simp [Phase.isDecided] at hd
      · exact none

end Moment

/-- Time stands still in a turn. -/
theorem World.Orderly.clock_turn {w : World} {task : Task} (o : w.Orderly)
    (hr : w.ready.head? = some task) : (w.taken.turn task).clock = w.clock := by
  rcases Moment.serving_or_idle (m := ⟨w, task⟩) o hr with ⟨i, a, cell, s⟩ | idle
  · exact s.clock
  · exact idle.clock

end Turnstile
