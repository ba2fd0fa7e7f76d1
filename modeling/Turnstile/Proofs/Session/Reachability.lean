import Turnstile.Proofs.Session.Granting
import Turnstile.Proofs.Session.Ticking

/-!
# What leads to a cache

A cache is reachable as long as its name, a named limiter on it or a request there that is
not answered leads to it. None of these comes out of nothing: a name is given to what has
one already, but for a new cache, and a request is issued at a limiter that has a name. So
a cache that nothing leads to stays so.

* `World.reachable_iff`: what leads to a cache;
* `World.leads_of_acted`, `World.leads_of_turn`: what leads to a cache after a step or a
  turn did so before, or something else did;
* `Course.leads`: so it is in every course of events.
-/

namespace Turnstile

theorem Table.mem_values {κ α : Type} [DecidableEq κ] {t : Table κ α} {a : α} :
    a ∈ t.values ↔ ∃ k, t.get? k = some a := by
  simp [values, get?_eq_some_iff]

namespace World

variable {w w' : World} {c : Nat} {s : Step}

/-- What leads to a cache. -/
inductive Leads (w : World) (c : Nat) : Prop
  | name {name : String} : w.cacheNames.get? name = some c → Leads w c
  | limiter {name : String} {l : Nat} {cell : LimiterCell} : w.limiterNames.get? name = some l →
      w.limiters[l]? = some cell → cell.cache = c → Leads w c
  | request {i : Nat} {a : Admission} : w.admissions[i]? = some a → a.cache = c →
      a.phase ≠ .finished → Leads w c

theorem reachable_iff : w.reachable c ↔ w.Leads c := by
  simp only [reachable, Bool.or_eq_true, List.contains_iff_mem, List.any_eq_true,
    Array.any_eq_true', beq_iff_eq, Bool.and_eq_true, Bool.not_eq_true', Table.mem_values,
    Option.map_eq_some_iff]
  constructor
  · rintro ((⟨name, named⟩ | ⟨l, ⟨name, named⟩, cell, hl, hc⟩) | ⟨a, ha, hc, hp⟩)
    · exact .name named
    · exact .limiter named hl hc
    · obtain ⟨i, hi, rfl⟩ := Array.getElem_of_mem ha
      exact .request (Array.getElem?_eq_getElem hi) hc (by simpa [Admission.isFinished] using hp)
  · rintro (named | ⟨named, hl, hc⟩ | ⟨ha, hc, hp⟩)
    · exact .inl (.inl ⟨_, named⟩)
    · exact .inl (.inr ⟨_, ⟨_, named⟩, _, hl, hc⟩)
    · exact .inr ⟨_, Array.mem_of_getElem? ha, hc, by simpa [Admission.isFinished] using hp⟩

/-! ### Steps -/

/-- That the names in a world stand for caches that they stood for in another one or that
    were not there, and for limiters on caches that something led to there. -/
structure NamesFrom (w w' : World) : Prop where
  cache : ∀ {name : String} {c : Nat}, w'.cacheNames.get? name = some c →
    w.cacheNames.get? name = some c ∨ w.caches.size ≤ c
  limiter : ∀ {name : String} {l : Nat} {cell : LimiterCell}, w'.limiterNames.get? name = some l →
    w'.limiters[l]? = some cell → w.Leads cell.cache

theorem NamesFrom.of_same (caches : w'.cacheNames = w.cacheNames)
    (limiters : w'.limiterNames = w.limiterNames) (cells : w'.limiters = w.limiters) :
    w.NamesFrom w' where
  cache h := .inl (by rwa [← caches])
  limiter h h' := .limiter (by rwa [← limiters]) (by rwa [← cells]) rfl

theorem get?_of_erase {t : Table String Nat} {name other : String} {n : Nat}
    (h : (t.erase name).get? other = some n) : t.get? other = some n := by
  rw [Table.get?_erase] at h
  split at h
  · cases h
  · exact h

theorem cacheNamed?_eq_some {name : String} {cell : CacheCell}
    (h : w.cacheNamed? name = some (c, cell)) :
    w.cacheNames.get? name = some c ∧ w.caches[c]? = some cell := by
  simp only [cacheNamed?, Option.bind_eq_bind, Option.bind_eq_some_iff, Option.some.injEq,
    Prod.mk.injEq] at h
  obtain ⟨_, hn, _, hc, rfl, rfl⟩ := h
  exact ⟨hn, hc⟩

theorem limiterNamed?_eq_some {name : String} {l : Nat} {cell : LimiterCell}
    (h : w.limiterNamed? name = some (l, cell)) :
    w.limiterNames.get? name = some l ∧ w.limiters[l]? = some cell := by
  simp only [limiterNamed?, Option.bind_eq_bind, Option.bind_eq_some_iff, Option.some.injEq,
    Prod.mk.injEq] at h
  obtain ⟨_, hn, _, hl, rfl, rfl⟩ := h
  exact ⟨hn, hl⟩

theorem NamesFrom.addLimiter {name cache : String} (hc : w.cacheNames.get? cache = some c)
    (l : Limiter) (trace : Trace) : w.NamesFrom ({ w with trace }.addLimiter name l c) where
  cache := .inl
  limiter {other n cell} hn hl := by
    simp only [World.addLimiter, Array.getElem?_push] at hn hl
    split at hl
    · cases hl
      exact .name hc
    · rw [Table.get?_set] at hn
      split at hn
      · exact absurd (Option.some.inj hn).symm ‹_›
      · exact .limiter hn hl rfl

theorem namesFrom_acted (w : World) (s : Step) : w.NamesFrom (w.acted s) := by
  have same {v : World} (hc : v.cacheNames = w.cacheNames) (hl : v.limiterNames = w.limiterNames)
      (hm : v.limiters = w.limiters) : w.NamesFrom v := .of_same hc hl hm
  have start : w.NamesFrom (w.shown #[]) := same rfl rfl rfl
  have e : w.acted s = ((w.shown #[]).act s).1 := rfl
  rw [e]
  cases s with
  | advance | setWall => exact same rfl rfl rfl
  | cache name =>
    refine ⟨fun {other c} hn => ?_, fun hn hl => .limiter hn hl rfl⟩
    simp only [act, addCache, Table.get?_set] at hn
    split at hn
    · exact .inr (Nat.le_of_eq (Option.some.inj hn))
    · exact .inl hn
  | limiter name cache spec salt =>
    simp only [act, withCache]
    split
    · exact start
    · rename_i c _ hc
      simp only [logAll_eq]
      split
      · exact same rfl rfl rfl
      · exact NamesFrom.addLimiter (w := w) (cacheNamed?_eq_some (w := w) hc).1 ..
  | clone name copy =>
    simp only [act]
    split
    · exact start
    · rename_i l cell hl
      obtain ⟨named, there⟩ := limiterNamed?_eq_some hl
      refine ⟨.inl, fun {other l' cell'} hn hl' => ?_⟩
      simp only [Table.get?_set] at hn
      split at hn
      · exact .limiter named (by rwa [Option.some.inj hn]) rfl
      · exact .limiter hn hl' rfl
  | dropLimiter name =>
    exact ⟨.inl, fun hn hl => .limiter (get?_of_erase hn) hl rfl⟩
  | dropCache name =>
    exact ⟨fun hn => .inl (get?_of_erase hn), fun hn hl => .limiter hn hl rfl⟩
  | throttle name identifier times =>
    simp only [act]
    split
    · exact start
    · split
      · obtain ⟨_, _, he⟩ := issueAll_eq (w.shown #[]) _ _ identifier.render times
        exact same (by rw [he]; rfl) (by rw [he]; rfl) (by rw [he]; rfl)
      · exact start
  | dropHandle i =>
    simp only [act, dropHandle]
    split
    · exact start
    · split <;> exact same rfl rfl rfl
  | put =>
    refine withEntry_of start fun _ _ _ => ?_
    split <;> exact same rfl rfl rfl
  | get => exact withEntry_of start fun _ _ _ => same rfl rfl rfl
  | purge | clear | isEmpty | gate => exact withCache_of start fun _ _ => same rfl rfl rfl
  | key key =>
    simp only [act]
    split <;> exact start
  | sweeper cache interval =>
    refine withCache_of start fun _ _ => ?_
    split <;> exact same rfl rfl rfl
  | abort j =>
    simp only [act]
    split <;> exact same rfl rfl rfl
  | shutdown =>
    obtain ⟨_, -, he⟩ := (w.shown #[]).shutDown_eq
    simp only [act]
    exact same (by rw [he]; rfl) (by rw [he]; rfl) (by rw [he]; rfl)

/-- What leads to a cache after a step led to it before, or something else did. -/
theorem leads_of_acted (hc : c < w.caches.size) (h : (w.acted s).Leads c) : w.Leads c := by
  have names := namesFrom_acted w s
  cases h with
  | name named =>
    rcases names.cache named with named | new
    · exact .name named
    · exact absurd hc (Nat.not_lt.2 new)
  | limiter named hl e =>
    subst e
    exact names.limiter named hl
  | request ha e unanswered =>
    rcases admission_acted ha with
      ⟨a, ha, becomes, same | ⟨-, ended⟩⟩ | ⟨-, _, _, _, l, cell, -, hn, hl, rfl⟩
    · exact .request ha (becomes.cache.symm.trans e) (by rwa [← same])
    · exact absurd ended unanswered
    · exact .limiter hn hl e

theorem size_caches_acted (hc : c < w.caches.size) : c < (w.acted s).caches.size := by
  obtain ⟨cell, hc', -⟩ := cell_acted (s := s) (Array.getElem?_eq_getElem hc)
  exact (Array.getElem?_eq_some_iff.1 hc').1

/-! ### Turns -/

/-- A turn leaves all names and all limiters as they are. -/
theorem Orderly.names_turn {task : Task} (o : w.Orderly) (hr : w.ready.head? = some task) :
    (w.taken.turn task).cacheNames = w.cacheNames ∧
      (w.taken.turn task).limiterNames = w.limiterNames := by
  cases task with
  | sweeper j =>
    obtain ⟨_, _, _, _, _, _, -, e⟩ := w.taken.sweeperTurn_frame j
    rw [World.turn, e]
    exact ⟨rfl, rfl⟩
  | admission i =>
    obtain ⟨a, -, turn⟩ := o.admissionTurn_cases hr
    rw [World.turn]
    generalize w.taken.admissionTurn i = w' at turn
    cases turn with
    | joins | ends => exact ⟨rfl, rfl⟩
    | @works cell _ lines =>
      obtain ⟨_, _, _, _, _, _, e⟩ := pass_frame (w.begun lines) i a (a.passage cell w.clock)
      rw [e]
      exact ⟨rfl, rfl⟩

/-- A request without an answer after a turn had none before. -/
theorem Orderly.unanswered_turn {task : Task} (o : w.Orderly) (hr : w.ready.head? = some task)
    {i : Nat} {b : Admission} (hb : (w.taken.turn task).admissions[i]? = some b)
    (unanswered : b.phase ≠ .finished) :
    ∃ a, w.admissions[i]? = some a ∧ a.cache = b.cache ∧ a.phase ≠ .finished := by
  rcases Moment.serving_or_idle (m := ⟨w, task⟩) o hr with ⟨j, a, cell, s⟩ | idle
  · obtain ⟨a', ha', rfl⟩ := s.admission_after hb
    refine ⟨a', ha', rfl, fun ended => ?_⟩
    by_cases hj : j = i
    · subst hj
      obtain rfl : a = a' := Option.some.inj (s.admission.symm.trans ha')
      obtain ⟨rest, t⟩ := s.holder
      have undecided := t.undecided
      simp [ended, Phase.stage] at undecided
    · rw [if_neg hj] at unanswered
      exact unanswered ended
  · obtain ⟨a, ha, e, idles⟩ := idle.admission hb
    refine ⟨a, ha, by rw [e], fun ended => ?_⟩
    rw [ended] at idles
    generalize b.phase = q at idles unanswered
    cases idles
    exact unanswered rfl

/-- What leads to a cache after a turn did so before. -/
theorem leads_of_turn {task : Task} (o : w.Orderly) (hr : w.ready.head? = some task)
    (h : (w.taken.turn task).Leads c) : w.Leads c := by
  obtain ⟨caches, limiters⟩ := o.names_turn hr
  cases h with
  | name named => exact .name (by rwa [← caches])
  | limiter named hl e => exact .limiter (by rwa [← limiters]) (by rwa [← o.limiters_turn hr]) e
  | request ha e unanswered =>
    obtain ⟨a, ha, hc, hp⟩ := o.unanswered_turn hr ha unanswered
    exact .request ha (hc.trans e) hp

end World

namespace Course

open World

variable {ok : World → Step → Prop} {v w : World} {h : List Moment} {c : Nat}

/-- A cache that there is is there for good. -/
theorem lt_size_caches (k : Course ok v h w) (o : v.Orderly) (hc : c < v.caches.size) :
    c < w.caches.size := by
  induction k with
  | start => exact hc
  | act _ _ ih => exact size_caches_acted ih
  | turn k hr ih =>
    obtain ⟨cell, hc', -⟩ :=
      (k.orderly o).cell_turn (by rw [hr]; rfl) (Array.getElem?_eq_getElem ih)
    exact (Array.getElem?_eq_some_iff.1 hc').1

/-- What leads to a cache at the end of a course led to it at the beginning, and in every
    turn, or something else did. -/
theorem leads (k : Course ok v h w) (o : v.Orderly) (hc : c < v.caches.size)
    (leads : w.Leads c) : v.Leads c ∧ ∀ m ∈ h, m.world.Leads c := by
  induction k with
  | start => exact ⟨leads, by simp⟩
  | act k _ ih => exact ih (leads_of_acted (k.lt_size_caches o hc) leads)
  | turn k hr ih =>
    have before := leads_of_turn (k.orderly o) (by rw [hr]; rfl) leads
    obtain ⟨first, all⟩ := ih before
    refine ⟨first, fun m hm => ?_⟩
    rcases List.mem_append.1 hm with hm | hm
    · exact all m hm
    · rw [List.mem_singleton.1 hm]
      exact before

end Course

end Turnstile
