import Mathlib.Data.List.Nodup
import Turnstile.Proofs.Session.Spacing

/-!
# Minimum distance

The sessions of one limiter on a cache whose clocks only move forward together, in
which no gate holds and nobody else writes to the cache. Every request that is
admitted has a grant of its own (`Redeemed`), with the delay it is answered, and so
the slots of requests lie as those of grants:

* `slots_in_a_row`: each grant follows the one before, slots never decrease, and a
  window of the length of the threshold has two at most;
* `close_slots_iff`: which two slots are closer than the threshold. The entry that a
  request leaves which has to wait lives until its own slot only, so who comes right
  after that is admitted at once.
-/

namespace Turnstile

/-- A grant is for the request that is served, which is decided then. -/
theorem Moment.Serving.grant_eq {m : Moment} {i c : Nat} {a : Admission} {cell : CacheCell}
    {key : Key} {g : Grant} (s : m.Serving i a cell) (hg : m.grant? c key = some g) :
    g.request = i ∧ (a.passage cell m.world.clock).exit.phase.stage = 3 := by
  rw [s.grant?] at hg
  split at hg
  · rename_i delay he
    split at hg
    · cases hg
      exact ⟨rfl, Exit.stage_of_outcome (by rw [he]; rfl)⟩
    · cases hg
  · cases hg

/-- That a request for a key on a cache is answered with an admission. -/
structure Admitted (c : Nat) (key : Key) (h : List Moment) (last : World) (i : Nat)
    (delay : Span) : Prop where
  answer : ∃ m ∈ h, (i, .ok delay) ∈ m.answers
  request : ∃ a, last.admissions[i]? = some a ∧ a.cache = c ∧ a.key = key

instance (c : Nat) (key : Key) (h : List Moment) (last : World) (i : Nat) (delay : Span) :
    Decidable (Admitted c key h last i delay) :=
  decidable_of_iff ((∃ m ∈ h, (i, .ok delay) ∈ m.answers) ∧
      ∃ a, last.admissions[i]? = some a ∧ a.cache = c ∧ a.key = key)
    ⟨fun h => ⟨h.1, h.2⟩, fun h => ⟨h.answer, h.request⟩⟩

/-- That a request has a grant with a delay. -/
def Granted (c : Nat) (key : Key) (h : List Moment) (i : Nat) (delay : Span) : Prop :=
  ∃ g ∈ grants c key h, g.request = i ∧ g.delay = delay

/-- That who waits for its slot or is admitted has a grant of its own. -/
structure Redeemed (c : Nat) (key : Key) (h : List Moment) (w : World) : Prop where
  waiting : ∀ {i : Nat} {a : Admission} {delay : Span}, w.admissions[i]? = some a →
    a.cache = c → a.key = key → a.phase = .waiting delay → Granted c key h i delay
  there : ∀ {m : Moment} {i : Nat} {delay : Span}, m ∈ h → (i, .ok delay) ∈ m.answers →
    i < w.admissions.size
  admitted : ∀ {i : Nat} {delay : Span}, Admitted c key h w i delay → Granted c key h i delay
  decided : ∀ g ∈ grants c key h, ∃ a, w.admissions[g.request]? = some a ∧ a.phase.stage = 3
  nodup : ((grants c key h).map Grant.request).Nodup

theorem Granted.concat {c : Nat} {key : Key} {h : List Moment} {i : Nat} {delay : Span}
    (k : Granted c key h i delay) (m : Moment) : Granted c key (h ++ [m]) i delay := by
  obtain ⟨g, hg, e⟩ := k
  refine ⟨g, ?_, e⟩
  rw [grants_concat]
  exact List.mem_append_left _ hg

namespace Redeemed

open World

variable {c : Nat} {key : Key} {h : List Moment} {w w' : World}

theorem decided_of_evolves (k : Redeemed c key h w) (e : w.Evolves w') {g : Grant}
    (hg : g ∈ grants c key h) :
    ∃ a, w'.admissions[g.request]? = some a ∧ a.phase.stage = 3 := by
  obtain ⟨a, ha, decided⟩ := k.decided g hg
  obtain ⟨b, hb, hab⟩ := e.becomes ha
  have := hab.stage_le
  have := b.phase.stage_le
  exact ⟨b, hb, by omega⟩

theorem there_of_evolves (k : Redeemed c key h w) (e : w.Evolves w') {m : Moment} {i : Nat}
    {delay : Span} (hm : m ∈ h) (ha : (i, .ok delay) ∈ m.answers) : i < w'.admissions.size := by
  have hi := k.there hm ha
  obtain ⟨b, hb, -⟩ := e.becomes (Array.getElem?_eq_getElem hi)
  exact (Array.getElem?_eq_some_iff.1 hb).1

/-- An answer that was given before is to a request that was there before. -/
theorem admitted_of_evolves (k : Redeemed c key h w) (e : w.Evolves w') {i : Nat} {delay : Span}
    (ha : ∃ m ∈ h, (i, .ok delay) ∈ m.answers)
    (hr : ∃ b, w'.admissions[i]? = some b ∧ b.cache = c ∧ b.key = key) :
    Granted c key h i delay := by
  obtain ⟨m, hm, hma⟩ := ha
  obtain ⟨b, hb, hc, hk⟩ := hr
  have there := Array.getElem?_eq_getElem (k.there hm hma)
  obtain ⟨b', hb', becomes⟩ := e.becomes there
  obtain rfl : b = b' := Option.some.inj (hb.symm.trans hb')
  exact k.admitted ⟨⟨m, hm, hma⟩, _, there, becomes.cache.symm.trans hc, becomes.key.symm.trans hk⟩

theorem acted (k : Redeemed c key h w) (s : Step) : Redeemed c key h (w.acted s) where
  waiting {i b delay} hb hc hk hp := by
    rcases admission_acted hb with ⟨a, ha, hab, e | ⟨-, e⟩⟩ | ⟨-, _, _, _, _, _, _, _, _, rfl⟩
    · exact k.waiting ha (hab.cache.symm.trans hc) (hab.key.symm.trans hk) (e.symm.trans hp)
    · rw [hp] at e
      cases e
    · cases hp
  there hm ha := k.there_of_evolves (evolves_acted w s) hm ha
  admitted ha := k.admitted_of_evolves (evolves_acted w s) ha.answer ha.request
  decided _ hg := k.decided_of_evolves (evolves_acted w s) hg
  nodup := k.nodup

variable {m : Moment}

theorem serving (k : Redeemed c key h m.world) (o : m.world.Orderly)
    (hr : m.world.ready.head? = some m.task) {i : Nat} {a : Admission} {cell : CacheCell}
    (s : m.Serving i a cell) : Redeemed c key (h ++ [m]) m.after := by
  have evolves : m.world.Evolves m.after := o.evolves_turn hr
  obtain ⟨a', ha', becomes⟩ := evolves.becomes s.admission
  -- Who is admitted at the end of its critical section gets its grant in this turn.
  have grant {delay : Span} (he : (a.passage cell m.world.clock).exit = .decided (.ok delay))
      (hc : a.cache = c) (hk : a.key = key) : Granted c key (h ++ [m]) i delay := by
    refine ⟨{ request := i, found := m.foundEntry, arrival := m.world.clock.wall, delay }, ?_,
      rfl, rfl⟩
    rw [grants_concat, s.grant?, he]
    simp [hc, hk]
  have granted {j : Nat} {delay : Span} (hj : (j, .ok delay) ∈ m.answers) :
      j = i ∧ (a.passage cell m.world.clock).exit = .decided (.ok delay) := by
    rw [s.answers] at hj
    exact Exit.decided_of_answers hj
  constructor
  case waiting =>
    intro j b delay hb hc hk hp
    obtain ⟨b', hb', rfl⟩ := s.admission_after hb
    simp only at hc hk hp
    split at hp
    · subst j
      obtain rfl : a = b' := Option.some.inj (s.admission.symm.trans hb')
      exact grant (Exit.decided_of_waiting hp fun he => (Admission.passage_held he).stage) hc hk
    · exact (k.waiting hb' hc hk hp).concat m
  case there =>
    intro n j delay hn hj
    rcases List.mem_append.1 hn with hn | hn
    · exact k.there_of_evolves evolves hn hj
    · rw [List.mem_singleton.1 hn] at hj
      rw [(granted hj).1]
      exact (Array.getElem?_eq_some_iff.1 ha').1
  case admitted =>
    rintro j delay ⟨⟨n, hn, hj⟩, hb⟩
    rcases List.mem_append.1 hn with hn | hn
    · exact (k.admitted_of_evolves evolves ⟨n, hn, hj⟩ hb).concat m
    · rw [List.mem_singleton.1 hn] at hj
      obtain ⟨rfl, he⟩ := granted hj
      obtain ⟨b, hb, hc, hk⟩ := hb
      obtain rfl : b = a' := Option.some.inj (hb.symm.trans ha')
      exact grant he (becomes.cache.symm.trans hc) (becomes.key.symm.trans hk)
  case decided =>
    intro g hg
    rw [grants_concat] at hg
    rcases List.mem_append.1 hg with hg | hg
    · exact k.decided_of_evolves evolves hg
    · obtain ⟨rfl, stage⟩ := s.grant_eq (Option.mem_toList.1 hg)
      have phase := s.phase
      rw [phase?_eq ha', Option.some.injEq] at phase
      exact ⟨a', ha', by rw [phase, stage]⟩
  case nodup =>
    rw [grants_concat, List.map_append]
    cases hg : m.grant? c key with
    | none => simpa using k.nodup
    | some g =>
      -- Who has a grant is decided, but who is served is not.
      obtain ⟨rest, holder⟩ := s.holder
      have undecided := holder.undecided
      simp only [Option.toList_some, List.map_cons, List.map_nil]
      refine List.nodup_append.2 ⟨k.nodup, by simp, fun j hj j' hj' e => ?_⟩
      obtain ⟨g', hg', rfl⟩ := List.mem_map.1 hj
      obtain ⟨b, hb, decided⟩ := k.decided g' hg'
      rw [e, List.mem_singleton.1 hj', (s.grant_eq hg).1, s.admission] at hb
      cases hb
      omega

theorem idle (k : Redeemed c key h m.world) (o : m.world.Orderly)
    (hr : m.world.ready.head? = some m.task) (idle : m.Idle) :
    Redeemed c key (h ++ [m]) m.after := by
  have evolves : m.world.Evolves m.after := o.evolves_turn hr
  have same : grants c key (h ++ [m]) = grants c key h := by
    rw [grants_concat, idle.grant?]
    simp
  -- Who is answered in an idle turn was waiting, and so has a grant.
  have waiting {i : Nat} {delay : Span} (hi : (i, .ok delay) ∈ m.answers) :
      ∃ a, m.world.admissions[i]? = some a ∧ a.phase = .waiting delay := by
    obtain ⟨delay', -, hp, e⟩ := idle.answers _ hi
    cases e
    exact phase?_eq_some_iff.1 hp
  constructor
  case waiting =>
    intro i b delay hb hc hk hp
    obtain ⟨a, ha, e, idles⟩ := idle.admission hb
    rw [e] at hc hk
    rw [hp] at idles
    refine (k.waiting ha hc hk ?_).concat m
    generalize a.phase = p at idles
    cases idles
    rfl
  case there =>
    intro n i delay hn hi
    rcases List.mem_append.1 hn with hn | hn
    · exact k.there_of_evolves evolves hn hi
    · rw [List.mem_singleton.1 hn] at hi
      obtain ⟨a, ha, -⟩ := waiting hi
      obtain ⟨b, hb, -⟩ := evolves.becomes ha
      exact (Array.getElem?_eq_some_iff.1 hb).1
  case admitted =>
    rintro i delay ⟨⟨n, hn, hi⟩, hb⟩
    refine Granted.concat ?_ m
    rcases List.mem_append.1 hn with hn | hn
    · exact k.admitted_of_evolves evolves ⟨n, hn, hi⟩ hb
    · rw [List.mem_singleton.1 hn] at hi
      obtain ⟨a, ha, hp⟩ := waiting hi
      obtain ⟨b, hb, hc, hk⟩ := hb
      obtain ⟨b', hb', becomes⟩ := evolves.becomes ha
      obtain rfl : b = b' := Option.some.inj (hb.symm.trans hb')
      exact k.waiting ha (becomes.cache.symm.trans hc) (becomes.key.symm.trans hk) hp
  case decided =>
    intro g hg
    rw [same] at hg
    exact k.decided_of_evolves evolves hg
  case nodup =>
    rw [same]
    exact k.nodup

end Redeemed

/-! ### Sessions -/

theorem Course.redeemed {ok : World → Step → Prop} {w : World} {h : List Moment} {wall : Int}
    (k : Course ok (World.starting wall) h w) (c : Nat) (key : Key) : Redeemed c key h w := by
  have start := World.orderly_starting wall
  induction k with
  | start =>
    constructor
    case waiting => exact fun ha => by simp [World.starting] at ha
    case admitted =>
      rintro i delay ⟨⟨m, hm, -⟩, -⟩
      cases hm
    all_goals simp [grants]
  | act _ _ ih => exact ih.acted _
  | @turn h w task rest k hr ih =>
    have head : w.ready.head? = some task := by rw [hr]; rfl
    have o := k.orderly start
    rcases Moment.serving_or_idle (m := ⟨w, task⟩) o head with ⟨i, a, cell, s⟩ | idle
    · exact Redeemed.serving (m := ⟨w, task⟩) ih o head s
    · exact Redeemed.idle (m := ⟨w, task⟩) ih o head idle

namespace World

/-- A session of one limiter on a cache. -/
structure Sole (wall : Int) (steps : List Step) (l : Nat) (cell : LimiterCell) : Prop where
  /-- The clocks move forward together, and only limiters write to the cache. -/
  undisturbed : (starting wall).Along (Undisturbed cell.cache) steps
  limiter : ((starting wall).final steps).limiters[l]? = some cell
  /-- All requests on the cache are of the limiter. -/
  owner : ∀ a ∈ ((starting wall).final steps).admissions, a.cache = cell.cache → a.owner = l

instance (wall : Int) (steps : List Step) (l : Nat) (cell : LimiterCell) :
    Decidable (Sole wall steps l cell) :=
  decidable_of_iff ((starting wall).Along (Undisturbed cell.cache) steps ∧
      ((starting wall).final steps).limiters[l]? = some cell ∧
      ∀ a ∈ ((starting wall).final steps).admissions, a.cache = cell.cache → a.owner = l)
    ⟨fun h => ⟨h.1, h.2.1, h.2.2⟩, fun h => ⟨h.undisturbed, h.limiter, h.owner⟩⟩

variable {wall : Int} {steps : List Step} {l : Nat} {cell : LimiterCell}

theorem Sole.chain (k : Sole wall steps l cell) (key : Key) :
    (grants cell.cache key ((starting wall).history steps)).IsChain
      (Grant.Follows cell.limiter.threshold) := by
  have course := course_history k.undisturbed
  refine (course.tracked fun {i a} ha hc => ?_).1
  have owned := course.owned (orderly_starting wall) (owned_starting wall)
  obtain ⟨cell', hl, e, -⟩ := owned.limiter ha
  have owner := k.owner a (Array.mem_of_getElem? ha) hc
  rw [owner, k.limiter] at hl
  cases hl
  rw [e]

/-- Two requests at once and a third one later, at a limiter of a second that has them
    wait for two. -/
def thrice (later : Span) : List Step :=
  [.cache "c", .limiter "a" "c" (.spans (.ofMillis 1000) (.ofMillis 2000)) (.ok .zero),
    .throttle "a" (.plain "x") 2, .advance later, .throttle "a" (.plain "x") 1]

/-- The limiter of `thrice`. -/
def thriceLimiter : LimiterCell := ⟨⟨.ofMillis 1000, .ofMillis 2000, .zero⟩, 0⟩

/-- The key of `thrice`. -/
def thriceKey : Key := Salt.zero.anonymize "x"

/-- In a session of one limiter each admission of a key follows the one before. So slots
    never decrease, and a window of the length of the threshold has two at most. -/
theorem Sole.slots_in_a_row (k : Sole wall steps l cell) (key : Key) :
    let threshold := cell.limiter.threshold
    let h := (starting wall).history steps
    let gs := grants cell.cache key h
    (∀ i delay, Admitted cell.cache key h ((starting wall).final steps) i delay →
      Granted cell.cache key h i delay) ∧
    (gs.map Grant.request).Nodup ∧
    gs.IsChain (Grant.Follows threshold) ∧
    gs.Pairwise (fun a b => a.slot ≤ b.slot) ∧
    ∀ start : Int,
      (gs.filter fun g => start ≤ g.slot ∧ g.slot < start + threshold.nanos).length ≤ 2 := by
  have redeemed := (course_history k.undisturbed).redeemed cell.cache key
  have chain := k.chain key
  exact ⟨fun i delay => redeemed.admitted, redeemed.nodup, chain, Grant.sorted_of_chain chain,
    Grant.window_le_two chain⟩

theorem Sole.slots_in_a_row_thrice :
    let gs := grants 0 thriceKey ((starting 0).history (thrice (.ofMillis 500)))
    Sole 0 (thrice (.ofMillis 500)) 0 thriceLimiter ∧
      gs.map Grant.slot = [0, 1000000000, 2000000000] ∧
      gs.IsChain (Grant.Follows (.ofMillis 1000)) := by
  have run : Sole 0 (thrice (.ofMillis 500)) 0 thriceLimiter ∧
      (grants 0 thriceKey ((starting 0).history (thrice (.ofMillis 500)))).map Grant.slot =
        [0, 1000000000, 2000000000] := by
    decide +kernel
  exact ⟨run.1, run.2, (Sole.slots_in_a_row run.1 thriceKey).2.2.1⟩

/-- In a session of one limiter two admissions of a key are closer than the threshold
    exactly if the one comes right after the other and is not in time; so all are apart
    exactly if every one is in time. -/
theorem Sole.close_slots_iff (k : Sole wall steps l cell) (key : Key) :
    let threshold := cell.limiter.threshold
    let h := (starting wall).history steps
    let gs := grants cell.cache key h
    (∀ i delay, Admitted cell.cache key h ((starting wall).final steps) i delay →
      Granted cell.cache key h i delay) ∧
    (gs.map Grant.request).Nodup ∧
    (∀ a ∈ gs, ∀ b ∈ gs, a ≠ b → ((b.slot - a.slot).natAbs < threshold.nanos ↔
      Grant.Collides threshold gs a b ∨ Grant.Collides threshold gs b a)) ∧
    ((∀ a ∈ gs, ∀ b ∈ gs, a ≠ b → threshold.nanos ≤ (b.slot - a.slot).natAbs) ↔
      gs.IsChain (Grant.InTime threshold)) := by
  have redeemed := (course_history k.undisturbed).redeemed cell.cache key
  have chain := k.chain key
  exact ⟨fun i delay => redeemed.admitted, redeemed.nodup,
    fun a ha b hb ne => Grant.close_iff chain ha hb ne,
    Grant.all_apart_iff chain (List.Nodup.of_map _ redeemed.nodup)⟩

/-- The second request waits for the slot at which the third arrives, which finds no
    entry. -/
theorem thrice_run :
    let h := (starting 0).history (thrice (.ofMillis 1000))
    let last := (starting 0).final (thrice (.ofMillis 1000))
    Sole 0 (thrice (.ofMillis 1000)) 0 thriceLimiter ∧
      grants 0 thriceKey h =
        [⟨0, false, 0, .zero⟩, ⟨1, true, 0, .ofMillis 1000⟩, ⟨2, false, 1000000000, .zero⟩] ∧
      Admitted 0 thriceKey h last 1 (.ofMillis 1000) ∧ Admitted 0 thriceKey h last 2 .zero := by
  decide +kernel

theorem Sole.close_slots_iff_thrice :
    let gs := grants 0 thriceKey ((starting 0).history (thrice (.ofMillis 1000)))
    let a : Grant := ⟨1, true, 0, .ofMillis 1000⟩
    let b : Grant := ⟨2, false, 1000000000, .zero⟩
    Sole 0 (thrice (.ofMillis 1000)) 0 thriceLimiter ∧ a ∈ gs ∧ b ∈ gs ∧ a ≠ b ∧
      Grant.Collides (.ofMillis 1000) gs a b ∧
      (b.slot - a.slot).natAbs < (Span.ofMillis 1000).nanos := by
  intro gs a b
  obtain ⟨sole, run, -⟩ := thrice_run
  have ha : a ∈ gs := by simp [gs, a, run]
  have hb : b ∈ gs := by simp [gs, b, run]
  have ne : a ≠ b := by decide
  have late : ¬ Grant.InTime (.ofMillis 1000) a b := by
    unfold Grant.InTime
    decide
  have collides : Grant.Collides (.ofMillis 1000) gs a b :=
    ⟨⟨[⟨0, false, 0, .zero⟩], [], by simp [gs, a, b, run]⟩, late⟩
  have iff := (Sole.close_slots_iff sole thriceKey).2.2.1 a ha b hb ne
  exact ⟨sole, ha, hb, ne, collides, iff.2 (.inl collides)⟩

/-- Two admissions may be closer than the threshold. -/
theorem Sole.slots_may_meet : ¬ ∀ (wall : Int) (steps : List Step) (l : Nat) (cell : LimiterCell)
    (key : Key), Sole wall steps l cell → 0 < cell.limiter.threshold.nanos →
      let h := (starting wall).history steps
      let last := (starting wall).final steps
      ∀ (i j : Nat) (d e : Span), i ≠ j → Admitted cell.cache key h last i d →
        Admitted cell.cache key h last j e → ∀ a ∈ grants cell.cache key h,
          ∀ b ∈ grants cell.cache key h, a.request = i → b.request = j →
            cell.limiter.threshold.nanos ≤ (b.slot - a.slot).natAbs := by
  intro apart
  obtain ⟨sole, run, second, third⟩ := thrice_run
  have far := apart _ _ _ _ thriceKey sole (by decide) 1 2 _ _ (by decide) second third
    ⟨1, true, 0, .ofMillis 1000⟩ (by simp [thriceLimiter, run])
    ⟨2, false, 1000000000, .zero⟩ (by simp [thriceLimiter, run]) rfl rfl
  exact absurd far (by decide)

end World

end Turnstile
