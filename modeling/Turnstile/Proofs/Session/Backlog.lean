import Mathlib.Algebra.Order.Floor.Div
import Turnstile.Proofs.Session.Distance
import Turnstile.Proofs.Session.Provenance

/-!
# Backlog

How many requests for a key may be waiting for their slots. A slot that is still to come
was waited for, so the request found an entry, and its slot is exactly a threshold after
the one before. All slots ahead are therefore in one row of equal distances, whose last
one was within the deadline when it was granted.

* `Grant.backlog_le`: so there are no more of them than thresholds fit into the deadline,
  a begun one counted as a whole one;
* `Moment.Serving.stores_within`: what is stored is a slot not further ahead than a
  threshold and the deadline;
* `World.Sole.backlog_bounded`: both, at any time in a session of one limiter.
-/

namespace Turnstile

/-! ### Slots ahead -/

namespace Grant

variable {threshold deadline : Span} {g : Grant} {gs : List Grant} {present : Int}

/-- Behind a slot that is still to come every slot is a threshold after the one before. -/
theorem getLast_slot_of_ahead (chain : (g :: gs).IsChain (Follows threshold))
    (arrived : ∀ b ∈ gs, b.arrival ≤ present) (ahead : present < g.slot) :
    ((g :: gs).getLast (by simp)).slot = g.slot + gs.length * threshold.nanos := by
  induction gs generalizing g with
  | nil => simp
  | cons b rest ih =>
    obtain ⟨follows, chain⟩ := List.isChain_cons_cons.1 chain
    have sorted := follows.slot_le
    have here := arrived b (List.mem_cons_self ..)
    have step : b.slot = g.slot + threshold.nanos := by
      rcases follows with ⟨-, slot⟩ | ⟨-, atOnce, -⟩
      · exact slot
      · -- Who is admitted at once has its slot when it arrives.
        have := slot_of_delay_eq_zero atOnce
        omega
    rw [List.getLast_cons (by simp), ih chain (fun a ha => arrived a (.tail _ ha)) (by omega), step,
      List.length_cons]
    push_cast
    rw [Int.add_mul]
    omega

/-- There are no more slots ahead than thresholds fit into the deadline. -/
theorem backlog_le (chain : gs.IsChain (Follows threshold)) (positive : 0 < threshold.nanos)
    (arrived : ∀ g ∈ gs, g.arrival ≤ present)
    (within : ∀ g ∈ gs, g.delay.nanos ≤ deadline.nanos) :
    (gs.filter fun g => present < g.slot).length ≤ deadline.nanos ⌈/⌉ threshold.nanos := by
  induction gs with
  | nil => simp
  | cons g rest ih =>
    have later := ih chain.tail (fun a ha => arrived a (.tail _ ha))
      fun a ha => within a (.tail _ ha)
    by_cases ahead : present < g.slot
    · have last := getLast_slot_of_ahead chain (fun a ha => arrived a (.tail _ ha)) ahead
      have mem := List.getLast_mem (l := g :: rest) (by simp)
      have bound : ((g :: rest).getLast (by simp)).slot ≤ present + deadline.nanos := by
        have := arrived _ mem
        have := within _ mem
        unfold slot
        omega
      have short : rest.length * threshold.nanos < deadline.nanos := by
        rw [last] at bound
        have : (rest.length * threshold.nanos : Int) < deadline.nanos := by omega
        exact_mod_cast this
      calc _ ≤ (g :: rest).length := List.length_filter_le ..
        _ = rest.length + 1 := List.length_cons
        _ ≤ deadline.nanos ⌈/⌉ threshold.nanos := ?_
      refine Nat.lt_of_not_le fun le => ?_
      rw [ceilDiv_le_iff_le_mul positive, Nat.mul_comm] at le
      omega
    · simpa [ahead] using later

end Grant

/-! ### Turns -/

namespace Moment

open World

variable {m : Moment} {i c : Nat} {a : Admission} {cell : CacheCell} {key : Key}
  {threshold : Span} {last : Option Grant}

/-- What a turn stores that no gate interrupts is what is reserved for what the cache
    holds and for the present. -/
theorem Serving.reserves (s : m.Serving i a cell) (steady : m.world.Steady a.cache)
    {name : String} {value : Value} {lifetime : Span}
    (stored : .store name key value lifetime ∈ m.calls) :
    ∃ reading r, m.world.clock.read = .ok reading ∧
      (a.limiter.decide (cell.store.live? m.world.clock.now a.key.text) reading).reservation? =
        some r ∧ value = .timestamp r.slot := by
  obtain ⟨rest, holder⟩ := s.holder
  have undecided := holder.undecided
  have unheld := steady.phase s.admission rfl
  rw [s.calls] at stored
  cases hr : m.world.clock.read with
  | error fault =>
    rw [s.passage_eq steady, Admission.entering, hr] at stored
    cases stored
  | ok reading =>
    have through : a.limiter.Through cell.name a.key reading
        ([] ++ (a.passage cell m.world.clock).passed) (a.passage cell m.world.clock).exit :=
      Admission.passage_through (fun _ => ⟨hr, rfl⟩) (fun held => absurd held unheld) undecided
    have passed : .store name key value lifetime ∈ (a.passage cell m.world.clock).passed :=
      List.mem_filter.2 ⟨stored, rfl⟩
    obtain ⟨found, head, e | ⟨r, reserved, e⟩⟩ := through.cases_of_mem passed
    · cases e
    · cases e
      have lookup := List.mem_of_mem_head? head
      have live := (Admission.passage_found (List.mem_of_mem_filter lookup)).2
      exact ⟨reading, r, rfl, by rwa [← live], rfl⟩

/-- A slot that is stored is not further ahead than a threshold and the deadline. -/
theorem Serving.stores_within (s : m.Serving i a cell) (steady : m.world.Steady a.cache)
    (tracks : m.world.Tracks a.cache a.key a.limiter.threshold last) {name : String} {value : Value}
    {lifetime : Span} (stored : .store name key value lifetime ∈ m.calls) :
    ∃ slot, value = .timestamp slot ∧
      slot.nanos ≤ m.world.clock.wall + a.limiter.threshold.nanos + a.limiter.deadline.nanos := by
  obtain ⟨reading, r, hr, reserved, rfl⟩ := s.reserves steady stored
  have wait := Limiter.delay_le reserved
  -- It is the slot after that of the grant which the reservation makes.
  obtain ⟨-, slot, -⟩ := tracks.reserve s.cache hr rfl reserved (g :=
    ⟨i, (cell.store.live? m.world.clock.now a.key.text).isSome, m.world.clock.wall, r.delay⟩)
    rfl rfl rfl
  refine ⟨r.slot, rfl, ?_⟩
  simp only [Grant.slot] at slot
  omega

/-- A slot is granted to a request on the cache, at its arrival and for no longer than the
    deadline. -/
theorem Serving.granted (s : m.Serving i a cell) (steady : m.world.Steady c) {g : Grant}
    (hg : m.grant? c key = some g) :
    a.cache = c ∧ g.arrival = m.world.clock.wall ∧ g.delay.nanos ≤ a.limiter.deadline.nanos := by
  rw [s.grant?] at hg
  split at hg
  · rename_i delay he
    split at hg
    · rename_i own
      obtain ⟨rfl, -⟩ := own
      cases hg
      refine ⟨rfl, rfl, ?_⟩
      rw [s.passage_eq steady] at he
      rcases a.entering_cases cell fun kind => steady.gate kind s.cache with
        ⟨refused, -⟩ | ⟨_, r, _, -, reserved, admitted, -⟩
      · exact absurd he (refused delay)
      · cases admitted.symm.trans he
        exact Limiter.delay_le reserved
    · cases hg
  · cases hg

end Moment

/-! ### Sessions -/

namespace Course

open World

variable {v w : World} {h : List Moment} {wall : Int} {c : Nat}

/-- The wall clock does not go back where it is not set. -/
theorem wall_le (k : Course (Undisturbed c) v h w) (o : v.Orderly) :
    v.clock.wall ≤ w.clock.wall := by
  induction k with
  | start => exact Int.le_refl _
  | @act h w s k hs ih =>
    have unset : ∀ wall, s ≠ .setWall wall := by
      rintro wall rfl
      exact hs
    obtain ⟨d, clock⟩ := clock_acted_advance w unset
    rw [clock]
    simp only [Clock.advance]
    omega
  | @turn h w task rest k hr ih =>
    have clock : (Moment.after ⟨w, task⟩).clock = w.clock :=
      (k.orderly o).clock_turn (by rw [hr]; rfl)
    rwa [clock]

/-- A turn in the past, and the course to it. -/
theorem at_turn (k : Course (Undisturbed c) (starting wall) h w) {m : Moment} (hm : m ∈ h) :
    ∃ before, Course (Undisturbed c) (starting wall) before m.world ∧
      m.world.ready.head? = some m.task ∧ m.world.clock.wall ≤ w.clock.wall := by
  have start := orderly_starting wall
  obtain ⟨before, after, e⟩ := List.append_of_mem hm
  obtain ⟨hither, ⟨rest, hr⟩, thence⟩ := k.at_split e
  have head : m.world.ready.head? = some m.task := by rw [hr]; rfl
  have clock : m.after.clock = m.world.clock := (hither.orderly start).clock_turn head
  refine ⟨before, hither, head, ?_⟩
  rw [← clock]
  exact thence.wall_le ((hither.turn hr).orderly start)

end Course

/-- What is ahead for a key on a cache: the slots that are still to come, and those stored
    for who asks next. -/
structure Outlook (c : Nat) (key : Key) (threshold deadline : Span) (h : List Moment) (w : World) :
    Prop where
  /-- Who waits for its slot or is admitted has a grant of its own. -/
  redeemed : Redeemed c key h w
  /-- No more grants have their slots ahead than thresholds fit into the deadline. -/
  backlog : ((grants c key h).filter fun g => w.clock.wall < g.slot).length ≤
    deadline.nanos ⌈/⌉ threshold.nanos
  /-- Every entry that a request has set is a slot not further ahead than a threshold and the
      deadline. -/
  set : ∀ m ∈ h, ∀ {i : Nat} {a : Admission} {e : Entry}, m.Sets i a e → a.cache = c →
    a.key = key → ∃ slot, e.value = .timestamp slot ∧
      slot.nanos ≤ w.clock.wall + threshold.nanos + deadline.nanos
  /-- So is the entry that is stored, expired or not. -/
  stored : ∀ {cell : CacheCell} {e : Entry}, w.caches[c]? = some cell →
    cell.store.stored? key.text = some e → ∃ slot, e.value = .timestamp slot ∧
      slot.nanos ≤ w.clock.wall + threshold.nanos + deadline.nanos

/-- That all requests on a cache are of one limiter, or of those made alike. -/
def World.LeftTo (w : World) (c : Nat) (l : Limiter) : Prop :=
  ∀ (i : Nat) (a : Admission), w.admissions[i]? = some a → a.cache = c → a.limiter = l

/-- Admissions keep their limiters, so a cache that is left to one was so before. -/
theorem World.LeftTo.earlier {v w : World} {c : Nat} {l : Limiter} (left : w.LeftTo c l)
    (e : v.Evolves w) : v.LeftTo c l := by
  intro i a ha hc
  obtain ⟨b, hb, becomes⟩ := e.becomes ha
  rw [← becomes.limiter]
  exact left i b hb (becomes.cache.trans hc)

namespace Course

open World Moment

variable {w : World} {h : List Moment} {wall : Int} {c : Nat} {l : Limiter}

/-- Every entry that a request has set is a slot not further ahead than a threshold and the
    deadline. -/
theorem set_within (k : Course (Undisturbed c) (starting wall) h w) (left : w.LeftTo c l)
    {m : Moment} (hm : m ∈ h) {i : Nat} {a : Admission} {e : Entry} (sets : m.Sets i a e)
    (hc : a.cache = c) : ∃ slot, e.value = .timestamp slot ∧
      slot.nanos ≤ w.clock.wall + l.threshold.nanos + l.deadline.nanos := by
  obtain ⟨before, hither, head, later⟩ := k.at_turn hm
  obtain ⟨a', cell, s⟩ := sets.serves.serving (hither.orderly (orderly_starting wall)) head
  obtain rfl : a = a' := Option.some.inj (sets.admission.symm.trans s.admission)
  have left := left.earlier (k.evolves_from (orderly_starting wall) hm)
  obtain rfl := left i a s.admission hc
  subst hc
  obtain ⟨-, name, slot, lifetime, stored, value, -⟩ := sets.leaves
  have tracks : m.world.Tracks a.cache a.key a.limiter.threshold
      (grants a.cache a.key before).getLast? :=
    (hither.tracked fun hb hbc => by rw [left _ _ hb hbc]).2
  obtain ⟨slot', e', within⟩ := s.stores_within hither.steady tracks stored
  cases e'
  exact ⟨slot, value, by omega⟩

/-- What is ahead in a session in which all requests on a cache are of one limiter. -/
theorem outlook (k : Course (Undisturbed c) (starting wall) h w) (key : Key)
    (positive : 0 < l.threshold.nanos) (left : w.LeftTo c l) :
    Outlook c key l.threshold l.deadline h w where
  redeemed := k.redeemed c key
  backlog := by
    have chain : (grants c key h).IsChain (Grant.Follows l.threshold) :=
      (k.tracked fun ha hc => by rw [left _ _ ha hc]).1
    have granted : ∀ g ∈ grants c key h,
        g.arrival ≤ w.clock.wall ∧ g.delay.nanos ≤ l.deadline.nanos := by
      intro g hg
      obtain ⟨m, hm, hg⟩ := List.mem_filterMap.1 hg
      obtain ⟨before, hither, head, later⟩ := k.at_turn hm
      rcases serving_or_idle (hither.orderly (orderly_starting wall)) head with
        ⟨i, a, cell, s⟩ | idle
      · obtain ⟨hc, arrival, delay⟩ := s.granted hither.steady hg
        have left := left.earlier (k.evolves_from (orderly_starting wall) hm)
        rw [left i a s.admission hc] at delay
        exact ⟨arrival ▸ later, delay⟩
      · rw [idle.grant?] at hg
        cases hg
    exact Grant.backlog_le chain positive (fun g hg => (granted g hg).1)
      fun g hg => (granted g hg).2
  set m hm _ _ _ sets hc _ := k.set_within left hm sets hc
  stored {cell e} hc he := by
    -- Nobody but requests writes to the cache.
    rcases k.stored (fun d _ _ => d ≠ c) (fun {v s d _ _} hs put e => by
      obtain ⟨name, _, _, rfl, named, -⟩ := put
      exact hs (e ▸ named)) hc he with other | ⟨m, hm, i, a, sets, hca, -⟩
    · exact absurd rfl other
    · exact k.set_within left hm sets hca

end Course

namespace World

variable {wall : Int} {steps : List Step} {l : Nat} {cell : LimiterCell}

theorem Sole.leftTo (k : Sole wall steps l cell) :
    ((starting wall).final steps).LeftTo cell.cache cell.limiter := by
  intro i a ha hc
  have course := course_history k.undisturbed
  have owned := course.owned (orderly_starting wall) (owned_starting wall)
  obtain ⟨cell', hl, e, -⟩ := owned.limiter ha
  rw [k.owner a (Array.mem_of_getElem? ha) hc, k.limiter] at hl
  cases hl
  exact e

/-- At any time in a session of one limiter no more requests for a key wait for their slots
    than thresholds fit into the deadline, and no slot that the limiter has stored is further
    ahead than a threshold and the deadline. -/
theorem Sole.backlog_bounded (k : Sole wall steps l cell) (key : Key)
    (positive : 0 < cell.limiter.threshold.nanos) :
    (∀ upto rest, steps = upto ++ rest →
      Outlook cell.cache key cell.limiter.threshold cell.limiter.deadline
        ((starting wall).history upto) ((starting wall).final upto)) ∧
    ∀ before m after, (starting wall).history steps = before ++ m :: after →
      Outlook cell.cache key cell.limiter.threshold cell.limiter.deadline before m.world := by
  constructor
  · rintro upto rest rfl
    obtain ⟨hither, thence⟩ := ((starting wall).along_append upto rest).1 k.undisturbed
    have course := course_history hither
    have left := k.leftTo
    rw [final_append] at left
    exact course.outlook key positive
      (left.earlier ((course_history thence).evolves (course.orderly (orderly_starting wall))))
  · intro before m after split
    have course := course_history k.undisturbed
    have hm : m ∈ (starting wall).history steps := by simp [split]
    exact (course.at_split split).1.outlook key positive
      (k.leftTo.earlier (course.evolves_from (orderly_starting wall) hm))

/-- Two requests at once and two more half a second later, at a limiter of a second that has
    them wait for one and a half. -/
def filledUp : List Step :=
  [.cache "c", .limiter "a" "c" (.spans (.ofMillis 1000) (.ofMillis 1500)) (.ok .zero),
    .throttle "a" (.plain "x") 2, .advance (.ofMillis 500), .throttle "a" (.plain "x") 2]

/-- The limiter of `filledUp`. -/
def filledUpLimiter : LimiterCell := ⟨⟨.ofMillis 1000, .ofMillis 1500, .zero⟩, 0⟩

/-- The last request is refused: as many wait as may. -/
theorem Sole.backlog_bounded_filledUp :
    let h := (starting 0).history filledUp
    let last := (starting 0).final filledUp
    Sole 0 filledUp 0 filledUpLimiter ∧ 0 < filledUpLimiter.limiter.threshold.nanos ∧
      Outlook 0 thriceKey (.ofMillis 1000) (.ofMillis 1500) h last ∧
      ((grants 0 thriceKey h).filter fun g => last.clock.wall < g.slot).length =
        (Span.ofMillis 1500).nanos ⌈/⌉ (Span.ofMillis 1000).nanos := by
  have run : Sole 0 filledUp 0 filledUpLimiter ∧
      ((grants 0 thriceKey ((starting 0).history filledUp)).filter
        fun g => ((starting 0).final filledUp).clock.wall < g.slot).length = 2 := by
    decide +kernel
  exact ⟨run.1, by decide, (Sole.backlog_bounded run.1 thriceKey (by decide)).1 filledUp [] rfl,
    run.2⟩

end World

end Turnstile
