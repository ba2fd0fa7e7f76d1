import Turnstile.Proofs.Session.Provenance

/-!
# Lock-outs end

A limiter computes how long its entries live from the wall clock, which may be set to
any time at all, and lets them expire by the monotonic clock. A slot may so come to lie
ages ahead. Still nobody is kept out for long: a request is only admitted at a slot that
is due within the deadline, so what is stored for it lives no longer than the deadline
or the threshold (`Limiter.lifetime_le`), and a refusal stores nothing.

* `Custody.lockout_ends`: where a limiter alone writes under a key, a lookup finds nothing once
  that time has passed since the last set, and the request is admitted at once.
-/

namespace Turnstile

namespace Course

open World Moment

variable {ok : World → Step → Prop} {w : World} {h : List Moment} {wall : Int}

/-- An entry that is set expires in time. -/
theorem expiry_le (k : Course ok (starting wall) h w) {m : Moment} (hm : m ∈ h) {i : Nat}
    {a : Admission} {e : Entry} (sets : m.Sets i a e) :
    e.expiry.nanos ≤ m.world.clock.now.nanos + a.limiter.entryTime := by
  obtain ⟨-, name, slot, lifetime, call, -, expiry⟩ := sets.leaves
  obtain ⟨-, found, reading, r, hr, -, rfl⟩ := k.reserved hm sets.serves sets.admission call
  have within := Limiter.lifetime_le hr
  rw [Instant.eq_later_of_add? expiry]
  exact Nat.add_le_add_left within _

end Course

/-! ### Sessions -/

namespace World

/-- That a step puts nothing under a key of a cache, or fails to. -/
def KeepsOff (c : Nat) (text : String) (w : World) : Step → Prop
  | .put cache key _ lifetime => w.cacheNames.get? cache = some c → w.keyMeant? key = some text →
      w.clock.now.add? lifetime = none
  | _ => True

instance (c : Nat) (text : String) (w : World) (s : Step) : Decidable (KeepsOff c text w s) :=
  match s with
  | .put .. => inferInstanceAs (Decidable (_ → _))
  | .cache _ | .limiter .. | .clone .. | .dropLimiter _ | .dropCache _ | .throttle .. |
    .dropHandle _ | .advance _ | .setWall _ | .get .. | .purge _ | .clear _ | .isEmpty _ |
    .key _ | .sweeper .. | .abort _ | .gate .. | .shutdown => .isTrue trivial

end World

namespace Moment

/-- That a request is admitted at once, if it is let through and its store does not fail. -/
structure AtOnce (h : List Moment) (last : World) (i : Nat) : Prop where
  outcome : ∀ m ∈ h, ∀ o, m.decision? = some (i, o) → o = .ok .zero ∨
    o = .error .aborted ∧ (m.faults = [.storeFailed] ∨ m.faults = [.instantOverflow])
  /-- It is decided, or held before its store. -/
  reached : last.running → (∃ m ∈ h, ∃ o, m.decision? = some (i, o)) ∨
    ∃ d r, last.phase? i = some (.beforeStore d r) ∧ r.delay = .zero

end Moment

open World Moment

/-- A session in which a limiter, with its clones, alone writes under a key of its cache. -/
structure Custody (wall : Int) (steps : List Step) (l : Nat) (cell : LimiterCell) (key : Key) :
    Prop where
  unput : (starting wall).Along (KeepsOff cell.cache key.text) steps
  limiter : ((starting wall).final steps).limiters[l]? = some cell
  /-- Whoever sets the key is a request at the limiter. -/
  writer : ∀ m ∈ (starting wall).history steps, ∀ i a e, m.Sets i a e → a.cache = cell.cache →
    a.key = key → a.owner = l

/-- That nobody is locked out for longer than a limiter's entries live, given the history
    of a session and its last world. -/
structure LockoutEnds (h : List Moment) (last : World) (l : Nat) (cell : LimiterCell)
    (key : Key) : Prop where
  /-- What the limiter sets, under any key, expires in time. -/
  expiry : ∀ m ∈ h, ∀ i a e, m.Sets i a e → a.owner = l →
    e.expiry.nanos ≤ m.world.clock.now.nanos + cell.limiter.entryTime
  /-- What is stored under the key was set by the limiter. -/
  stored : ∀ there e, last.caches[cell.cache]? = some there →
    there.store.stored? key.text = some e →
      ∃ m ∈ h, ∃ i a, m.Sets i a e ∧ a.owner = l ∧ a.cache = cell.cache ∧ a.key = key
  /-- A lookup finds nothing once that time has passed since the last set of the key. Then
      the request is admitted at once, if the slot after its reading can be written. -/
  nothing : ∀ before n after, h = before ++ n :: after → ∀ i a found, n.Asks i a found →
    a.cache = cell.cache → a.key = key →
    (∀ m ∈ before, ∀ j b e, m.Sets j b e → b.cache = cell.cache → b.key = key →
      m.world.clock.now.nanos + cell.limiter.entryTime ≤ n.world.clock.now.nanos) →
    found = none ∧ ∃ reading, GoesBy h i reading ∧
      ((reading.add? a.limiter.threshold).isSome → AtOnce h last i)

namespace Course

variable {ok : World → Step → Prop} {w : World} {h : List Moment} {wall : Int}

/-- A request that has found nothing is admitted at once, if there is a slot for it. -/
theorem atOnce_of_nothing (k : Course ok (starting wall) h w) {n : Moment} (hn : n ∈ h) {i : Nat}
    {a : Admission} (asks : n.Asks i a none) {reading : Timestamp} (goes : GoesBy h i reading)
    (room : (reading.add? a.limiter.threshold).isSome) : AtOnce h w i := by
  obtain ⟨cache, rest, calls⟩ := k.callsOf_of_asks hn asks
  obtain ⟨b, hb, hab⟩ := (k.evolves_from (orderly_starting wall) hn).becomes asks.admission
  rw [← hab.limiter] at room
  constructor
  case outcome =>
    intro m hm o hd
    obtain ⟨b', cell, e, hb', -, he, faults, ended⟩ := k.ended_of_decision hm hd
    obtain rfl : b = b' := Option.some.inj (hb.symm.trans hb')
    rw [Ended, calls] at ended
    obtain ⟨reading', goes', through⟩ := ended.resolve_left (by simp)
    obtain rfl := goes.unique goes'
    cases e with
    | held => cases he
    | failed fault =>
      obtain rfl := Option.some.inj he
      obtain ⟨own, -⟩ := through.resolve_left (by simp)
      rw [faults]
      exact .inr ⟨rfl, own.imp (congrArg (fun f => [f])) (congrArg (fun f => [f]))⟩
    | decided o' =>
      obtain rfl := Option.some.inj he
      obtain ⟨found, rfl, e⟩ := through
      obtain ⟨-, -, rfl⟩ := Call.lookup.inj (List.head_eq_of_cons_eq e)
      exact .inl (by rw [Limiter.outcome_none, if_pos room])
  case reached =>
    intro running
    obtain ⟨cell, -, knows⟩ := k.informed hb
    by_cases decided : b.phase.stage = 3
    · exact .inl (k.decision_of_stage running hb decided)
    · have le := b.phase.stage_le
      by_cases early : b.phase.stage ≤ 1
      · have none := (knows.outside early).2
        rw [calls] at none
        cases none
      · obtain ⟨reading', -, underway⟩ := knows.inside (by omega)
        rw [calls] at underway
        rw [phase?_eq hb]
        cases hp : b.phase with
        | beforeStore d r =>
          rw [hp] at underway
          obtain ⟨found, e, rfl, hr⟩ := underway
          obtain ⟨-, -, rfl⟩ := Call.lookup.inj (List.head_eq_of_cons_eq e)
          rcases Limiter.reservation_cases hr with ⟨-, -, -, zero⟩ | ⟨_, some, -⟩
          · exact .inr ⟨_, r, rfl, zero⟩
          · cases some
        | beforeLookup =>
          rw [hp] at underway
          cases underway.2
        | issued | inLine | waiting | finished =>
          rw [hp] at underway
          exact underway.elim

end Course

namespace Custody

variable {wall : Int} {steps : List Step} {l : Nat} {cell : LimiterCell} {key : Key}

/-- What is stored under the key, in any world of the session, was set by the limiter. -/
theorem set_of_stored (k : Custody wall steps l cell key) {before : List Moment} {w : World}
    (course : Course (KeepsOff cell.cache key.text) (starting wall) before w)
    (among : ∀ m ∈ before, m ∈ (starting wall).history steps) {there : CacheCell} {e : Entry}
    (hc : w.caches[cell.cache]? = some there) (he : there.store.stored? key.text = some e) :
    ∃ m ∈ before, ∃ i a, m.Sets i a e ∧ a.owner = l ∧ a.cache = cell.cache ∧ a.key = key := by
  -- No step puts anything there.
  have set := course.stored
    (fun c text _ => ¬ (c = cell.cache ∧ text = key.text)) (fun {w s c text e} off put => by
      obtain ⟨_, _, _, rfl, hn, hk, range⟩ := put
      rintro ⟨rfl, rfl⟩
      rw [off hn hk] at range
      cases range) hc he
  obtain ⟨m, hm, i, a, sets, hac, hat⟩ := set.resolve_left fun off => off ⟨rfl, rfl⟩
  have own : a.key = key := by
    cases ha : a.key
    cases key
    simp_all
  exact ⟨m, hm, i, a, sets, k.writer m (among m hm) i a e sets hac own, hac, own⟩

/-- Where a limiter alone writes under a key, nobody is locked out for longer than its
    entries live, whatever the wall clock does. -/
theorem lockout_ends (k : Custody wall steps l cell key) :
    LockoutEnds ((starting wall).history steps) ((starting wall).final steps) l cell key := by
  have course := course_history k.unput
  have expiry : ∀ m ∈ (starting wall).history steps, ∀ i a e, m.Sets i a e → a.owner = l →
      e.expiry.nanos ≤ m.world.clock.now.nanos + cell.limiter.entryTime := by
    intro m hm i a e sets ho
    rw [← course.limiter_eq hm sets.admission (by rw [ho, k.limiter])]
    exact course.expiry_le hm sets
  constructor
  case expiry => exact expiry
  case stored => exact fun there e hc he => k.set_of_stored course (fun m hm => hm) hc he
  case nothing =>
    intro before n after split i a found asks hc hk elapsed
    have hn : n ∈ (starting wall).history steps := by simp [split]
    have nothing : found = none := by
      obtain ⟨course', ⟨rest, hr⟩, -⟩ := course.at_split split
      obtain ⟨a', there, s⟩ := asks.serves.serving (course'.orderly (orderly_starting wall))
        (by rw [hr]; rfl)
      obtain rfl : a = a' := Option.some.inj (asks.admission.symm.trans s.admission)
      obtain ⟨name, call⟩ := asks.call
      refine Option.eq_none_iff_forall_ne_some.2 fun value some => ?_
      rw [some] at call
      -- What is found was set not long ago.
      obtain ⟨e, stored, -, fresh⟩ := s.found call
      have cache := s.cache
      rw [hc] at cache
      rw [hk] at stored
      obtain ⟨m, hm, j, b, sets, owner, hbc, hbk⟩ :=
        k.set_of_stored course' (fun m hm => by simp [split, hm]) cache stored
      have late := elapsed m hm j b e sets hbc hbk
      have early := expiry m (by simp [split, hm]) j b e sets owner
      omega
    subst nothing
    obtain ⟨reading, goes⟩ := course.goesBy_of_asks hn asks
    exact ⟨rfl, reading, goes, course.atOnce_of_nothing hn asks goes⟩

/-- It is enough that all requests for the key on the cache are at the limiter. -/
theorem of_owner (unput : (starting wall).Along (KeepsOff cell.cache key.text) steps)
    (limiter : ((starting wall).final steps).limiters[l]? = some cell)
    (owner : ∀ a ∈ ((starting wall).final steps).admissions, a.cache = cell.cache → a.key = key →
      a.owner = l) : Custody wall steps l cell key := by
  refine ⟨unput, limiter, fun m hm i a e sets hc hk => ?_⟩
  have course := course_history unput
  obtain ⟨b, hb, becomes⟩ :=
    (course.evolves_from (orderly_starting wall) hm).becomes sets.admission
  rw [← becomes.owner]
  exact owner b (Array.mem_of_getElem? hb) (becomes.cache.trans hc) (becomes.key.trans hk)

/-- A request, the wall clock set back by ten seconds, and a second request after the time
    that entries live, which is two seconds. -/
def setBack : List Step :=
  [.cache "c", .limiter "a" "c" (.spans (.ofParts 1 0) (.ofParts 2 0)) (.ok .zero),
    .throttle "a" (.plain "x") 1, .setWall 0, .advance (.ofParts 2 0),
    .throttle "a" (.plain "x") 1]

/-- The limiter of `setBack`. -/
def setBackLimiter : LimiterCell := ⟨⟨.ofParts 1 0, .ofParts 2 0, .zero⟩, 0⟩

/-- The key of `setBack`. -/
def setBackKey : Key := Salt.zero.anonymize "x"

theorem setBack_run :
    let h := (starting 10000000000).history setBack
    let last := (starting 10000000000).final setBack
    ((starting 10000000000).Along (KeepsOff 0 setBackKey.text) setBack ∧
      last.limiters[0]? = some setBackLimiter ∧ ∀ a ∈ last.admissions, a.owner = 0) ∧
    (h.drop 1).length = 1 ∧ ∃ n ∈ h.drop 1,
      (∀ m ∈ h.take 1, m.world.clock.now.nanos + 2000000000 ≤ n.world.clock.now.nanos) ∧
      n.task = .admission 1 ∧ (n.world.phase? 1).any (!·.isDecided) ∧
      n.after.phase? 1 ≠ some .inLine ∧ (n.world.phase? 1).any (·.stage ≤ 1) ∧
      n.world.clock.read.toOption = some ⟨2, 0⟩ ∧
      (∃ a, n.world.admissions[1]? = some a ∧ a.cache = 0 ∧ a.key = setBackKey ∧
        a.limiter = setBackLimiter.limiter) ∧
      .lookup "c" setBackKey none ∈ n.calls := by
  decide +kernel

/-- The second request finds nothing, although the slot of the first lies ten seconds ahead,
    and is admitted at once. -/
theorem lockout_ends_setBack : ∃ reading,
    Custody 10000000000 setBack 0 setBackLimiter setBackKey ∧
      GoesBy ((starting 10000000000).history setBack) 1 reading ∧
      AtOnce ((starting 10000000000).history setBack) ((starting 10000000000).final setBack) 1 := by
  obtain ⟨⟨unput, limiter, owner⟩, one, n, hn, elapsed, task, undecided, through, early, read,
    ⟨a, ha, hc, hk, hl⟩, call⟩ := setBack_run
  have custody : Custody 10000000000 setBack 0 setBackLimiter setBackKey :=
    .of_owner unput limiter fun a ha _ _ => owner a ha
  have lockout := lockout_ends custody
  generalize (starting 10000000000).history setBack = h at one hn elapsed lockout ⊢
  have split : h = h.take 1 ++ n :: [] := by
    obtain ⟨x, hx⟩ := List.length_eq_one_iff.1 one
    rw [hx, List.mem_singleton] at hn
    rw [hn, ← hx, List.take_append_drop]
  have asks : n.Asks 1 a none := ⟨⟨task, undecided, through⟩, ha, "c", by rw [hk]; exact call⟩
  obtain ⟨-, reading, goes, atOnce⟩ := lockout.nothing (h.take 1) n [] split 1 a none asks hc hk
    fun m hm _ _ _ _ _ _ => elapsed m hm
  have two : reading = ⟨2, 0⟩ := by
    rw [goes.2 n (List.mem_of_mem_drop hn) ⟨asks.serves, early⟩] at read
    exact Option.some.inj read
  exact ⟨reading, custody, goes, atOnce (by rw [hl, two]; decide)⟩

end Custody

end Turnstile
