import Turnstile.Proofs.Limiter.Grant
import Turnstile.Proofs.Session.Granting

/-!
# How grants follow each other

In a session whose clocks only move forward together, where no gate holds and only
limiters write to a cache, the entry of a key is known from its last grant alone: it
has the slot a threshold after that of the grant, and lives until that slot if the
grant was at once, or only until the slot of the grant itself if it was waited for
(`World.Tracks`). Lookups, refusals, purges and time keep this, and so each grant
follows the one before as `Grant.Follows` says.

* `grants`: the admissions of a key in a history, each with its arrival and its delay;
* `Course.tracked`: how they follow each other, and the entry that the last one leaves.
-/

namespace Turnstile

/-- Whether a lookup in a turn found an entry. -/
def Moment.foundEntry (m : Moment) : Bool :=
  m.calls.any fun
    | .lookup _ _ (some _) => true
    | _ => false

/-- The grant of a turn, if a request for a key on a cache is admitted in it. -/
def Moment.grant? (c : Nat) (key : Key) (m : Moment) : Option Grant :=
  match m.decision? with
  | some (i, .ok delay) =>
    if (m.world.admissions[i]?).any fun a => a.cache = c ∧ a.key = key then
      some { request := i, found := m.foundEntry, arrival := m.world.clock.wall, delay }
    else none
  | _ => none

/-- The grants of a key on a cache, in the order in which they were decided. -/
def grants (c : Nat) (key : Key) (h : List Moment) : List Grant := h.filterMap (Moment.grant? c key)

theorem grants_concat (c : Nat) (key : Key) (h : List Moment) (m : Moment) :
    grants c key (h ++ [m]) = grants c key h ++ (m.grant? c key).toList := by
  rw [grants, List.filterMap_append, grants]
  cases hg : m.grant? c key <;> simp [hg]

/-- That a step moves both clocks together, holds nobody up at a cache, and leaves the
    entries there to the limiters. -/
def Undisturbed (c : Nat) (w : World) : Step → Prop
  | .setWall _ => False
  | .put cache _ _ _ | .clear cache => w.cacheNames.get? cache ≠ some c
  | .gate cache _ mode => mode = .hold → w.cacheNames.get? cache ≠ some c
  | _ => True

instance (c : Nat) (w : World) (s : Step) : Decidable (Undisturbed c w s) :=
  match s with
  | .setWall _ => .isFalse id
  | .put .. | .clear _ => inferInstanceAs (Decidable (_ ≠ _))
  | .gate .. => inferInstanceAs (Decidable (_ → _))
  | .cache _ | .limiter .. | .clone .. | .dropLimiter _ | .dropCache _ | .throttle .. |
    .dropHandle _ | .advance _ | .get .. | .purge _ | .isEmpty _ | .key _ | .sweeper .. |
    .abort _ | .shutdown => .isTrue trivial

/-- Until when the entry that a grant leaves lives. -/
def Grant.expiry (threshold : Span) (g : Grant) : Int :=
  if g.delay = .zero then g.slot + threshold.nanos else g.slot

namespace World

/-- The wall clock at an instant, if it is not set until then. -/
def wallAt (w : World) (t : Instant) : Int := w.clock.wall + ((t.nanos : Int) - w.clock.now.nanos)

/-- What the entry of a key is, given the last grant: no live one before the first
    grant, and from then on the next slot, until it expires. -/
def Tracks (w : World) (c : Nat) (key : Key) (threshold : Span) : Option Grant → Prop
  | none => ∀ {cell : CacheCell} {t : Instant}, w.caches[c]? = some cell →
      w.clock.now.nanos ≤ t.nanos → cell.store.live? t key.text = none
  | some g => ∃ cell slot, w.caches[c]? = some cell ∧ slot.nanos = g.slot + threshold.nanos ∧
      ¬ slot.IsLeap ∧ ∀ {t : Instant}, w.clock.now.nanos ≤ t.nanos →
        cell.store.live? t key.text =
          if w.wallAt t < g.expiry threshold then some (.timestamp slot) else none

/-- That no gate of a cache holds, and nobody is kept waiting there. -/
structure Steady (w : World) (c : Nat) : Prop where
  gate : ∀ {cell : CacheCell} (kind : CallKind), w.caches[c]? = some cell → cell.gate kind ≠ .hold
  phase : ∀ {i : Nat} {a : Admission}, w.admissions[i]? = some a → a.cache = c →
    a.phase.stage ≠ 2

variable {w w' : World} {c : Nat} {key : Key} {threshold : Span}

/-- Whatever leaves the answers of a cache as they are, and lets both clocks move on
    together, keeps track of the entries. -/
theorem Tracks.congr {last : Option Grant} (h : w.Tracks c key threshold last) {d : Span}
    (hk : w'.clock = w.clock.advance d)
    (hc : ∀ {cell : CacheCell}, w.caches[c]? = some cell → ∃ cell', w'.caches[c]? = some cell' ∧
      ∀ {t : Instant}, w.clock.now.nanos ≤ t.nanos →
        cell'.store.live? t key.text = cell.store.live? t key.text)
    (hn : w.caches[c]? = none → ∀ {cell : CacheCell} {t : Instant}, w'.caches[c]? = some cell →
      cell.store.live? t key.text = none) : w'.Tracks c key threshold last := by
  have later {t : Instant} (ht : w'.clock.now.nanos ≤ t.nanos) :
      w.clock.now.nanos ≤ t.nanos := by
    rw [hk] at ht
    simp only [Clock.advance, Instant.later] at ht
    omega
  -- Both clocks move on alike, so the same instant has the same wall clock.
  have wall (t : Instant) : w'.wallAt t = w.wallAt t := by
    simp only [wallAt, hk, Clock.advance, Instant.later]
    omega
  cases last with
  | none =>
    intro cell' t hc' ht
    cases h' : w.caches[c]? with
    | none => exact hn h' hc'
    | some cell =>
      obtain ⟨_, hc'', same⟩ := hc h'
      obtain rfl : cell' = _ := Option.some.inj (hc'.symm.trans hc'')
      rw [same (later ht)]
      exact h h' (later ht)
  | some g =>
    obtain ⟨cell, slot, hcell, hs, hl, live⟩ := h
    obtain ⟨cell', hc', same⟩ := hc hcell
    refine ⟨cell', slot, hc', hs, hl, fun {t} ht => ?_⟩
    rw [same (later ht), live (later ht), wall]

/-- What is reserved for a key whose entry is tracked follows the last grant, and lives
    as the entry that the new grant leaves. -/
theorem Tracks.reserve {last : Option Grant} (h : w.Tracks c key threshold last)
    {cell : CacheCell} (hc : w.caches[c]? = some cell) {reading : Timestamp}
    (hk : w.clock.read = .ok reading) {l : Limiter} (hl : l.threshold = threshold)
    {r : Reservation}
    (hr : (l.decide (cell.store.live? w.clock.now key.text) reading).reservation? = some r)
    {g : Grant} (hf : g.found = (cell.store.live? w.clock.now key.text).isSome)
    (ha : g.arrival = w.clock.wall) (hd : g.delay = r.delay) :
    (∀ g₀ ∈ last, g₀.Follows threshold g) ∧ r.slot.nanos = g.slot + threshold.nanos ∧
      ¬ r.slot.IsLeap ∧ w.clock.wall + r.lifetime.nanos = g.expiry threshold := by
  obtain ⟨reading_nanos, reading_leap⟩ := Clock.nanos_of_read hk
  have now : w.wallAt w.clock.now = w.clock.wall := by simp [wallAt]
  rcases Limiter.reservation_cases hr with ⟨none, hs, hlife, hdelay⟩ |
    ⟨t, some, hs, hlife, hdelay, -⟩
  · rw [hl] at hs hlife
    rw [hdelay] at hd
    obtain ⟨slot_nanos, slot_leap⟩ := Timestamp.nanos_of_add? reading_leap hs
    have slot := Grant.slot_of_delay_eq_zero hd
    refine ⟨fun g₀ hg => ?_, by omega, slot_leap, ?_⟩
    · -- No entry is found, so the one of the last grant has expired.
      obtain ⟨cell', slot₀, hc', -, -, live⟩ : w.Tracks c key threshold (.some g₀) := hg ▸ h
      obtain rfl : cell = cell' := Option.some.inj (hc.symm.trans hc')
      have expired := live (Nat.le_refl _)
      rw [none, now] at expired
      have ended : g₀.expiry threshold ≤ w.clock.wall := by
        refine Int.not_lt.1 fun lt => ?_
        rw [if_pos lt] at expired
        cases expired
      refine .inr ⟨by simp [hf, none], hd, fun hw => ?_, fun hn => ?_⟩
      · rw [Grant.expiry, if_neg hw] at ended
        rwa [ha]
      · rw [Grant.expiry, if_pos hn] at ended
        rwa [ha]
    · rw [Grant.expiry, if_pos hd, slot, ha, hlife]
  · match last, h with
    | .none, h =>
      rw [h hc (Nat.le_refl _)] at some
      cases some
    | .some g₀, ⟨cell', slot₀, hc', slot_nanos₀, slot_leap₀, live⟩ =>
      -- The entry found is that of the last grant, a threshold after its slot.
      obtain rfl : cell = cell' := Option.some.inj (hc.symm.trans hc')
      have alive := live (Nat.le_refl _)
      rw [some, now] at alive
      split at alive
      · rename_i lt
        cases alive
        have before : g₀.expiry threshold ≤ g₀.slot + threshold.nanos := by
          unfold Grant.expiry
          split <;> omega
        obtain ⟨slot_nanos, slot_leap⟩ := Timestamp.nanos_of_add? slot_leap₀ hs
        have wait := Timestamp.nanos_remaining slot_leap₀ reading_leap
        rw [← hdelay, ← hd] at wait
        rw [hl] at slot_nanos
        have slot : g.slot = g₀.slot + threshold.nanos := by
          rw [Grant.slot, ha]
          omega
        refine ⟨fun g₁ hg => ?_, by omega, slot_leap, ?_⟩
        · cases hg
          exact .inl ⟨by simp [hf, some], slot⟩
        · -- Entries expire before the slot in them is due, so who finds one has to wait.
          have waits : g.delay ≠ .zero := by
            intro hz
            rw [hz] at wait
            simp only [Span.zero] at wait
            omega
          rw [Grant.expiry, if_neg waits, hlife, ← hdelay, ← hd, Grant.slot, ha]
      · cases alive

/-! ### Steps -/

theorem Steady.acted {s : Step} (h : w.Steady c) (hs : Undisturbed c w s) :
    (w.acted s).Steady c where
  gate {cell'} kind hc' := by
    cases hc : w.caches[c]? with
    | none =>
      obtain ⟨name, rfl⟩ := cell_acted_new hc hc'
      cases kind <;> simp [CacheCell.gate]
    | some cell =>
      obtain ⟨cell'', hc'', change⟩ := cell_acted (s := s) hc
      obtain rfl : cell' = cell'' := Option.some.inj (hc'.symm.trans hc'')
      rcases change.gate kind with e | ⟨cache, mode, rfl, hn, e⟩
      · rw [e]
        exact h.gate kind hc
      · rw [e]
        exact fun hm => hs hm hn
  phase {i b} hb hbc := by
    rcases admission_acted hb with ⟨a, ha, hab, hp | ⟨-, hp⟩⟩ | ⟨-, _, _, _, _, _, _, _, _, rfl⟩
    · rw [hp]
      exact h.phase ha (hab.cache.symm.trans hbc)
    · simp [hp, Phase.stage]
    · simp [Phase.stage]

theorem Tracks.acted {s : Step} {last : Option Grant} (h : w.Tracks c key threshold last)
    (hs : Undisturbed c w s) : (w.acted s).Tracks c key threshold last := by
  have clock : ∀ wall, s ≠ .setWall wall := by
    rintro wall rfl
    exact hs
  obtain ⟨d, hk⟩ := clock_acted_advance w clock
  have spares : w.Spares c key.text s := by
    cases s with
    | put => exact fun hn => absurd hn hs
    | clear => exact hs
    | _ => trivial
  refine h.congr hk (fun {cell} hc => ?_) fun hc {cell} {t} hc' => ?_
  · obtain ⟨cell', hc', same, -⟩ := live?_acted spares hc
    exact ⟨cell', hc', same⟩
  · obtain ⟨name, rfl⟩ := cell_acted_new hc hc'
    rfl

end World

/-! ### Turns -/

namespace Moment

open World

variable {m : Moment} {i c : Nat} {a : Admission} {cell : CacheCell} {key : Key}
  {threshold : Span} {last : Option Grant}

theorem Idle.grant? (idle : m.Idle) : m.grant? c key = none := by
  rw [Moment.grant?, idle.decision?]

/-- What is granted in a turn that serves a request. -/
theorem Serving.grant? (s : m.Serving i a cell) : m.grant? c key =
    match (a.passage cell m.world.clock).exit with
    | .decided (.ok delay) =>
      if a.cache = c ∧ a.key = key then
        some { request := i, found := m.foundEntry, arrival := m.world.clock.wall, delay }
      else none
    | _ => none := by
  rw [Moment.grant?, s.decision?]
  cases (a.passage cell m.world.clock).exit with
  | held | failed => rfl
  | decided outcome =>
    cases outcome with
    | error reason => rfl
    | ok delay => simp [Exit.outcome?, s.admission]

theorem steady_after (o : m.world.Orderly) (hr : m.world.ready.head? = some m.task)
    (h : m.world.Steady c) : m.after.Steady c where
  gate {cell'} kind hc' := by
    obtain ⟨cell, hc, -, e⟩ := o.cell_before hr hc'
    rw [e]
    exact h.gate kind hc
  phase {j b} hb hbc := by
    rcases serving_or_idle o hr with ⟨i, a, cell, s⟩ | idle
    · obtain ⟨a', ha', rfl⟩ := s.admission_after hb
      split
      · subst j
        obtain rfl : a = a' := Option.some.inj (s.admission.symm.trans ha')
        cases he : (a.passage cell m.world.clock).exit.outcome? with
        | none =>
          obtain ⟨phase, hp⟩ := Exit.held_of_outcome he
          -- Who is held now is so by a gate that holds, and there is none.
          have kept := Admission.passage_held hp
          have cache : m.world.caches[c]? = some cell := hbc ▸ s.cache
          cases phase with
          | beforeLookup => exact absurd kept (h.gate .lookup cache)
          | beforeStore => exact absurd kept (h.gate .store cache)
          | _ => exact kept.elim
        | some o => simp [Exit.stage_of_outcome he]
      · exact h.phase ha' hbc
    · obtain ⟨a, ha, e, hp⟩ := idle.admission hb
      rw [e] at hbc
      have := h.phase ha hbc
      generalize b.phase = p at hp
      generalize a.phase = q at hp this
      cases hp with
      | stays => exact this
      | joins | ends => simp [Phase.stage]

/-- Where nobody is kept waiting, a request goes through its critical section from the
    beginning. -/
theorem Serving.passage_eq (s : m.Serving i a cell) (h : m.world.Steady a.cache) :
    a.passage cell m.world.clock = a.entering cell m.world.clock := by
  have := h.phase s.admission rfl
  unfold Admission.passage
  cases hp : a.phase <;> first | rfl | simp [hp, Phase.stage] at this

/-- What leaves the answers for a key as they are keeps track of its entry. -/
theorem Serving.tracks (s : m.Serving i a cell) (ht : m.world.Tracks c key threshold last)
    (same : ∀ {there : CacheCell}, m.world.caches[c]? = some there →
      ∃ cell', m.after.caches[c]? = some cell' ∧ ∀ {t : Instant},
        m.world.clock.now.nanos ≤ t.nanos →
          cell'.store.live? t key.text = there.store.live? t key.text) :
    m.after.Tracks c key threshold last := by
  refine ht.congr (s.clock.trans (Clock.advance_zero _).symm) same fun hn {cell} {t} hc' => ?_
  rw [s.cell_none hn] at hc'
  cases hc'

/-- A turn that serves a request grants it as what follows the last grant, and leaves
    the entry of the new one; or it grants nothing, and leaves the entry as it is. -/
theorem Serving.grants (s : m.Serving i a cell) (h : m.world.Steady c)
    (ht : m.world.Tracks c key threshold last)
    (hT : a.cache = c → a.limiter.threshold = threshold) :
    (m.grant? c key = none ∧ m.after.Tracks c key threshold last) ∨
    ∃ g, m.grant? c key = some g ∧ (∀ g₀ ∈ last, g₀.Follows threshold g) ∧
      m.after.Tracks c key threshold (some g) := by
  by_cases own : a.cache = c ∧ a.key = key
  · obtain ⟨rfl, rfl⟩ := own
    obtain ⟨cell', hc', store, -⟩ := s.cell_after s.cache
    rw [if_pos rfl] at store
    have enters := s.passage_eq h
    rcases a.entering_cases cell fun kind => h.gate kind s.cache with
      ⟨he, live⟩ | ⟨reading, r, kept, hk, hr, he, -, hs, calls⟩
    · refine .inl ⟨?_, s.tracks ht fun {there} hd => ⟨cell', hc', fun {t} now => ?_⟩⟩
      · rw [s.grant?, enters]
        split
        · exact absurd ‹_› (he _)
        · rfl
      · obtain rfl : cell = there := Option.some.inj (s.cache.symm.trans hd)
        rw [store, enters, live _ now]
    · rw [← enters] at he hs calls
      right
      have found : m.foundEntry =
          (cell.store.live? m.world.clock.now a.key.text).isSome := by
        rw [Moment.foundEntry, s.calls, calls]
        cases cell.store.live? m.world.clock.now a.key.text <;> rfl
      refine ⟨_, by rw [s.grant?, he]; exact if_pos ⟨rfl, rfl⟩, ?_⟩
      obtain ⟨follows, slot, leap, life⟩ := ht.reserve s.cache hk (hT rfl) hr (g :=
        { request := i, found := m.foundEntry, arrival := m.world.clock.wall, delay := r.delay })
        found rfl rfl
      refine ⟨follows, cell', r.slot, hc', slot, leap, fun {t} now => ?_⟩
      rw [store, Store.live?_of_set? hs, if_pos rfl]
      rw [s.clock] at now
      -- On the wall clock the entry expires when the instant of its expiry comes.
      have iff : m.after.wallAt t < Grant.expiry threshold
          { request := i, found := m.foundEntry, arrival := m.world.clock.wall,
            delay := r.delay } ↔ t.nanos < m.world.clock.now.nanos + r.lifetime.nanos := by
        rw [← life, wallAt, s.clock]
        omega
      simp only [iff]
  · refine .inl ⟨?_, s.tracks ht fun {there} hd => ?_⟩
    · rw [s.grant?]
      split
      · rw [if_neg own]
      · rfl
    · obtain ⟨cell', hc', same, -⟩ := s.live?_other own hd
      exact ⟨cell', hc', same⟩

theorem Idle.tracks (idle : m.Idle) (o : m.world.Orderly)
    (hr : m.world.ready.head? = some m.task) (ht : m.world.Tracks c key threshold last) :
    m.after.Tracks c key threshold last := by
  refine ht.congr (idle.clock.trans (Clock.advance_zero _).symm) (fun {cell} hc => ?_)
    fun hn {cell} {t} hc' => ?_
  · rcases idle.cell hc with h | h
    · exact ⟨cell, h, fun {t} _ => rfl⟩
    · exact ⟨_, h, fun {t} now => Store.live?_purge now ..⟩
  · rw [show m.after.caches[c]? = _ from o.cell_turn_none hr hn] at hc'
    cases hc'

end Moment

/-! ### Sessions -/

namespace Course

open World

variable {w₀ w : World} {h : List Moment} {wall : Int} {c : Nat} {key : Key} {threshold : Span}

theorem steady (k : Course (Undisturbed c) (starting wall) h w) : w.Steady c := by
  have start := orderly_starting wall
  induction k with
  | start => exact ⟨fun _ hc => by simp [starting] at hc, fun hi => by simp [starting] at hi⟩
  | act _ hs ih => exact ih.acted hs
  | turn k hr ih => exact Moment.steady_after (k.orderly start) (by rw [hr]; rfl) ih

/-- In a session in which all requests on a cache have one threshold, each grant
    follows the one before it, and the last one tells the entry of the key. -/
theorem tracked (k : Course (Undisturbed c) (starting wall) h w)
    (hT : ∀ {i : Nat} {a : Admission}, w.admissions[i]? = some a → a.cache = c →
      a.limiter.threshold = threshold) :
    (grants c key h).IsChain (Grant.Follows threshold) ∧
      w.Tracks c key threshold (grants c key h).getLast? := by
  have start := orderly_starting wall
  -- Admissions keep their limiters, so the threshold is that of earlier worlds too.
  have earlier {v v' : World} (e : v.Evolves v')
      (hT : ∀ {i : Nat} {a : Admission}, v'.admissions[i]? = some a → a.cache = c →
        a.limiter.threshold = threshold) {i : Nat} {a : Admission}
      (ha : v.admissions[i]? = some a) (hc : a.cache = c) : a.limiter.threshold = threshold := by
    obtain ⟨b, hb, hab⟩ := e.becomes ha
    rw [← hab.limiter]
    exact hT hb (hab.cache.trans hc)
  induction k with
  | start => exact ⟨.nil, fun hc => by simp [starting] at hc⟩
  | @act h w s k hs ih =>
    obtain ⟨chain, tracks⟩ := ih (earlier (evolves_acted w s) hT)
    exact ⟨chain, tracks.acted hs⟩
  | @turn h w task rest k hr ih =>
    have head : w.ready.head? = some task := by rw [hr]; rfl
    have o := k.orderly start
    have hT' {i : Nat} {a : Admission} := earlier (o.evolves_turn head) hT (i := i) (a := a)
    obtain ⟨chain, tracks⟩ := ih hT'
    rw [grants_concat]
    rcases Moment.serving_or_idle (m := ⟨w, task⟩) o head with ⟨i, a, cell, s⟩ | idle
    · rcases s.grants k.steady tracks (hT' s.admission) with ⟨hg, after⟩ | ⟨g, hg, follows, after⟩
      · rw [hg]
        simpa using ⟨chain, after⟩
      · rw [hg, Option.toList_some, List.isChain_append, List.getLast?_concat]
        refine ⟨⟨chain, .singleton _, fun g₀ hg₀ g' hg' => ?_⟩, after⟩
        cases hg'
        exact follows g₀ hg₀
    · rw [idle.grant?]
      simpa using ⟨chain, idle.tracks o head tracks⟩

end Course

end Turnstile
