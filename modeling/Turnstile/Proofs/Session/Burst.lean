import Turnstile.Proofs.Limiter.Burst
import Turnstile.Proofs.Session.Granting
import Turnstile.Proofs.Session.Settling

/-!
# Bursts

Requests for one key that are issued while both clocks stand still and there is no
entry at first, among whatever else goes on: requests for other keys, handles dropped,
caches purged, gates that hold for a while. They are decided in the order in which
they were issued, and what each of them gets depends on the number of those before it
only (`Volley.Session.decided_in_order`).

A request may be kept waiting between its lookup and its store. What it found is the
entry all the same when it stores, because nobody else who would write it gets into
the critical section. So the invariant (`Volley.Stands`) is about the entry, the
requests decided so far, and how far the others may have come.
-/

namespace Turnstile

namespace Burst

variable (b : Burst) {n : Nat} {a : Admission} {cell : CacheCell} {p : Passage}

/-- How far the request after some others may have come. -/
def Reached (n : Nat) : Phase → Prop
  | .beforeLookup reading => reading = b.reading
  | .beforeStore _ r => (b.limiter.decide (b.entry n) b.reading).reservation? = some r
  | _ => True

/-- How the passage of the request after some others ends, and which entry it leaves. -/
def Ends (key : Key) (n : Nat) (p : Passage) : Prop :=
  (∃ phase, p.exit = .held phase ∧ b.Reached n phase ∧
    p.store.live? b.clock.now key.text = b.entry n) ∨
  (p.exit = .decided (b.limiter.answerAfter n) ∧
    p.store.live? b.clock.now key.text = b.entry (n + 1))

variable {b}

theorem ends_storing (gate : ∀ kind, cell.gate kind ≠ .fail)
    (live : cell.store.live? b.clock.now a.key.text = b.entry n) {d : Decision} {r : Reservation}
    (hr : (b.limiter.decide (b.entry n) b.reading).reservation? = some r) :
    b.Ends a.key n (a.storing cell b.clock.now d r) := by
  have next : b.limiter.answerAfter n = .ok r.delay ∧
      b.entry (n + 1) = some (.timestamp r.slot) ∧ 0 < r.lifetime.nanos ∧
      r.lifetime.nanos ≤ b.limiter.deadline.nanos + b.limiter.threshold.nanos := by
    rcases b.decide_cases n with ⟨r', hr', next⟩ | ⟨none, -⟩
    · obtain rfl : r = r' := Option.some.inj (hr.symm.trans hr')
      exact next
    · rw [none] at hr
      cases hr
  obtain ⟨answer, entry, pos, le⟩ := next
  have within := b.within
  rcases a.storing_cases cell b.clock.now d r with ⟨-, he, hs⟩ | ⟨fails, -⟩ | ⟨-, he, hs, -⟩
  · exact .inl ⟨_, he, hr, by rw [hs, live]⟩
  · -- No gate fails, and there is room for the time at which the entry expires.
    rcases fails with fails | fails
    · exact absurd fails (gate .store)
    · rw [Store.set?, Option.map_eq_none_iff, Instant.add?, if_pos (by omega)] at fails
      cases fails
  · refine .inr ⟨by rw [he, answer], ?_⟩
    rw [Store.live?_of_set? hs, if_pos rfl, if_pos (by omega), entry]

theorem ends_lookingUp (gate : ∀ kind, cell.gate kind ≠ .fail) (hl : a.limiter = b.limiter)
    (live : cell.store.live? b.clock.now a.key.text = b.entry n) :
    b.Ends a.key n (a.lookingUp cell b.clock.now b.reading) := by
  have kept : (cell.store.get b.clock.now a.key.text).2.live? b.clock.now a.key.text =
      b.entry n := by
    rw [Store.live?_get (Nat.le_refl _), live]
  rcases a.lookingUp_cases cell b.clock.now b.reading with
    ⟨-, he, hs⟩ | ⟨fails, -⟩ | ⟨-, ⟨hd, he, hs, -⟩ | ⟨r, hd, he, hs, -⟩⟩
  · exact .inl ⟨_, he, rfl, by rw [hs, live]⟩
  · exact absurd fails (gate .lookup)
  · rw [live, hl] at hd he
    rcases b.decide_cases n with ⟨r', hr', -⟩ | ⟨-, answer, entry⟩
    · rw [hd] at hr'
      cases hr'
    · exact .inr ⟨by rw [he, answer], by rw [hs, kept, entry]⟩
  · rw [live, hl] at hd
    have after : ∀ kind, ({ cell with store := (cell.store.get b.clock.now a.key.text).2 } :
        CacheCell).gate kind ≠ .fail := by
      rintro (_ | _)
      · exact gate .lookup
      · exact gate .store
    have ends := ends_storing after kept (d := a.limiter.decide
      (cell.store.live? b.clock.now a.key.text) b.reading) hd
    unfold Ends at ends ⊢
    rwa [he, hs]

/-- A request that comes after some others is held, or gets what is due to it. -/
theorem ends_passage (gate : ∀ kind, cell.gate kind ≠ .fail) (hl : a.limiter = b.limiter)
    (live : cell.store.live? b.clock.now a.key.text = b.entry n) (reached : b.Reached n a.phase) :
    b.Ends a.key n (a.passage cell b.clock) := by
  unfold Admission.passage
  cases hp : a.phase with
  | beforeLookup reading =>
    rw [hp] at reached
    obtain rfl : reading = b.reading := reached
    exact ends_lookingUp gate hl live
  | beforeStore d r =>
    rw [hp] at reached
    exact ends_storing gate live reached
  | issued | inLine | waiting | finished =>
    simp only [Admission.entering, b.read]
    exact ends_lookingUp gate hl live

end Burst

/-! ### Requests among others -/

/-- A burst of requests in a session. -/
structure Volley extends Burst where
  /-- The number of the limiter. -/
  owner : Nat
  /-- The number of its cache. -/
  cache : Nat
  key : Key
  /-- The number from which on requests are part of the burst. -/
  first : Nat

namespace Volley

variable (v : Volley)

/-- Whether a request is for the key at the limiter. -/
def asks (a : Admission) : Bool := a.owner = v.owner ∧ a.key = v.key

/-- The requests of the burst, in the order in which they were issued. -/
def requests (w : World) : List Nat :=
  (List.range w.admissions.size).filter fun i => v.first ≤ i ∧ (w.admissions[i]?).any v.asks

/-- The decisions on requests for the key at the limiter, in the order in which they are
    made. -/
def decisions (h : List Moment) : List (Nat × Outcome) :=
  h.filterMap fun m => m.decision?.filter fun x => (m.world.admissions[x.1]?).any v.asks

/-- That a step leaves the clocks as they are, and the entry of the key to the requests,
    and that requests for the key come from the limiter only. -/
def Calm (w : World) : Step → Prop
  | .advance d => d = .zero
  | .setWall wall => wall = w.clock.wall
  | .put cache key _ _ =>
    w.cacheNames.get? cache = some v.cache → w.keyMeant? key ≠ some v.key.text
  | .clear cache => w.cacheNames.get? cache ≠ some v.cache
  | .gate cache _ mode => mode = .fail → w.cacheNames.get? cache ≠ some v.cache
  | .throttle name identifier _ => ∀ x ∈ w.limiterNamed? name, x.2.cache = v.cache →
      x.2.limiter.anonymize identifier.render = v.key → x.1 = v.owner
  | .shutdown => False
  | _ => True

instance (w : World) (s : Step) : Decidable (v.Calm w s) :=
  match s with
  | .advance _ | .setWall _ => inferInstanceAs (Decidable (_ = _))
  | .put .. | .gate .. => inferInstanceAs (Decidable (_ → _))
  | .clear _ => inferInstanceAs (Decidable (_ ≠ _))
  | .throttle name _ _ => inferInstanceAs (Decidable (∀ x ∈ w.limiterNamed? name, _ → _ → _))
  | .shutdown => .isFalse id
  | .cache _ | .limiter .. | .clone .. | .dropLimiter _ | .dropCache _ | .dropHandle _ | .get .. |
    .purge _ | .isEmpty _ | .key _ | .sweeper .. | .abort _ => .isTrue trivial

/-- How a burst stands when some of its requests are decided, and the rest are not. -/
structure Stands (done rest : List Nat) (h : List Moment) (w : World) : Prop where
  clock : w.clock = v.clock
  limiter : w.limiters[v.owner]? = some ⟨v.limiter, v.cache⟩
  first_le : v.first ≤ w.admissions.size
  cell : ∃ cell, w.caches[v.cache]? = some cell ∧ (∀ kind, cell.gate kind ≠ .fail) ∧
    cell.store.live? v.clock.now v.key.text = v.entry done.length
  requests : v.requests w = done ++ rest
  decided : ∀ i ∈ done, ∃ a, w.admissions[i]? = some a ∧ a.phase.stage = 3
  undecided : ∀ i ∈ rest, ∃ a, w.admissions[i]? = some a ∧ a.phase.stage ≤ 2
  decisions : v.decisions h = done.mapIdx fun n i => (i, v.limiter.answerAfter n)
  reached : ∀ {i : Nat} {a : Admission}, w.admissions[i]? = some a → a.cache = v.cache →
    a.key = v.key → a.phase.stage ≤ 2 →
    v.first ≤ i ∧ a.owner = v.owner ∧ v.Reached done.length a.phase

open World

variable {v} {w w' : World} {i : Nat}

theorem mem_requests :
    i ∈ v.requests w ↔ v.first ≤ i ∧ ∃ a, w.admissions[i]? = some a ∧ v.asks a := by
  simp only [requests, List.mem_filter, List.mem_range, decide_eq_true_eq]
  cases ha : w.admissions[i]? with
  | none => simp
  | some a =>
    have lt := (Array.getElem?_eq_some_iff.1 ha).1
    simp [lt]

theorem sorted_requests (v : Volley) (w : World) : (v.requests w).Pairwise (· < ·) :=
  List.pairwise_lt_range.filter _

/-- Requests are added at the end. -/
theorem requests_evolves (e : w.Evolves w') :
    ∃ new, v.requests w' = v.requests w ++ new ∧ ∀ i ∈ new, w.admissions.size ≤ i := by
  obtain ⟨k, hk⟩ := Nat.exists_eq_add_of_le e.size_le
  refine ⟨((List.range k).map (w.admissions.size + ·)).filter fun i =>
    v.first ≤ i ∧ (w'.admissions[i]?).any v.asks, ?_, fun i hi => ?_⟩
  · rw [requests, hk, List.range_add, List.filter_append]
    congr 1
    refine List.filter_congr fun i hi => ?_
    obtain ⟨b, hb, hab⟩ := e.becomes (Array.getElem?_eq_getElem (List.mem_range.1 hi))
    rw [hb, Array.getElem?_eq_getElem (List.mem_range.1 hi)]
    simp [asks, hab.owner, hab.key]
  · obtain ⟨j, -, rfl⟩ := List.mem_map.1 (List.mem_of_mem_filter hi)
    exact Nat.le_add_right ..

/-- A turn makes no requests. -/
theorem requests_turn {m : Moment} (o : m.world.Orderly)
    (hr : m.world.ready.head? = some m.task) : v.requests m.after = v.requests m.world := by
  have evolves : m.world.Evolves m.after := o.evolves_turn hr
  obtain ⟨new, hnew, later⟩ := requests_evolves (v := v) evolves
  cases new with
  | nil => rw [hnew, List.append_nil]
  | cons i new =>
    have mem : i ∈ v.requests m.after := by simp [hnew]
    obtain ⟨-, b, hb, -⟩ := mem_requests.1 mem
    obtain ⟨a, ha, -⟩ := Moment.admission_before o hr hb
    have := (Array.getElem?_eq_some_iff.1 ha).1
    have := later i (by simp)
    omega

theorem decisions_concat (h : List Moment) (m : Moment) : v.decisions (h ++ [m]) =
    v.decisions h ++
      (m.decision?.filter fun x => (m.world.admissions[x.1]?).any v.asks).toList := by
  rw [decisions, List.filterMap_append, decisions]
  cases hd : m.decision?.filter fun x => (m.world.admissions[x.1]?).any v.asks <;> simp [hd]

namespace Stands

variable {done rest : List Nat} {h : List Moment}

/-- Requests that are decided stay so. -/
theorem decided_of_evolves (k : v.Stands done rest h w) (e : w.Evolves w') :
    ∀ i ∈ done, ∃ a, w'.admissions[i]? = some a ∧ a.phase.stage = 3 := by
  intro i hi
  obtain ⟨a, ha, decided⟩ := k.decided i hi
  obtain ⟨b, hb, hab⟩ := e.becomes ha
  have := hab.stage_le
  have := b.phase.stage_le
  exact ⟨b, hb, by omega⟩

/-- A step leaves the gates from failing, and the entry to the requests. -/
theorem cell_acted {s : Step} (k : v.Stands done rest h w) (hs : v.Calm w s) :
    ∃ cell, (w.acted s).caches[v.cache]? = some cell ∧ (∀ kind, cell.gate kind ≠ .fail) ∧
      cell.store.live? v.clock.now v.key.text = v.entry done.length := by
  obtain ⟨cell, hc, gate, live⟩ := k.cell
  have spares : w.Spares v.cache v.key.text s := by
    cases s <;> first | exact hs | trivial
  obtain ⟨cell', hc', same, change⟩ := live?_acted spares hc
  refine ⟨cell', hc', fun kind => ?_, ?_⟩
  · rcases change.gate kind with e | ⟨cache, mode, rfl, hn, e⟩
    · rw [e]
      exact gate kind
    · rw [e]
      exact fun hm => hs hm hn
  · rw [← live, ← k.clock]
    exact same (Nat.le_refl _)

theorem undecided_acted {s : Step} (k : v.Stands done rest h w) (hs : v.Calm w s) {new : List Nat}
    (hnew : v.requests (w.acted s) = v.requests w ++ new)
    (later : ∀ i ∈ new, w.admissions.size ≤ i) :
    ∀ i ∈ rest ++ new, ∃ a, (w.acted s).admissions[i]? = some a ∧ a.phase.stage ≤ 2 := by
  have evolves := evolves_acted w s
  have running : s ≠ .shutdown := by
    rintro rfl
    exact hs
  intro i hi
  rcases List.mem_append.1 hi with hi | hi
  · obtain ⟨a, ha, undecided⟩ := k.undecided i hi
    obtain ⟨b, hb, -⟩ := evolves.becomes ha
    refine ⟨b, hb, ?_⟩
    rcases admission_acted hb with ⟨a', ha', -, e | ⟨e, -⟩⟩ | ⟨none, -⟩
    · obtain rfl : a = a' := Option.some.inj (ha.symm.trans ha')
      rwa [e]
    · exact absurd e running
    · rw [ha] at none
      cases none
  · have mem : i ∈ v.requests (w.acted s) := by
      rw [hnew]
      exact List.mem_append_right _ hi
    obtain ⟨-, b, hb, -⟩ := mem_requests.1 mem
    refine ⟨b, hb, ?_⟩
    rcases admission_acted hb with ⟨a, ha, -⟩ | ⟨-, _, _, _, _, _, _, _, _, rfl⟩
    · have := (Array.getElem?_eq_some_iff.1 ha).1
      have := later i hi
      omega
    · exact Nat.zero_le _

/-- A step leaves the burst as it stands, but for requests that it adds. -/
theorem acted {s : Step} (k : v.Stands done rest h w) (hs : v.Calm w s) :
    ∃ new, v.Stands done (rest ++ new) h (w.acted s) := by
  have evolves := evolves_acted w s
  obtain ⟨new, hnew, later⟩ := requests_evolves (v := v) evolves
  refine ⟨new, ?_⟩
  constructor
  case clock =>
    rw [clock_acted]
    cases s with
    | advance d =>
      obtain rfl : d = .zero := hs
      rw [Step.clockAfter, Clock.advance_zero, k.clock]
    | setWall wall =>
      obtain rfl : wall = w.clock.wall := hs
      exact k.clock
    | _ => exact k.clock
  case limiter => exact limiter_acted k.limiter
  case first_le => exact Nat.le_trans k.first_le evolves.size_le
  case cell => exact k.cell_acted hs
  case requests => rw [hnew, k.requests, List.append_assoc]
  case decided => exact k.decided_of_evolves evolves
  case undecided => exact k.undecided_acted hs hnew later
  case decisions => exact k.decisions
  case reached =>
    intro i b hb hc hk hp
    rcases admission_acted hb with ⟨a, ha, hab, e | ⟨-, e⟩⟩ |
      ⟨none, name, identifier, _, l, cell, rfl, hn, hl, rfl⟩
    · rw [e] at hp ⊢
      rw [hab.owner]
      exact k.reached ha (hab.cache.symm.trans hc) (hab.key.symm.trans hk) hp
    · rw [e] at hp
      cases hp
      contradiction
    · -- A new request for the key is of the limiter, and part of the burst.
      have named : (l, cell) ∈ w.limiterNamed? name := by
        simp [limiterNamed?, hn, hl]
      refine ⟨Nat.le_trans k.first_le ?_, hs _ named hc hk, trivial⟩
      exact Array.getElem?_eq_none_iff.1 none

variable {m : Moment} {i : Nat} {a : Admission} {cell : CacheCell}

/-- What is to be shown of a turn: neither clocks nor limiters change in it, and no
    requests are made. -/
theorem of_turn (k : v.Stands done rest h m.world) (o : m.world.Orderly)
    (hr : m.world.ready.head? = some m.task) {done' rest' : List Nat}
    (clock : m.after.clock = m.world.clock) (same : done ++ rest = done' ++ rest')
    (cell : ∃ cell, m.after.caches[v.cache]? = some cell ∧ (∀ kind, cell.gate kind ≠ .fail) ∧
      cell.store.live? v.clock.now v.key.text = v.entry done'.length)
    (decided : ∀ i ∈ done', i ∉ done → ∃ a, m.after.admissions[i]? = some a ∧ a.phase.stage = 3)
    (undecided : ∀ i ∈ rest', ∃ a, m.after.admissions[i]? = some a ∧ a.phase.stage ≤ 2)
    (decisions : v.decisions (h ++ [m]) = done'.mapIdx fun n i => (i, v.limiter.answerAfter n))
    (reached : ∀ {i : Nat} {a : Admission}, m.after.admissions[i]? = some a → a.cache = v.cache →
      a.key = v.key → a.phase.stage ≤ 2 →
      v.first ≤ i ∧ a.owner = v.owner ∧ v.Reached done'.length a.phase) :
    v.Stands done' rest' (h ++ [m]) m.after where
  clock := clock.trans k.clock
  limiter := by
    rw [show m.after.limiters = _ from o.limiters_turn hr]
    exact k.limiter
  first_le := Nat.le_trans k.first_le (o.evolves_turn hr).size_le
  cell := cell
  requests := by rw [requests_turn o hr, k.requests, same]
  decided i hi := by
    by_cases old : i ∈ done
    · exact k.decided_of_evolves (o.evolves_turn hr) i old
    · exact decided i hi old
  undecided := undecided
  decisions := decisions
  reached := reached

theorem idle (k : v.Stands done rest h m.world) (o : m.world.Orderly)
    (hr : m.world.ready.head? = some m.task) (idle : m.Idle) :
    v.Stands done rest (h ++ [m]) m.after := by
  have evolves : m.world.Evolves m.after := o.evolves_turn hr
  refine k.of_turn o hr idle.clock rfl ?cell (fun i hi out => absurd hi out) ?undecided ?decisions
    ?reached
  case cell =>
    obtain ⟨cell, hc, gate, live⟩ := k.cell
    rcases idle.cell hc with hc' | hc'
    · exact ⟨cell, hc', gate, live⟩
    · refine ⟨_, hc', fun kind => ?_, ?_⟩
      · cases kind with
        | lookup => exact gate .lookup
        | store => exact gate .store
      · rw [← live, ← k.clock]
        exact Store.live?_purge (Nat.le_refl _) ..
  case undecided =>
    intro i hi
    obtain ⟨a, ha, undecided⟩ := k.undecided i hi
    obtain ⟨b, hb, -⟩ := evolves.becomes ha
    refine ⟨b, hb, ?_⟩
    obtain ⟨a', ha', -, idles⟩ := idle.admission hb
    obtain rfl : a = a' := Option.some.inj (ha.symm.trans ha')
    generalize a.phase = p at undecided idles
    generalize b.phase = q at idles ⊢
    cases idles with
    | stays => exact undecided
    | joins => decide
    | ends =>
      cases undecided
      contradiction
  case decisions => rw [decisions_concat, idle.decision?, Option.filter_none, k.decisions]; simp
  case reached =>
    intro i b hb hc hk hp
    obtain ⟨a, ha, e, idles⟩ := idle.admission hb
    rw [e] at hc hk
    rw [show b.owner = a.owner by rw [e]]
    have reached := k.reached ha hc hk
    generalize a.phase = p at reached idles
    generalize b.phase = q at hp idles ⊢
    cases idles with
    | stays => exact reached hp
    | joins =>
      obtain ⟨first, owner, -⟩ := reached (Nat.zero_le _)
      exact ⟨first, owner, trivial⟩
    | ends =>
      cases hp
      contradiction

/-- A turn that serves another request leaves the burst as it stands. -/
theorem serving_other (k : v.Stands done rest h m.world) (o : m.world.Orderly)
    (owned : m.world.Owned) (hr : m.world.ready.head? = some m.task) (s : m.Serving i a cell)
    (other : ¬ (a.cache = v.cache ∧ a.key = v.key)) : v.Stands done rest (h ++ [m]) m.after := by
  have asks : v.asks a = false := by
    refine Bool.eq_false_iff.2 fun h => other ?_
    obtain ⟨owner, key⟩ := of_decide_eq_true h
    obtain ⟨cell', hl, -, hc⟩ := owned.limiter s.admission
    rw [owner, k.limiter] at hl
    cases hl
    exact ⟨hc, key⟩
  refine k.of_turn o hr s.clock rfl ?cell (fun i hi out => absurd hi out) ?undecided ?decisions
    ?reached
  case cell =>
    obtain ⟨there, hc, gate, live⟩ := k.cell
    obtain ⟨cell', hc', same, gates⟩ := s.live?_other other hc
    exact ⟨cell', hc', fun kind => by rw [gates]; exact gate kind,
      (same (by rw [k.clock])).trans live⟩
  case undecided =>
    intro j hj
    obtain ⟨b, hb, undecided⟩ := k.undecided j hj
    refine ⟨b, ?_, undecided⟩
    rw [s.admission_other fun e => ?_, hb]
    have mem : j ∈ v.requests m.world := by
      rw [k.requests]
      exact List.mem_append_right _ hj
    obtain ⟨-, a', ha', asked⟩ := mem_requests.1 mem
    rw [← e, s.admission] at ha'
    cases ha'
    rw [asks] at asked
    cases asked
  case decisions =>
    have none : (m.decision?.filter fun x => (m.world.admissions[x.1]?).any v.asks) = none := by
      rw [s.decision?, Option.filter_eq_none_iff]
      intro x hx
      obtain ⟨_, -, rfl⟩ := Option.map_eq_some_iff.1 hx
      simp [s.admission, asks]
    rw [decisions_concat, none, k.decisions]
    simp
  case reached =>
    intro j b hb hc hk hp
    have ne : i ≠ j := by
      rintro rfl
      rw [s.admission_self] at hb
      cases hb
      exact other ⟨hc, hk⟩
    rw [s.admission_other ne] at hb
    exact k.reached hb hc hk hp

/-- Who of a burst is served is the first that is not decided. -/
theorem first_of_serving (k : v.Stands done rest h m.world) (s : m.Serving i a cell)
    (hi : v.first ≤ i) (ha : a.owner = v.owner ∧ a.key = v.key) : ∃ later, rest = i :: later := by
  obtain ⟨tail, holder⟩ := s.holder
  have mem : i ∈ done ++ rest := by
    rw [← k.requests]
    exact mem_requests.2 ⟨hi, a, s.admission, decide_eq_true ha⟩
  -- A request that is served is not decided yet.
  have undone : i ∉ done := by
    intro hd
    obtain ⟨a', ha', decided⟩ := k.decided i hd
    obtain rfl : a = a' := Option.some.inj (s.admission.symm.trans ha')
    have := holder.undecided
    omega
  have mem : i ∈ rest := (List.mem_append.1 mem).resolve_left undone
  have sorted : (done ++ rest).Pairwise (· < ·) := k.requests ▸ sorted_requests v m.world
  have sorted := (List.pairwise_append.1 sorted).2.1
  match rest, k, mem, sorted with
  | j :: later, k, mem, sorted =>
    rcases List.mem_cons.1 mem with rfl | mem
    · exact ⟨later, rfl⟩
    · -- The one before is of the same stripe, so it is decided when this one is served.
      have lt := (List.pairwise_cons.1 sorted).1 i mem
      have asked : j ∈ v.requests m.world := by
        rw [k.requests]
        simp
      obtain ⟨-, b, hb, asks⟩ := mem_requests.1 asked
      obtain ⟨owner, key⟩ := of_decide_eq_true asks
      have decided := holder.before lt hb (by
        rw [Admission.lock, Admission.lock, owner, key, ha.1, ha.2])
      obtain ⟨b', hb', undecided⟩ := k.undecided j (by simp)
      obtain rfl : b = b' := Option.some.inj (hb.symm.trans hb')
      omega

theorem ends (k : v.Stands done rest h m.world) (owned : m.world.Owned) (s : m.Serving i a cell)
    (hc : a.cache = v.cache) (hk : a.key = v.key) : v.first ≤ i ∧ a.owner = v.owner ∧
      v.Ends v.key done.length (a.passage cell m.world.clock) := by
  obtain ⟨tail, holder⟩ := s.holder
  obtain ⟨first, owner, reached⟩ := k.reached s.admission hc hk holder.undecided
  obtain ⟨there, hthere, gate, live⟩ := k.cell
  obtain rfl : cell = there := by
    have := s.cache
    rw [hc, hthere] at this
    exact (Option.some.inj this).symm
  have limiter : a.limiter = v.limiter := by
    obtain ⟨cell', hl, e, -⟩ := owned.limiter s.admission
    rw [owner, k.limiter] at hl
    cases hl
    exact e
  rw [← hk] at live
  rw [k.clock, ← hk]
  exact ⟨first, owner, Burst.ends_passage gate limiter live reached⟩

/-- The entry after a turn that serves a request of the burst. -/
theorem cell_of_serving (k : v.Stands done rest h m.world) (s : m.Serving i a cell)
    (hc : a.cache = v.cache) {found : Option Value}
    (hs : (a.passage cell m.world.clock).store.live? v.clock.now v.key.text = found) :
    ∃ cell, m.after.caches[v.cache]? = some cell ∧ (∀ kind, cell.gate kind ≠ .fail) ∧
      cell.store.live? v.clock.now v.key.text = found := by
  obtain ⟨there, hthere, gate, -⟩ := k.cell
  obtain ⟨cell', hc', store, gates⟩ := s.cell_after hthere
  exact ⟨cell', hc', fun kind => by rw [gates]; exact gate kind, by rw [store, if_pos hc, hs]⟩

/-- A turn in which the next request of a burst is held at a gate. -/
theorem serving_held (k : v.Stands done rest h m.world) (o : m.world.Orderly)
    (hr : m.world.ready.head? = some m.task) (s : m.Serving i a cell) (hc : a.cache = v.cache)
    (first : v.first ≤ i) (owner : a.owner = v.owner) {phase : Phase}
    (he : (a.passage cell m.world.clock).exit = .held phase)
    (reached : v.Reached done.length phase)
    (hs : (a.passage cell m.world.clock).store.live? v.clock.now v.key.text =
      v.entry done.length) : v.Stands done rest (h ++ [m]) m.after := by
  have self := s.admission_self
  rw [he] at self
  refine k.of_turn o hr s.clock rfl ?cell (fun i hi out => absurd hi out) ?undecided ?decisions
    ?reached
  case cell => exact k.cell_of_serving s hc hs
  case undecided =>
    intro j hj
    obtain ⟨b, hb, undecided⟩ := k.undecided j hj
    by_cases ne : i = j
    · subst j
      exact ⟨_, self, Nat.le_of_eq (Admission.passage_held he).stage⟩
    · exact ⟨b, by rw [s.admission_other ne, hb], undecided⟩
  case decisions =>
    rw [decisions_concat, s.decision?, he, k.decisions]
    simp [Exit.outcome?]
  case reached =>
    intro j b hb hbc hbk hp
    by_cases ne : i = j
    · subst j
      rw [self] at hb
      cases hb
      exact ⟨first, owner, reached⟩
    · rw [s.admission_other ne] at hb
      exact k.reached hb hbc hbk hp

/-- A turn in which the next request of a burst is decided. -/
theorem serving_decided {later : List Nat} (k : v.Stands done (i :: later) h m.world)
    (o : m.world.Orderly) (hr : m.world.ready.head? = some m.task) (s : m.Serving i a cell)
    (hc : a.cache = v.cache) (hk : a.key = v.key) (owner : a.owner = v.owner)
    (he : (a.passage cell m.world.clock).exit = .decided (v.limiter.answerAfter done.length))
    (hs : (a.passage cell m.world.clock).store.live? v.clock.now v.key.text =
      v.entry (done.length + 1)) : v.Stands (done ++ [i]) later (h ++ [m]) m.after := by
  obtain ⟨tail, holder⟩ := s.holder
  have self := s.admission_self
  have stage : (a.passage cell m.world.clock).exit.phase.stage = 3 :=
    Exit.stage_of_outcome (o := v.limiter.answerAfter done.length) (by rw [he]; rfl)
  have sorted : (done ++ i :: later).Pairwise (· < ·) := k.requests ▸ sorted_requests v m.world
  refine k.of_turn o hr s.clock (by simp) ?cell ?decided ?undecided ?decisions ?reached
  case cell =>
    rw [List.length_append]
    exact k.cell_of_serving s hc hs
  case decided =>
    intro j hj out
    rw [List.mem_singleton.1 ((List.mem_append.1 hj).resolve_left out)]
    exact ⟨_, self, stage⟩
  case undecided =>
    intro j hj
    obtain ⟨b, hb, undecided⟩ := k.undecided j (List.mem_cons_of_mem _ hj)
    have lt := (List.pairwise_cons.1 (List.pairwise_append.1 sorted).2.1).1 j hj
    exact ⟨b, by rw [s.admission_other (by omega), hb], undecided⟩
  case decisions =>
    rw [decisions_concat, s.decision?, he, k.decisions, List.mapIdx_concat]
    simp [Exit.outcome?, s.admission, asks, owner, hk]
  case reached =>
    intro j b hb hbc hbk hp
    by_cases ne : i = j
    · subst j
      rw [self] at hb
      cases hb
      simp only at hp
      omega
    · rw [s.admission_other ne] at hb
      obtain ⟨first, owner', -⟩ := k.reached hb hbc hbk hp
      refine ⟨first, owner', ?_⟩
      -- Nobody else of the stripe is in its critical section, so this one has found nothing.
      have lock : b.lock = a.lock := by
        rw [Admission.lock, Admission.lock, owner, owner', hk, hbk]
      have early := holder.stage_lt_two o s.admission ne hb lock hp
      cases hbp : b.phase with
      | beforeLookup | beforeStore => simp [hbp, Phase.stage] at early
      | _ => trivial

/-- A turn leaves the burst as it stands, or decides its next request. -/
theorem turn (k : v.Stands done rest h m.world) (o : m.world.Orderly) (owned : m.world.Owned)
    (hr : m.world.ready.head? = some m.task) :
    v.Stands done rest (h ++ [m]) m.after ∨ ∃ i later, rest = i :: later ∧
      v.Stands (done ++ [i]) later (h ++ [m]) m.after := by
  rcases Moment.serving_or_idle o hr with ⟨i, a, cell, s⟩ | idle
  · by_cases own : a.cache = v.cache ∧ a.key = v.key
    · obtain ⟨hc, hk⟩ := own
      obtain ⟨first, owner, ends⟩ := k.ends owned s hc hk
      rcases ends with ⟨phase, he, reached, hs⟩ | ⟨he, hs⟩
      · exact .inl (k.serving_held o hr s hc first owner he reached hs)
      · obtain ⟨later, rfl⟩ := k.first_of_serving s first ⟨owner, hk⟩
        exact .inr ⟨i, later, rfl, k.serving_decided o hr s hc hk owner he hs⟩
    · exact .inl (k.serving_other o owned hr s own)
  · exact .inl (k.idle o hr idle)

end Stands

/-! ### Sessions -/

/-- A session that goes on from a world with a burst. -/
structure Session (v : Volley) (w : World) (steps : List Step) : Prop where
  clock : w.clock = v.clock
  limiter : w.limiters[v.owner]? = some ⟨v.limiter, v.cache⟩
  first : v.first = w.admissions.size
  /-- There is no entry, and no gate fails. -/
  fresh : ∀ cell ∈ w.caches[v.cache]?, cell.store.live? v.clock.now v.key.text = none ∧
    ∀ kind, cell.gate kind ≠ .fail
  /-- Earlier requests for the key are decided. -/
  decided : ∀ a ∈ w.admissions, a.cache = v.cache → a.key = v.key → a.phase.isDecided
  calm : w.Along v.Calm steps
  /-- In the end the gates are open. -/
  opened : ∀ cell ∈ (w.final steps).caches[v.cache]?, ∀ kind, cell.gate kind = .pass

instance (v : Volley) (w : World) (steps : List Step) : Decidable (v.Session w steps) :=
  decidable_of_iff (w.clock = v.clock ∧ w.limiters[v.owner]? = some ⟨v.limiter, v.cache⟩ ∧
      v.first = w.admissions.size ∧
      (∀ cell ∈ w.caches[v.cache]?, cell.store.live? v.clock.now v.key.text = none ∧
        ∀ kind, cell.gate kind ≠ .fail) ∧
      (∀ a ∈ w.admissions, a.cache = v.cache → a.key = v.key → a.phase.isDecided) ∧
      w.Along v.Calm steps ∧
      ∀ cell ∈ (w.final steps).caches[v.cache]?, ∀ kind, cell.gate kind = .pass)
    ⟨fun ⟨clock, limiter, first, fresh, decided, calm, opened⟩ =>
      ⟨clock, limiter, first, fresh, decided, calm, opened⟩,
     fun k => ⟨k.clock, k.limiter, k.first, k.fresh, k.decided, k.calm, k.opened⟩⟩

theorem Session.stands {steps : List Step} (k : v.Session w steps) (o : w.Orderly) :
    v.Stands [] [] [] w where
  clock := k.clock
  limiter := k.limiter
  first_le := Nat.le_of_eq k.first
  cell := by
    have there := Array.getElem?_eq_getElem (o.cell_cache_lt k.limiter)
    obtain ⟨live, gate⟩ := k.fresh _ there
    exact ⟨_, there, gate, live⟩
  requests := by
    refine List.eq_nil_iff_forall_not_mem.2 fun i hi => ?_
    obtain ⟨first, a, ha, -⟩ := mem_requests.1 hi
    have := (Array.getElem?_eq_some_iff.1 ha).1
    have := k.first
    omega
  decided := by simp
  undecided := by simp
  decisions := rfl
  reached ha hc hk hp := by
    have decided := k.decided _ (Array.mem_of_getElem? ha) hc hk
    rw [Phase.isDecided_iff] at decided
    omega

/-- Throughout a burst the first of its requests are decided, each as is due to it. -/
theorem Stands.course {w₀ : World} {h : List Moment} (start : v.Stands [] [] [] w₀)
    (o : w₀.Orderly) (owned : w₀.Owned) (c : Course v.Calm w₀ h w) :
    ∃ done rest, v.Stands done rest h w := by
  induction c with
  | start => exact ⟨[], [], start⟩
  | act c hs ih =>
    obtain ⟨done, rest, k⟩ := ih
    obtain ⟨new, k'⟩ := k.acted hs
    exact ⟨done, rest ++ new, k'⟩
  | @turn h w task _ c hr ih =>
    obtain ⟨done, rest, k⟩ := ih
    rcases Stands.turn (m := ⟨w, task⟩) k (c.orderly o) (c.owned o owned) (by rw [hr]; rfl) with
      k' | ⟨i, later, -, k'⟩
    · exact ⟨done, rest, k'⟩
    · exact ⟨done ++ [i], later, k'⟩

/-- In a session that goes on with a burst, every request of the burst is decided in the
    order in which they were issued, as is due to it after those before it. In the end
    the entry is the slot after the last one admitted. -/
theorem Session.decided_in_order {wall : Int} {past steps : List Step}
    (k : v.Session ((starting wall).final past) steps) :
    let last := ((starting wall).final past).final steps
    let rs := v.requests last
    v.decisions (((starting wall).final past).history steps) =
      (rs.mapIdx fun n i => (i, v.limiter.answerAfter n)) ∧
    (rs ≠ [] → ∃ cell, last.caches[v.cache]? = some cell ∧
      cell.store.live? last.clock.now v.key.text = some (.timestamp (v.reading.later
        ⟨min rs.length v.limiter.burstLimit * v.limiter.threshold.nanos⟩))) := by
  have before := course_history ((starting wall).along_true past)
  have o := before.orderly (orderly_starting wall)
  have owned := before.owned (orderly_starting wall) (owned_starting wall)
  have tidy := before.tidy (orderly_starting wall) (tidy_starting wall)
  have ready : ((starting wall).final past).ready = [] :=
    final_settled (orderly_starting wall) (tidy_starting wall) rfl past
  have start := k.stands o
  have opened := k.opened
  have course := course_history k.calm
  have settled := final_settled o tidy ready steps
  intro last rs
  obtain ⟨done, rest, stands⟩ := start.course o owned course
  obtain ⟨cell, hc, -, live⟩ := stands.cell
  -- With open gates nobody is left in the queue or parked, so all are decided.
  have all : rest = [] := by
    refine List.eq_nil_iff_forall_not_mem.2 fun i hi => ?_
    obtain ⟨a, ha, undecided⟩ := stands.undecided i hi
    have asked : i ∈ v.requests last := by
      rw [stands.requests]
      exact List.mem_append_right _ hi
    obtain ⟨-, a', ha', asks⟩ := mem_requests.1 asked
    obtain rfl : a = a' := Option.some.inj (ha.symm.trans ha')
    obtain ⟨there, hl, -, cache⟩ := (course.owned o owned).limiter ha
    rw [(of_decide_eq_true asks).1, stands.limiter] at hl
    cases hl
    have decided := (course.orderly o).decided_of_settled (course.owned o owned) settled ha
      fun kind => by
        rw [cache, holds, hc]
        simp [opened cell hc kind]
    omega
  have requests : rs = done := by rw [show rs = _ from stands.requests, all, List.append_nil]
  rw [requests]
  refine ⟨stands.decisions, fun some => ⟨cell, hc, ?_⟩⟩
  rw [show last.clock = v.clock from stands.clock, live, Burst.entry, Limiter.entryAfter,
    if_neg fun zero => some (List.eq_nil_of_length_eq_zero zero)]

/-- Three requests at a limiter of a second that has them wait for one. -/
def thrice : Volley where
  limiter := ⟨.ofMillis 1000, .ofMillis 1000, .zero⟩
  clock := .starting 0
  reading := .ofNanos 0
  threshold_pos := by decide
  read := by decide
  inRange := by decide
  within := by decide
  owner := 0
  cache := 0
  key := Salt.zero.anonymize "x"
  first := 0

/-- The limiter of `thrice` and its cache. -/
def thricePast : List Step :=
  [.cache "c", .limiter "a" "c" (.spans (.ofMillis 1000) (.ofMillis 1000)) (.ok .zero)]

/-- The requests, two through the limiter and one through a clone, with gates that hold
    each call for a while and a request for another key in between. -/
def thriceSteps : List Step :=
  [.gate "c" .lookup .hold, .throttle "a" (.plain "x") 2, .clone "a" "b",
    .throttle "a" (.plain "y") 1, .gate "c" .store .hold, .gate "c" .lookup .pass,
    .throttle "b" (.plain "x") 1, .dropHandle 1, .purge "c", .gate "c" .store .pass]

theorem Session.decided_in_order_thrice :
    thrice.Session ((starting 0).final thricePast) thriceSteps ∧
      thrice.decisions (((starting 0).final thricePast).history thriceSteps) =
        [(0, .ok .zero), (1, .ok (.ofMillis 1000)), (3, .error .deadlineExceeded)] := by
  have run : thrice.Session ((starting 0).final thricePast) thriceSteps ∧
      ((thrice.requests (((starting 0).final thricePast).final thriceSteps)).mapIdx fun n i =>
        (i, thrice.limiter.answerAfter n)) =
        [(0, .ok .zero), (1, .ok (.ofMillis 1000)), (3, .error .deadlineExceeded)] := by
    decide +kernel
  refine ⟨run.1, ?_⟩
  rw [(Session.decided_in_order run.1).1]
  exact run.2

end Volley

end Turnstile
