import Turnstile.Proofs.Session.Flowing

/-!
# Worlds alike

Two sessions are compared by what is to be seen of them: some of their requests, and
the answers for some of their keys. A `View` says which requests are seen, and under
which numbers, so that a request may have another number in the other session.

Two worlds are `Alike` in their views if the requests seen in both are the same, and in
the same state and order, and the caches have the same answers for the keys seen, from
now on. What else there is, requests that are not seen and the sweepers, may be in
different states.

* `Viewed.turn_unseen`: a turn that is not seen leaves a world alike to itself;
* `Alike.turn_seen`: turns of the same request leave worlds alike;
* `Alike.takeTurns`: so worlds that are alike are alike once they have settled, however
  the turns that are not seen come in between.
-/

namespace Turnstile

/-! ### Sorting -/

section

variable {α β : Type} {le : α → α → Bool} {le' : β → β → Bool} {f : α → Option β}

/-- In a sorted list what stands before an element is what is strictly below it. -/
theorem eq_filter_of_sorted {a : α} {l₁ l₂ : List α} (below : ∀ b ∈ l₁, !le a b)
    (sorted : (l₁ ++ a :: l₂).Pairwise fun b c => le b c) : l₁ = (l₁ ++ l₂).filter (!le a ·) := by
  have above := (List.pairwise_cons.1 (List.pairwise_append.1 sorted).2.1).1
  rw [List.filter_append, List.filter_eq_self.2 below, List.filter_eq_nil_iff.2, List.append_nil]
  intro c hc
  simp [above c hc]

/-- To sort and then to leave some elements out, and to rename the others in their order,
    is the same the other way round. -/
theorem filterMap_mergeSort (trans : ∀ a b c, le a b → le b c → le a c)
    (total : ∀ a b, le a b || le b a) (trans' : ∀ a b c, le' a b → le' b c → le' a c)
    (total' : ∀ a b, le' a b || le' b a)
    (same : ∀ {a b x y}, f a = some x → f b = some y → le a b = le' x y) (l : List α) :
    (l.mergeSort le).filterMap f = (l.filterMap f).mergeSort le' := by
  induction l with
  | nil => simp
  | cons a l ih =>
    obtain ⟨l₁, l₂, e, e', below⟩ := List.mergeSort_cons trans total a l
    cases hf : f a with
    | none =>
      rw [List.filterMap_cons_none hf, ← ih, e, e', List.filterMap_append,
        List.filterMap_cons_none hf, ← List.filterMap_append]
    | some x =>
      obtain ⟨m₁, m₂, d, d', below'⟩ := List.mergeSort_cons trans' total' x (l.filterMap f)
      rw [List.filterMap_cons_some hf, d, e, List.filterMap_append, List.filterMap_cons_some hf]
      -- The new element stands behind those strictly below it, on both sides.
      have first := eq_filter_of_sorted below (e ▸ List.pairwise_mergeSort trans total (a :: l))
      have first' := eq_filter_of_sorted below' (d ▸ List.pairwise_mergeSort trans' total' _)
      have both : (l₁ ++ l₂).filterMap f = m₁ ++ m₂ := by rw [← e', ih, d']
      have left : l₁.filterMap f = m₁ := by
        rw [first, first', ← both, List.filterMap_filter, List.filter_filterMap]
        congr 1
        funext b
        cases hb : f b with
        | none => simp
        | some y => simp [same hf hb, Option.filter_some]
      rw [List.filterMap_append, left] at both
      rw [left, List.append_cancel_left both]

end

/-! ### Views -/

/-- Under which numbers the requests of a session are seen, if they are. -/
structure View where
  number? : Nat → Option Nat
  /-- They are numbered in their order. -/
  le_iff : ∀ {i j m n : Nat}, number? i = some m → number? j = some n → (m ≤ n ↔ i ≤ j)

namespace View

variable (f : View)

theorem injective {i j n : Nat} (hi : f.number? i = some n) (hj : f.number? j = some n) : i = j :=
  Nat.le_antisymm ((f.le_iff hi hj).1 (Nat.le_refl n)) ((f.le_iff hj hi).1 (Nat.le_refl n))

/-- All requests under their own numbers. -/
def all : View where
  number? := some
  le_iff hi hj := by
    cases hi
    cases hj
    rfl

/-- The request that a task is seen as. -/
def task? : Task → Option Nat
  | .admission i => f.number? i
  | .sweeper _ => none

/-- The wait that a timer is seen as: until when, and whose. -/
def timer? (t : Timer) : Option (Nat × Nat) := (f.task? t.task).map (t.due, ·)

/-- The answer as it is seen. -/
def answer? (x : Nat × Outcome) : Option (Nat × Outcome) := (f.number? x.1).map (·, x.2)

variable {f}

/-- The answers seen are those to the requests seen, under the numbers that these have. -/
theorem filterMap_answer? {seen : Nat → Bool} {number : Nat → Nat}
    (h : ∀ i, f.number? i = if seen i then some (number i) else none)
    (l : List (Nat × Outcome)) : l.filterMap f.answer? =
      (l.filter fun x => seen x.1).map fun (i, o) => (number i, o) := by
  rw [← List.filterMap_eq_map, List.filterMap_filter]
  congr 1
  funext x
  rw [answer?, h]
  cases seen x.1 <;> rfl

end View

/-! ### What is seen of a world -/

namespace World

variable (w : World) (f : View)

/-- The requests seen in the queue. -/
def queue : List Nat := w.ready.filterMap f.task?

/-- The waits seen among the timers. -/
def schedule : List (Nat × Nat) := w.timers.filterMap f.timer?

/-- The answers seen. -/
def told : List (Nat × Outcome) := w.trace.answers.toList.filterMap f.answer?

end World

/-- That two stores have the same answers for some keys, from an instant on. -/
structure Store.Alike (keys : String → Prop) (now : Instant) (s t : Store) : Prop where
  live? : ∀ {key : String} {later : Instant}, keys key → now.nanos ≤ later.nanos →
    s.live? later key = t.live? later key

/-- That two caches have the same name and gates, and the same answers for some keys. -/
structure CacheCell.Alike (keys : String → Prop) (now : Instant) (x y : CacheCell) : Prop where
  name : x.name = y.name
  gate : ∀ kind, x.gate kind = y.gate kind
  store : x.store.Alike keys now y.store

/-- That the caches of the same number are alike. -/
structure CachesAlike (keys : String → Prop) (now : Instant) (cs ds : Array CacheCell) :
    Prop where
  size : cs.size = ds.size
  cell : ∀ {c : Nat} {x y : CacheCell}, cs[c]? = some x → ds[c]? = some y → x.Alike keys now y

/-- That two worlds look the same, each in a view of its own. -/
structure Alike (f g : View) (keys : String → Prop) (w v : World) : Prop where
  clock : w.clock = v.clock
  running : w.running = v.running
  limiters : w.limiters = v.limiters
  limiterNames : w.limiterNames = v.limiterNames
  cacheNames : w.cacheNames = v.cacheNames
  sweepers : w.sweepers.size = v.sweepers.size
  caches : CachesAlike keys w.clock.now w.caches v.caches
  /-- Requests seen under the same number are the same. -/
  admission : ∀ {i j n : Nat}, f.number? i = some n → g.number? j = some n →
    w.admissions[i]? = v.admissions[j]?
  queue : w.queue f = v.queue g
  schedule : w.schedule f = v.schedule g
  told : w.told f = v.told g

/-! ### Stores and caches -/

section

variable {keys : String → Prop} {now later : Instant}

namespace Store.Alike

variable {s t u : Store}

theorem refl (s : Store) : s.Alike keys now s := ⟨fun _ _ => rfl⟩

theorem symm (h : s.Alike keys now t) : t.Alike keys now s :=
  ⟨fun hk hl => (h.live? hk hl).symm⟩

theorem trans (h : s.Alike keys now t) (k : t.Alike keys now u) : s.Alike keys now u :=
  ⟨fun hk hl => (h.live? hk hl).trans (k.live? hk hl)⟩

theorem mono (h : s.Alike keys now t) (hn : now.nanos ≤ later.nanos) : s.Alike keys later t :=
  ⟨fun hk hl => h.live? hk (Nat.le_trans hn hl)⟩

/-- A lookup changes no answer from then on. -/
theorem get (s : Store) (now : Instant) (key : String) : (s.get now key).2.Alike keys now s :=
  ⟨fun _ hl => live?_get hl s key _⟩

theorem purge (s : Store) (now : Instant) : (s.purge now).Alike keys now s :=
  ⟨fun _ hl => live?_purge hl s _⟩

/-- The same entry can be stored in both, or in none. -/
theorem set? (h : s.Alike keys now t) (when : Instant) (key : String) (value : Value)
    (lifetime : Span) :
    (s.set? when key value lifetime = none ∧ t.set? when key value lifetime = none) ∨
      ∃ s' t', s.set? when key value lifetime = some s' ∧
        t.set? when key value lifetime = some t' ∧ s'.Alike keys now t' := by
  simp only [Store.set?]
  cases when.add? lifetime with
  | none => exact .inl ⟨rfl, rfl⟩
  | some expiry =>
    refine .inr ⟨_, _, rfl, rfl, ⟨fun hk hl => ?_⟩⟩
    rw [live?_insert, live?_insert, h.live? hk hl]

/-- A new entry under a key that is not seen changes no answer that is. -/
theorem of_set? {when : Instant} {key : String} {value : Value} {lifetime : Span}
    (hs : s.set? when key value lifetime = some t) (hk : ¬ keys key) : t.Alike keys now s := by
  refine ⟨fun ho _ => ?_⟩
  rw [live?_of_set? hs, if_neg]
  rintro rfl
  exact hk ho

end Store.Alike

namespace CacheCell.Alike

variable {x y z : CacheCell}

theorem refl (x : CacheCell) : x.Alike keys now x := ⟨rfl, fun _ => rfl, .refl _⟩

theorem symm (h : x.Alike keys now y) : y.Alike keys now x :=
  ⟨h.name.symm, fun kind => (h.gate kind).symm, h.store.symm⟩

theorem trans (h : x.Alike keys now y) (k : y.Alike keys now z) : x.Alike keys now z :=
  ⟨h.name.trans k.name, fun kind => (h.gate kind).trans (k.gate kind), h.store.trans k.store⟩

theorem mono (h : x.Alike keys now y) (hn : now.nanos ≤ later.nanos) : x.Alike keys later y :=
  ⟨h.name, h.gate, h.store.mono hn⟩

/-- What caches store may be changed alike. -/
theorem setStore (h : x.Alike keys now y) {s t : Store} (hs : s.Alike keys now t) :
    CacheCell.Alike keys now { x with store := s } { y with store := t } :=
  ⟨h.name, fun kind => by have := h.gate kind; cases kind <;> exact this, hs⟩

/-- It may be changed to what is alike. -/
theorem setStore_left {s : Store} (hs : s.Alike keys now x.store) :
    CacheCell.Alike keys now { x with store := s } x :=
  ⟨rfl, fun kind => by cases kind <;> rfl, hs⟩

end CacheCell.Alike

namespace CachesAlike

variable {cs ds es : Array CacheCell}

theorem refl (cs : Array CacheCell) : CachesAlike keys now cs cs :=
  ⟨rfl, fun hx hy => by rw [hx] at hy; cases hy; exact .refl _⟩

theorem symm (h : CachesAlike keys now cs ds) : CachesAlike keys now ds cs :=
  ⟨h.size.symm, fun hx hy => (h.cell hy hx).symm⟩

/-- A cache that is there on one side is there on the other. -/
theorem find (h : CachesAlike keys now cs ds) {c : Nat} {x : CacheCell} (hx : cs[c]? = some x) :
    ∃ y, ds[c]? = some y ∧ x.Alike keys now y := by
  have there : c < ds.size := h.size ▸ (Array.getElem?_eq_some_iff.1 hx).1
  exact ⟨_, Array.getElem?_eq_getElem there, h.cell hx (Array.getElem?_eq_getElem there)⟩

theorem trans (h : CachesAlike keys now cs ds) (k : CachesAlike keys now ds es) :
    CachesAlike keys now cs es := by
  refine ⟨h.size.trans k.size, fun hx hz => ?_⟩
  obtain ⟨y, hy, hxy⟩ := h.find hx
  exact hxy.trans (k.cell hy hz)

theorem mono (h : CachesAlike keys now cs ds) (hn : now.nanos ≤ later.nanos) :
    CachesAlike keys later cs ds :=
  ⟨h.size, fun hx hy => (h.cell hx hy).mono hn⟩

/-- Caches of the same number may be changed alike. -/
theorem modify (h : CachesAlike keys now cs ds) {c : Nat} {p q : CacheCell → CacheCell}
    (hpq : ∀ {x y}, cs[c]? = some x → ds[c]? = some y → x.Alike keys now y →
      (p x).Alike keys now (q y)) : CachesAlike keys now (cs.modify c p) (ds.modify c q) := by
  refine ⟨by simpa using h.size, fun {d x y} hx hy => ?_⟩
  rw [Array.getElem?_modify] at hx hy
  split at hx
  · subst d
    rw [if_pos rfl] at hy
    obtain ⟨x', hx', rfl⟩ := Option.map_eq_some_iff.1 hx
    obtain ⟨y', hy', rfl⟩ := Option.map_eq_some_iff.1 hy
    exact hpq hx' hy' (h.cell hx' hy')
  · rw [if_neg ‹_›] at hy
    exact h.cell hx hy

/-- A cache may be changed to one that is alike. -/
theorem modify_left {c : Nat} {p : CacheCell → CacheCell}
    (hp : ∀ {x}, cs[c]? = some x → (p x).Alike keys now x) :
    CachesAlike keys now (cs.modify c p) cs := by
  refine ⟨by simp, fun {d x y} hx hy => ?_⟩
  rw [Array.getElem?_modify] at hx
  split at hx
  · subst d
    obtain ⟨x', hx', rfl⟩ := Option.map_eq_some_iff.1 hx
    rw [hx'] at hy
    cases hy
    exact hp hx'
  · rw [hx] at hy
    cases hy
    exact .refl _

theorem push (h : CachesAlike keys now cs ds) (x : CacheCell) :
    CachesAlike keys now (cs.push x) (ds.push x) := by
  refine ⟨by simp [h.size], fun hx hy => ?_⟩
  rw [Array.getElem?_push] at hx hy
  rw [h.size] at hx
  split at hx
  · rw [if_pos ‹_›] at hy
    cases hx
    cases hy
    exact .refl _
  · rw [if_neg ‹_›] at hy
    exact h.cell hx hy

end CachesAlike

end

/-! ### Passages -/

/-- That two passages show the same, end the same, and leave stores alike. -/
structure Passage.Alike (keys : String → Prop) (now : Instant) (p q : Passage) : Prop where
  calls : p.calls = q.calls
  notices : p.notices = q.notices
  exit : p.exit = q.exit
  store : p.store.Alike keys now q.store

namespace Admission

variable {keys : String → Prop} {now : Instant} {x y : CacheCell} (a : Admission)

theorem storing_alike (h : x.Alike keys now y) (d : Decision) (r : Reservation) :
    (a.storing x now d r).Alike keys now (a.storing y now d r) := by
  have gate : x.storeGate = y.storeGate := h.gate .store
  unfold storing
  rw [gate, h.name]
  cases y.storeGate with
  | hold | fail => exact ⟨rfl, rfl, rfl, h.store⟩
  | pass =>
    simp only []
    rcases h.store.set? now a.key.text (.timestamp r.slot) r.lifetime with
      ⟨e, e'⟩ | ⟨s, t, e, e', hst⟩
    · rw [e, e']
      exact ⟨rfl, rfl, rfl, h.store⟩
    · rw [e, e']
      exact ⟨rfl, rfl, rfl, hst⟩

theorem carryingOut_alike (h : x.Alike keys now y) (d : Decision) :
    (a.carryingOut x now d).Alike keys now (a.carryingOut y now d) := by
  unfold carryingOut
  cases d.reservation? with
  | none => exact ⟨rfl, rfl, rfl, h.store⟩
  | some r =>
    have both := a.storing_alike h d r
    exact ⟨both.calls, congrArg (d.noticesBefore a.key a.limiter.deadline ++ ·) both.notices,
      both.exit, both.store⟩

theorem lookingUp_alike (h : x.Alike keys now y) (hk : keys a.key.text) (reading : Timestamp) :
    (a.lookingUp x now reading).Alike keys now (a.lookingUp y now reading) := by
  have gate : x.lookupGate = y.lookupGate := h.gate .lookup
  unfold lookingUp
  rw [gate]
  cases y.lookupGate with
  | hold => exact ⟨by rw [h.name], rfl, rfl, h.store⟩
  | fail => exact ⟨rfl, rfl, rfl, h.store⟩
  | pass =>
    have found : (x.store.get now a.key.text).1 = (y.store.get now a.key.text).1 := by
      rw [Store.get_fst, Store.get_fst, h.store.live? hk (Nat.le_refl _)]
    have kept : (x.store.get now a.key.text).2.Alike keys now (y.store.get now a.key.text).2 :=
      (Store.Alike.get ..).trans (h.store.trans (Store.Alike.get ..).symm)
    have both := a.carryingOut_alike (h.setStore kept)
      (a.limiter.decide (y.store.get now a.key.text).1 reading)
    simp only [found]
    exact ⟨congrArg₂ List.cons (by rw [h.name]) both.calls, both.notices, both.exit, both.store⟩

/-- A request does the same at caches that are alike for its key. -/
theorem entering_alike {clock : Clock} (h : x.Alike keys clock.now y) (hk : keys a.key.text) :
    (a.entering x clock).Alike keys clock.now (a.entering y clock) := by
  unfold entering
  cases clock.read with
  | error => exact ⟨rfl, rfl, rfl, h.store⟩
  | ok reading => exact a.lookingUp_alike h hk reading

end Admission

/-! ### Worlds -/

namespace Alike

variable {f g : View} {keys : String → Prop} {u w v : World}

theorem refl (f : View) (keys : String → Prop) (w : World) : Alike f f keys w w where
  clock := rfl
  running := rfl
  limiters := rfl
  limiterNames := rfl
  cacheNames := rfl
  sweepers := rfl
  caches := .refl _
  admission hi hj := by rw [f.injective hi hj]
  queue := rfl
  schedule := rfl
  told := rfl

theorem symm (h : Alike f g keys w v) : Alike g f keys v w where
  clock := h.clock.symm
  running := h.running.symm
  limiters := h.limiters.symm
  limiterNames := h.limiterNames.symm
  cacheNames := h.cacheNames.symm
  sweepers := h.sweepers.symm
  caches := h.clock ▸ h.caches.symm
  admission hi hj := (h.admission hj hi).symm
  queue := h.queue.symm
  schedule := h.schedule.symm
  told := h.told.symm

/-- What looks the same in one view looks the same to whatever is alike. -/
theorem trans_left (k : Alike f f keys u w) (h : Alike f g keys w v) : Alike f g keys u v where
  clock := k.clock.trans h.clock
  running := k.running.trans h.running
  limiters := k.limiters.trans h.limiters
  limiterNames := k.limiterNames.trans h.limiterNames
  cacheNames := k.cacheNames.trans h.cacheNames
  sweepers := k.sweepers.trans h.sweepers
  caches := k.caches.trans (k.clock ▸ h.caches)
  admission hi hj := (k.admission hi hi).trans (h.admission hi hj)
  queue := k.queue.trans h.queue
  schedule := k.schedule.trans h.schedule
  told := k.told.trans h.told

theorem trans_right (h : Alike f g keys w v) (k : Alike g g keys u v) : Alike f g keys w u :=
  (k.trans_left h.symm).symm

end Alike

namespace Exit

variable (e : Exit) (now : Instant) {f g : View} {i j n : Nat}

theorem timers_seen (hi : f.number? i = some n) (hj : g.number? j = some n) :
    (e.timers i now).filterMap f.timer? = (e.timers j now).filterMap g.timer? := by
  unfold timers
  split
  · split <;> simp [View.timer?, View.task?, hi, hj]
  · rfl

theorem timers_unseen (hi : f.number? i = none) : (e.timers i now).filterMap f.timer? = [] := by
  unfold timers
  split
  · split <;> simp [View.timer?, View.task?, hi]
  · rfl

theorem answers_seen (hi : f.number? i = some n) (hj : g.number? j = some n) :
    (e.answers i).filterMap f.answer? = (e.answers j).filterMap g.answer? := by
  unfold answers
  split
  · rfl
  · simp [View.answer?, hi, hj]
  · simp [View.answer?, hi, hj]
  · split <;> simp [View.answer?, hi, hj]

theorem answers_unseen (hi : f.number? i = none) : (e.answers i).filterMap f.answer? = [] := by
  unfold answers
  split
  · rfl
  · simp [View.answer?, hi]
  · simp [View.answer?, hi]
  · split <;> simp [View.answer?, hi]

end Exit

/-! ### Turns -/

/-- That a turn, if it is not seen, changes no answer for the keys seen. -/
structure Moment.Spares (f : View) (keys : String → Prop) (m : Moment) : Prop where
  entering : ∀ {i : Nat} {a : Admission} {cell : CacheCell}, m.task = .admission i →
    f.number? i = none → m.world.admissions[i]? = some a → a.phase = .issued →
    m.world.caches[a.cache]? = some cell →
    (a.entering cell m.world.clock).store.Alike keys m.world.clock.now cell.store

/-- A request changes no answer for another key. -/
theorem Moment.Spares.of_key {f : View} {keys : String → Prop} {m : Moment}
    (other : ∀ {i : Nat} {a : Admission}, m.task = .admission i → f.number? i = none →
      m.world.admissions[i]? = some a → ¬ keys a.key.text) : m.Spares f keys := by
  refine ⟨fun {i a cell} ht hi ha hp _ => ⟨fun {key later} hk hl => ?_⟩⟩
  have enters : a.passage cell m.world.clock = a.entering cell m.world.clock := by
    simp [Admission.passage, hp]
  rw [← enters, a.passage_other cell _ hl]
  rintro rfl
  exact other ht hi ha hk

/-- That a world flows, with the keys of the requests seen among those seen. -/
structure World.Viewed (f : View) (keys : String → Prop) (w : World) : Prop where
  orderly : w.Orderly
  tidy : w.Tidy
  flowing : w.Flowing
  key : ∀ {i n : Nat} {a : Admission}, f.number? i = some n → w.admissions[i]? = some a →
    keys a.key.text

section

open World

variable {f g : View} {keys : String → Prop} {w v : World} {i j n : Nat} {task : Task}

theorem World.Viewed.turn (k : w.Viewed f keys) (hr : w.ready.head? = some task) :
    (w.taken.turn task).Viewed f keys where
  orderly := k.orderly.turn hr
  tidy := k.tidy.turn k.orderly hr
  flowing := k.flowing.turn k.orderly hr
  key {i n b} hi hb := by
    obtain ⟨a, ha, -⟩ := Moment.admission_before (m := ⟨w, task⟩) k.orderly hr hb
    obtain ⟨b', hb', hab⟩ := (k.orderly.evolves_turn hr).becomes ha
    obtain rfl : b' = b := Option.some.inj (hb'.symm.trans hb)
    rw [hab.key]
    exact k.key hi ha

theorem queue_taken (hr : w.ready.head? = some task) :
    w.queue f = (f.task? task).toList ++ w.taken.queue f := by
  obtain ⟨rest, hr⟩ := List.head?_eq_some_iff.1 hr
  simp only [World.queue, taken, hr, List.tail_cons]
  cases h : f.task? task with
  | none => rw [List.filterMap_cons_none h]; rfl
  | some n => rw [List.filterMap_cons_some h]; rfl

theorem queue_taken_unseen (hr : w.ready.head? = some task) (unseen : f.task? task = none) :
    w.taken.queue f = w.queue f := by
  rw [queue_taken hr, unseen]
  rfl

/-- A request that is not seen goes on without anything to be seen of it. -/
theorem alike_moved {phase : Phase} {caches : Array CacheCell} {timers : List Timer}
    {lines : Table LockId (List Nat)} {trace : Trace} {given : List (Nat × Outcome)}
    (hr : w.ready.head? = some (.admission i)) (hi : f.number? i = none)
    (hc : CachesAlike keys w.clock.now caches w.caches) (ht : timers.filterMap f.timer? = [])
    (ha : trace.answers.toList = w.trace.answers.toList ++ given)
    (hg : given.filterMap f.answer? = []) :
    Alike f f keys (w.moved i phase caches timers lines trace) w where
  clock := rfl
  running := rfl
  limiters := rfl
  limiterNames := rfl
  cacheNames := rfl
  sweepers := rfl
  caches := hc
  admission {j k n} hj hk := by
    obtain rfl := f.injective hj hk
    simp only [moved, Array.getElem?_modify]
    rw [if_neg]
    rintro rfl
    rw [hi] at hj
    cases hj
  queue := queue_taken_unseen hr hi
  schedule := by simp [schedule, moved, List.filterMap_append, ht]
  told := by simp [told, moved, ha, List.filterMap_append, hg]

/-- A turn that is not seen leaves a world alike. -/
theorem World.Viewed.turn_unseen (k : w.Viewed f keys) (hr : w.ready.head? = some task)
    (unseen : f.task? task = none) (spares : Moment.Spares f keys ⟨w, task⟩) :
    Alike f f keys (w.taken.turn task) w := by
  cases task with
  | sweeper j =>
    have taken : Alike f f keys w.taken w :=
      { Alike.refl f keys w with queue := queue_taken_unseen hr unseen }
    rw [World.turn]
    rcases w.taken.sweeperTurn_cases j with e | ⟨s, -, swept⟩
    · rw [e]
      exact taken
    · refine Alike.trans_left ?_ taken
      obtain ⟨caches, _, purged, _, _, _, _, _, going, e⟩ := swept
      rw [e]
      refine { Alike.refl f keys w.taken with
        sweepers := ?_
        caches := ?_
        queue := ?_
        schedule := ?_ }
      · simp
      · rcases purged with rfl | ⟨c, rfl⟩
        · exact .refl _
        · exact .modify_left fun _ => .setStore_left (.purge ..)
      · cases going <;> simp [World.queue, View.task?]
      · cases going <;> simp [World.schedule, View.timer?, View.task?]
  | admission i =>
    obtain ⟨a, ha, turn⟩ := k.flowing.turn_cases k.orderly hr
    generalize w.taken.turn (.admission i) = w' at turn
    cases turn with
    | @decides cell o lines trace hp hc he given =>
      refine alike_moved hr unseen (.modify_left fun {x} hx => .setStore_left ?_)
        (Exit.timers_unseen _ _ unseen) given (Exit.answers_unseen _ unseen)
      obtain rfl : x = cell := Option.some.inj (hx.symm.trans hc)
      exact spares.entering rfl unseen ha hp hc
    | ends hp given =>
      exact alike_moved hr unseen (.refl _) rfl given
        (by simp [View.answer?, show f.number? i = none from unseen])

/-- A request seen in both worlds goes on alike in both. -/
theorem Alike.moved (h : Alike f g keys w v) {phase : Phase} {cs ds : Array CacheCell}
    {ts us : List Timer} {lines lines' : Table LockId (List Nat)} {trace trace' : Trace}
    {given given' : List (Nat × Outcome)} (hw : w.ready.head? = some (.admission i))
    (hv : v.ready.head? = some (.admission j)) (hi : f.number? i = some n)
    (hj : g.number? j = some n) (hc : CachesAlike keys w.clock.now cs ds)
    (ht : ts.filterMap f.timer? = us.filterMap g.timer?)
    (ha : trace.answers.toList = w.trace.answers.toList ++ given)
    (ha' : trace'.answers.toList = v.trace.answers.toList ++ given')
    (hg : given.filterMap f.answer? = given'.filterMap g.answer?) :
    Alike f g keys (w.moved i phase cs ts lines trace) (v.moved j phase ds us lines' trace') where
  clock := h.clock
  running := h.running
  limiters := h.limiters
  limiterNames := h.limiterNames
  cacheNames := h.cacheNames
  sweepers := h.sweepers
  caches := hc
  admission {k l m} hk hl := by
    simp only [World.moved, Array.getElem?_modify, h.admission hk hl]
    -- The one request goes on just if the other does.
    have same : i = k ↔ j = l := by
      constructor
      · rintro rfl
        rw [hi] at hk
        exact g.injective hj (hk ▸ hl)
      · rintro rfl
        rw [hj] at hl
        exact f.injective hi (hl ▸ hk)
    simp only [same]
  queue := by
    have both := h.queue
    rw [queue_taken hw, queue_taken hv] at both
    simp only [View.task?, hi, hj, Option.toList_some] at both
    exact List.append_cancel_left both
  schedule := by
    have both := h.schedule
    simp only [World.schedule] at both
    simp [World.schedule, World.moved, taken, List.filterMap_append, ht, both]
  told := by
    have both := h.told
    simp only [World.told] at both
    simp [World.told, World.moved, ha, ha', List.filterMap_append, hg, both]

/-- Turns of the same request leave worlds alike. -/
theorem Alike.turn_seen (h : Alike f g keys w v) (kw : w.Viewed f keys) (kv : v.Viewed g keys)
    (hw : w.ready.head? = some (.admission i)) (hv : v.ready.head? = some (.admission j))
    (hi : f.number? i = some n) (hj : g.number? j = some n) :
    Alike f g keys (w.taken.turn (.admission i)) (v.taken.turn (.admission j)) := by
  obtain ⟨a, ha, turn⟩ := kw.flowing.turn_cases kw.orderly hw
  obtain ⟨b, hb, turn'⟩ := kv.flowing.turn_cases kv.orderly hv
  obtain rfl : a = b := by
    have same := h.admission hi hj
    rw [ha, hb] at same
    exact Option.some.inj same
  generalize w.taken.turn (.admission i) = w' at turn
  generalize v.taken.turn (.admission j) = v' at turn'
  -- They are in the same phase, so both are decided, or the waits of both are over.
  cases turn with
  | @decides x _ _ _ hp hx _ given =>
    cases turn' with
    | @decides y _ _ _ _ hy _ given' =>
      have passages := a.entering_alike (h.caches.cell hx hy) (kw.key hi ha)
      rw [← h.clock] at given' ⊢
      rw [passages.exit] at given ⊢
      exact h.moved hw hv hi hj (h.caches.modify fun _ _ hxy => hxy.setStore passages.store)
        (Exit.timers_seen _ _ hi hj) given given' (Exit.answers_seen _ hi hj)
    | ends hp' =>
      rw [hp] at hp'
      cases hp'
  | ends hp given =>
    cases turn' with
    | decides hp' =>
      rw [hp] at hp'
      cases hp'
    | ends hp' given' =>
      rw [hp] at hp'
      cases hp'
      exact h.moved hw hv hi hj h.caches rfl given given' (by simp [View.answer?, hi, hj])

/-! ### Settling -/

theorem World.turns_succ (hr : w.ready.head? = some task) (p : Nat) :
    turns (p + 1) w = ⟨w, task⟩ :: turns p (w.taken.turn task) := by
  obtain ⟨rest, hr⟩ := List.head?_eq_some_iff.1 hr
  simp [turns, Moment.after, hr]

/-- Where there are turns enough for all, there is one for the next task, and enough for
    the others. -/
theorem World.Viewed.work_turn (k : w.Viewed f keys) (hr : w.ready.head? = some task) {p : Nat}
    (hp : w.work ≤ p) : ∃ p', p = p' + 1 ∧ (w.taken.turn task).work ≤ p' := by
  have := work_turn_lt k.orderly k.tidy hr
  exact ⟨p - 1, by omega, by omega⟩

/-- Which turn comes next: one that is not seen, none at all, or the one of the first
    request seen in the queue. -/
theorem World.next_cases (w : World) (f : View) :
    (∃ task, w.ready.head? = some task ∧ f.task? task = none) ∨
      (w.ready = [] ∧ w.queue f = []) ∨
      ∃ i n, w.ready.head? = some (.admission i) ∧ f.number? i = some n ∧
        w.queue f = n :: w.taken.queue f := by
  cases hr : w.ready.head? with
  | none =>
    have nil := List.head?_eq_none_iff.1 hr
    exact .inr (.inl ⟨nil, by rw [World.queue, nil]; rfl⟩)
  | some task =>
    cases ht : f.task? task with
    | none => exact .inl ⟨task, rfl, ht⟩
    | some n =>
      cases task with
      | sweeper => cases ht
      | admission i => exact .inr (.inr ⟨i, n, rfl, ht, by rw [queue_taken hr, ht]; rfl⟩)

/-- Worlds that are alike are alike after all turns, if the turns that are not seen spare
    the keys that are. -/
theorem Alike.takeTurns {p q : Nat} (h : Alike f g keys w v) (kw : w.Viewed f keys)
    (kv : v.Viewed g keys) (hp : w.work ≤ p) (hq : v.work ≤ q)
    (spares : ∀ m ∈ turns p w, m.Spares f keys) (spares' : ∀ m ∈ turns q v, m.Spares g keys) :
    Alike f g keys (World.takeTurns p w) (World.takeTurns q v) := by
  -- By induction on the turns of both: those that are not seen come first, on either side.
  induction e : p + q using Nat.strongRecOn generalizing p q w v with
  | ind total ih =>
    rcases w.next_cases f with ⟨task, hr, unseen⟩ | left
    · obtain ⟨p, rfl, lessp⟩ := kw.work_turn hr hp
      rw [turns_succ hr] at spares
      rw [takeTurns_succ hr]
      have turn := kw.turn_unseen hr unseen (spares _ (.head _))
      exact ih (p + q) (by omega) (turn.trans_left h) (kw.turn hr) kv lessp hq
        (fun m hm => spares m (.tail _ hm)) spares' rfl
    rcases v.next_cases g with ⟨task, hr, unseen⟩ | right
    · obtain ⟨q, rfl, lessq⟩ := kv.work_turn hr hq
      rw [turns_succ hr] at spares'
      rw [takeTurns_succ hr]
      have turn := kv.turn_unseen hr unseen (spares' _ (.head _))
      exact ih (p + q) (by omega) (h.trans_right turn) kw (kv.turn hr) hp lessq spares
        (fun m hm => spares' m (.tail _ hm)) rfl
    -- Now the next turns are those of the request that is first in both queues, if any is.
    rcases left with ⟨nil, none⟩ | ⟨i, n, hr, hi, next⟩ <;>
      rcases right with ⟨nil', none'⟩ | ⟨j, n', hr', hj, next'⟩ <;>
      have both := h.queue
    · rwa [takeTurns_of_ready_nil nil, takeTurns_of_ready_nil nil']
    · rw [none, next'] at both
      cases both
    · rw [none', next] at both
      cases both
    · rw [next, next'] at both
      obtain rfl : n = n' := (List.cons.inj both).1
      obtain ⟨p, rfl, lessp⟩ := kw.work_turn hr hp
      obtain ⟨q, rfl, lessq⟩ := kv.work_turn hr' hq
      rw [turns_succ hr] at spares
      rw [turns_succ hr'] at spares'
      rw [takeTurns_succ hr, takeTurns_succ hr']
      exact ih (p + q) (by omega) (h.turn_seen kw kv hr hr' hi hj) (kw.turn hr) (kv.turn hr') lessp
        lessq
        (fun m hm => spares m (.tail _ hm)) (fun m hm => spares' m (.tail _ hm)) rfl

theorem World.Viewed.settle (k : w.Viewed f keys) : w.settle.Viewed f keys :=
  takeTurns_induction (fun k hr => k.turn hr) _ k

theorem Alike.settle (h : Alike f g keys w v) (kw : w.Viewed f keys) (kv : v.Viewed g keys)
    (spares : ∀ m ∈ w.settling, m.Spares f keys) (spares' : ∀ m ∈ v.settling, m.Spares g keys) :
    Alike f g keys w.settle v.settle :=
  h.takeTurns kw kv (work_le kw.orderly kw.tidy) (work_le kv.orderly kv.tidy) spares spares'

/-- What is received of the answers seen, if it is known from the numbers under which
    requests are seen who waits for an answer. -/
theorem View.filterMap_received {awaited : Nat → Bool}
    (h : ∀ {i n : Nat}, f.number? i = some n → w.isAwaited i = awaited n) :
    w.received.filterMap f.answer? =
      ((w.told f).filter fun x => awaited x.1).mergeSort fun a b => a.1 ≤ b.1 := by
  have order {a b x y : Nat × Outcome} (ha : f.answer? a = some x) (hb : f.answer? b = some y) :
      decide (a.1 ≤ b.1) = decide (x.1 ≤ y.1) := by
    obtain ⟨m, hm, rfl⟩ := Option.map_eq_some_iff.1 ha
    obtain ⟨n, hn, rfl⟩ := Option.map_eq_some_iff.1 hb
    simp [f.le_iff hm hn]
  have kept (l : List (Nat × Outcome)) : (l.filter fun x => w.isAwaited x.1).filterMap f.answer? =
      (l.filterMap f.answer?).filter fun x => awaited x.1 := by
    rw [List.filterMap_filter, List.filter_filterMap]
    congr 1
    funext x
    cases hx : f.number? x.1 with
    | none => simp [View.answer?, hx]
    | some n => simp [View.answer?, hx, h hx, Option.filter_some]
  rw [received, filterMap_mergeSort _ _ _ _ order, kept, World.told]
  all_goals
    simp only [decide_eq_true_eq, Bool.or_eq_true]
    omega

/-- Of worlds that are alike the same answers are received, as far as they are seen. -/
theorem Alike.received (h : Alike f g keys w v) :
    w.received.filterMap f.answer? = v.received.filterMap g.answer? := by
  classical
  let awaited (n : Nat) : Bool := (∃ i, f.number? i = some n ∧ w.isAwaited i) ∨
    ∃ j, g.number? j = some n ∧ v.isAwaited j
  have same {i j n : Nat} (hi : f.number? i = some n) (hj : g.number? j = some n) :
      w.isAwaited i = v.isAwaited j := by
    rw [isAwaited, h.admission hi hj, isAwaited]
  have left {i n : Nat} (hi : f.number? i = some n) : w.isAwaited i = awaited n := by
    rw [Bool.eq_iff_iff, decide_eq_true_eq]
    constructor
    · exact fun waits => .inl ⟨i, hi, waits⟩
    · rintro (⟨k, hk, waits⟩ | ⟨j, hj, waits⟩)
      · rwa [f.injective hi hk]
      · rwa [same hi hj]
  have right {j n : Nat} (hj : g.number? j = some n) : v.isAwaited j = awaited n := by
    rw [Bool.eq_iff_iff, decide_eq_true_eq]
    constructor
    · exact fun waits => .inr ⟨j, hj, waits⟩
    · rintro (⟨i, hi, waits⟩ | ⟨k, hk, waits⟩)
      · rwa [← same hi hj]
      · rwa [g.injective hj hk]
  rw [View.filterMap_received left, View.filterMap_received right, h.told]

end

end Turnstile
