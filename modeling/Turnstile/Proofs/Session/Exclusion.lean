import Turnstile.Proofs.Limiter.Slot
import Turnstile.Proofs.Session.Serving

/-!
# One by one

The requests of a stripe go through their critical sections one by one, in the
order in which they were issued. A request is in its critical section from the
moment it gets its stripe until it is decided, aborted or torn down: between turns
it is `Inside`, and the turns in which it goes on are those that serve it.

* `Orderly.inside_unique`, `Orderly.decided_of_inside`: at most one request of a
  stripe is inside, and those issued before it are decided;
* `Moment.inside_eq`: no other request of the stripe is served meanwhile;
* `Course.served_in_order`: turns of a stripe come in the order of its requests;
* `Course.accounted`: what a request calls is a lookup of its key, and then a store
  under it.
-/

namespace Turnstile

/-- Whether a call was let through. -/
def Call.isPassed : Call → Bool
  | held .. => false
  | _ => true

namespace World

/-- The stripe that a request needs. -/
def stripeOf? (w : World) (i : Nat) : Option LockId := w.admissions[i]?.map Admission.lock

/-- That a request is in its critical section, between turns: it has its stripe, and
    is kept waiting or is to go on. -/
def Inside (w : World) (i : Nat) : Prop :=
  match w.phase? i with
  | some .inLine => .admission i ∈ w.ready
  | some (.beforeLookup _) | some (.beforeStore _ _) => True
  | _ => False

end World

namespace Moment

/-- The calls of a request in a history that were let through. -/
def callsOf (i : Nat) (h : List Moment) : List Call :=
  (h.filter fun m => m.task = .admission i).flatMap fun m => m.calls.filter Call.isPassed

end Moment

/-- What a request for a key may have called when it is decided: nothing, a lookup of
    the key, or a lookup and a store. What it stores in place of a timestamp is the one
    a threshold later. -/
inductive Limiter.Called (l : Limiter) (cache : String) (key : Key) : List Call → Prop
  | nothing : Called l cache key []
  | lookup {found : Option Value} : Called l cache key [.lookup cache key found]
  | store {found : Option Value} {slot : Timestamp} {lifetime : Span} :
      (found = none ∨ ∃ t, found = some (.timestamp t) ∧ t.add? l.threshold = some slot) →
      Called l cache key [.lookup cache key found, .store cache key (.timestamp slot) lifetime]

namespace World

variable {w : World} {i j : Nat} {a : Admission}

/-! ### Who is inside -/

theorem stripeOf?_eq (hi : w.admissions[i]? = some a) : w.stripeOf? i = some a.lock := by
  rw [stripeOf?, hi]
  rfl

theorem Evolves.stripeOf? {w' : World} (e : w.Evolves w') (hi : w.admissions[i]? = some a) :
    w'.stripeOf? i = w.stripeOf? i := by
  obtain ⟨b, hb, h⟩ := e.becomes hi
  rw [stripeOf?_eq hi, stripeOf?_eq hb, h.lock]

theorem Inside.exists (h : w.Inside i) : ∃ a, w.admissions[i]? = some a ∧
    (a.phase.stage = 2 ∨ (a.phase = .inLine ∧ .admission i ∈ w.ready)) := by
  unfold Inside at h
  cases hi : w.admissions[i]? with
  | none => simp [phase?, hi] at h
  | some a =>
    refine ⟨a, rfl, ?_⟩
    rw [phase?_eq hi] at h
    cases hp : a.phase with
    | inLine =>
      simp only [hp] at h
      exact .inr ⟨rfl, h⟩
    | beforeLookup | beforeStore => exact .inl rfl
    | issued | waiting | finished => simp [hp] at h

/-- Who is inside holds its stripe. -/
theorem Orderly.holder_of_inside (o : w.Orderly) (h : w.Inside i) :
    ∃ a rest, w.admissions[i]? = some a ∧ w.line a.lock = i :: rest ∧ w.Holder i a rest := by
  obtain ⟨a, hi, ha⟩ := h.exists
  obtain ⟨rest, hl, t⟩ := o.holder_of_head hi (o.head_line hi ha)
  exact ⟨a, rest, hi, hl, t⟩

/-- At most one request of a stripe is in its critical section. -/
theorem Orderly.inside_unique (o : w.Orderly) (hi : w.Inside i) (hj : w.Inside j)
    (hl : w.stripeOf? i = w.stripeOf? j) : i = j := by
  obtain ⟨a, _, ha, la, -⟩ := o.holder_of_inside hi
  obtain ⟨b, _, hb, lb, -⟩ := o.holder_of_inside hj
  rw [stripeOf?_eq ha, stripeOf?_eq hb, Option.some.injEq] at hl
  rw [hl, lb] at la
  exact (List.cons.inj la).1.symm

/-- When a request is in its critical section, those of its stripe that were issued
    before are decided. -/
theorem Orderly.decided_of_inside (o : w.Orderly) (hj : w.Inside j) (hij : i < j)
    (hl : w.stripeOf? i = w.stripeOf? j) : (w.phase? i).any Phase.isDecided := by
  obtain ⟨b, _, hb, -, t⟩ := o.holder_of_inside hj
  rw [stripeOf?_eq hb] at hl
  obtain ⟨a, ha, hab⟩ := Option.map_eq_some_iff.1 hl
  rw [phase?_eq ha]
  exact (Phase.isDecided_iff _).2 (t.before hij ha hab)

end World

/-! ### Who is served -/

namespace Moment

open World

variable {m : Moment} {i j : Nat}

/-- No other request of a stripe is served while one is in its critical section. -/
theorem inside_eq (o : m.world.Orderly) (hr : m.world.ready.head? = some m.task)
    (hi : m.world.Inside i) (hj : m.Serves j)
    (hl : m.world.stripeOf? i = m.world.stripeOf? j) : i = j := by
  obtain ⟨a, _, ha, la, -⟩ := o.holder_of_inside hi
  obtain ⟨b, _, s⟩ := hj.serving o hr
  obtain ⟨rest, t⟩ := s.holder
  rw [stripeOf?_eq ha, stripeOf?_eq s.admission, Option.some.injEq] at hl
  rw [hl] at la
  rcases t.line with ⟨-, lb⟩ | ⟨-, lb, -⟩
  · rw [la] at lb
    exact (List.cons.inj lb).1
  · simp [la] at lb

end Moment

/-! ### Who comes first -/

namespace World

variable {w w' : World} {i j : Nat}

/-- That all requests for the stripe of a request that were issued before it are
    decided. -/
def Passed (w : World) (i : Nat) : Prop :=
  ∃ a, w.admissions[i]? = some a ∧ ∀ {j : Nat} {b : Admission}, j < i →
    w.admissions[j]? = some b → b.lock = a.lock → b.phase.stage = 3

theorem Passed.evolves (h : w.Passed i) (e : w.Evolves w') : w'.Passed i := by
  obtain ⟨a, hi, before⟩ := h
  obtain ⟨a', hi', ha⟩ := e.becomes hi
  refine ⟨a', hi', fun {j b'} hj hb' hl => ?_⟩
  have there : j < w.admissions.size := by
    have := (Array.getElem?_eq_some_iff.1 hi).1
    omega
  -- Who was issued before was there already, and does not go back.
  obtain ⟨b'', hb'', hb⟩ := e.becomes (Array.getElem?_eq_getElem there)
  obtain rfl : b' = b'' := by
    rw [hb'] at hb''
    exact Option.some.inj hb''
  have decided := before hj (Array.getElem?_eq_getElem there) (by rw [← hb.lock, hl, ha.lock])
  have := hb.stage_le
  have := b'.phase.stage_le
  omega

end World

namespace Course

open World

variable {ok : World → Step → Prop} {w₀ w : World} {h : List Moment}

/-- Whoever was served had all before it decided, and has them decided since. -/
theorem passed (c : Course ok w₀ h w) (o : w₀.Orderly) {m : Moment} {i : Nat} (hm : m ∈ h)
    (hs : m.Serves i) : w.Passed i := by
  obtain ⟨orderly, head⟩ := c.orderly_at o hm
  obtain ⟨a, _, s⟩ := hs.serving orderly head
  obtain ⟨rest, t⟩ := s.holder
  exact Passed.evolves ⟨a, s.admission, t.before⟩ (c.evolves_from o hm)

/-- The turns in the critical sections of a stripe come in the order in which its
    requests were issued. -/
theorem served_in_order (c : Course ok w₀ h w) (o : w₀.Orderly) :
    h.Pairwise fun m n => ∀ i j, m.Serves i → n.Serves j →
      w.stripeOf? i = w.stripeOf? j → i ≤ j := by
  induction c with
  | start => exact .nil
  | @act h w s c _ ih =>
    refine ih.imp_of_mem fun hm hn le i j hi hj hl => le i j hi hj ?_
    obtain ⟨a, ha, -⟩ := c.passed o hm hi
    obtain ⟨b, hb, -⟩ := c.passed o hn hj
    rwa [(evolves_acted w s).stripeOf? ha, (evolves_acted w s).stripeOf? hb] at hl
  | @turn h w task _ c hr ih =>
    have head : w.ready.head? = some task := by rw [hr]; rfl
    have e := (c.orderly o).evolves_turn head
    -- The stripe of a request is the same ever since it was issued.
    have still {m : Moment} {i : Nat} (hm : m ∈ h ++ [⟨w, task⟩]) (hi : m.Serves i) :
        (w.taken.turn task).stripeOf? i = w.stripeOf? i := by
      rcases List.mem_append.1 hm with hm | hm
      · obtain ⟨a, ha, -⟩ := c.passed o hm hi
        exact e.stripeOf? ha
      · cases List.mem_singleton.1 hm
        obtain ⟨a, _, s⟩ := hi.serving (c.orderly o) head
        exact e.stripeOf? s.admission
    refine List.Pairwise.imp_of_mem (fun hm hn le i j hi hj hl => le i j hi hj ?_)
      (R := fun m n => ∀ i j, m.Serves i → n.Serves j → w.stripeOf? i = w.stripeOf? j → i ≤ j) ?_
    · have hl : (w.taken.turn task).stripeOf? i = (w.taken.turn task).stripeOf? j := hl
      rwa [still hm hi, still hn hj] at hl
    · refine List.pairwise_append.2
        ⟨ih, List.pairwise_singleton .., fun m hm n hn i j hi hj hl => ?_⟩
      cases List.mem_singleton.1 hn
      -- When the later one was served, this one was decided already.
      refine Nat.le_of_not_lt fun hji => ?_
      obtain ⟨a, ha, before⟩ := c.passed o hm hi
      rw [stripeOf?_eq ha] at hl
      obtain ⟨b, hb, hba⟩ := Option.map_eq_some_iff.1 hl.symm
      exact hj.undecided hb (before hji hb hba)

end Course

/-! ### What is called -/

/-- The calls of a passage that are let through. -/
def Passage.passed (p : Passage) : List Call := p.calls.filter Call.isPassed

/-- What a request for a key has called when it is in a phase. -/
def Limiter.Calling (l : Limiter) (cache : String) (key : Key) (calls : List Call) :
    Phase → Prop
  | .issued | .inLine | .beforeLookup _ => calls = []
  | .beforeStore d r => ∃ found reading, calls = [.lookup cache key found] ∧
      d = l.decide found reading ∧ d.reservation? = some r
  | .waiting _ | .finished => l.Called cache key calls

namespace Limiter

variable {l : Limiter} {cache : String} {key : Key} {calls : List Call} {phase : Phase}

/-- Who is decided has called what its phase says. -/
theorem Calling.called (h : l.Calling cache key calls phase) : l.Called cache key calls := by
  cases phase with
  | issued | inLine | beforeLookup =>
    rw [show calls = [] from h]
    exact .nothing
  | beforeStore =>
    obtain ⟨found, reading, rfl, -⟩ := h
    exact .lookup
  | waiting | finished => exact h

theorem Calling.idles {after : Phase} (h : l.Calling cache key calls phase)
    (hp : phase.Idles after) : l.Calling cache key calls after := by
  cases hp <;> exact h

theorem Called.key_of_store (h : l.Called cache key calls) {cache' : String} {key' : Key}
    {value : Value} {lifetime : Span} (hc : .store cache' key' value lifetime ∈ calls) :
    key = key' := by
  cases h with
  | nothing => simp at hc
  | lookup => simp at hc
  | store => simp_all

theorem calling_of_left {e : Exit} {o : Outcome} (he : e.outcome? = some o)
    (h : l.Called cache key calls) : l.Calling cache key calls e.phase := by
  rcases Exit.phase_of_outcome he with ⟨hp, -⟩ | ⟨_, hp, -⟩ <;> rw [hp] <;> exact h

end Limiter

namespace Admission

variable {a : Admission} {cell : CacheCell} {calls : List Call}

theorem storing_calling (now : Instant) {found : Option Value} {reading : Timestamp}
    {r : Reservation} (hr : (a.limiter.decide found reading).reservation? = some r) :
    a.limiter.Calling cell.name a.key ([.lookup cell.name a.key found] ++
      (a.storing cell now (a.limiter.decide found reading) r).passed)
      (a.storing cell now (a.limiter.decide found reading) r).exit.phase := by
  unfold storing
  cases cell.storeGate with
  | hold => exact ⟨found, reading, rfl, rfl, hr⟩
  | fail => exact .lookup
  | pass =>
    have called : a.limiter.Called cell.name a.key [.lookup cell.name a.key found,
        .store cell.name a.key (.timestamp r.slot) r.lifetime] := by
      refine .store ?_
      rcases Limiter.reservation_cases hr with ⟨hf, -⟩ | ⟨t, hf, hs, -⟩
      · exact .inl hf
      · exact .inr ⟨t, hf, hs⟩
    simp only []
    cases cell.store.set? now a.key.text (.timestamp r.slot) r.lifetime with
    | none => exact called
    | some store => exact Limiter.calling_of_left (by rfl) called

theorem carryingOut_calling (now : Instant) (found : Option Value) (reading : Timestamp) :
    a.limiter.Calling cell.name a.key (.lookup cell.name a.key found ::
      (a.carryingOut cell now (a.limiter.decide found reading)).passed)
      (a.carryingOut cell now (a.limiter.decide found reading)).exit.phase := by
  unfold carryingOut
  cases hr : (a.limiter.decide found reading).reservation? with
  | none => exact .lookup
  | some r => exact storing_calling now hr

theorem lookingUp_calling (now : Instant) (reading : Timestamp) :
    a.limiter.Calling cell.name a.key (a.lookingUp cell now reading).passed
      (a.lookingUp cell now reading).exit.phase := by
  unfold lookingUp
  cases cell.lookupGate with
  | hold => rfl
  | fail => exact .nothing
  | pass =>
    obtain ⟨found, store⟩ := cell.store.get now a.key.text
    exact @carryingOut_calling a { cell with store } now found reading

/-- A passage goes on with the calls of its phase. -/
theorem passage_calling {clock : Clock} (h : a.limiter.Calling cell.name a.key calls a.phase)
    (hp : a.phase.stage ≤ 2) :
    a.limiter.Calling cell.name a.key (calls ++ (a.passage cell clock).passed)
      (a.passage cell clock).exit.phase := by
  unfold passage
  cases he : a.phase with
  | beforeLookup reading =>
    rw [he] at h
    rw [show calls = [] from h]
    exact lookingUp_calling ..
  | beforeStore d r =>
    rw [he] at h
    obtain ⟨found, reading, rfl, rfl, hr⟩ := h
    exact storing_calling _ hr
  | issued | inLine =>
    rw [he] at h
    rw [show calls = [] from h]
    simp only [entering]
    cases clock.read with
    | error fault => exact .nothing
    | ok reading => exact lookingUp_calling ..
  | waiting | finished => simp [he, Phase.stage] at hp

end Admission

namespace Moment

variable {i : Nat} {h : List Moment} {m : Moment}

theorem mem_callsOf (hm : m ∈ h) (ht : m.task = .admission i) {call : Call}
    (hc : call ∈ m.calls) (hp : call.isPassed) : call ∈ callsOf i h := by
  simp only [callsOf, List.mem_flatMap, List.mem_filter, decide_eq_true_eq]
  exact ⟨m, ⟨hm, ht⟩, hc, hp⟩

theorem callsOf_concat : callsOf i (h ++ [m]) =
    callsOf i h ++ if m.task = .admission i then m.calls.filter Call.isPassed else [] := by
  by_cases ht : m.task = .admission i <;> simp [callsOf, List.filter_append, ht]

theorem callsOf_concat_of_nil (hm : m.task = .admission i → m.calls = []) :
    callsOf i (h ++ [m]) = callsOf i h := by
  rw [callsOf_concat]
  split
  · simp [hm ‹_›]
  · simp

end Moment

namespace World

variable {w : World} {h : List Moment}

/-- That every request has called what its phase says. -/
structure Accounted (w : World) (h : List Moment) : Prop where
  known : ∀ {i : Nat} {a : Admission}, w.admissions[i]? = some a → ∃ cell,
    w.caches[a.cache]? = some cell ∧
      a.limiter.Calling cell.name a.key (Moment.callsOf i h) a.phase
  unknown : ∀ {i : Nat}, w.admissions[i]? = none → Moment.callsOf i h = []

theorem Accounted.acted (k : w.Accounted h) (o : w.Orderly) (s : Step) :
    (w.acted s).Accounted h where
  known {i b} hb := by
    rcases admission_acted hb with ⟨a, ha, hab, hp⟩ | ⟨hn, _, _, _, l, cell, rfl, _, hl, rfl⟩
    · obtain ⟨cell, hc, called⟩ := k.known ha
      obtain ⟨cell', hc', change⟩ := cell_acted (s := s) hc
      rw [hab.cache, hab.limiter, hab.key]
      refine ⟨cell', hc', ?_⟩
      rw [change.name]
      rcases hp with hp | ⟨-, hp⟩
      · rwa [hp]
      · rw [hp]
        exact called.called
    · have there := o.cell_cache_lt hl
      obtain ⟨cell', hc', -⟩ := cell_acted (s := .throttle _ _ _)
        (Array.getElem?_eq_getElem there)
      exact ⟨cell', hc', k.unknown hn⟩
  unknown {i} hi := by
    refine k.unknown ?_
    cases ha : w.admissions[i]? with
    | none => rfl
    | some a =>
      obtain ⟨b, hb, -⟩ := (evolves_acted w s).becomes ha
      rw [hi] at hb
      cases hb

theorem Accounted.turn {m : Moment} (k : m.world.Accounted h) (o : m.world.Orderly)
    (hr : m.world.ready.head? = some m.task) : m.after.Accounted (h ++ [m]) where
  known {j b} hb := by
    have named {c : Nat} {cell : CacheCell} (hc : m.world.caches[c]? = some cell) :=
      o.cell_turn hr hc
    rcases Moment.serving_or_idle o hr with ⟨i, a, cell, s⟩ | idle
    · obtain ⟨a', ha', rfl⟩ := s.admission_after hb
      obtain ⟨cell₀, hc₀, called⟩ := k.known ha'
      obtain ⟨cell', hc', hn, -⟩ := named hc₀
      refine ⟨cell', hc', ?_⟩
      rw [hn]
      split
      · subst j
        obtain rfl : a = a' := by
          rw [s.admission] at ha'
          exact Option.some.inj ha'
        obtain rfl : cell = cell₀ := by
          rw [s.cache] at hc₀
          exact Option.some.inj hc₀
        obtain ⟨rest, t⟩ := s.holder
        rw [Moment.callsOf_concat, if_pos s.task, s.calls]
        exact Admission.passage_calling called t.undecided
      · rename_i hij
        rwa [Moment.callsOf_concat_of_nil fun ht => ?_]
        rw [s.task] at ht
        cases ht
        exact absurd rfl hij
    · obtain ⟨a, ha, e, hp⟩ := idle.admission hb
      obtain ⟨cell, hc, called⟩ := k.known ha
      obtain ⟨cell', hc', hn, -⟩ := named hc
      rw [e, Moment.callsOf_concat_of_nil fun _ => idle.calls]
      exact ⟨cell', hc', by rw [hn]; exact called.idles hp⟩
  unknown {j} hj := by
    have before : m.world.admissions[j]? = none := by
      cases ha : m.world.admissions[j]? with
      | none => rfl
      | some a =>
        obtain ⟨b, hb, -⟩ := (o.evolves_turn hr).becomes ha
        rw [show m.after.admissions[j]? = _ from hb] at hj
        cases hj
    rw [Moment.callsOf_concat_of_nil, k.unknown before]
    intro ht
    rcases Moment.serving_or_idle o hr with ⟨i, a, cell, s⟩ | idle
    · rw [s.task] at ht
      cases ht
      rw [s.admission] at before
      cases before
    · exact idle.calls

end World

namespace Course

open World

variable {ok : World → Step → Prop} {w : World} {h : List Moment} {wall : Int}

/-- In a session every request has called what its phase says. -/
theorem accounted (c : Course ok (starting wall) h w) : w.Accounted h := by
  have start := orderly_starting wall
  induction c with
  | start => exact ⟨fun hi => by simp [starting] at hi, fun _ => rfl⟩
  | act c _ ih => exact ih.acted (c.orderly start) _
  | turn c hr ih => exact Accounted.turn ih (c.orderly start) (by rw [hr]; rfl)

end Course

/-! ### Sessions -/

/-- That the requests of a session go through the critical sections of their stripes
    one by one, given its history and its last world. -/
structure Serialized (h : List Moment) (last : World) : Prop where
  /-- At most one request of a stripe is in its critical section. -/
  exclusive : ∀ w ∈ h.map Moment.world ++ [last], ∀ i j, w.Inside i → w.Inside j →
    w.stripeOf? i = w.stripeOf? j → i = j
  /-- By then those issued before it have been through theirs. -/
  after_earlier : ∀ w ∈ h.map Moment.world ++ [last], ∀ i j, i < j → w.Inside j →
    w.stripeOf? i = w.stripeOf? j → (w.phase? i).any Phase.isDecided
  /-- While a request is in its critical section, no other of the stripe is served. -/
  alone : ∀ m ∈ h, ∀ i j, m.world.Inside i → m.Serves j →
    m.world.stripeOf? i = m.world.stripeOf? j → i = j
  /-- The turns in critical sections of a stripe come in the order of the requests. -/
  in_order : h.Pairwise fun m n => ∀ i j, m.Serves i → n.Serves j →
    last.stripeOf? i = last.stripeOf? j → i ≤ j
  /-- All calls are made in critical sections. -/
  calls_served : ∀ m ∈ h, m.calls ≠ [] → ∃ i, m.Serves i
  /-- A request makes at most a lookup of its key and then a store under it, of the
      slot a threshold after the one it found. -/
  called : ∀ (i : Nat) (a : Admission), last.admissions[i]? = some a →
    ∃ cell, last.caches[a.cache]? = some cell ∧
      a.limiter.Called cell.name a.key (Moment.callsOf i h)
  /-- Between two turns in the critical section of a request, no other request of its
      limiter stores anything under its key. -/
  no_store_between : ∀ m₁ m m₂, [m₁, m, m₂].Sublist h → ∀ (i j : Nat) (a b : Admission),
    m₁.Serves i → m₂.Serves i → m.Serves j → last.admissions[i]? = some a →
    last.admissions[j]? = some b → b.owner = a.owner →
    (∃ cache value lifetime, .store cache a.key value lifetime ∈ m.calls) → j = i

namespace World

/-- In every session the requests go through their critical sections one by one. -/
theorem serialized_session (wall : Int) (steps : List Step) :
    Serialized ((starting wall).history steps) ((starting wall).final steps) := by
  have c := course_history ((starting wall).along_true steps)
  generalize (starting wall).history steps = h at c
  generalize (starting wall).final steps = last at c
  have start := orderly_starting wall
  have turn {m : Moment} (hm : m ∈ h) := c.orderly_at start hm
  have orderly {w : World} (hw : w ∈ h.map Moment.world ++ [last]) : w.Orderly := by
    rcases List.mem_append.1 hw with hw | hw
    · obtain ⟨m, hm, rfl⟩ := List.mem_map.1 hw
      exact (turn hm).1
    · rw [List.mem_singleton.1 hw]
      exact c.orderly start
  have order := c.served_in_order start
  have called {i : Nat} {a : Admission} (hi : last.admissions[i]? = some a) :
      ∃ cell, last.caches[a.cache]? = some cell ∧
        a.limiter.Called cell.name a.key (Moment.callsOf i h) := by
    obtain ⟨cell, hc, h⟩ := c.accounted.known hi
    exact ⟨cell, hc, h.called⟩
  constructor
  case exclusive => exact fun w hw i j => (orderly hw).inside_unique
  case after_earlier => exact fun w hw i j hij hj => (orderly hw).decided_of_inside hj hij
  case alone => exact fun m hm i j => Moment.inside_eq (turn hm).1 (turn hm).2
  case in_order => exact order
  case calls_served =>
    intro m hm hc
    rcases Moment.serving_or_idle (turn hm).1 (turn hm).2 with ⟨i, a, cell, s⟩ | idle
    · exact ⟨i, s.serves⟩
    · exact absurd idle.calls hc
  case called => exact fun i a hi => called hi
  case no_store_between =>
    rintro m₁ m m₂ hs i j a b h₁ h₂ hm hi hj ho ⟨cache, value, lifetime, hk⟩
    have mem : m ∈ h := hs.subset (by simp)
    -- Who stores under the key has it as its own, and so is of the same stripe.
    have key : b.key = a.key := by
      obtain ⟨cell, -, hb⟩ := called hj
      exact hb.key_of_store (Moment.mem_callsOf mem hm.1 hk rfl)
    have stripe : last.stripeOf? i = last.stripeOf? j := by
      rw [stripeOf?_eq hi, stripeOf?_eq hj, Admission.lock, Admission.lock, ho, key]
    have pairs := order.sublist hs
    simp only [List.pairwise_cons, List.mem_cons, List.not_mem_nil, or_false, forall_eq_or_imp,
      forall_eq] at pairs
    have le := pairs.1.1 i j h₁ hm stripe
    have ge := pairs.2.1 j i hm h₂ stripe.symm
    omega

end World

end Turnstile
