import Turnstile.Proofs.Session.Corruption
import Turnstile.Proofs.Session.Verdict

/-!
# Where entries come from

What is stored in a cache of a session was put there by a step, or set by the turn of an
admission. Nothing else makes an entry: lookups, purges and the passing of time only
take some away, and an entry that is there keeps its value and its time.

* `Moment.Sets`: the turn of an admission stores an entry under its key;
* `Course.stored`: every stored entry was set in some turn, unless a step may have put it;
* `Serving.found`: what a lookup answers is stored, and not expired;
* `Course.reserved`: what a turn stores is what its admission has reserved.
-/

namespace Turnstile

namespace Store

/-- That all entries of a store are in another one. -/
def Within (s t : Store) : Prop :=
  ∀ (text : String) (e : Entry), s.stored? text = some e → t.stored? text = some e

variable {s s' : Store} {now : Instant} {key text : String} {value : Value} {lifetime : Span}
  {e : Entry}

theorem within_erase (s : Store) (key : String) : (s.erase key).Within s := by
  intro text e he
  have erased := s.entries.get?_erase key text
  rw [stored?, erase, erased] at he
  split at he
  · cases he
  · exact he

theorem within_get (s : Store) (now : Instant) (key : String) : (s.get now key).2.Within s := by
  unfold get
  split
  · exact fun _ _ he => he
  · split
    · exact s.within_erase key
    · exact fun _ _ he => he

theorem within_purge (s : Store) (now : Instant) : (s.purge now).Within s := by
  intro text e he
  rw [stored?, purge, Table.get?_filter] at he
  exact (Option.filter_eq_some_iff.1 he).1

/-- What is stored after a new entry is that or was stored before. -/
theorem stored?_cases_of_set? (h : s.set? now key value lifetime = some s')
    (he : s'.stored? text = some e) : s.stored? text = some e ∨
      text = key ∧ e.value = value ∧ now.add? lifetime = some e.expiry := by
  obtain ⟨expiry, range, stored⟩ := stored?_of_set? h
  rw [stored] at he
  split at he
  · cases he
    exact .inr ⟨‹_›, rfl, range⟩
  · exact .inl he

/-- What is live is stored, and not expired. -/
theorem stored?_of_live? (h : s.live? now text = some value) :
    ∃ e, s.stored? text = some e ∧ e.value = value ∧ now.nanos < e.expiry.nanos := by
  obtain ⟨e, stored, live⟩ := Option.bind_eq_some_iff.1 h
  unfold Entry.live? at live
  split at live
  · cases live
  · rename_i fresh
    simp only [Entry.isExpired, decide_eq_true_eq, Nat.not_le] at fresh
    exact ⟨e, stored, Option.some.inj live, fresh⟩

end Store

/-! ### Passages -/

namespace Admission

variable {a : Admission} {cell : CacheCell} {now : Instant} {text : String} {e : Entry}

/-- That an entry is one that a passage with some calls has stored. -/
def Leaves (a : Admission) (now : Instant) (calls : List Call) (text : String) (e : Entry) : Prop :=
  text = a.key.text ∧ ∃ name slot lifetime, .store name a.key (.timestamp slot) lifetime ∈ calls ∧
    e.value = .timestamp slot ∧ now.add? lifetime = some e.expiry

theorem storing_leaves {d : Decision} {r : Reservation}
    (he : (a.storing cell now d r).store.stored? text = some e) :
    cell.store.stored? text = some e ∨ a.Leaves now (a.storing cell now d r).calls text e := by
  rcases a.storing_cases cell now d r with ⟨-, -, same⟩ | ⟨-, _, -, same⟩ | ⟨-, -, set, calls⟩
  · exact .inl (by rwa [same] at he)
  · exact .inl (by rwa [same] at he)
  · refine (Store.stored?_cases_of_set? set he).imp_right fun ⟨own, value, expiry⟩ => ?_
    exact ⟨own, cell.name, r.slot, r.lifetime, by rw [calls]; exact .head _, value, expiry⟩

theorem lookingUp_leaves {reading : Timestamp}
    (he : (a.lookingUp cell now reading).store.stored? text = some e) :
    cell.store.stored? text = some e ∨
      a.Leaves now (a.lookingUp cell now reading).calls text e := by
  rcases a.lookingUp_cases cell now reading with
    ⟨-, -, same⟩ | ⟨-, -, same⟩ | ⟨-, ⟨-, -, got, -⟩ | ⟨r, -, -, left, calls⟩⟩
  · exact .inl (by rwa [same] at he)
  · exact .inl (by rwa [same] at he)
  · rw [got] at he
    exact .inl (Store.within_get _ _ _ _ _ he)
  · rw [left] at he
    rcases storing_leaves he with before | ⟨own, name, slot, lifetime, call, rest⟩
    · exact .inl (Store.within_get _ _ _ _ _ before)
    · exact .inr ⟨own, name, slot, lifetime, by rw [calls]; exact .tail _ call, rest⟩

/-- What is stored after a passage was so before, or the passage has stored it. -/
theorem passage_leaves {clock : Clock}
    (he : (a.passage cell clock).store.stored? text = some e) :
    cell.store.stored? text = some e ∨
      a.Leaves clock.now (a.passage cell clock).calls text e := by
  unfold passage at he ⊢
  split at he
  · exact lookingUp_leaves he
  · exact storing_leaves he
  · unfold entering at he ⊢
    cases hr : clock.read with
    | error => exact .inl (by rwa [hr] at he)
    | ok reading =>
      rw [hr] at he
      exact lookingUp_leaves he

theorem lookingUp_found {reading : Timestamp} {name : String} {key : Key} {found : Option Value}
    (hc : .lookup name key found ∈ (a.lookingUp cell now reading).calls) :
    key = a.key ∧ found = cell.store.live? now a.key.text := by
  unfold lookingUp at hc
  cases hg : cell.lookupGate with
  | hold => simp [hg] at hc
  | fail => simp [hg] at hc
  | pass =>
    rw [← Store.get_fst]
    simp only [hg, carryingOut] at hc
    rcases List.mem_cons.1 hc with e | hc
    · cases e
      exact ⟨rfl, rfl⟩
    · split at hc
      · exact (a.lookup_not_mem_storing _ _ _ _ _ _ hc).elim
      · cases hc

/-- What a lookup is answered is live under the key of its admission. -/
theorem passage_found {clock : Clock} {name : String} {key : Key} {found : Option Value}
    (hc : .lookup name key found ∈ (a.passage cell clock).calls) :
    key = a.key ∧ found = cell.store.live? clock.now a.key.text := by
  unfold passage at hc
  split at hc
  · exact lookingUp_found hc
  · exact (a.lookup_not_mem_storing _ _ _ _ _ _ hc).elim
  · unfold entering at hc
    split at hc
    · cases hc
    · exact lookingUp_found hc

end Admission

/-! ### Reservations -/

theorem Decision.mem_stores {d : Decision} {cache : String} {key : Key} {call : Call} :
    call ∈ d.stores cache key ↔
      ∃ r, d.reservation? = some r ∧ call = .store cache key (.timestamp r.slot) r.lifetime := by
  cases hr : d.reservation? with
  | none => simp [Decision.stores_of_none hr]
  | some r => simp [Decision.stores_of_reservation hr]

/-- What a request has called in its critical section is one lookup, and a store of what is
    reserved for what that found. -/
theorem Limiter.Through.cases_of_mem {l : Limiter} {cache : String} {key : Key}
    {reading : Timestamp} {calls : List Call} {exit : Exit}
    (t : l.Through cache key reading calls exit) {call : Call} (hc : call ∈ calls) :
    ∃ found, calls.head? = some (.lookup cache key found) ∧
      (call = .lookup cache key found ∨ ∃ r,
        (l.decide found reading).reservation? = some r ∧
          call = .store cache key (.timestamp r.slot) r.lifetime) := by
  cases exit with
  | held phase =>
    cases phase with
    | beforeLookup =>
      rw [t.2] at hc
      cases hc
    | beforeStore =>
      obtain ⟨found, rfl, -⟩ := t
      exact ⟨found, rfl, .inl (List.mem_singleton.1 hc)⟩
    | issued | inLine | waiting | finished => exact t.elim
  | failed fault =>
    rcases t with rfl | ⟨-, found, r, -, ⟨rest, rfl⟩, among⟩
    · cases hc
    · exact ⟨found, rfl, (List.mem_cons.1 (among.subset hc)).imp_right Decision.mem_stores.1⟩
  | decided o =>
    obtain ⟨found, -, rfl⟩ := t
    exact ⟨found, rfl, (List.mem_cons.1 hc).imp_right Decision.mem_stores.1⟩

/-! ### Turns -/

namespace Moment

open World

/-- That the turn of an admission stores an entry under its key. -/
structure Sets (m : Moment) (i : Nat) (a : Admission) (e : Entry) : Prop where
  serves : m.Serves i
  admission : m.world.admissions[i]? = some a
  leaves : a.Leaves m.world.clock.now m.calls a.key.text e

/-- That a request looks up a key of a cache in a turn, and what it finds. -/
structure Asks (m : Moment) (i : Nat) (a : Admission) (found : Option Value) : Prop where
  serves : m.Serves i
  admission : m.world.admissions[i]? = some a
  call : ∃ name, .lookup name a.key found ∈ m.calls

variable {m : Moment} {i : Nat} {a : Admission} {cell : CacheCell}

/-- What a lookup is answered is stored, and not expired. -/
theorem Serving.found (s : m.Serving i a cell) {name : String} {key : Key} {value : Value}
    (hc : .lookup name key (some value) ∈ m.calls) :
    ∃ e, cell.store.stored? a.key.text = some e ∧ e.value = value ∧
      m.world.clock.now.nanos < e.expiry.nanos := by
  rw [s.calls] at hc
  exact Store.stored?_of_live? (Admission.passage_found hc).2.symm

/-- What is stored after a turn was so before, or the turn has set it. -/
theorem stored_after (o : m.world.Orderly) (hr : m.world.ready.head? = some m.task) {c : Nat}
    {cell' : CacheCell} (hc' : m.after.caches[c]? = some cell') {text : String} {e : Entry}
    (he : cell'.store.stored? text = some e) :
    (∃ cell, m.world.caches[c]? = some cell ∧ cell.store.stored? text = some e) ∨
      ∃ i a, m.Sets i a e ∧ a.cache = c ∧ a.key.text = text := by
  cases hc : m.world.caches[c]? with
  | none =>
    have none : m.after.caches[c]? = none := o.cell_turn_none hr hc
    rw [none] at hc'
    cases hc'
  | some there =>
    rcases serving_or_idle o hr with ⟨i, a, cell, s⟩ | idle
    · obtain ⟨cell'', hc'', store, -⟩ := s.cell_after hc
      obtain rfl : cell' = cell'' := Option.some.inj (hc'.symm.trans hc'')
      rw [store] at he
      split at he
      · rename_i own
        subst own
        obtain rfl : cell = there := Option.some.inj (s.cache.symm.trans hc)
        rcases Admission.passage_leaves he with before | leaves
        · exact .inl ⟨cell, rfl, before⟩
        · obtain rfl := leaves.1
          exact .inr ⟨i, a, ⟨s.serves, s.admission, by rwa [s.calls]⟩, rfl, rfl⟩
      · exact .inl ⟨there, rfl, he⟩
    · rcases idle.cell hc with same | purged
      · obtain rfl : cell' = there := Option.some.inj (hc'.symm.trans same)
        exact .inl ⟨cell', rfl, he⟩
      · obtain rfl : cell' = _ := Option.some.inj (hc'.symm.trans purged)
        exact .inl ⟨there, rfl, Store.within_purge _ _ _ _ he⟩

end Moment

/-! ### Steps -/

namespace World

variable {w : World} {s : Step} {c : Nat} {cell' : CacheCell} {text : String} {e : Entry}

/-- That a step puts an entry under a key of a cache. -/
def Puts (w : World) (c : Nat) (text : String) (e : Entry) (s : Step) : Prop :=
  ∃ cache key lifetime, s = .put cache key e.value lifetime ∧ w.cacheNames.get? cache = some c ∧
    w.keyMeant? key = some text ∧ w.clock.now.add? lifetime = some e.expiry

/-- What is stored after a step was so before, or the step has put it. -/
theorem stored_acted (hc' : (w.acted s).caches[c]? = some cell')
    (he : cell'.store.stored? text = some e) :
    (∃ cell, w.caches[c]? = some cell ∧ cell.store.stored? text = some e) ∨ w.Puts c text e s := by
  cases hc : w.caches[c]? with
  | none =>
    obtain ⟨name, rfl⟩ := cell_acted_new hc hc'
    cases he
  | some cell =>
    obtain ⟨cell'', hc'', change⟩ := cell_acted (s := s) hc
    obtain rfl : cell' = cell'' := Option.some.inj (hc'.symm.trans hc'')
    rcases change.store with same | storing
    · exact .inl ⟨cell, rfl, by rwa [same] at he⟩
    · generalize cell'.store = store at storing he
      cases storing with
      | put hn hk set =>
        rcases Store.stored?_cases_of_set? set he with before | ⟨rfl, rfl, expiry⟩
        · exact .inl ⟨cell, rfl, before⟩
        · exact .inr ⟨_, _, _, rfl, hn, hk, expiry⟩
      | get => exact .inl ⟨cell, rfl, Store.within_get _ _ _ _ _ he⟩
      | purge => exact .inl ⟨cell, rfl, Store.within_purge _ _ _ _ he⟩
      | clear => cases he

end World

namespace Course

open World Moment

variable {ok : World → Step → Prop} {w : World} {h : List Moment} {wall : Int}

/-- What is stored was set in the turn of an admission, or is as the steps may put it. -/
theorem stored (given : Nat → String → Entry → Prop)
    (puts : ∀ {w : World} {s : Step} {c : Nat} {text : String} {e : Entry}, ok w s →
      w.Puts c text e s → given c text e)
    (k : Course ok (starting wall) h w) {c : Nat} {cell : CacheCell} {text : String} {e : Entry}
    (hc : w.caches[c]? = some cell) (he : cell.store.stored? text = some e) :
    given c text e ∨ ∃ m ∈ h, ∃ i a, m.Sets i a e ∧ a.cache = c ∧ a.key.text = text := by
  induction k generalizing cell with
  | start => simp [starting] at hc
  | act _ hs ih =>
    rcases stored_acted hc he with ⟨cell, hc, he⟩ | put
    · exact ih hc he
    · exact .inl (puts hs put)
  | @turn h w task rest k hr ih =>
    have head : w.ready.head? = some task := by rw [hr]; rfl
    rcases stored_after (m := ⟨w, task⟩) (k.orderly (orderly_starting wall)) head hc he with
      ⟨cell, hc, he⟩ | ⟨i, a, sets, own⟩
    · refine (ih hc he).imp_right fun set => ?_
      obtain ⟨m, hm, set⟩ := set
      exact ⟨m, List.mem_append_left _ hm, set⟩
    · exact .inr ⟨_, List.mem_append_right _ (.head _), i, a, sets, own⟩

/-- What a turn stores is what the decision on its request reserves. -/
theorem reserved (k : Course ok (starting wall) h w) {m : Moment} (hm : m ∈ h) {i : Nat}
    {a : Admission} (hs : m.Serves i) (ha : m.world.admissions[i]? = some a) {name : String}
    {key : Key} {value : Value} {lifetime : Span}
    (hc : .store name key value lifetime ∈ m.calls) :
    key = a.key ∧ ∃ found reading r, (a.limiter.decide found reading).reservation? = some r ∧
      value = .timestamp r.slot ∧ lifetime = r.lifetime := by
  obtain ⟨h₁, _, -, k', rest, hr⟩ := k.before hm
  obtain ⟨a', cell, s⟩ := hs.serving (k'.orderly (orderly_starting wall)) (by rw [hr]; rfl)
  obtain rfl : a = a' := Option.some.inj (ha.symm.trans s.admission)
  have called : .store name key value lifetime ∈ callsOf i (h₁ ++ [m]) :=
    mem_callsOf (by simp) s.task hc rfl
  obtain ⟨cell', hc', knows⟩ := k'.informed ha
  obtain rfl : cell = cell' := Option.some.inj (s.cache.symm.trans hc')
  rcases s.ended knows with ⟨-, none⟩ | ⟨reading, -, through⟩
  · rw [none] at called
    cases called
  · obtain ⟨found, -, e | ⟨r, hr, e⟩⟩ := through.cases_of_mem called
    · cases e
    · cases e
      exact ⟨rfl, found, reading, r, hr, rfl, rfl⟩

/-- What a request has called begins with the lookup of its key. -/
theorem callsOf_of_asks (k : Course ok (starting wall) h w) {n : Moment} (hn : n ∈ h) {i : Nat}
    {a : Admission} {found : Option Value} (asks : n.Asks i a found) :
    ∃ cache rest, callsOf i h = .lookup cache a.key found :: rest := by
  obtain ⟨name, call⟩ := asks.call
  have called : .lookup name a.key found ∈ callsOf i h := mem_callsOf hn asks.serves.1 call rfl
  obtain ⟨b, hb, hab⟩ := (k.evolves_from (orderly_starting wall) hn).becomes asks.admission
  obtain ⟨cell, -, calling⟩ := k.accounted.known hb
  generalize callsOf i h = calls at called calling
  cases calling.called with
  | nothing => cases called
  | lookup => exact ⟨name, [], by rw [List.mem_singleton.1 called]⟩
  | store =>
    rcases List.mem_cons.1 called with e | other
    · exact ⟨name, _, by rw [e]⟩
    · cases List.mem_singleton.1 other

/-- A request that has looked up its key goes by a reading. -/
theorem goesBy_of_asks (k : Course ok (starting wall) h w) {n : Moment} (hn : n ∈ h) {i : Nat}
    {a : Admission} {found : Option Value} (asks : n.Asks i a found) :
    ∃ reading, GoesBy h i reading := by
  obtain ⟨before, after, e, k', rest, hr⟩ := k.before hn
  obtain ⟨a', cell, s⟩ := asks.serves.serving (k'.orderly (orderly_starting wall)) (by rw [hr]; rfl)
  obtain ⟨cell', hc', knows⟩ := k'.informed s.admission
  obtain rfl : cell = cell' := Option.some.inj (s.cache.symm.trans hc')
  obtain ⟨name, call⟩ := asks.call
  have called : .lookup name a.key found ∈ callsOf i (before ++ [n]) :=
    mem_callsOf (by simp) asks.serves.1 call rfl
  rcases s.ended knows with ⟨-, none⟩ | ⟨reading, ⟨⟨m, hm, enters⟩, all⟩, -⟩
  · rw [none] at called
    cases called
  · refine ⟨reading, k.goesBy_of_enters (m := m) ?_ enters (all m hm enters)⟩
    rw [e, ← List.singleton_append, ← List.append_assoc]
    exact List.mem_append_left _ hm

end Course

end Turnstile
