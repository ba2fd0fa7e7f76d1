import Mathlib.Data.List.Basic
import Mathlib.Data.List.Induction
import Turnstile.Proofs.Limiter.Slot

/-!
# A cache as a timed map

Entries leave a cache at various times: at a lookup or a purge once they are
expired, when another entry takes their place, when the cache is cleared. From
outside none of this shows. A cache is a map that forgets nothing: the key has
what it was given last, if it was not cleared since (`Store.LastSet`), for as long
as it was given.

A cache is used by *events*, operations at an instant, and `Store.after` is what it
stores after some of them.

* `live?_perform`: an event that writes nothing changes no answer from then on, and
  one that writes sets the answer for its keys;
* `get_after_iff`: a lookup answers as the timed map does;
* `get_after_congr`: hence lookups and purges before it make no difference to it;
* `Recorded`: a log of events with what they answered, from an empty cache on.
-/

namespace Turnstile.Store

/-! ### Events -/

/-- What a cache may be asked to do. -/
inductive Op
  | set (key : String) (value : Value) (lifetime : Span)
  | get (key : String)
  | purge
  | clear
deriving DecidableEq, Repr

/-- An operation on a cache at an instant. -/
structure Event where
  time : Instant
  op : Op
deriving DecidableEq, Repr

/-- Whether an operation writes, which lookups and purges do not. -/
def Op.writes : Op → Bool
  | set .. | clear => true
  | get _ | purge => false

/-- Whether an operation takes away what a key had. -/
def Op.overwrites (key : String) : Op → Bool
  | set other .. => other = key
  | clear => true
  | get _ | purge => false

theorem Op.writes_of_overwrites {key : String} {op : Op} (h : op.overwrites key) : op.writes := by
  cases op <;> first | rfl | exact h

/-- That an entry, if one is to be stored, expires within the range of instants. -/
def Event.InRange (e : Event) : Prop :=
  match e.op with
  | .set _ _ lifetime => (e.time.add? lifetime).isSome
  | _ => True

instance (e : Event) : Decidable e.InRange := by
  unfold Event.InRange
  split <;> infer_instance

/-- What an event answers, and what is stored after it. -/
def perform (s : Store) (e : Event) : Option Value × Store :=
  match e.op with
  | .set key value lifetime => (none, (s.set? e.time key value lifetime).getD s)
  | .get key => s.get e.time key
  | .purge => (none, s.purge e.time)
  | .clear => (none, .empty)

/-- What is stored after some events. -/
def after (s : Store) (es : List Event) : Store := es.foldl (fun s e => (s.perform e).2) s

/-- Events up to an instant: one after the other, with all entries in range. -/
structure Past (es : List Event) (now : Instant) : Prop where
  inRange : ∀ e ∈ es, e.InRange
  sorted : es.Pairwise fun e f => e.time.nanos ≤ f.time.nanos
  until_now : ∀ e ∈ es, e.time.nanos ≤ now.nanos

instance (es : List Event) (now : Instant) : Decidable (Past es now) :=
  decidable_of_iff ((∀ e ∈ es, e.InRange) ∧
      (es.Pairwise fun e f => e.time.nanos ≤ f.time.nanos) ∧ ∀ e ∈ es, e.time.nanos ≤ now.nanos)
    ⟨fun h => ⟨h.1, h.2.1, h.2.2⟩, fun h => ⟨h.1, h.2, h.3⟩⟩

/-! ### The timed map -/

/-- That a key was last given a value at an instant, for a span of time: it has not
    been given another one since, and nothing was cleared. -/
def LastSet (es : List Event) (key : String) (time : Instant) (value : Value) (lifetime : Span) :
    Prop :=
  ∃ before since, es = before ++ ⟨time, .set key value lifetime⟩ :: since ∧
    ∀ e ∈ since, e.op.overwrites key = false

section

variable {es : List Event} {e : Event} {now : Instant} {key : String}

theorem Past.nil (now : Instant) : Past [] now := ⟨by simp, List.Pairwise.nil, by simp⟩

theorem Past.before {rest : List Event} (h : Past (es ++ e :: rest) now) : Past es e.time := by
  have sorted := List.pairwise_append.1 h.sorted
  exact ⟨fun f hf => h.inRange f (List.mem_append_left _ hf), sorted.1,
    fun f hf => sorted.2.2 f hf e List.mem_cons_self⟩

theorem Past.of_concat (h : Past (es ++ [e]) now) :
    Past es now ∧ e.InRange ∧ e.time.nanos ≤ now.nanos := by
  have mem : e ∈ es ++ [e] := by simp
  exact ⟨⟨fun f hf => h.inRange f (List.mem_append_left _ hf), (List.pairwise_append.1 h.sorted).1,
    fun f hf => h.until_now f (List.mem_append_left _ hf)⟩, h.inRange e mem, h.until_now e mem⟩

theorem Past.concat (h : Past es now) (hr : e.InRange) (ht : e.time = now) :
    Past (es ++ [e]) now := by
  constructor
  case inRange =>
    intro f hf
    rcases List.mem_append.1 hf with hf | hf
    · exact h.inRange f hf
    · rwa [List.mem_singleton.1 hf]
  case sorted =>
    refine List.pairwise_append.2 ⟨h.sorted, List.pairwise_singleton .., fun f hf g hg => ?_⟩
    rw [List.mem_singleton.1 hg, ht]
    exact h.until_now f hf
  case until_now =>
    intro f hf
    rcases List.mem_append.1 hf with hf | hf
    · exact h.until_now f hf
    · exact Nat.le_of_eq (by rw [List.mem_singleton.1 hf, ht])

theorem Past.later (h : Past es now) {later : Instant} (ht : now.nanos ≤ later.nanos) :
    Past es later :=
  ⟨h.inRange, h.sorted, fun e he => Nat.le_trans (h.until_now e he) ht⟩

theorem after_concat (s : Store) (es : List Event) (e : Event) :
    s.after (es ++ [e]) = ((s.after es).perform e).2 := by
  rw [after, List.foldl_append]
  rfl

theorem not_lastSet_nil {time : Instant} {value : Value} {lifetime : Span} :
    ¬ LastSet [] key time value lifetime := by
  rintro ⟨before, since, h, -⟩
  simp at h

/-- With one more event, what a key was given last is what that event gives it, or
    what it was before. -/
theorem lastSet_concat {time : Instant} {value : Value} {lifetime : Span} :
    LastSet (es ++ [e]) key time value lifetime ↔ e = ⟨time, .set key value lifetime⟩ ∨
      LastSet es key time value lifetime ∧ e.op.overwrites key = false := by
  constructor
  · rintro ⟨before, since, h, kept⟩
    rcases List.eq_nil_or_concat' since with rfl | ⟨since, f, rfl⟩
    · exact .inl (List.singleton_inj.1 (List.append_inj' h rfl).2)
    · rw [← List.cons_append, ← List.append_assoc] at h
      obtain ⟨rfl, last⟩ := List.append_inj' h rfl
      obtain rfl : e = f := List.singleton_inj.1 last
      exact .inr ⟨⟨before, since, rfl, fun g hg => kept g (by simp [hg])⟩, kept e (by simp)⟩
  · rintro (rfl | ⟨⟨before, since, rfl, kept⟩, he⟩)
    · exact ⟨es, [], rfl, by simp⟩
    · refine ⟨before, since ++ [e], by simp, fun f hf => ?_⟩
      rcases List.mem_append.1 hf with hf | hf
      · exact kept f hf
      · rwa [List.mem_singleton.1 hf]

/-- What an event gives the keys that it overwrites: the value stored until its time is
    over, or nothing. -/
def Event.gives (e : Event) (now : Instant) : Option Value :=
  match e.op with
  | .set _ value lifetime => if now.nanos < e.time.nanos + lifetime.nanos then some value else none
  | _ => none

/-- What an event does to the answers from then on. -/
theorem live?_perform (s : Store) (hr : e.InRange) (ht : e.time.nanos ≤ now.nanos)
    (key : String) : (s.perform e).2.live? now key =
      if e.op.overwrites key then e.gives now else s.live? now key := by
  obtain ⟨time, op⟩ := e
  cases op with
  | set other value lifetime =>
    obtain ⟨expiry, he⟩ := Option.isSome_iff_exists.1 hr
    have stored : s.set? time other value lifetime = some (s.insert other ⟨value, expiry⟩) := by
      rw [set?, he]
      rfl
    simp only [perform, stored, Option.getD_some, live?_of_set? stored, Op.overwrites, Event.gives,
      decide_eq_true_eq]
    by_cases h : key = other <;> simp [h, Ne.symm]
  | get other => exact live?_get ht s other key
  | purge => exact live?_purge ht s key
  | clear => rfl

/-- An entry that would expire after the range of instants is not stored. -/
theorem perform_of_not_inRange {s : Store} (h : ¬ e.InRange) : (s.perform e).2 = s := by
  obtain ⟨time, op⟩ := e
  cases op with
  | set key value lifetime =>
    have none : time.add? lifetime = none := by simpa [Event.InRange] using h
    simp [perform, set?, none]
  | _ => exact absurd trivial h

/-- A lookup answers what its key was given last, until the time of that is over. -/
theorem live?_after_iff (h : Past es now) (key : String) (value : Value) :
    (empty.after es).live? now key = some value ↔
      ∃ time lifetime, LastSet es key time value lifetime ∧
        now.nanos < time.nanos + lifetime.nanos := by
  -- By induction on the events, the last one first: it sets the answer, or leaves it.
  induction es using List.reverseRecOn with
  | nil => simp [after, not_lastSet_nil]
  | append_singleton es e ih =>
    obtain ⟨past, hr, ht⟩ := h.of_concat
    rw [after_concat, live?_perform _ hr ht]
    cases ho : e.op.overwrites key with
    | false =>
      have other {time : Instant} {lifetime : Span} :
          e ≠ ⟨time, .set key value lifetime⟩ := by
        rintro rfl
        simp [Op.overwrites] at ho
      simp [lastSet_concat, ho, other, ih past]
    | true =>
      simp only [if_true, lastSet_concat, ho, Bool.true_eq_false, and_false, or_false]
      obtain ⟨time, op⟩ := e
      cases op with
      | set other new lifetime =>
        obtain rfl : other = key := by simpa [Op.overwrites] using ho
        simp only [Event.gives, Event.mk.injEq, Op.set.injEq, true_and]
        constructor
        · intro given
          split at given
          · cases given
            exact ⟨time, lifetime, ⟨rfl, rfl, rfl⟩, ‹_›⟩
          · cases given
        · rintro ⟨_, _, ⟨rfl, rfl, rfl⟩, live⟩
          rw [if_pos live]
      | clear => simp [Event.gives]
      | get | purge => cases ho

/-- A lookup answers as the timed map does. -/
theorem get_after_iff (h : Past es now) (key : String) (value : Value) :
    ((empty.after es).get now key).1 = some value ↔
      ∃ time lifetime, LastSet es key time value lifetime ∧
        now.nanos < time.nanos + lifetime.nanos := by
  rw [get_fst, live?_after_iff h]

theorem lastSet_filter (es : List Event) {time : Instant} {value : Value} {lifetime : Span} :
    LastSet (es.filter (·.op.writes)) key time value lifetime ↔
      LastSet es key time value lifetime := by
  induction es using List.reverseRecOn with
  | nil => rfl
  | append_singleton es e ih =>
    rw [List.filter_append, lastSet_concat]
    cases hw : e.op.writes with
    | true => simp [hw, lastSet_concat, ih]
    | false =>
      have kept : e.op.overwrites key = false := by
        rw [Bool.eq_false_iff] at hw ⊢
        exact fun ho => hw (Op.writes_of_overwrites ho)
      have other : e ≠ ⟨time, .set key value lifetime⟩ := by
        rintro rfl
        cases hw
      simp [hw, ih, kept, other]

/-- A lookup answers the same after the same writes, whatever lookups and purges there
    were. -/
theorem get_after_congr {es' : List Event} (h : Past es now) (h' : Past es' now)
    (same : es.filter (·.op.writes) = es'.filter (·.op.writes)) (key : String) :
    ((empty.after es).get now key).1 = ((empty.after es').get now key).1 := by
  ext value
  rw [get_after_iff h, get_after_iff h']
  simp only [← lastSet_filter es, ← lastSet_filter es', same]

end

/-! ### Logs -/

/-- An event, and what it answered. -/
structure Record where
  event : Event
  found : Option Value
deriving DecidableEq, Repr

/-- That a log tells all that was done to a cache up to an instant, and what is stored in
    it since. -/
structure Recorded (log : List Record) (now : Instant) (s : Store) : Prop where
  past : Past (log.map Record.event) now
  stored : s = empty.after (log.map Record.event)
  found : ∀ {before r rest}, log = before ++ r :: rest →
    r.found = ((empty.after (before.map Record.event)).perform r.event).1

section

variable {log : List Record} {now : Instant} {s : Store}

theorem Recorded.nil (now : Instant) : Recorded [] now empty :=
  ⟨.nil now, rfl, by simp⟩

theorem Recorded.later (h : Recorded log now s) {later : Instant} (ht : now.nanos ≤ later.nanos) :
    Recorded log later s :=
  ⟨h.past.later ht, h.stored, h.found⟩

/-- One more event. -/
theorem Recorded.concat (h : Recorded log now s) (op : Op) (hr : (⟨now, op⟩ : Event).InRange) :
    Recorded (log ++ [⟨⟨now, op⟩, (s.perform ⟨now, op⟩).1⟩]) now (s.perform ⟨now, op⟩).2 := by
  constructor
  case past =>
    rw [List.map_append]
    exact h.past.concat hr rfl
  case stored =>
    rw [List.map_append, List.map_singleton, after_concat, ← h.stored]
  case found =>
    intro before r rest split
    rcases List.eq_nil_or_concat' rest with rfl | ⟨rest, last, rfl⟩
    · obtain ⟨rfl, hr⟩ := List.append_inj' split rfl
      rw [← List.singleton_inj.1 hr, ← h.stored]
    · rw [← List.cons_append, ← List.append_assoc] at split
      exact h.found (List.append_inj' split rfl).1

theorem Recorded.past_before (h : Recorded log now s) {before rest : List Record} {r : Record}
    (split : log = before ++ r :: rest) : Past (before.map Record.event) r.event.time := by
  have past := h.past
  rw [split, List.map_append, List.map_cons] at past
  exact past.before

/-- A lookup in a log answers as the timed map does. -/
theorem Recorded.found_iff (h : Recorded log now s) {before rest : List Record} {r : Record}
    (split : log = before ++ r :: rest) {key : String} (get : r.event.op = .get key)
    (value : Value) : r.found = some value ↔
      ∃ time lifetime, LastSet (before.map Record.event) key time value lifetime ∧
        r.event.time.nanos < time.nanos + lifetime.nanos := by
  rw [h.found split, ← get_after_iff (h.past_before split)]
  simp only [perform, get]

end

end Turnstile.Store
