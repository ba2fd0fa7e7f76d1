import Turnstile.Proofs.Session.CacheLog

/-!
# The entries of a cache

An entry gets into a cache when something is stored under a key that has none. It leaves the
cache when it is expired, at a purge or at a lookup of its key, or when the cache is cleared.
To store something in place of another entry, even of an expired one, makes neither more nor
fewer entries.

So the entries that got in are those that left and those that are there: what an event adds
and drops (`size_perform`) is summed up over all events (`total_added`).

* `perform_kept`: a lookup or a store of one key leaves what is stored under the others;
* `expiredCount_eq`, `stored?_purge_iff`: what a purge drops, and what it keeps;
* `Store.Accounts`: all that of what is stored after some events;
* `entries_accounted_for`: so it is for any events, and in a session for each cache.
-/

namespace Turnstile

namespace Store

variable {s : Store} {e : Event} {now : Instant} {key : String}

/-! ### What an event adds and drops -/

/-- The number of entries that an event adds: one if it stores under a key that has none. -/
def added (s : Store) (e : Event) : Nat :=
  match e.op with
  | .set key _ _ => if e.InRange ∧ s.stored? key = none then 1 else 0
  | _ => 0

/-- The number of entries that it purges. -/
def purged (s : Store) (e : Event) : Nat :=
  match e.op with
  | .purge => s.expiredCount e.time
  | _ => 0

/-- The number of entries that it drops as expired when it looks them up. -/
def lapsed (s : Store) (e : Event) : Nat :=
  match e.op with
  | .get key => if (s.stored? key).any (·.isExpired e.time) then 1 else 0
  | _ => 0

/-- The number of entries that it clears away. -/
def cleared (s : Store) (e : Event) : Nat :=
  match e.op with
  | .clear => s.size
  | _ => 0

theorem size_insert (s : Store) (key : String) (entry : Entry) :
    (s.insert key entry).size = s.size + if s.stored? key = none then 1 else 0 := by
  rw [size, insert, Table.size_set, Table.contains, stored?]
  cases s.entries.get? key <;> rfl

theorem size_erase {entry : Entry} (stored : s.stored? key = some entry) :
    (s.erase key).size + 1 = s.size := by
  have erased := s.entries.size_erase_add key
  rwa [Table.contains, show s.entries.get? key = some entry from stored] at erased

/-- Entries expired and entries kept are all there are. -/
theorem size_purge (s : Store) (now : Instant) : (s.purge now).size + s.expiredCount now = s.size :=
  Nat.add_sub_cancel' (List.length_filter_le _ s.entries.rows)

/-- Whatever is added to what is stored is stored then, or dropped. -/
theorem size_perform (s : Store) (e : Event) : s.size + s.added e =
    (s.perform e).2.size + s.purged e + s.lapsed e + s.cleared e := by
  obtain ⟨time, op⟩ := e
  cases op with
  | set key value lifetime =>
    simp only [added, purged, lapsed, cleared, Nat.add_zero]
    by_cases hr : (⟨time, .set key value lifetime⟩ : Event).InRange
    · obtain ⟨expiry, he⟩ := Option.isSome_iff_exists.1 hr
      simp only [hr, true_and, perform, set?, he, Option.map_some, Option.getD_some, size_insert]
    · simp only [hr, false_and, if_false, Nat.add_zero, perform_of_not_inRange hr]
  | get key =>
    simp only [added, purged, lapsed, cleared, perform, get, Nat.add_zero]
    cases stored : s.stored? key with
    | none => rfl
    | some entry =>
      by_cases expired : entry.isExpired time
      · simp [expired, size_erase stored]
      · simp [expired]
  | purge => exact (s.size_purge time).symm
  | clear => simp [added, purged, lapsed, cleared, perform, size, empty, Table.empty, Table.size]

/-- Events of other keys leave what is stored under a key. -/
theorem perform_kept {other : String} (h : other ≠ key)
    (op : e.op = .get key ∨ ∃ value lifetime, e.op = .set key value lifetime) :
    (s.perform e).2.stored? other = s.stored? other := by
  obtain ⟨time, _⟩ := e
  rcases op with rfl | ⟨value, lifetime, rfl⟩
  · simp only [perform, get]
    cases s.stored? key with
    | none => rfl
    | some entry =>
      by_cases expired : entry.isExpired time
      · simp [expired, stored?, erase, Table.get?_erase, h]
      · simp [expired]
  · simp only [perform, set?]
    cases time.add? lifetime with
    | none => rfl
    | some expiry => simp [stored?, insert, Table.get?_set, h]

/-! ### Purges -/

/-- A purge drops the entries whose time has come. -/
theorem expiredCount_eq (s : Store) (now : Instant) :
    s.expiredCount now = s.entries.values.countP fun entry => entry.expiry.nanos ≤ now.nanos := by
  have dropped := s.size_purge now
  have rows : s.size = _ :=
    List.length_eq_countP_add_countP fun r : String × Entry => !r.2.isExpired now
  have kept : (s.purge now).size =
      s.entries.rows.countP fun r : String × Entry => !r.2.isExpired now :=
    List.countP_eq_length_filter.symm
  have expired : (s.entries.values.countP fun entry => entry.expiry.nanos ≤ now.nanos) =
      s.entries.rows.countP fun r : String × Entry => ¬ (!r.2.isExpired now) = true := by
    rw [Table.values, List.countP_map]
    refine List.countP_congr fun r _ => ?_
    simp [Entry.isExpired]
  rw [expired]
  omega

/-- It keeps the others as they are. -/
theorem stored?_purge_iff {entry : Entry} : (s.purge now).stored? key = some entry ↔
    s.stored? key = some entry ∧ now.nanos < entry.expiry.nanos := by
  rw [stored?_purge, Option.filter_eq_some_iff]
  simp [Entry.isExpired]

/-- A purge leaves nothing to purge. -/
theorem expiredCount_purge (s : Store) (now : Instant) : (s.purge now).expiredCount now = 0 := by
  rw [expiredCount, purge_purge, Nat.sub_self]

/-! ### Sums over events -/

/-- The sum of a count over events, each of them taken with what is stored by then. -/
def total (count : Store → Event → Nat) (s : Store) : List Event → Nat
  | [] => 0
  | e :: rest => count s e + total count (s.perform e).2 rest

/-- What was stored and what is added is stored in the end, or was dropped. -/
theorem total_added (s : Store) (es : List Event) : s.size + total added s es =
    (s.after es).size + total purged s es + total lapsed s es + total cleared s es := by
  induction es generalizing s with
  | nil => rfl
  | cons e rest ih =>
    have first := s.size_perform e
    have others := ih (s.perform e).2
    simp only [total]
    change s.size + _ = ((s.perform e).2.after rest).size + _ + _ + _
    omega

/-- What the events that a cache had say about its entries. -/
structure Accounts (es : List Event) (s : Store) : Prop where
  /-- No key has two entries. -/
  once : (s.entries.rows.map Prod.fst).Nodup
  /-- The entries that got in are those that are there and those that left. -/
  balance : total added empty es =
    s.size + total purged empty es + total lapsed empty es + total cleared empty es
  /-- A purge drops the entries whose time has come, … -/
  dropped : ∀ now, s.expiredCount now =
    s.entries.values.countP fun entry => entry.expiry.nanos ≤ now.nanos
  /-- … it keeps all the others as they are, … -/
  kept : ∀ now key entry, (s.purge now).stored? key = some entry ↔
    s.stored? key = some entry ∧ now.nanos < entry.expiry.nanos
  /-- … and another one at the same instant has nothing to drop. -/
  again : ∀ now, (s.purge now).expiredCount now = 0
  /-- To look up a key, or to store under it, is nothing to the others. -/
  others : ∀ time key op, (op = .get key ∨ ∃ value lifetime, op = .set key value lifetime) →
    ∀ other ≠ key, (s.perform ⟨time, op⟩).2.stored? other = s.stored? other
  /-- To store what would expire out of range is nothing to any. -/
  refused : ∀ e : Event, ¬ e.InRange → (s.perform e).2 = s

theorem accounts_after (es : List Event) : Accounts es (empty.after es) where
  once := (empty.after es).entries.nodup_keys
  balance := by simpa [size, empty, Table.empty, Table.size] using empty.total_added es
  dropped now := expiredCount_eq _ now
  kept _ _ _ := stored?_purge_iff
  again now := expiredCount_purge _ now
  others _ _ _ op _ h := perform_kept h op
  refused _ h := perform_of_not_inRange h

end Store

open Store World

/-- Whatever is done to a cache that was empty, its entries are accounted for. In a session
    they are so for each cache, with all that steps, limiters and sweepers do to it, and the
    result of a purge is the number of entries that it drops. -/
theorem entries_accounted_for :
    (∀ es : List Event, Accounts es (empty.after es)) ∧
    (∀ (wall : Int) (steps : List Step) (c : Nat),
      Accounts (((starting wall).records c steps).map Record.event)
        (((starting wall).final steps).storeAt c)) ∧
    ∀ (w : World) (name : String) (c : Nat) (cell : CacheCell),
      w.cacheNamed? name = some (c, cell) → (w.act (.purge name)).2 =
        .count (cell.store.entries.values.countP fun e => e.expiry.nanos ≤ w.clock.now.nanos) := by
  refine ⟨accounts_after, fun wall steps c => ?_, fun w name c cell named => ?_⟩
  · have recorded := recorded_session (w := .starting wall) (c := c) steps
      (orderly_starting wall) (Recorded.nil _)
    rw [recorded.stored, List.nil_append]
    exact accounts_after _
  · simp only [World.act, withCache, named, expiredCount_eq]

end Turnstile
