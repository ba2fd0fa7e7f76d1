import Turnstile.Cache.Value
import Turnstile.Table
import Turnstile.Time.Instant

/-!
# The cache

A cache holds entries under keys, each until an instant of its own. An entry is
*expired* once that instant is reached. An expired entry is no answer to a
lookup, but stays stored until something drops it: a lookup of its key, a purge,
or a new entry under the key.

What a lookup answers at an instant is `Store.live?`. To drop expired entries,
by a lookup or by a purge, changes no answer from then on.
-/

namespace Turnstile

/-- What is stored under a key. -/
structure Entry where
  value : Value
  /-- From then on the entry is expired. -/
  expiry : Instant
deriving DecidableEq, Repr

/-- Whether an entry is expired at an instant. -/
def Entry.isExpired (e : Entry) (now : Instant) : Bool :=
  e.expiry.nanos ≤ now.nanos

/-- The value of an entry until it expires. -/
def Entry.live? (e : Entry) (now : Instant) : Option Value :=
  if e.isExpired now then none else some e.value

/-- An entry stays expired. -/
theorem Entry.isExpired_mono {e : Entry} {now later : Instant} (h : now.nanos ≤ later.nanos)
    (expired : e.isExpired now) : e.isExpired later := by
  simp only [isExpired, decide_eq_true_eq] at *
  omega

/-- Entries under keys. -/
structure Store where
  entries : Table String Entry
deriving DecidableEq, Repr, Inhabited

namespace Store

/-! ### Operations -/

/-- The cache without entries. -/
def empty : Store := ⟨.empty⟩

/-- The number of stored entries, expired ones included. -/
def size (s : Store) : Nat := s.entries.size

/-- Whether nothing is stored. -/
def isEmpty (s : Store) : Bool := s.entries.isEmpty

/-- What is stored under a key, expired or not. -/
def stored? (s : Store) (key : String) : Option Entry := s.entries.get? key

/-- Drop what is stored under a key. -/
def erase (s : Store) (key : String) : Store := ⟨s.entries.erase key⟩

/-- Store an entry under a key, in place of any other. -/
def insert (s : Store) (key : String) (e : Entry) : Store := ⟨s.entries.set key e⟩

/-- Look up the value under a key. An expired entry is dropped. -/
def get (s : Store) (now : Instant) (key : String) : Option Value × Store :=
  match s.stored? key with
  | none => (none, s)
  | some e => if e.isExpired now then (none, s.erase key) else (some e.value, s)

/-- Store a value under a key for a span of time. There is no entry if it would
    expire after the range of instants. -/
def set? (s : Store) (now : Instant) (key : String) (value : Value) (lifetime : Span) :
    Option Store :=
  (now.add? lifetime).map fun expiry => s.insert key ⟨value, expiry⟩

/-- Drop the expired entries. -/
def purge (s : Store) (now : Instant) : Store :=
  ⟨s.entries.filter fun _ e => !e.isExpired now⟩

/-- The number of entries that a purge drops. -/
def expiredCount (s : Store) (now : Instant) : Nat :=
  s.size - (s.purge now).size

/-! ### Answers -/

/-- What a lookup of a key answers at an instant. -/
def live? (s : Store) (now : Instant) (key : String) : Option Value :=
  (s.stored? key).bind fun e => e.live? now

@[simp] theorem live?_empty (now : Instant) (key : String) : empty.live? now key = none := rfl

/-- A lookup answers what is live. -/
theorem get_fst (s : Store) (now : Instant) (key : String) :
    (s.get now key).1 = s.live? now key := by
  unfold get live?
  cases s.stored? key with
  | none => rfl
  | some e => by_cases expired : e.isExpired now <;> simp [Entry.live?, expired]

/-- A new entry is what its key has, until it expires. -/
theorem live?_insert (s : Store) (now : Instant) (key other : String) (e : Entry) :
    (s.insert key e).live? now other =
      if other = key then e.live? now else s.live? now other := by
  simp only [live?, stored?, insert, Table.get?_set]
  by_cases h : other = key <;> simp [h]

/-- To drop an expired entry changes no answer from then on. -/
theorem live?_erase_of_isExpired {s : Store} {now later : Instant} {key : String} {e : Entry}
    (stored : s.stored? key = some e) (expired : e.isExpired now) (h : now.nanos ≤ later.nanos)
    (other : String) : (s.erase key).live? later other = s.live? later other := by
  have erased := s.entries.get?_erase key other
  by_cases k : other = key
  · subst k
    rw [live?, live?, stored]
    simp_all [stored?, erase, Entry.live?, Entry.isExpired_mono h expired]
  · simp_all [live?, stored?, erase]

/-- A lookup changes no answer from then on. -/
theorem live?_get {now later : Instant} (h : now.nanos ≤ later.nanos) (s : Store)
    (key other : String) : (s.get now key).2.live? later other = s.live? later other := by
  unfold get
  cases stored : s.stored? key with
  | none => rfl
  | some e =>
    by_cases expired : e.isExpired now
    · simpa [expired] using live?_erase_of_isExpired stored expired h other
    · simp [expired]

theorem stored?_purge (s : Store) (now : Instant) (key : String) :
    (s.purge now).stored? key = (s.stored? key).filter fun e => !e.isExpired now :=
  Table.get?_filter ..

/-- A purge leaves nothing for another one. -/
theorem purge_purge (s : Store) (now : Instant) : (s.purge now).purge now = s.purge now := by
  simp only [purge, Table.filter, List.filter_filter, Bool.and_self]

/-- A purge changes no answer from then on. -/
theorem live?_purge {now later : Instant} (h : now.nanos ≤ later.nanos) (s : Store)
    (key : String) : (s.purge now).live? later key = s.live? later key := by
  simp only [live?, stored?, purge, Table.get?_filter]
  cases s.entries.get? key with
  | none => rfl
  | some e =>
    by_cases expired : e.isExpired now
    · simp [Option.filter_some, expired, Entry.live?, Entry.isExpired_mono h expired]
    · simp [Option.filter_some, expired]

end Store

end Turnstile
