import Turnstile.Time.Span

/-!
# Instants

An instant is a reading of the monotonic clock, the one that nobody sets: it
says when an entry expires, when a wait is over and when a sweeper ticks. Its
seconds are a signed word of sixty-four bits, so a sum can leave the range
(`add?`).

Timers are coarser than instants: they count whole milliseconds since `origin`.
A wait that ends at `t` is over once the present, rounded down to a millisecond
(`millisDown`), has reached `t`, rounded up to one (`millisUp`). So a wait is
never cut short.
-/

namespace Turnstile

/-- A reading of the monotonic clock. -/
structure Instant where
  /-- Nanoseconds since the zero of the clock. -/
  nanos : Nat
deriving DecidableEq, Repr, Inhabited

namespace Instant

/-- The nanoseconds at which the range of instants ends. -/
def limit : Nat := UInt64.size / 2 * 1000000000

/-- The reading at which the monotonic clock starts, and which timers count
    from. -/
def origin : Instant := ⟨1000 * 1000000000⟩

/-- The instant a span later. -/
def later (t : Instant) (d : Span) : Instant := ⟨t.nanos + d.nanos⟩

/-- The instant a span later, if it is within the range. -/
def add? (t : Instant) (d : Span) : Option Instant :=
  if t.nanos + d.nanos < limit then some (t.later d) else none

/-- What rounding up to a whole millisecond adds at most. -/
def rounding : Span := ⟨999999⟩

/-- The whole milliseconds since the origin, the rest cut off. -/
def millisDown (t : Instant) : Nat := (t.nanos - origin.nanos) / 1000000

/-- The milliseconds since the origin, a begun one counted as a whole one. -/
def millisUp (t : Instant) : Nat := (t.nanos - origin.nanos + rounding.nanos) / 1000000

/-- The instant some milliseconds after the origin. -/
def ofMillis (millis : Nat) : Instant := ⟨origin.nanos + millis * 1000000⟩

end Instant

end Turnstile
