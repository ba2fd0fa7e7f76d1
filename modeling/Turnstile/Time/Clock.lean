import Turnstile.Fault
import Turnstile.Time.Instant
import Turnstile.Time.Timestamp

/-!
# Clocks

The two clocks of the machine. The monotonic one only moves forward. The wall
clock moves along with it, but can also be set, to any time at all: a reading of
it (`Clock.read`) is a fault before the epoch and past the last timestamp.
-/

namespace Turnstile

/-- The state of both clocks. -/
structure Clock where
  /-- What the monotonic clock shows. -/
  now : Instant
  /-- What the wall clock shows, in nanoseconds since the epoch. -/
  wall : Int
deriving DecidableEq, Repr

namespace Clock

/-- The clocks at the start, with the given time on the wall clock. -/
def starting (wall : Int) : Clock := ⟨.origin, wall⟩

/-- The clocks a span later. -/
def advance (c : Clock) (d : Span) : Clock := ⟨c.now.later d, c.wall + d.nanos⟩

/-- Read the wall clock. -/
def read (c : Clock) : Except Fault Timestamp :=
  if c.wall < 0 then .error (.beforeEpoch ⟨c.wall.natAbs⟩)
  else if (Timestamp.ofNanos c.wall).InRange then .ok (.ofNanos c.wall)
  else .error .pastLastTimestamp

end Clock

end Turnstile
