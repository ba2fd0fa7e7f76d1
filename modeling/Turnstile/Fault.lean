import Turnstile.Time.Span

/-!
# Faults

A fault ends the task it happens in, and nothing else: the lock that the task
holds is passed on, and who waits for its answer learns that there will be none.
-/

namespace Turnstile

/-- What can end a task before its time. -/
inductive Fault
  /-- The wall clock shows a time before the epoch, by the given span. -/
  | beforeEpoch (gap : Span)
  /-- The wall clock shows a time past the last timestamp. -/
  | pastLastTimestamp
  /-- A sum left the range of instants. -/
  | instantOverflow
  /-- The cache failed to look up an entry. -/
  | lookupFailed
  /-- The cache failed to store an entry. -/
  | storeFailed
  /-- A sweeper was given no time between its ticks. -/
  | zeroInterval
  /-- A task was to be started after the shutdown. -/
  | notRunning
deriving DecidableEq, Repr

/-- The text of a fault. -/
def Fault.message : Fault → String
  | beforeEpoch gap => "system time before Unix epoch: SystemTimeError(" ++ gap.text ++ ")"
  | pastLastTimestamp => "called `Option::unwrap()` on a `None` value"
  | instantOverflow => "overflow when adding duration to instant"
  | lookupFailed => "cache get failed"
  | storeFailed => "cache set failed"
  | zeroInterval => "`period` must be non-zero."
  | notRunning =>
    "there is no reactor running, must be called from the context of a Tokio 1.x runtime"

end Turnstile
