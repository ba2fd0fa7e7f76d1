import Turnstile.Session.Admission

/-!
# The turns of a sweeper

A sweeper ticks at its start, when it does nothing, and then every interval, when
it purges its cache or, if the cache is no longer reachable, ends. Ticks are
counted from the start: one that comes late does not put off the next. Ticks
that are overdue are made up for at once, up to `turnLimit` of them in a turn;
then the other tasks have theirs, and the sweeper makes up for the rest.

Of the ticks of one turn only the first can find anything to drop, so the others
are skipped (`overdue` counts them).
-/

namespace Turnstile

namespace Sweeper

/-- The greatest number of ticks in a turn. -/
def turnLimit : Nat := 128

/-- Whether a tick is due. -/
def isDue (now tick : Instant) : Bool := tick.millisUp ≤ now.millisDown

/-- The number of ticks that are due, the one given included. -/
def overdue (now tick : Instant) (interval : Span) : Nat :=
  if isDue now tick then
    ((Instant.ofMillis now.millisDown).nanos - tick.nanos) / interval.nanos + 1
  else 0

/-- The tick some intervals later. -/
def tickAfter (tick : Instant) (interval : Span) (n : Nat) : Instant :=
  tick.later ⟨n * interval.nanos⟩

end Sweeper

namespace World

open Sweeper

/-- A sweeper ends. -/
def endSweeper (w : World) (j : Nat) : World := w.setSweeperPhase j .finished

/-- A sweeper ends by a fault. -/
def abortSweeper (w : World) (j : Nat) (f : Fault) : World := (w.fault f).endSweeper j

/-- A sweeper waits for its next tick. -/
def awaitTick (w : World) (j : Nat) (tick : Instant) : World :=
  (w.setSweeperPhase j (.ticking tick)).wait (.sweeper j) tick

/-- Drop the expired entries of a cache. -/
def sweep (w : World) (c : Nat) : World :=
  match w.caches[c]? with
  | none => w
  | some cell =>
    let store := cell.store.purge w.clock.now
    let dropped := cell.store.expiredCount w.clock.now
    let w := w.setStore c store
    if dropped > 0 then w.log (.swept dropped store.size) else w

/-- Make up for the ticks that are due after the first of a turn. If there are as
    many of them as the given number, or more, so many are taken, and the sweeper
    goes on in another turn. -/
def catchUp (w : World) (j : Nat) (s : Sweeper) (tick : Instant) (limit : Option Nat) : World :=
  let due := overdue w.clock.now tick s.interval
  if limit.any (· ≤ due) then
    let next := tickAfter tick s.interval (limit.getD 0)
    (w.setSweeperPhase j (.behind next)).enqueue [.sweeper j]
  else w.awaitTick j (tickAfter tick s.interval due)

/-- Sweep at a tick, if it is due, and make up for others. -/
def takeTick (w : World) (j : Nat) (s : Sweeper) (tick : Instant) (limit : Option Nat) : World :=
  if isDue w.clock.now tick then
    if w.reachable s.cache then (w.sweep s.cache).catchUp j s (tick.later s.interval) limit
    else (w.log .cacheGone).endSweeper j
  else w.awaitTick j tick

/-- The first tick, which does not sweep. -/
def takeFirstTick (w : World) (j : Nat) (s : Sweeper) (tick : Instant) : World :=
  if isDue w.clock.now tick then
    w.takeTick j s (tick.later s.interval) (some (turnLimit - 2))
  else (w.setSweeperPhase j (.first tick)).wait (.sweeper j) tick

/-- A turn of a sweeper. -/
def sweeperTurn (w : World) (j : Nat) : World :=
  match w.sweepers[j]? with
  | none => w
  | some s =>
    match s.phase with
    | .issued =>
      if s.interval = .zero then w.abortSweeper j .zeroInterval
      else w.takeFirstTick j s w.clock.now
    | .first tick => w.takeFirstTick j s tick
    | .ticking tick => w.takeTick j s tick (some (turnLimit - 1))
    | .behind tick => w.takeTick j s tick none
    | .finished => w

end World

end Turnstile
