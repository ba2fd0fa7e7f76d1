import Turnstile.Session.Sweeper

/-!
# Turns and time

Time stands still while tasks run. `settle` gives turns to the tasks in the
queue, first come first served, until the queue is empty. Then time may pass
(`advance`): the timers that have come due put their tasks into the queue, the
earlier millisecond first and, of one millisecond, the older timer first.

A task has at most two turns while time stands still: an admission may have to
wait for its stripe in between, a sweeper for the other tasks. So twice the
number of tasks bounds the number of turns.
-/

namespace Turnstile.World

/-- A turn of a task. -/
def turn (w : World) : Task → World
  | .admission i => w.admissionTurn i
  | .sweeper j => w.sweeperTurn j

/-- Give a number of turns, as long as tasks are ready. -/
def takeTurns : Nat → World → World
  | 0, w => w
  | n + 1, w =>
    match w.ready with
    | [] => w
    | task :: rest => takeTurns n ({ w with ready := rest }.turn task)

/-- Give turns until no task can go on. -/
def settle (w : World) : World :=
  takeTurns (2 * (w.admissions.size + w.sweepers.size)) w

/-- Put the tasks into the queue whose timers have come due. -/
def wakeTimers (w : World) : World :=
  let (due, later) := w.timers.partition fun t => t.due ≤ w.clock.now.millisDown
  let inOrder := due.mergeSort fun s t => s.due ≤ t.due
  { w with timers := later }.enqueue (inOrder.map Timer.task)

/-- Let time pass on both clocks. -/
def advance (w : World) (d : Span) : World :=
  { w with clock := w.clock.advance d }.wakeTimers

end Turnstile.World
