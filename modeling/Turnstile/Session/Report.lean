import Turnstile.Session.Step

/-!
# Sessions

A session is a list of steps from a world with a given wall clock. After every
step the tasks have their turns until none can go on, and a report says what
there was to see: the result of the step, the sizes of the named caches, and what
the tasks have shown.

In a report the answers are those that somebody waits for, in the order of the
numbers of their requests, and the log has its notices in the order in which they
were made, except that waits that are over come last, the shorter delay and then
the smaller key first.
-/

namespace Turnstile

/-- What a step of a session has shown. -/
structure Report where
  result : StepResult
  /-- The number of entries of each named cache. -/
  sizes : List (String × Nat)
  calls : List Call
  outcomes : List (Nat × Outcome)
  notices : List Notice
  faults : List Fault
  /-- For each sweeper whether it has ended. -/
  sweepersEnded : List Bool

/-- The key and the delay of a wait that is over. -/
def Notice.waitOver? : Notice → Option (Nat × String)
  | .waitOver key delay => some (delay.millisWord, key.text)
  | _ => none

/-- Whether a wait that is over comes before another one in a log. -/
def Notice.waitsLess (m n : Notice) : Bool :=
  match m.waitOver?, n.waitOver? with
  | some (d, k), some (e, l) => d < e || (d == e && k ≤ l)
  | _, _ => true

/-- Notices with the waits that are over at the end, in order. -/
def Notice.arrange (notices : List Notice) : List Notice :=
  let (waits, others) := notices.partition (·.waitOver?.isSome)
  others ++ waits.mergeSort Notice.waitsLess

namespace World

/-- The number of entries of each named cache. -/
def sizes (w : World) : List (String × Nat) :=
  w.cacheNames.rows.filterMap fun (name, c) => w.caches[c]?.map fun cell => (name, cell.store.size)

/-- Say what there was to see of a step. -/
def report (w : World) (result : StepResult) : Report where
  result
  sizes := w.sizes
  calls := w.trace.calls.toList
  outcomes := w.received
  notices := Notice.arrange w.trace.notices.toList
  faults := w.trace.faults.toList
  sweepersEnded := w.sweepers.toList.map (·.phase == .finished)

/-- Do a step, let the tasks have their turns, and report. -/
def step (w : World) (s : Step) : World × Report :=
  let (w, result) := { w with trace := {} }.act s
  let w := w.settle
  (w, w.report result)

/-- Do the steps of a session. -/
def run (w : World) : List Step → List Report
  | [] => []
  | s :: rest =>
    let (w, report) := w.step s
    report :: w.run rest

end World

/-- The reports of a session that starts at the given time on the wall clock. -/
def session (wall : Int) (steps : List Step) : List Report :=
  (World.starting wall).run steps

end Turnstile
