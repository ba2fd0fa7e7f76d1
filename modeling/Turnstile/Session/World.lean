import Turnstile.Limiter.Decision
import Turnstile.Table

/-!
# The world of a session

A session plays on limiters, caches and the tasks that work on them: an
*admission* for every request, and the *sweepers*. This module holds the state
and its elementary changes.

Tasks take turns. A task that can go on stands in the queue `ready`; one that
cannot waits in exactly one other place:

* in the *line* of a lock stripe. The first in line holds the lock. A stripe
  belongs to a limiter, and its clones share it;
* *parked* at a cache whose gate is held, until somebody touches a gate there;
* with a *timer*, until its millisecond has come.

Limiters, caches, admissions and sweepers are numbered as they are made, and stay
in their places when their names are forgotten. A cache is *reachable* as long as
a name, a named limiter or an unfinished admission leads to it; sweepers do not
count.

What the tasks show to the outside, call by call and notice by notice, is
collected in a `Trace`, which every step of the session starts anew.
-/

namespace Turnstile

/-! ### Answers -/

/-- The answer to a request: the delay of its admission, or why there is none. -/
abbrev Outcome := Except Refusal Span

instance Outcome.decidableEq : DecidableEq Outcome
  | .ok a, .ok b => decidable_of_iff (a = b) (by simp)
  | .error a, .error b => decidable_of_iff (a = b) (by simp)
  | .ok _, .error _ | .error _, .ok _ => .isFalse nofun

/-- The calls that a limiter makes on its cache. -/
inductive CallKind
  | lookup
  | store
deriving DecidableEq, Repr

/-- What a gate does with a call. -/
inductive GateMode
  /-- Let it through. -/
  | pass
  /-- Keep it waiting. -/
  | hold
  /-- Make it fail. -/
  | fail
deriving DecidableEq, Repr

/-- A call of a limiter on a cache, named, as an observer of the cache sees it. -/
inductive Call
  /-- A lookup and its answer. -/
  | lookup (cache : String) (key : Key) (found : Option Value)
  /-- An entry to store. -/
  | store (cache : String) (key : Key) (value : Value) (lifetime : Span)
  /-- A call kept waiting. -/
  | held (cache : String) (kind : CallKind)
deriving DecidableEq, Repr

/-- What the tasks have shown. -/
structure Trace where
  /-- The calls on caches. -/
  calls : Array Call := #[]
  /-- The answers to requests, by number, whether or not somebody waits for them. -/
  answers : Array (Nat × Outcome) := #[]
  /-- The log. -/
  notices : Array Notice := #[]
  /-- The faults of tasks. -/
  faults : Array Fault := #[]
deriving Inhabited

/-! ### Tasks -/

/-- How far an admission has come. -/
inductive Phase
  /-- It has not had a turn yet. -/
  | issued
  /-- It stands in the line of its stripe, as the first once it is ready. -/
  | inLine
  /-- It holds its stripe, has read the wall clock, and is about to look up its
      entry. -/
  | beforeLookup (reading : Timestamp)
  /-- It holds its stripe, is decided, and is about to store its reservation. -/
  | beforeStore (decision : Decision) (reservation : Reservation)
  /-- It waits for its slot. -/
  | waiting (delay : Span)
  /-- It is answered. -/
  | finished
deriving DecidableEq, Repr

/-- The task of a request. -/
structure Admission where
  /-- The number of its limiter. -/
  owner : Nat
  limiter : Limiter
  /-- The number of the cache of its limiter. -/
  cache : Nat
  key : Key
  phase : Phase := .issued
  /-- Whether somebody still waits for the answer. -/
  awaited : Bool := true

/-- How far a sweeper has come. -/
inductive SweeperPhase
  /-- It has not had a turn yet. -/
  | issued
  /-- It is to tick for the first time, without sweeping. -/
  | first (tick : Instant)
  /-- It is to sweep. -/
  | ticking (tick : Instant)
  /-- It has had a full turn of sweeps and is to go on with those overdue. -/
  | behind (tick : Instant)
  /-- It has ended. -/
  | finished
deriving DecidableEq, Repr

/-- The task that sweeps a cache. -/
structure Sweeper where
  /-- The number of its cache. -/
  cache : Nat
  /-- The time from tick to tick. -/
  interval : Span
  phase : SweeperPhase := .issued
deriving DecidableEq, Repr

/-- A task, by its number. -/
inductive Task
  | admission (number : Nat)
  | sweeper (number : Nat)
deriving DecidableEq, Repr

/-- A task that waits for a millisecond to come. -/
structure Timer where
  /-- The millisecond, since the origin. -/
  due : Nat
  task : Task
deriving DecidableEq, Repr

/-! ### Limiters and caches -/

/-- The number of lock stripes of a limiter. -/
def stripeCount : Nat := 64

/-- A lock: the stripe of a limiter. -/
structure LockId where
  /-- The number of the limiter. -/
  owner : Nat
  stripe : Nat
deriving DecidableEq, Repr

/-- A limiter of a session. -/
structure LimiterCell where
  limiter : Limiter
  /-- The number of its cache. -/
  cache : Nat
deriving DecidableEq

/-- A cache of a session. -/
structure CacheCell where
  /-- The name it was made under. -/
  name : String
  store : Store := .empty
  lookupGate : GateMode := .pass
  storeGate : GateMode := .pass
  /-- The admissions kept waiting here, in order of arrival. -/
  parked : List Nat := []

/-- The state of a session. -/
structure World where
  clock : Clock
  /-- Whether there was no shutdown yet. -/
  running : Bool := true
  caches : Array CacheCell := #[]
  limiters : Array LimiterCell := #[]
  admissions : Array Admission := #[]
  sweepers : Array Sweeper := #[]
  cacheNames : Table String Nat := .empty
  limiterNames : Table String Nat := .empty
  lines : Table LockId (List Nat) := .empty
  /-- The tasks that can go on, the next one first. -/
  ready : List Task := []
  /-- The tasks that wait for time to pass, in the order in which they began to. -/
  timers : List Timer := []
  trace : Trace := {}

/-- The stripe that an admission needs. -/
def Admission.lock (a : Admission) : LockId := ⟨a.owner, a.key.stripe stripeCount⟩

/-- Whether an admission is answered. -/
def Admission.isFinished (a : Admission) : Bool := a.phase = .finished

/-- The gate for a kind of call. -/
def CacheCell.gate (c : CacheCell) : CallKind → GateMode
  | .lookup => c.lookupGate
  | .store => c.storeGate

/-- Set the gate for a kind of call. -/
def CacheCell.setGate (c : CacheCell) (kind : CallKind) (mode : GateMode) : CacheCell :=
  match kind with
  | .lookup => { c with lookupGate := mode }
  | .store => { c with storeGate := mode }

namespace World

/-! ### The trace -/

/-- Show a call. -/
def observe (w : World) (c : Call) : World :=
  { w with trace := { w.trace with calls := w.trace.calls.push c } }

/-- Log a notice. -/
def log (w : World) (n : Notice) : World :=
  { w with trace := { w.trace with notices := w.trace.notices.push n } }

/-- Log some notices. -/
def logAll (w : World) (ns : List Notice) : World := ns.foldl log w

/-- Show a fault. -/
def fault (w : World) (f : Fault) : World :=
  { w with trace := { w.trace with faults := w.trace.faults.push f } }

/-! ### Tasks -/

/-- Put tasks at the end of the queue. -/
def enqueue (w : World) (tasks : List Task) : World :=
  { w with ready := w.ready ++ tasks }

/-- Let an admission go on in another phase. -/
def setPhase (w : World) (i : Nat) (phase : Phase) : World :=
  { w with admissions := w.admissions.modify i fun a => { a with phase } }

/-- Let a sweeper go on in another phase. -/
def setSweeperPhase (w : World) (j : Nat) (phase : SweeperPhase) : World :=
  { w with sweepers := w.sweepers.modify j fun s => { s with phase } }

/-- Answer a request. -/
def answer (w : World) (i : Nat) (outcome : Outcome) : World :=
  { w with trace := { w.trace with answers := w.trace.answers.push (i, outcome) } }.setPhase i
    .finished

/-- Whether somebody waits for the answer to a request. -/
def isAwaited (w : World) (i : Nat) : Bool := (w.admissions[i]?.map (·.awaited)).getD false

/-- The answers that somebody receives, in the order of the numbers of their
    requests. -/
def received (w : World) : List (Nat × Outcome) :=
  (w.trace.answers.toList.filter fun (i, _) => w.isAwaited i).mergeSort fun a b => a.1 ≤ b.1

/-- Let a task wait for an instant. -/
def wait (w : World) (task : Task) (finish : Instant) : World :=
  { w with timers := w.timers ++ [⟨finish.millisUp, task⟩] }

/-! ### Locks -/

/-- Who is in line for a lock. -/
def line (w : World) (l : LockId) : List Nat := (w.lines.get? l).getD []

/-- Set the line for a lock. -/
def setLine (w : World) (l : LockId) (is : List Nat) : World :=
  { w with lines := w.lines.set l is }

/-- The holder of a lock leaves it to the next in line. -/
def release (w : World) (l : LockId) : World :=
  let rest := (w.line l).tail
  (w.setLine l rest).enqueue (rest.take 1 |>.map .admission)

/-! ### Caches -/

/-- Change what a cache stores. -/
def setStore (w : World) (c : Nat) (store : Store) : World :=
  { w with caches := w.caches.modify c fun cell => { cell with store } }

/-- Keep an admission waiting at a cache. -/
def park (w : World) (c : Nat) (i : Nat) : World :=
  { w with caches := w.caches.modify c fun cell => { cell with parked := cell.parked ++ [i] } }

/-- Whether a name, a named limiter or an unfinished admission leads to a cache. -/
def reachable (w : World) (c : Nat) : Bool :=
  w.cacheNames.values.contains c ||
  w.limiterNames.values.any (fun l => (w.limiters[l]?.map (·.cache)) == some c) ||
  w.admissions.any (fun a => a.cache == c && !a.isFinished)

end World

end Turnstile
