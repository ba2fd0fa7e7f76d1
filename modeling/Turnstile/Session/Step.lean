import Turnstile.Session.Time

/-!
# Steps of a session

What can be done to the world from outside. Limiters and caches go by names. A
request names its limiter and its identifier, in one of the forms in which
callers build identifiers; entries of a cache are named by key, or by an
identifier and the limiter whose key it has there.

`World.act` does a step and gives its result; the tasks have their turns
afterwards.
-/

namespace Turnstile

/-- The forms in which identifiers are given. -/
inductive Identifier
  /-- As they are. -/
  | plain (id : String)
  /-- With a number after a dash. -/
  | dashed (id : String) (n : Int)
  /-- With a number after a slash. -/
  | slashed (id : String) (n : Int)
  /-- The first visitor. -/
  | firstVisitor
deriving DecidableEq, Repr

/-- The identifier that a form stands for. -/
def Identifier.render : Identifier → String
  | plain id => id
  | dashed id n => id ++ "-" ++ Numeral.signedText n
  | slashed id n => id ++ "/" ++ Numeral.signedText n
  | firstVisitor => "visitor-1"

/-- How the key of an entry is given. -/
inductive KeyName
  /-- As it is. -/
  | literal (key : String)
  /-- As the key of an identifier under the salt of a limiter. -/
  | ofIdentifier (limiter : String) (id : String)
deriving DecidableEq, Repr

/-- The threshold and the deadline of a limiter, as spans or as settings. -/
inductive LimiterSpec
  | spans (threshold deadline : Span)
  | settings (s : LimiterSettings)
deriving DecidableEq, Repr

/-- Make a limiter as specified. -/
def LimiterSpec.make (spec : LimiterSpec) (reading : Except Fault Timestamp)
    (salt : Except SystemError Salt) : Except LimiterError Limiter :=
  match spec with
  | .spans threshold deadline => Limiter.make threshold deadline reading salt
  | .settings s => Limiter.ofSettings s reading salt

/-- A step of a session. -/
inductive Step
  /-- Make a cache. -/
  | cache (name : String)
  /-- Make a limiter on a cache. -/
  | limiter (name cache : String) (spec : LimiterSpec) (salt : Except SystemError Salt)
  /-- Give a limiter a further name. -/
  | clone (name copy : String)
  | dropLimiter (name : String)
  | dropCache (name : String)
  /-- Issue some requests, one after the other. -/
  | throttle (limiter : String) (identifier : Identifier) (times : Nat)
  /-- Give up on the answer to a request. -/
  | dropHandle (number : Nat)
  /-- Let time pass. -/
  | advance (d : Span)
  /-- Set the wall clock, to nanoseconds since the epoch. -/
  | setWall (wall : Int)
  | put (cache : String) (key : KeyName) (value : Value) (lifetime : Span)
  | get (cache : String) (key : KeyName)
  | purge (cache : String)
  | clear (cache : String)
  | isEmpty (cache : String)
  /-- Ask for a key. -/
  | key (key : KeyName)
  /-- Start a sweeper. -/
  | sweeper (cache : String) (interval : Span)
  /-- Stop a sweeper. -/
  | abort (sweeper : Nat)
  /-- Set a gate of a cache. -/
  | gate (cache : String) (kind : CallKind) (mode : GateMode)
  /-- Stop all tasks for good. -/
  | shutdown

/-- What a step may refer to in vain. -/
inductive Missing
  | cache
  | limiter
  | sweeper
deriving DecidableEq, Repr

/-- The name of what is missing. -/
def Missing.name : Missing → String
  | cache => "cache"
  | limiter => "limiter"
  | sweeper => "sweeper"

/-- The result of a step. -/
inductive StepResult
  | nothing
  | flag (b : Bool)
  | count (n : Nat)
  /-- The numbers of the requests issued. -/
  | requests (numbers : List Nat)
  | limiter (l : Limiter)
  | value (found : Option Value)
  | key (key : String)
  /-- There is no limiter. -/
  | refused (error : LimiterError)
  /-- The step itself ended in a fault. -/
  | fault (f : Fault)
  /-- The step refers to something that is not there. -/
  | missing (what : Missing)

namespace World

/-- The world at the start of a session. -/
def starting (wall : Int) : World := { clock := .starting wall }

/-! ### Names -/

/-- The number and the state of a named cache. -/
def cacheNamed? (w : World) (name : String) : Option (Nat × CacheCell) := do
  let c ← w.cacheNames.get? name
  let cell ← w.caches[c]?
  some (c, cell)

/-- The number and the state of a named limiter. -/
def limiterNamed? (w : World) (name : String) : Option (Nat × LimiterCell) := do
  let l ← w.limiterNames.get? name
  let cell ← w.limiters[l]?
  some (l, cell)

/-- The key that is meant. -/
def keyMeant? (w : World) : KeyName → Option String
  | .literal key => some key
  | .ofIdentifier limiter id =>
    (w.limiterNamed? limiter).map fun (_, cell) => (cell.limiter.anonymize id).text

/-- Do something to a named cache. -/
def withCache (w : World) (name : String) (act : Nat → CacheCell → World × StepResult) :
    World × StepResult :=
  match w.cacheNamed? name with
  | none => (w, .missing .cache)
  | some (c, cell) => act c cell

/-- Do something to the entry of a key in a named cache. -/
def withEntry (w : World) (name : String) (key : KeyName)
    (act : Nat → CacheCell → String → World × StepResult) : World × StepResult :=
  w.withCache name fun c cell =>
    match w.keyMeant? key with
    | none => (w, .missing .limiter)
    | some text => act c cell text

/-! ### Steps -/

/-- Make a cache under a name. -/
def addCache (w : World) (name : String) : World :=
  { w with
    caches := w.caches.push { name }
    cacheNames := w.cacheNames.set name w.caches.size }

/-- Put a limiter to work on a cache, under a name. -/
def addLimiter (w : World) (name : String) (limiter : Limiter) (cache : Nat) : World :=
  { w with
    limiters := w.limiters.push { limiter, cache }
    limiterNames := w.limiterNames.set name w.limiters.size }

/-- Issue a request for an identifier. -/
def issue (w : World) (l : Nat) (cell : LimiterCell) (identifier : String) : World :=
  let key := cell.limiter.anonymize identifier
  { w with
    admissions := w.admissions.push
      { owner := l, limiter := cell.limiter, cache := cell.cache, key } }.enqueue
    [.admission w.admissions.size]

/-- Issue some requests for an identifier. -/
def issueAll (w : World) (l : Nat) (cell : LimiterCell) (identifier : String) : Nat → World
  | 0 => w
  | n + 1 => (w.issue l cell identifier).issueAll l cell identifier n

/-- Start a sweeper on a cache. Its ticks are no further apart than timers run. -/
def addSweeper (w : World) (cache : Nat) (interval : Span) : World :=
  { w with sweepers := w.sweepers.push { cache, interval := interval.onTimer } }.enqueue
    [.sweeper w.sweepers.size]

/-- Stop a sweeper. -/
def stopSweeper (w : World) (j : Nat) : World :=
  { w with
    ready := w.ready.filter (· != Task.sweeper j)
    timers := w.timers.filter (·.task != Task.sweeper j) }.endSweeper j

/-- Give up on the answer to a request, if it is still to come. -/
def dropHandle (w : World) (i : Nat) : World × Bool :=
  match w.admissions[i]? with
  | none => (w, false)
  | some a =>
    if a.awaited && !a.isFinished then
      ({ w with admissions := w.admissions.modify i fun a => { a with awaited := false } }, true)
    else (w, false)

/-- Let every admission kept waiting at a cache try again. -/
def unpark (w : World) (c : Nat) (cell : CacheCell) : World :=
  { w with caches := w.caches.modify c fun cell => { cell with parked := [] } }.enqueue
    (cell.parked.map .admission)

/-- Abort an admission that is not answered yet. -/
def abandon (w : World) (i : Nat) : World :=
  if (w.admissions[i]?.map (·.isFinished)).getD true then w else w.answer i (.error .aborted)

/-- Stop all tasks for good. -/
def shutDown (w : World) : World :=
  let w := (List.range w.admissions.size).foldl abandon w
  { w with
    running := false
    sweepers := w.sweepers.map fun s => { s with phase := .finished }
    caches := w.caches.map fun cell => { cell with parked := [] }
    lines := .empty
    ready := []
    timers := [] }

/-- Do a step. -/
def act (w : World) : Step → World × StepResult
  | .cache name => (w.addCache name, .nothing)
  | .limiter name cache spec salt =>
    w.withCache cache fun c _ =>
      let made := spec.make w.clock.read salt
      let w := w.logAll (Limiter.noticesOf made)
      match made with
      | .error e => (w, .refused e)
      | .ok limiter => (w.addLimiter name limiter c, .limiter limiter)
  | .clone name copy =>
    match w.limiterNamed? name with
    | none => (w, .missing .limiter)
    | some (l, cell) =>
      ({ w with limiterNames := w.limiterNames.set copy l }, .limiter cell.limiter)
  | .dropLimiter name =>
    ({ w with limiterNames := w.limiterNames.erase name }, .flag (w.limiterNames.contains name))
  | .dropCache name =>
    ({ w with cacheNames := w.cacheNames.erase name }, .flag (w.cacheNames.contains name))
  | .throttle limiter identifier times =>
    match w.limiterNamed? limiter with
    | none => (w, .missing .limiter)
    | some (l, cell) =>
      if w.running || times = 0 then
        (w.issueAll l cell identifier.render times,
          .requests ((List.range times).map (w.admissions.size + ·)))
      else (w, .fault .notRunning)
  | .dropHandle i =>
    let (w, dropped) := w.dropHandle i
    (w, .flag dropped)
  | .advance d => (w.advance d, .nothing)
  | .setWall wall => ({ w with clock := { w.clock with wall } }, .nothing)
  | .put cache key value lifetime =>
    w.withEntry cache key fun c cell text =>
      match cell.store.set? w.clock.now text value lifetime with
      | none => (w, .fault .instantOverflow)
      | some store => (w.setStore c store, .nothing)
  | .get cache key =>
    w.withEntry cache key fun c cell text =>
      let (found, store) := cell.store.get w.clock.now text
      (w.setStore c store, .value found)
  | .purge cache =>
    w.withCache cache fun c cell =>
      (w.setStore c (cell.store.purge w.clock.now), .count (cell.store.expiredCount w.clock.now))
  | .clear cache => w.withCache cache fun c _ => (w.setStore c .empty, .nothing)
  | .isEmpty cache => w.withCache cache fun _ cell => (w, .flag cell.store.isEmpty)
  | .key key =>
    match w.keyMeant? key with
    | none => (w, .missing .limiter)
    | some text => (w, .key text)
  | .sweeper cache interval =>
    w.withCache cache fun c _ =>
      if w.running then (w.addSweeper c interval, .count w.sweepers.size)
      else (w, .fault .notRunning)
  | .abort j =>
    if j < w.sweepers.size then (w.stopSweeper j, .nothing) else (w, .missing .sweeper)
  | .gate cache kind mode =>
    w.withCache cache fun c cell =>
      ({ w with caches := w.caches.modify c (·.setGate kind mode) }.unpark c cell, .nothing)
  | .shutdown => (w.shutDown, .nothing)

end World

end Turnstile
