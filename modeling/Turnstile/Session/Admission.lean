import Turnstile.Session.World

/-!
# The turns of an admission

An admission goes through its phases as far as it can in one turn:

1. it gets in line for its stripe, and goes on once it is the first;
2. it reads the wall clock, looks up its entry and decides;
3. if it is to be admitted, it stores the reservation;
4. it leaves the stripe to the next in line, and is answered, after its delay if
   there is one. A timer keeps it waiting for the delay, but not for longer than
   timers run (`Span.onTimer`).

At the lookup and at the store it may be kept waiting by a gate, with the stripe
in its hands. A fault, of the clock or of the cache, also leaves the stripe to
the next in line; the request is answered as aborted.
-/

namespace Turnstile.World

/-- An admission ends by a fault. -/
def abortAdmission (w : World) (i : Nat) (a : Admission) (f : Fault) : World :=
  ((w.fault f).release a.lock).answer i (.error .aborted)

/-- Answer a request that is decided and, if it is admitted, reserved. -/
def conclude (w : World) (i : Nat) (a : Admission) (outcome : Outcome) : World :=
  let w := w.release a.lock
  match outcome with
  | .error reason => w.answer i (.error reason)
  | .ok delay =>
    if delay = .zero then w.answer i (.ok delay)
    else (w.setPhase i (.waiting delay)).wait (.admission i) (w.clock.now.later delay.onTimer)

/-- Pass the gate of a cache, or be kept waiting there in a phase, or fail. -/
def passGate (w : World) (i : Nat) (a : Admission) (kind : CallKind) (phase : Phase) (fault : Fault)
    (through : CacheCell → World) : World :=
  match w.caches[a.cache]? with
  | none => w
  | some cell =>
    match cell.gate kind with
    | .hold => ((w.observe (.held cell.name kind)).setPhase i phase).park a.cache i
    | .fail => w.abortAdmission i a fault
    | .pass => through cell

/-- Store a reservation. -/
def storeReservation (w : World) (i : Nat) (a : Admission) (d : Decision) (r : Reservation) :
    World :=
  w.passGate i a .store (.beforeStore d r) .storeFailed fun cell =>
    let w := w.observe (.store cell.name a.key (.timestamp r.slot) r.lifetime)
    match cell.store.set? w.clock.now a.key.text (.timestamp r.slot) r.lifetime with
    | none => w.abortAdmission i a .instantOverflow
    | some store =>
      ((w.setStore a.cache store).logAll (d.noticesAfter a.key)).conclude i a (.ok r.delay)

/-- Act on a decision. -/
def carryOut (w : World) (i : Nat) (a : Admission) (d : Decision) : World :=
  let w := w.logAll (d.noticesBefore a.key a.limiter.deadline)
  match d.reservation? with
  | some r => w.storeReservation i a d r
  | none => w.conclude i a (.error (d.refusal?.getD .aborted))

/-- Look up the entry and decide. -/
def lookUp (w : World) (i : Nat) (a : Admission) (reading : Timestamp) : World :=
  w.passGate i a .lookup (.beforeLookup reading) .lookupFailed fun cell =>
    let (found, store) := cell.store.get w.clock.now a.key.text
    ((w.setStore a.cache store).observe (.lookup cell.name a.key found)).carryOut i a
      (a.limiter.decide found reading)

/-- Go on as the holder of the stripe. -/
def enter (w : World) (i : Nat) (a : Admission) : World :=
  match w.clock.read with
  | .error f => w.abortAdmission i a f
  | .ok reading => w.lookUp i a reading

/-- Get in line for the stripe, and go on if nobody else is there. -/
def getInLine (w : World) (i : Nat) (a : Admission) : World :=
  let before := w.line a.lock
  let w := w.setLine a.lock (before ++ [i])
  if before.isEmpty then w.enter i a else w.setPhase i .inLine

/-- The wait of an admission is over. -/
def finishWait (w : World) (i : Nat) (a : Admission) (delay : Span) : World :=
  (w.log (.waitOver a.key delay)).answer i (.ok delay)

/-- A turn of an admission. -/
def admissionTurn (w : World) (i : Nat) : World :=
  match w.admissions[i]? with
  | none => w
  | some a =>
    match a.phase with
    | .issued => w.getInLine i a
    | .inLine => w.enter i a
    | .beforeLookup reading => w.lookUp i a reading
    | .beforeStore d r => w.storeReservation i a d r
    | .waiting delay => w.finishWait i a delay
    | .finished => w

end Turnstile.World
