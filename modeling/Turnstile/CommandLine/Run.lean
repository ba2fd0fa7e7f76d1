import Turnstile.CommandLine.Arguments
import Turnstile.CommandLine.LogFilter
import Turnstile.CommandLine.LogLine
import Turnstile.Config.File
import Turnstile.Session.Report

/-!
# Runs of the command line

A run issues all its requests at once, on a limiter with a cache and a sweeper of
its own, and waits for the answers; then it logs the outcome of every request, in
the order of the arguments, and a summary. A flag wins over the file, and the file
over the defaults, for every setting on its own.

Time passes only while the run waits, from one timer to the next. Every wait ends
at a later millisecond than the present one, so the number of milliseconds to the
last wait bounds the number of such jumps (`World.finish`).

Requests that are refused do not make a run fail. A run fails if its settings
cannot be read or its limiter cannot be made; its exit code is then 1, and 2 if
the arguments have a mistake.
-/

namespace Turnstile

/-! ### Waiting -/

namespace World

/-- The milliseconds at which the waits of admissions end. -/
def waits (w : World) : List Nat :=
  w.timers.filterMap fun t =>
    match t.task with
    | .admission _ => some t.due
    | .sweeper _ => none

/-- The millisecond of the next timer. -/
def nextDue? (w : World) : Option Nat := (w.timers.map Timer.due).min?

/-- Let time pass up to a millisecond. -/
def advanceTo (w : World) (millis : Nat) : World :=
  w.advance ⟨(Instant.ofMillis millis).nanos - w.clock.now.nanos⟩

/-- Take the notices out of the trace, with the present time. -/
def takeNotices (w : World) : Array (Instant × Notice) × World :=
  (w.trace.notices.map fun n => (w.clock.now, n),
    { w with trace := { w.trace with notices := #[] } })

/-- Jump from timer to timer, a number of times at most, until no admission
    waits. The notices are added to those before. -/
def finishWithin : Nat → World → Array (Instant × Notice) → Array (Instant × Notice) × World
  | 0, w, log => (log, w)
  | n + 1, w, log =>
    match w.nextDue? with
    | none => (log, w)
    | some due =>
      if w.waits.isEmpty then (log, w)
      else
        let (notices, w) := (w.advanceTo due).settle.takeNotices
        finishWithin n w (log ++ notices)

/-- Give turns and let time pass until every request is answered. -/
def finish (w : World) : Array (Instant × Notice) × World :=
  let (notices, w) := w.settle.takeNotices
  let last := w.waits.foldl max 0
  w.finishWithin (last - w.clock.now.millisDown) notices

end World

namespace CommandLine

/-- The version of the program. -/
def programVersion : String := "0.1.0"

/-- The answer to a request for help. -/
def helpLines : List String := [
  "Throttle identifiers through a salted in-memory limiter and report the delays applied",
  "",
  "Usage: saltlimit [OPTIONS] <IDENTIFIERS>...",
  "",
  "Arguments:",
  "  <IDENTIFIERS>...  Identifiers to throttle",
  "",
  "Options:",
  "  -c, --config <CONFIG>              YAML configuration file",
  "      --threshold-ms <THRESHOLD_MS>  Minimum spacing between admissions of one identifier " ++
    "(overrides config)",
  "      --deadline-ms <DEADLINE_MS>    Longest acceptable wait before rejecting " ++
    "(overrides config)",
  "  -r, --repeat <REPEAT>              How many concurrent requests to issue per identifier " ++
    "[default: 1]",
  "      --log-json                     Emit logs as JSON",
  "  -h, --help                         Print help",
  "  -V, --version                      Print version"]

/-- What a run depends on besides its arguments. -/
structure Environment where
  /-- What paths lead to. -/
  files : String → FileContent
  /-- The list of directives for the log, if there is one. -/
  logDirectives : Option String
  /-- The time on the wall clock, in nanoseconds since the epoch. -/
  wall : Int
  /-- The outcome of drawing a salt. -/
  salt : Except SystemError Salt

/-- What a run leaves behind. -/
structure Transcript where
  exitCode : Nat
  /-- What is printed outside of the log. -/
  printed : List String := []
  /-- Whether the log is in JSON. -/
  json : Bool := false
  /-- The log, with the time at which each notice was made. -/
  log : List (Instant × Notice) := []
  /-- What is printed as an error. -/
  errors : List String := []

/-- The characters up to the end of a line, which a carriage return may begin. -/
def upToBreak : List Char → List Char
  | [] | '\n' :: _ | '\r' :: '\n' :: _ => []
  | c :: rest => c :: upToBreak rest

/-- The first line of a text. -/
def firstLine (s : String) : String := String.ofList (upToBreak s.toList)

/-- The error lines of a run that failed. -/
def errorLines (message : String) (cause : Option String) : List String :=
  ("Error: " ++ message) ::
    match cause with
    | none => []
    | some cause => ["", "Caused by:", "    " ++ cause]

/-! ### Settings -/

/-- Some settings, with those of the arguments in place of them. -/
def Arguments.override (a : Arguments) (s : Settings) : Settings :=
  { s with limiter :=
    { thresholdMillis := a.thresholdMillis.getD s.limiter.thresholdMillis
      deadlineMillis := a.deadlineMillis.getD s.limiter.deadlineMillis } }

/-- The settings before the arguments are looked at: those of the file, or the
    defaults. -/
def Arguments.fileSettings (a : Arguments) (env : Environment) : Except FileError Settings :=
  match a.config with
  | none => .ok {}
  | some path => Settings.ofFile (env.files path)

/-- What is logged before the settings are there. -/
def Arguments.openingNotices (a : Arguments) : List Notice :=
  .started programVersion ::
    match a.config with
    | none => []
    | some path => [.readingSettings path]

/-! ### Requests -/

/-- The identifiers of the requests, in order. -/
def Arguments.requests (a : Arguments) : List String :=
  a.identifiers.flatMap fun id => List.replicate a.requestsEach id

/-- The world of a run before its requests: a cache with a sweeper. -/
def prepare (env : Environment) (s : Settings) : World :=
  ((World.starting env.wall).addCache "").addSweeper 0 s.cache.sweepInterval

/-- Issue the requests of a run on a limiter. -/
def issueRequests (w : World) (limiter : Limiter) (ids : List String) : World :=
  ids.foldl (fun w id => w.issue 0 ⟨limiter, 0⟩ id) (w.addLimiter "" limiter 0)

/-- The notice of an outcome. -/
def outcomeNotice (key : Key) : Outcome → Notice
  | .ok delay => .admitted key delay
  | .error reason => .rejected key reason

/-- The notices at the end of a run. -/
def closingNotices (w : World) : List Notice :=
  let outcomes := w.received
  let notices := (w.admissions.toList.zip outcomes).map fun (a, _, o) => outcomeNotice a.key o
  let refused := outcomes.countP fun (_, o) => !o.isOk
  let entries := (w.caches[0]?.map (·.store.size)).getD 0
  notices ++ [.summary w.admissions.size refused entries]

/-- What is logged of the requests of a run. -/
def requestLog (w : World) : List (Instant × Notice) :=
  let (log, w) := w.finish
  log.toList ++ (closingNotices w).map fun n => (w.clock.now, n)

/-! ### Runs -/

/-- A run with arguments that were read, before the log is filtered.

    That the limiter cannot be made because the clock is unreadable counts here as any other
    reason. The program itself ends by a panic there, with another exit code and the message
    of the panic in place of the error line. -/
def runUnfiltered (a : Arguments) (env : Environment) : Transcript :=
  let atStart (ns : List Notice) : List (Instant × Notice) := ns.map fun n => (.origin, n)
  match a.fileSettings env with
  | .error e =>
    { exitCode := 1, json := a.logJson, log := atStart a.openingNotices,
      errors := errorLines e.message e.cause? }
  | .ok base =>
    let s := a.override base
    let opening := a.openingNotices ++
      [.settingsRead s.limiter.thresholdMillis.toNat s.limiter.deadlineMillis.toNat]
    let w := prepare env s
    match Limiter.ofSettings s.limiter w.clock.read env.salt with
    | .error e =>
      { exitCode := 1, json := a.logJson, log := atStart opening,
        errors := errorLines e.message e.cause? }
    | .ok limiter =>
      let opening := opening ++ Limiter.noticesOf (.ok limiter)
      { exitCode := 0, json := a.logJson,
        log := atStart opening ++ requestLog (issueRequests w limiter a.requests) }

/-- A run with arguments that were read. -/
def runWith (a : Arguments) (env : Environment) : Transcript :=
  let filter := LogFilter.asked env.logDirectives
  let t := runUnfiltered a env
  { t with log := t.log.filter fun (_, n) => filter.allows n }

/-- A run of the command line. -/
def run (args : List String) (env : Environment) : Transcript :=
  match Arguments.parse args with
  | .error .help => { exitCode := 0, printed := helpLines }
  | .error .version => { exitCode := 0, printed := ["saltlimit " ++ programVersion] }
  | .error (.mistake e) => { exitCode := 2, errors := [firstLine ("error: " ++ e.message)] }
  | .ok a => runWith a env

/-- A notice as a line of the log of a run. -/
def Transcript.line (t : Transcript) (n : Notice) : String :=
  if t.json then n.jsonLine else n.textLine

end CommandLine

end Turnstile
