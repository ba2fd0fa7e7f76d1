import Turnstile.Key
import Turnstile.Refusal
import Turnstile.Time.Span

/-!
# Notices

A notice is a line of the log: a level, a message, and fields that are numbers or
texts. Each kind of notice is a constructor, so that a notice carries what it is
about and not how that is worded; `Notice.message` and `Notice.fields` word it.

Of an identifier a notice holds the key alone. Spans are given in whole
milliseconds.

For filters of the log a notice also has a *source*, the part of the program that
it comes from, and the names of its fields.
-/

namespace Turnstile

/-- How much a notice matters, most first. -/
inductive Level
  | error
  | warn
  | info
  | debug
  | trace
deriving DecidableEq, Repr

/-- The position of a level, more detail further back. -/
def Level.rank : Level → Nat
  | error => 1
  | warn => 2
  | info => 3
  | debug => 4
  | trace => 5

/-- The name of a level. -/
def Level.name : Level → String
  | error => "ERROR"
  | warn => "WARN"
  | info => "INFO"
  | debug => "DEBUG"
  | trace => "TRACE"

/-- What a field of a notice holds. -/
inductive FieldValue
  | number (n : Nat)
  | text (s : String)
deriving DecidableEq, Repr

/-- Something worth a line in the log. -/
inductive Notice
  /-- A run of the command line has begun. -/
  | started (version : String)
  /-- The settings are about to be read from a file. -/
  | readingSettings (path : String)
  /-- The settings of a run, in milliseconds. -/
  | settingsRead (threshold deadline : Nat)
  /-- A limiter was made. -/
  | limiterMade (threshold deadline : Span)
  /-- A request found no entry. -/
  | firstAdmission (key : Key)
  /-- A request found an entry that is not a timestamp. -/
  | foreignValue (key : Key)
  /-- The wait of a request would pass the deadline. -/
  | beyondDeadline (key : Key) (remaining deadline : Span)
  /-- A request found a timestamp that has no successor. -/
  | lastTimestamp (key : Key)
  /-- A request was given the next slot. -/
  | slotReserved (key : Key) (delay : Span)
  /-- The wait of a request is over. -/
  | waitOver (key : Key) (delay : Span)
  /-- A sweep dropped some entries. -/
  | swept (dropped remaining : Nat)
  /-- A sweeper found its cache gone. -/
  | cacheGone
  /-- The outcome of a request of a run: admitted. -/
  | admitted (key : Key) (delay : Span)
  /-- The outcome of a request of a run: refused. -/
  | rejected (key : Key) (reason : Refusal)
  /-- The end of a run. -/
  | summary (total refused entries : Nat)
deriving DecidableEq, Repr

namespace Notice

/-- The level of a notice. -/
def level : Notice → Level
  | started .. | readingSettings .. | settingsRead .. | limiterMade .. => .info
  | firstAdmission .. | waitOver .. | swept .. => .trace
  | foreignValue .. | lastTimestamp .. | rejected .. => .warn
  | beyondDeadline .. | slotReserved .. | cacheGone => .debug
  | admitted .. | summary .. => .info

/-- The message of a notice. -/
def message : Notice → String
  | started version => "Version: " ++ version
  | readingSettings _ => "Loading configuration"
  | settingsRead .. => "Configuration loaded"
  | limiterMade .. => "Rate limiter initialized"
  | firstAdmission _ => "First admission in window"
  | foreignValue _ => "Invalid value in rate limit cache"
  | beyondDeadline .. => "Rate limit would exceed deadline"
  | lastTimestamp _ => "Cached timestamp cannot be advanced"
  | slotReserved .. => "Reserved next slot"
  | waitOver .. => "Admitted after waiting"
  | swept .. => "Purged expired cache entries"
  | cacheGone => "Cache dropped, stopping sweeper"
  | admitted .. => "Admitted"
  | rejected .. => "Rejected"
  | summary .. => "All requests resolved"

/-- The fields of a notice, in the order in which they are written. -/
def fields : Notice → List (String × FieldValue)
  | started _ | cacheGone => []
  | readingSettings path => [("path", .text path)]
  | settingsRead threshold deadline =>
    [("threshold_ms", .number threshold), ("deadline_ms", .number deadline)]
  | limiterMade threshold deadline =>
    [("threshold_ms", .number threshold.millisWord), ("deadline_ms", .number deadline.millisWord)]
  | firstAdmission key | foreignValue key | lastTimestamp key => [("key", .text key.text)]
  | beyondDeadline key remaining deadline =>
    [("key", .text key.text), ("remaining_ms", .number remaining.millisWord),
      ("deadline_ms", .number deadline.millisWord)]
  | slotReserved key delay | waitOver key delay | admitted key delay =>
    [("key", .text key.text), ("delay_ms", .number delay.millisWord)]
  | swept dropped remaining => [("purged", .number dropped), ("remaining", .number remaining)]
  | rejected key reason => [("key", .text key.text), ("error", .text reason.message)]
  | summary total refused entries =>
    [("total", .number total), ("rejected", .number refused), ("cached_entries", .number entries)]

/-- The part of the program that a notice comes from. -/
def source : Notice → String
  | started .. | settingsRead .. | admitted .. | rejected .. | summary .. => "saltlimit"
  | readingSettings .. => "saltlimit::config"
  | swept .. | cacheGone => "saltlimit::ratelimit::memory"
  | limiterMade .. | firstAdmission .. | foreignValue .. | beyondDeadline .. | lastTimestamp ..
  | slotReserved .. | waitOver .. => "saltlimit::ratelimit::limiter"

/-- The names of the fields of a notice. The message has one, and so has the time
    that a run took, which a summary does not write. -/
def fieldNames (n : Notice) : List String :=
  let unwritten := match n with
    | summary .. => ["elapsed_ms"]
    | _ => []
  "message" :: n.fields.map Prod.fst ++ unwritten

end Notice

end Turnstile
