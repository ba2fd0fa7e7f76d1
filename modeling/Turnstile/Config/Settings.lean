import Turnstile.Text.Numeral
import Turnstile.Time.Span

/-!
# Settings

The settings of a limiter and its cache, as a file gives them: in milliseconds,
in words of sixty-four bits. A section or a setting that is left out has its
default. `yaml` writes the file that says the same.
-/

namespace Turnstile

/-- The settings of a limiter. -/
structure LimiterSettings where
  /-- The least distance of two admissions of an identifier. -/
  thresholdMillis : UInt64 := 1000
  /-- The longest wait before a request is refused instead. -/
  deadlineMillis : UInt64 := 5000
deriving DecidableEq, Repr, Inhabited

/-- The settings of a cache. -/
structure CacheSettings where
  /-- The time between two sweeps. -/
  sweepIntervalMillis : UInt64 := 60000
deriving DecidableEq, Repr, Inhabited

/-- All settings. -/
structure Settings where
  limiter : LimiterSettings := {}
  cache : CacheSettings := {}
deriving DecidableEq, Repr, Inhabited

/-- The threshold. -/
def LimiterSettings.threshold (s : LimiterSettings) : Span := .ofMillis s.thresholdMillis.toNat

/-- The deadline. -/
def LimiterSettings.deadline (s : LimiterSettings) : Span := .ofMillis s.deadlineMillis.toNat

/-- The time between two sweeps. -/
def CacheSettings.sweepInterval (s : CacheSettings) : Span := .ofMillis s.sweepIntervalMillis.toNat

namespace Settings

/-- The digits of a setting. -/
def digits (n : UInt64) : String := Numeral.text n.toNat

/-- The settings as a file. -/
def yaml (s : Settings) : String :=
  "limiter:\n" ++
  "  threshold_ms: " ++ digits s.limiter.thresholdMillis ++ "\n" ++
  "  deadline_ms: " ++ digits s.limiter.deadlineMillis ++ "\n" ++
  "cache:\n" ++
  "  sweep_interval_ms: " ++ digits s.cache.sweepIntervalMillis ++ "\n"

/-- The settings as the display of a structure shows them. -/
def display (s : Settings) : String :=
  "SaltlimitConfig \x7b limiter: LimiterConfig \x7b threshold_ms: " ++
  digits s.limiter.thresholdMillis ++ ", deadline_ms: " ++ digits s.limiter.deadlineMillis ++
  " \x7d, cache: CacheConfig \x7b sweep_interval_ms: " ++ digits s.cache.sweepIntervalMillis ++
  " \x7d \x7d"

end Settings

end Turnstile
