import Turnstile.Text.Numeral

/-!
# Spans of time

A span is a length of time in whole nanoseconds. Thresholds, deadlines, delays,
lifetimes of cache entries and intervals of sweepers are spans.

A span is written in the largest of the units s, ms, µs and ns that it fills,
with as many decimals as it needs and no more: `1.5ms`, `12345.6789s`, `0ns`.
-/

namespace Turnstile

/-- A length of time. -/
structure Span where
  /-- Its nanoseconds. -/
  nanos : Nat
deriving DecidableEq, Repr, Inhabited

namespace Span

/-- No time at all. -/
def zero : Span := ⟨0⟩

/-- The span of some seconds and some more nanoseconds. -/
def ofParts (seconds nanos : Nat) : Span := ⟨seconds * 1000000000 + nanos⟩

/-- The span of some milliseconds. -/
def ofMillis (millis : Nat) : Span := ⟨millis * 1000000⟩

/-- The whole seconds of a span. -/
def seconds (d : Span) : Nat := d.nanos / 1000000000

/-- The nanoseconds of a span beyond its whole seconds. -/
def subsecond (d : Span) : Nat := d.nanos % 1000000000

/-- The whole milliseconds of a span, the rest cut off. -/
def millis (d : Span) : Nat := d.nanos / 1000000

/-- The whole milliseconds of a span in a word of sixty-four bits, as notices
    carry them. -/
def millisWord (d : Span) : Nat := d.millis % UInt64.size

/-- The longest span that an offset on the wall clock may have: a signed number
    of milliseconds in sixty-four bits. -/
def longestOffset : Span := ofMillis (UInt64.size / 2 - 1)

/-- The longest span that a timer runs for: thirty years. -/
def longestTimer : Span := ofParts (30 * 365 * 86400) 0

/-- The time that a timer for a span runs for. -/
def onTimer (d : Span) : Span := ⟨min d.nanos longestTimer.nanos⟩

theorem nanos_ne_zero {d : Span} (h : d ≠ .zero) : d.nanos ≠ 0 := fun e => h (congrArg mk e)

theorem onTimer_le (d : Span) : d.onTimer.nanos ≤ d.nanos := Nat.min_le_left ..

theorem onTimer_of_le {d : Span} (h : d.nanos ≤ longestTimer.nanos) : d.onTimer = d := by
  simp [onTimer, Nat.min_eq_left h]

theorem onTimer_ne_zero {d : Span} (h : d ≠ .zero) : d.onTimer ≠ .zero := by
  have := nanos_ne_zero h
  simp only [ne_eq, onTimer, zero, longestTimer, ofParts, mk.injEq]
  omega

/-- A span in the unit of `10 ^ places` nanoseconds. -/
def inUnit (d : Span) (places : Nat) (unit : String) : String :=
  let size := Nat.pow 10 places
  let whole := Numeral.decimal (d.nanos / size)
  String.ofList (whole ++ Numeral.fraction places (d.nanos % size)) ++ unit

/-- The text of a span. -/
def text (d : Span) : String :=
  if d.nanos ≥ 1000000000 then d.inUnit 9 "s"
  else if d.nanos ≥ 1000000 then d.inUnit 6 "ms"
  else if d.nanos ≥ 1000 then d.inUnit 3 "µs"
  else d.inUnit 0 "ns"

end Span

end Turnstile
