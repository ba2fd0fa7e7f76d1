import Turnstile.Time.Span

/-!
# Timestamps

A timestamp is a point on the wall clock, the one that shows the date: whole
seconds since the epoch, which may be negative, and the part of a second. The
part may pass a whole second: `1.5` past the second 23:59:59 is half way through
a leap second, which has no number of its own in the count of seconds.

Timestamps span the years −262143 to 262142. Adding a span (`add?`) can leave
that range. From within a leap second a sum that stays in it is a plain one; a
sum that leaves it does not count it, and so is one second less.

The difference of two timestamps (`since`) is that of their counts of
nanoseconds, in which a leap second overlaps the second after it. A leap second
at the earlier time of day of the two is set right: it then adds a second to the
time since it, and takes one from the time until it.

Away from leap seconds all of this is the arithmetic of `nanos`: a sum adds the
span (`nanos_later`), and a difference is one (`since_eq_sub`).
-/

namespace Turnstile

/-- A point on the wall clock. -/
structure Timestamp where
  /-- Whole seconds since the epoch. -/
  seconds : Int
  /-- Nanoseconds since the start of the second, beyond it in a leap second. -/
  part : Nat
deriving DecidableEq, Repr, Inhabited

namespace Timestamp

/-- The first second of the year −262143. -/
def firstSecond : Int := -8334601228800

/-- The last second of the year 262142. -/
def lastSecond : Int := 8210266876799

/-- Within the range of timestamps. -/
def InRange (t : Timestamp) : Prop :=
  firstSecond ≤ t.seconds ∧ t.seconds ≤ lastSecond

instance (t : Timestamp) : Decidable t.InRange :=
  inferInstanceAs (Decidable (_ ∧ _))

/-- Within a leap second. -/
def IsLeap (t : Timestamp) : Prop := 1000000000 ≤ t.part

instance (t : Timestamp) : Decidable t.IsLeap :=
  inferInstanceAs (Decidable (_ ≤ _))

/-- A timestamp as one count of nanoseconds since the epoch, in which a leap
    second overlaps the second after it. -/
def nanos (t : Timestamp) : Int := t.seconds * 1000000000 + t.part

/-- The timestamp without leap second at a count of nanoseconds. -/
def ofNanos (n : Int) : Timestamp :=
  ⟨n / 1000000000, (n % 1000000000).toNat⟩

/-- A span later, whether that is in range or not. -/
def later (t : Timestamp) (d : Span) : Timestamp :=
  if t.IsLeap then
    if t.part + d.nanos < 2000000000 then ⟨t.seconds, t.part + d.nanos⟩
    else ofNanos (t.nanos + d.nanos - 1000000000)
  else ofNanos (t.nanos + d.nanos)

/-- The timestamp a span later, if there is one. -/
def add? (t : Timestamp) (d : Span) : Option Timestamp :=
  if (t.later d).InRange then some (t.later d) else none

/-- The second of the day that a timestamp is in. -/
def secondOfDay (t : Timestamp) : Int := t.seconds % 86400

/-- The nanoseconds from `s` to `t`, with a leap second at the earlier time of
    day set right. -/
def since (t s : Timestamp) : Int :=
  let plain := t.nanos - s.nanos
  if s.secondOfDay < t.secondOfDay ∧ s.IsLeap then plain + 1000000000
  else if t.secondOfDay < s.secondOfDay ∧ t.IsLeap then plain - 1000000000
  else plain

/-- The span from `s` to `t`, zero where `t` is not after `s`. -/
def remaining (t s : Timestamp) : Span := ⟨(t.since s).toNat⟩

theorem nanos_ofNanos (n : Int) : (ofNanos n).nanos = n := by
  simp only [nanos, ofNanos]
  omega

theorem not_isLeap_ofNanos (n : Int) : ¬ (ofNanos n).IsLeap := by
  simp only [IsLeap, ofNanos]
  omega

/-- A sum from outside of a leap second is a plain one. -/
theorem nanos_later {t : Timestamp} (h : ¬ t.IsLeap) (d : Span) :
    (t.later d).nanos = t.nanos + d.nanos := by
  rw [later, if_neg h, nanos_ofNanos]

/-- Outside of leap seconds a difference is that of the counts. -/
theorem since_eq_sub {t s : Timestamp} (ht : ¬ t.IsLeap) (hs : ¬ s.IsLeap) :
    t.since s = t.nanos - s.nanos := by
  simp [since, ht, hs]

end Timestamp

end Turnstile
