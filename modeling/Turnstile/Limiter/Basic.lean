import Turnstile.Config.Settings
import Turnstile.Notice
import Turnstile.SystemError
import Turnstile.Time.Clock

/-!
# Limiters

A limiter keeps the admissions of an identifier a *threshold* apart, and lets a
request wait for its turn for a *deadline* at most. It is made once, with a salt
of its own, and does not change.

`Limiter.make` refuses spans that are no offset of the wall clock, a threshold
that would carry the present past the last timestamp, and a limiter without
randomness for its salt, in this order. The wall clock is read after the spans
have been checked and before the salt is drawn; a reading that is a fault ends
the construction as one.
-/

namespace Turnstile

/-- Keeps the admissions of an identifier a threshold apart. -/
structure Limiter where
  /-- The least distance of two admissions of an identifier. -/
  threshold : Span
  /-- The longest wait before a request is refused instead. -/
  deadline : Span
  salt : Salt
deriving DecidableEq

/-- Why there is no limiter. -/
inductive LimiterError
  /-- The threshold is no offset of the wall clock. -/
  | thresholdOutOfRange (threshold : Span)
  /-- The deadline is no offset of the wall clock. -/
  | deadlineOutOfRange (deadline : Span)
  /-- The wall clock could not be read. -/
  | clock (fault : Fault)
  /-- The present and a threshold more is past the last timestamp. -/
  | thresholdPastEnd (threshold : Span)
  /-- There was no randomness for the salt. -/
  | noSalt (cause : SystemError)
deriving DecidableEq, Repr

namespace LimiterError

/-- The start of the message of an error in the settings. -/
def settingsHeading : String := "Configuration error: "

/-- What is wrong with a span that is no offset of the wall clock. -/
def outOfRange (name : String) (d : Span) : String :=
  settingsHeading ++ name ++ " " ++ d.text ++
    " out of range: Source duration value is out of range for the target type"

/-- The text of an error. -/
def message : LimiterError → String
  | thresholdOutOfRange d => outOfRange "threshold" d
  | deadlineOutOfRange d => outOfRange "deadline" d
  | clock fault => fault.message
  | thresholdPastEnd d =>
    settingsHeading ++ "threshold " ++ d.text ++ " reaches past the latest representable timestamp"
  | noSalt cause =>
    "Cannot initialize rate limiter: secure randomness unavailable: " ++ cause.message

/-- The text of what an error comes from. -/
def cause? : LimiterError → Option String
  | noSalt cause => some cause.message
  | _ => none

end LimiterError

namespace Limiter

/-- Make a limiter, with the present reading of the wall clock and the outcome of
    drawing a salt. -/
def make (threshold deadline : Span) (reading : Except Fault Timestamp)
    (salt : Except SystemError Salt) : Except LimiterError Limiter :=
  if threshold.nanos > Span.longestOffset.nanos then .error (.thresholdOutOfRange threshold)
  else if deadline.nanos > Span.longestOffset.nanos then .error (.deadlineOutOfRange deadline)
  else
    match reading with
    | .error fault => .error (.clock fault)
    | .ok now =>
      if (now.add? threshold).isNone then .error (.thresholdPastEnd threshold)
      else
        match salt with
        | .error cause => .error (.noSalt cause)
        | .ok salt => .ok ⟨threshold, deadline, salt⟩

/-- Make the limiter of some settings. -/
def ofSettings (s : LimiterSettings) (reading : Except Fault Timestamp)
    (salt : Except SystemError Salt) : Except LimiterError Limiter :=
  make s.threshold s.deadline reading salt

/-- What is logged of a construction: the limiter, if one was made. -/
def noticesOf : Except LimiterError Limiter → List Notice
  | .ok limiter => [.limiterMade limiter.threshold limiter.deadline]
  | .error _ => []

/-- A limiter as the display of a structure shows it. -/
def display (l : Limiter) : String :=
  "Limiter \x7b threshold: " ++ l.threshold.text ++ ", deadline: " ++ l.deadline.text ++ ", .. \x7d"

/-- The key of an identifier. -/
def anonymize (l : Limiter) (identifier : String) : Key :=
  l.salt.anonymize identifier

end Limiter

end Turnstile
