import Turnstile.Cache.Store
import Turnstile.Limiter.Basic

/-!
# Decisions

A request is decided by what the cache holds under its key and by the present
reading of the wall clock. The entry of a key is the next point in time, the
*slot*, at which its identifier may be admitted.

* Without an entry the request is admitted at once. The next slot is a threshold
  after the present, and the entry lives as long as the threshold.
* With a slot that is due, or becomes due within the deadline, the request is
  admitted then. The next slot is a threshold after this one, and the entry lives
  until this one is due.
* Otherwise the request is refused, and nothing is written.

A slot past the last timestamp cannot be written. For a first admission that
means a wait without end; for a later one, that the entry is not one of the
limiter's. The deadline is looked at first.
-/

namespace Turnstile

/-- What a decision writes, and how long the request has to wait. -/
structure Reservation where
  /-- The next slot. -/
  slot : Timestamp
  /-- How long the entry lives. -/
  lifetime : Span
  /-- How long the request waits. -/
  delay : Span
deriving DecidableEq, Repr

/-- The decision on a request. -/
inductive Decision
  /-- Admitted at once, without an entry. -/
  | first (r : Reservation)
  /-- Admitted at the slot of the entry. -/
  | next (r : Reservation)
  /-- Refused: there is no entry and no next slot. -/
  | noFirstSlot
  /-- Refused: the entry is not a timestamp. -/
  | foreign
  /-- Refused: the slot of the entry is due after the deadline. -/
  | tooLate (remaining : Span)
  /-- Refused: the slot of the entry has no successor. -/
  | noNextSlot
deriving DecidableEq, Repr

namespace Decision

/-- What is written. -/
def reservation? : Decision → Option Reservation
  | first r | next r => some r
  | _ => none

/-- Why the request is refused, if it is. -/
def refusal? : Decision → Option Refusal
  | first _ | next _ => none
  | noFirstSlot | tooLate _ => some .deadlineExceeded
  | foreign | noNextSlot => some .corruptEntry

/-- What is logged before anything is written. -/
def noticesBefore (d : Decision) (key : Key) (deadline : Span) : List Notice :=
  match d with
  | first _ => [.firstAdmission key]
  | foreign => [.foreignValue key]
  | tooLate remaining => [.beyondDeadline key remaining deadline]
  | noNextSlot => [.lastTimestamp key]
  | next _ | noFirstSlot => []

/-- What is logged once everything is written. -/
def noticesAfter (d : Decision) (key : Key) : List Notice :=
  match d with
  | next r => [.slotReserved key r.delay]
  | _ => []

end Decision

/-- Decide on a request, given the value found under its key and the reading of
    the wall clock. -/
def Limiter.decide (l : Limiter) (found : Option Value) (now : Timestamp) : Decision :=
  match found with
  | none =>
    match now.add? l.threshold with
    | none => .noFirstSlot
    | some slot => .first ⟨slot, l.threshold, .zero⟩
  | some value =>
    match value.timestamp? with
    | none => .foreign
    | some slot =>
      let remaining := slot.remaining now
      if remaining.nanos > l.deadline.nanos then .tooLate remaining
      else
        match slot.add? l.threshold with
        | none => .noNextSlot
        | some following => .next ⟨following, remaining, remaining⟩

end Turnstile
