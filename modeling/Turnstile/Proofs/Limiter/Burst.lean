import Turnstile.Proofs.Limiter.Slot
import Turnstile.Refusal

/-!
# Requests at one instant

What the requests for a key get that come while both clocks stand still and there is
no entry at first: a slot each, a threshold after that of the one before, as long as
it is due within the deadline (`Limiter.answerAfter`). The slots of those that follow
are too late, and leave the entry as it is (`Limiter.entryAfter`).

`Burst.decide_cases` is the step from one request to the next.
-/

namespace Turnstile

namespace Timestamp

variable {t : Timestamp} {d e : Span}

theorem later_later (ht : ¬ t.IsLeap) (d e : Span) :
    (t.later d).later e = t.later ⟨d.nanos + e.nanos⟩ := by
  have hl : ¬ (t.later d).IsLeap := by
    rw [later, if_neg ht]
    exact not_isLeap_ofNanos _
  rw [later, if_neg hl, nanos_later ht, later, if_neg ht]
  congr 1
  simp only [Int.natCast_add]
  omega

/-- What is between two timestamps is in range. -/
theorem inRange_later (ht : ¬ t.IsLeap) (hr : t.InRange) (h : (t.later e).InRange)
    (hd : d.nanos ≤ e.nanos) : (t.later d).InRange := by
  simp only [later, if_neg ht, InRange, ofNanos, nanos] at *
  omega

end Timestamp

namespace Limiter

/-- The answer to a request that comes after some others for its key, all at one
    instant. -/
def answerAfter (l : Limiter) (n : Nat) : Except Refusal Span :=
  if n * l.threshold.nanos ≤ l.deadline.nanos then .ok ⟨n * l.threshold.nanos⟩
  else .error .deadlineExceeded

/-- How many requests for a key are admitted at one instant. -/
def burstLimit (l : Limiter) : Nat := l.deadline.nanos / l.threshold.nanos + 1

/-- The entry of a key after some requests at one instant, given the reading of the wall
    clock. -/
def entryAfter (l : Limiter) (reading : Timestamp) (n : Nat) : Option Value :=
  if n = 0 then none
  else some (.timestamp (reading.later ⟨min n l.burstLimit * l.threshold.nanos⟩))

end Limiter

/-- A limiter and the clocks when they stand still, with room for all slots within the
    deadline. -/
structure Burst where
  limiter : Limiter
  clock : Clock
  /-- What the wall clock reads. -/
  reading : Timestamp
  threshold_pos : 0 < limiter.threshold.nanos
  read : clock.read = .ok reading
  /-- The last slot is in the range of timestamps. -/
  inRange : (reading.later ⟨limiter.deadline.nanos + limiter.threshold.nanos⟩).InRange
  /-- No entry expires after the range of instants. -/
  within : clock.now.nanos + limiter.deadline.nanos + limiter.threshold.nanos < Instant.limit

/-- A reading of the wall clock is in the range of timestamps. -/
theorem Clock.inRange_of_read {c : Clock} {t : Timestamp} (h : c.read = .ok t) : t.InRange := by
  unfold read at h
  split at h
  · cases h
  · split at h
    · cases h
      assumption
    · cases h

namespace Burst

variable (b : Burst)

/-- The entry after some requests. -/
def entry (n : Nat) : Option Value := b.limiter.entryAfter b.reading n

theorem mul_le_deadline_iff (n : Nat) :
    n * b.limiter.threshold.nanos ≤ b.limiter.deadline.nanos ↔ n < b.limiter.burstLimit := by
  rw [Limiter.burstLimit, Nat.lt_succ_iff, Nat.le_div_iff_mul_le b.threshold_pos]

/-- A slot a threshold after one within the deadline can be written. -/
theorem add?_slot {n : Nat} (hn : n < b.limiter.burstLimit) :
    (b.reading.later ⟨n * b.limiter.threshold.nanos⟩).add? b.limiter.threshold =
      some (b.reading.later ⟨(n + 1) * b.limiter.threshold.nanos⟩) := by
  have leap := (Clock.nanos_of_read b.read).2
  have le := (b.mul_le_deadline_iff n).2 hn
  have sum : (b.reading.later ⟨n * b.limiter.threshold.nanos⟩).later b.limiter.threshold =
      b.reading.later ⟨(n + 1) * b.limiter.threshold.nanos⟩ := by
    rw [Timestamp.later_later leap, Nat.succ_mul]
  rw [Timestamp.add?, sum, if_pos]
  refine Timestamp.inRange_later leap (Clock.inRange_of_read b.read) b.inRange ?_
  simp only [Nat.succ_mul]
  omega

theorem remaining_slot (n : Nat) : (b.reading.later ⟨n⟩).remaining b.reading = ⟨n⟩ := by
  have leap := (Clock.nanos_of_read b.read).2
  have later : ¬ (b.reading.later ⟨n⟩).IsLeap := by
    rw [Timestamp.later, if_neg leap]
    exact Timestamp.not_isLeap_ofNanos _
  rw [Timestamp.remaining, Timestamp.since_eq_sub later leap, Timestamp.nanos_later leap]
  simp only [Span.mk.injEq]
  omega

/-- The request after some others is admitted at the next slot, if this is due within the
    deadline. -/
theorem decide_eq (n : Nat) : b.limiter.decide (b.entry n) b.reading =
    if n < b.limiter.burstLimit then
      if n = 0 then .first ⟨b.reading.later b.limiter.threshold, b.limiter.threshold, .zero⟩
      else .next ⟨b.reading.later ⟨(n + 1) * b.limiter.threshold.nanos⟩,
        ⟨n * b.limiter.threshold.nanos⟩, ⟨n * b.limiter.threshold.nanos⟩⟩
    else .tooLate ⟨b.limiter.burstLimit * b.limiter.threshold.nanos⟩ := by
  have leap := (Clock.nanos_of_read b.read).2
  split
  · rename_i hn
    have le := (b.mul_le_deadline_iff n).2 hn
    split
    · subst n
      have range : (b.reading.later b.limiter.threshold).InRange :=
        Timestamp.inRange_later leap (Clock.inRange_of_read b.read) b.inRange (Nat.le_add_left ..)
      have none : b.entry 0 = none := rfl
      simp [none, Limiter.decide, Timestamp.add?, range]
    · rename_i zero
      have found : b.entry n =
          some (.timestamp (b.reading.later ⟨n * b.limiter.threshold.nanos⟩)) := by
        rw [entry, Limiter.entryAfter, if_neg zero, Nat.min_eq_left (Nat.le_of_lt hn)]
      have wait := b.remaining_slot (n * b.limiter.threshold.nanos)
      simp [found, Limiter.decide, Value.timestamp?, wait, Nat.not_lt.2 le, b.add?_slot hn]
  · rename_i hn
    have beyond : b.limiter.deadline.nanos < b.limiter.burstLimit * b.limiter.threshold.nanos :=
      Nat.lt_of_not_le fun h => Nat.lt_irrefl _ ((b.mul_le_deadline_iff _).1 h)
    have found : b.entry n =
        some (.timestamp (b.reading.later ⟨b.limiter.burstLimit * b.limiter.threshold.nanos⟩)) := by
      have : 0 < b.limiter.burstLimit := Nat.succ_pos _
      rw [entry, Limiter.entryAfter, if_neg (by omega), Nat.min_eq_right (Nat.le_of_not_lt hn)]
    have wait := b.remaining_slot (b.limiter.burstLimit * b.limiter.threshold.nanos)
    simp [found, Limiter.decide, Value.timestamp?, wait, beyond]

theorem answerAfter_eq (n : Nat) : b.limiter.answerAfter n =
    if n < b.limiter.burstLimit then .ok ⟨n * b.limiter.threshold.nanos⟩
    else .error .deadlineExceeded := by
  simp only [Limiter.answerAfter, b.mul_le_deadline_iff]

theorem entry_succ (n : Nat) : b.entry (n + 1) =
    if n < b.limiter.burstLimit then
      some (.timestamp (b.reading.later ⟨(n + 1) * b.limiter.threshold.nanos⟩))
    else b.entry n := by
  unfold entry Limiter.entryAfter
  rw [if_neg (Nat.succ_ne_zero n)]
  split
  · rw [Nat.min_eq_left ‹_›]
  · have : 0 < b.limiter.burstLimit := Nat.succ_pos _
    rw [if_neg (by omega), Nat.min_eq_right (by omega), Nat.min_eq_right (by omega)]

/-- The request after some others is admitted and leaves the next slot, or it is refused
    and the entry stays. -/
theorem decide_cases (n : Nat) :
    let d := b.limiter.decide (b.entry n) b.reading
    (∃ r, d.reservation? = some r ∧ b.limiter.answerAfter n = .ok r.delay ∧
      b.entry (n + 1) = some (.timestamp r.slot) ∧ 0 < r.lifetime.nanos ∧
      r.lifetime.nanos ≤ b.limiter.deadline.nanos + b.limiter.threshold.nanos) ∨
    (d.reservation? = none ∧ b.limiter.answerAfter n = .error (d.refusal?.getD .aborted) ∧
      b.entry (n + 1) = b.entry n) := by
  have pos := b.threshold_pos
  simp only [b.decide_eq, b.answerAfter_eq, b.entry_succ]
  by_cases hn : n < b.limiter.burstLimit
  · have le := (b.mul_le_deadline_iff n).2 hn
    simp only [if_pos hn]
    left
    by_cases zero : n = 0
    · subst n
      refine ⟨_, rfl, ?_, ?_, pos, Nat.le_add_left ..⟩
      · simp [Span.zero]
      · simp
    · simp only [if_neg zero]
      exact ⟨_, rfl, rfl, rfl, Nat.mul_pos (Nat.pos_of_ne_zero zero) pos,
        Nat.le_add_right_of_le le⟩
  · simp only [if_neg hn]
    exact .inr ⟨rfl, rfl, trivial⟩

end Burst

end Turnstile
