import Turnstile.Proofs.Limiter.Burst

/-!
# Batches

Requests at one instant on an empty cache, at a limiter with any threshold. What is
stored for a key is known from the number of requests for it: the next slot, and how
long the entry lives (`Limiter.lifetimeAfter`). Without a threshold entries expire as
they are stored, so every request is like the first.

`Batch.decide_cases` is the step from one request for a key to the next.
-/

namespace Turnstile

namespace Store

/-- A lookup takes out the entry that it looks at, if that is expired. -/
theorem stored?_get (s : Store) (now : Instant) (key other : String) :
    (s.get now key).2.stored? other =
      if other = key then (s.stored? key).filter fun e => !e.isExpired now
      else s.stored? other := by
  have erased := s.entries.get?_erase key other
  unfold get
  cases hs : s.stored? key with
  | none =>
    by_cases own : other = key
    · simp [own, hs]
    · simp [own]
  | some e =>
    by_cases expired : e.isExpired now
    · simpa [expired, erase, stored?, Option.filter_some] using erased
    · by_cases own : other = key
      · simp [expired, own, hs, Option.filter_some]
      · simp [expired, own]

end Store

/-- How long the entry of a key lives after some requests for it at one instant. -/
def Limiter.lifetimeAfter (l : Limiter) (n : Nat) : Span :=
  ⟨max 1 (min n l.burstLimit - 1) * l.threshold.nanos⟩

/-- A limiter and the clocks when they stand still, with room for all slots within the
    deadline. -/
structure Batch where
  limiter : Limiter
  clock : Clock
  /-- What the wall clock reads. -/
  reading : Timestamp
  read : clock.read = .ok reading
  /-- The last slot is in the range of timestamps. -/
  inRange : (reading.later ⟨limiter.deadline.nanos + limiter.threshold.nanos⟩).InRange
  /-- No entry expires after the range of instants. -/
  within : clock.now.nanos + limiter.deadline.nanos + limiter.threshold.nanos < Instant.limit

namespace Batch

variable (b : Batch)

/-- What is stored for a key after some requests for it. -/
def stored (n : Nat) : Option Entry :=
  if n = 0 then none
  else some ⟨.timestamp (b.reading.later ⟨min n b.limiter.burstLimit * b.limiter.threshold.nanos⟩),
    b.clock.now.later (b.limiter.lifetimeAfter n)⟩

/-- What a lookup of a key answers after some requests for it. -/
def found (n : Nat) : Option Value := (b.stored n).bind fun e => e.live? b.clock.now

/-- A batch with a threshold, as a burst. -/
def burst (pos : 0 < b.limiter.threshold.nanos) : Burst :=
  { b with threshold_pos := pos }

theorem found_of_pos (pos : 0 < b.limiter.threshold.nanos) (n : Nat) :
    b.found n = (b.burst pos).entry n := by
  have lives : 0 < (b.limiter.lifetimeAfter n).nanos := Nat.mul_pos (by omega) pos
  unfold found stored Burst.entry Limiter.entryAfter
  split
  · rfl
  · simp only [Option.bind_some, Entry.live?, Entry.isExpired, Instant.later, decide_eq_true_eq]
    rw [if_neg (by omega)]
    rfl

/-- Without a threshold nothing is found. -/
theorem found_of_zero (zero : b.limiter.threshold.nanos = 0) (n : Nat) : b.found n = none := by
  unfold found stored
  split
  · rfl
  · simp [Entry.live?, Entry.isExpired, Instant.later, Limiter.lifetimeAfter, zero]

/-- The next request for a key is admitted and its reservation stored, or it is refused as
    too late and the entry found stays. -/
theorem decide_cases (n : Nat) :
    let d := b.limiter.decide (b.found n) b.reading
    (∃ r, (d = .first r ∨ d = .next r) ∧ b.limiter.answerAfter n = .ok r.delay ∧
      b.stored (n + 1) = some ⟨.timestamp r.slot, b.clock.now.later r.lifetime⟩ ∧
      r.lifetime.nanos ≤ b.limiter.deadline.nanos + b.limiter.threshold.nanos) ∨
    ((∃ remaining, d = .tooLate remaining) ∧ b.found n = (b.stored n).map Entry.value ∧
      b.limiter.answerAfter n = .error .deadlineExceeded ∧ b.stored (n + 1) = b.stored n) := by
  have leap := (Clock.nanos_of_read b.read).2
  rcases Nat.eq_zero_or_pos b.limiter.threshold.nanos with zero | pos
  · -- Every request is like the first.
    left
    have range : (b.reading.later b.limiter.threshold).InRange :=
      Timestamp.inRange_later leap (Clock.inRange_of_read b.read) b.inRange (Nat.le_add_left ..)
    have none : b.limiter.threshold = ⟨0⟩ := congrArg Span.mk zero
    refine ⟨⟨b.reading.later b.limiter.threshold, b.limiter.threshold, .zero⟩, .inl ?_, ?_, ?_,
      Nat.le_add_left ..⟩
    · simp [b.found_of_zero zero, Limiter.decide, Timestamp.add?, range]
    · simp [Limiter.answerAfter, zero, Span.zero]
    · simp [stored, Limiter.lifetimeAfter, none]
  · have decision := (b.burst pos).decide_eq n
    have answer := (b.burst pos).answerAfter_eq n
    rw [← b.found_of_pos pos] at decision
    by_cases hn : n < b.limiter.burstLimit
    · left
      have le : n * b.limiter.threshold.nanos ≤ b.limiter.deadline.nanos :=
        ((b.burst pos).mul_le_deadline_iff n).2 hn
      have answer : b.limiter.answerAfter n = _ := answer.trans (if_pos hn)
      have decision : b.limiter.decide (b.found n) b.reading = _ := decision.trans (if_pos hn)
      have next : b.stored (n + 1) =
          some ⟨.timestamp (b.reading.later ⟨(n + 1) * b.limiter.threshold.nanos⟩),
            b.clock.now.later ⟨max 1 n * b.limiter.threshold.nanos⟩⟩ := by
        simp [stored, Limiter.lifetimeAfter, Nat.min_eq_left (Nat.succ_le_of_lt hn)]
      rw [answer, decision, next]
      by_cases zero : n = 0
      · subst n
        refine ⟨_, .inl rfl, ?_, ?_, Nat.le_add_left ..⟩
        · simp [Span.zero, burst]
        · simp [burst]
      · rw [if_neg zero, Nat.max_eq_right (Nat.pos_of_ne_zero zero)]
        exact ⟨_, .inr rfl, rfl, rfl, Nat.le_add_right_of_le le⟩
    · right
      have answer : b.limiter.answerAfter n = _ := answer.trans (if_neg hn)
      have decision : b.limiter.decide (b.found n) b.reading = _ := decision.trans (if_neg hn)
      have some : 0 < b.limiter.burstLimit := Nat.succ_pos _
      have last {m : Nat} (hm : b.limiter.burstLimit ≤ m) :
          b.stored m = b.stored b.limiter.burstLimit := by
        simp only [stored, Limiter.lifetimeAfter, Nat.min_eq_right hm, Nat.min_self,
          if_neg (show m ≠ 0 by omega), if_neg (show b.limiter.burstLimit ≠ 0 by omega)]
      have le := Nat.le_of_not_lt hn
      refine ⟨⟨_, decision⟩, ?_, answer, (last (Nat.le_succ_of_le le)).trans (last le).symm⟩
      have zero : n ≠ 0 := by omega
      rw [b.found_of_pos pos, Burst.entry, Limiter.entryAfter, stored, if_neg zero, if_neg zero]
      rfl

end Batch

end Turnstile
