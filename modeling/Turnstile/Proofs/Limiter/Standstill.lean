import Mathlib.Logic.Function.Iterate
import Turnstile.Proofs.Limiter.Slot

/-!
# Admissions at one reading of the clocks

What an admission leaves to the next request for its key, if that comes at the same
reading of both clocks (`Limiter.entryNext`): the slot a threshold after its own. Only
a request that finds a slot which is due already leaves nothing: its entry is kept for
as long as it has to wait, which is no time at all.

So the delays grow by a threshold each, from whatever entry was there at first, but
for a slot that was due: the first two requests then have no delay
(`waitFor_iterate`).
-/

namespace Turnstile

/-- That an entry, if there is one, is a slot, and none within a leap second. -/
def Slotted (found : Option Value) : Prop :=
  ∀ value ∈ found, ∃ t ∈ value.timestamp?, ¬ t.IsLeap

instance (found : Option Value) : Decidable (Slotted found) :=
  inferInstanceAs (Decidable (∀ value ∈ found, ∃ t ∈ value.timestamp?, ¬ t.IsLeap))

/-- Whether an entry is a slot that is due at a time on the wall clock. -/
def slotIsDue (wall : Int) : Option Value → Bool
  | some (.timestamp t) => t.nanos ≤ wall
  | _ => false

/-- The nanoseconds from a time on the wall clock until the slot of an entry. -/
def waitFor (wall : Int) : Option Value → Nat
  | some (.timestamp t) => (t.nanos - wall).toNat
  | _ => 0

/-- The entry that an admission leaves at the very same time, given the one it finds. -/
def Limiter.entryNext (l : Limiter) (wall : Int) : Option Value → Option Value
  | none => some (.timestamp (.ofNanos (wall + l.threshold.nanos)))
  | some (.timestamp t) => if t.nanos ≤ wall then none else some (.timestamp (t.later l.threshold))
  | some value => some value

variable {l : Limiter} {wall : Int} {found : Option Value}

theorem Slotted.cases (h : Slotted found) :
    found = none ∨ ∃ t, found = some (.timestamp t) ∧ ¬ t.IsLeap := by
  cases found with
  | none => exact .inl rfl
  | some value =>
    obtain ⟨t, ht, leap⟩ := h value rfl
    cases value with
    | timestamp s =>
      cases ht
      exact .inr ⟨t, rfl, leap⟩
    | text | bytes => cases ht

theorem slotted_timestamp {t : Timestamp} (h : ¬ t.IsLeap) : Slotted (some (.timestamp t)) := by
  intro value hv
  cases hv
  exact ⟨t, rfl, h⟩

theorem Timestamp.not_isLeap_later {t : Timestamp} (h : ¬ t.IsLeap) (d : Span) :
    ¬ (t.later d).IsLeap := by
  rw [later, if_neg h]
  exact not_isLeap_ofNanos _

theorem Slotted.entryNext (h : Slotted found) : Slotted (l.entryNext wall found) := by
  rcases h.cases with rfl | ⟨t, rfl, leap⟩
  · exact slotted_timestamp (Timestamp.not_isLeap_ofNanos _)
  · rw [Limiter.entryNext]
    split
    · simp [Slotted]
    · exact slotted_timestamp (Timestamp.not_isLeap_later leap _)

/-- Who is admitted waits for the slot that it finds, and leaves the next entry, if what
    it stores is kept for longer than no time. -/
theorem Limiter.reservation_next {now : Timestamp} {r : Reservation} (h : Slotted found)
    (leap : ¬ now.IsLeap) (pos : 0 < l.threshold.nanos)
    (hr : (l.decide found now).reservation? = some r) :
    r.delay.nanos = waitFor now.nanos found ∧
      (if 0 < r.lifetime.nanos then some (.timestamp r.slot) else none) =
        l.entryNext now.nanos found := by
  rcases reservation_cases hr with ⟨rfl, hs, life, delay⟩ | ⟨t, rfl, hs, life, delay, -⟩
  · have slot : r.slot = .ofNanos (now.nanos + l.threshold.nanos) := by
      unfold Timestamp.add? at hs
      split at hs
      · rw [← Option.some.inj hs, Timestamp.later, if_neg leap]
      · cases hs
    rw [life, if_pos pos, delay, slot]
    exact ⟨rfl, rfl⟩
  · rcases h.cases with h | ⟨t', e, slotLeap⟩
    · cases h
    · cases e
      have slot : r.slot = t.later l.threshold := by
        unfold Timestamp.add? at hs
        split at hs
        · exact (Option.some.inj hs).symm
        · cases hs
      have wait := Timestamp.nanos_remaining slotLeap leap
      rw [life, delay, slot, waitFor, entryNext, wait]
      refine ⟨rfl, ?_⟩
      by_cases due : t.nanos ≤ now.nanos
      · rw [if_pos due, if_neg (by omega)]
      · rw [if_neg due, if_pos (by omega)]

/-- The wait after some admissions at the same time. -/
theorem waitFor_iterate (h : Slotted found) (pos : 0 < l.threshold.nanos) (n : Nat) :
    waitFor wall ((l.entryNext wall)^[n] found) =
      if slotIsDue wall found then (n - 1) * l.threshold.nanos
      else waitFor wall found + n * l.threshold.nanos := by
  induction n generalizing found with
  | zero =>
    rcases h.cases with rfl | ⟨t, rfl, leap⟩
    · simp [waitFor, slotIsDue]
    · by_cases due : t.nanos ≤ wall
      · simp only [Function.iterate_zero, id_eq, waitFor, slotIsDue, due, decide_true, if_true]
        omega
      · simp [waitFor, slotIsDue, due]
  | succ n ih =>
    rw [Function.iterate_succ_apply, ih h.entryNext]
    rcases h.cases with rfl | ⟨t, rfl, leap⟩
    · -- The slot that the first admission leaves is a threshold away.
      have later : ¬ wall + l.threshold.nanos ≤ wall := by omega
      simp only [Limiter.entryNext, slotIsDue, waitFor, Timestamp.nanos_ofNanos, later, decide_false,
        Bool.false_eq_true, if_false, Nat.succ_mul]
      omega
    · by_cases due : t.nanos ≤ wall
      · simp [Limiter.entryNext, slotIsDue, waitFor, due]
      · have later : ¬ t.nanos + l.threshold.nanos ≤ wall := by omega
        simp only [Limiter.entryNext, slotIsDue, waitFor, due, if_false, Timestamp.nanos_later leap,
          later, decide_false, Bool.false_eq_true, Nat.succ_mul]
        omega

end Turnstile
