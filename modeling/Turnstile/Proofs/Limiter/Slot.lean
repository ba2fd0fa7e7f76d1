import Turnstile.Limiter.Decision

/-!
# Slots

What a decision reserves, in nanoseconds. A reading of the wall clock is never
within a leap second, so neither is a slot counted from one, and all sums and
differences are plain.

* `Limiter.reservation_cases`: a request is admitted without an entry, or at the slot
  of one;
* `Limiter.lifetime_le`, `Limiter.delay_le`: how long entries live and requests wait;
* `Clock.nanos_of_read`, `Timestamp.nanos_of_add?`, `Timestamp.nanos_remaining`:
  readings, slots and waits as counts of nanoseconds;
* `Store.live?_of_set?`: what the entry with a slot answers.
-/

namespace Turnstile

/-- Who is admitted found no entry, and reserves the slot a threshold after the
    present; or a slot that is due in time, and reserves the one a threshold after it. -/
theorem Limiter.reservation_cases {l : Limiter} {found : Option Value} {now : Timestamp}
    {r : Reservation} (h : (l.decide found now).reservation? = some r) :
    (found = none ∧ now.add? l.threshold = some r.slot ∧ r.lifetime = l.threshold ∧
      r.delay = .zero) ∨
    ∃ t, found = some (.timestamp t) ∧ t.add? l.threshold = some r.slot ∧
      r.lifetime = t.remaining now ∧ r.delay = t.remaining now ∧
      (t.remaining now).nanos ≤ l.deadline.nanos := by
  unfold decide at h
  cases found with
  | none =>
    cases hs : now.add? l.threshold with
    | none => simp [hs, Decision.reservation?] at h
    | some slot =>
      simp only [hs, Decision.reservation?, Option.some.injEq] at h
      subst h
      exact .inl ⟨rfl, rfl, rfl, rfl⟩
  | some value =>
    cases ht : value.timestamp? with
    | none => simp [ht, Decision.reservation?] at h
    | some t =>
      have hv : value = .timestamp t := by
        cases value <;> simp_all [Value.timestamp?]
      simp only [ht] at h
      split at h
      · simp [Decision.reservation?] at h
      · -- The slot found is due within the deadline.
        rename_i hd
        cases hs : t.add? l.threshold with
        | none => simp [hs, Decision.reservation?] at h
        | some slot =>
          simp only [hs, Decision.reservation?, Option.some.injEq] at h
          subst h
          exact .inr ⟨t, by rw [hv], hs, rfl, rfl, Nat.le_of_not_lt hd⟩

namespace Limiter

/-- The longest time that an entry of a limiter lives. -/
def entryTime (l : Limiter) : Nat := max l.threshold.nanos l.deadline.nanos

variable {l : Limiter} {found : Option Value} {reading : Timestamp} {r : Reservation}

theorem lifetime_le (h : (l.decide found reading).reservation? = some r) :
    r.lifetime.nanos ≤ l.entryTime := by
  rcases reservation_cases h with ⟨-, -, e, -⟩ | ⟨t, -, -, e, -, within⟩
  · rw [e]
    exact Nat.le_max_left ..
  · rw [e]
    exact Nat.le_trans within (Nat.le_max_right ..)

/-- Nobody is to wait for longer than the deadline. -/
theorem delay_le (h : (l.decide found reading).reservation? = some r) :
    r.delay.nanos ≤ l.deadline.nanos := by
  rcases reservation_cases h with ⟨-, -, -, e⟩ | ⟨t, -, -, -, e, within⟩
  · rw [e]
    exact Nat.zero_le _
  · rwa [e]

end Limiter

/-- A reading is what the wall clock shows. -/
theorem Clock.read_eq_ofNanos {c : Clock} {t : Timestamp} (h : c.read = .ok t) :
    t = .ofNanos c.wall := by
  unfold read at h
  split at h
  · cases h
  · split at h
    · exact (Except.ok.inj h).symm
    · cases h

/-- A reading is the count of the wall clock. -/
theorem Clock.nanos_of_read {c : Clock} {t : Timestamp} (h : c.read = .ok t) :
    t.nanos = c.wall ∧ ¬ t.IsLeap := by
  rw [read_eq_ofNanos h]
  exact ⟨Timestamp.nanos_ofNanos _, Timestamp.not_isLeap_ofNanos _⟩

namespace Timestamp

variable {t s : Timestamp} {d : Span}

theorem later_ofNanos (n : Int) (d : Span) : (ofNanos n).later d = ofNanos (n + d.nanos) := by
  rw [later, if_neg (not_isLeap_ofNanos n), nanos_ofNanos]

theorem nanos_of_add? (ht : ¬ t.IsLeap) (h : t.add? d = some s) :
    s.nanos = t.nanos + d.nanos ∧ ¬ s.IsLeap := by
  unfold add? at h
  split at h
  · cases h
    refine ⟨nanos_later ht d, ?_⟩
    rw [later, if_neg ht]
    exact not_isLeap_ofNanos _
  · cases h

theorem nanos_remaining (ht : ¬ t.IsLeap) (hs : ¬ s.IsLeap) :
    (t.remaining s).nanos = (t.nanos - s.nanos).toNat := by
  rw [remaining, since_eq_sub ht hs]

end Timestamp

theorem Instant.eq_later_of_add? {t s : Instant} {d : Span} (h : t.add? d = some s) :
    s = t.later d := by
  unfold add? at h
  split at h
  · exact (Option.some.inj h).symm
  · cases h

namespace Store

variable {s s' : Store} {now : Instant} {key : String} {value : Value} {lifetime : Span}

/-- A new entry is stored with the instant at which it expires, and changes no other key. -/
theorem stored?_of_set? (h : s.set? now key value lifetime = some s') :
    ∃ expiry, now.add? lifetime = some expiry ∧ ∀ other, s'.stored? other =
      if other = key then some ⟨value, expiry⟩ else s.stored? other := by
  obtain ⟨expiry, range, rfl⟩ := Option.map_eq_some_iff.1 h
  exact ⟨expiry, range, fun other => Table.get?_set ..⟩

/-- A new entry is live until its time is over, and changes no other key. -/
theorem live?_of_set? (h : s.set? now key value lifetime = some s') (later : Instant)
    (other : String) : s'.live? later other =
      if other = key then if later.nanos < now.nanos + lifetime.nanos then some value else none
      else s.live? later other := by
  obtain ⟨expiry, range, stored⟩ := stored?_of_set? h
  obtain rfl := Instant.eq_later_of_add? range
  rw [live?, stored other]
  split
  · by_cases hl : later.nanos < now.nanos + lifetime.nanos
    · simp [Entry.live?, Entry.isExpired, Instant.later, hl]
    · simp [Entry.live?, Entry.isExpired, Instant.later, hl, Nat.le_of_not_lt hl]
  · rfl

end Store

end Turnstile
