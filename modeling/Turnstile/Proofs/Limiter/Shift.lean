import Turnstile.Limiter.Decision

/-!
# Decisions at another time

A decision depends on the distance of an entry from the present, not on the date. If both
are shifted on the wall clock by the same number of nanoseconds, forwards or backwards, the
decision is the same, and what it writes is shifted too (`Limiter.decide_shifted`).

A shift counts in nanoseconds, so it leads out of leap seconds: to shift a timestamp by
nothing leaves it as it is just if it is not within one (`Timestamp.shifted_zero_iff`). And
the range of timestamps has two ends, so this is about sums that are in it
(`Decision.Bounded`).
-/

namespace Turnstile

/-! ### Timestamps -/

namespace Timestamp

/-- The timestamp some nanoseconds later, or earlier. -/
def shifted (δ : Int) (t : Timestamp) : Timestamp := .ofNanos (t.nanos + δ)

variable {δ : Int} {t s : Timestamp}

@[simp] theorem nanos_shifted (δ : Int) (t : Timestamp) : (t.shifted δ).nanos = t.nanos + δ :=
  nanos_ofNanos _

theorem not_isLeap_shifted (δ : Int) (t : Timestamp) : ¬ (t.shifted δ).IsLeap :=
  not_isLeap_ofNanos _

/-- The timestamps that are not within a leap second are those that are shifted. -/
theorem shifted_zero_iff : t.shifted 0 = t ↔ ¬ t.IsLeap := by
  refine ⟨fun h => h ▸ not_isLeap_shifted 0 t, fun plain => ?_⟩
  obtain ⟨seconds, part⟩ := t
  simp only [IsLeap, shifted, ofNanos, nanos, mk.injEq] at *
  omega

theorem later_shifted (ht : ¬ t.IsLeap) (d : Span) :
    (t.shifted δ).later d = (t.later d).shifted δ := by
  rw [later, if_neg (not_isLeap_shifted δ t), nanos_shifted, shifted, nanos_later ht,
    Int.add_right_comm]

/-- Where both sums are in the range, they are one of the other. -/
theorem add?_shifted (ht : ¬ t.IsLeap) {d : Span} (h : t.add? d ≠ none)
    (h' : (t.shifted δ).add? d ≠ none) :
    ∃ u, t.add? d = some u ∧ (t.shifted δ).add? d = some (u.shifted δ) := by
  unfold add? at *
  rw [later_shifted ht] at *
  refine ⟨t.later d, ?_, ?_⟩
  · exact if_pos (Decidable.byContradiction fun past => h (if_neg past))
  · exact if_pos (Decidable.byContradiction fun past => h' (if_neg past))

theorem remaining_shifted (ht : ¬ t.IsLeap) (hs : ¬ s.IsLeap) :
    (t.shifted δ).remaining (s.shifted δ) = t.remaining s := by
  rw [remaining, remaining, since_eq_sub ht hs,
    since_eq_sub (not_isLeap_shifted δ t) (not_isLeap_shifted δ s), nanos_shifted, nanos_shifted,
    Int.add_sub_add_right]

end Timestamp

/-! ### Values -/

/-- A value with its timestamp shifted, if it is one. -/
def Value.shifted (δ : Int) : Value → Value
  | .timestamp t => .timestamp (t.shifted δ)
  | v => v

/-- An entry with its timestamp shifted. It expires when it did, by the monotonic clock. -/
def Entry.shifted (δ : Int) (e : Entry) : Entry := { e with value := e.value.shifted δ }

namespace Table

variable {κ α β : Type} [DecidableEq κ]

/-- The table with its values changed. -/
def map (t : Table κ α) (f : α → β) : Table κ β :=
  ⟨t.rows.map fun (k, a) => (k, f a), by simpa [Function.comp_def] using t.nodup_keys⟩

variable (t : Table κ α) (f : α → β)

theorem get?_map (k : κ) : (t.map f).get? k = (t.get? k).map f := by
  ext b
  rw [get?_eq_some_iff, Option.map_eq_some_iff]
  simp only [get?_eq_some_iff, map, List.mem_map, Prod.exists, Prod.mk.injEq]
  constructor
  · rintro ⟨_, a, h, rfl, hb⟩
    exact ⟨a, h, hb⟩
  · rintro ⟨a, h, hb⟩
    exact ⟨k, a, h, rfl, hb⟩

omit [DecidableEq κ] in
theorem filter_map {p : κ → α → Bool} {q : κ → β → Bool} (h : ∀ k a, q k (f a) = p k a) :
    (t.map f).filter q = (t.filter p).map f := by
  simp only [filter, map, List.filter_map, Function.comp_def, h]

theorem erase_map (k : κ) : (t.map f).erase k = (t.erase k).map f := t.filter_map f fun _ _ => rfl

theorem set_map (k : κ) (a : α) : (t.map f).set k (f a) = (t.set k a).map f := by
  simp only [set, erase_map]
  rfl

omit [DecidableEq κ] in
theorem size_map : (t.map f).size = t.size := List.length_map ..

end Table

namespace Store

/-- A cache with its timestamps shifted. -/
def shifted (δ : Int) (s : Store) : Store := ⟨s.entries.map (Entry.shifted δ)⟩

variable (δ : Int) (s : Store) (now : Instant) (key : String)

theorem stored?_shifted : (s.shifted δ).stored? key = (s.stored? key).map (Entry.shifted δ) :=
  Table.get?_map ..

theorem size_shifted : (s.shifted δ).size = s.size := Table.size_map ..

theorem isEmpty_shifted : (s.shifted δ).isEmpty = s.isEmpty := List.isEmpty_map

theorem get_shifted : (s.shifted δ).get now key =
    ((s.get now key).1.map (Value.shifted δ), (s.get now key).2.shifted δ) := by
  unfold get
  rw [stored?_shifted]
  cases s.stored? key with
  | none => rfl
  | some e =>
    have expired : (e.shifted δ).isExpired now = e.isExpired now := rfl
    simp only [Option.map_some, expired]
    split
    · exact congrArg (fun entries => (none, Store.mk entries)) (s.entries.erase_map _ key)
    · rfl

theorem set?_shifted (value : Value) (lifetime : Span) :
    (s.shifted δ).set? now key (value.shifted δ) lifetime =
      (s.set? now key value lifetime).map (shifted δ) := by
  unfold set?
  rw [Option.map_map]
  congr 1
  funext expiry
  exact congrArg mk (s.entries.set_map (Entry.shifted δ) key ⟨value, expiry⟩)

theorem purge_shifted : (s.shifted δ).purge now = (s.purge now).shifted δ :=
  congrArg mk (s.entries.filter_map (Entry.shifted δ) fun _ _ => rfl)

theorem expiredCount_shifted : (s.shifted δ).expiredCount now = s.expiredCount now := by
  rw [expiredCount, purge_shifted, size_shifted, size_shifted, expiredCount]

end Store

/-! ### Decisions -/

/-- A reservation with its slot shifted. -/
def Reservation.shifted (δ : Int) (r : Reservation) : Reservation :=
  { r with slot := r.slot.shifted δ }

namespace Decision

/-- A decision with what it writes shifted. -/
def shifted (δ : Int) : Decision → Decision
  | first r => first (r.shifted δ)
  | next r => next (r.shifted δ)
  | d => d

/-- That no sum of a decision is past the last timestamp. -/
def Bounded (d : Decision) : Prop := d ≠ noFirstSlot ∧ d ≠ noNextSlot

instance (d : Decision) : Decidable d.Bounded := inferInstanceAs (Decidable (_ ∧ _))

variable (δ : Int) (d : Decision)

theorem reservation?_shifted :
    (d.shifted δ).reservation? = d.reservation?.map (Reservation.shifted δ) := by
  cases d <;> rfl

theorem refusal?_shifted : (d.shifted δ).refusal? = d.refusal? := by
  cases d <;> rfl

theorem noticesBefore_shifted (key : Key) (deadline : Span) :
    (d.shifted δ).noticesBefore key deadline = d.noticesBefore key deadline := by
  cases d <;> rfl

theorem noticesAfter_shifted (key : Key) :
    (d.shifted δ).noticesAfter key = d.noticesAfter key := by
  cases d <;> rfl

end Decision

/-- A decision is the same at another time, outside of leap seconds and within the range of
    timestamps. -/
theorem Limiter.decide_shifted (l : Limiter) (δ : Int) {found : Option Value} {now : Timestamp}
    (hf : found.map (Value.shifted 0) = found) (hn : ¬ now.IsLeap)
    (bounded : (l.decide found now).Bounded)
    (bounded' : (l.decide (found.map (Value.shifted δ)) (now.shifted δ)).Bounded) :
    l.decide (found.map (Value.shifted δ)) (now.shifted δ) = (l.decide found now).shifted δ := by
  cases found with
  | none =>
    simp only [decide, Option.map_none] at *
    obtain ⟨slot, e, e'⟩ := Timestamp.add?_shifted (δ := δ) (d := l.threshold) hn
      (fun past => by simp [past, Decision.Bounded] at bounded)
      (fun past => by simp [past, Decision.Bounded] at bounded')
    rw [e, e']
    rfl
  | some value =>
    cases value with
    | text | bytes => rfl
    | timestamp slot =>
      have hs : ¬ slot.IsLeap :=
        Timestamp.shifted_zero_iff.1 (Value.timestamp.inj (Option.some.inj hf))
      simp only [decide, Option.map_some, Value.shifted, Value.timestamp?,
        Timestamp.remaining_shifted hs hn] at *
      split
      · rfl
      · rename_i due
        rw [if_neg due] at bounded bounded'
        obtain ⟨following, e, e'⟩ := Timestamp.add?_shifted (δ := δ) (d := l.threshold) hs
          (fun past => by simp [past, Decision.Bounded] at bounded)
          (fun past => by simp [past, Decision.Bounded] at bounded')
        rw [e, e']
        rfl

end Turnstile
