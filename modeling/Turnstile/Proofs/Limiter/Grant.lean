import Mathlib.Data.List.Chain
import Turnstile.Time.Span

/-!
# Slots in a row

The admissions of a key, in the order in which they are decided, are its *grants*.
Each has an arrival, a delay and so a slot. How a grant follows the one before it
(`Grant.Follows`) depends on whether it found an entry: if so, its slot is exactly a
threshold later; if not, it is admitted at once, as soon as the entry of the one
before has expired. That is a threshold after a slot taken at once, but *at* a slot
that was waited for.

So slots never decrease, and any two with a third one in between are a threshold
apart (`apart_of_between`), but two in a row may be closer:

* `window_le_two`: a window of the length of a threshold has two slots at most;
* `close_iff`, `all_apart_iff`: exactly which slots are closer than a threshold, and
  when none are.
-/

namespace Turnstile

/-- An admission of a key. -/
structure Grant where
  /-- The number of the request. -/
  request : Nat
  /-- Whether there was an entry. -/
  found : Bool
  /-- The reading of the wall clock at the decision, in nanoseconds. -/
  arrival : Int
  delay : Span
deriving DecidableEq, Repr

namespace Grant

/-- When the request is admitted, in nanoseconds on the wall clock. -/
def slot (g : Grant) : Int := g.arrival + g.delay.nanos

/-- How a grant follows the one before. -/
def Follows (threshold : Span) (a b : Grant) : Prop :=
  (b.found ∧ b.slot = a.slot + threshold.nanos) ∨
  (!b.found ∧ b.delay = .zero ∧ (a.delay ≠ .zero → a.slot ≤ b.arrival) ∧
    (a.delay = .zero → a.slot + threshold.nanos ≤ b.arrival))

/-- That the slot of a grant is a threshold after that of another, or more. -/
def Apart (threshold : Span) (a b : Grant) : Prop := a.slot + threshold.nanos ≤ b.slot

/-- That a grant finds an entry, or arrives a threshold after the slot of another, or
    that the other did not have to wait. -/
def InTime (threshold : Span) (a b : Grant) : Prop :=
  a.delay = .zero ∨ b.found ∨ a.slot + threshold.nanos ≤ b.arrival

/-- That a grant comes right after another and is not in time. -/
def Collides (threshold : Span) (gs : List Grant) (a b : Grant) : Prop :=
  [a, b] <:+: gs ∧ ¬ InTime threshold a b

variable {threshold : Span} {a b c : Grant} {gs : List Grant}

theorem slot_of_delay_eq_zero (h : a.delay = .zero) : a.slot = a.arrival := by
  simp [slot, h, Span.zero]

theorem Follows.slot_le (h : Follows threshold a b) : a.slot ≤ b.slot := by
  rcases h with ⟨-, h⟩ | ⟨-, hd, hw, hn⟩
  · omega
  · rw [slot_of_delay_eq_zero hd]
    by_cases ha : a.delay = .zero
    · have := hn ha
      omega
    · exact hw ha

/-- The second grant after one is a threshold later at least. -/
theorem Follows.apart (hab : Follows threshold a b) (hbc : Follows threshold b c) :
    Apart threshold a c := by
  have := hab.slot_le
  unfold Apart
  rcases hbc with ⟨-, h⟩ | ⟨-, hd, hw, hn⟩
  · omega
  · rw [slot_of_delay_eq_zero hd]
    by_cases hb : b.delay = .zero
    · have := hn hb
      omega
    · -- A request that waits has found an entry, so its own slot is a threshold later.
      rcases hab with ⟨-, h⟩ | ⟨-, h, -⟩
      · have := hw hb
        omega
      · exact absurd h hb

/-- Slots never decrease. -/
theorem sorted_of_chain (h : gs.IsChain (Follows threshold)) :
    gs.Pairwise fun a b => a.slot ≤ b.slot := by
  have trans : Trans (fun a b : Grant => a.slot ≤ b.slot) (fun a b : Grant => a.slot ≤ b.slot)
      (fun a b : Grant => a.slot ≤ b.slot) := ⟨fun h h' => Int.le_trans h h'⟩
  exact (h.imp fun _ _ => Follows.slot_le).pairwise

/-- All grants but the next one are a threshold later at least. -/
theorem apart_of_chain (h : (a :: b :: gs).IsChain (Follows threshold)) (hc : c ∈ gs) :
    Apart threshold a c := by
  cases gs with
  | nil => simp at hc
  | cons d rest =>
    simp only [List.isChain_cons_cons] at h
    have apart := h.1.apart h.2.1
    rcases List.mem_cons.1 hc with rfl | hc
    · exact apart
    · have sorted := sorted_of_chain h.2.2
      exact Int.le_trans apart ((List.pairwise_cons.1 sorted).1 c hc)

/-- Grants with another one in between are a threshold apart. -/
theorem apart_of_between (h : gs.IsChain (Follows threshold)) (hs : [a, b, c].Sublist gs) :
    Apart threshold a c := by
  induction gs with
  | nil => simp at hs
  | cons g rest ih =>
    rcases List.sublist_cons_iff.1 hs with hs | ⟨_, e, hs⟩
    · exact ih h.tail hs
    · cases e
      cases rest with
      | nil => simp at hs
      | cons d rest =>
        refine apart_of_chain h ?_
        rcases List.sublist_cons_iff.1 hs with hs | ⟨_, e, hs⟩
        · exact hs.subset (by simp)
        · cases e
          exact hs.subset (by simp)

/-- A window of the length of a threshold has two slots at most. -/
theorem window_le_two (h : gs.IsChain (Follows threshold)) (start : Int) :
    (gs.filter fun g => start ≤ g.slot ∧ g.slot < start + threshold.nanos).length ≤ 2 := by
  generalize hw : (gs.filter fun g => start ≤ g.slot ∧ g.slot < start + threshold.nanos) = ws
  have sub : ws.Sublist gs := hw ▸ List.filter_sublist
  have within {g : Grant} (hg : g ∈ ws) : start ≤ g.slot ∧ g.slot < start + threshold.nanos := by
    rw [← hw, List.mem_filter] at hg
    simpa using hg.2
  match ws, sub, @within with
  | [], _, _ | [_], _, _ | [_, _], _, _ => simp
  | a :: b :: c :: rest, sub, within =>
    -- Of three slots the first and the third are too far apart for the window.
    have three : [a, b, c].Sublist (a :: b :: c :: rest) := by simp
    have apart : a.slot + threshold.nanos ≤ c.slot := apart_of_between h (three.trans sub)
    have ha := within (g := a) (by simp)
    have hc := within (g := c) (by simp)
    omega

/-- A grant is a threshold after the one before exactly if it is in time. -/
theorem Follows.apart_iff (h : Follows threshold a b) :
    Apart threshold a b ↔ InTime threshold a b := by
  unfold Apart InTime
  rcases h with ⟨hf, hs⟩ | ⟨hf, hd, hw, hn⟩
  · simp [hf, hs]
  · rw [slot_of_delay_eq_zero hd]
    by_cases ha : a.delay = .zero
    · have := hn ha
      simp [ha, this]
    · simp only [Bool.not_eq_true'] at hf
      simp [ha, hf]

/-- A later grant is closer than a threshold exactly if it comes right after the other
    and is not in time. -/
theorem close_after_iff {before between after : List Grant}
    (h : (before ++ a :: between ++ b :: after).IsChain (Follows threshold)) :
    b.slot < a.slot + threshold.nanos ↔ between = [] ∧ ¬ InTime threshold a b := by
  have close : b.slot < a.slot + threshold.nanos ↔ ¬ Apart threshold a b := by
    unfold Apart
    omega
  rw [close]
  cases between with
  | cons g rest =>
    -- With another grant in between, the two are apart in any case.
    have first : [a, g].Sublist (before ++ a :: g :: rest) :=
      List.sublist_append_of_sublist_right (by simp)
    have second : [b].Sublist (b :: after) := by simp
    simp [apart_of_between h (first.append second)]
  | nil =>
    have follows : Follows threshold a b := by
      rw [List.append_assoc, List.singleton_append, List.isChain_append_cons_cons] at h
      exact h.2.1
    simp [follows.apart_iff]

/-- Of two grants one is the later. -/
theorem order_of_mem (ha : a ∈ gs) (hb : b ∈ gs) (hab : a ≠ b) :
    (∃ before between after, gs = before ++ a :: between ++ b :: after) ∨
      ∃ before between after, gs = before ++ b :: between ++ a :: after := by
  obtain ⟨before, rest, rfl⟩ := List.append_of_mem ha
  rcases List.mem_append.1 hb with hb | hb
  · obtain ⟨before', between, rfl⟩ := List.append_of_mem hb
    exact .inr ⟨before', between, rest, rfl⟩
  · obtain ⟨between, after, rfl⟩ := List.append_of_mem (List.mem_of_ne_of_mem hab.symm hb)
    exact .inl ⟨before, between, after, by simp⟩

theorem close_of_order {before between after : List Grant}
    (h : gs.IsChain (Follows threshold)) (e : gs = before ++ a :: between ++ b :: after)
    (close : (b.slot - a.slot).natAbs < threshold.nanos) : Collides threshold gs a b := by
  have sorted : a.slot ≤ b.slot := by
    have two : [a, b].Sublist gs := by
      rw [e, List.append_assoc]
      exact List.sublist_append_of_sublist_right (by simp)
    have pair := (sorted_of_chain h).sublist two
    simpa using pair
  have near : b.slot < a.slot + threshold.nanos := by omega
  obtain ⟨rfl, late⟩ := (close_after_iff (e ▸ h)).1 near
  exact ⟨⟨before, after, by simp [e]⟩, late⟩

theorem Collides.close (h : gs.IsChain (Follows threshold)) (k : Collides threshold gs a b) :
    (b.slot - a.slot).natAbs < threshold.nanos := by
  obtain ⟨⟨before, after, e⟩, late⟩ := k
  have e' : gs = before ++ a :: [] ++ b :: after := by simp [← e]
  have close := (close_after_iff (e' ▸ h)).2 ⟨rfl, late⟩
  have two : [a, b].Sublist gs := List.IsInfix.sublist ⟨before, after, e⟩
  have sorted := (sorted_of_chain h).sublist two
  have : a.slot ≤ b.slot := by simpa using sorted
  omega

/-- Two grants are closer than a threshold exactly if one comes right after the other
    and is not in time. -/
theorem close_iff (h : gs.IsChain (Follows threshold)) (ha : a ∈ gs) (hb : b ∈ gs) (hab : a ≠ b) :
    (b.slot - a.slot).natAbs < threshold.nanos ↔
      Collides threshold gs a b ∨ Collides threshold gs b a := by
  constructor
  · intro close
    rcases order_of_mem ha hb hab with ⟨_, _, _, e⟩ | ⟨_, _, _, e⟩
    · exact .inl (close_of_order h e close)
    · exact .inr (close_of_order h e (by omega))
  · rintro (k | k)
    · exact k.close h
    · have := k.close h
      omega

/-- All grants are a threshold apart exactly if every one is in time. -/
theorem all_apart_iff (h : gs.IsChain (Follows threshold)) (hd : gs.Nodup) :
    (∀ a ∈ gs, ∀ b ∈ gs, a ≠ b → threshold.nanos ≤ (b.slot - a.slot).natAbs) ↔
      gs.IsChain (InTime threshold) := by
  constructor
  · intro apart
    rw [List.isChain_iff_forall_rel_of_append_cons_cons]
    intro a b before after e
    have two : [a, b] <:+: gs := ⟨before, after, by simp [e]⟩
    have ne : a ≠ b := by
      have pair := hd.sublist two.sublist
      simpa using pair
    refine Classical.byContradiction fun late => ?_
    have close := Collides.close h ⟨two, late⟩
    have := apart a (two.subset (by simp)) b (two.subset (by simp)) ne
    omega
  · intro inTime a ha b hb ne
    refine Nat.not_lt.1 fun close => ?_
    rcases (close_iff h ha hb ne).1 close with ⟨two, late⟩ | ⟨two, late⟩
    · exact late (by simpa using inTime.infix two)
    · exact late (by simpa using inTime.infix two)

end Grant

end Turnstile
