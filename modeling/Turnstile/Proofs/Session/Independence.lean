import Turnstile.Proofs.Session.Abreast

/-!
# Keys are independent

What becomes of the requests for a key depends on what is done for this key only. Steps
for other keys, be they requests, lookups or new entries, can be left out of a session
in which no gate holds, and the requests for the key are answered alike, in the same
steps, even if they share their stripes, caches and sweepers with those left out.

* `Step.Apart`: a step that is for keys other than a given one;
* `Orderly.key_omitted`: so the requests that are gone with such steps are for other keys;
* `Orderly.cut_eq_left`: the other steps are left as they are;
* `keys_independent`: every step shows the same of the key without them.
-/

namespace Turnstile

/-- The entry that a step is for, if it is for one. -/
def Step.keyName? : Step → Option KeyName
  | .throttle name identifier _ => some (.ofIdentifier name identifier.render)
  | .put _ name _ _ | .get _ name => some name
  | _ => none

/-- That a step issues requests, or looks up or stores an entry, under other keys than the
    one given. -/
def Step.Apart (k : String) (w : World) (s : Step) : Prop :=
  s.keyName?.any fun name => w.keyMeant? name != some k

instance (k : String) (w : World) : DecidablePred (Step.Apart k w) :=
  fun s => inferInstanceAs (Decidable (s.keyName?.any _ = true))

namespace World

/-- Whether a request is for a key. -/
def isFor (w : World) (k : String) (i : Nat) : Bool := (w.key? i).any (·.text = k)

/-- The requests for a key, under their own numbers. -/
def requestsFor (w : World) (k : String) : View where
  number? i := if w.isFor k i then some i else none
  le_iff hi hj := by
    obtain ⟨-, hi⟩ := Option.ite_none_right_eq_some.1 hi
    obtain ⟨-, hj⟩ := Option.ite_none_right_eq_some.1 hj
    cases hi
    cases hj
    rfl

theorem fits_requestsFor (w : World) (k : String) : w.Fits (w.requestsFor k) (· = k) := by
  refine ⟨fun {i key} h => ?_⟩
  simp [requestsFor, isFor, h]

/-- The requests that are issued by the steps left out of a session. -/
def omitted (w : World) : List (Step × Bool) → List Nat
  | [] => []
  | x :: rest =>
    (if x.2 then (w.step x.1).2.result.issued else []) ++ (w.step x.1).1.omitted rest

/-- Whether a request is gone with the steps left out of a session. -/
def isOmitted (w : World) (steps : List (Step × Bool)) (i : Nat) : Bool :=
  (w.omitted steps).contains i

end World

/-- What is left of a step: nothing, if it is left out, or if it gives up on the answer to a
    request that is gone. -/
def Step.left (gone : Nat → Bool) : Step × Bool → List Step
  | (_, true) => []
  | (.dropHandle i, false) => if gone i then [] else [.dropHandle (renumber gone i)]
  | (s, false) => [s]

/-- That a step, and what is left of it in a world of the session that is left, show the
    same of a key: the requests for it that are issued, and the answers to such requests,
    under their new numbers, and what is found under it. -/
structure World.SameFor (w : World) (k : String) (gone : Nat → Bool) (v : World)
    (x : Step × Bool) : Prop where
  issued : ((w.step x.1).2.result.issued.filter fun i => (w.step x.1).1.isFor k i).map
      (renumber gone) =
    (Turnstile.issued (v.run (Step.left gone x))).filter fun i =>
      (v.final (Step.left gone x)).isFor k i
  outcomes : ((w.step x.1).2.outcomes.filter fun y => (w.step x.1).1.isFor k y.1).map
      (fun (i, o) => (renumber gone i, o)) =
    ((v.run (Step.left gone x)).flatMap Report.outcomes).filter fun y =>
      (v.final (Step.left gone x)).isFor k y.1
  found : ∀ {cache name}, x.1 = .get cache name → w.keyMeant? name = some k →
    (v.run (Step.left gone x)).map Report.result = [(w.step x.1).2.result]

open World

/-! ### Steps for other keys -/

namespace Step.Apart

variable {w : World} {k : String} {s : Step}

theorem keyMeant? {name : KeyName} (h : s.Apart k w) (hs : s.keyName? = some name) :
    w.keyMeant? name ≠ some k := by
  simpa [Step.Apart, hs] using h

/-- A step for other keys may be left out, with the requests that it issues. -/
theorem omissible {gone : Nat → Bool} (h : s.Apart k w)
    (away : ∀ i ∈ (w.step s).2.result.issued, gone i) : s.Omissible gone (· = k) w := by
  cases s with
  | throttle => exact away
  | put | get =>
    rintro text ht rfl
    exact h.keyMeant? rfl ht
  | _ => simp [Step.Apart, Step.keyName?] at h

/-- The requests that it issues are for other keys. -/
theorem key_issued (h : s.Apart k w) {i : Nat} (hi : i ∈ (w.step s).2.result.issued) {key : Key}
    (hk : (w.acted s).key? i = some key) : key.text ≠ k := by
  have new : w.admissions.size ≤ i := by
    rw [issued_eq] at hi
    exact (List.mem_range'_1.1 hi).1
  obtain ⟨b, hb, rfl⟩ := Option.map_eq_some_iff.1 hk
  rcases admission_acted hb with ⟨a, ha, -⟩ | ⟨-, name, form, _, l, cell, rfl, hn, hl, rfl⟩
  · have := (Array.getElem?_eq_some_iff.1 ha).1
    omega
  · rintro rfl
    refine h.keyMeant? rfl ?_
    simp [World.keyMeant?, limiterNamed?, hn, hl, request]

end Step.Apart

namespace World

variable {w : World} {k : String} {steps before after : List (Step × Bool)} {x : Step × Bool}

/-- A request is for the same key at the end of a session as after the step that issues it. -/
theorem Orderly.key_final (o : w.Orderly) {s : Step} {i : Nat} {key : Key}
    (hk : (w.acted s).key? i = some key) (rest : List Step) :
    (w.final (s :: rest)).key? i = some key := by
  have e := (o.acted s).evolves_settle.1.trans ((o.evolves_final [s]).1.evolves_final rest).2
  exact e.key_of_some hk

theorem omitted_append : w.omitted (before ++ after) =
    w.omitted before ++ (w.final (before.map Prod.fst)).omitted after := by
  induction before generalizing w with
  | nil => rfl
  | cons x rest ih => simp only [List.cons_append, omitted, ih, List.map_cons, final,
      List.append_assoc]

/-- The requests that are gone with steps for other keys are for other keys. -/
theorem Orderly.key_omitted (o : w.Orderly) (apart : w.Omits (Step.Apart k) steps) {i : Nat}
    (hi : i ∈ w.omitted steps) {key : Key}
    (hk : (w.final (steps.map Prod.fst)).key? i = some key) : key.text ≠ k := by
  -- By induction on the steps: what is issued by one of them is as it was when the session ends.
  induction steps generalizing w with
  | nil => cases hi
  | cons x rest ih =>
    have o' : (w.step x.1).1.Orderly := (o.evolves_final [x.1]).1
    rcases List.mem_append.1 hi with hi | hi
    · cases out : x.2 with
      | false => simp [out] at hi
      | true =>
        rw [out, if_pos rfl] at hi
        have there := ((o.mem_issued_step x.1 i).1 hi).2
        rw [o.size_step] at there
        have issued : (w.acted x.1).key? i = some (w.acted x.1).admissions[i].key := by
          rw [key?, Array.getElem?_eq_getElem there]
          rfl
        have later := o.key_final issued (rest.map Prod.fst)
        obtain rfl : _ = key := Option.some.inj (later.symm.trans hk)
        exact (apart.1 out).key_issued hi issued
    · exact ih o' apart.2 hi hk

theorem omits_omissible {gone : Nat → Bool} (apart : w.Omits (Step.Apart k) steps)
    (away : ∀ i ∈ w.omitted steps, gone i) : w.Omits (Step.Omissible gone (· = k)) steps := by
  induction steps generalizing w with
  | nil => trivial
  | cons x rest ih =>
    refine ⟨fun out => (apart.1 out).omissible fun i hi => away i ?_,
      ih apart.2 fun i hi => away i (List.mem_append_right _ hi)⟩
    refine List.mem_append_left _ ?_
    rwa [out, if_pos rfl]

theorem Orderly.size_le_of_omitted (o : w.Orderly) {i : Nat} (hi : i ∈ w.omitted steps) :
    w.admissions.size ≤ i := by
  induction steps generalizing w with
  | nil => cases hi
  | cons x rest ih =>
    obtain ⟨o', e⟩ := o.evolves_final [x.1]
    rcases List.mem_append.1 hi with hi | hi
    · split at hi
      · exact ((o.mem_issued_step x.1 i).1 hi).1
      · cases hi
    · exact Nat.le_trans e.size_le (ih o' hi)

/-- A request is for the same key in every turn as at the end of the session. -/
theorem Orderly.key_of_history (o : w.Orderly) {steps : List Step} {m : Moment}
    (hm : m ∈ w.history steps) {i : Nat} {key : Key} (hk : m.world.key? i = some key) :
    (w.final steps).key? i = some key := by
  induction steps generalizing w with
  | nil => cases hm
  | cons s rest ih =>
    have o' : (w.step s).1.Orderly := (o.evolves_final [s]).1
    rcases List.mem_append.1 hm with hm | hm
    · exact o.key_final ((o.acted s).key_turns hm i ▸ hk) rest
    · exact ih o' hm

/-! ### What is left -/

theorem cutStep_eq_left {gone : Nat → Bool}
    (kept : x.2 = false → ∀ i ∈ (w.step x.1).2.result.issued, gone i = false) :
    w.cutStep gone x = Step.left gone x := by
  obtain ⟨s, out⟩ := x
  cases out with
  | true => rfl
  | false =>
    cases s with
    | throttle =>
      have none := List.countP_eq_zero.2 fun i hi => Bool.eq_false_iff.1 (kept rfl i hi)
      simp only [cutStep, none, if_true, Step.left]
    | _ => rfl

/-- The steps that are not left out are left as they are. -/
theorem Orderly.cut_eq_left (o : w.Orderly) {gone : Nat → Bool}
    (h : ∀ i, w.admissions.size ≤ i → (gone i ↔ i ∈ w.omitted (before ++ after))) :
    w.cut gone before = before.flatMap (Step.left gone) := by
  -- By induction on the steps: what a step issues is older than what later steps issue.
  induction before generalizing w with
  | nil => rfl
  | cons x rest ih =>
    have o' : (w.step x.1).1.Orderly := (o.evolves_final [x.1]).1
    rw [cut, List.flatMap_cons, cutStep_eq_left, ih o']
    · intro i hi
      have older : i ∉ if x.2 then (w.step x.1).2.result.issued else [] := by
        split
        · intro there
          have := ((o.mem_issued_step x.1 i).1 there).2
          omega
        · exact List.not_mem_nil
      have := (o.evolves_final [x.1]).2.size_le
      rw [h i (Nat.le_trans this hi), List.cons_append, omitted, List.mem_append]
      exact or_iff_right older
    · intro kept i hi
      obtain ⟨first, last⟩ := (o.mem_issued_step x.1 i).1 hi
      rw [Bool.eq_false_iff, ne_eq, h i first, List.cons_append, omitted, kept]
      intro there
      have := o'.size_le_of_omitted there
      omega

/-! ### What is shown of a key -/

/-- In worlds that are together the same requests are for a key, if none is that is gone. -/
theorem isFor_eq {gone : Nat → Bool} {g : View} {keys : String → Prop} {v : World}
    (h : Together gone g keys w v)
    (away : ∀ {i : Nat} {key : Key}, gone i → w.key? i = some key → key.text ≠ k) (i : Nat) :
    w.isFor k i = (!gone i && v.isFor k (renumber gone i)) := by
  cases out : gone i with
  | true =>
    rw [Bool.not_true, Bool.false_and, isFor, Option.any_eq_false]
    exact fun key hk => decide_eq_false (away out hk)
  | false =>
    have key : w.key? i = v.key? (renumber gone i) := h.abreast.key out
    rw [isFor, key]
    rfl

/-- What is shown alike of the requests for a key is the same. -/
theorem SameFor.of_shownAlike {gone : Nat → Bool} {v : World}
    (left : w.cutStep gone x = Step.left gone x)
    (shown : ShownAlike gone ((v.final (w.cutStep gone x)).requestsFor k) (· = k) w v x)
    (isFor : ∀ i, (w.step x.1).1.isFor k i =
      (!gone i && (v.final (w.cutStep gone x)).isFor k (renumber gone i)))
    (apart : x.2 → Step.Apart k w x.1) : w.SameFor k gone v x := by
  have number (i : Nat) :
      (((v.final (w.cutStep gone x)).requestsFor k).cut gone).number? i =
        if (w.step x.1).1.isFor k i then some (renumber gone i) else none := by
    rw [isFor]
    cases out : gone i with
    | true => exact View.cut_gone out
    | false => exact View.cut_kept out
  obtain ⟨issued, outcomes, result⟩ := shown
  rw [View.filterMap_answer? number, View.filterMap_answer? fun _ => rfl] at outcomes
  rw [left] at *
  refine ⟨?_, ?_, ?_⟩
  · rw [← issued, List.filter_map, List.filter_filter]
    congr 2
    funext i
    rw [isFor, Bool.and_comm]
    rfl
  · simpa using outcomes
  · rintro cache name hx meant
    obtain ⟨s, out⟩ := x
    obtain rfl : s = .get cache name := hx
    cases out with
    | true => exact absurd meant ((apart rfl).keyMeant? rfl)
    | false =>
      have told : Step.Told (((v.final [.get cache name]).requestsFor k).cut gone) (· = k) w
          (.get cache name) := fun text ht => Option.some.inj (ht.symm.trans meant)
      exact congrArg (· :: []) (result told _ (List.mem_singleton.2 rfl))

/-- The requests for a key, and lookups of it, are answered alike without steps for other
    keys, where no gate holds. -/
theorem keys_independent {wall : Int}
    (flows : (starting wall).Along Step.Flows (steps.map Prod.fst))
    (apart : (starting wall).Omits (Step.Apart k) steps) (split : steps = before ++ x :: after) :
    ((starting wall).final (before.map Prod.fst)).SameFor k ((starting wall).isOmitted steps)
      ((starting wall).final (before.flatMap (Step.left ((starting wall).isOmitted steps)))) x := by
  have o := orderly_starting wall
  have away (i : Nat) : (starting wall).isOmitted steps i ↔ i ∈ (starting wall).omitted steps :=
    List.contains_iff_mem
  generalize (starting wall).isOmitted steps = gone at away ⊢
  have split' : steps = before ++ [x] ++ after := by simp [split]
  have left : (starting wall).cut gone before = before.flatMap (Step.left gone) :=
    o.cut_eq_left fun i _ => split ▸ away i
  have left' : (starting wall).cut gone (before ++ [x]) =
      (before ++ [x]).flatMap (Step.left gone) := o.cut_eq_left fun i _ => split' ▸ away i
  rw [cut_concat, List.flatMap_append, left, List.flatMap_singleton] at left'
  have cutStep := List.append_cancel_left left'
  subst split'
  rw [List.map_append, along_append] at flows
  have omits := omits_omissible (omits_append.1 apart).1 fun i hi =>
    (away i).2 (by rw [omitted_append]; exact List.mem_append_left _ hi)
  -- No request that is gone is for the key at the end, so none is at any time.
  have other {i : Nat} {key : Key} (out : gone i)
      (hk : ((starting wall).final ((before ++ [x]).map Prod.fst)).key? i = some key) :
      key.text ≠ k := by
    refine o.key_omitted apart ((away i).1 out) ?_
    rw [List.map_append, final_append]
    exact ((o.evolves_final _).1.evolves_final _).2.key_of_some hk
  have spares (m : Moment) (hm : m ∈ (starting wall).history ((before ++ [x]).map Prod.fst)) :
      m.Spares (View.all.cut gone) (· = k) := by
    refine .of_key fun {i a} _ hi ha => ?_
    exact other (View.all_cut_eq_none.1 hi) (o.key_of_history hm (by rw [key?, ha]; rfl))
  have fits := fits_requestsFor ((starting wall).final ((starting wall).cut gone (before ++ [x]))) k
  have last := (Together.starting gone _ _ wall).final flows.1 omits fits spares
  have shown := (Together.starting gone _ _ wall).shownAlike flows.1 omits fits spares rfl
  rw [cut_concat, final_append, left] at last shown
  rw [List.map_append, final_append] at last other
  exact .of_shownAlike cutStep shown (isFor_eq last other)
    (omits_append.1 (omits_append.1 apart).1).2.1

/-- Requests for two keys with the same stripe, the first of which is left out. -/
def neighbours : List (Step × Bool) :=
  [(.cache "c", false),
    (.limiter "a" "c" (.spans (.ofMillis 1000) (.ofMillis 1000)) (.ok .zero), false),
    (.throttle "a" (.plain "d") 1, true), (.throttle "a" (.plain "a") 2, false)]

theorem keys_independent_neighbours :
    let k := Salt.zero.anonymize "a"
    let before := neighbours.take 3
    let gone := (starting 0).isOmitted neighbours
    (Salt.zero.anonymize "d").stripe stripeCount = k.stripe stripeCount ∧
      (starting 0).Along Step.Flows (neighbours.map Prod.fst) ∧
      (starting 0).Omits (Step.Apart k.text) neighbours ∧
      (neighbours.flatMap (Step.left gone)).length = 3 ∧
      ((starting 0).final (before.map Prod.fst)).SameFor k.text gone
        ((starting 0).final (before.flatMap (Step.left gone)))
        (.throttle "a" (.plain "a") 2, false) := by
  have run : (Salt.zero.anonymize "d").stripe stripeCount =
        (Salt.zero.anonymize "a").stripe stripeCount ∧
      (starting 0).Along Step.Flows (neighbours.map Prod.fst) ∧
      (starting 0).Omits (Step.Apart (Salt.zero.anonymize "a").text) neighbours := by
    decide +kernel
  exact ⟨run.1, run.2.1, run.2.2, by rfl, keys_independent run.2.1 run.2.2 rfl⟩

end World

end Turnstile
