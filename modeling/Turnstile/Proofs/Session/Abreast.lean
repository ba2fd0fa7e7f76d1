import Turnstile.Proofs.Session.Acting
import Turnstile.Proofs.Session.Resolution

/-!
# Sessions abreast

Some requests, and some steps of their own, may be cut out of a session
(`World.cut`). The requests that are kept are renumbered, and what a step says of a
request it then says of the new number.

The session that is left goes *abreast* of the full one, step by step: what is seen of
both is alike after every step, if what is cut out changes nothing that is seen.

* `Abreast.act`: a step, and what is left of it, keep worlds abreast;
* `Together.step`: so do the turns that follow, and the answers received are the same;
* `Together.shownAlike`: so what is left of a step shows the same as the step itself.
-/

namespace Turnstile

/-! ### Renumbering -/

section

variable (gone : Nat → Bool)

/-- The number that a request has once others are gone. -/
def renumber (i : Nat) : Nat := (List.range i).countP fun j => !gone j

theorem renumber_succ (i : Nat) :
    renumber gone (i + 1) = renumber gone i + if gone i then 0 else 1 := by
  rw [renumber, List.range_succ, List.countP_append, ← renumber, List.countP_singleton]
  cases gone i <;> rfl

theorem renumber_mono {i j : Nat} (h : i ≤ j) : renumber gone i ≤ renumber gone j := by
  induction h with
  | refl => exact Nat.le_refl _
  | step _ ih =>
    rw [renumber_succ]
    omega

variable {gone}

/-- Requests that are kept stay in their order. -/
theorem renumber_lt {i j : Nat} (hi : gone i = false) (h : i < j) :
    renumber gone i < renumber gone j := by
  have next : renumber gone (i + 1) = renumber gone i + 1 := by simp [renumber_succ, hi]
  have := renumber_mono gone (show i + 1 ≤ j from h)
  omega

theorem renumber_le_iff {i j : Nat} (hj : gone j = false) :
    renumber gone i ≤ renumber gone j ↔ i ≤ j := by
  refine ⟨fun le => Nat.le_of_not_lt fun lt => ?_, renumber_mono gone⟩
  have := renumber_lt hj lt
  omega

theorem renumber_inj {i j : Nat} (hi : gone i = false) (hj : gone j = false)
    (h : renumber gone i = renumber gone j) : i = j :=
  Nat.le_antisymm ((renumber_le_iff hj).1 (Nat.le_of_eq h))
    ((renumber_le_iff hi).1 (Nat.le_of_eq h.symm))

/-- The numbers that follow are given to those that are kept. -/
theorem renumber_range' (a n : Nat) :
    ((List.range' a n).filter fun i => !gone i).map (renumber gone) =
      List.range' (renumber gone a) (renumber gone (a + n) - renumber gone a) := by
  induction n generalizing a with
  | zero => simp
  | succ n ih =>
    have rest := ih (a + 1)
    rw [show a + 1 + n = a + (n + 1) by omega] at rest
    rw [List.range'_succ]
    cases away : gone a with
    | true =>
      have next : renumber gone (a + 1) = renumber gone a := by simp [renumber_succ, away]
      rw [List.filter_cons_of_neg (by simp [away]), rest, next]
    | false =>
      have next : renumber gone (a + 1) = renumber gone a + 1 := by simp [renumber_succ, away]
      have := renumber_mono gone (show a + 1 ≤ a + (n + 1) by omega)
      rw [List.filter_cons_of_pos (by simp [away]), List.map_cons, rest, next,
        show renumber gone (a + (n + 1)) - renumber gone a =
          renumber gone (a + (n + 1)) - (renumber gone a + 1) + 1 by omega, List.range'_succ]

/-- The requests seen in what is left of a session, as they are seen in the full one. -/
def View.cut (g : View) (gone : Nat → Bool) : View where
  number? i := if gone i then none else g.number? (renumber gone i)
  le_iff {i j m n} hi hj := by
    cases ki : gone i with
    | true => simp [ki] at hi
    | false =>
      cases kj : gone j with
      | true => simp [kj] at hj
      | false =>
        rw [if_neg (by simp [ki])] at hi
        rw [if_neg (by simp [kj])] at hj
        rw [g.le_iff hi hj, renumber_le_iff kj]

variable {g : View} {i : Nat}

theorem View.cut_gone (hi : gone i = true) : (g.cut gone).number? i = none := if_pos hi

theorem View.cut_kept (hi : gone i = false) :
    (g.cut gone).number? i = g.number? (renumber gone i) := if_neg (by simp [hi])

/-- Of all requests those are not seen that are gone. -/
theorem View.all_cut_eq_none : (all.cut gone).number? i = none ↔ gone i = true := by
  cases hi : gone i with
  | true => simp [cut_gone hi]
  | false => simp [cut_kept hi, all]

end

/-! ### Cuts -/

namespace World

variable (w : World) (gone : Nat → Bool)

/-- What is left of a step, given which requests are gone, and whether the step is left
    out as a whole. -/
def cutStep : Step × Bool → List Step
  | (_, true) => []
  | (.throttle name identifier times, false) =>
    let lost := (w.step (.throttle name identifier times)).2.result.issued.countP gone
    if lost = 0 then [.throttle name identifier times]
    else if lost = times then []
    else [.throttle name identifier (times - lost)]
  | (.dropHandle i, false) => if gone i then [] else [.dropHandle (renumber gone i)]
  | (s, false) => [s]

/-- What is left of a session that goes on from a world. -/
def cut (w : World) : List (Step × Bool) → List Step
  | [] => []
  | x :: rest => w.cutStep gone x ++ (w.step x.1).1.cut rest

theorem cut_append (before after : List (Step × Bool)) : w.cut gone (before ++ after) =
    w.cut gone before ++ (w.final (before.map Prod.fst)).cut gone after := by
  induction before generalizing w with
  | nil => rfl
  | cons x rest ih => simp only [List.cons_append, cut, ih, List.map_cons, final, List.append_assoc]

theorem cut_concat (before : List (Step × Bool)) (x : Step × Bool) : w.cut gone (before ++ [x]) =
    w.cut gone before ++ (w.final (before.map Prod.fst)).cutStep gone x := by
  rw [cut_append, cut, cut, List.append_nil]

end World

/-! ### Abreast -/

/-- The key of a request. -/
def World.key? (w : World) (i : Nat) : Option Key := (w.admissions[i]?).map Admission.key

/-- That two worlds are alike, one having the requests of the other that are not gone. -/
structure Abreast (gone : Nat → Bool) (g : View) (keys : String → Prop) (w v : World) : Prop where
  alike : Alike (g.cut gone) g keys w v
  size : v.admissions.size = renumber gone w.admissions.size
  key : ∀ {i : Nat}, gone i = false → w.key? i = v.key? (renumber gone i)

namespace World

variable {w w' : World} {l : Nat} {cell : LimiterCell} {identifier : String} {s : Step}

theorem Evolves.key_eq (e : Evolves w w') (size : w'.admissions.size = w.admissions.size)
    (i : Nat) : w'.key? i = w.key? i := by
  cases hi : w.admissions[i]? with
  | none =>
    have := Array.getElem?_eq_none_iff.1 hi
    rw [World.key?, Array.getElem?_eq_none (by omega), World.key?, hi]
  | some a =>
    obtain ⟨b, hb, hab⟩ := e.becomes hi
    rw [World.key?, hb, World.key?, hi, Option.map_some, Option.map_some, hab.key]

theorem Evolves.key_of_some (e : Evolves w w') {i : Nat} {key : Key} (h : w.key? i = some key) :
    w'.key? i = some key := by
  obtain ⟨a, ha, rfl⟩ := Option.map_eq_some_iff.1 h
  obtain ⟨b, hb, hab⟩ := e.becomes ha
  rw [World.key?, hb, Option.map_some, hab.key]

/-- There are as many requests more after a step as it issues. -/
theorem size_acted (w : World) (s : Step) : (w.acted s).admissions.size =
    w.admissions.size + (w.step s).2.result.issued.length := by
  obtain ⟨n, issued, size, -⟩ := w.issued_step s
  rw [size, issued, List.length_map, List.length_range]

theorem size_issue (w : World) :
    (w.issue l cell identifier).admissions.size = w.admissions.size + 1 := by
  simp [World.issue, enqueue]

/-- Where there is no such limiter, no request is issued. -/
theorem acted_throttle_none {name : String} (form : Identifier) (times : Nat)
    (hl : w.limiterNamed? name = none) : w.acted (.throttle name form times) = w.shown #[] ∧
      (w.step (.throttle name form times)).2.result = .missing .limiter := by
  have named : (w.shown #[]).limiterNamed? name = none := hl
  rw [show w.acted (.throttle name form times) =
      ((w.shown #[]).act (.throttle name form times)).1 from rfl,
    show (w.step (.throttle name form times)).2.result =
      ((w.shown #[]).act (.throttle name form times)).2 from rfl, act, named]
  exact ⟨rfl, rfl⟩

/-- A limiter issues as many requests as it is asked for. -/
theorem acted_throttle {name : String} (form : Identifier) (times : Nat) (running : w.running)
    (hl : w.limiterNamed? name = some (l, cell)) :
    w.acted (.throttle name form times) = (w.shown #[]).issueAll l cell form.render times ∧
      (w.step (.throttle name form times)).2.result =
        .requests (List.range' w.admissions.size times) := by
  have acted : w.acted (.throttle name form times) =
      ((w.shown #[]).act (.throttle name form times)).1 := rfl
  have result : (w.step (.throttle name form times)).2.result =
      ((w.shown #[]).act (.throttle name form times)).2 := rfl
  have named : (w.shown #[]).limiterNamed? name = some (l, cell) := hl
  have allowed : ((w.shown #[]).running || decide (times = 0)) = true := by
    rw [show (w.shown #[]).running = true from running, Bool.true_or]
  rw [acted, result, act, named]
  simp only [allowed, if_true, true_and]
  exact congrArg StepResult.requests List.range'_eq_map_range.symm

end World

namespace Abreast

open World

variable {gone : Nat → Bool} {g : View} {keys : String → Prop} {w v w' v' : World}

/-- Where no request is added, worlds that are alike are still abreast. -/
theorem of_evolves (h : Abreast gone g keys w v) (alike : Alike (g.cut gone) g keys w' v')
    (ew : Evolves w w') (sw : w'.admissions.size = w.admissions.size) (ev : Evolves v v')
    (sv : v'.admissions.size = v.admissions.size) : Abreast gone g keys w' v' where
  alike := alike
  size := by rw [sv, h.size, sw]
  key hi := by rw [ew.key_eq sw, h.key hi, ev.key_eq sv]

theorem shown (h : Abreast gone g keys w v) :
    Abreast gone g keys (w.shown #[]) (v.shown #[]) :=
  h.of_evolves { h.alike with told := rfl } (.of_eq rfl) rfl (.of_eq rfl) rfl

/-- The keys seen are those of the requests seen, if this is so in what is left. -/
theorem key_seen (h : Abreast gone g keys w v)
    (right : ∀ {j n : Nat} {b : Admission}, g.number? j = some n → v.admissions[j]? = some b →
      keys b.key.text)
    {i n : Nat} {a : Admission} (hi : (g.cut gone).number? i = some n)
    (ha : w.admissions[i]? = some a) : keys a.key.text := by
  cases kept : gone i with
  | true =>
    rw [View.cut_gone kept] at hi
    cases hi
  | false =>
    have hj := hi
    rw [View.cut_kept kept] at hj
    exact right hj ((h.alike.admission hi hj).symm.trans ha)

theorem issue_kept (h : Abreast gone g keys w v) (kept : gone w.admissions.size = false) (l : Nat)
    (cell : LimiterCell) (identifier : String) :
    Abreast gone g keys (w.issue l cell identifier) (v.issue l cell identifier) where
  alike := h.alike.issue (by rw [View.cut_kept kept, h.size]) ..
  size := by rw [size_issue, size_issue, renumber_succ, h.size, kept]; rfl
  key {i} hi := by
    rw [World.key?, World.key?, getElem?_issue, getElem?_issue, h.size]
    by_cases e : i = w.admissions.size
    · rw [if_pos e, if_pos (congrArg _ e)]
    · rw [if_neg e, if_neg fun e' => e (renumber_inj hi kept e')]
      exact h.key hi

theorem issue_gone (h : Abreast gone g keys w v) (away : gone w.admissions.size = true) (l : Nat)
    (cell : LimiterCell) (identifier : String) :
    Abreast gone g keys (w.issue l cell identifier) v where
  alike := (alike_issue (View.cut_gone away) ..).trans_left h.alike
  size := by rw [size_issue, renumber_succ, h.size, away]; rfl
  key {i} hi := by
    rw [World.key?, getElem?_issue, if_neg]
    · exact h.key hi
    · rintro rfl
      rw [away] at hi
      cases hi

/-- Of the requests that are issued those are issued that are not gone. -/
theorem issueAll (h : Abreast gone g keys w v) (l : Nat) (cell : LimiterCell) (identifier : String)
    (n : Nat) : Abreast gone g keys (w.issueAll l cell identifier n)
      (v.issueAll l cell identifier
        ((List.range' w.admissions.size n).countP fun i => !gone i)) := by
  induction n generalizing w v with
  | zero => exact h
  | succ n ih =>
    rw [List.range'_succ, World.issueAll]
    cases away : gone w.admissions.size with
    | false =>
      rw [List.countP_cons_of_pos (by simp [away]), World.issueAll]
      exact size_issue w ▸ ih (h.issue_kept away l cell identifier)
    | true =>
      rw [List.countP_cons_of_neg (by simp [away])]
      exact size_issue w ▸ ih (h.issue_gone away l cell identifier)

end Abreast

/-! ### Steps abreast -/

/-- That a step may be left out: all requests that it issues are gone, or what it looks up or
    stores is under a key that is not seen. -/
def Step.Omissible (gone : Nat → Bool) (keys : String → Prop) (w : World) : Step → Prop
  | .throttle name identifier times =>
    ∀ i ∈ (w.step (.throttle name identifier times)).2.result.issued, gone i
  | .put _ name _ _ | .get _ name => ∀ text, w.keyMeant? name = some text → ¬ keys text
  | _ => False

/-- What becomes of a world by what is left of a step: nothing, if nothing is left, or what
    the one step left makes of it, before the tasks have their turns. -/
inductive CutTo (v : World) (told : Prop) (result : StepResult) : List Step → World → Prop
  | nothing : CutTo v told result [] (v.shown #[])
  | step {s : Step} : s.Flows v → (told → (v.step s).2.result = result) →
      CutTo v told result [s] (v.acted s)

namespace Abreast

open World

variable {gone : Nat → Bool} {g : View} {keys : String → Prop} {w v v' : World}

theorem of_acted {s : Step} (h : Abreast gone g keys (w.shown #[]) v)
    (hs : ∀ name identifier times, s ≠ .throttle name identifier times)
    (alike : Alike (g.cut gone) g keys (w.acted s) v') (ev : Evolves v v')
    (sv : v'.admissions.size = v.admissions.size) : Abreast gone g keys (w.acted s) v' := by
  have size : (w.acted s).admissions.size = w.admissions.size := by
    rw [size_acted, show (w.step s).2.result.issued = [] from issued_act _ hs]
    rfl
  exact h.of_evolves alike (evolves_acted (w.shown #[]) s) size ev sv

/-- To leave out a step for keys that are not seen leaves worlds abreast. -/
theorem act_omitted {s : Step} (h : Abreast gone g keys (w.shown #[]) (v.shown #[]))
    (omissible : s.Omissible gone keys w) (running : w.running) :
    Abreast gone g keys (w.acted s) (v.shown #[]) := by
  have aside (hs : ∀ name identifier times, s ≠ .throttle name identifier times)
      (alike : Alike (g.cut gone) (g.cut gone) keys (w.acted s) (w.shown #[])) :
      Abreast gone g keys (w.acted s) (v.shown #[]) :=
    h.of_acted hs (alike.trans_left h.alike) (.of_eq rfl) rfl
  cases s with
  | throttle name form times =>
    cases hl : w.limiterNamed? name with
    | none =>
      rw [(acted_throttle_none form times hl).1]
      exact h
    | some x =>
      obtain ⟨l, cell⟩ := x
      obtain ⟨acted, result⟩ := acted_throttle form times running hl
      have all := h.issueAll l cell form.render times
      have none :
          ((List.range' (w.shown #[]).admissions.size times).countP fun i => !gone i) = 0 := by
        refine List.countP_eq_zero.2 fun i hi => ?_
        simp [omissible i (by rw [result]; exact hi)]
      rw [none] at all
      rw [acted]
      exact all
  | put cache key value lifetime =>
    refine aside nofun (alike_withEntry fun {c x text} ht hx => ?_)
    split
    · exact .refl ..
    · rename_i store hs
      exact alike_setStore hx (.of_set? hs (omissible text ht))
  | get cache key =>
    exact aside nofun (alike_withEntry fun {c x text} _ hx => alike_setStore hx (.get ..))
  | _ => exact omissible.elim

/-- Requests are issued abreast, as far as they are not gone. -/
theorem act_throttle {name : String} {form : Identifier} {times : Nat} {told : Prop}
    (h : Abreast gone g keys (w.shown #[]) (v.shown #[])) (running : w.running)
    (silent : ¬ told) {result : StepResult} :
    ∃ v', CutTo v told result (w.cutStep gone (.throttle name form times, false)) v' ∧
      Abreast gone g keys (w.acted (.throttle name form times)) v' := by
  have step (k : Nat) :
      CutTo v told result [.throttle name form k] (v.acted (.throttle name form k)) :=
    .step trivial fun told => (silent told).elim
  have same := h.alike.limiterNamed? name
  cases hl : w.limiterNamed? name with
  | none =>
    have named : v.limiterNamed? name = none := same.symm.trans hl
    obtain ⟨acted, missing⟩ := acted_throttle_none form times hl
    refine ⟨v.acted (.throttle name form times), ?_, ?_⟩
    · simp only [cutStep, missing, StepResult.issued, List.countP_nil, if_true]
      exact step times
    · rw [acted, (acted_throttle_none form times named).1]
      exact h
  | some x =>
    obtain ⟨l, cell⟩ := x
    have named : v.limiterNamed? name = some (l, cell) := same.symm.trans hl
    have running' : v.running := h.alike.running.symm.trans running
    obtain ⟨acted, requests⟩ := acted_throttle form times running hl
    have all : Abreast gone g keys ((w.shown #[]).issueAll l cell form.render times)
        ((v.shown #[]).issueAll l cell form.render
          ((List.range' w.admissions.size times).countP fun i => !gone i)) := h.issueAll ..
    have count :=
      List.length_eq_countP_add_countP gone (l := List.range' w.admissions.size times)
    simp only [List.length_range', decide_not, Bool.decide_eq_true] at count
    simp only [cutStep, requests, StepResult.issued]
    generalize (List.range' w.admissions.size times).countP gone = lost at count ⊢
    rw [show ((List.range' w.admissions.size times).countP fun i => !gone i) = times - lost by
      omega] at all
    rw [acted]
    -- All of them are left, or none, or some.
    split
    · rename_i none
      rw [none, Nat.sub_zero] at all
      exact ⟨_, step times, by rw [(acted_throttle form _ running' named).1]; exact all⟩
    · split
      · rename_i each
        rw [each, Nat.sub_self] at all
        exact ⟨_, .nothing, all⟩
      · exact ⟨_, step (times - lost), by rw [(acted_throttle form _ running' named).1]; exact all⟩

/-- The answer to a request is given up on abreast, if it is not gone. -/
theorem act_dropHandle (h : Abreast gone g keys (w.shown #[]) (v.shown #[])) (i : Nat) :
    ∃ v', CutTo v (Step.Told (g.cut gone) keys w (.dropHandle i))
        (w.step (.dropHandle i)).2.result (w.cutStep gone (.dropHandle i, false)) v' ∧
      Abreast gone g keys (w.acted (.dropHandle i)) v' := by
  have acted (u : World) (j : Nat) :
      u.acted (.dropHandle j) = ((u.shown #[]).dropHandle j).1 := rfl
  have result (u : World) (j : Nat) :
      (u.step (.dropHandle j)).2.result = .flag ((u.shown #[]).dropHandle j).2 := rfl
  have size (u : World) (j : Nat) : (u.acted (.dropHandle j)).admissions.size =
      (u.shown #[]).admissions.size := by
    rw [size_acted, result]
    rfl
  have done {v' : World} (alike : Alike (g.cut gone) g keys (w.acted (.dropHandle i)) v')
      (ev : Evolves (v.shown #[]) v')
      (sv : v'.admissions.size = (v.shown #[]).admissions.size) :
      Abreast gone g keys (w.acted (.dropHandle i)) v' := h.of_acted nofun alike ev sv
  cases away : gone i with
  | true =>
    rw [show w.cutStep gone (.dropHandle i, false) = [] from if_pos away]
    refine ⟨_, .nothing, done (Alike.trans_left ?_ h.alike) (.of_eq rfl) rfl⟩
    exact alike_dropHandle (View.cut_gone away)
  | false =>
    rw [show w.cutStep gone (.dropHandle i, false) = [.dropHandle (renumber gone i)] from
      if_neg (by simp [away])]
    have ev := evolves_acted (v.shown #[]) (.dropHandle (renumber gone i))
    refine ⟨_, .step trivial fun told => ?_, done ?_ ev (size v _)⟩
    · obtain ⟨n, hn⟩ := Option.ne_none_iff_exists'.1 told
      rw [result, result, (h.alike.dropHandle hn (View.cut_kept away ▸ hn)).2]
    · rw [acted, acted]
      cases hn : (g.cut gone).number? i with
      | none =>
        -- Nothing is seen of it in either world.
        have right : Alike g g keys ((v.shown #[]).dropHandle (renumber gone i)).1 (v.shown #[]) :=
          alike_dropHandle (View.cut_kept away ▸ hn)
        exact ((alike_dropHandle hn).trans_left h.alike).trans_right right
      | some n => exact (h.alike.dropHandle hn (View.cut_kept away ▸ hn)).1

/-- A step, and what is left of it, leave worlds abreast. -/
theorem act {s : Step} (h : Abreast gone g keys (w.shown #[]) (v.shown #[])) (hs : s.Flows w)
    (running : w.running)
    (free : ∀ {c : Nat} {x : CacheCell}, w.caches[c]? = some x → x.parked = [])
    (free' : ∀ {c : Nat} {y : CacheCell}, v.caches[c]? = some y → y.parked = []) :
    ∃ v', CutTo v (s.Told (g.cut gone) keys w) (w.step s).2.result (w.cutStep gone (s, false)) v' ∧
      Abreast gone g keys (w.acted s) v' := by
  by_cases throttle : ∃ name form times, s = .throttle name form times
  · obtain ⟨name, form, times, rfl⟩ := throttle
    exact h.act_throttle running id
  have throttle : ∀ name form times, s ≠ .throttle name form times :=
    fun _ _ _ e => throttle ⟨_, _, _, e⟩
  by_cases drop : ∃ i, s = .dropHandle i
  · obtain ⟨i, rfl⟩ := drop
    exact h.act_dropHandle i
  · have drop : ∀ i, s ≠ .dropHandle i := fun _ e => drop ⟨_, e⟩
    have left : w.cutStep gone (s, false) = [s] := by
      cases s with
      | throttle => exact absurd rfl (throttle _ _ _)
      | dropHandle => exact absurd rfl (drop _)
      | _ => rfl
    have both := h.alike.act hs throttle drop free free'
    rw [left]
    refine ⟨v.acted s, .step (h.alike.flows hs) fun told => (both.result told).symm, ?_⟩
    refine h.of_acted throttle both.world (evolves_acted (v.shown #[]) s) ?_
    rw [size_acted, show (v.step s).2.result.issued = [] from issued_act _ throttle]
    rfl

end Abreast

/-! ### Sessions abreast -/

/-- That the requests of a world that are seen are those for the keys seen. -/
structure World.Fits (f : View) (keys : String → Prop) (w : World) : Prop where
  seen_iff : ∀ {i : Nat} {key : Key}, w.key? i = some key →
    ((f.number? i).isSome ↔ keys key.text)

/-- That two sessions have come to worlds that are abreast, in which no task can go on. -/
structure Together (gone : Nat → Bool) (g : View) (keys : String → Prop) (w v : World) :
    Prop where
  left : w.Viewed (g.cut gone) keys
  right : v.Viewed g keys
  settled_left : w.ready = []
  settled_right : v.ready = []
  abreast : Abreast gone g keys (w.shown #[]) (v.shown #[])

/-- That a step of a session, and what is left of it in the other, show the same: the
    requests that are kept are issued, those seen are answered alike, and the results are
    the same that are told. -/
structure ShownAlike (gone : Nat → Bool) (g : View) (keys : String → Prop) (w v : World)
    (x : Step × Bool) : Prop where
  issued : ((w.step x.1).2.result.issued.filter fun i => !gone i).map (renumber gone) =
    issued (v.run (w.cutStep gone x))
  outcomes : (w.step x.1).2.outcomes.filterMap (g.cut gone).answer? =
    ((v.run (w.cutStep gone x)).flatMap Report.outcomes).filterMap g.answer?
  result : x.1.Told (g.cut gone) keys w →
    ∀ report ∈ v.run (w.cutStep gone x), report.result = (w.step x.1).2.result

open World

section

variable {f : View} {keys : String → Prop} {w v v' : World}

/-- In a world that flows nobody is parked. -/
theorem World.Viewed.parked (k : w.Viewed f keys) {c : Nat} {x : CacheCell}
    (hx : w.caches[c]? = some x) : x.parked = [] := by
  have nobody := k.orderly.parked_eq_nil k.flowing.outside c
  rwa [World.parked, hx] at nobody

theorem World.viewed_shown : (w.shown #[]).Viewed f keys ↔ w.Viewed f keys := by
  constructor
  · intro k
    exact ⟨k.orderly.frame (.of_same rfl rfl rfl rfl rfl) k.orderly.cell_cache_lt,
      k.tidy.mono (Nat.le_refl _) fun _ => Nat.le_refl _,
      ⟨k.flowing.running, k.flowing.opened, k.flowing.outside⟩, k.key⟩
  · intro k
    exact ⟨k.orderly.frame (.of_same rfl rfl rfl rfl rfl) k.orderly.cell_cache_lt,
      k.tidy.mono (Nat.le_refl _) fun _ => Nat.le_refl _,
      ⟨k.flowing.running, k.flowing.opened, k.flowing.outside⟩, k.key⟩

theorem World.Viewed.acted {s : Step} (k : w.Viewed f keys) (hs : s.Flows w)
    (key : ∀ {i n : Nat} {a : Admission}, f.number? i = some n →
      (w.acted s).admissions[i]? = some a → keys a.key.text) : (w.acted s).Viewed f keys where
  orderly := k.orderly.acted s
  tidy := k.tidy.acted s
  flowing := k.flowing.acted hs
  key := key

/-- What fits later fits now: no request is lost. -/
theorem World.Fits.of_evolves (fits : v.Fits f keys) (e : Evolves w v) : w.Fits f keys :=
  ⟨fun h => fits.seen_iff (e.key_of_some h)⟩

theorem World.Fits.key (fits : w.Fits f keys) {i n : Nat} {a : Admission}
    (hi : f.number? i = some n) (ha : w.admissions[i]? = some a) : keys a.key.text :=
  (fits.seen_iff (show w.key? i = some a.key by rw [World.key?, ha]; rfl)).1 (by rw [hi]; rfl)

/-- The turns leave the requests as they are. -/
theorem World.Orderly.key_turns (o : w.Orderly) {n : Nat} {m : Moment} (hm : m ∈ turns n w)
    (i : Nat) : m.world.key? i = w.key? i := by
  have c : Course (fun _ _ => False) w (turns n w) (World.takeTurns n w) := .of_turns ..
  obtain ⟨_, _, -, c, -⟩ := c.before hm
  exact (c.evolves o).key_eq (Answered.course o c).size i

/-- Where the requests seen are those for the keys seen, the others spare them. -/
theorem World.Fits.spares (fits : w.Fits f keys) (o : w.Orderly) {m : Moment}
    (hm : m ∈ w.settling) : m.Spares f keys := by
  refine .of_key fun {i a} _ hi ha hk => ?_
  have key : w.key? i = some a.key := by
    rw [← o.key_turns hm, World.key?, ha]
    rfl
  have seen := (fits.seen_iff key).2 hk
  rw [hi] at seen
  cases seen

/-- The turns add no requests. -/
theorem World.Orderly.evolves_settle (o : w.Orderly) :
    Evolves w w.settle ∧ w.settle.admissions.size = w.admissions.size := by
  have c : Course (fun _ _ => False) w w.settling w.settle := .of_turns ..
  exact ⟨c.evolves o, (Answered.course o c).size⟩

variable {told : Prop} {shown : StepResult} {left : List Step}

/-- What is left of a step leads to the world that its turns lead to. -/
theorem CutTo.final (h : CutTo v told shown left v') (settled : v.ready = []) :
    (v.final left).shown #[] = v'.settle.shown #[] := by
  cases h with
  | nothing =>
    rw [settle, takeTurns_of_ready_nil (show (v.shown #[]).ready = [] from settled)]
    rfl
  | step => rfl

/-- What is received is what is reported of the step that is left. -/
theorem CutTo.outcomes (h : CutTo v told shown left v') (settled : v.ready = []) :
    (v.run left).flatMap Report.outcomes = v'.settle.received := by
  cases h with
  | nothing =>
    rw [settle, takeTurns_of_ready_nil (show (v.shown #[]).ready = [] from settled)]
    simp [run, received, World.shown]
  | step => exact List.append_nil _

theorem CutTo.result (h : CutTo v told shown left v') (ht : told) :
    ∀ report ∈ v.run left, report.result = shown := by
  cases h with
  | nothing => simp [run]
  | step _ hr =>
    intro report hm
    rw [List.mem_singleton.1 hm]
    exact hr ht

theorem World.issued_eq (w : World) (s : Step) : (w.step s).2.result.issued =
    List.range' w.admissions.size ((w.acted s).admissions.size - w.admissions.size) := by
  obtain ⟨n, issued, size, -⟩ := w.issued_step s
  rw [issued, size, Nat.add_sub_cancel_left, List.range'_eq_map_range]

theorem CutTo.issued (h : CutTo v told shown left v') : issued (v.run left) =
    List.range' v.admissions.size (v'.admissions.size - v.admissions.size) := by
  cases h with
  | nothing => simp [run, Turnstile.issued, World.shown]
  | step => simpa [run, Turnstile.issued] using v.issued_eq _

theorem CutTo.viewed (h : CutTo v told shown left v') (k : v.Viewed f keys)
    (fits : (v.final left).Fits f keys) : v'.Viewed f keys ∧ v'.Fits f keys := by
  cases h with
  | nothing => exact ⟨viewed_shown.2 k, ⟨fun h => fits.seen_iff h⟩⟩
  | @step s flows =>
    have fits' : (v.acted s).Fits f keys := fits.of_evolves (k.orderly.acted s).evolves_settle.1
    exact ⟨k.acted flows fits'.key, fits'⟩

end

/-- Where the requests seen in what is left of a session are those for the keys seen, only
    those that are gone may not spare them in the full one. -/
theorem Abreast.spares {gone : Nat → Bool} {g : View} {keys : String → Prop} {w v : World}
    (h : Abreast gone g keys w v) (fits : v.Fits g keys) (o : w.Orderly) {m : Moment}
    (hm : m ∈ w.settling) (spares : m.Spares (View.all.cut gone) keys) :
    m.Spares (g.cut gone) keys := by
  refine ⟨fun {i a cell} ht hi ha hp hc => ?_⟩
  cases away : gone i with
  | true => exact spares.entering ht (View.cut_gone away) ha hp hc
  | false =>
    have other : m.Spares (g.cut gone) keys := by
      refine .of_key fun {j b} hj _ hb hk => ?_
      obtain rfl : i = j := by
        rw [ht] at hj
        cases hj
        rfl
      have key : v.key? (renumber gone i) = some b.key := by
        rw [← h.key away, ← o.key_turns hm, World.key?, hb]
        rfl
      have seen := (fits.seen_iff key).2 hk
      rw [← View.cut_kept away, hi] at seen
      cases seen
    exact other.entering ht hi ha hp hc

namespace Together

variable {gone : Nat → Bool} {g : View} {keys : String → Prop} {w v : World} {x : Step × Bool}

/-- A step, or its omission, leaves worlds abreast. -/
theorem act (h : Together gone g keys w v) (flows : x.1.Flows w)
    (omissible : x.2 → x.1.Omissible gone keys w) :
    ∃ v', CutTo v (x.1.Told (g.cut gone) keys w) (w.step x.1).2.result (w.cutStep gone x) v' ∧
      Abreast gone g keys (w.acted x.1) v' := by
  obtain ⟨s, out⟩ := x
  cases out with
  | true => exact ⟨_, .nothing, h.abreast.act_omitted (omissible rfl) h.left.flowing.running⟩
  | false =>
    exact h.abreast.act flows h.left.flowing.running (fun hx => h.left.parked hx)
      fun hy => h.right.parked hy

/-- After a step and its turns sessions are together again, and have shown the same, if
    the requests that are gone spare the keys seen. -/
theorem step (h : Together gone g keys w v) (flows : x.1.Flows w)
    (omissible : x.2 → x.1.Omissible gone keys w)
    (fits : (v.final (w.cutStep gone x)).Fits g keys)
    (spares : ∀ m ∈ (w.acted x.1).settling, m.Spares (View.all.cut gone) keys) :
    Together gone g keys (w.step x.1).1 (v.final (w.cutStep gone x)) ∧
      ShownAlike gone g keys w v x := by
  obtain ⟨v', cutTo, acted⟩ := h.act flows omissible
  obtain ⟨kv, fits'⟩ := cutTo.viewed h.right fits
  have final := cutTo.final h.settled_right
  have kw : (w.acted x.1).Viewed (g.cut gone) keys := h.left.acted flows (acted.key_seen kv.key)
  have settled : Alike (g.cut gone) g keys (w.step x.1).1 v'.settle :=
    acted.alike.settle kw kv (fun m hm => acted.spares fits' kw.orderly hm (spares m hm))
      fun m hm => fits'.spares kv.orderly hm
  obtain ⟨ew, sw⟩ := kw.orderly.evolves_settle
  obtain ⟨ev, sv⟩ := kv.orderly.evolves_settle
  refine ⟨⟨kw.settle, ?_, settle_settled kw.orderly kw.tidy, ?_, ?_⟩, ⟨?_, ?_, cutTo.result⟩⟩
  · rw [← viewed_shown, final, viewed_shown]
    exact kv.settle
  · have ready : ((v.final (w.cutStep gone x)).shown #[]).ready = (v'.settle.shown #[]).ready :=
      congrArg World.ready final
    exact ready.trans (settle_settled kv.orderly kv.tidy)
  · rw [final]
    exact (acted.of_evolves settled ew sw ev sv).shown
  · have before : v.admissions.size = renumber gone w.admissions.size := h.abreast.size
    have := (evolves_acted w x.1).size_le
    rw [issued_eq, renumber_range', cutTo.issued, acted.size, before, Nat.add_sub_cancel' this]
  · rw [cutTo.outcomes h.settled_right, ← settled.received]
    rfl

end Together

/-- That the steps that are left out of a session are steps that may be. -/
def World.Omits (ok : World → Step → Prop) (w : World) : List (Step × Bool) → Prop
  | [] => True
  | x :: rest => (x.2 → ok w x.1) ∧ (w.step x.1).1.Omits ok rest

instance World.instDecidableOmits (ok : World → Step → Prop) [∀ w s, Decidable (ok w s)]
    (w : World) (steps : List (Step × Bool)) : Decidable (w.Omits ok steps) :=
  match steps with
  | [] => isTrue trivial
  | x :: rest =>
    have : Decidable ((w.step x.1).1.Omits ok rest) := instDecidableOmits ok (w.step x.1).1 rest
    inferInstanceAs (Decidable ((x.2 → ok w x.1) ∧ (w.step x.1).1.Omits ok rest))

theorem World.omits_append {ok : World → Step → Prop} {w : World}
    {before after : List (Step × Bool)} : w.Omits ok (before ++ after) ↔
      w.Omits ok before ∧ (w.final (before.map Prod.fst)).Omits ok after := by
  induction before generalizing w with
  | nil => exact iff_of_eq (true_and _).symm
  | cons x rest ih => simp only [List.cons_append, Omits, ih, List.map_cons, final, and_assoc]

/-- No request is lost in a session. -/
theorem World.Orderly.evolves_final {w : World} (o : w.Orderly) (steps : List Step) :
    (w.final steps).Orderly ∧ Evolves w (w.final steps) := by
  have c := course_history (w.along_true steps)
  exact ⟨c.orderly o, c.evolves o⟩

namespace Together

variable {gone : Nat → Bool} {g : View} {keys : String → Prop} {w v : World}
  {steps before after : List (Step × Bool)} {x : Step × Bool}

theorem starting (gone : Nat → Bool) (g : View) (keys : String → Prop) (wall : Int) :
    Together gone g keys (starting wall) (starting wall) := by
  have viewed (f : View) : (World.starting wall).Viewed f keys :=
    ⟨orderly_starting wall, tidy_starting wall, flowing_starting wall,
      fun _ ha => by simp [World.starting] at ha⟩
  refine ⟨viewed _, viewed _, rfl, rfl, ⟨?_, rfl, fun _ => rfl⟩⟩
  exact { Alike.refl g keys ((World.starting wall).shown #[]) with
    admission := fun _ _ => by simp [World.starting, World.shown]
    queue := rfl
    schedule := rfl
    told := rfl }

/-- A session and what is left of it are together at their ends. -/
theorem final (h : Together gone g keys w v) (flows : w.Along Step.Flows (steps.map Prod.fst))
    (omits : w.Omits (Step.Omissible gone keys) steps)
    (fits : (v.final (w.cut gone steps)).Fits g keys)
    (spares : ∀ m ∈ w.history (steps.map Prod.fst), m.Spares (View.all.cut gone) keys) :
    Together gone g keys (w.final (steps.map Prod.fst)) (v.final (w.cut gone steps)) := by
  -- By induction on the steps: each leaves the sessions together.
  induction steps generalizing w v with
  | nil => exact h
  | cons x rest ih =>
    simp only [List.map_cons, World.final, cut, final_append] at fits ⊢
    have orderly := (h.right.orderly.evolves_final (w.cutStep gone x)).1
    have next := (h.step flows.1 omits.1
      (fits.of_evolves (orderly.evolves_final _).2)
      fun m hm => spares m (List.mem_append_left _ hm)).1
    exact ih next flows.2 omits.2 fits
      fun m hm => spares m (List.mem_append_right _ hm)

/-- They show the same of every step. -/
theorem shownAlike (h : Together gone g keys w v) (flows : w.Along Step.Flows (steps.map Prod.fst))
    (omits : w.Omits (Step.Omissible gone keys) steps)
    (fits : (v.final (w.cut gone steps)).Fits g keys)
    (spares : ∀ m ∈ w.history (steps.map Prod.fst), m.Spares (View.all.cut gone) keys)
    (split : steps = before ++ x :: after) :
    ShownAlike gone g keys (w.final (before.map Prod.fst)) (v.final (w.cut gone before)) x := by
  subst split
  rw [List.map_append, List.map_cons, history_append, history] at spares
  rw [cut_append, cut, final_append, final_append] at fits
  rw [List.map_append, List.map_cons, along_append] at flows
  rw [omits_append] at omits
  have o := (h.right.orderly.evolves_final (w.cut gone before)).1
  have o' := (o.evolves_final ((w.final (before.map Prod.fst)).cutStep gone x)).1
  have fits' := fits.of_evolves (o'.evolves_final _).2
  have there := h.final flows.1 omits.1
    (fits'.of_evolves (o.evolves_final _).2)
    fun m hm => spares m (List.mem_append_left _ hm)
  exact (there.step flows.2.1 omits.2.1 fits' fun m hm =>
    spares m (List.mem_append_right _ (List.mem_append_left _ hm))).2

end Together

end Turnstile
