import Turnstile.Proofs.Session.Faultless

/-!
# Which limiters are made

To make a limiter takes five checks, and each of them is a bound on a number, but for the
last one: whether there is randomness for the salt. What is wrong is told by the first check
that fails.

* `Timestamp.lastNanos`: the last nanosecond that the wall clock can be read at, and that a
  threshold may reach;
* `Draft.Passes`, `Draft.Fails`: what the checks say of a draft, and of which kind the error
  is;
* `Draft.make_of_fits`, `Draft.make_of_failsFirst`: a draft that passes them all is made, and
  one that does not ends with the first error, so what is made is known from the numbers
  (`make_eq_ok_iff`, `make_eq_error_iff`);
* `limiter_acceptance`: also what is logged of it, by itself and in a session, and that
  settings are no more than their spans.
-/

namespace Turnstile

/-! ### The range of the wall clock -/

/-- The count of the last timestamp. -/
def Timestamp.lastNanos : Int := lastSecond * 1000000000 + 999999999

theorem Timestamp.inRange_ofNanos_iff {n : Int} (h : 0 ≤ n) :
    (ofNanos n).InRange ↔ n ≤ lastNanos := by
  simp only [InRange, ofNanos, firstSecond, lastSecond, lastNanos]
  omega

/-- From the epoch on, a sum is none exactly if it is past the last timestamp. -/
theorem Timestamp.isNone_add?_iff {n : Int} (h : 0 ≤ n) (d : Span) :
    ((ofNanos n).add? d).isNone ↔ lastNanos < n + d.nanos := by
  have range := inRange_ofNanos_iff (n := n + d.nanos) (by omega)
  rw [add?, later_ofNanos]
  split <;> simp_all

/-- What is read off the wall clock. -/
theorem Clock.read_eq (k : Clock) : k.read =
    if k.wall < 0 then .error (.beforeEpoch ⟨k.wall.natAbs⟩)
    else if k.wall ≤ Timestamp.lastNanos then .ok (.ofNanos k.wall)
    else .error .pastLastTimestamp := by
  unfold read
  split
  · rfl
  · simp only [Timestamp.inRange_ofNanos_iff (Int.not_lt.1 ‹_›)]

namespace Limiter

/-! ### Checks -/

/-- What a limiter is to be made of. -/
structure Draft where
  threshold : Span
  deadline : Span
  /-- The clocks at that time. -/
  clock : Clock
  /-- The outcome of drawing a salt. -/
  salt : Except SystemError Salt

/-- What is checked of a draft. -/
inductive Check
  | threshold
  | deadline
  | clock
  | reach
  | salt
deriving DecidableEq, Repr

/-- The checks in their order. -/
def Check.order : List Check := [.threshold, .deadline, .clock, .reach, .salt]

/-- Of which kind an error is. -/
inductive ErrorKind
  | settings
  | fault
  | randomness
deriving DecidableEq, Repr

/-- The kind of the errors of a check. -/
def Check.kind : Check → ErrorKind
  | threshold | deadline | reach => .settings
  | clock => .fault
  | salt => .randomness

/-- The kind of an error, as it is shown: what is wrong with the settings is said to be so,
    a lack of randomness has a cause, and a fault is neither. -/
def ErrorKind.Shows (e : LimiterError) : ErrorKind → Prop
  | settings => (∃ text, e.message = LimiterError.settingsHeading ++ text) ∧ e.cause? = none
  | fault => ∃ f, e = .clock f
  | randomness => ∃ cause, e = .noSalt cause

namespace Draft

/-- The limiter that is made, or the error. -/
def make (d : Draft) : Except LimiterError Limiter :=
  Limiter.make d.threshold d.deadline d.clock.read d.salt

/-- The longest span that passes, in nanoseconds: a signed word of milliseconds. -/
def longest : Nat := (2 ^ 63 - 1) * 1000000

/-- That a draft passes a check. -/
def Passes (d : Draft) : Check → Prop
  | .threshold => d.threshold.nanos ≤ longest
  | .deadline => d.deadline.nanos ≤ longest
  | .clock => 0 ≤ d.clock.wall ∧ d.clock.wall ≤ Timestamp.lastNanos
  | .reach => d.clock.wall + d.threshold.nanos ≤ Timestamp.lastNanos
  | .salt => ∃ salt, d.salt = .ok salt

/-- That a draft fails at a check with an error. -/
inductive Fails (d : Draft) : Check → LimiterError → Prop
  | threshold : longest < d.threshold.nanos → Fails d .threshold (.thresholdOutOfRange d.threshold)
  | deadline : longest < d.deadline.nanos → Fails d .deadline (.deadlineOutOfRange d.deadline)
  | early : d.clock.wall < 0 → Fails d .clock (.clock (.beforeEpoch ⟨d.clock.wall.natAbs⟩))
  | late : Timestamp.lastNanos < d.clock.wall → Fails d .clock (.clock .pastLastTimestamp)
  | reach : Timestamp.lastNanos < d.clock.wall + d.threshold.nanos →
    Fails d .reach (.thresholdPastEnd d.threshold)
  | salt {cause : SystemError} : d.salt = .error cause → Fails d .salt (.noSalt cause)

/-- That a check is the first one that a draft fails at. -/
structure FailsFirst (d : Draft) (c : Check) (e : LimiterError) : Prop where
  fails : d.Fails c e
  before : ∀ b, Check.order.idxOf b < Check.order.idxOf c → d.Passes b

/-- That a draft passes all checks, with a salt. -/
structure Fits (d : Draft) (salt : Salt) : Prop where
  threshold : d.threshold.nanos ≤ longest
  deadline : d.deadline.nanos ≤ longest
  present : 0 ≤ d.clock.wall
  future : d.clock.wall + d.threshold.nanos ≤ Timestamp.lastNanos
  salt : d.salt = .ok salt

variable {d : Draft} {c : Check} {e : LimiterError}

/-- A check is either passed or failed. -/
theorem passes_iff : d.Passes c ↔ ∀ e, ¬ d.Fails c e := by
  constructor
  · rintro passes e fails
    cases fails with
    | threshold h => exact Nat.not_lt.2 passes h
    | deadline h => exact Nat.not_lt.2 passes h
    | early h => exact Int.not_lt.2 passes.1 h
    | late h => exact Int.not_lt.2 passes.2 h
    | reach h => exact Int.not_lt.2 passes h
    | salt h =>
      obtain ⟨salt, ok⟩ := passes
      rw [ok] at h
      cases h
  · intro none
    cases c with
    | threshold => exact Nat.not_lt.1 fun h => none _ (.threshold h)
    | deadline => exact Nat.not_lt.1 fun h => none _ (.deadline h)
    | clock => exact ⟨Int.not_lt.1 fun h => none _ (.early h), Int.not_lt.1 fun h => none _ (.late h)⟩
    | reach => exact Int.not_lt.1 fun h => none _ (.reach h)
    | salt =>
      cases salt : d.salt with
      | ok s => exact ⟨s, salt⟩
      | error cause => exact absurd (.salt salt) (none _)

/-- The error of a check is of its kind. -/
theorem shows_of_fails (fails : d.Fails c e) : c.kind.Shows e := by
  have outOfRange (name : String) (d : Span) :
      ∃ text, LimiterError.outOfRange name d = LimiterError.settingsHeading ++ text :=
    ⟨_, by rw [LimiterError.outOfRange, String.append_assoc, String.append_assoc,
      String.append_assoc]⟩
  cases fails with
  | threshold => exact And.intro (outOfRange "threshold" d.threshold) rfl
  | deadline => exact And.intro (outOfRange "deadline" d.deadline) rfl
  | reach =>
    refine And.intro ⟨"threshold " ++ d.threshold.text ++
      " reaches past the latest representable timestamp", ?_⟩ rfl
    rw [← String.append_assoc, ← String.append_assoc]
    rfl
  | early | late => exact ⟨_, rfl⟩
  | salt => exact ⟨_, rfl⟩

/-! ### What is made -/

/-- What is made of a draft, in numbers. -/
theorem make_eq (d : Draft) : d.make =
    if longest < d.threshold.nanos then .error (.thresholdOutOfRange d.threshold)
    else if longest < d.deadline.nanos then .error (.deadlineOutOfRange d.deadline)
    else if d.clock.wall < 0 then .error (.clock (.beforeEpoch ⟨d.clock.wall.natAbs⟩))
    else if Timestamp.lastNanos < d.clock.wall then .error (.clock .pastLastTimestamp)
    else if Timestamp.lastNanos < d.clock.wall + d.threshold.nanos then
      .error (.thresholdPastEnd d.threshold)
    else match d.salt with
      | .error cause => .error (.noSalt cause)
      | .ok salt => .ok ⟨d.threshold, d.deadline, salt⟩ := by
  simp only [make, Limiter.make, gt_iff_lt, show Span.longestOffset.nanos = longest from rfl,
    Clock.read_eq]
  split
  · rfl
  split
  · rfl
  by_cases early : d.clock.wall < 0
  · simp only [early, if_true]
  by_cases late : Timestamp.lastNanos < d.clock.wall
  · simp only [early, late, Int.not_le.2 late, if_true, if_false]
  · have range := Timestamp.isNone_add?_iff (Int.not_lt.1 early) d.threshold
    cases d.salt <;> simp only [early, late, Int.not_lt.1 late, if_true, if_false, range]

theorem make_of_fits {salt : Salt} (h : d.Fits salt) :
    d.make = .ok ⟨d.threshold, d.deadline, salt⟩ := by
  have := h.present
  have := h.future
  rw [make_eq, if_neg (Nat.not_lt.2 h.threshold), if_neg (Nat.not_lt.2 h.deadline),
    if_neg (Int.not_lt.2 h.present), if_neg (by omega), if_neg (Int.not_lt.2 h.future), h.salt]

theorem make_of_failsFirst (h : d.FailsFirst c e) : d.make = .error e := by
  obtain ⟨fails, before⟩ := h
  cases fails with
  | threshold long => rw [make_eq, if_pos long]
  | deadline long =>
    rw [make_eq, if_neg (Nat.not_lt.2 (before .threshold (by decide))), if_pos long]
  | early early =>
    rw [make_eq, if_neg (Nat.not_lt.2 (before .threshold (by decide))),
      if_neg (Nat.not_lt.2 (before .deadline (by decide))), if_pos early]
  | late late =>
    have : 0 ≤ Timestamp.lastNanos := by decide
    rw [make_eq, if_neg (Nat.not_lt.2 (before .threshold (by decide))),
      if_neg (Nat.not_lt.2 (before .deadline (by decide))), if_neg (by omega), if_pos late]
  | reach far =>
    obtain ⟨present, readable⟩ := before .clock (by decide)
    rw [make_eq, if_neg (Nat.not_lt.2 (before .threshold (by decide))),
      if_neg (Nat.not_lt.2 (before .deadline (by decide))), if_neg (Int.not_lt.2 present),
      if_neg (Int.not_lt.2 readable), if_pos far]
  | salt none =>
    obtain ⟨present, readable⟩ := before .clock (by decide)
    rw [make_eq, if_neg (Nat.not_lt.2 (before .threshold (by decide))),
      if_neg (Nat.not_lt.2 (before .deadline (by decide))), if_neg (Int.not_lt.2 present),
      if_neg (Int.not_lt.2 readable), if_neg (Int.not_lt.2 (before .reach (by decide))), none]

theorem passes_or_fails (d : Draft) (c : Check) : d.Passes c ∨ ∃ e, d.Fails c e := by
  by_cases passes : d.Passes c
  · exact .inl passes
  · rw [passes_iff, not_forall_not] at passes
    exact .inr passes

/-- A draft passes all checks, or there is one that it fails at first. -/
theorem fits_or_failsFirst (d : Draft) : (∃ salt, d.Fits salt) ∨ ∃ c e, d.FailsFirst c e := by
  -- Check by check in their order: those before have been passed.
  rcases d.passes_or_fails .threshold with threshold | ⟨e, fails⟩
  case inr => exact .inr ⟨_, e, fails, fun b hb => by cases b <;> exact absurd hb (by decide)⟩
  rcases d.passes_or_fails .deadline with deadline | ⟨e, fails⟩
  case inr =>
    refine .inr ⟨_, e, fails, fun b hb => ?_⟩
    cases b <;> first | assumption | exact absurd hb (by decide)
  rcases d.passes_or_fails .clock with clock | ⟨e, fails⟩
  case inr =>
    refine .inr ⟨_, e, fails, fun b hb => ?_⟩
    cases b <;> first | assumption | exact absurd hb (by decide)
  rcases d.passes_or_fails .reach with reach | ⟨e, fails⟩
  case inr =>
    refine .inr ⟨_, e, fails, fun b hb => ?_⟩
    cases b <;> first | assumption | exact absurd hb (by decide)
  rcases d.passes_or_fails .salt with ⟨salt, drawn⟩ | ⟨e, fails⟩
  case inr =>
    refine .inr ⟨_, e, fails, fun b hb => ?_⟩
    cases b <;> first | assumption | exact absurd hb (by decide)
  exact .inl ⟨salt, threshold, deadline, clock.1, reach, drawn⟩

theorem make_eq_ok_iff {l : Limiter} : d.make = .ok l ↔
    ∃ salt, d.Fits salt ∧ l = ⟨d.threshold, d.deadline, salt⟩ := by
  constructor
  · intro made
    rcases d.fits_or_failsFirst with ⟨salt, fits⟩ | ⟨c, e, fails⟩
    · rw [make_of_fits fits] at made
      exact ⟨salt, fits, (Except.ok.inj made).symm⟩
    · rw [make_of_failsFirst fails] at made
      cases made
  · rintro ⟨salt, fits, rfl⟩
    exact make_of_fits fits

theorem make_eq_error_iff : d.make = .error e ↔ ∃ c, d.FailsFirst c e := by
  constructor
  · intro refused
    rcases d.fits_or_failsFirst with ⟨salt, fits⟩ | ⟨c, e', fails⟩
    · rw [make_of_fits fits] at refused
      cases refused
    · rw [make_of_failsFirst fails] at refused
      cases refused
      exact ⟨c, fails⟩
  · rintro ⟨c, fails⟩
    exact make_of_failsFirst fails

/-- What becomes of a draft. -/
structure Judged (d : Draft) (made : Except LimiterError Limiter) : Prop where
  /-- A limiter is made exactly of a draft that passes all checks, … -/
  ok : ∀ l, made = .ok l ↔ ∃ salt, d.Fits salt ∧ l = ⟨d.threshold, d.deadline, salt⟩
  /-- … and any other one ends with the error of the first check that it fails at, … -/
  error : ∀ e, made = .error e ↔ ∃ c, d.FailsFirst c e
  /-- … which is of the kind of this check. -/
  kind : ∀ c e, d.FailsFirst c e → c.kind.Shows e
  /-- A limiter is logged once, with the whole milliseconds of its spans, … -/
  logged : ∀ l, made = .ok l → ∃ n, noticesOf made = [n] ∧ n.level = .info ∧
    n.message = "Rate limiter initialized" ∧
    n.fields = [("threshold_ms", .number (d.threshold.nanos / 1000000)),
      ("deadline_ms", .number (d.deadline.nanos / 1000000))]
  /-- … and nothing is, if there is none. -/
  silent : ∀ e, made = .error e → noticesOf made = []

theorem judged (d : Draft) : d.Judged d.make where
  ok _ := make_eq_ok_iff
  error _ := make_eq_error_iff
  kind _ _ h := shows_of_fails h.fails
  logged l h := by
    obtain ⟨salt, fits, rfl⟩ := make_eq_ok_iff.1 h
    refine ⟨_, by rw [h]; rfl, rfl, rfl, ?_⟩
    simp only [Notice.fields, Span.millisWord_eq fits.threshold, Span.millisWord_eq fits.deadline,
      Span.millis]
  silent e h := by rw [h]; rfl

end Draft

end Limiter

open Limiter

/-! ### Specifications -/

namespace LimiterSpec

/-- What a limiter is to be made of, as specified. -/
def draft (spec : LimiterSpec) (clock : Clock) (salt : Except SystemError Salt) : Draft :=
  match spec with
  | spans threshold deadline => ⟨threshold, deadline, clock, salt⟩
  | settings s =>
    ⟨.ofMillis s.thresholdMillis.toNat, .ofMillis s.deadlineMillis.toNat, clock, salt⟩

theorem make_draft (spec : LimiterSpec) (clock : Clock) (salt : Except SystemError Salt) :
    (spec.draft clock salt).make = spec.make clock.read salt := by
  cases spec <;> rfl

/-- What becomes of the making of a limiter in a session. -/
structure Acted (w : World) (name : String) (c : Nat) (made : Except LimiterError Limiter)
    (after : World × StepResult) : Prop where
  result : after.2 = match made with
    | .ok l => .limiter l
    | .error e => .refused e
  limiters : after.1.limiters = match made with
    | .ok l => w.limiters.push ⟨l, c⟩
    | .error _ => w.limiters
  notices : after.1.trace.notices = w.trace.notices ++ noticesOf made

theorem acted (w : World) {name cache : String} {spec : LimiterSpec}
    {salt : Except SystemError Salt} {c : Nat} {cell : CacheCell}
    (found : w.cacheNamed? cache = some (c, cell)) :
    Acted w name c (spec.make w.clock.read salt) (w.act (.limiter name cache spec salt)) := by
  simp only [World.act, World.withCache, found, World.logAll_eq]
  cases spec.make w.clock.read salt with
  | ok l => exact ⟨rfl, rfl, rfl⟩
  | error e => exact ⟨rfl, rfl, rfl⟩

/-- A limiter is made of spans up to the longest offset, if the wall clock can be read at
    present and the threshold does not carry it past its end, and if there is randomness.
    Otherwise the first of these that is not so is the error. The limiter is logged, and
    nothing else. Settings stand for the spans of their milliseconds. -/
theorem limiter_acceptance (spec : LimiterSpec) (clock : Clock) (salt : Except SystemError Salt) :
    (spec.draft clock salt).Judged (spec.make clock.read salt) ∧
    (∀ s : LimiterSettings, spec = .settings s → spec.make clock.read salt =
      (LimiterSpec.spans (.ofMillis s.thresholdMillis.toNat)
        (.ofMillis s.deadlineMillis.toNat)).make clock.read salt) ∧
    ∀ (w : World) (name cache : String) (c : Nat) (cell : CacheCell), w.clock = clock →
      w.cacheNamed? cache = some (c, cell) →
      Acted w name c (spec.make clock.read salt) (w.act (.limiter name cache spec salt)) := by
  refine ⟨?_, ?_, ?_⟩
  · rw [← make_draft]
    exact Draft.judged _
  · rintro s rfl
    rfl
  · rintro w name cache c cell rfl found
    exact acted w found

/-- At the epoch a threshold may reach the last nanosecond, and not one more, whether there
    is randomness or not. -/
theorem limiter_acceptance_last_nanosecond :
    (LimiterSpec.spans ⟨8210266876799999999999⟩ .zero).make (Clock.starting 0).read (.ok .zero) =
      .ok ⟨⟨8210266876799999999999⟩, .zero, .zero⟩ ∧
    ∀ cause, (LimiterSpec.spans ⟨8210266876800000000000⟩ .zero).make (Clock.starting 0).read
      (.error cause) = .error (.thresholdPastEnd ⟨8210266876800000000000⟩) := by
  constructor
  · have fits : ((LimiterSpec.spans ⟨8210266876799999999999⟩ .zero).draft (Clock.starting 0)
        (.ok .zero)).Fits .zero := ⟨by decide, by decide, by decide, by decide, rfl⟩
    exact ((limiter_acceptance _ _ _).1.ok _).2 ⟨_, fits, rfl⟩
  · intro cause
    have past : Timestamp.lastNanos < 0 + (8210266876800000000000 : Nat) := by decide
    have passes : 8210266876800000000000 ≤ Draft.longest ∧ 0 ≤ Draft.longest ∧
        (0 : Int) ≤ 0 ∧ 0 ≤ Timestamp.lastNanos := by decide
    refine ((limiter_acceptance _ _ _).1.error _).2 ⟨.reach, .reach past, fun b hb => ?_⟩
    cases b with
    | threshold => exact passes.1
    | deadline => exact passes.2.1
    | clock => exact passes.2.2
    | reach | salt => exact absurd hb (by decide)

end LimiterSpec

end Turnstile
