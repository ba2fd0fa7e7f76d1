import Mathlib.Data.List.Induction
import Turnstile.Proofs.Session.Answers
import Turnstile.Proofs.Session.Veil

/-!
# Anonymity

Of an identifier, and of the salt of a limiter, a session shows nothing but the key that
they make. Two sessions are *twins* if they are the same step by step, except for
identifiers, the way these are given, and salts, and if they use the same keys
(`World.Twins`): all that is reported of them is the same.

And what a limiter shows of a request is the key of an identifier that it was asked for:

* `Moment.showing`: in a turn the calls and notices with a key have that of the
  admission whose turn it is, so nobody else's;
* `World.asked_final`: an admission has the key that its limiter makes of the identifier in the
  step that issued it.
-/

namespace Turnstile

/-! ### Twins -/

/-- The veil over the salts. -/
def Veil.salts : Veil := { salt := fun _ => .zero }

/-- A limiter looks the same whatever its salt is. -/
theorem Limiter.display_under (f : Veil) (l : Limiter) : (l.under f).display = l.display := rfl

/-- A report without the salts of the limiters in it, which nobody sees. -/
def Report.unsalted (r : Report) : Report := { r with result := r.result.under .salts }

/-- Whether a step names an identifier, or an entry that may be that of one. -/
def Step.isKeyed : Step → Bool
  | .throttle .. | .put .. | .get .. | .key _ => true
  | _ => false

/-- That two steps in two worlds are the same, except for identifiers, the way they are
    given, and the salt of a limiter, and that they use the same key. -/
inductive Step.Twin (w v : World) : Step → Step → Prop
  | same {s : Step} : s.isKeyed = false → Twin w v s s
  | limiter {name cache : String} {spec : LimiterSpec} {salt salt' : Salt} :
      Twin w v (.limiter name cache spec (.ok salt)) (.limiter name cache spec (.ok salt'))
  | throttle {name : String} {id id' : Identifier} {times : Nat} :
      (times ≠ 0 → w.keyMeant? (.ofIdentifier name id.render) =
        v.keyMeant? (.ofIdentifier name id'.render)) →
      Twin w v (.throttle name id times) (.throttle name id' times)
  | put {cache : String} {k k' : KeyName} {value : Value} {lifetime : Span} :
      w.keyMeant? k = v.keyMeant? k' →
      Twin w v (.put cache k value lifetime) (.put cache k' value lifetime)
  | get {cache : String} {k k' : KeyName} :
      w.keyMeant? k = v.keyMeant? k' → Twin w v (.get cache k) (.get cache k')
  | key {k k' : KeyName} : w.keyMeant? k = v.keyMeant? k' → Twin w v (.key k) (.key k')

/-- That two sessions, which go on from two worlds, are twins. -/
def World.Twins (w v : World) : List Step → List Step → Prop
  | [], [] => True
  | s :: rest, s' :: rest' => Step.Twin w v s s' ∧ (w.step s).1.Twins (v.step s').1 rest rest'
  | _, _ => False

/-- Twins agree in what they make of their identifiers. -/
theorem Step.Twin.meets {w v : World} {s s' : Step} (t : Step.Twin w v s s') :
    Step.Meets .salts w v s s' := by
  cases t with
  | same hs =>
    cases s with
    | dropHandle i => exact .drop rfl
    | throttle | put | get | key => cases hs
    | _ => exact .plain rfl rfl rfl
  | limiter => exact .plain rfl rfl rfl
  | throttle hk => exact .throttle hk
  | put hk => exact .put hk
  | get hk => exact .get hk
  | key hk => exact .key hk

namespace World

variable {w v : World}

/-- Somebody waits for the same answers, whatever the salts are. -/
theorem received_eq_of_salts (h : w.under .salts = v.under .salts) : w.received = v.received := by
  have awaited (w : World) (i : Nat) : (w.under .salts).isAwaited i = w.isAwaited i := by
    simp only [isAwaited, under, Array.getElem?_map, Option.map_map]
    rfl
  have received (w : World) : (w.under .salts).received = w.received := by
    simp only [World.received, awaited]
    rfl
  rw [← received w, h, received]

/-- Twin steps leave worlds that differ in salts only, and so do their reports. -/
theorem step_of_twin (h : w.under .salts = v.under .salts) {s s' : Step}
    (t : Step.Twin w v s s') : (w.step s).1.under .salts = (v.step s').1.under .salts ∧
      (w.step s).2.unsalted = (v.step s').2.unsalted := by
  obtain ⟨world, result⟩ := step_eq_of_meets (shown_under_eq h) t.meets
  have unsalted (w : World) (s : Step) :
      (w.step s).2.unsalted = (w.step s).1.report ((w.step s).2.result.under .salts) := rfl
  refine ⟨world, ?_⟩
  rw [unsalted, unsalted, result, report_eq_of_under world, received_eq_of_salts world]
  rfl

/-- All that is reported of twins is the same, and all that their caches hold. -/
theorem Twins.reports (h : w.under .salts = v.under .salts) {steps steps' : List Step}
    (t : w.Twins v steps steps') :
    (w.run steps).map Report.unsalted = (v.run steps').map Report.unsalted ∧
      ∀ n, (w.final (steps.take n)).caches = (v.final (steps'.take n)).caches := by
  have caches : w.caches = v.caches := (congrArg World.caches h :)
  induction steps generalizing w v steps' with
  | nil =>
    cases steps' with
    | nil => exact ⟨rfl, fun n => by simpa [final] using caches⟩
    | cons => cases t
  | cons s rest ih =>
    cases steps' with
    | nil => cases t
    | cons s' rest' =>
      obtain ⟨twin, twins⟩ := t
      obtain ⟨world, report⟩ := step_of_twin h twin
      obtain ⟨reports, later⟩ := ih world twins (congrArg World.caches world :)
      refine ⟨congrArg₂ List.cons report reports, fun n => ?_⟩
      cases n with
      | zero => exact caches
      | succ n => exact later n

end World

/-! ### Whose keys are shown -/

/-- The key in a call. -/
def Call.key? : Call → Option Key
  | .lookup _ key _ | .store _ key .. => some key
  | .held .. => none

/-- The key in a notice. -/
def Notice.key? : Notice → Option Key
  | .firstAdmission key | .foreignValue key | .beyondDeadline key .. | .lastTimestamp key
  | .slotReserved key _ | .waitOver key _ | .admitted key _ | .rejected key _ => some key
  | _ => none

/-- A notice has the field of a key if it is about one, and writes that key there. -/
theorem Notice.lookup_key (n : Notice) :
    n.fields.lookup "key" = n.key?.map fun key => .text key.text := by
  cases n <;> rfl

namespace Admission

variable (a : Admission) (cell : CacheCell)

/-- That all keys in calls and notices are that of an admission. -/
def Owns (calls : List Call) (notices : List Notice) : Prop :=
  (∀ c ∈ calls, ∀ key ∈ c.key?, key = a.key) ∧ ∀ n ∈ notices, ∀ key ∈ n.key?, key = a.key

theorem owns_storing (now : Instant) (d : Decision) (r : Reservation) :
    a.Owns (a.storing cell now d r).calls (a.storing cell now d r).notices := by
  simp only [storing, Owns]
  cases cell.storeGate with
  | hold => simp [Call.key?]
  | fail => simp
  | pass =>
    simp only []
    split
    · simp [Call.key?]
    · cases d <;> simp [Call.key?, Decision.noticesAfter, Notice.key?]

theorem owns_carryingOut (now : Instant) (d : Decision) :
    a.Owns (a.carryingOut cell now d).calls (a.carryingOut cell now d).notices := by
  have before : ∀ n ∈ d.noticesBefore a.key a.limiter.deadline, ∀ key ∈ n.key?, key = a.key := by
    cases d <;> simp [Decision.noticesBefore, Notice.key?]
  simp only [carryingOut]
  cases d.reservation? with
  | none => exact ⟨by simp, by simpa using before⟩
  | some r =>
    obtain ⟨calls, notices⟩ := a.owns_storing cell now d r
    refine ⟨calls, fun n hn => ?_⟩
    rcases List.mem_append.1 hn with hn | hn
    · exact before n hn
    · exact notices n hn

theorem owns_lookingUp (now : Instant) (reading : Timestamp) :
    a.Owns (a.lookingUp cell now reading).calls (a.lookingUp cell now reading).notices := by
  simp only [lookingUp]
  cases cell.lookupGate with
  | hold => simp [Owns, Call.key?]
  | fail => simp [Owns]
  | pass =>
    obtain ⟨found, store⟩ := cell.store.get now a.key.text
    obtain ⟨calls, notices⟩ := a.owns_carryingOut { cell with store } now
      (a.limiter.decide found reading)
    refine ⟨fun c hc => ?_, notices⟩
    rcases List.mem_cons.1 hc with rfl | hc
    · simp [Call.key?]
    · exact calls c hc

/-- All keys that an admission shows in its critical section are its own. -/
theorem owns_passage (clock : Clock) :
    a.Owns (a.passage cell clock).calls (a.passage cell clock).notices := by
  have entering : a.Owns (a.entering cell clock).calls (a.entering cell clock).notices := by
    rw [Admission.entering]
    cases clock.read with
    | error fault => simp [Owns]
    | ok reading => exact owns_lookingUp ..
  rw [passage]
  cases a.phase with
  | beforeLookup reading => exact owns_lookingUp ..
  | beforeStore d r => exact owns_storing ..
  | _ => exact entering

end Admission

/-- That a world has the log of another one, and no more than some notices without a
    key. -/
def World.LogsNoKey (w w' : World) : Prop :=
  w'.trace.notices = w.trace.notices ∨
    ∃ n, w'.trace.notices = w.trace.notices.push n ∧ n.key? = none

namespace World

/-- Sweepers show no keys. -/
theorem sweeperTurn_logsNoKey (w : World) (j : Nat) : w.LogsNoKey (w.sweeperTurn j) := by
  refine (w.sweeperTurn_logsSweep j).imp_right fun ⟨n, logged, sweep⟩ => ⟨n, logged, ?_⟩
  rcases sweep with rfl | ⟨_, _, rfl⟩ <;> rfl

end World

namespace Moment

open World

variable {m : Moment}

/-- The notices logged in a turn. -/
def notices (m : Moment) : List Notice :=
  m.after.trace.notices.toList.drop m.world.trace.notices.size

/-- The keys shown in a turn. -/
def keys (m : Moment) : List Key :=
  m.calls.filterMap Call.key? ++ m.notices.filterMap Notice.key?

/-- That a turn adds to what was shown, and shows no key but that of the admission whose
    turn it is. -/
structure Showing (m : Moment) : Prop where
  calls : m.after.trace.calls.toList = m.world.trace.calls.toList ++ m.calls
  notices : m.after.trace.notices.toList = m.world.trace.notices.toList ++ m.notices
  keys : ∀ key ∈ m.keys, ∃ i a, m.task = .admission i ∧ m.world.admissions[i]? = some a ∧
    key = a.key

theorem Showing.of_append (calls : List Call) (notices : List Notice)
    (hc : m.after.trace.calls.toList = m.world.trace.calls.toList ++ calls)
    (hn : m.after.trace.notices.toList = m.world.trace.notices.toList ++ notices)
    (keys : ∀ key ∈ calls.filterMap Call.key? ++ notices.filterMap Notice.key?,
      ∃ i a, m.task = .admission i ∧ m.world.admissions[i]? = some a ∧ key = a.key) :
    m.Showing := by
  have calls_eq : m.calls = calls := by simp [Moment.calls, hc]
  have notices_eq : m.notices = notices := by simp [Moment.notices, hn]
  exact ⟨by rw [hc, calls_eq], by rw [hn, notices_eq],
    by rw [Moment.keys, calls_eq, notices_eq]; exact keys⟩

/-- What an admission shows has its own key. -/
theorem Showing.of_owns {i : Nat} {a : Admission} (calls : List Call) (notices : List Notice)
    (ht : m.task = .admission i) (hi : m.world.admissions[i]? = some a)
    (hc : m.after.trace.calls.toList = m.world.trace.calls.toList ++ calls)
    (hn : m.after.trace.notices.toList = m.world.trace.notices.toList ++ notices)
    (owns : a.Owns calls notices) : m.Showing := by
  refine .of_append calls notices hc hn fun key hk => ⟨i, a, ht, hi, ?_⟩
  rcases List.mem_append.1 hk with hk | hk
  · obtain ⟨c, hc, e⟩ := List.mem_filterMap.1 hk
    exact owns.1 c hc key e
  · obtain ⟨n, hn, e⟩ := List.mem_filterMap.1 hk
    exact owns.2 n hn key e

/-- A turn shows no key but that of the admission whose turn it is. -/
theorem showing (o : m.world.Orderly) (hr : m.world.ready.head? = some m.task) : m.Showing := by
  cases ht : m.task with
  | sweeper j =>
    have after := after_of_sweeper ht
    have calls : m.after.trace.calls.toList = m.world.trace.calls.toList ++ [] := by
      rw [after, List.append_nil]
      rcases m.world.taken.sweeperTurn_cases j with e | ⟨s, -, swept⟩
      · rw [e]
        rfl
      · rw [swept.same.2.2.2.2.1]
        rfl
    rcases m.world.taken.sweeperTurn_logsNoKey j with hn | ⟨n, hn, none⟩
    · exact .of_append [] [] calls (by rw [after, hn, List.append_nil]; rfl) (by simp)
    · exact .of_append [] [n] calls (by rw [after, hn, Array.toList_push]; rfl) (by simp [none])
  | admission i =>
    obtain ⟨a, hi, turn⟩ := admissionTurn_cases o hr ht
    generalize hw : m.after = w' at turn
    cases turn with
    | joins =>
      exact .of_owns [] [] ht hi (by rw [hw, List.append_nil]; rfl)
        (by rw [hw, List.append_nil]; rfl) (by simp [Admission.Owns])
    | works =>
      exact .of_owns _ _ ht hi (by rw [hw, calls_pass, Array.toList_appendList]; rfl)
        (by rw [hw, notices_pass, Array.toList_appendList]; rfl) (a.owns_passage ..)
    | @ends delay =>
      exact .of_owns [] [.waitOver a.key delay] ht hi (by rw [hw, List.append_nil]; rfl)
        (by rw [hw]; simp [finishWait, answer, log, setPhase, taken])
        (by simp [Admission.Owns, Notice.key?])

end Moment

/-- What is shown after a step is what the step shows, and then what the turns do. -/
theorem Course.shows {v w : World} {h : List Moment} (o : v.Orderly)
    (c : Course (fun _ _ => False) v h w) :
    w.trace.calls.toList = v.trace.calls.toList ++ h.flatMap Moment.calls ∧
      w.trace.notices.toList = v.trace.notices.toList ++ h.flatMap Moment.notices := by
  induction c with
  | start => simp
  | act _ h => exact h.elim
  | @turn h u task rest c hr ih =>
    obtain ⟨calls, notices⟩ := ih
    have k := Moment.showing (m := ⟨u, task⟩) (c.orderly o) (by rw [hr]; rfl)
    simp only [List.flatMap_append, List.flatMap_singleton]
    rw [k.calls, k.notices, calls, notices]
    simp

/-- The log of a step has what the step logs by itself, and what the turns do. -/
theorem World.notices_perm {w : World} (o : w.Orderly) (s : Step) : (w.step s).2.notices.Perm
    ((w.acted s).trace.notices.toList ++ (w.acted s).settling.flatMap Moment.notices) :=
  (Notice.arrange_perm _).trans (.of_eq ((w.course_settling s).shows (o.acted s)).2)

/-! ### Whom keys are made for -/

namespace World

/-- That an admission is for an identifier that its limiter was asked for, by one of its
    names, in one of some steps. -/
def AskedFor (w₀ : World) (steps : List Step) (a : Admission) : Prop :=
  ∃ before name identifier times after cell,
    steps = before ++ .throttle name identifier times :: after ∧
    (w₀.final before).limiterNamed? name = some (a.owner, cell) ∧
    a.limiter = cell.limiter ∧ a.cache = cell.cache ∧
    a.key = cell.limiter.anonymize identifier.render

variable {w₀ v w : World} {steps : List Step} {s : Step} {a b : Admission} {h : List Moment}

theorem AskedFor.concat (k : w₀.AskedFor steps a) (s : Step) :
    w₀.AskedFor (steps ++ [s]) a := by
  obtain ⟨before, name, identifier, times, after, cell, rfl, rest⟩ := k
  exact ⟨before, name, identifier, times, after ++ [s], cell, by simp, rest⟩

theorem AskedFor.becomes (k : w₀.AskedFor steps a) (h : a.Becomes b) : w₀.AskedFor steps b := by
  rw [AskedFor, h.owner, h.limiter, h.cache, h.key]
  exact k

/-- The admissions after a step are for identifiers that their limiters were asked
    for. -/
theorem asked_acted (asked : ∀ {i : Nat} {a : Admission},
      (w₀.final steps).admissions[i]? = some a → w₀.AskedFor steps a) {i : Nat}
    (hb : ((w₀.final steps).acted s).admissions[i]? = some b) :
    w₀.AskedFor (steps ++ [s]) b := by
  rcases admission_acted hb with
    ⟨a, ha, hab, -⟩ | ⟨-, name, identifier, times, l, cell, rfl, hn, hl, rfl⟩
  · exact ((asked ha).becomes hab).concat s
  · refine ⟨steps, name, identifier, times, [], cell, rfl, ?_, rfl, rfl, rfl⟩
    simp [limiterNamed?, hn, hl, request]

theorem asked_settling (asked : ∀ {i : Nat} {a : Admission},
      v.admissions[i]? = some a → w₀.AskedFor steps a) (o : v.Orderly)
    (c : Course (fun _ _ => False) v h w) {i : Nat} (hb : w.admissions[i]? = some b) :
    w₀.AskedFor steps b := by
  induction c generalizing b with
  | start => exact asked hb
  | act _ h => exact h.elim
  | @turn h u task rest c hr ih =>
    obtain ⟨a, ha, e⟩ :=
      Moment.admission_before (m := ⟨u, task⟩) (c.orderly o) (by rw [hr]; rfl) hb
    have asked := ih ha
    rw [e]
    exact asked

/-- All admissions of a session are for identifiers that their limiters were asked
    for. -/
theorem asked_final (wall : Int) (steps : List Step) {i : Nat} {a : Admission}
    (ha : ((starting wall).final steps).admissions[i]? = some a) :
    (starting wall).AskedFor steps a := by
  induction steps using List.reverseRecOn generalizing i a with
  | nil => simp [final, starting] at ha
  | append_singleton steps s ih =>
    rw [final_concat] at ha
    have o := (course_history ((starting wall).along_true steps)).orderly (orderly_starting wall)
    exact asked_settling (asked_acted ih) (o.acted s) (course_settling ..) ha

/-- That all that is shown of a step are calls and notices of turns, and notices without
    a key, and that each key in a turn is that of the admission whose turn it is, for an
    identifier that its limiter was asked for. -/
structure ShowsOwnKeys (w₀ : World) (steps : List Step) (s : Step) : Prop where
  calls : ((w₀.final steps).step s).2.calls =
    ((w₀.final steps).acted s).settling.flatMap Moment.calls
  notices : ∃ own : List Notice, (∀ n ∈ own, n.key? = none) ∧
    ((w₀.final steps).step s).2.notices.Perm
      (own ++ ((w₀.final steps).acted s).settling.flatMap Moment.notices)
  keys : ∀ m ∈ ((w₀.final steps).acted s).settling, ∀ key ∈ m.keys, ∃ i a,
    m.task = .admission i ∧ m.world.admissions[i]? = some a ∧ key = a.key ∧
      w₀.AskedFor (steps ++ [s]) a

theorem showsOwnKeys (wall : Int) (steps : List Step) (s : Step) :
    (starting wall).ShowsOwnKeys steps s := by
  have o : ((starting wall).final steps).Orderly :=
    (course_history ((starting wall).along_true steps)).orderly (orderly_starting wall)
  have course := ((starting wall).final steps).course_settling s
  constructor
  case calls =>
    have calls := (course.shows (o.acted s)).1
    rw [(shown_acted ..).1] at calls
    exact calls
  case notices =>
    refine ⟨_, fun n hn => ?_, notices_perm o s⟩
    obtain ⟨_, _, rfl⟩ := logsLimiters_acted _ s n (Array.mem_toList_iff.1 hn)
    rfl
  case keys =>
    intro m hm key hk
    obtain ⟨_, _, -, before, rest, hr⟩ := course.before hm
    have showing := Moment.showing (before.orderly (o.acted s)) (by rw [hr]; rfl)
    obtain ⟨i, a, ht, hi, e⟩ := showing.keys key hk
    have asked :=
      asked_settling (asked_acted (s := s) (asked_final wall steps)) (o.acted s) before hi
    exact ⟨i, a, ht, hi, e, asked⟩

/-- Of an identifier and a salt, only the key leaves the limiter: twins have the same
    reports, and their caches hold the same after any number of steps; and all keys that
    are shown are those of identifiers that the limiter was asked for. -/
theorem only_keys_leave (wall : Int) :
    (∀ steps steps' : List Step, (starting wall).Twins (starting wall) steps steps' →
      (session wall steps).map Report.unsalted = (session wall steps').map Report.unsalted ∧
      ∀ n, ((starting wall).final (steps.take n)).caches =
        ((starting wall).final (steps'.take n)).caches) ∧
    ∀ (steps : List Step) (s : Step), (starting wall).ShowsOwnKeys steps s :=
  ⟨fun _ _ twins => twins.reports rfl, showsOwnKeys wall⟩

/-- A session on two limiters with the same threshold and deadline, which asks the first
    one for a visitor. -/
def visit (other : Salt) (visitor : Identifier) : List Step :=
  [.cache "c", .limiter "a" "c" (.spans ⟨1000⟩ ⟨1000⟩) (.ok .zero),
    .limiter "b" "c" (.spans ⟨1000⟩ ⟨1000⟩) (.ok other),
    .key (.ofIdentifier "a" visitor.render), .throttle "a" visitor 2]

/-- A visitor called by its name and one called by its number, with another salt for the
    limiter that neither of them meets. -/
theorem only_keys_leave_visits :
    (starting 0).Twins (starting 0) (visit .zero (.plain "visitor-1"))
      (visit ⟨List.replicate 16 1, rfl⟩ .firstVisitor) ∧
    (session 0 (visit .zero (.plain "visitor-1"))).map Report.unsalted =
      (session 0 (visit ⟨List.replicate 16 1, rfl⟩ .firstVisitor)).map Report.unsalted := by
  have twins : (starting 0).Twins (starting 0) (visit .zero (.plain "visitor-1"))
      (visit ⟨List.replicate 16 1, rfl⟩ .firstVisitor) :=
    ⟨.same rfl, .limiter, .limiter, .key rfl, .throttle fun _ => rfl, trivial⟩
  exact ⟨twins, ((only_keys_leave 0).1 _ _ twins).1⟩

end World

end Turnstile
