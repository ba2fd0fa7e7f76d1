import Turnstile.Proofs.Session.Release

/-!
# Sessions that flow

A session *flows* if no gate ever holds in it, and nothing is shut down. Between the
turns of such a session all stripes are free (`World.Flowing`), so a request goes
through its critical section in its first turn, and all that it does besides is to wait
for its slot.

* `Flowing.acted`, `Flowing.turn`: a flowing world stays so;
* `Flowing.turn_cases`: what a turn of a request comes to there;
* `Course.flowing`: a session whose steps have no gate hold flows.
-/

namespace Turnstile

/-- That a step neither shuts down nor has a gate of a cache hold. -/
def Step.Flows (w : World) : Step → Prop
  | .shutdown => False
  | .gate name _ mode => mode = .hold → w.cacheNamed? name = none
  | _ => True

instance (w : World) : DecidablePred (Step.Flows w)
  | .shutdown => isFalse id
  | .gate name _ mode =>
    have : Decidable (w.cacheNamed? name = none) := Option.decidableEqNone _
    inferInstanceAs (Decidable (mode = .hold → w.cacheNamed? name = none))
  | .cache _ | .limiter .. | .clone .. | .dropLimiter _ | .dropCache _ | .throttle ..
  | .dropHandle _ | .advance _ | .setWall _ | .put .. | .get .. | .purge _ | .clear _
  | .isEmpty _ | .key _ | .sweeper .. | .abort _ => isTrue trivial

/-- That a trace goes on with some calls, notices and faults. -/
structure Trace.Adds (t t' : Trace) (calls : List Call) (notices : List Notice)
    (faults : List Fault) : Prop where
  calls : t'.calls.toList = t.calls.toList ++ calls
  notices : t'.notices.toList = t.notices.toList ++ notices
  faults : t'.faults.toList = t.faults.toList ++ faults

/-- Where no gate holds, a passage gets to its end. -/
theorem Admission.passage_ends {a : Admission} {cell : CacheCell} {clock : Clock}
    (opened : ∀ kind, cell.gate kind ≠ .hold) :
    ∃ o, (a.passage cell clock).exit.outcome? = some o := by
  cases he : (a.passage cell clock).exit.outcome? with
  | some o => exact ⟨o, rfl⟩
  | none =>
    obtain ⟨phase, hp⟩ := Exit.held_of_outcome he
    have kept := passage_held hp
    cases phase with
    | beforeLookup => exact absurd kept (opened .lookup)
    | beforeStore => exact absurd kept (opened .store)
    | issued | inLine | waiting | finished => exact kept.elim

namespace World

/-- That nothing keeps a request from being decided in its first turn. -/
structure Flowing (w : World) : Prop where
  running : w.running
  opened : w.Opened
  /-- Nobody is in line or in its critical section. -/
  outside : ∀ {i : Nat} {a : Admission}, w.admissions[i]? = some a →
    a.phase.stage = 0 ∨ a.phase.stage = 3

theorem flowing_starting (wall : Int) : (starting wall).Flowing where
  running := rfl
  opened cell hc := by simp [starting] at hc
  outside hi := by simp [starting] at hi

variable {w : World} {s : Step}

theorem Opened.acted (k : w.Opened) (hs : s.Flows w) : (w.acted s).Opened := by
  intro cell' hc' kind
  obtain ⟨c, hc, rfl⟩ := Array.getElem_of_mem hc'
  have hc' := Array.getElem?_eq_getElem hc
  cases hw : w.caches[c]? with
  | none =>
    obtain ⟨name, e⟩ := cell_acted_new hw hc'
    rw [e]
    cases kind <;> simp [CacheCell.gate]
  | some cell =>
    obtain ⟨cell', h, change⟩ := cell_acted (s := s) hw
    obtain rfl := Option.some.inj (h.symm.trans hc')
    rcases change.gate kind with e | ⟨cache, mode, rfl, hn, e⟩
    · rw [e]
      exact k cell (Array.mem_of_getElem? hw) kind
    · rw [e]
      intro hold
      have none : w.cacheNamed? cache = none := hs hold
      simp [cacheNamed?, hn, hw] at none

/-- A step that has no gate hold keeps a world flowing. -/
theorem Flowing.acted (k : w.Flowing) (hs : s.Flows w) : (w.acted s).Flowing where
  running := by
    refine (running_acted w s).2 ⟨k.running, ?_⟩
    rintro rfl
    exact hs
  opened := k.opened.acted hs
  outside hi := by
    rcases admission_acted hi with ⟨a, ha, -, e | ⟨-, e⟩⟩ | ⟨-, _, _, _, _, _, -, -, -, rfl⟩
    · rw [e]
      exact k.outside ha
    · exact .inr (by rw [e]; rfl)
    · exact .inl rfl

/-! ### Turns -/

/-- The world after a turn of a request that goes on to a phase. -/
def moved (w : World) (i : Nat) (phase : Phase) (caches : Array CacheCell) (timers : List Timer)
    (lines : Table LockId (List Nat)) (trace : Trace) : World :=
  { w.taken with
    admissions := w.admissions.modify i fun b => { b with phase }
    caches
    lines
    timers := w.timers ++ timers
    trace }

/-- What a turn of a request comes to in a flowing world. -/
inductive FlowingTurn (w : World) (i : Nat) (a : Admission) : World → Prop
  /-- It is decided. -/
  | decides {cell : CacheCell} {o : Outcome} {lines : Table LockId (List Nat)} {trace : Trace} :
      a.phase = .issued → w.caches[a.cache]? = some cell →
      (a.entering cell w.clock).exit.outcome? = some o →
      trace.answers.toList =
        w.trace.answers.toList ++ (a.entering cell w.clock).exit.answers i →
      w.trace.Adds trace (a.entering cell w.clock).calls (a.entering cell w.clock).notices
        (a.entering cell w.clock).exit.faults →
      FlowingTurn w i a (w.moved i (a.entering cell w.clock).exit.phase
        (w.caches.modify a.cache fun c => { c with store := (a.entering cell w.clock).store })
        ((a.entering cell w.clock).exit.timers i w.clock.now) lines trace)
  /-- Its wait is over. -/
  | ends {delay : Span} {trace : Trace} :
      a.phase = .waiting delay →
      trace.answers.toList = w.trace.answers.toList ++ [(i, .ok delay)] →
      w.trace.Adds trace [] [.waitOver a.key delay] [] →
      FlowingTurn w i a (w.moved i .finished w.caches [] w.lines trace)

/-- A request that is the next in the queue is decided in its turn, or its wait is
    over. -/
theorem Flowing.turn_cases (k : w.Flowing) (o : w.Orderly) {i : Nat}
    (hr : w.ready.head? = some (.admission i)) :
    ∃ a, w.admissions[i]? = some a ∧ w.FlowingTurn i a (w.taken.turn (.admission i)) := by
  obtain ⟨a, ha, turn⟩ := o.admissionTurn_cases hr
  refine ⟨a, ha, ?_⟩
  rw [World.turn]
  generalize w.taken.admissionTurn i = w' at turn
  cases turn with
  | joins hp hl => exact absurd (o.line_eq_nil k.outside _) hl
  | @ends delay hp =>
    have same : w.taken.finishWait i a delay = w.moved i .finished w.caches [] w.lines
        (w.taken.finishWait i a delay).trace := by
      simp [finishWait, answer, log, setPhase, moved, taken]
    rw [same]
    refine .ends hp ?_ ⟨?_, ?_, ?_⟩
    all_goals simp [finishWait, answer, log, setPhase, taken]
  | @works cell rest lines hc t b =>
    have hp : a.phase = .issued := by
      have := t.undecided
      have := k.outside ha
      cases hp : a.phase <;> simp_all [Phase.stage]
    have passage : a.passage cell w.clock = a.entering cell w.clock := by
      simp [Admission.passage, hp]
    obtain ⟨out, he⟩ : ∃ o, (a.passage cell w.clock).exit.outcome? = some o :=
      Admission.passage_ends (k.opened cell (Array.mem_of_getElem? hc))
    -- Nobody is in line behind it.
    have alone : rest = [] := by
      rcases t.line with ⟨hn, -⟩ | ⟨-, -, hrest⟩
      · exact absurd hp hn
      · exact hrest
    have line : (w.begun lines).line a.lock = [i] := by
      rw [b, if_pos rfl, alone]
    rw [passage] at he ⊢
    rw [pass, leave_of_outcome _ _ _ he]
    have tail : (((w.begun lines).exhibit a.cache (a.entering cell w.clock).calls
        (a.entering cell w.clock).notices (a.entering cell w.clock).store).line a.lock).tail =
          [] := by
      rw [line_exhibit, line]
      rfl
    rw [tail]
    simp only [List.take_nil, List.map_nil, List.append_nil]
    refine .decides hp hc he ?_ ⟨?_, ?_, ?_⟩
    all_goals simp [exhibit, setStore, begun, taken]

theorem Flowing.turn (k : w.Flowing) (o : w.Orderly) {task : Task}
    (hr : w.ready.head? = some task) : (w.taken.turn task).Flowing where
  running := by
    rw [o.running_turn hr]
    exact k.running
  opened := by
    intro cell' hc' kind
    obtain ⟨c, hc, rfl⟩ := Array.getElem_of_mem hc'
    obtain ⟨cell, hw, -, gates⟩ := o.cell_before hr (Array.getElem?_eq_getElem hc)
    rw [gates]
    exact k.opened cell (Array.mem_of_getElem? hw) kind
  outside {j b} hj := by
    cases task with
    | sweeper j =>
      rw [World.turn] at hj
      rcases w.taken.sweeperTurn_cases j with e | ⟨s, -, swept⟩
      · rw [e] at hj
        exact k.outside hj
      · rw [swept.same.1] at hj
        exact k.outside hj
    | admission i =>
      obtain ⟨a, ha, turn⟩ := k.turn_cases o hr
      have decided {phase : Phase} (three : phase.stage = 3)
          (hj : (w.admissions.modify i fun b => { b with phase })[j]? = some b) :
          b.phase.stage = 0 ∨ b.phase.stage = 3 := by
        have hj : (w.setPhase i phase).admissions[j]? = some b := hj
        obtain ⟨b', hb', e⟩ := admission_setPhase rfl hj
        rw [e]
        simp only []
        split
        · exact .inr three
        · exact k.outside hb'
      generalize w.taken.turn (.admission i) = w' at turn hj
      cases turn with
      | decides _ _ he => exact decided (Exit.stage_of_outcome he) hj
      | ends => exact decided rfl hj

/-- A request that has its first turn goes through its critical section. -/
theorem Flowing.serving (k : w.Flowing) (o : w.Orderly) {i : Nat} {a : Admission}
    (hr : w.ready.head? = some (.admission i)) (ha : w.admissions[i]? = some a)
    (hp : a.phase = .issued) {cell : CacheCell} (hc : w.caches[a.cache]? = some cell) :
    Moment.Serving ⟨w, .admission i⟩ i a cell := by
  obtain ⟨a', ha', turn⟩ := o.admissionTurn_cases hr
  obtain rfl : a = a' := Option.some.inj (ha.symm.trans ha')
  generalize hw : w.taken.admissionTurn i = w' at turn
  cases turn with
  | joins _ hl => exact absurd (o.line_eq_nil k.outside _) hl
  | ends hp' =>
    rw [hp] at hp'
    cases hp'
  | @works cell' rest lines hc' t b =>
    obtain rfl : cell = cell' := Option.some.inj (hc.symm.trans hc')
    exact ⟨rfl, ha, hc, ⟨rest, t⟩, lines, hw⟩

end World

/-- The worlds of a course whose steps have no gate hold are flowing. -/
theorem Course.flowing {w₀ w : World} {h : List Moment} (c : Course Step.Flows w₀ h w)
    (o : w₀.Orderly) (k : w₀.Flowing) : w.Flowing := by
  induction c with
  | start => exact k
  | act _ hs ih => exact ih.acted hs
  | turn c hr ih => exact ih.turn (c.orderly o) (by rw [hr]; rfl)

end Turnstile
