import Turnstile.Session.Report

/-!
# The critical section

Between getting its stripe and leaving it, an admission reads the wall clock,
looks up its entry, decides, and stores its reservation. What becomes of this in
one turn depends on the admission, its cache and the clock only: it is a
`Passage`, the calls and notices it shows, what it leaves stored, and how it ends
(`Exit`): held at a gate, ended by a fault, or decided.

* `Admission.passage` is that function, and `World.pass` carries a passage out;
* `admissionTurn_eq`: a turn of an admission is the passage from its phase, except
  that a request may first have to get in line, and may only have to wait or to be
  answered;
* `leave_of_outcome`, `leave_held`: how a passage ends decides all that the other
  tasks notice of it: the phase, the line, the queue and the timers.

The rest of the theory of sessions sees a turn through these two.
-/

namespace Turnstile

/-- How a turn in the critical section ends. -/
inductive Exit
  /-- Held at a gate, in a phase to go on from. -/
  | held (phase : Phase)
  /-- Ended by a fault. -/
  | failed (fault : Fault)
  /-- Decided. -/
  | decided (outcome : Outcome)

namespace Exit

/-- The phase that an admission is in afterwards. -/
def phase : Exit → Phase
  | held phase => phase
  | failed _ | decided (.error _) => .finished
  | decided (.ok delay) => if delay = .zero then .finished else .waiting delay

/-- What the request is to be answered, if its critical section is over. -/
def outcome? : Exit → Option Outcome
  | held _ => none
  | failed _ => some (.error .aborted)
  | decided outcome => some outcome

/-- The answers given at once. -/
def answers (i : Nat) : Exit → List (Nat × Outcome)
  | held _ => []
  | failed _ => [(i, .error .aborted)]
  | decided (.error reason) => [(i, .error reason)]
  | decided (.ok delay) => if delay = .zero then [(i, .ok delay)] else []

/-- The faults shown. -/
def faults : Exit → List Fault
  | failed fault => [fault]
  | _ => []

/-- The timer set for a wait. -/
def timers (i : Nat) (now : Instant) : Exit → List Timer
  | decided (.ok delay) =>
    if delay = .zero then [] else [⟨(now.later delay.onTimer).millisUp, .admission i⟩]
  | _ => []

/-- Only an admission with a delay sets a timer, which is one for that delay. -/
theorem cases_of_mem_timers {e : Exit} {i : Nat} {now : Instant} {t : Timer}
    (h : t ∈ e.timers i now) : ∃ delay, delay ≠ .zero ∧ e = .decided (.ok delay) ∧
      t = ⟨(now.later delay.onTimer).millisUp, .admission i⟩ := by
  unfold timers at h
  split at h
  · rename_i delay
    split at h
    · cases h
    · exact ⟨delay, ‹_›, rfl, List.mem_singleton.1 h⟩
  · cases h

theorem held_of_outcome {e : Exit} (h : e.outcome? = none) : ∃ phase, e = .held phase := by
  cases e with
  | held phase => exact ⟨phase, rfl⟩
  | failed fault => simp [outcome?] at h
  | decided outcome => simp [outcome?] at h

end Exit

/-- What a turn in the critical section shows and leaves behind. -/
structure Passage where
  calls : List Call := []
  notices : List Notice := []
  /-- What the cache stores afterwards. -/
  store : Store
  exit : Exit

/-! ### The passage of an admission -/

namespace Admission

variable (a : Admission) (cell : CacheCell)

/-- The passage from before the store. -/
def storing (now : Instant) (d : Decision) (r : Reservation) : Passage :=
  match cell.storeGate with
  | .hold =>
    { calls := [.held cell.name .store], store := cell.store, exit := .held (.beforeStore d r) }
  | .fail => { store := cell.store, exit := .failed .storeFailed }
  | .pass =>
    let call : Call := .store cell.name a.key (.timestamp r.slot) r.lifetime
    match cell.store.set? now a.key.text (.timestamp r.slot) r.lifetime with
    | none => { calls := [call], store := cell.store, exit := .failed .instantOverflow }
    | some store =>
      { calls := [call], notices := d.noticesAfter a.key, store, exit := .decided (.ok r.delay) }

/-- The passage from a decision on. -/
def carryingOut (now : Instant) (d : Decision) : Passage :=
  let p : Passage :=
    match d.reservation? with
    | some r => a.storing cell now d r
    | none => { store := cell.store, exit := .decided (.error (d.refusal?.getD .aborted)) }
  { p with notices := d.noticesBefore a.key a.limiter.deadline ++ p.notices }

/-- The passage from before the lookup. -/
def lookingUp (now : Instant) (reading : Timestamp) : Passage :=
  match cell.lookupGate with
  | .hold =>
    { calls := [.held cell.name .lookup], store := cell.store,
      exit := .held (.beforeLookup reading) }
  | .fail => { store := cell.store, exit := .failed .lookupFailed }
  | .pass =>
    let (found, store) := cell.store.get now a.key.text
    let p := a.carryingOut { cell with store } now (a.limiter.decide found reading)
    { p with calls := .lookup cell.name a.key found :: p.calls }

/-- The passage from the beginning. -/
def entering (clock : Clock) : Passage :=
  match clock.read with
  | .error fault => { store := cell.store, exit := .failed fault }
  | .ok reading => a.lookingUp cell clock.now reading

/-- The passage from the phase that the admission is in. -/
def passage (clock : Clock) : Passage :=
  match a.phase with
  | .beforeLookup reading => a.lookingUp cell clock.now reading
  | .beforeStore d r => a.storing cell clock.now d r
  | _ => a.entering cell clock

end Admission

namespace World

/-- Show calls and notices, and change what a cache stores. -/
def exhibit (w : World) (c : Nat) (calls : List Call) (notices : List Notice) (store : Store) :
    World :=
  { w with trace := { w.trace with
      calls := w.trace.calls ++ calls
      notices := w.trace.notices ++ notices } }.setStore c store

/-- End a turn in the critical section. -/
def leave (w : World) (i : Nat) (a : Admission) : Exit → World
  | .held phase => (w.setPhase i phase).park a.cache i
  | .failed fault => w.abortAdmission i a fault
  | .decided outcome => w.conclude i a outcome

/-- Carry out a passage. -/
def pass (w : World) (i : Nat) (a : Admission) (p : Passage) : World :=
  (w.exhibit a.cache p.calls p.notices p.store).leave i a p.exit

/-! ### Turns are passages -/

theorem logAll_eq (w : World) (notices : List Notice) :
    w.logAll notices =
      { w with trace := { w.trace with notices := w.trace.notices ++ notices } } := by
  induction notices generalizing w with
  | nil => simp [logAll]
  | cons n rest ih =>
    rw [logAll, List.foldl_cons, ← logAll, ih]
    simp [log]

theorem setStore_self {w : World} {c : Nat} {cell : CacheCell} (h : w.caches[c]? = some cell) :
    w.setStore c cell.store = w := by
  have e : w.caches.modify c (fun cell' => { cell' with store := cell.store }) = w.caches := by
    apply Array.ext_getElem?
    intro j
    rw [Array.getElem?_modify]
    by_cases hj : c = j
    · subst hj
      simp [h]
    · simp [hj]
  simp [setStore, e]

theorem setStore_setStore (w : World) (c : Nat) (s t : Store) :
    (w.setStore c s).setStore c t = w.setStore c t := by
  have e : (w.caches.modify c fun cell => { cell with store := s }).modify c
      (fun cell => { cell with store := t }) =
        w.caches.modify c fun cell => { cell with store := t } := by
    apply Array.ext_getElem?
    intro j
    simp only [Array.getElem?_modify]
    by_cases hj : c = j
    · simp only [hj, if_true, Option.map_map]
      rfl
    · simp [hj]
  simp [setStore, e]

theorem exhibit_exhibit (w : World) (c : Nat) (ks ls : List Call) (ms ns : List Notice)
    (s t : Store) :
    (w.exhibit c ks ms s).exhibit c ls ns t = w.exhibit c (ks ++ ls) (ms ++ ns) t := by
  have e := setStore_setStore
    { w with trace := { w.trace with
        calls := w.trace.calls ++ (ks ++ ls)
        notices := w.trace.notices ++ (ms ++ ns) } } c s t
  have hk : w.trace.calls ++ ks ++ ls = w.trace.calls ++ (ks ++ ls) := by
    apply Array.ext'
    simp
  have hn : w.trace.notices ++ ms ++ ns = w.trace.notices ++ (ms ++ ns) := by
    apply Array.ext'
    simp
  rw [exhibit, exhibit, exhibit, ← e]
  simp [setStore, hk, hn]

/-- To show nothing and store what is stored changes nothing. -/
theorem exhibit_nothing {w : World} {c : Nat} {cell : CacheCell} (h : w.caches[c]? = some cell) :
    w.exhibit c [] [] cell.store = w := by
  simpa [exhibit] using setStore_self h

theorem exhibit_call {w : World} {c : Nat} {cell : CacheCell} (h : w.caches[c]? = some cell)
    (call : Call) : w.exhibit c [call] [] cell.store = w.observe call := by
  have h' : (w.observe call).caches[c]? = some cell := h
  rw [← setStore_self h']
  simp [exhibit, observe, setStore]

theorem exhibit_notices {w : World} {c : Nat} {cell : CacheCell} (h : w.caches[c]? = some cell)
    (notices : List Notice) : w.exhibit c [] notices cell.store = w.logAll notices := by
  have h' : (w.logAll notices).caches[c]? = some cell := by rw [logAll_eq]; exact h
  rw [← setStore_self h', logAll_eq]
  simp [exhibit]

theorem caches_exhibit {w : World} {c : Nat} {cell : CacheCell} (h : w.caches[c]? = some cell)
    (calls : List Call) (notices : List Notice) (store : Store) :
    (w.exhibit c calls notices store).caches[c]? = some { cell with store } := by
  simp [exhibit, setStore, Array.getElem?_modify, h]

/-- A passage after some others were carried out but for their ends. -/
theorem pass_exhibit (w : World) (i : Nat) (a : Admission) (calls : List Call)
    (notices : List Notice) (store : Store) (p : Passage) :
    (w.exhibit a.cache calls notices store).pass i a p =
      w.pass i a { p with calls := calls ++ p.calls, notices := notices ++ p.notices } := by
  simp only [pass, exhibit_exhibit]

section

variable {w : World} {i : Nat} {a : Admission} {cell : CacheCell}

theorem storeReservation_eq (h : w.caches[a.cache]? = some cell) (d : Decision)
    (r : Reservation) :
    w.storeReservation i a d r = w.pass i a (a.storing cell w.clock.now d r) := by
  have clock (call : Call) : (w.observe call).clock = w.clock := rfl
  simp only [storeReservation, passGate, h, CacheCell.gate, Admission.storing, clock]
  cases cell.storeGate with
  | hold => simp [pass, exhibit_call h, leave]
  | fail => simp [pass, exhibit_nothing h, leave]
  | pass =>
    cases cell.store.set? w.clock.now a.key.text (.timestamp r.slot) r.lifetime with
    | none => simp [pass, exhibit_call h, leave]
    | some store => simp [pass, exhibit, leave, logAll_eq, observe, setStore]

theorem carryOut_eq (h : w.caches[a.cache]? = some cell) (d : Decision) :
    w.carryOut i a d = w.pass i a (a.carryingOut cell w.clock.now d) := by
  simp only [carryOut, Admission.carryingOut]
  rw [← exhibit_notices h]
  cases d.reservation? with
  | some r =>
    simp only []
    rw [storeReservation_eq (caches_exhibit h ..), pass_exhibit]
    rfl
  | none => simp [pass, leave]

theorem lookUp_eq (h : w.caches[a.cache]? = some cell) (reading : Timestamp) :
    w.lookUp i a reading = w.pass i a (a.lookingUp cell w.clock.now reading) := by
  simp only [lookUp, passGate, h, CacheCell.gate, Admission.lookingUp]
  cases cell.lookupGate with
  | hold => simp [pass, exhibit_call h, leave]
  | fail => simp [pass, exhibit_nothing h, leave]
  | pass =>
    obtain ⟨found, store⟩ := cell.store.get w.clock.now a.key.text
    have shown : (w.setStore a.cache store).observe (.lookup cell.name a.key found) =
        w.exhibit a.cache [.lookup cell.name a.key found] [] store := by
      simp [exhibit, observe, setStore]
    -- What goes on after the lookup sees the cache without the entry that expired.
    simp only []
    rw [shown, carryOut_eq (caches_exhibit h ..), pass_exhibit]
    rfl

theorem enter_eq (h : w.caches[a.cache]? = some cell) :
    w.enter i a = w.pass i a (a.entering cell w.clock) := by
  simp only [enter, Admission.entering]
  cases w.clock.read with
  | error fault => simp [pass, exhibit_nothing h, leave]
  | ok reading => exact lookUp_eq h reading

/-- A turn of an admission, by its phase. -/
theorem admissionTurn_eq (hi : w.admissions[i]? = some a) (h : w.caches[a.cache]? = some cell) :
    w.admissionTurn i =
      match a.phase with
      | .issued =>
        if (w.line a.lock).isEmpty then
          (w.setLine a.lock [i]).pass i a (a.passage cell w.clock)
        else (w.setLine a.lock (w.line a.lock ++ [i])).setPhase i .inLine
      | .waiting delay => w.finishWait i a delay
      | .finished => w
      | _ => w.pass i a (a.passage cell w.clock) := by
  have there (is : List Nat) : (w.setLine a.lock is).caches[a.cache]? = some cell := h
  simp only [admissionTurn, hi, Admission.passage]
  cases hp : a.phase with
  | issued =>
    simp only [getInLine]
    split
    · rename_i he
      rw [enter_eq (there _), List.isEmpty_iff.1 he]
      rfl
    · rfl
  | inLine => exact enter_eq h
  | beforeLookup reading => exact lookUp_eq h reading
  | beforeStore d r => exact storeReservation_eq h d r
  | waiting delay => rfl
  | finished => rfl

end

/-! ### What the others notice -/

section

variable (w : World) (i : Nat) (a : Admission)

/-- An admission that leaves its critical section hands its stripe on. -/
theorem leave_of_outcome {e : Exit} {o : Outcome} (he : e.outcome? = some o) :
    w.leave i a e = { w with
      admissions := w.admissions.modify i fun b => { b with phase := e.phase }
      lines := w.lines.set a.lock (w.line a.lock).tail
      ready := w.ready ++ ((w.line a.lock).tail.take 1).map .admission
      timers := w.timers ++ e.timers i w.clock.now
      trace := { w.trace with
        answers := w.trace.answers ++ e.answers i
        faults := w.trace.faults ++ e.faults } } := by
  match e, he with
  | .failed fault, _ =>
    simp [leave, abortAdmission, answer, release, setLine, enqueue, World.fault, setPhase,
      line, Exit.phase, Exit.timers, Exit.answers, Exit.faults]
  | .decided (.error reason), _ =>
    simp [leave, conclude, answer, release, setLine, enqueue, setPhase, Exit.phase, Exit.timers,
      Exit.answers, Exit.faults]
  | .decided (.ok delay), _ =>
    by_cases hd : delay = .zero <;>
      simp [leave, conclude, answer, release, setLine, enqueue, setPhase, World.wait, hd,
        Exit.phase, Exit.timers, Exit.answers, Exit.faults]

/-- An admission that is held keeps its stripe and is parked. -/
theorem leave_held (phase : Phase) :
    w.leave i a (.held phase) = { w with
      admissions := w.admissions.modify i fun b => { b with phase }
      caches := w.caches.modify a.cache fun cell =>
        { cell with parked := cell.parked ++ [i] } } := rfl

variable (p : Passage)

theorem admissions_pass : (w.pass i a p).admissions =
    w.admissions.modify i fun b => { b with phase := p.exit.phase } := by
  cases he : p.exit.outcome? with
  | none =>
    obtain ⟨phase, hp⟩ := Exit.held_of_outcome he
    rw [pass, hp]
    rfl
  | some o =>
    rw [pass, leave_of_outcome _ _ _ he]
    rfl

/-- A passage leaves in its cache what it stores. -/
theorem caches_pass (c : Nat) : ∃ parked : CacheCell → List Nat, (w.pass i a p).caches[c]? =
    w.caches[c]?.map fun cell =>
      if a.cache = c then { cell with store := p.store, parked := parked cell } else cell := by
  cases he : p.exit.outcome? with
  | none =>
    obtain ⟨phase, hp⟩ := Exit.held_of_outcome he
    -- Who is held is parked at the cache that it calls.
    refine ⟨fun cell => cell.parked ++ [i], ?_⟩
    rw [pass, hp, leave_held]
    simp only [exhibit, setStore, Array.getElem?_modify]
    by_cases h : a.cache = c <;> simp [h, Function.comp_def]
  | some o =>
    refine ⟨CacheCell.parked, ?_⟩
    rw [pass, leave_of_outcome _ _ _ he]
    simp only [exhibit, setStore, Array.getElem?_modify]
    by_cases h : a.cache = c <;> simp [h]

/-- What a passage leaves as it was. -/
theorem pass_frame : ∃ admissions caches lines ready timers trace, w.pass i a p =
    { w with admissions, caches, lines, ready, timers, trace } := by
  cases he : p.exit.outcome? with
  | none =>
    obtain ⟨phase, hp⟩ := Exit.held_of_outcome he
    rw [pass, hp]
    exact ⟨_, _, _, _, _, _, rfl⟩
  | some o =>
    rw [pass, leave_of_outcome _ _ _ he]
    exact ⟨_, _, _, _, _, _, rfl⟩

theorem limiters_pass : (w.pass i a p).limiters = w.limiters := by
  obtain ⟨_, _, _, _, _, _, e⟩ := pass_frame w i a p
  rw [e]

theorem clock_pass : (w.pass i a p).clock = w.clock := by
  obtain ⟨_, _, _, _, _, _, e⟩ := pass_frame w i a p
  rw [e]

theorem sweepers_pass : (w.pass i a p).sweepers = w.sweepers := by
  obtain ⟨_, _, _, _, _, _, e⟩ := pass_frame w i a p
  rw [e]

/-- A passage puts no sweeper anywhere. -/
theorem count_sweeper_pass (j : Nat) :
    (w.pass i a p).ready.count (.sweeper j) = w.ready.count (.sweeper j) ∧
      ((w.pass i a p).timers.map Timer.task).count (.sweeper j) =
        (w.timers.map Timer.task).count (.sweeper j) := by
  cases he : p.exit.outcome? with
  | none =>
    obtain ⟨phase, hp⟩ := Exit.held_of_outcome he
    rw [pass, hp]
    exact ⟨rfl, rfl⟩
  | some o =>
    rw [pass, leave_of_outcome _ _ _ he]
    have none (is : List Nat) : (is.map Task.admission).count (.sweeper j) = 0 :=
      List.count_eq_zero.2 (by simp)
    have nobody (now : Instant) :
        ((p.exit.timers i now).map Timer.task).count (.sweeper j) = 0 := by
      refine List.count_eq_zero.2 fun h => ?_
      obtain ⟨t, ht, own⟩ := List.mem_map.1 h
      obtain ⟨_, -, -, rfl⟩ := Exit.cases_of_mem_timers ht
      cases own
    exact ⟨by rw [List.count_append, none]; rfl,
      by rw [List.map_append, List.count_append, nobody]; rfl⟩

/-- A passage shows its calls. -/
theorem calls_pass : (w.pass i a p).trace.calls = w.trace.calls ++ p.calls := by
  cases he : p.exit.outcome? with
  | none =>
    obtain ⟨phase, hp⟩ := Exit.held_of_outcome he
    rw [pass, hp]
    rfl
  | some o =>
    rw [pass, leave_of_outcome _ _ _ he]
    rfl

/-- A passage logs its notices. -/
theorem notices_pass : (w.pass i a p).trace.notices = w.trace.notices ++ p.notices := by
  cases he : p.exit.outcome? with
  | none =>
    obtain ⟨phase, hp⟩ := Exit.held_of_outcome he
    rw [pass, hp]
    rfl
  | some o =>
    rw [pass, leave_of_outcome _ _ _ he]
    rfl

/-- A passage gives the answers of its end. -/
theorem answers_pass : (w.pass i a p).trace.answers = w.trace.answers ++ p.exit.answers i := by
  cases he : p.exit.outcome? with
  | none =>
    obtain ⟨phase, hp⟩ := Exit.held_of_outcome he
    rw [pass, hp, leave_held]
    simp [exhibit, setStore, Exit.answers]
  | some o =>
    rw [pass, leave_of_outcome _ _ _ he]
    rfl

/-- A passage sets the timer that its end asks for. -/
theorem timers_pass : (w.pass i a p).timers = w.timers ++ p.exit.timers i w.clock.now := by
  cases he : p.exit.outcome? with
  | none =>
    obtain ⟨phase, hp⟩ := Exit.held_of_outcome he
    rw [pass, hp, leave_held]
    simp [exhibit, setStore, Exit.timers]
  | some o =>
    rw [pass, leave_of_outcome _ _ _ he]
    rfl

/-- A passage shows the fault that it ends by. -/
theorem faults_pass : (w.pass i a p).trace.faults = w.trace.faults ++ p.exit.faults := by
  cases he : p.exit.outcome? with
  | none =>
    obtain ⟨phase, hp⟩ := Exit.held_of_outcome he
    rw [pass, hp, leave_held]
    simp [exhibit, setStore, Exit.faults]
  | some o =>
    rw [pass, leave_of_outcome _ _ _ he]
    rfl

end

end World

end Turnstile
