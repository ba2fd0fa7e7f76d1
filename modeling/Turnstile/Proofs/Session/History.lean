import Turnstile.Proofs.Session.Passage

/-!
# Histories

The *history* of a session is the list of its turns: each a `Moment`, the world in
which a task is the next in the queue. What a turn does is read off the worlds
before and after it: the calls it shows (`Moment.calls`), the answers it gives
(`Moment.answers`), and the decision on a request (`Moment.decision?`), which comes
before the answer when the request has to wait.

A `Course` leads from a world to another by steps and turns in any order, the steps
being restricted as one likes. It is what inductions are on. A session is a course
(`course_history`), in which a step comes only when no task can go on.
-/

namespace Turnstile

/-- A turn: the world before it, and whose turn it is. -/
structure Moment where
  world : World
  task : Task

/-- Whether a request is decided. -/
def Phase.isDecided : Phase → Bool
  | .waiting _ | .finished => true
  | _ => false

/-- How far an admission has come. -/
def World.phase? (w : World) (i : Nat) : Option Phase := w.admissions[i]?.map (·.phase)

/-- The world once the next task is taken from the queue. -/
def World.taken (w : World) : World := { w with ready := w.ready.tail }

namespace Moment

variable (m : Moment)

/-- The world after the turn. -/
def after : World := m.world.taken.turn m.task

/-- The calls shown in the turn. -/
def calls : List Call := m.after.trace.calls.toList.drop m.world.trace.calls.size

/-- The answers given in the turn. -/
def answers : List (Nat × Outcome) := m.after.trace.answers.toList.drop m.world.trace.answers.size

/-- The request decided in the turn, with the outcome: it is given its answer, or
    begins to wait for its slot. -/
def decision? : Option (Nat × Outcome) :=
  match m.task with
  | .sweeper _ => none
  | .admission i =>
    if (m.world.phase? i).any Phase.isDecided then none
    else
      match m.after.phase? i with
      | some (.waiting delay) => some (i, .ok delay)
      | _ => m.answers.head?

end Moment

namespace World

/-- The world after a step, before the tasks have their turns. -/
def acted (w : World) (s : Step) : World := ({ w with trace := {} }.act s).1

/-- A number of turns, as long as tasks are ready. -/
def turns : Nat → World → List Moment
  | 0, _ => []
  | n + 1, w =>
    match w.ready with
    | [] => []
    | task :: _ => ⟨w, task⟩ :: turns n (Moment.after ⟨w, task⟩)

/-- The turns until no task can go on. -/
def settling (w : World) : List Moment :=
  turns (2 * (w.admissions.size + w.sweepers.size)) w

/-- The turns in a session that goes on from a world. -/
def history (w : World) : List Step → List Moment
  | [] => []
  | s :: rest => (w.acted s).settling ++ (w.step s).1.history rest

/-- The world at the end of a session that goes on from a world. -/
def final (w : World) : List Step → World
  | [] => w
  | s :: rest => (w.step s).1.final rest

/-- Every step of a session is one that may be made in the world it is made in. -/
def Along (ok : World → Step → Prop) (w : World) : List Step → Prop
  | [] => True
  | s :: rest => ok w s ∧ (w.step s).1.Along ok rest

instance (ok : World → Step → Prop) [∀ w s, Decidable (ok w s)] (w : World) (steps : List Step) :
    Decidable (w.Along ok steps) :=
  match steps with
  | [] => isTrue trivial
  | s :: rest =>
    have : Decidable ((w.step s).1.Along ok rest) := instDecidableAlong ok (w.step s).1 rest
    inferInstanceAs (Decidable (_ ∧ _))

/-! ### Turns until none can go on -/

section

variable {w : World}

/-- A world with an empty queue is settled. -/
theorem takeTurns_of_ready_nil (hr : w.ready = []) (n : Nat) : takeTurns n w = w := by
  cases n with
  | zero => rfl
  | succ n => simp only [takeTurns, hr]

theorem takeTurns_succ {task : Task} (hr : w.ready.head? = some task) (n : Nat) :
    takeTurns (n + 1) w = takeTurns n (w.taken.turn task) := by
  obtain ⟨rest, hr⟩ := List.head?_eq_some_iff.1 hr
  simp [takeTurns, taken, hr]

/-- What every turn keeps is so after some of them. -/
theorem takeTurns_induction {P : World → Prop}
    (step : ∀ {w : World} {task : Task}, P w → w.ready.head? = some task → P (w.taken.turn task))
    (n : Nat) (h : P w) : P (takeTurns n w) := by
  induction n generalizing w with
  | zero => exact h
  | succ n ih =>
    cases hr : w.ready.head? with
    | none => rwa [takeTurns_of_ready_nil (List.head?_eq_none_iff.1 hr)]
    | some task =>
      rw [takeTurns_succ hr]
      exact ih (step h hr)

end

end World

/-- A course of events from a world: the turns taken, and the world it leads to. -/
inductive Course (ok : World → Step → Prop) (w₀ : World) : List Moment → World → Prop
  | start : Course ok w₀ [] w₀
  | act {h : List Moment} {w : World} {s : Step} :
      Course ok w₀ h w → ok w s → Course ok w₀ h (w.acted s)
  | turn {h : List Moment} {w : World} {task : Task} {rest : List Task} :
      Course ok w₀ h w → w.ready = task :: rest →
      Course ok w₀ (h ++ [⟨w, task⟩]) (Moment.after ⟨w, task⟩)

namespace Course

variable {ok : World → Step → Prop} {w₀ w : World} {h : List Moment}

theorem trans {h' : List Moment} {w' : World} (c : Course ok w₀ h w) (d : Course ok w h' w') :
    Course ok w₀ (h ++ h') w' := by
  induction d with
  | start => simpa using c
  | act _ hs ih => exact ih.act hs
  | turn _ hr ih =>
    rw [← List.append_assoc]
    exact ih.turn hr

/-- A turn that splits a history splits the course: it leads to the turn, and on from it. -/
theorem at_split (c : Course ok w₀ h w) {before after : List Moment} {m : Moment}
    (split : h = before ++ m :: after) :
    Course ok w₀ before m.world ∧ (∃ rest, m.world.ready = m.task :: rest) ∧
      Course ok m.after after w := by
  induction c generalizing after with
  | start => simp at split
  | act _ hs ih =>
    obtain ⟨hither, taken, thence⟩ := ih split
    exact ⟨hither, taken, thence.act hs⟩
  | @turn h w task rest c hr ih =>
    rcases List.eq_nil_or_concat after with rfl | ⟨after', last, rfl⟩
    · obtain ⟨rfl, e⟩ := List.append_inj' split rfl
      cases e
      exact ⟨c, ⟨rest, hr⟩, .start⟩
    · rw [List.concat_eq_append, ← List.cons_append, ← List.append_assoc] at split
      obtain ⟨e, last'⟩ := List.append_inj' split rfl
      cases last'
      obtain ⟨hither, taken, thence⟩ := ih e
      exact ⟨hither, taken, by rw [List.concat_eq_append]; exact thence.turn hr⟩

/-- A course up to one of its turns. -/
theorem before (c : Course ok w₀ h w) {m : Moment} (hm : m ∈ h) :
    ∃ h₁ h₂, h = h₁ ++ m :: h₂ ∧ Course ok w₀ h₁ m.world ∧
      ∃ rest, m.world.ready = m.task :: rest := by
  obtain ⟨h₁, h₂, split⟩ := List.append_of_mem hm
  obtain ⟨hither, taken, -⟩ := c.at_split split
  exact ⟨h₁, h₂, split, hither, taken⟩

theorem of_turns (n : Nat) (w : World) :
    Course ok w (World.turns n w) (World.takeTurns n w) := by
  -- By induction on the turns: the rest are turns from the world after the first.
  induction n generalizing w with
  | zero => exact .start
  | succ n ih =>
    cases hr : w.ready with
    | nil =>
      simp only [World.turns, World.takeTurns, hr]
      exact .start
    | cons task rest =>
      have first : Course ok w [⟨w, task⟩] (Moment.after ⟨w, task⟩) := Course.start.turn hr
      have e : Moment.after ⟨w, task⟩ = { w with ready := rest }.turn task := by
        simp [Moment.after, World.taken, hr]
      simp only [World.turns, World.takeTurns, hr]
      rw [← e]
      exact first.trans (ih _)

end Course

/-- A session is a course. -/
theorem World.course_history {ok : World → Step → Prop} {w : World} {steps : List Step}
    (hs : w.Along ok steps) : Course ok w (w.history steps) (w.final steps) := by
  induction steps generalizing w with
  | nil => exact .start
  | cons s rest ih =>
    have acted : Course ok w [] (w.acted s) := Course.start.act hs.1
    exact (acted.trans (.of_turns _ _)).trans (ih hs.2)

/-- In a session all steps may be made, if nothing restricts them. -/
theorem World.along_true (w : World) (steps : List Step) : w.Along (fun _ _ => True) steps := by
  induction steps generalizing w with
  | nil => trivial
  | cons s rest ih => exact ⟨trivial, ih _⟩

/-! ### Sessions that go on -/

namespace World

variable (w : World) (before after : List Step) (s : Step)

theorem final_append : w.final (before ++ after) = (w.final before).final after := by
  induction before generalizing w with
  | nil => rfl
  | cons s rest ih => exact ih _

theorem run_append : w.run (before ++ after) = w.run before ++ (w.final before).run after := by
  induction before generalizing w with
  | nil => rfl
  | cons s rest ih => exact congrArg _ (ih _)

theorem history_append :
    w.history (before ++ after) = w.history before ++ (w.final before).history after := by
  induction before generalizing w with
  | nil => rfl
  | cons s rest ih => simp only [List.cons_append, history, ih, final, List.append_assoc]

theorem along_append {ok : World → Step → Prop} :
    w.Along ok (before ++ after) ↔ w.Along ok before ∧ (w.final before).Along ok after := by
  induction before generalizing w with
  | nil => exact iff_of_eq (true_and _).symm
  | cons s rest ih => simp only [List.cons_append, Along, ih, final, and_assoc]

theorem final_concat : w.final (before ++ [s]) = ((w.final before).step s).1 :=
  w.final_append before [s]

theorem run_concat : w.run (before ++ [s]) = w.run before ++ [((w.final before).step s).2] :=
  w.run_append before [s]

theorem history_concat :
    w.history (before ++ [s]) = w.history before ++ ((w.final before).acted s).settling := by
  rw [history_append, history, history, List.append_nil]

/-- There is a report on every step. -/
theorem length_run : (w.run before).length = before.length := by
  induction before generalizing w with
  | nil => rfl
  | cons s rest ih => exact congrArg (· + 1) (ih _)

end World

end Turnstile
