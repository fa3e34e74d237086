import Brainfuck.Machine.Run

/-! The course of a machine: where plain steps lead, and how the run that they make up ends.
A run finishes, fails or never ends. Plain steps decide which of the three it is, so two
machines are compared by their steps and the comparison is carried over to their runs.
-/

namespace Brainfuck.Machine

/-- The machine after a number of steps, unless one of them fails. -/
def after? (machine : Machine) : Nat → Option Machine
  | 0 => some machine
  | count + 1 =>
      match machine.step with
      | { machine := next, fault? := none } => next.after? count
      | _ => none

theorem after?_zero (machine : Machine) : machine.after? 0 = some machine :=
  rfl

/-- A first step that succeeds leaves the other steps to the next machine. -/
theorem after?_succ {machine next : Machine} (h : machine.step = { machine := next })
    (count : Nat)
    : machine.after? (count + 1) = next.after? count := by
  simp only [after?, h]

/-- Steps that succeed begin with one that does, by cases on its outcome. -/
theorem exists_step_of_after? {machine last : Machine} {count : Nat}
    (h : machine.after? (count + 1) = some last)
    : ∃ next, machine.step = { machine := next } ∧ next.after? count = some last := by
  unfold after? at h
  split at h
  · rename_i next step
    exact ⟨next, step, h⟩
  · contradiction

/-- Steps are taken in portions, by induction on the first portion. -/
theorem after?_add {machine middle : Machine} {count : Nat}
    (h : machine.after? count = some middle) (more : Nat)
    : machine.after? (count + more) = middle.after? more := by
  induction count generalizing machine with
  | zero =>
      cases h
      rw [Nat.zero_add]
  | succ count ih =>
      obtain ⟨next, step, rest⟩ := exists_step_of_after? h
      rw [Nat.add_right_comm, after?_succ step, ih rest]

theorem after?_snoc {machine middle next : Machine} {count : Nat}
    (h : machine.after? count = some middle) (step : middle.step = { machine := next })
    : machine.after? (count + 1) = some next := by
  rw [after?_add h, after?_succ step, after?]

/-- In front of the last of some steps every machine takes a step, by splitting the
steps there.
-/
theorem exists_step_of_after?_lt {machine last : Machine} {count total : Nat}
    (h : machine.after? total = some last) (lt : count < total)
    : ∃ middle next,
        machine.after? count = some middle ∧ middle.step = { machine := next } := by
  induction count generalizing machine total with
  | zero =>
      obtain ⟨rest, rfl⟩ : ∃ rest, total = rest + 1 := ⟨total - 1, by omega⟩
      obtain ⟨next, step, _⟩ := exists_step_of_after? h
      exact ⟨machine, next, rfl, step⟩
  | succ count ih =>
      obtain ⟨rest, rfl⟩ : ∃ rest, total = rest + 1 := ⟨total - 1, by omega⟩
      obtain ⟨second, step, later⟩ := exists_step_of_after? h
      obtain ⟨middle, next, reached, last⟩ := ih later (by omega)
      exact ⟨middle, next, (after?_succ step count).trans reached, last⟩

theorem step_of_finished {machine : Machine} (h : machine.finished = true)
    : machine.step = { machine, fault? := some .alreadyCompleted } := by
  simp only [step, notice, h, if_true]

theorem finished_of_step {machine next : Machine}
    (h : machine.step = { machine := next })
    : machine.finished = false := by
  cases done : machine.finished with
  | false => rfl
  | true => simp [step_of_finished done] at h

/-- Steps lead to one machine at most from which no step succeeds. Witness: behind the
smaller number of steps there would be a step that succeeds.
-/
theorem after?_unique {machine left right : Machine} {first second : Nat}
    (hl : machine.after? first = some left) (hr : machine.after? second = some right)
    (stuckLeft : left.step.fault? ≠ none) (stuckRight : right.step.fault? ≠ none)
    : first = second ∧ left = right := by
  have same : first = second := by
    rcases Nat.lt_trichotomy first second with lt | same | lt
    · obtain ⟨middle, next, reached, step⟩ := exists_step_of_after?_lt hr lt
      cases hl.symm.trans reached
      exact absurd (by rw [step]) stuckLeft
    · exact same
    · obtain ⟨middle, next, reached, step⟩ := exists_step_of_after?_lt hl lt
      cases hr.symm.trans reached
      exact absurd (by rw [step]) stuckRight
  subst same
  exact ⟨rfl, Option.some.inj (hl.symm.trans hr)⟩

/-- A machine that steps is not yet the one from which no step succeeds. -/
theorem after?_of_stuck {machine next last : Machine} {count : Nat}
    (reached : machine.after? count = some last) (stuck : last.step.fault? ≠ none)
    (step : machine.step = { machine := next })
    : ∃ fewer, count = fewer + 1 ∧ next.after? fewer = some last := by
  cases count with
  | zero =>
      cases reached
      exact absurd (by rw [step]) stuck
  | succ fewer => exact ⟨fewer, rfl, (after?_succ step fewer).symm.trans reached⟩

theorem eq_of_fault {machine next last : Machine} {fault : Fault} {count : Nat}
    (reached : machine.after? count = some last)
    (step : machine.step = { machine := next, fault? := some fault })
    : last = machine := by
  cases count with
  | zero => exact (Option.some.inj reached).symm
  | succ count =>
      obtain ⟨_, other, _⟩ := exists_step_of_after? reached
      simp [step] at other

-----------------------------------------------------------------------------------------
-- Runs in terms of attempted steps
-----------------------------------------------------------------------------------------

section Runs

variable {α : Type} (hear : α → Notice → α)

/-- A step that succeeds was announced, and is what an attempt makes of it. -/
theorem attempt_of_step {machine next : Machine} (h : machine.step = { machine := next })
    : ∃ notice,
        machine.notice = .ok notice
        ∧ ∀ left heard,
            machine.attempt hear (left + 1) heard
              = { state := next, heard := hear heard notice, allowance := left } := by
  unfold step at h
  split at h
  · simp at h
  · rename_i notice announced
    refine ⟨notice, announced, ?_⟩
    intro left heard
    simp only [attempt, announced, h]

/-- A step that cannot be announced is not attempted. -/
theorem attempt_of_unannounced {machine : Machine} {fault : Fault}
    (unannounced : machine.notice = .error fault) (allowance : Nat) (heard : α)
    : machine.attempt hear allowance heard
      = { state := machine, heard, allowance, ending := .failed fault } := by
  simp only [attempt, unannounced]

/-- A step whose notice is not admitted is not attempted either. -/
theorem attempt_zero {machine : Machine} {notice : Notice}
    (announced : machine.notice = .ok notice) (heard : α)
    : machine.attempt hear 0 heard
      = { state := machine, heard, allowance := 0, ending := .refused } := by
  simp only [attempt, announced]

/-- A step that fails after it was announced is what an attempt makes of it. -/
theorem attempt_of_fault {machine next : Machine} {notice : Notice} {fault : Fault}
    (announced : machine.notice = .ok notice)
    (h : machine.step = { machine := next, fault? := some fault }) (left : Nat) (heard : α)
    : machine.attempt hear (left + 1) heard
      = {
          state := next
          heard := hear heard notice
          allowance := left
          ending := .failed fault
        } := by
  simp only [step, announced] at h
  simp only [attempt, announced, h]

theorem run_of_finished {machine : Machine} (h : machine.finished = true)
    (allowance : Nat) (heard : α)
    : machine.run hear allowance heard = { state := machine, heard, allowance } := by
  cases allowance <;> simp only [run, h, if_true]

theorem run_of_step {machine next : Machine} (h : machine.step = { machine := next })
    : ∃ notice,
        machine.notice = .ok notice
        ∧ ∀ left heard,
            machine.run hear (left + 1) heard
              = next.run hear left (hear heard notice) := by
  obtain ⟨notice, announced, attempted⟩ := attempt_of_step hear h
  refine ⟨notice, announced, ?_⟩
  intro left heard
  simp [run, finished_of_step h, attempted]

theorem run_of_fault {machine next : Machine} {fault : Fault}
    (unfinished : machine.finished = false)
    (h : machine.step = { machine := next, fault? := some fault }) (left : Nat) (heard : α)
    : (machine.run hear (left + 1) heard).state = next
      ∧ (machine.run hear (left + 1) heard).ending = .failed fault := by
  unfold step at h
  split at h <;> rename_i announced
  · obtain ⟨rfl, rfl⟩ := by simpa using h
    simp [run, unfinished, attempt, announced]
  · simp [run, unfinished, attempt, announced, h]

end Runs

theorem runSilently_of_step {machine next : Machine}
    (h : machine.step = { machine := next }) (left : Nat)
    : machine.runSilently (left + 1) = next.runSilently left := by
  obtain ⟨_, _, passed⟩ := run_of_step (fun (_ : Unit) _ => ()) h
  exact passed left ()

theorem runSilently_zero_of_step {machine next : Machine}
    (h : machine.step = { machine := next })
    : (machine.runSilently 0).ending = .refused := by
  obtain ⟨notice, announced, _⟩ := attempt_of_step (fun (_ : Unit) _ => ()) h
  simp [runSilently, run, finished_of_step h, attempt, announced]

-----------------------------------------------------------------------------------------
-- The three ways in which a run can end
-----------------------------------------------------------------------------------------

/-- The run returns and leaves this machine behind. -/
def FinishesAs (machine final : Machine) : Prop :=
  ∃ allowance,
    (machine.runSilently allowance).state = final
    ∧ (machine.runSilently allowance).ending = .returned

/-- The run fails with this fault and leaves this machine behind. -/
def FailsAs (machine final : Machine) (fault : Fault) : Prop :=
  ∃ allowance,
    (machine.runSilently allowance).state = final
    ∧ (machine.runSilently allowance).ending = .failed fault

/-- The run does not end, however many steps it is allowed to take. -/
def RunsForever (machine : Machine) : Prop :=
  ∀ allowance, (machine.runSilently allowance).ending = .refused

/-- A machine finishes at once, fails with its first step, or takes that step. -/
inductive Outlook (machine : Machine) : Prop
  | finished (done : machine.finished = true)
  | fails (next : Machine) (fault : Fault) (unfinished : machine.finished = false)
    (step : machine.step = { machine := next, fault? := some fault })
  | steps (next : Machine) (step : machine.step = { machine := next })

/-- Every machine has one of the three outlooks. -/
theorem outlook (machine : Machine) : machine.Outlook := by
  cases done : machine.finished with
  | true => exact .finished done
  | false =>
      cases attempted : machine.step with
      | mk next fault? =>
          cases fault? with
          | none => exact .steps next attempted
          | some fault => exact .fails next fault done attempted

/-- A run that returns is a number of plain steps to a machine that has finished. Witness:
one direction by induction on the allowance, the other on the number of steps.
-/
theorem finishesAs_iff {machine final : Machine}
    : machine.FinishesAs final
      ↔ ∃ count, machine.after? count = some final ∧ final.finished = true := by
  constructor
  · rintro ⟨allowance, state, ending⟩
    induction allowance generalizing machine with
    | zero =>
        cases machine.outlook with
        | finished done =>
            rw [runSilently, run_of_finished _ done] at state
            cases state
            exact ⟨0, rfl, done⟩
        | fails next fault unfinished step =>
            cases announced : machine.notice <;>
              simp [runSilently, run, unfinished, attempt, announced] at ending
        | steps next step => simp [runSilently_zero_of_step step] at ending
    | succ left ih =>
        cases machine.outlook with
        | finished done =>
            rw [runSilently, run_of_finished _ done] at state
            cases state
            exact ⟨0, rfl, done⟩
        | fails next fault unfinished step =>
            have failed := (run_of_fault (fun (_ : Unit) _ => ()) unfinished step left ()).2
            simp [runSilently, failed] at ending
        | steps next step =>
            rw [runSilently_of_step step] at state ending
            obtain ⟨count, reached, done⟩ := ih state ending
            exact ⟨count + 1, (after?_succ step count).trans reached, done⟩
  · rintro ⟨count, reached, done⟩
    refine ⟨count, ?_⟩
    induction count generalizing machine with
    | zero =>
        cases reached
        simp [runSilently, run_of_finished _ done]
    | succ count ih =>
        obtain ⟨next, step, rest⟩ := exists_step_of_after? reached
        rw [runSilently_of_step step]
        exact ih rest

/-- A run that fails is a number of plain steps up to one that fails. Witness: one
direction by induction on the allowance, the other on the number of steps.
-/
theorem failsAs_iff {machine final : Machine} {fault : Fault}
    : machine.FailsAs final fault
      ↔ ∃ count last,
          machine.after? count = some last
          ∧ last.finished = false
          ∧ last.step = { machine := final, fault? := some fault } := by
  constructor
  · rintro ⟨allowance, state, ending⟩
    induction allowance generalizing machine with
    | zero =>
        cases machine.outlook with
        | finished done => simp [runSilently, run_of_finished _ done] at ending
        | fails next other unfinished step =>
            refine ⟨0, machine, rfl, unfinished, ?_⟩
            cases announced : machine.notice with
            | error cause =>
                simp only [runSilently, run, unfinished, attempt, announced, Bool.false_eq_true,
                  if_false, Ending.failed.injEq] at state ending
                subst state ending
                simp only [Machine.step, announced]
            | ok notice => simp [runSilently, run, unfinished, attempt, announced] at ending
        | steps next step => simp [runSilently_zero_of_step step] at ending
    | succ left ih =>
        cases machine.outlook with
        | finished done => simp [runSilently, run_of_finished _ done] at ending
        | fails next other unfinished step =>
            have failed := run_of_fault (fun (_ : Unit) _ => ()) unfinished step left ()
            rw [runSilently, failed.1] at state
            rw [runSilently, failed.2] at ending
            cases state
            cases ending
            exact ⟨0, machine, rfl, unfinished, step⟩
        | steps next step =>
            rw [runSilently_of_step step] at state ending
            obtain ⟨count, last, reached, rest⟩ := ih state ending
            exact ⟨count + 1, last, (after?_succ step count).trans reached, rest⟩
  · rintro ⟨count, last, reached, unfinished, step⟩
    refine ⟨count + 1, ?_⟩
    induction count generalizing machine with
    | zero =>
        cases reached
        exact run_of_fault _ unfinished step 0 ()
    | succ count ih =>
        obtain ⟨next, first, rest⟩ := exists_step_of_after? reached
        rw [runSilently_of_step first]
        exact ih rest

/-- A run that never ends takes any number of plain steps. Witness: one direction by
induction on the number of steps, the other on the allowance.
-/
theorem runsForever_iff {machine : Machine}
    : machine.RunsForever ↔ ∀ count, (machine.after? count).isSome := by
  constructor
  · intro forever count
    induction count generalizing machine with
    | zero => rfl
    | succ count ih =>
        cases machine.outlook with
        | finished done =>
            have refused := forever 0
            simp [runSilently, run_of_finished _ done] at refused
        | fails next fault unfinished step =>
            have refused := forever 1
            simp [runSilently, run_of_fault _ unfinished step 0 ()] at refused
        | steps next step =>
            rw [after?_succ step]
            apply ih
            intro allowance
            simpa only [runSilently_of_step step] using forever (allowance + 1)
  · intro steps allowance
    induction allowance generalizing machine with
    | zero =>
        obtain ⟨last, reached⟩ := Option.isSome_iff_exists.mp (steps 1)
        obtain ⟨next, step, _⟩ := exists_step_of_after? reached
        exact runSilently_zero_of_step step
    | succ left ih =>
        obtain ⟨last, reached⟩ := Option.isSome_iff_exists.mp (steps 1)
        obtain ⟨next, step, _⟩ := exists_step_of_after? reached
        rw [runSilently_of_step step]
        apply ih
        intro count
        simpa only [after?_succ step] using steps (count + 1)

/-- A run finishes, fails or never ends, because all its endings are refusals or not. -/
theorem course (machine : Machine)
    : (∃ final, machine.FinishesAs final)
      ∨ (∃ final fault, machine.FailsAs final fault)
      ∨ machine.RunsForever := by
  by_cases forever : machine.RunsForever
  · exact Or.inr (Or.inr forever)
  · obtain ⟨allowance, ended⟩ := Classical.not_forall.mp forever
    cases ending : (machine.runSilently allowance).ending with
    | returned => exact Or.inl ⟨_, allowance, rfl, ending⟩
    | failed fault => exact Or.inr (Or.inl ⟨_, fault, allowance, rfl, ending⟩)
    | refused => exact absurd ending ended

end Brainfuck.Machine
