import Brainfuck.Proofs.Execution.Failure

/-! Operations under a listener.
A listener hears of a step before anything changes, so a step that it refuses has not begun.
Whatever is asked of a machine, it is always where as many attempted steps lead as notices were
admitted.
-/

namespace Brainfuck.Machine

-----------------------------------------------------------------------------------------
-- Attempts under a listener
-----------------------------------------------------------------------------------------

/-- Attempts go on from where earlier ones have led, by induction on the later ones. -/
theorem tried_add (machine : Machine) (first more : Nat)
    : (machine.tried first).tried more = machine.tried (first + more) := by
  induction more with
  | zero => rfl
  | succ more ih => rw [tried, ih, ← Nat.add_assoc, tried]

/-- Steps that have succeeded are attempts, by induction on them. -/
theorem tried_of_after? {machine last : Machine} {count : Nat}
    (reached : machine.after? count = some last)
    : machine.tried count = last := by
  induction count generalizing machine with
  | zero => exact Option.some.inj reached
  | succ count ih =>
      obtain ⟨next, step, rest⟩ := exists_step_of_after? reached
      have first : machine.tried 1 = next := by rw [tried, tried, step]
      rw [Nat.add_comm, ← tried_add, first, ih rest]

/-- A step was attempted for each of these notices, and was announced by it. -/
structure Attempted (machine : Machine) (notices : List Notice) (last : Machine) : Prop where
  last_eq : last = machine.tried notices.length
  announced
    : ∀ (index : Nat) notice,
        notices[index]? = some notice
        → (machine.tried index).notice = .ok notice

theorem Attempted.none (machine : Machine) : machine.Attempted [] machine :=
  ⟨rfl, nofun⟩

/-- Attempts are joined by joining their notices. -/
theorem Attempted.append {machine middle last : Machine} {notices more : List Notice}
    (h : machine.Attempted notices middle) (later : middle.Attempted more last)
    : machine.Attempted (notices ++ more) last := by
  have place (index : Nat) : middle.tried index = machine.tried (notices.length + index) := by
    rw [h.last_eq, tried_add]
  constructor
  · rw [later.last_eq, place, List.length_append]
  · intro index notice found
    rw [List.getElem?_append] at found
    split at found
    · exact h.announced index notice found
    · have announced := later.announced _ notice found
      rwa [place, Nat.add_sub_cancel' (by omega)] at announced

theorem Attempted.one {machine : Machine} {notice : Notice}
    (announced : machine.notice = .ok notice)
    : machine.Attempted [notice] machine.step.machine := by
  refine ⟨rfl, ?_⟩
  intro index other found
  cases index with
  | zero => exact Option.some.inj found ▸ announced
  | succ index => simp at found

/-- What a listener sees of a machine: it has finished, or cannot announce its next step, or
announces a step that passes or fails.
-/
inductive Prospect (machine : Machine) : Prop
  | finished (done : machine.finished = true)
  | unannounced {fault : Fault} (unfinished : machine.finished = false)
    (unannounced : machine.notice = .error fault)
  | passes {notice : Notice} {next : Machine} (unfinished : machine.finished = false)
    (announced : machine.notice = .ok notice) (step : machine.step = { machine := next })
  | fails {notice : Notice} {next : Machine} {fault : Fault}
    (unfinished : machine.finished = false) (announced : machine.notice = .ok notice)
    (step : machine.step = { machine := next, fault? := some fault })

theorem prospect (machine : Machine) : machine.Prospect := by
  cases machine.outlook with
  | finished done => exact .finished done
  | fails next fault unfinished step =>
      cases announced : machine.notice with
      | error cause => exact .unannounced unfinished announced
      | ok notice => exact .fails unfinished announced step
  | steps next step =>
      obtain ⟨notice, announced, _⟩ := attempt_of_step (fun (_ : Unit) _ => ()) step
      exact .passes (finished_of_step step) announced step

/-- A step that cannot be announced fails for that reason. -/
theorem step_of_unannounced {machine : Machine} {fault : Fault}
    (unannounced : machine.notice = .error fault)
    : machine.step = { machine, fault? := some fault } := by
  simp only [step, unannounced]

section Listeners

variable {α : Type} (hear : α → Notice → α) {machine next : Machine} {notice : Notice}
  {fault : Fault}

theorem attempt_of_announced_step (announced : machine.notice = .ok notice)
    (step : machine.step = { machine := next }) (left : Nat) (heard : α)
    : machine.attempt hear (left + 1) heard
      = { state := next, heard := hear heard notice, allowance := left } := by
  obtain ⟨other, same, attempted⟩ := attempt_of_step hear step
  cases announced.symm.trans same
  exact attempted left heard

/-- A step that is admitted is what an attempt makes of it, whether it fails or not. -/
theorem attempt_of_announced (announced : machine.notice = .ok notice) (left : Nat) (heard : α)
    : machine.attempt hear (left + 1) heard
      = {
          state := machine.step.machine
          heard := hear heard notice
          allowance := left
          ending :=
            match machine.step.fault? with
            | none => .returned
            | some fault => .failed fault
        } := by
  rcases step : machine.step with ⟨next, _ | fault⟩
  · exact attempt_of_announced_step hear announced step left heard
  · exact attempt_of_fault hear announced step left heard

theorem run_zero_of_announced (unfinished : machine.finished = false)
    (announced : machine.notice = .ok notice) (heard : α)
    : machine.run hear 0 heard
      = { state := machine, heard, allowance := 0, ending := .refused } := by
  rw [run, attempt_zero hear announced, unfinished, if_neg Bool.false_ne_true]

theorem run_of_unannounced (unfinished : machine.finished = false)
    (unannounced : machine.notice = .error fault) (allowance : Nat) (heard : α)
    : machine.run hear allowance heard
      = { state := machine, heard, allowance, ending := .failed fault } := by
  cases allowance <;>
    simp only [run, unfinished, attempt_of_unannounced hear unannounced, Bool.false_eq_true,
      if_false]

theorem run_of_announced_step (unfinished : machine.finished = false)
    (announced : machine.notice = .ok notice) (step : machine.step = { machine := next })
    (left : Nat) (heard : α)
    : machine.run hear (left + 1) heard = next.run hear left (hear heard notice) := by
  simp only [run, unfinished, attempt_of_announced_step hear announced step, Bool.false_eq_true,
    if_false]

theorem run_of_announced_fault (unfinished : machine.finished = false)
    (announced : machine.notice = .ok notice)
    (step : machine.step = { machine := next, fault? := some fault }) (left : Nat) (heard : α)
    : machine.run hear (left + 1) heard
      = {
          state := next
          heard := hear heard notice
          allowance := left
          ending := .failed fault
        } := by
  simp only [run, unfinished, attempt_of_fault hear announced step, Bool.false_eq_true, if_false]

end Listeners

-----------------------------------------------------------------------------------------
-- Operations
-----------------------------------------------------------------------------------------

/-- What can be asked of a machine: some steps, or a run. In the course of it a listener admits
a number of notices, and refuses the next one.
-/
inductive Operation where
  | steps (count allowance : Nat)
  | run (allowance : Nat)
deriving DecidableEq, Repr

/-- The notices that are admitted in the course of an operation. -/
def Operation.allowance : Operation → Nat
  | .steps _ allowance => allowance
  | .run allowance => allowance

/-- An operation that returns after these many notices has done what it was asked to do. -/
def Operation.IsDone (last : Machine) (heard : Nat) : Operation → Prop
  | .steps count _ => heard = count
  | .run _ => last.finished = true

/-- Does what is asked under a listener. -/
def conduct {α : Type} (hear : α → Notice → α) (heard : α) (machine : Machine)
    : Operation → Run Machine α
  | .steps count allowance => machine.steps hear count allowance heard
  | .run allowance => machine.run hear allowance heard

/-- Does what is asked in order, however each operation ends, and joins what is heard. -/
def conductAll {α : Type} (hear : α → Notice → α)
    : List Operation → α → Machine → Machine × α
  | [], heard, machine => (machine, heard)
  | operation :: later, heard, machine =>
      let { state, heard, .. } := machine.conduct hear heard operation
      conductAll hear later heard state

/-- What an operation leaves behind. A step was attempted for each notice that was admitted,
and none for one that was refused.
-/
structure Conducted {α : Type} (hear : α → Notice → α) (heard : α) (machine : Machine)
    (operation : Operation) (notices : List Notice) (left : Run Machine α)
    : Prop where
  attempted : machine.Attempted notices left.state
  heard_eq : left.heard = notices.foldl hear heard
  limited : notices.length + left.allowance = operation.allowance
  returned : left.ending = .returned → operation.IsDone left.state notices.length
  failed : ∀ fault, left.ending = .failed fault → left.state.step.fault? = some fault
  refused
    : left.ending = .refused → left.allowance = 0 ∧ ∃ notice, left.state.notice = .ok notice

/-- A step that has failed would fail again. -/
theorem fault_of_fault {machine next : Machine} {fault : Fault}
    (step : machine.step = { machine := next, fault? := some fault })
    : next.step.fault? = some fault := by
  have fails : machine.step.fault? = some fault := by rw [step]
  obtain ⟨metrics, left⟩ := exists_metrics_of_fault fails
  have same : next = machine.withMetrics metrics := by rw [← left, step]
  rw [same, fault_withMetrics, fails]

section Listeners

variable {α : Type} {hear : α → Notice → α} {heard : α} {machine next : Machine}
  {operation : Operation} {notice : Notice} {fault : Fault}

/-- An operation that is done at once attempts nothing. -/
theorem Conducted.of_done (done : operation.IsDone machine 0) (heard : α)
    : Conducted hear heard machine operation []
        { state := machine, heard, allowance := operation.allowance } where
  attempted := .none machine
  heard_eq := rfl
  limited := Nat.zero_add _
  returned _ := done
  failed := nofun
  refused := nofun

theorem Conducted.of_unannounced (unannounced : machine.notice = .error fault)
    (operation : Operation) (heard : α)
    : Conducted hear heard machine operation []
        {
          state := machine
          heard
          allowance := operation.allowance
          ending := .failed fault
        } where
  attempted := .none machine
  heard_eq := rfl
  limited := Nat.zero_add _
  returned := nofun
  failed cause same := by
    cases same
    rw [step_of_unannounced unannounced]
  refused := nofun

/-- A step that the listener refuses is none of those that were attempted. -/
theorem Conducted.of_refusal (announced : machine.notice = .ok notice)
    (none : operation.allowance = 0) (heard : α)
    : Conducted hear heard machine operation []
        { state := machine, heard, allowance := 0, ending := .refused } where
  attempted := .none machine
  heard_eq := rfl
  limited := none.symm
  returned := nofun
  failed := nofun
  refused _ := ⟨rfl, notice, announced⟩

theorem Conducted.of_fault (announced : machine.notice = .ok notice)
    (step : machine.step = { machine := next, fault? := some fault }) {left : Nat}
    (admitted : operation.allowance = left + 1) (heard : α)
    : Conducted hear heard machine operation [notice]
        {
          state := next
          heard := hear heard notice
          allowance := left
          ending := .failed fault
        } where
  attempted := by
    have one := Attempted.one announced
    rwa [step] at one
  heard_eq := rfl
  limited := by rw [admitted, List.length_singleton, Nat.add_comm]
  returned := nofun
  failed cause same := by
    cases same
    exact fault_of_fault step
  refused := nofun

/-- A step that passes is put in front of what comes behind it. -/
theorem Conducted.prepend {later : Operation} {notices : List Notice} {left : Run Machine α}
    (rest : Conducted hear (hear heard notice) next later notices left)
    (announced : machine.notice = .ok notice) (step : machine.step = { machine := next })
    (admitted : operation.allowance = later.allowance + 1)
    (done
      : later.IsDone left.state notices.length
        → operation.IsDone left.state (notices.length + 1))
    : Conducted hear heard machine operation (notice :: notices) left where
  attempted := by
    have one := Attempted.one announced
    rw [step] at one
    exact one.append rest.attempted
  heard_eq := rest.heard_eq
  limited := by
    have limited := rest.limited
    rw [List.length_cons]
    omega
  returned returns := done (rest.returned returns)
  failed := rest.failed
  refused := rest.refused

/-- Steps leave behind what they should, by induction on their number. -/
theorem steps_conducted (hear : α → Notice → α) (count allowance : Nat) (heard : α)
    (machine : Machine)
    : ∃ notices,
        Conducted hear heard machine (.steps count allowance) notices
          (machine.steps hear count allowance heard) := by
  induction count generalizing allowance heard machine with
  | zero =>
      have done : (Operation.steps 0 allowance).IsDone machine 0 := rfl
      exact ⟨[], .of_done done heard⟩
  | succ count ih =>
      cases announced : machine.notice with
      | error fault =>
          simp only [steps, attempt_of_unannounced hear announced]
          exact ⟨[], .of_unannounced announced (.steps (count + 1) allowance) heard⟩
      | ok notice =>
          cases allowance with
          | zero =>
              simp only [steps, attempt_zero hear announced]
              exact ⟨[], .of_refusal announced rfl heard⟩
          | succ left =>
              cases step : machine.step with
              | mk next fault? =>
                  cases fault? with
                  | none =>
                      obtain ⟨notices, rest⟩ := ih left (hear heard notice) next
                      simp only [steps, attempt_of_announced_step hear announced step]
                      exact ⟨notice :: notices,
                        rest.prepend announced step rfl (congrArg (· + 1))⟩
                  | some fault =>
                      simp only [steps, attempt_of_fault hear announced step]
                      exact ⟨[notice], .of_fault announced step rfl heard⟩

/-- A run leaves behind what it should, by induction on the notices that are admitted. -/
theorem run_conducted (hear : α → Notice → α) (allowance : Nat) (heard : α)
    (machine : Machine)
    : ∃ notices,
        Conducted hear heard machine (.run allowance) notices
          (machine.run hear allowance heard) := by
  induction allowance generalizing heard machine with
  | zero =>
      cases machine.prospect with
      | finished done =>
          have isDone : (Operation.run 0).IsDone machine 0 := done
          rw [run_of_finished hear done]
          exact ⟨[], .of_done isDone heard⟩
      | unannounced unfinished unannounced =>
          rw [run_of_unannounced hear unfinished unannounced]
          exact ⟨[], .of_unannounced unannounced (.run 0) heard⟩
      | passes unfinished announced step | fails unfinished announced step =>
          rw [run_zero_of_announced hear unfinished announced]
          exact ⟨[], .of_refusal announced rfl heard⟩
  | succ left ih =>
      cases machine.prospect with
      | finished done =>
          have isDone : (Operation.run (left + 1)).IsDone machine 0 := done
          rw [run_of_finished hear done]
          exact ⟨[], .of_done isDone heard⟩
      | unannounced unfinished unannounced =>
          rw [run_of_unannounced hear unfinished unannounced]
          exact ⟨[], .of_unannounced unannounced (.run (left + 1)) heard⟩
      | @passes notice next unfinished announced step =>
          obtain ⟨notices, rest⟩ := ih (hear heard notice) next
          rw [run_of_announced_step hear unfinished announced step]
          exact ⟨notice :: notices, rest.prepend announced step rfl id⟩
      | @fails notice next fault unfinished announced step =>
          rw [run_of_announced_fault hear unfinished announced step]
          exact ⟨[notice], .of_fault announced step rfl heard⟩

/-- Every operation leaves behind what it should. -/
theorem conduct_conducted (hear : α → Notice → α) (heard : α) (machine : Machine)
    (operation : Operation)
    : ∃ notices,
        Conducted hear heard machine operation notices
          (machine.conduct hear heard operation) := by
  cases operation with
  | steps count allowance => exact steps_conducted hear count allowance heard machine
  | run allowance => exact run_conducted hear allowance heard machine

/-- Operations one after the other attempt a step for each notice that was admitted, and none
besides; by induction on the operations.
-/
theorem conductAll_attempted (hear : α → Notice → α) (operations : List Operation) (heard : α)
    (machine : Machine)
    : ∃ notices,
        machine.Attempted notices (conductAll hear operations heard machine).1
        ∧ (conductAll hear operations heard machine).2 = notices.foldl hear heard := by
  induction operations generalizing heard machine with
  | nil => exact ⟨[], .none machine, rfl⟩
  | cons operation later ih =>
      obtain ⟨notices, conducted⟩ := conduct_conducted hear heard machine operation
      obtain ⟨more, attempted, heard_eq⟩ :=
        ih (machine.conduct hear heard operation).heard (machine.conduct hear heard operation).state
      refine ⟨notices ++ more, conducted.attempted.append attempted, ?_⟩
      rw [List.foldl_append, ← conducted.heard_eq, ← heard_eq]
      rfl

end Listeners

/-- A listener that keeps all notices has kept those of the steps that were attempted. -/
theorem conductAll_push (machine : Machine) (operations : List Operation)
    : machine.Attempted (conductAll Array.push operations #[] machine).2.toList
        (conductAll Array.push operations #[] machine).1 := by
  obtain ⟨notices, attempted, heard⟩ := conductAll_attempted Array.push operations #[] machine
  rw [heard]
  simpa using attempted

end Brainfuck.Machine
