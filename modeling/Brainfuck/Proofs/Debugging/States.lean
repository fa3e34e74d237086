import Brainfuck.Proofs.Debugging.Session
import Brainfuck.Proofs.Debugging.Stops
import Brainfuck.Proofs.Execution.Failure

/-! The states of a debugger.
Without a program it is idle, and with one it is running, interrupted or complete. Two flags
and the machine tell which, and no sequence of calls brings them out of step, also when calls
fail half way.
-/

namespace Brainfuck

namespace Machine

/-- A machine that has not finished does not fail for having finished. -/
theorem kind_of_unfinished {machine : Machine} {fault : Fault}
    (unfinished : machine.finished = false) (fails : machine.step.fault? = some fault)
    : fault.kind ≠ .illegalResume := by
  cases machine.stepping with
  | completed done step => simp [done] at unfinished
  | missing _ front kind step =>
      rw [step] at fails
      cases fails
      simp [kind]
  | fails _ inside announced effect step =>
      rw [step] at fails
      cases fails
      exact (kind_of_effect effect).1
  | passes _ inside announced effect step => simp [step] at fails

/-- How an activity ends that stops short: the machine that it leaves has not finished, and that
is not what it has failed for.
-/
structure StopsShort (left : Machine) (ending : Ending) : Prop where
  unfinished : left.finished = false
  kind : ∀ fault, ending = .failed fault → fault.kind ≠ .illegalResume

theorem stopsShort_of_fault {machine next : Machine} {fault : Fault}
    (unfinished : machine.finished = false)
    (step : machine.step = { machine := next, fault? := some fault })
    : StopsShort next (.failed fault) := by
  have fails : machine.step.fault? = some fault := by rw [step]
  obtain ⟨metrics, left⟩ := exists_metrics_of_fault fails
  rw [step] at left
  subst left
  refine ⟨unfinished, ?_⟩
  intro other same
  cases same
  exact kind_of_unfinished unfinished fails

section Activities

variable {α : Type} (hear : α → Notice → α)

/-- An attempt that does not return stops short, whether it has failed or was refused. -/
theorem attempt_stopsShort {machine : Machine} (unfinished : machine.finished = false)
    {allowance : Nat} {heard : α}
    (stopped : (machine.attempt hear allowance heard).ending ≠ .returned)
    : StopsShort (machine.attempt hear allowance heard).state
        (machine.attempt hear allowance heard).ending := by
  cases announced : machine.notice with
  | error cause =>
      have step : machine.step = { machine, fault? := some cause } := by
        simp only [Machine.step, announced]
      rw [attempt_of_unannounced hear announced]
      exact stopsShort_of_fault unfinished step
  | ok notice =>
      cases allowance with
      | zero =>
          rw [attempt_zero hear announced]
          refine ⟨unfinished, ?_⟩
          intro fault failed
          contradiction
      | succ left =>
          cases machine.outlook with
          | finished done => simp [done] at unfinished
          | fails next fault _ step =>
              rw [attempt_of_fault hear announced step]
              exact stopsShort_of_fault unfinished step
          | steps next step =>
              obtain ⟨_, _, attempted⟩ := attempt_of_step hear step
              simp [attempted] at stopped

end Activities

end Machine

namespace Debugger

open Machine

-----------------------------------------------------------------------------------------
-- Executions and steps
-----------------------------------------------------------------------------------------

section Activities

variable {α : Type} (hear : α → Notice → α)

/-- A pursuit that does not return stops short, by induction on the notices that are admitted.
-/
theorem pursue_stopsShort {breakpoints : Breakpoints} {machine : Machine} {allowance : Nat}
    {heard : α} (stopped : (pursue hear allowance heard breakpoints machine).ending ≠ .returned)
    : StopsShort (pursue hear allowance heard breakpoints machine).state.2
        (pursue hear allowance heard breakpoints machine).ending := by
  induction allowance generalizing heard breakpoints machine with
  | zero =>
      cases done : machine.finished with
      | true => simp [pursue_of_finished hear done] at stopped
      | false =>
          by_cases interrupts : breakpoints.Interrupts machine.counter
          · simp [pursue_of_interrupts hear done interrupts] at stopped
          · obtain ⟨state, ending⟩ := pursue_zero hear done interrupts heard
            rw [ending] at stopped
            rw [state, ending]
            exact attempt_stopsShort hear done stopped
  | succ left ih =>
      cases machine.outlook with
      | finished done => simp [pursue_of_finished hear done] at stopped
      | fails next fault unfinished step =>
          by_cases interrupts : breakpoints.Interrupts machine.counter
          · simp [pursue_of_interrupts hear unfinished interrupts] at stopped
          · obtain ⟨state, ending⟩ := pursue_of_fault hear unfinished interrupts step left heard
            rw [state, ending]
            exact stopsShort_of_fault unfinished step
      | steps next step =>
          by_cases interrupts : breakpoints.Interrupts machine.counter
          · simp [pursue_of_interrupts hear (finished_of_step step) interrupts] at stopped
          · obtain ⟨_, notice, passed⟩ := pursue_of_step hear interrupts step
            rw [passed] at stopped ⊢
            exact ih stopped

/-- What executing or stepping does to a debugger. It is refused without any change when there
is nothing to execute; else the debugger tells afterwards whether its machine has finished.
-/
inductive Activity (debugger : Debugger) (heard : α) (run : Run Debugger α) : Prop
  | refused {fault : Fault}
    (closed : debugger.machine? = none ∨ debugger.complete = true)
    (unchanged : run.state = debugger) (silent : run.heard = heard)
    (ending : run.ending = .failed fault) (kind : fault.kind = .illegalResume)
  | worked {machine : Machine} (loaded : debugger.machine? ≠ none)
    (running : debugger.complete = false) (holds : run.state.machine? = some machine)
    (tells : run.state.complete = machine.finished)
    (kind : ∀ fault, run.ending = .failed fault → fault.kind ≠ .illegalResume)

/-- A debugger that is complete when an activity has returned with a finished machine tells
whether its machine has finished, because activities that stop short leave another one.
-/
theorem activity_of_stopsShort {debugger : Debugger} {heard : α} {run : Run Debugger α}
    {machine : Machine} (loaded : debugger.machine? ≠ none)
    (running : debugger.complete = false) (holds : run.state.machine? = some machine)
    (tells : run.state.complete = (decide (run.ending = .returned) && machine.finished))
    (short : run.ending ≠ .returned → StopsShort machine run.ending)
    : debugger.Activity heard run := by
  refine .worked loaded running holds ?_ ?_
  · rw [tells]
    by_cases returned : run.ending = .returned
    · simp [returned]
    · simp [(short returned).unfinished]
  · intro fault failed
    have stopped : run.ending ≠ .returned := by simp [failed]
    exact (short stopped).kind fault failed

theorem activity_execute (debugger : Debugger) (allowance : Nat) (heard : α)
    : debugger.Activity heard (debugger.execute hear allowance heard) := by
  obtain ⟨configuration, breakpoints, machine?, complete⟩ := debugger
  cases machine? with
  | none => exact .refused (Or.inl rfl) rfl rfl rfl rfl
  | some machine =>
      cases complete with
      | true => exact .refused (Or.inr rfl) rfl rfl rfl rfl
      | false =>
          refine activity_of_stopsShort (Option.some_ne_none machine) rfl rfl rfl ?_
          intro stopped
          exact pursue_stopsShort hear stopped

theorem activity_step (debugger : Debugger) (allowance : Nat) (heard : α)
    : debugger.Activity heard (debugger.step hear allowance heard) := by
  obtain ⟨configuration, breakpoints, machine?, complete⟩ := debugger
  cases machine? with
  | none => exact .refused (Or.inl rfl) rfl rfl rfl rfl
  | some machine =>
      cases complete with
      | true => exact .refused (Or.inr rfl) rfl rfl rfl rfl
      | false =>
          refine activity_of_stopsShort (Option.some_ne_none machine) rfl rfl rfl ?_
          simp only [Debugger.step]
          intro stopped
          cases done : machine.finished with
          | true => simp [done] at stopped
          | false =>
              simp only [done, Bool.false_eq_true, if_false] at stopped ⊢
              exact attempt_stopsShort hear done stopped

end Activities

-----------------------------------------------------------------------------------------
-- Calls of a debugger, from its creation on
-----------------------------------------------------------------------------------------

/-- What can be asked of a debugger at any time. Resuming is executing, and an activity that
ends by itself does so however many more notices are admitted.
-/
inductive Call where
  | load (program : Program) (input : Input) (output : Output)
  | operate (operation : Operation)
deriving DecidableEq, Repr

/-- A debugger from its creation on, and whether it has been asked to execute or to step since
the latest load.
-/
structure Lifetime where
  debugger : Debugger
  used : Bool := false
deriving DecidableEq, Repr

namespace Lifetime

/-- A debugger that has just been made. -/
def new (configuration : Configuration) : Lifetime :=
  { debugger := { configuration } }

/-- Answers a call. A load that is refused leaves everything as it was. -/
def answer (life : Lifetime) : Call → Lifetime
  | .load program input output =>
      match life.debugger.load program input output with
      | .error _ => life
      | .ok debugger => { debugger }
  | .operate operation =>
      let session : Session := { debugger := life.debugger }
      {
        debugger := (session.perform operation).debugger
        used := life.used || operation.isActivity
      }

/-- Answers calls in order. -/
def answerAll (life : Lifetime) (calls : List Call) : Lifetime :=
  calls.foldl answer life

/-- What the flags of a debugger tell. It is complete when its machine has finished, but for an
empty program that nobody has tried to execute, and interrupted only in between.
-/
structure Consistent (life : Lifetime) : Prop where
  complete
    : life.debugger.complete = true
      → (∃ machine, life.debugger.machine? = some machine ∧ machine.finished = true)
        ∧ life.debugger.breakpoints.interrupted = false
  interrupted
    : life.debugger.breakpoints.interrupted = true
      → (∃ machine, life.debugger.machine? = some machine ∧ machine.finished = false)
        ∧ life.debugger.complete = false
  finished
    : ∀ machine,
        life.debugger.machine? = some machine
        → machine.finished = true
        → life.debugger.complete = true ∨ machine.length = 0 ∧ life.used = false

/-- What every call keeps of consistency. The rest follows from it, because a machine is not
finished and unfinished at once.
-/
structure Tracks (life : Lifetime) : Prop where
  complete
    : life.debugger.complete = true
      → ∃ machine, life.debugger.machine? = some machine ∧ machine.finished = true
  coherent : life.debugger.Coherent
  finished
    : ∀ machine,
        life.debugger.machine? = some machine
        → machine.finished = true
        → life.debugger.complete = true ∨ machine.length = 0 ∧ life.used = false

theorem Tracks.consistent {life : Lifetime} (h : life.Tracks) : life.Consistent where
  complete complete := by
    obtain ⟨machine, loaded, done⟩ := h.complete complete
    refine ⟨⟨machine, loaded, done⟩, Bool.eq_false_iff.mpr ?_⟩
    intro interrupted
    obtain ⟨other, holds, unfinished⟩ := h.coherent interrupted
    cases loaded.symm.trans holds
    simp [done] at unfinished
  interrupted interrupted := by
    obtain ⟨machine, loaded, unfinished⟩ := h.coherent interrupted
    refine ⟨⟨machine, loaded, unfinished⟩, Bool.eq_false_iff.mpr ?_⟩
    intro complete
    obtain ⟨other, holds, done⟩ := h.complete complete
    cases loaded.symm.trans holds
    simp [done] at unfinished
  finished := h.finished

/-- Activities keep track of the machine, whether they are refused or not. -/
theorem Tracks.activity {life : Lifetime} (h : life.Tracks) {α : Type} {heard : α}
    {run : Run Debugger α} (activity : life.debugger.Activity heard run)
    (coherent : run.state.Coherent)
    : Tracks { debugger := run.state, used := true } := by
  cases activity with
  | refused closed unchanged silent ending kind =>
      rw [unchanged]
      refine ⟨h.complete, h.coherent, ?_⟩
      intro machine loaded done
      rcases closed with none | complete
      · simp [none] at loaded
      · exact Or.inl complete
  | @worked machine loaded running holds tells kind =>
      refine ⟨?_, coherent, ?_⟩
      · intro complete
        exact ⟨machine, holds, tells.symm.trans complete⟩
      · intro other also done
        cases holds.symm.trans also
        exact Or.inl (tells.trans done)

/-- A debugger in the same state keeps track of the same machine. -/
theorem Tracks.of_sameState {life : Lifetime} (h : life.Tracks) {debugger : Debugger}
    (same : life.debugger.SameState debugger)
    : Tracks { life with debugger } := by
  obtain ⟨machine, complete, interrupted⟩ := same
  refine ⟨?_, ?_, ?_⟩
  · simpa only [machine, complete] using h.complete
  · simpa only [Coherent, machine, interrupted] using h.coherent
  · simpa only [machine, complete] using h.finished

/-- A program that has just been loaded has finished only when it is empty. -/
theorem tracks_of_load {debugger loaded : Debugger} {program : Program} {input : Input}
    {output : Output} (loads : debugger.load program input output = .ok loaded)
    : Tracks { debugger := loaded } := by
  unfold Debugger.load at loads
  split at loads
  · contradiction
  · rename_i machine built
    cases loads
    rw [machine?_eq] at built
    split at built
    · contradiction
    · rename_i code prepared
      cases built
      refine ⟨nofun, nofun, ?_⟩
      intro machine same done
      cases same
      exact Or.inr ⟨Nat.le_zero.mp (finished_placed.mp done), rfl⟩

/-- Every operation keeps track of the machine, by cases on what it comes to. -/
theorem Tracks.operate {life : Lifetime} (h : life.Tracks) (operation : Operation)
    : (life.answer (.operate operation)).Tracks := by
  simp only [Lifetime.answer]
  cases Session.performs { debugger := life.debugger } operation with
  | execute allowance =>
      simp only [Session.perform, Session.debugger_follow, Operation.isActivity, Bool.or_true]
      exact h.activity (activity_execute counting life.debugger allowance 0)
        (h.coherent.execute counting allowance 0)
  | step allowance =>
      simp only [Session.perform, Session.debugger_follow, Operation.isActivity, Bool.or_true]
      exact h.activity (activity_step counting life.debugger allowance 0)
        (h.coherent.step counting allowance 0)
  | @changes _ result passive performed keeps =>
      rw [performed, passive, Bool.or_false]
      cases result with
      | error fault => exact h
      | ok debugger => exact h.of_sameState (keeps debugger rfl)

/-- Every call keeps track of the machine. -/
theorem Tracks.answer {life : Lifetime} (h : life.Tracks) (call : Call)
    : (life.answer call).Tracks := by
  cases call with
  | load program input output =>
      cases loads : life.debugger.load program input output with
      | error fault =>
          simp only [Lifetime.answer, loads]
          exact h
      | ok loaded =>
          simp only [Lifetime.answer, loads]
          exact tracks_of_load loads
  | operate operation => exact h.operate operation

/-- All calls keep track of the machine, by induction on them. -/
theorem Tracks.answerAll {life : Lifetime} (h : life.Tracks) (calls : List Call)
    : (life.answerAll calls).Tracks := by
  induction calls generalizing life with
  | nil => exact h
  | cons call calls ih => exact ih (h.answer call)

end Lifetime

/-- How a debugger refuses an activity: exactly without a program or when it is complete, and
with no change at all.
-/
structure RefusesWhenClosed (debugger : Debugger) {α : Type} (heard : α)
    (run : Run Debugger α) : Prop where
  refuses
    : (∃ fault, run.ending = .failed fault ∧ fault.kind = .illegalResume)
      ↔ debugger.machine? = none ∨ debugger.complete = true
  unchanged
    : debugger.machine? = none ∨ debugger.complete = true
      → run.state = debugger ∧ run.heard = heard

theorem Activity.refusesWhenClosed {debugger : Debugger} {α : Type} {heard : α}
    {run : Run Debugger α} (h : debugger.Activity heard run)
    : debugger.RefusesWhenClosed heard run := by
  cases h with
  | refused closed unchanged silent ending kind =>
      exact ⟨iff_of_true ⟨_, ending, kind⟩ closed, fun _ => ⟨unchanged, silent⟩⟩
  | worked loaded running holds tells kind =>
      have opened : ¬ (debugger.machine? = none ∨ debugger.complete = true) := by
        simp [loaded, running]
      refine ⟨iff_of_false ?_ opened, fun closed => absurd closed opened⟩
      rintro ⟨fault, failed, refused⟩
      exact kind fault failed refused

/-- Both activities are refused in this way, whatever listens and however many notices are
admitted.
-/
structure RefusesActivities (debugger : Debugger) : Prop where
  execute
    : ∀ {α : Type} (hear : α → Notice → α) (allowance : Nat) (heard : α),
        debugger.RefusesWhenClosed heard (debugger.execute hear allowance heard)
  step
    : ∀ {α : Type} (hear : α → Notice → α) (allowance : Nat) (heard : α),
        debugger.RefusesWhenClosed heard (debugger.step hear allowance heard)

theorem refusesActivities (debugger : Debugger) : debugger.RefusesActivities where
  execute hear allowance heard :=
    (activity_execute hear debugger allowance heard).refusesWhenClosed
  step hear allowance heard := (activity_step hear debugger allowance heard).refusesWhenClosed

/-- The states of a debugger are an invariant of all calls. After any calls, also failed ones,
the flags are consistent with the machine; and executing (or resuming, which is the same) and
stepping are refused exactly without a program or when the debugger is complete.
-/
theorem states_consistent (configuration : Configuration) (calls : List Call)
    : ((Lifetime.new configuration).answerAll calls).Consistent
      ∧ ((Lifetime.new configuration).answerAll calls).debugger.RefusesActivities := by
  have start : (Lifetime.new configuration).Tracks := ⟨nofun, nofun, nofun⟩
  exact ⟨(start.answerAll calls).consistent, refusesActivities _⟩

/-- An empty program has finished before anybody has tried to execute it. -/
example
    : ∃ machine,
        (Lifetime.new {}).answer (.load #[] .absent .empty)
          = { debugger := { machine? := some machine } }
        ∧ machine.finished = true :=
  ⟨_, rfl, rfl⟩

end Debugger

end Brainfuck
