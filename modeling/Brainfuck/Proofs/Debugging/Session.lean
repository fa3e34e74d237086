import Brainfuck.Debugger
import Brainfuck.Proofs.Execution.Transition

/-! Debugging sessions.
A session is what becomes of a debugger by one operation after the other, together with a
record of the steps that have returned. A listener that counts keeps the record; it hears of
every step, so a step that fails is taken off again.
-/

namespace Brainfuck.Debugger

/-- What is asked of a debugger that has loaded a program. Resuming is executing. -/
inductive Operation where
  | execute (allowance : Nat)
  | step (allowance : Nat)
  | add (breakpoint : Breakpoint)
  | remove (address : Int)
  | switch (address : Int) (enabled : Bool)
deriving DecidableEq, Repr

/-- A debugger since it has loaded a program: how many steps have returned, whether a step
has failed, and the fault that the latest operation has let through from the machine.
-/
structure Session where
  debugger : Debugger
  returned : Nat := 0
  raised : Bool := false
  letThrough? : Option Fault := none
deriving DecidableEq, Repr

/-- A listener that counts. -/
def counting (heard : Nat) (_ : Notice) : Nat :=
  heard + 1

namespace Session

/-- Takes over an activity of the debugger. A fault without any notice is no step that has
failed: there was no step to take.
-/
def follow (session : Session) (run : Run Debugger Nat) : Session :=
  match run.ending with
  | .failed fault =>
      {
        debugger := run.state
        returned := session.returned + (run.heard - 1)
        raised := session.raised || 0 < run.heard
        letThrough? := some fault
      }
  | _ =>
      {
        debugger := run.state
        returned := session.returned + run.heard
        raised := session.raised
      }

/-- Takes over another debugger, or keeps the old one when the change is refused. -/
def change (session : Session) : Except Fault Debugger → Session
  | .error _ => { session with letThrough? := none }
  | .ok debugger => { session with debugger, letThrough? := none }

/-- Performs an operation. -/
def perform (session : Session) : Operation → Session
  | .execute allowance => session.follow (session.debugger.execute counting allowance 0)
  | .step allowance => session.follow (session.debugger.step counting allowance 0)
  | .add breakpoint => session.change (session.debugger.addBreakpoint breakpoint)
  | .remove address =>
      session.change ((session.debugger.removeBreakpoint address).map Prod.snd)
  | .switch address enabled =>
      session.change (.ok (session.debugger.switchBreakpoint address enabled))

/-- Performs operations in order. -/
def performAll (session : Session) (operations : List Operation) : Session :=
  operations.foldl perform session

theorem debugger_follow (session : Session) (run : Run Debugger Nat)
    : (session.follow run).debugger = run.state := by
  unfold follow
  split <;> rfl

end Session

/-- Two debuggers hold the same machine and tell the same about it. -/
structure SameState (debugger after : Debugger) : Prop where
  machine : after.machine? = debugger.machine?
  complete : after.complete = debugger.complete
  interrupted : after.breakpoints.interrupted = debugger.breakpoints.interrupted

/-- The operation executes or steps. -/
def Operation.isActivity : Operation → Bool
  | .execute _ | .step _ => true
  | .add _ | .remove _ | .switch _ _ => false

/-- What an operation comes to in a session: an activity, or a change that leaves the machine
alone.
-/
inductive Session.Performs (session : Session) : Operation → Prop
  | execute (allowance : Nat) : Performs session (.execute allowance)
  | step (allowance : Nat) : Performs session (.step allowance)
  | changes {operation : Operation} {result : Except Fault Debugger}
    (passive : operation.isActivity = false)
    (performed : session.perform operation = session.change result)
    (keeps : ∀ debugger, result = .ok debugger → session.debugger.SameState debugger)
    : Performs session operation

/-- Every operation comes to one of these, because breakpoints are changed by themselves. -/
theorem Session.performs (session : Session) (operation : Operation)
    : session.Performs operation := by
  cases operation with
  | execute allowance => exact .execute allowance
  | step allowance => exact .step allowance
  | add breakpoint =>
      refine .changes rfl rfl ?_
      intro debugger added
      unfold addBreakpoint Breakpoints.add at added
      split at added
      · contradiction
      · rename_i breakpoints inserted
        cases added
        split at inserted
        · contradiction
        · split at inserted <;> cases inserted
          exact ⟨rfl, rfl, rfl⟩
  | remove address =>
      refine .changes rfl rfl ?_
      intro debugger removed
      unfold removeBreakpoint Breakpoints.remove at removed
      split at removed
      · contradiction
      · rename_i breakpoint breakpoints found
        cases removed
        split at found <;> cases found
        exact ⟨rfl, rfl, rfl⟩
  | switch address enabled =>
      have performed
          : session.perform (.switch address enabled)
            = session.change (.ok (session.debugger.switchBreakpoint address enabled)) :=
        rfl
      refine .changes rfl performed ?_
      intro debugger switched
      cases switched
      exact ⟨rfl, rfl, rfl⟩

-----------------------------------------------------------------------------------------
-- What activities do to the machine
-----------------------------------------------------------------------------------------

open Machine

/-- What an activity has done to a machine, by what its listener has heard: the machine has
taken every step that was announced, or the last one has failed.
-/
inductive Follows (before : Machine) (heard : Nat) (after : Machine) (later : Nat)
    (ending : Ending) : Prop
  | passes {count : Nat} (reached : before.after? count = some after)
    (counted : later = heard + count) (ended : ∀ fault, ending ≠ .failed fault)
  | stops {last : Machine} {count : Nat} {fault : Fault}
    (reached : before.after? count = some last) (unfinished : last.finished = false)
    (step : last.step = { machine := after, fault? := some fault })
    (counted : later = heard + count + 1) (ended : ending = .failed fault)

/-- An activity that does nothing. -/
theorem Follows.rest (machine : Machine) (heard : Nat) {ending : Ending}
    (ended : ∀ fault, ending ≠ .failed fault)
    : Follows machine heard machine heard ending :=
  .passes (after?_zero machine) rfl ended

theorem Follows.prepend {before next after : Machine} {heard later : Nat} {ending : Ending}
    (h : Follows next (heard + 1) after later ending)
    (step : before.step = { machine := next })
    : Follows before heard after later ending := by
  cases h with
  | passes reached counted ended =>
      exact .passes ((after?_succ step _).trans reached) (by omega) ended
  | stops reached unfinished failed counted ended =>
      exact .stops ((after?_succ step _).trans reached) unfinished failed (by omega) ended

section Activities

variable {code : Code} {address : Nat} {store : Store} {metrics : Metrics}

/-- What a single attempt has done. -/
theorem attempt_follows (executable : code.Executable) (inside : address < code.length)
    (allowance heard : Nat) {run : Run Machine Nat}
    (h : (placed code address store metrics).attempt counting allowance heard = run)
    : Follows (placed code address store metrics) heard run.state run.heard run.ending := by
  obtain ⟨notice, announced⟩ := exists_notice_placed inside store metrics
  subst h
  cases allowance with
  | zero =>
      simp only [attempt, announced]
      exact .rest _ heard (by simp)
  | succ left =>
      cases transition executable inside with
      | moves next later executed skipped changes step =>
          obtain ⟨_, _, attempted⟩ := attempt_of_step counting (step metrics)
          rw [attempted]
          exact .passes (after?_succ (step metrics) 0) rfl (by simp)
      | fails fault executed skipped changes step =>
          rw [attempt_of_fault counting announced (step metrics)]
          exact .stops (after?_zero _) (unfinished_placed.mpr inside) (step metrics) rfl rfl

/-- What a step of the debugger has done, which is nothing when the machine has finished. -/
theorem single_follows (executable : code.Executable) (allowance heard : Nat)
    {run : Run Machine Nat}
    (h
      : (if (placed code address store metrics).finished then
            { state := placed code address store metrics, heard, allowance }
          else (placed code address store metrics).attempt counting allowance heard)
        = run)
    : Follows (placed code address store metrics) heard run.state run.heard run.ending := by
  split at h
  · subst h
    exact .rest _ heard (by simp)
  · rename_i unfinished
    have inside := unfinished_placed.mp (Bool.eq_false_iff.mpr unfinished)
    exact attempt_follows executable inside allowance heard h

/-- A pursuit takes steps of the machine and none besides, whatever the breakpoints are, by
induction on the notices that are admitted.
-/
theorem pursue_follows (executable : code.Executable) (allowance heard : Nat)
    (breakpoints : Breakpoints) {run : Run (Breakpoints × Machine) Nat}
    (h : pursue counting allowance heard breakpoints (placed code address store metrics) = run)
    : Follows (placed code address store metrics) heard run.state.2 run.heard run.ending := by
  induction allowance generalizing address store metrics heard breakpoints with
  | zero =>
      unfold pursue at h
      split at h
      · subst h
        exact .rest _ heard (by simp)
      · rename_i unfinished
        have inside := unfinished_placed.mp (Bool.eq_false_iff.mpr unfinished)
        split at h
        · subst h
          exact .rest _ heard (by simp)
        · subst h
          exact attempt_follows executable inside 0 heard rfl
  | succ left ih =>
      unfold pursue at h
      split at h
      · subst h
        exact .rest _ heard (by simp)
      · rename_i unfinished
        have inside := unfinished_placed.mp (Bool.eq_false_iff.mpr unfinished)
        split at h
        · subst h
          exact .rest _ heard (by simp)
        · obtain ⟨notice, announced⟩ := exists_notice_placed inside store metrics
          cases transition executable inside with
          | moves next between executed skipped changes step =>
              obtain ⟨_, _, attempted⟩ := attempt_of_step counting (step metrics)
              rw [attempted] at h
              exact (ih (heard + 1) _ h).prepend (step metrics)
          | fails fault executed skipped changes step =>
              rw [attempt_of_fault counting announced (step metrics)] at h
              subst h
              exact .stops (after?_zero _) (unfinished_placed.mpr inside) (step metrics) rfl rfl

end Activities

end Brainfuck.Debugger
