import Brainfuck.Proofs.Debugging.Session
import Brainfuck.Proofs.Execution.Comparison

/-! Transparency of debugging.
A debugger neither skips nor repeats a step, whatever is asked of it. Its machine follows a
plain one that has taken the steps that returned; only the metrics differ, and only since a
step has failed, because a step that is tried again is counted again.
-/

namespace Brainfuck.Debugger

open Machine

variable {code : Code} {plain : Machine} {session : Session}

/-- The machine of a session is where the plain machine is after as many steps as have
returned. Either of them may have finished, and a fault that was let through is that of the
next plain step.
-/
inductive Shadows (code : Code) (plain : Machine) (session : Session) : Prop
  | at {address : Nat} {store : Store} {metrics plainMetrics : Metrics}
    (loaded : session.debugger.machine? = some (placed code address store metrics))
    (reached : plain.after? session.returned = some (placed code address store plainMetrics))
    (same : session.raised = false → metrics = plainMetrics)
    (done : session.debugger.complete = true → code.length ≤ address)
    (fault
      : ∀ fault,
          session.letThrough? = some fault
          → (placed code address store plainMetrics).step.fault? = some fault)

/-- An activity of the debugger leaves its machine where the plain one is. -/
theorem shadows_follow (executable : code.Executable) {address : Nat} {store : Store}
    {metrics plainMetrics : Metrics}
    (reached : plain.after? session.returned = some (placed code address store plainMetrics))
    (same : session.raised = false → metrics = plainMetrics) {run : Run Debugger Nat}
    {after : Machine} (loaded : run.state.machine? = some after)
    (done : run.state.complete = true → after.finished = true)
    (follows : Follows (placed code address store metrics) 0 after run.heard run.ending)
    : Shadows code plain (session.follow run) := by
  cases follows with
  | @passes count passed counted ended =>
      obtain ⟨next, later, executed, skipped, changes, rfl, others⟩ :=
        after?_placed executable passed
      have plainReached := (after?_add reached count).trans (others plainMetrics)
      have followed
          : session.follow run
            = {
                debugger := run.state
                returned := session.returned + count
                raised := session.raised
              } := by
        unfold Session.follow
        split
        · exact absurd ‹_› (ended _)
        · rw [counted, Nat.zero_add]
      rw [followed]
      refine .at loaded plainReached ?_ ?_ (by simp)
      · intro quiet
        rw [same quiet]
      · intro complete
        exact finished_placed.mp (done complete)
  | @stops last count fault passed unfinished step counted ended =>
      obtain ⟨next, later, executed, skipped, changes, rfl, others⟩ :=
        after?_placed executable passed
      have plainReached := (after?_add reached count).trans (others plainMetrics)
      have followed
          : session.follow run
            = {
                debugger := run.state
                returned := session.returned + count
                raised := true
                letThrough? := some fault
              } := by
        simp [Session.follow, ended, counted]
      rw [followed]
      -- A step that fails leaves its machine where it was, and fails again when it is retried.
      cases transition executable (unfinished_placed.mp unfinished) with
      | moves _ _ _ _ _ moves =>
          rw [moves] at step
          cases step
      | fails other _ _ _ fails =>
          rw [fails] at step
          cases step
          refine .at loaded plainReached (by simp) ?_ ?_
          · intro complete
            exact finished_placed.mp (done complete)
          · intro given letThrough
            rw [fails]
            exact letThrough

/-- A complete debugger refuses as its finished machine would, and nothing changes. -/
theorem shadows_rejected (h : Shadows code plain session)
    (complete : session.debugger.complete = true) (allowance : Nat)
    : Shadows code plain
        (session.follow
          {
            state := session.debugger
            heard := 0
            allowance
            ending := .failed .alreadyCompleted
          }) := by
  obtain ⟨loaded, reached, same, done, _⟩ := h
  refine .at loaded reached (by simpa [Session.follow] using same) done ?_
  intro fault letThrough
  obtain rfl : Fault.alreadyCompleted = fault := Option.some.inj letThrough
  rw [step_of_finished (finished_placed.mpr (done complete))]

/-- Executing takes steps of the machine, unless the debugger is complete. -/
theorem shadows_execute (executable : code.Executable) (h : Shadows code plain session)
    (allowance : Nat)
    : Shadows code plain (session.follow (session.debugger.execute counting allowance 0)) := by
  obtain ⟨⟨configuration, breakpoints, machine?, complete⟩, returned, raised, letThrough?⟩ :=
    session
  cases complete with
  | true =>
      have rejected := shadows_rejected h rfl allowance
      obtain ⟨rfl, _⟩ := h
      exact rejected
  | false =>
      obtain ⟨rfl, reached, same, _, _⟩ := h
      refine shadows_follow executable reached same rfl ?_
        (pursue_follows executable allowance 0 breakpoints rfl)
      intro complete
      exact (Bool.and_eq_true_iff.mp complete).2

/-- Stepping takes a step of the machine, unless the debugger is complete. -/
theorem shadows_step (executable : code.Executable) (h : Shadows code plain session)
    (allowance : Nat)
    : Shadows code plain (session.follow (session.debugger.step counting allowance 0)) := by
  obtain ⟨⟨configuration, breakpoints, machine?, complete⟩, returned, raised, letThrough?⟩ :=
    session
  cases complete with
  | true =>
      have rejected := shadows_rejected h rfl allowance
      obtain ⟨rfl, _⟩ := h
      exact rejected
  | false =>
      obtain ⟨rfl, reached, same, _, _⟩ := h
      refine shadows_follow executable reached same rfl ?_
        (single_follows executable allowance 0 rfl)
      intro complete
      exact (Bool.and_eq_true_iff.mp complete).2

/-- Changes of the breakpoints leave the machine alone. -/
theorem shadows_change (h : Shadows code plain session) {result : Except Fault Debugger}
    (keeps
      : ∀ debugger, result = .ok debugger → session.debugger.SameState debugger)
    : Shadows code plain (session.change result) := by
  obtain ⟨loaded, reached, same, done, _⟩ := h
  cases result with
  | error fault => exact .at loaded reached same done (by simp [Session.change])
  | ok debugger =>
      obtain ⟨machine, complete, _⟩ := keeps debugger rfl
      refine .at (machine.trans loaded) reached same ?_ (by simp [Session.change])
      intro given
      exact done (complete ▸ given)

/-- Every operation leaves the machine of a session where the plain one is. -/
theorem shadows_perform (executable : code.Executable) (h : Shadows code plain session)
    (operation : Operation)
    : Shadows code plain (session.perform operation) := by
  cases session.performs operation with
  | execute allowance => exact shadows_execute executable h allowance
  | step allowance => exact shadows_step executable h allowance
  | changes passive performed keeps =>
      rw [performed]
      exact shadows_change h keeps

/-- All operations leave the machine of a session where the plain one is, by induction on
them.
-/
theorem shadows_performAll (executable : code.Executable) (h : Shadows code plain session)
    (operations : List Operation)
    : Shadows code plain (session.performAll operations) := by
  induction operations generalizing session with
  | nil => exact h
  | cons operation operations ih => exact ih (shadows_perform executable h operation)

/-- Debugging is transparent. After a load and any operations, the machine of the debugger
has the counter and the store of the plain machine after as many steps as have returned. The
metrics are the same unless a step has failed, a fault that is let through is that of the next
plain step, and a debugger that is complete without a failed step holds what a run of the
plain machine returns.
-/
theorem debugging_transparent {debugger loaded : Debugger} {program : Program}
    {input : Input} {output : Output}
    (loads : debugger.load program input output = .ok loaded) (operations : List Operation)
    : ∃ plain machine reached,
        debugger.configuration.machine? program input output = .ok plain
        ∧ (Session.performAll { debugger := loaded } operations).debugger.machine?
          = some machine
        ∧ plain.after? (Session.performAll { debugger := loaded } operations).returned
          = some reached
        ∧ machine.code = reached.code
        ∧ machine.counter = reached.counter
        ∧ machine.store = reached.store
        ∧ ((Session.performAll { debugger := loaded } operations).raised = false
          → machine.metrics = reached.metrics)
        ∧ (∀ fault,
            (Session.performAll { debugger := loaded } operations).letThrough? = some fault
            → reached.step.fault? = some fault)
        ∧ ((Session.performAll { debugger := loaded } operations).debugger.complete = true
          → (Session.performAll { debugger := loaded } operations).raised = false
          → plain.FinishesAs machine) := by
  unfold load at loads
  split at loads
  · contradiction
  · rename_i plain built
    rw [machine?_eq] at built
    split at built
    · contradiction
    · rename_i code prepared
      cases built
      have executable := Configuration.executable_of_code? prepared
      have start
          : Shadows code (placed code 0 (.fresh debugger.configuration input output) {})
              { debugger := loaded } := by
        cases loads
        exact .at rfl (after?_zero _) (fun _ => rfl) (by simp) (by simp)
      obtain ⟨holds, reached, same, done, fault⟩ :=
        shadows_performAll executable start operations
      refine ⟨_, _, _, ?_, holds, reached, rfl, rfl, rfl, same, fault, ?_⟩
      · rw [machine?_eq, prepared]
      · intro complete quiet
        rw [same quiet]
        exact finishesAs_iff.mpr ⟨_, reached, finished_placed.mpr (done complete)⟩

/-- A session on folded code that pauses at a jump, fails behind it, and tries again. -/
theorem debugging_transparent_on_retry
    : ∃ loaded,
        load { configuration := { engine := .virtualMachine, tapeSize := 1, level := 1 } }
            #[0x2b, 0x5b, 0x3e, 0x5d] .absent .empty
          = .ok loaded
        ∧ ∃ plain machine reached,
            Configuration.machine? { engine := .virtualMachine, tapeSize := 1, level := 1 }
                #[0x2b, 0x5b, 0x3e, 0x5d] .absent .empty
              = .ok plain
            ∧ (Session.performAll { debugger := loaded }
                [.add { address := 1 }, .execute 9, .step 9, .step 9, .execute 9]).debugger.machine?
              = some machine
            ∧ plain.after?
                (Session.performAll { debugger := loaded }
                  [.add { address := 1 }, .execute 9, .step 9, .step 9, .execute 9]).returned
              = some reached
            ∧ machine.counter = reached.counter
            ∧ machine.store = reached.store
            ∧ reached.step.fault? = some (.pointerOutOfRange 1 1) := by
  have loads
      : load { configuration := { engine := .virtualMachine, tapeSize := 1, level := 1 } }
            #[0x2b, 0x5b, 0x3e, 0x5d] .absent .empty
          = .ok _ :=
    rfl
  obtain ⟨plain, machine, reached, built, holds, reaches, -, counter, store, -, fault, -⟩ :=
    debugging_transparent loads
      [.add { address := 1 }, .execute 9, .step 9, .step 9, .execute 9]
  exact
    ⟨_, loads, plain, machine, reached, built, holds, reaches, counter, store,
      fault _ (by decide)⟩

end Brainfuck.Debugger
