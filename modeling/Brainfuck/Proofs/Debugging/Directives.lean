import Brainfuck.Proofs.Debugging.Conversing
import Brainfuck.Proofs.Debugging.Stops
import Brainfuck.Proofs.Execution.Listening

/-! What a debugger can be directed to do, and how that ends.
A debugger that has accepted its program fails for the program alone, whatever it is directed to
do. An activity that ends does so in the same way whatever listens to it, and the notices that
are left over do not matter.
-/

namespace Brainfuck

/-- Faults that come of a program: of its brackets, of the tape, or of going on behind its end. -/
def FaultKind.OfProgram (kind : FaultKind) : Prop :=
  kind = .unmatchedBracket ∨ kind = .pointerOutOfRange ∨ kind = .cellOverflow
  ∨ kind = .illegalResume

theorem FaultKind.OfProgram.isReported {kind : FaultKind} (h : kind.OfProgram)
    : kind.isReported = true := by
  rcases h with rfl | rfl | rfl | rfl <;> rfl

namespace Machine

-----------------------------------------------------------------------------------------
-- Machines that have been built
-----------------------------------------------------------------------------------------

/-- A machine as all are that have been built for a program: within executable code or behind
it.
-/
structure Sound (machine : Machine) : Prop where
  executable : machine.code.Executable
  nonnegative : 0 ≤ machine.counter

variable {machine : Machine}

theorem Sound.eq_placed (h : machine.Sound)
    : machine
      = placed machine.code machine.counter.toNat machine.store machine.metrics := by
  obtain ⟨code, counter, tape, input, output, metrics⟩ := machine
  have same : ((counter.toNat : Nat) : Int) = counter := Int.toNat_of_nonneg h.nonnegative
  simp only [placed, store, same]

/-- Steps lead from sound machines to sound ones, by cases on the transition. -/
theorem Sound.step (h : machine.Sound) : machine.step.machine.Sound := by
  cases done : machine.finished with
  | true =>
      rw [step_of_finished done]
      exact h
  | false =>
      have executable := h.executable
      rw [h.eq_placed] at done ⊢
      cases transition executable (unfinished_placed.mp done) with
      | moves next later executed skipped changes step =>
          rw [step]
          exact ⟨executable, Int.natCast_nonneg next⟩
      | fails fault executed skipped changes step =>
          rw [step]
          exact ⟨executable, Int.natCast_nonneg _⟩

theorem Sound.tried (h : machine.Sound) (count : Nat) : (machine.tried count).Sound := by
  induction count with
  | zero => exact h
  | succ count ih => exact ih.step

/-- A unit of executable code that leads nowhere is a bracket. -/
theorem kind_of_lost {code : Code} (executable : code.Executable) {unit : CodeUnit}
    {address counter cell : Int} {fault : Fault} (found : code.unitAt address = .ok unit)
    (lost : unit.passage code counter cell = .error fault)
    : fault.kind = .unmatchedBracket := by
  obtain ⟨offset, present⟩ := Code.exists_offset_of_unitAt found
  cases code with
  | source program =>
      obtain ⟨value, _, rfl⟩ := Option.map_eq_some_iff.mp present
      exact CodeUnit.kind_of_byte_passage lost
  | instructions list =>
      obtain ⟨instruction, here, rfl⟩ := Option.map_eq_some_iff.mp present
      cases executable instruction (Array.mem_of_getElem? here) with
      | action action does =>
          have acts : (CodeUnit.instruction instruction).action? = some action := does
          rw [CodeUnit.passage_of_action acts] at lost
          contradiction
      | jumpIfZero target | jumpIfNonzero target => cases lost

/-- A sound machine fails for its program alone, by cases on what its step does. -/
theorem Sound.ofProgram (h : machine.Sound) {fault : Fault}
    (fails : machine.step.fault? = some fault)
    : fault.kind.OfProgram := by
  cases machine.stepping with
  | completed done step =>
      rw [step] at fails
      cases fails
      exact Or.inr (Or.inr (Or.inr rfl))
  | missing unfinished front kind step =>
      have inside := h.nonnegative
      omega
  | @fails notice cause unfinished inside announced effect step =>
      rw [step] at fails
      cases fails
      cases does : notice.unit.action? with
      | some action =>
          rw [effect_of_action machine does] at effect
          cases acted : machine.store.act action with
          | error cause =>
              rw [acted] at effect
              cases effect
              cases Store.refuses_of_act acted with
              | move outside => exact Or.inr (Or.inl rfl)
              | add checked overflows => exact Or.inr (Or.inr (Or.inl rfl))
          | ok store => simp [acted] at effect
      | none =>
          rw [effect_of_no_action machine does] at effect
          cases led
            : notice.unit.passage machine.code machine.counter machine.tape.current with
          | error cause =>
              rw [led] at effect
              cases effect
              exact Or.inl (kind_of_lost h.executable (unit_of_notice announced) led)
          | ok passage => simp [led] at effect
  | passes unfinished inside announced effect step => simp [step] at fails

/-- How an activity has left a machine: after some attempts, and where the next one fails for the
reason that the activity has failed for.
-/
def LeftBy (machine last : Machine) (ending : Ending) : Prop :=
  ∃ count,
    last = machine.tried count
    ∧ ∀ fault, ending = .failed fault → last.step.fault? = some fault

theorem LeftBy.rest (machine : Machine) {ending : Ending}
    (ended : ∀ fault, ending ≠ .failed fault)
    : machine.LeftBy machine ending :=
  ⟨0, rfl, fun fault failed => absurd failed (ended fault)⟩

theorem LeftBy.of_unannounced {fault : Fault} (unannounced : machine.notice = .error fault)
    : machine.LeftBy machine (.failed fault) := by
  refine ⟨0, rfl, ?_⟩
  rintro cause ⟨⟩
  rw [step_of_unannounced unannounced]

theorem LeftBy.of_fault {next : Machine} {fault : Fault}
    (step : machine.step = { machine := next, fault? := some fault })
    : machine.LeftBy next (.failed fault) := by
  refine ⟨1, ?_, ?_⟩
  · rw [Machine.tried, Machine.tried, step]
  · rintro cause ⟨⟩
    exact fault_of_fault step

theorem LeftBy.prepend {next last : Machine} {ending : Ending} (h : next.LeftBy last ending)
    (step : machine.step = { machine := next })
    : machine.LeftBy last ending := by
  obtain ⟨count, rfl, failed⟩ := h
  have first : next = machine.tried 1 := by rw [Machine.tried, Machine.tried, step]
  exact ⟨1 + count, by rw [first, tried_add], failed⟩

/-- A sound machine is left sound, and what has failed has failed for the program. -/
theorem Sound.of_leftBy (h : machine.Sound) {last : Machine} {ending : Ending}
    (left : machine.LeftBy last ending)
    : last.Sound ∧ ∀ fault, ending = .failed fault → fault.kind.OfProgram := by
  obtain ⟨count, rfl, failed⟩ := left
  have sound := h.tried count
  exact ⟨sound, fun fault same => sound.ofProgram (failed fault same)⟩

section Activities

variable {α : Type} (hear : α → Notice → α)

theorem attempt_leftBy (machine : Machine) (allowance : Nat) (heard : α)
    : machine.LeftBy (machine.attempt hear allowance heard).state
        (machine.attempt hear allowance heard).ending := by
  cases announced : machine.notice with
  | error fault =>
      rw [attempt_of_unannounced hear announced]
      exact .of_unannounced announced
  | ok notice =>
      cases allowance with
      | zero =>
          rw [attempt_zero hear announced]
          exact .rest machine nofun
      | succ left =>
          rcases step : machine.step with ⟨next, _ | fault⟩
          · rw [attempt_of_announced_step hear announced step]
            exact .prepend (.rest next nofun) step
          · rw [attempt_of_fault hear announced step]
            exact .of_fault step

end Activities

end Machine

/-- The same activity under another listener, which had more notices to admit: it leaves the same
behind, and as many notices more.
-/
structure Run.SameWithMore {σ α β : Type} (run : Run σ α) (more : Nat) (other : Run σ β)
    : Prop where
  state : other.state = run.state
  ending : other.ending = run.ending
  allowance : other.allowance = run.allowance + more

namespace Machine

section Activities

variable {machine : Machine} {α β : Type} (hear : α → Notice → α) (hearOther : β → Notice → β)

/-- An attempt that is not refused does not depend on the listener. -/
theorem attempt_sameWithMore {allowance : Nat} {heard : α}
    (admitted : (machine.attempt hear allowance heard).ending ≠ .refused) (more : Nat)
    (heardOther : β)
    : (machine.attempt hear allowance heard).SameWithMore more
        (machine.attempt hearOther (allowance + more) heardOther) := by
  cases announced : machine.notice with
  | error fault =>
      rw [attempt_of_unannounced hear announced, attempt_of_unannounced hearOther announced]
      exact ⟨rfl, rfl, rfl⟩
  | ok notice =>
      cases allowance with
      | zero =>
          rw [attempt_zero hear announced] at admitted
          contradiction
      | succ left =>
          rw [Nat.add_right_comm, attempt_of_announced hear announced,
            attempt_of_announced hearOther announced]
          exact ⟨rfl, rfl, rfl⟩

end Activities

end Machine

namespace Debugger

open Machine

-----------------------------------------------------------------------------------------
-- Executions and steps
-----------------------------------------------------------------------------------------

section Pursuits

variable {breakpoints : Breakpoints} {machine next : Machine} {notice : Notice} {fault : Fault}
  {α β : Type} (hear : α → Notice → α) (hearOther : β → Notice → β)

theorem pursue_of_unannounced (unfinished : machine.finished = false)
    (passes : ¬ breakpoints.Interrupts machine.counter)
    (unannounced : machine.notice = .error fault) (allowance : Nat) (heard : α)
    : pursue hear allowance heard breakpoints machine
      = {
          state := (breakpoints.answered false, machine)
          heard
          allowance
          ending := .failed fault
        } := by
  cases allowance <;>
    simp only [pursue, unfinished, Breakpoints.query_of_not_interrupts passes,
      attempt_of_unannounced hear unannounced, Bool.false_eq_true, if_false]

theorem pursue_zero_of_announced (unfinished : machine.finished = false)
    (passes : ¬ breakpoints.Interrupts machine.counter)
    (announced : machine.notice = .ok notice) (heard : α)
    : pursue hear 0 heard breakpoints machine
      = {
          state := (breakpoints.answered false, machine)
          heard
          allowance := 0
          ending := .refused
        } := by
  simp only [pursue, unfinished, Breakpoints.query_of_not_interrupts passes,
    attempt_zero hear announced, Bool.false_eq_true, if_false]

theorem pursue_of_announced_step (unfinished : machine.finished = false)
    (passes : ¬ breakpoints.Interrupts machine.counter)
    (announced : machine.notice = .ok notice) (step : machine.step = { machine := next })
    (left : Nat) (heard : α)
    : pursue hear (left + 1) heard breakpoints machine
      = pursue hear left (hear heard notice) (breakpoints.answered false) next := by
  simp only [pursue, unfinished, Breakpoints.query_of_not_interrupts passes,
    attempt_of_announced_step hear announced step, Bool.false_eq_true, if_false]

theorem pursue_of_announced_fault (unfinished : machine.finished = false)
    (passes : ¬ breakpoints.Interrupts machine.counter)
    (announced : machine.notice = .ok notice)
    (step : machine.step = { machine := next, fault? := some fault }) (left : Nat) (heard : α)
    : pursue hear (left + 1) heard breakpoints machine
      = {
          state := (breakpoints.answered false, next)
          heard := hear heard notice
          allowance := left
          ending := .failed fault
        } := by
  simp only [pursue, unfinished, Breakpoints.query_of_not_interrupts passes,
    attempt_of_fault hear announced step, Bool.false_eq_true, if_false]

/-- What a pursuit can come upon: the end of the program, a breakpoint that interrupts, or a step,
which may fail before or after it is announced.
-/
inductive Ahead (breakpoints : Breakpoints) (machine : Machine) : Prop
  | finished (done : machine.finished = true)
  | interrupts (unfinished : machine.finished = false)
    (interrupts : breakpoints.Interrupts machine.counter)
  | unannounced {fault : Fault} (unfinished : machine.finished = false)
    (passes : ¬ breakpoints.Interrupts machine.counter)
    (unannounced : machine.notice = .error fault)
  | steps {notice : Notice} {next : Machine} (unfinished : machine.finished = false)
    (passes : ¬ breakpoints.Interrupts machine.counter)
    (announced : machine.notice = .ok notice) (step : machine.step = { machine := next })
  | fails {notice : Notice} {next : Machine} {fault : Fault}
    (unfinished : machine.finished = false)
    (passes : ¬ breakpoints.Interrupts machine.counter)
    (announced : machine.notice = .ok notice)
    (step : machine.step = { machine := next, fault? := some fault })

theorem ahead (breakpoints : Breakpoints) (machine : Machine) : Ahead breakpoints machine := by
  by_cases interrupts : breakpoints.Interrupts machine.counter
  · cases done : machine.finished with
    | true => exact .finished done
    | false => exact .interrupts done interrupts
  · cases machine.prospect with
    | finished done => exact .finished done
    | unannounced unfinished unannounced => exact .unannounced unfinished interrupts unannounced
    | passes unfinished announced step => exact .steps unfinished interrupts announced step
    | fails unfinished announced step => exact .fails unfinished interrupts announced step

/-- A pursuit leaves a machine after some attempts, by induction on the notices that are admitted.
-/
theorem pursue_leftBy (allowance : Nat) (heard : α) (breakpoints : Breakpoints)
    (machine : Machine)
    : machine.LeftBy (pursue hear allowance heard breakpoints machine).state.2
        (pursue hear allowance heard breakpoints machine).ending := by
  induction allowance using Nat.strongRecOn generalizing heard breakpoints machine with
  | ind allowance ih =>
      cases ahead breakpoints machine with
      | finished done =>
          rw [pursue_of_finished hear done]
          exact .rest machine nofun
      | interrupts unfinished interrupts =>
          rw [pursue_of_interrupts hear unfinished interrupts]
          exact .rest machine nofun
      | unannounced unfinished passes unannounced =>
          rw [pursue_of_unannounced hear unfinished passes unannounced]
          exact .of_unannounced unannounced
      | steps unfinished passes announced step =>
          cases allowance with
          | zero =>
              rw [pursue_zero_of_announced hear unfinished passes announced]
              exact .rest machine nofun
          | succ left =>
              rw [pursue_of_announced_step hear unfinished passes announced step]
              exact (ih left (Nat.lt_succ_self left) _ _ _).prepend step
      | fails unfinished passes announced step =>
          cases allowance with
          | zero =>
              rw [pursue_zero_of_announced hear unfinished passes announced]
              exact .rest machine nofun
          | succ left =>
              rw [pursue_of_announced_fault hear unfinished passes announced step]
              exact .of_fault step

/-- A pursuit that is not refused does not depend on the listener, by induction on the notices
that are admitted.
-/
theorem pursue_sameWithMore {allowance : Nat} {heard : α}
    (admitted : (pursue hear allowance heard breakpoints machine).ending ≠ .refused)
    (more : Nat) (heardOther : β)
    : (pursue hear allowance heard breakpoints machine).SameWithMore more
        (pursue hearOther (allowance + more) heardOther breakpoints machine) := by
  induction allowance using Nat.strongRecOn generalizing heard heardOther breakpoints machine with
  | ind allowance ih =>
      cases ahead breakpoints machine with
      | finished done =>
          rw [pursue_of_finished hear done, pursue_of_finished hearOther done]
          exact ⟨rfl, rfl, rfl⟩
      | interrupts unfinished interrupts =>
          rw [pursue_of_interrupts hear unfinished interrupts,
            pursue_of_interrupts hearOther unfinished interrupts]
          exact ⟨rfl, rfl, rfl⟩
      | unannounced unfinished passes unannounced =>
          rw [pursue_of_unannounced hear unfinished passes unannounced,
            pursue_of_unannounced hearOther unfinished passes unannounced]
          exact ⟨rfl, rfl, rfl⟩
      | steps unfinished passes announced step =>
          cases allowance with
          | zero =>
              rw [pursue_zero_of_announced hear unfinished passes announced] at admitted
              contradiction
          | succ left =>
              rw [pursue_of_announced_step hear unfinished passes announced step] at admitted ⊢
              rw [Nat.add_right_comm,
                pursue_of_announced_step hearOther unfinished passes announced step]
              exact ih left (Nat.lt_succ_self left) admitted _
      | fails unfinished passes announced step =>
          cases allowance with
          | zero =>
              rw [pursue_zero_of_announced hear unfinished passes announced] at admitted
              contradiction
          | succ left =>
              rw [Nat.add_right_comm,
                pursue_of_announced_fault hear unfinished passes announced step,
                pursue_of_announced_fault hearOther unfinished passes announced step]
              exact ⟨rfl, rfl, rfl⟩

/-- An execution that is not refused does not depend on the listener. -/
theorem execute_sameWithMore {debugger : Debugger} {allowance : Nat} {heard : α}
    (admitted : (debugger.execute hear allowance heard).ending ≠ .refused) (more : Nat)
    (heardOther : β)
    : (debugger.execute hear allowance heard).SameWithMore more
        (debugger.execute hearOther (allowance + more) heardOther) := by
  obtain ⟨configuration, breakpoints, _ | machine, _ | _⟩ := debugger
  · exact ⟨rfl, rfl, rfl⟩
  · exact ⟨rfl, rfl, rfl⟩
  · have same := pursue_sameWithMore hear hearOther admitted more heardOther
    refine ⟨?_, same.ending, same.allowance⟩
    simp only [execute, same.state, same.ending]
  · exact ⟨rfl, rfl, rfl⟩

/-- A step in front of the end of the program is an attempt of the machine. -/
theorem single_of_unfinished (unfinished : machine.finished = false) (configuration : Configuration)
    (breakpoints : Breakpoints) (allowance : Nat) (heard : α)
    : Debugger.step hear allowance heard { configuration, breakpoints, machine? := some machine }
      = {
          state :=
            {
              configuration
              breakpoints := breakpoints.clearInterrupt
              machine? := some (machine.attempt hear allowance heard).state
              complete :=
                (machine.attempt hear allowance heard).ending = .returned
                && (machine.attempt hear allowance heard).state.finished
            }
          heard := (machine.attempt hear allowance heard).heard
          allowance := (machine.attempt hear allowance heard).allowance
          ending := (machine.attempt hear allowance heard).ending
        } := by
  simp only [Debugger.step, unfinished, Bool.false_eq_true, if_false]

theorem single_of_finished (done : machine.finished = true) (configuration : Configuration)
    (breakpoints : Breakpoints) (allowance : Nat) (heard : α)
    : Debugger.step hear allowance heard { configuration, breakpoints, machine? := some machine }
      = {
          state :=
            {
              configuration
              breakpoints := breakpoints.clearInterrupt
              machine? := some machine
              complete := true
            }
          heard
          allowance
        } := by
  simp only [Debugger.step, done, if_true, decide_true, Bool.and_self]

/-- A step that is not refused does not depend on the listener. -/
theorem step_sameWithMore {debugger : Debugger} {allowance : Nat} {heard : α}
    (admitted : (debugger.step hear allowance heard).ending ≠ .refused) (more : Nat)
    (heardOther : β)
    : (debugger.step hear allowance heard).SameWithMore more
        (debugger.step hearOther (allowance + more) heardOther) := by
  obtain ⟨configuration, breakpoints, _ | machine, _ | _⟩ := debugger
  · exact ⟨rfl, rfl, rfl⟩
  · exact ⟨rfl, rfl, rfl⟩
  · cases done : machine.finished with
    | true =>
        rw [single_of_finished hear done, single_of_finished hearOther done]
        exact ⟨rfl, rfl, rfl⟩
    | false =>
        rw [single_of_unfinished hear done] at admitted ⊢
        rw [single_of_unfinished hearOther done]
        have same := attempt_sameWithMore hear hearOther admitted more heardOther
        refine ⟨?_, same.ending, same.allowance⟩
        simp only [same.state, same.ending]
  · exact ⟨rfl, rfl, rfl⟩

end Pursuits

-----------------------------------------------------------------------------------------
-- Sound debuggers
-----------------------------------------------------------------------------------------

/-- A debugger whose machine, if there is one, has been built for a program. -/
def Sound (debugger : Debugger) : Prop :=
  ∀ machine, debugger.machine? = some machine → machine.Sound

section Soundness

variable {debugger : Debugger} {α : Type} (hear : α → Notice → α) (allowance : Nat) (heard : α)

/-- Executions keep a debugger sound, and fail for its program alone. -/
theorem Sound.execute (h : debugger.Sound)
    : (debugger.execute hear allowance heard).state.Sound
      ∧ ∀ fault,
          (debugger.execute hear allowance heard).ending = .failed fault
          → fault.kind.OfProgram := by
  have resumed : FaultKind.OfProgram .illegalResume := Or.inr (Or.inr (Or.inr rfl))
  obtain ⟨configuration, breakpoints, _ | machine, _ | _⟩ := debugger
  · exact ⟨h, by rintro fault ⟨⟩; exact resumed⟩
  · exact ⟨h, by rintro fault ⟨⟩; exact resumed⟩
  · obtain ⟨left, failed⟩ :=
      (h machine rfl).of_leftBy (pursue_leftBy hear allowance heard breakpoints machine)
    exact ⟨by rintro last ⟨⟩; exact left, failed⟩
  · exact ⟨h, by rintro fault ⟨⟩; exact resumed⟩

/-- Steps keep a debugger sound, and fail for its program alone. -/
theorem Sound.step (h : debugger.Sound)
    : (debugger.step hear allowance heard).state.Sound
      ∧ ∀ fault,
          (debugger.step hear allowance heard).ending = .failed fault
          → fault.kind.OfProgram := by
  have resumed : FaultKind.OfProgram .illegalResume := Or.inr (Or.inr (Or.inr rfl))
  obtain ⟨configuration, breakpoints, _ | machine, _ | _⟩ := debugger
  · exact ⟨h, by rintro fault ⟨⟩; exact resumed⟩
  · exact ⟨h, by rintro fault ⟨⟩; exact resumed⟩
  · cases done : machine.finished with
    | true =>
        rw [single_of_finished hear done]
        exact ⟨h, nofun⟩
    | false =>
        rw [single_of_unfinished hear done]
        obtain ⟨left, failed⟩ :=
          (h machine rfl).of_leftBy (attempt_leftBy hear machine allowance heard)
        exact ⟨by rintro last ⟨⟩; exact left, failed⟩
  · exact ⟨h, by rintro fault ⟨⟩; exact resumed⟩

end Soundness

theorem kept_sound : Kept Sound where
  execute h _ hear allowance heard := (h.execute hear allowance heard).1
  step h _ hear allowance heard := (h.step hear allowance heard).1
  add := by
    intro debugger after breakpoint h adds
    unfold addBreakpoint at adds
    split at adds <;> cases adds
    exact h
  remove := by
    intro debugger after address breakpoint h removes
    unfold removeBreakpoint at removes
    split at removes <;> cases removes
    exact h
  switch h _ _ := h

theorem kept_loaded : Kept fun debugger => debugger.machine? ≠ none where
  execute := by
    intro debugger h α hear allowance heard
    obtain ⟨configuration, breakpoints, _ | machine, _ | _⟩ := debugger
    · exact h
    · exact h
    · exact Option.some_ne_none _
    · exact h
  step := by
    intro debugger h α hear allowance heard
    obtain ⟨configuration, breakpoints, _ | machine, _ | _⟩ := debugger
    · exact h
    · exact h
    · exact Option.some_ne_none _
    · exact h
  add := by
    intro debugger after breakpoint h adds
    unfold addBreakpoint at adds
    split at adds <;> cases adds
    exact h
  remove := by
    intro debugger after address breakpoint h removes
    unfold removeBreakpoint at removes
    split at removes <;> cases removes
    exact h
  switch h _ _ := h

/-- Debuggers that operations lead to are sound, by cases on the last one. -/
theorem Reachable.sound {debugger : Debugger} (h : Reachable debugger) : debugger.Sound := by
  induction h with
  | fresh configuration => exact nofun
  | @load debugger loaded program input output before loads ih =>
      unfold Debugger.load at loads
      split at loads
      · contradiction
      · rename_i machine built
        cases loads
        rw [machine?_eq] at built
        split at built
        · contradiction
        · rename_i code prepared
          cases built
          rintro machine ⟨⟩
          exact ⟨Configuration.executable_of_code? prepared, Int.le_refl 0⟩
  | execute _ hear allowance heard ih => exact kept_sound.execute ih hear allowance heard
  | step _ hear allowance heard ih => exact kept_sound.step ih hear allowance heard
  | add _ adds ih => exact kept_sound.add ih adds
  | remove _ removes ih => exact kept_sound.remove ih removes
  | switch _ address enabled ih => exact kept_sound.switch ih address enabled

-----------------------------------------------------------------------------------------
-- Directives
-----------------------------------------------------------------------------------------

/-- What a debugger with a program can be directed to do. -/
inductive Directive where
  | step
  | resume
  | add (address : Int)
  | remove (address : Int)
  | switch (address : Int) (enabled : Bool)
deriving DecidableEq, Repr

/-- A change as an activity without any notice. A change that is refused leaves the debugger as it
was.
-/
def changed {α : Type} (debugger : Debugger) (allowance : Nat) (heard : α)
    : Except Fault Debugger → Run Debugger α
  | .error fault => { state := debugger, heard, allowance, ending := .failed fault }
  | .ok after => { state := after, heard, allowance }

/-- Does what it is directed to do. Resuming is executing. -/
def undertake {α : Type} (hear : α → Notice → α) (allowance : Nat) (heard : α)
    (debugger : Debugger)
    : Directive → Run Debugger α
  | .step => debugger.step hear allowance heard
  | .resume => debugger.execute hear allowance heard
  | .add address => debugger.changed allowance heard (debugger.addBreakpoint { address })
  | .remove address =>
      debugger.changed allowance heard ((debugger.removeBreakpoint address).map Prod.snd)
  | .switch address enabled =>
      debugger.changed allowance heard (.ok (debugger.switchBreakpoint address enabled))

/-- An undertaking that ends by itself, whatever listens to it, as soon as the listener admits
enough of its steps.
-/
def Does (debugger : Debugger) (directive : Directive) (after : Debugger) (ending : Ending)
    : Prop :=
  ending ≠ .refused
  ∧ ∃ enough,
      ∀ {α : Type} (hear : α → Notice → α) (heard : α) allowance,
        enough ≤ allowance
        → (debugger.undertake hear allowance heard directive).state = after
          ∧ (debugger.undertake hear allowance heard directive).ending = ending

section Undertakings

variable {debugger after : Debugger} {directive : Directive} {ending : Ending} {α β : Type}
  {hear : α → Notice → α} {heard : α} {allowance : Nat}

theorem changed_sameWithMore (result : Except Fault Debugger) (more : Nat) (heardOther : β)
    : (debugger.changed allowance heard result).SameWithMore more
        (debugger.changed (allowance + more) heardOther result) := by
  cases result <;> exact ⟨rfl, rfl, rfl⟩

/-- An undertaking that is not refused does not depend on the listener. -/
theorem undertake_sameWithMore
    (admitted : (debugger.undertake hear allowance heard directive).ending ≠ .refused)
    (hearOther : β → Notice → β) (more : Nat) (heardOther : β)
    : (debugger.undertake hear allowance heard directive).SameWithMore more
        (debugger.undertake hearOther (allowance + more) heardOther directive) := by
  cases directive with
  | step => exact step_sameWithMore hear hearOther admitted more heardOther
  | resume => exact execute_sameWithMore hear hearOther admitted more heardOther
  | add address | remove address => exact changed_sameWithMore _ more heardOther
  | switch address enabled => exact ⟨rfl, rfl, rfl⟩

/-- An undertaking that is not refused ends by itself. -/
theorem does_of_admitted
    (admitted : (debugger.undertake hear allowance heard directive).ending ≠ .refused)
    : debugger.Does directive (debugger.undertake hear allowance heard directive).state
        (debugger.undertake hear allowance heard directive).ending := by
  refine ⟨admitted, allowance, ?_⟩
  intro β hearOther heardOther larger le
  obtain ⟨more, rfl⟩ := Nat.exists_eq_add_of_le le
  have same := undertake_sameWithMore admitted hearOther more heardOther
  exact ⟨same.state, same.ending⟩

/-- What ends by itself needs no more than a certain number of notices. -/
theorem Does.exists_cost (h : debugger.Does directive after ending)
    : ∃ cost,
        ∀ {α : Type} (hear : α → Notice → α) (heard : α) allowance,
          cost ≤ allowance
          → (debugger.undertake hear allowance heard directive).state = after
            ∧ (debugger.undertake hear allowance heard directive).ending = ending
            ∧ allowance ≤ (debugger.undertake hear allowance heard directive).allowance + cost := by
  obtain ⟨admitted, enough, ends⟩ := h
  refine ⟨enough, ?_⟩
  intro α hear heard allowance le
  obtain ⟨state, ended⟩ := ends hear heard allowance le
  obtain ⟨more, rfl⟩ := Nat.exists_eq_add_of_le le
  have least := (ends hear heard enough (Nat.le_refl enough)).2
  have same := undertake_sameWithMore (least ▸ admitted) hear more heard
  refine ⟨state, ended, ?_⟩
  rw [same.allowance]
  omega

theorem undertake_add {address : Int} (adds : debugger.addBreakpoint { address } = .ok after)
    : debugger.undertake hear allowance heard (.add address)
      = { state := after, heard, allowance } := by
  simp only [undertake, adds, changed]

theorem undertake_remove {address : Int} {breakpoint : Breakpoint}
    (removes : debugger.removeBreakpoint address = .ok (breakpoint, after))
    : debugger.undertake hear allowance heard (.remove address)
      = { state := after, heard, allowance } := by
  simp only [undertake, removes, changed, Except.map]

/-- Undertakings keep what operations keep, because a directive comes to one of them. -/
theorem Kept.undertake {property : Debugger → Prop} (kept : Kept property)
    (holds : property debugger) (hear : α → Notice → α) (allowance : Nat) (heard : α)
    (directive : Directive)
    : property (debugger.undertake hear allowance heard directive).state := by
  cases directive with
  | step => exact kept.step holds hear allowance heard
  | resume => exact kept.execute holds hear allowance heard
  | add address =>
      cases adds : debugger.addBreakpoint { address } with
      | error fault =>
          simp only [Debugger.undertake, adds, changed]
          exact holds
      | ok after =>
          rw [undertake_add adds]
          exact kept.add holds adds
  | remove address =>
      cases removes : debugger.removeBreakpoint address with
      | error fault =>
          simp only [Debugger.undertake, removes, changed, Except.map]
          exact holds
      | ok result =>
          rw [undertake_remove removes]
          exact kept.remove holds removes
  | switch address enabled => exact kept.switch holds address enabled

/-- What operations keep is kept by what a directive does. -/
theorem Does.kept {property : Debugger → Prop} (h : debugger.Does directive after ending)
    (kept : Kept property) (holds : property debugger)
    : property after := by
  obtain ⟨admitted, enough, ends⟩ := h
  rw [← (ends (fun heard _ => heard) () enough (Nat.le_refl enough)).1]
  exact kept.undertake holds _ enough () directive

end Undertakings

end Debugger

end Brainfuck
