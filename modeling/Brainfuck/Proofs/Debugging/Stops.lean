import Brainfuck.Debugger
import Brainfuck.Proofs.Execution.Course
import Mathlib.Data.Nat.Find

/-! Where the execution of a debugger stops.
Execution looks at the machines that plain steps lead to, one after the other, and stops at
the first one that has finished, that waits at an enabled breakpoint, or whose step fails. The
flag of the breakpoints lets it through where it has just been interrupted.
-/

namespace Brainfuck

namespace Breakpoints

/-- There is an enabled breakpoint at an address. -/
def isEnabled (breakpoints : Breakpoints) (address : Int) : Bool :=
  ((breakpoints.find? address).map (·.enabled)).getD false

/-- The breakpoints with another answer to the latest query. -/
def answered (breakpoints : Breakpoints) (interrupted : Bool) : Breakpoints :=
  { breakpoints with interrupted }

/-- A query interrupts at an enabled breakpoint, unless the one before has done so. -/
def Interrupts (breakpoints : Breakpoints) (address : Int) : Prop :=
  breakpoints.interrupted = false ∧ breakpoints.isEnabled address = true

theorem query_of_interrupts {breakpoints : Breakpoints} {address : Int}
    (h : breakpoints.Interrupts address)
    : breakpoints.query address = (true, breakpoints.answered true) := by
  obtain ⟨quiet, enabled⟩ := h
  unfold isEnabled at enabled
  simp [query, answered, quiet, enabled]

theorem query_of_not_interrupts {breakpoints : Breakpoints} {address : Int}
    (h : ¬ breakpoints.Interrupts address)
    : breakpoints.query address = (false, breakpoints.answered false) := by
  have passes : (!breakpoints.interrupted && breakpoints.isEnabled address) = false := by
    apply Bool.eq_false_iff.mpr
    intro interrupts
    obtain ⟨quiet, enabled⟩ := Bool.and_eq_true_iff.mp interrupts
    exact h ⟨by simpa using quiet, enabled⟩
  unfold isEnabled at passes
  simp only [query, answered, passes]

/-- A machine is about to execute a unit that has an enabled breakpoint. -/
def Awaits (breakpoints : Breakpoints) (machine : Machine) : Prop :=
  machine.finished = false ∧ breakpoints.isEnabled machine.counter = true

instance (breakpoints : Breakpoints) : DecidablePred breakpoints.Awaits :=
  fun _ => inferInstanceAs (Decidable (_ ∧ _))

end Breakpoints

namespace Debugger

open Machine

variable {breakpoints : Breakpoints} {start machine : Machine}

-----------------------------------------------------------------------------------------
-- Pursuits by what their first query and step do
-----------------------------------------------------------------------------------------

section Pursuits

variable {α : Type} (hear : α → Notice → α)

theorem pursue_of_finished (done : machine.finished = true) (allowance : Nat) (heard : α)
    : pursue hear allowance heard breakpoints machine
      = { state := (breakpoints, machine), heard, allowance } := by
  cases allowance <;> simp only [pursue, done, if_true]

theorem pursue_of_interrupts (unfinished : machine.finished = false)
    (interrupts : breakpoints.Interrupts machine.counter) (allowance : Nat) (heard : α)
    : pursue hear allowance heard breakpoints machine
      = { state := (breakpoints.answered true, machine), heard, allowance } := by
  cases allowance <;>
    simp [pursue, unfinished, Breakpoints.query_of_interrupts interrupts]

theorem pursue_zero (unfinished : machine.finished = false)
    (passes : ¬ breakpoints.Interrupts machine.counter) (heard : α)
    : (pursue hear 0 heard breakpoints machine).state
        = (breakpoints.answered false, (machine.attempt hear 0 heard).state)
      ∧ (pursue hear 0 heard breakpoints machine).ending
        = (machine.attempt hear 0 heard).ending := by
  simp [pursue, unfinished, Breakpoints.query_of_not_interrupts passes]

/-- A step that succeeds is refused at once, or leads the pursuit on. -/
theorem pursue_of_step {next : Machine} (passes : ¬ breakpoints.Interrupts machine.counter)
    (step : machine.step = { machine := next })
    : (∀ heard, (pursue hear 0 heard breakpoints machine).ending = .refused)
      ∧ ∃ notice,
          ∀ left heard,
            pursue hear (left + 1) heard breakpoints machine
            = pursue hear left (hear heard notice) (breakpoints.answered false) next := by
  have unfinished := finished_of_step step
  obtain ⟨notice, announced, attempted⟩ := attempt_of_step hear step
  constructor
  · intro heard
    rw [(pursue_zero hear unfinished passes heard).2, attempt, announced]
  · refine ⟨notice, ?_⟩
    intro left heard
    simp [pursue, unfinished, Breakpoints.query_of_not_interrupts passes, attempted]

/-- A step that fails ends the pursuit, whether it was announced or not. -/
theorem pursue_of_fault {next : Machine} {fault : Fault}
    (unfinished : machine.finished = false)
    (passes : ¬ breakpoints.Interrupts machine.counter)
    (step : machine.step = { machine := next, fault? := some fault }) (left : Nat) (heard : α)
    : (pursue hear (left + 1) heard breakpoints machine).state
        = (breakpoints.answered false, next)
      ∧ (pursue hear (left + 1) heard breakpoints machine).ending = .failed fault := by
  cases announced : machine.notice with
  | error cause =>
      simp only [Machine.step, announced] at step
      cases step
      simp [pursue, unfinished, Breakpoints.query_of_not_interrupts passes, attempt, announced]
  | ok notice =>
      simp [pursue, unfinished, Breakpoints.query_of_not_interrupts passes,
        attempt_of_fault hear announced step]

/-- A pursuit that is interrupted leaves a machine that has not finished, by induction on the
notices that are admitted.
-/
theorem unfinished_of_pursue {left : Nat} {heard : α}
    (coherent : breakpoints.interrupted = true → machine.finished = false)
    (interrupted
      : (pursue hear left heard breakpoints machine).state.1.interrupted = true)
    : (pursue hear left heard breakpoints machine).state.2.finished = false := by
  induction left generalizing heard breakpoints machine with
  | zero =>
      cases done : machine.finished with
      | true =>
          rw [pursue_of_finished hear done] at interrupted ⊢
          exact coherent interrupted
      | false =>
          by_cases interrupts : breakpoints.Interrupts machine.counter
          · rw [pursue_of_interrupts hear done interrupts]
            exact done
          · rw [(pursue_zero hear done interrupts heard).1] at interrupted
            cases interrupted
  | succ left ih =>
      cases machine.outlook with
      | finished done =>
          rw [pursue_of_finished hear done] at interrupted ⊢
          exact coherent interrupted
      | fails next fault unfinished step =>
          by_cases interrupts : breakpoints.Interrupts machine.counter
          · rw [pursue_of_interrupts hear unfinished interrupts]
            exact unfinished
          · rw [(pursue_of_fault hear unfinished interrupts step left heard).1] at interrupted
            cases interrupted
      | steps next step =>
          by_cases interrupts : breakpoints.Interrupts machine.counter
          · rw [pursue_of_interrupts hear (finished_of_step step) interrupts]
            exact finished_of_step step
          · obtain ⟨_, notice, passed⟩ := pursue_of_step hear interrupts step
            rw [passed] at interrupted ⊢
            exact ih nofun interrupted

end Pursuits

-----------------------------------------------------------------------------------------
-- Debuggers that operations lead to
-----------------------------------------------------------------------------------------

/-- The debuggers that operations lead to, whatever listens to them. -/
inductive Reachable : Debugger → Prop
  | fresh (configuration : Configuration) : Reachable { configuration }
  | load {debugger loaded : Debugger} {program : Program} {input : Input} {output : Output}
    (before : Reachable debugger) (loads : debugger.load program input output = .ok loaded)
    : Reachable loaded
  | execute {debugger : Debugger} (before : Reachable debugger) {α : Type}
    (hear : α → Notice → α) (allowance : Nat) (heard : α)
    : Reachable (debugger.execute hear allowance heard).state
  | step {debugger : Debugger} (before : Reachable debugger) {α : Type}
    (hear : α → Notice → α) (allowance : Nat) (heard : α)
    : Reachable (debugger.step hear allowance heard).state
  | add {debugger after : Debugger} {breakpoint : Breakpoint} (before : Reachable debugger)
    (adds : debugger.addBreakpoint breakpoint = .ok after)
    : Reachable after
  | remove {debugger after : Debugger} {address : Int} {breakpoint : Breakpoint}
    (before : Reachable debugger)
    (removes : debugger.removeBreakpoint address = .ok (breakpoint, after))
    : Reachable after
  | switch {debugger : Debugger} (before : Reachable debugger) (address : Int) (enabled : Bool)
    : Reachable (debugger.switchBreakpoint address enabled)

/-- A debugger that has been interrupted holds a machine that has not finished. -/
def Coherent (debugger : Debugger) : Prop :=
  debugger.breakpoints.interrupted = true
  → ∃ machine, debugger.machine? = some machine ∧ machine.finished = false

theorem Coherent.execute {debugger : Debugger} (h : debugger.Coherent) {α : Type}
    (hear : α → Notice → α) (allowance : Nat) (heard : α)
    : (debugger.execute hear allowance heard).state.Coherent := by
  obtain ⟨configuration, breakpoints, machine?, complete⟩ := debugger
  cases machine? with
  | none => exact h
  | some machine =>
      cases complete with
      | true => exact h
      | false =>
          have coherent : breakpoints.interrupted = true → machine.finished = false := by
            intro interrupted
            obtain ⟨_, same, unfinished⟩ := h interrupted
            cases same
            exact unfinished
          intro interrupted
          exact ⟨_, rfl, unfinished_of_pursue hear coherent interrupted⟩

theorem Coherent.step {debugger : Debugger} (h : debugger.Coherent) {α : Type}
    (hear : α → Notice → α) (allowance : Nat) (heard : α)
    : (debugger.step hear allowance heard).state.Coherent := by
  obtain ⟨configuration, breakpoints, machine?, complete⟩ := debugger
  cases machine? with
  | none => exact h
  | some machine =>
      cases complete with
      | true => exact h
      | false => exact nofun

/-- Operations keep debuggers coherent, by cases on the last one. -/
theorem Reachable.coherent {debugger : Debugger} (h : Reachable debugger)
    : debugger.Coherent := by
  induction h with
  | fresh configuration => exact nofun
  | load _ loads _ =>
      unfold Debugger.load at loads
      split at loads <;> cases loads
      exact nofun
  | execute _ hear allowance heard ih => exact ih.execute hear allowance heard
  | step _ hear allowance heard ih => exact ih.step hear allowance heard
  | add _ adds ih =>
      unfold addBreakpoint Breakpoints.add at adds
      split at adds
      · cases adds
      · rename_i breakpoints added
        cases adds
        split at added
        · cases added
        · split at added <;> cases added
          exact ih
  | remove _ removes ih =>
      unfold removeBreakpoint Breakpoints.remove at removes
      split at removes
      · cases removes
      · rename_i breakpoint breakpoints removed
        cases removes
        split at removed <;> cases removed
        exact ih
  | switch _ address enabled ih => exact ih

-----------------------------------------------------------------------------------------
-- Stops
-----------------------------------------------------------------------------------------

/-- How an execution stops: the machine that it leaves, what the debugger then tells about
itself, and how it has ended.
-/
structure Stop where
  machine : Machine
  interrupted : Bool := false
  complete : Bool := false
  ending : Ending := .returned

/-- Why an execution stops that has come to a machine by so many steps. A breakpoint at the
start of it does not count when the debugger was interrupted there.
-/
inductive StopsAs (breakpoints : Breakpoints) (count : Nat) (machine : Machine) : Stop → Prop
  | finished (done : machine.finished = true)
    : StopsAs breakpoints count machine { machine, complete := true }
  | pauses (awaits : breakpoints.Awaits machine)
    (comes : 1 ≤ count ∨ breakpoints.interrupted = false)
    : StopsAs breakpoints count machine { machine, interrupted := true }
  | fails {next : Machine} {fault : Fault} (unfinished : machine.finished = false)
    (passes
      : ¬ (breakpoints.Awaits machine ∧ (1 ≤ count ∨ breakpoints.interrupted = false)))
    (step : machine.step = { machine := next, fault? := some fault })
    : StopsAs breakpoints count machine { machine := next, ending := .failed fault }

/-- The first stop among the machines that plain steps lead to. -/
structure FirstStop (breakpoints : Breakpoints) (start : Machine) (count : Nat) (stop : Stop)
    : Prop where
  here : ∃ machine, start.after? count = some machine ∧ StopsAs breakpoints count machine stop
  first
    : ∀ earlier < count,
        ∀ passed other,
          start.after? earlier = some passed
          → ¬ StopsAs breakpoints earlier passed other

/-- Without a step behind it, a breakpoint pauses when it interrupts. -/
theorem interrupts_iff (unfinished : machine.finished = false)
    : breakpoints.Interrupts machine.counter
      ↔ breakpoints.Awaits machine ∧ (1 ≤ 0 ∨ breakpoints.interrupted = false) := by
  simp [Breakpoints.Interrupts, Breakpoints.Awaits, unfinished, and_comm]

/-- A machine at which nothing stops takes a step, and its breakpoint does not pause. -/
theorem passes_of_not_stopsAs {count : Nat}
    (h : ∀ stop, ¬ StopsAs breakpoints count machine stop)
    : ¬ (breakpoints.Awaits machine ∧ (1 ≤ count ∨ breakpoints.interrupted = false))
      ∧ ∃ next, machine.step = { machine := next } := by
  have passes
      : ¬ (breakpoints.Awaits machine ∧ (1 ≤ count ∨ breakpoints.interrupted = false)) := by
    intro pausing
    rcases pausing with ⟨awaits, comes⟩
    exact h _ (.pauses awaits comes)
  cases machine.outlook with
  | finished done => exact absurd (.finished done) (h _)
  | fails next fault unfinished step => exact absurd (.fails unfinished passes step) (h _)
  | steps next step => exact ⟨passes, next, step⟩

/-- A machine at which nothing stops at once leads the pursuit on. -/
theorem leads_of_not_stopsAs (h : ∀ stop, ¬ StopsAs breakpoints 0 machine stop)
    : ¬ breakpoints.Interrupts machine.counter
      ∧ ∃ next, machine.step = { machine := next } := by
  obtain ⟨passes, next, step⟩ := passes_of_not_stopsAs h
  rw [← interrupts_iff (finished_of_step step)] at passes
  exact ⟨passes, next, step⟩

/-- Behind a step a stop is one of the breakpoints whose flag is down. -/
theorem stopsAs_succ {count : Nat} {stop : Stop}
    : StopsAs breakpoints (count + 1) machine stop
      ↔ StopsAs (breakpoints.answered false) count machine stop := by
  constructor
  · intro h
    cases h with
    | finished done => exact .finished done
    | pauses awaits _ => exact .pauses awaits (Or.inr rfl)
    | fails unfinished passes step =>
        refine .fails unfinished ?_ step
        intro pausing
        rcases pausing with ⟨awaits, _⟩
        exact passes ⟨awaits, Or.inl (Nat.le_add_left 1 count)⟩
  · intro h
    cases h with
    | finished done => exact .finished done
    | pauses awaits _ => exact .pauses awaits (Or.inl (Nat.le_add_left 1 count))
    | fails unfinished passes step =>
        refine .fails unfinished ?_ step
        intro pausing
        rcases pausing with ⟨awaits, _⟩
        exact passes ⟨awaits, Or.inr rfl⟩

section Pursuits

variable {α : Type} (hear : α → Notice → α)

/-- A pursuit that may stop at once does so. -/
theorem pursue_of_stop {stop : Stop} (stops : StopsAs breakpoints 0 machine stop)
    (coherent : breakpoints.interrupted = true → machine.finished = false) (left : Nat)
    (heard : α)
    : (pursue hear (left + 1) heard breakpoints machine).state
        = (breakpoints.answered stop.interrupted, stop.machine)
      ∧ (pursue hear (left + 1) heard breakpoints machine).ending = stop.ending := by
  cases stops with
  | finished done =>
      have quiet : breakpoints.interrupted = false := by
        apply Bool.eq_false_iff.mpr
        intro interrupted
        simp [coherent interrupted] at done
      rw [pursue_of_finished hear done]
      refine ⟨?_, rfl⟩
      rw [Breakpoints.answered, ← quiet]
  | pauses awaits comes =>
      rw [pursue_of_interrupts hear awaits.1 ((interrupts_iff awaits.1).mpr ⟨awaits, comes⟩)]
      exact ⟨rfl, rfl⟩
  | fails unfinished passes step =>
      rw [← interrupts_iff unfinished] at passes
      exact pursue_of_fault hear unfinished passes step left heard

/-- A first stop behind a step is the first stop from there on. -/
theorem FirstStop.behind {next : Machine} {count : Nat} {stop : Stop}
    (h : FirstStop breakpoints start (count + 1) stop)
    (step : start.step = { machine := next })
    : FirstStop (breakpoints.answered false) next count stop := by
  obtain ⟨⟨machine, reached, stops⟩, first⟩ := h
  rw [after?_succ step] at reached
  refine ⟨⟨machine, reached, stopsAs_succ.mp stops⟩, ?_⟩
  intro earlier lt passed other there
  rw [← stopsAs_succ]
  exact first (earlier + 1) (by omega) passed other ((after?_succ step earlier).trans there)

/-- A pursuit ends where it first stops, and is refused when it has not come there. Witness:
induction on the number of steps in front of the stop.
-/
theorem pursue_of_firstStop {count : Nat} {stop : Stop}
    (h : FirstStop breakpoints start count stop)
    (coherent : breakpoints.interrupted = true → start.finished = false) (allowance : Nat)
    (heard : α)
    : (count < allowance
        → (pursue hear allowance heard breakpoints start).state
            = (breakpoints.answered stop.interrupted, stop.machine)
          ∧ (pursue hear allowance heard breakpoints start).ending = stop.ending)
      ∧ (allowance < count
        → (pursue hear allowance heard breakpoints start).ending = .refused) := by
  induction count generalizing breakpoints start allowance heard with
  | zero =>
      obtain ⟨machine, reached, stops⟩ := h.here
      cases reached
      refine ⟨?_, nofun⟩
      intro enough
      obtain ⟨left, rfl⟩ : ∃ left, allowance = left + 1 := ⟨allowance - 1, by omega⟩
      exact pursue_of_stop hear stops coherent left heard
  | succ count ih =>
      obtain ⟨passes, next, step⟩ :=
        leads_of_not_stopsAs fun other =>
          h.first 0 (Nat.succ_pos count) start other (after?_zero start)
      obtain ⟨refused, notice, passed⟩ := pursue_of_step hear passes step
      cases allowance with
      | zero => exact ⟨nofun, fun _ => refused heard⟩
      | succ left =>
          rw [passed, Nat.add_lt_add_iff_right, Nat.add_lt_add_iff_right]
          exact ih (h.behind step) nofun left (hear heard notice)

/-- A pursuit that never stops is refused, by induction on the notices that are admitted. -/
theorem pursue_of_no_stop
    (none
      : ∀ count machine stop,
          start.after? count = some machine
          → ¬ StopsAs breakpoints count machine stop)
    (allowance : Nat) (heard : α)
    : (pursue hear allowance heard breakpoints start).ending = .refused := by
  induction allowance generalizing breakpoints start heard with
  | zero =>
      obtain ⟨passes, next, step⟩ :=
        leads_of_not_stopsAs fun stop => none 0 start stop (after?_zero start)
      exact (pursue_of_step hear passes step).1 heard
  | succ left ih =>
      obtain ⟨passes, next, step⟩ :=
        leads_of_not_stopsAs fun stop => none 0 start stop (after?_zero start)
      obtain ⟨_, notice, passed⟩ := pursue_of_step hear passes step
      rw [passed]
      apply ih
      intro count machine stop reached
      rw [← stopsAs_succ]
      exact none (count + 1) machine stop ((after?_succ step count).trans reached)

end Pursuits

-----------------------------------------------------------------------------------------
-- Executions
-----------------------------------------------------------------------------------------

/-- The debugger as an execution leaves it that stops. -/
def stopped (debugger : Debugger) (stop : Stop) : Debugger :=
  {
    debugger with
      breakpoints := debugger.breakpoints.answered stop.interrupted
      machine? := some stop.machine
      complete := stop.complete
  }

/-- Executions end with this stop, whatever listens to them, as soon as the listener admits
enough of their steps.
-/
def EndsAs (debugger : Debugger) (stop : Stop) : Prop :=
  ∃ enough,
    ∀ (α : Type) (hear : α → Notice → α) (heard : α) allowance,
      enough < allowance
      → (debugger.execute hear allowance heard).state = debugger.stopped stop
        ∧ (debugger.execute hear allowance heard).ending = stop.ending

/-- Executions do not end, however many steps are admitted. -/
def Hangs (debugger : Debugger) : Prop :=
  ∀ (α : Type) (hear : α → Notice → α) (heard : α) allowance,
    (debugger.execute hear allowance heard).ending = .refused

/-- A stop is that of a complete debugger when the machine that it leaves has finished. -/
theorem StopsAs.complete_eq {count : Nat} {stop : Stop}
    (h : StopsAs breakpoints count machine stop)
    : stop.complete = (decide (stop.ending = .returned) && stop.machine.finished) := by
  cases h with
  | finished done => simp [done]
  | pauses awaits _ => simp [awaits.1]
  | fails => simp

/-- Executions end where they first stop, and are refused when they have not come there. -/
theorem execute_of_firstStop {debugger : Debugger} (coherent : debugger.Coherent)
    (holds : debugger.machine? = some start) (running : debugger.complete = false)
    {count : Nat} {stop : Stop} (h : FirstStop debugger.breakpoints start count stop)
    {α : Type} (hear : α → Notice → α) (heard : α) (allowance : Nat)
    : (count < allowance
        → (debugger.execute hear allowance heard).state = debugger.stopped stop
          ∧ (debugger.execute hear allowance heard).ending = stop.ending)
      ∧ (allowance < count
        → (debugger.execute hear allowance heard).ending = .refused) := by
  obtain ⟨configuration, breakpoints, machine?, complete⟩ := debugger
  obtain rfl : machine? = some start := holds
  obtain rfl : complete = false := running
  have unfinished : breakpoints.interrupted = true → start.finished = false := by
    intro interrupted
    obtain ⟨_, same, unfinished⟩ := coherent interrupted
    cases same
    exact unfinished
  obtain ⟨ends, refuses⟩ := pursue_of_firstStop hear h unfinished allowance heard
  refine ⟨?_, refuses⟩
  intro enough
  obtain ⟨state, ending⟩ := ends enough
  obtain ⟨_, _, stops⟩ := h.here
  simp only [execute, stopped, state, ending, stops.complete_eq, and_self]

/-- Executions that never stop are refused. -/
theorem hangs_of_no_stop {debugger : Debugger} (holds : debugger.machine? = some start)
    (running : debugger.complete = false)
    (none
      : ∀ count machine stop,
          start.after? count = some machine
          → ¬ StopsAs debugger.breakpoints count machine stop)
    : debugger.Hangs := by
  obtain ⟨configuration, breakpoints, machine?, complete⟩ := debugger
  obtain rfl : machine? = some start := holds
  obtain rfl : complete = false := running
  intro α hear heard allowance
  exact pursue_of_no_stop hear none allowance heard

theorem endsAs_of_firstStop {debugger : Debugger} (coherent : debugger.Coherent)
    (holds : debugger.machine? = some start) (running : debugger.complete = false)
    {count : Nat} {stop : Stop} (h : FirstStop debugger.breakpoints start count stop)
    : debugger.EndsAs stop :=
  ⟨count, fun _ hear heard allowance =>
    (execute_of_firstStop coherent holds running h hear heard allowance).1⟩

/-- There is a first stop, or none at all, by the least number of steps. -/
theorem exists_firstStop (breakpoints : Breakpoints) (start : Machine)
    : (∃ count stop, FirstStop breakpoints start count stop)
      ∨ ∀ count machine stop,
          start.after? count = some machine
          → ¬ StopsAs breakpoints count machine stop := by
  by_cases stops : ∃ count, ∃ machine stop,
      start.after? count = some machine ∧ StopsAs breakpoints count machine stop
  · classical
    obtain ⟨machine, stop, reached, here⟩ := Nat.find_spec stops
    refine Or.inl ⟨Nat.find stops, stop, ⟨machine, reached, here⟩, ?_⟩
    intro earlier lt passed other there also
    exact Nat.find_min stops lt ⟨passed, other, there, also⟩
  · refine Or.inr ?_
    intro count machine stop reached here
    exact stops ⟨count, machine, stop, reached, here⟩

/-- Executions end in one way, by comparing two that are admitted enough steps for both. -/
theorem EndsAs.unique {debugger : Debugger} {stop other : Stop} (h : debugger.EndsAs stop)
    (hOther : debugger.EndsAs other)
    : debugger.stopped stop = debugger.stopped other ∧ stop.ending = other.ending := by
  obtain ⟨enough, ends⟩ := h
  obtain ⟨also, endsOther⟩ := hOther
  obtain ⟨state, ending⟩ := ends Unit (fun _ _ => ()) () (enough + also + 1) (by omega)
  obtain ⟨stateOther, endingOther⟩ :=
    endsOther Unit (fun _ _ => ()) () (enough + also + 1) (by omega)
  exact ⟨state.symm.trans stateOther, ending.symm.trans endingOther⟩

/-- Executions that return do not hang. -/
theorem EndsAs.not_hangs {debugger : Debugger} {stop : Stop} (h : debugger.EndsAs stop)
    (returned : stop.ending = .returned)
    : ¬ debugger.Hangs := by
  intro hangs
  obtain ⟨enough, ends⟩ := h
  have same := (ends Unit (fun _ _ => ()) () (enough + 1) (by omega)).2
  rw [hangs Unit, returned] at same
  contradiction

end Debugger

end Brainfuck
