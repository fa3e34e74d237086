import Brainfuck.Proofs.Execution.Safety
import Brainfuck.Proofs.Execution.Stepping

/-! Failing steps.
A step that fails leaves everything but the metrics as it was, and no step looks at the
metrics. So it fails again for the same reason, however often it is tried.
-/

namespace Brainfuck

/-- A unit at an address is one at an offset. -/
theorem Code.exists_offset_of_unitAt {code : Code} {address : Int} {unit : CodeUnit}
    (found : code.unitAt address = .ok unit)
    : ∃ offset, code.unitAtOffset? offset = some unit := by
  unfold unitAt at found
  simp only at found
  split at found
  · contradiction
  · split at found
    · rename_i present
      cases found
      exact ⟨_, present⟩
    · contradiction

theorem Code.exists_byte {program : Program} {address : Int} {unit : CodeUnit}
    (found : (Code.source program).unitAt address = .ok unit)
    : ∃ value, unit = .byte value := by
  obtain ⟨offset, present⟩ := exists_offset_of_unitAt found
  obtain ⟨value, _, rfl⟩ := Option.map_eq_some_iff.mp present
  exact ⟨value, rfl⟩

theorem Code.exists_instruction {list : Array Instruction} {address : Int} {unit : CodeUnit}
    (found : (Code.instructions list).unitAt address = .ok unit)
    : ∃ value, unit = .instruction value := by
  obtain ⟨offset, present⟩ := exists_offset_of_unitAt found
  obtain ⟨value, _, rfl⟩ := Option.map_eq_some_iff.mp present
  exact ⟨value, rfl⟩

/-- What the metrics count of a step that fails after its notice: source commands change the
program counter only when they succeed, instructions are counted in full before.
-/
def Metrics.charged (metrics : Metrics) : Code → Metrics
  | .source _ => { metrics with executed := metrics.executed + 1 }
  | .instructions _ =>
      {
        metrics with
          executed := metrics.executed + 1
          counterChanges := metrics.counterChanges + 1
      }

namespace Machine

variable {machine : Machine} {fault : Fault}

-----------------------------------------------------------------------------------------
-- One step that fails
-----------------------------------------------------------------------------------------

/-- What a failing step leaves behind: only the metrics change, unless there was no unit to
execute. There is none behind the code, and none too far in front of instructions.
-/
structure FailsAtomically (machine next : Machine) (fault : Fault) : Prop where
  code : next.code = machine.code
  counter : next.counter = machine.counter
  store : next.store = machine.store
  completed : fault.kind = .illegalResume ↔ machine.finished = true
  missing
    : fault.kind = .badIndex
      ↔ (∃ list, machine.code = .instructions list) ∧ machine.counter < -machine.length
  metrics
    : next.metrics
      = if fault.kind = .illegalResume ∨ fault.kind = .badIndex then machine.metrics
        else machine.metrics.charged machine.code

/-- A unit that fails is none that is missing. -/
theorem kind_of_effect {unit : CodeUnit} (h : machine.effect unit = .error fault)
    : fault.kind ≠ .illegalResume ∧ fault.kind ≠ .badIndex := by
  rcases refuses_or_lost h with ⟨action, _, refuses⟩ | lost
  · cases refuses <;> exact ⟨nofun, nofun⟩
  · rcases CodeUnit.kind_of_passage lost with kind | kind <;> rw [kind] <;> exact ⟨nofun, nofun⟩

theorem metrics_charge {notice : Notice} (announced : machine.notice = .ok notice)
    : (machine.charge notice.unit).metrics = machine.metrics.charged machine.code := by
  have found := unit_of_notice announced
  cases code : machine.code with
  | source program =>
      rw [code] at found
      obtain ⟨value, same⟩ := Code.exists_byte found
      rw [same]
      rfl
  | instructions list =>
      rw [code] at found
      obtain ⟨value, same⟩ := Code.exists_instruction found
      rw [same]
      rfl

/-- A machine has not finished when its counter is in front of the code. -/
theorem unfinished_of_front (front : machine.counter < -machine.length)
    : machine.finished = false := by
  apply decide_eq_false
  omega

theorem passage_of_effect {unit : CodeUnit} {store : Store} {passage : Passage}
    (h : machine.effect unit = .ok (store, passage))
    : unit.passage machine.code machine.counter machine.tape.current = .ok passage := by
  unfold effect at h
  split at h
  · contradiction
  · contradiction
  · cases h
    assumption

/-- Interpreters stay at addresses that are not negative, by induction on the attempts. -/
theorem Reachable.nonnegative {start : Machine} (nonnegative : 0 ≤ start.counter)
    (h : Reachable start machine) {program : Program} (source : machine.code = .source program)
    : 0 ≤ machine.counter := by
  induction h with
  | start => exact nonnegative
  | @step machine _ ih =>
      rw [code_step] at source
      have inside := ih source
      cases machine.stepping with
      | completed done step | missing unfinished front kind step =>
          rw [step]
          exact inside
      | fails unfinished bound announced effect step =>
          rw [step]
          exact inside
      | passes unfinished bound announced effect step =>
          have found := unit_of_notice announced
          rw [source] at found
          obtain ⟨value, unit⟩ := Code.exists_byte found
          have led := passage_of_effect effect
          rw [unit] at led
          rw [step]
          exact CodeUnit.nonnegative_of_passage inside led

/-- Every step that fails does so atomically, by cases on what the step does. Interpreters have
to be at an address of the program, or behind it.
-/
theorem failsAtomically
    (inSource : ∀ program, machine.code = .source program → 0 ≤ machine.counter)
    {next : Machine} (fails : machine.step = { machine := next, fault? := some fault })
    : FailsAtomically machine next fault := by
  cases machine.stepping with
  | completed done step =>
      rw [step] at fails
      cases fails
      have inside : ¬ machine.counter < -machine.length := by
        intro front
        simp [unfinished_of_front front] at done
      exact
        {
          code := rfl
          counter := rfl
          store := rfl
          completed := iff_of_true rfl done
          missing := iff_of_false nofun fun missing => inside missing.2
          metrics := rfl
        }
  | missing unfinished front kind step =>
      rw [step] at fails
      cases fails
      have instructions : ∃ list, machine.code = .instructions list := by
        cases code : machine.code with
        | source program =>
            have nonnegative := inSource program code
            omega
        | instructions list => exact ⟨list, rfl⟩
      exact
        {
          code := rfl
          counter := rfl
          store := rfl
          completed := by simp [kind, unfinished]
          missing := iff_of_true kind ⟨instructions, front⟩
          metrics := (if_pos (Or.inr kind)).symm
        }
  | @fails notice cause unfinished inside announced effect step =>
      rw [step] at fails
      cases fails
      obtain ⟨resumed, missing⟩ := kind_of_effect effect
      exact
        {
          code := rfl
          counter := rfl
          store := rfl
          completed := by simp [resumed, unfinished]
          missing := iff_of_false missing fun front => Int.not_lt.mpr inside front.2
          metrics := by rw [if_neg (not_or.mpr ⟨resumed, missing⟩), metrics_charge announced]
        }
  | passes unfinished inside announced effect step => simp [step] at fails

-----------------------------------------------------------------------------------------
-- Steps that are tried again
-----------------------------------------------------------------------------------------

/-- Steps do not look at the metrics. -/
theorem fault_withMetrics (machine : Machine) (metrics : Metrics)
    : (machine.withMetrics metrics).step.fault? = machine.step.fault? := by
  have notice : (machine.withMetrics metrics).notice = machine.notice := rfl
  unfold step
  rw [notice]
  cases machine.notice with
  | error fault => rfl
  | ok notice =>
      have effect
          : (machine.withMetrics metrics).effect notice.unit = machine.effect notice.unit :=
        rfl
      simp only [perform_eq, effect]
      cases machine.effect notice.unit <;> rfl

/-- A step that has failed fails for ever and changes the metrics alone, by induction on the
attempts.
-/
theorem Reachable.withMetrics {later : Machine} (fails : machine.step.fault? = some fault)
    (h : Reachable machine later)
    : ∃ metrics, later = machine.withMetrics metrics := by
  induction h with
  | start => exact ⟨machine.metrics, rfl⟩
  | step _ ih =>
      obtain ⟨metrics, rfl⟩ := ih
      have again := (machine.fault_withMetrics metrics).trans fails
      obtain ⟨counted, left⟩ := exists_metrics_of_fault again
      exact ⟨counted, left⟩

/-- How a machine goes on after a failed run: it stays where it is, and fails as before. -/
structure Frozen (final : Machine) (fault : Fault) (later : Machine) : Prop where
  code : later.code = final.code
  counter : later.counter = final.counter
  store : later.store = final.store
  step : later.step.fault? = some fault
  run
    : ∀ {α : Type} (hear : α → Notice → α) (allowance : Nat) (heard : α),
        0 < allowance
        → (later.run hear allowance heard).ending = .failed fault
          ∧ Reachable final (later.run hear allowance heard).state

/-- What a failed run leaves behind has not finished, and its next step fails again. -/
theorem fails_of_failsAs {final : Machine} (h : machine.FailsAs final fault)
    : final.finished = false ∧ final.step.fault? = some fault := by
  obtain ⟨_, last, _, unfinished, step⟩ := failsAs_iff.mp h
  have fails : last.step.fault? = some fault := by rw [step]
  obtain ⟨metrics, left⟩ := exists_metrics_of_fault fails
  rw [step] at left
  subst left
  exact ⟨unfinished, (last.fault_withMetrics metrics).trans fails⟩

/-- After a failed run a machine is frozen, whatever is tried. -/
theorem frozen_of_failsAs {final later : Machine} (h : machine.FailsAs final fault)
    (reachable : Reachable final later)
    : Frozen final fault later := by
  obtain ⟨unfinished, fails⟩ := fails_of_failsAs h
  obtain ⟨metrics, rfl⟩ := reachable.withMetrics fails
  have again := (final.fault_withMetrics metrics).trans fails
  refine
    {
      code := rfl
      counter := rfl
      store := rfl
      step := again
      run := ?_
    }
  intro α hear allowance heard positive
  obtain ⟨left, rfl⟩ : ∃ left, allowance = left + 1 := ⟨allowance - 1, by omega⟩
  have step
      : (final.withMetrics metrics).step
        = {
            machine := (final.withMetrics metrics).step.machine
            fault? := some fault
          } := by
    rw [← again]
  have waits : (final.withMetrics metrics).finished = false := unfinished
  obtain ⟨state, ending⟩ := run_of_fault hear waits step left heard
  refine ⟨ending, ?_⟩
  rw [state]
  exact reachable.step

/-- Failing steps are atomic and repeatable. In every machine that steps and failed steps lead
to, a step that fails changes the metrics alone. After a run that has failed, all further steps
and runs fail for the same reason, and the machine stays as it is but for its metrics.
-/
theorem failing_steps_repeat {code : Code} {tape : Tape} {input : Input} {output : Output}
    {machine : Machine} (reachable : Reachable { code, tape, input, output } machine)
    : (∀ next fault,
        machine.step = { machine := next, fault? := some fault }
        → FailsAtomically machine next fault)
      ∧ ∀ final fault,
          machine.FailsAs final fault
          → ∀ later, Reachable final later → Frozen final fault later := by
  constructor
  · intro next fault fails
    apply failsAtomically ?_ fails
    intro program source
    exact reachable.nonnegative (Int.le_refl 0) source
  · intro final fault fails later further
    exact frozen_of_failsAs fails further

/-- A virtual machine that writes a cell and then meets a source command. -/
theorem failing_steps_repeat_at_unknown_instruction
    : ∃ machine final,
        Reachable
            {
              code := .instructions #[{ opcode := .write }, { opcode := .foreign .input }]
              tape := .blank 1 .checked
              output := .empty
            }
            machine
        ∧ machine.output = .collected #[0]
        ∧ machine.FailsAs final (.unknownInstruction { opcode := .foreign .input })
        ∧ FailsAtomically machine final (.unknownInstruction { opcode := .foreign .input })
        ∧ ∀ later,
            Reachable final later
            → Frozen final (.unknownInstruction { opcode := .foreign .input }) later := by
  have reachable
      : Reachable
          {
            code := .instructions #[{ opcode := .write }, { opcode := .foreign .input }]
            tape := .blank 1 .checked
            output := .empty
          }
          _ :=
    .step .start
  obtain ⟨atomic, frozen⟩ := failing_steps_repeat reachable
  exact ⟨_, _, reachable, rfl, ⟨2, rfl, rfl⟩, atomic _ _ rfl, frozen _ _ ⟨2, rfl, rfl⟩⟩

end Machine

end Brainfuck
