import Brainfuck.Proofs.Compilation.Layout
import Brainfuck.Proofs.Execution.Course
import Brainfuck.Proofs.Execution.Step

/-! Transitions of machines that are built from programs.
What a step does to address and store does not depend on the metrics, and what it adds to the
metrics does not either. So machines that only their metrics tell apart take the same steps.
-/

namespace Brainfuck

/-- What the virtual machine can execute: an action, or a jump to an address. -/
inductive Instruction.Role : Instruction → Prop
  | action {instruction : Instruction} (action : Action)
    (does : instruction.action? = some action)
    : Role instruction
  | jumpIfZero (target : Nat) : Role (.jumpIfZero target)
  | jumpIfNonzero (target : Nat) : Role (.jumpIfNonzero target)

/-- Code that no machine leaves through its front. Source bytes always are. -/
def Code.Executable : Code → Prop
  | .source _ => True
  | .instructions list => ∀ instruction ∈ list, instruction.Role

/-- The instruction of a piece is an action. -/
theorem SourceRun.role_of_instruction? {piece : SourceRun} {instruction : Instruction}
    (is : piece.instruction? = some instruction)
    : instruction.Role := by
  unfold instruction? at is
  split at is <;> cases is <;> exact .action _ rfl

/-- All code that is laid out can be executed, by induction on the layout. -/
theorem LaidOut.role {address : Nat} {pieces : List SourceRun} {code : List Instruction}
    (h : LaidOut address pieces code)
    : ∀ instruction ∈ code, instruction.Role := by
  induction h with
  | nil => simp
  | plain is behind ih =>
      intro instruction member
      rcases List.mem_cons.mp member with rfl | member
      · exact SourceRun.role_of_instruction? is
      · exact ih instruction member
  | loop begins ends inside behind ihBody ihRest =>
      intro instruction member
      rcases List.mem_cons.mp member with rfl | member
      · exact .jumpIfZero _
      · rcases List.mem_append.mp member with member | member
        · exact ihBody instruction member
        · rcases List.mem_cons.mp member with rfl | member
          · exact .jumpIfNonzero _
          · exact ihRest instruction member

/-- Every configuration makes executable code, because only nested pieces are compiled. -/
theorem Configuration.executable_of_code? {configuration : Configuration} {program : Program}
    {code : Code} (h : configuration.code? program = .ok code)
    : code.Executable := by
  unfold code? at h
  split at h
  · cases h
    trivial
  · split at h
    · contradiction
    · rename_i list compiled
      cases h
      obtain ⟨same, again, laidOut⟩ :=
        program.exists_laidOut (Program.matched_of_compile compiled) configuration.level
      obtain rfl := Except.ok.inj (compiled.symm.trans again)
      intro instruction member
      exact laidOut.role instruction (Array.mem_toList_iff.mpr member)

namespace Machine

variable {code : Code} {address : Nat} {store : Store}

/-- What a step does, whatever the metrics are. -/
inductive Transition (code : Code) (address : Nat) (store : Store) : Prop
  | moves (next : Nat) (later : Store) (executed skipped changes : Nat)
    (step
      : ∀ metrics,
          (placed code address store metrics).step
          = { machine := placed code next later (metrics.count executed skipped changes) })
  | fails (fault : Fault) (executed skipped changes : Nat)
    (step
      : ∀ metrics,
          (placed code address store metrics).step
          = {
              machine :=
                placed code address store (metrics.count executed skipped changes)
              fault? := some fault
            })

/-- What executable code leads to is an address. -/
theorem exists_address_of_passage (executable : code.Executable) {unit : CodeUnit}
    (found : code.unitAtOffset? address = some unit) {cell : Int} {passage : Passage}
    (led : unit.passage code address cell = .ok passage)
    : ∃ target : Nat, passage.counter = target := by
  apply Int.eq_ofNat_of_zero_le
  have inside : 0 ≤ (address : Int) := Int.natCast_nonneg address
  cases code with
  | source program =>
      obtain ⟨byte, _, rfl⟩ := Option.map_eq_some_iff.mp found
      exact CodeUnit.nonnegative_of_passage inside led
  | instructions list =>
      obtain ⟨instruction, present, rfl⟩ := Option.map_eq_some_iff.mp found
      cases executable instruction (Array.mem_of_getElem? present) with
      | action action does =>
          have acts : (CodeUnit.instruction instruction).action? = some action := does
          rw [CodeUnit.passage_of_action acts] at led
          cases led
          exact Int.le_add_one inside
      | jumpIfZero target =>
          cases led
          split
          · exact Int.natCast_nonneg target
          · exact Int.le_add_one inside
      | jumpIfNonzero target =>
          cases led
          split
          · exact Int.le_add_one inside
          · exact Int.natCast_nonneg target

/-- Within executable code there is always a transition, by cases on what the unit does. -/
theorem transition (executable : code.Executable) (inside : address < code.length)
    : Transition code address store := by
  obtain ⟨unit, found⟩ := exists_unitAtOffset? inside
  cases does : unit.action? with
  | some action =>
      cases acted : store.act action with
      | error fault =>
          apply Transition.fails fault 1 0 unit.failedChanges
          intro metrics
          rw [step_of_action found does store metrics, acted]
      | ok next =>
          apply Transition.moves (address + 1) next 1 0 1
          intro metrics
          rw [step_of_action found does store metrics, acted]
  | none =>
      cases led : unit.passage code address store.tape.current with
      | error fault =>
          exact .fails fault 1 0 unit.failedChanges (step_of_lost found does led)
      | ok passage =>
          obtain ⟨target, leads⟩ := exists_address_of_passage executable found led
          exact .moves target store passage.executed passage.skipped passage.changes
            (step_of_passage found does led leads)

/-- Steps lead to the same address and store, and add the same to the metrics, whatever the
metrics are; by induction on the steps.
-/
theorem after?_placed (executable : code.Executable) {metrics : Metrics} {count : Nat}
    {last : Machine} (reached : (placed code address store metrics).after? count = some last)
    : ∃ next later executed skipped changes,
        last = placed code next later (metrics.count executed skipped changes)
        ∧ ∀ other,
            (placed code address store other).after? count
            = some (placed code next later (other.count executed skipped changes)) := by
  induction count generalizing address store metrics with
  | zero =>
      cases reached
      exact ⟨address, store, 0, 0, 0, rfl, fun _ => rfl⟩
  | succ count ih =>
      obtain ⟨second, first, rest⟩ := exists_step_of_after? reached
      have inside : address < code.length := unfinished_placed.mp (finished_of_step first)
      cases transition executable inside with
      | fails fault executed skipped changes step =>
          rw [step] at first
          cases first
      | moves next later executed skipped changes step =>
          rw [step] at first
          cases first
          obtain ⟨final, finalStore, moreExecuted, moreSkipped, moreChanges, rfl, others⟩ := ih rest
          refine ⟨final, finalStore, executed + moreExecuted, skipped + moreSkipped,
            changes + moreChanges, ?_, ?_⟩
          · rw [Metrics.count_count]
          · intro other
            rw [after?_succ (step other), others, Metrics.count_count]

end Machine

end Brainfuck
