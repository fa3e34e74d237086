import Brainfuck.Proofs.Compilation.Jumps
import Brainfuck.Proofs.Compilation.Verdict
import Brainfuck.Proofs.Execution.Transition

/-! Safety of assembled code.
Whatever the virtual machine does on assembled code, it stays within the code or right behind
it. Steps fail for the tape alone, or because the machine has finished, and a jump that is
taken lands on its partner, which is not taken then.
-/

namespace Brainfuck

namespace Machine

/-- The machines that steps lead to, also steps that have failed. -/
inductive Reachable (start : Machine) : Machine → Prop
  | start : Reachable start start
  | step {machine : Machine} (before : Reachable start machine)
    : Reachable start machine.step.machine

/-- The next step takes a jump: it announces one whose condition holds. -/
def TakesJump (machine : Machine) : Prop :=
  ∃ notice operand,
    machine.notice = .ok notice
    ∧ (notice.unit = .instruction { opcode := .jumpIfZero, operand } ∧ notice.cell = 0
      ∨ notice.unit = .instruction { opcode := .jumpIfNonzero, operand } ∧ notice.cell ≠ 0)

/-- A machine at a place where nothing is missing: its counter is within the code or right
behind it, its next step fails for the tape alone unless it has finished, and two jumps in a
row are not taken.
-/
structure Safe (machine : Machine) : Prop where
  nonnegative : 0 ≤ machine.counter
  within : machine.counter ≤ machine.length
  faults
    : ∀ fault,
        machine.step.fault? = some fault
        → fault.kind = .pointerOutOfRange
          ∨ fault.kind = .cellOverflow
          ∨ machine.finished = true ∧ fault = .alreadyCompleted
  unit_found : machine.step.fault?.map Fault.kind ≠ some .badIndex
  unit_known : machine.step.fault?.map Fault.kind ≠ some .unknownInstruction
  jumps : machine.TakesJump → ¬ machine.step.machine.TakesJump

variable {list : Array Instruction} {address : Nat} {store : Store} {metrics : Metrics}

/-- A jump that is taken is an instruction whose condition holds. -/
theorem instruction_of_takesJump
    (h : (placed (.instructions list) address store metrics).TakesJump)
    : ∃ operand,
        list[address]? = some { opcode := .jumpIfZero, operand } ∧ store.tape.current = 0
        ∨ list[address]? = some { opcode := .jumpIfNonzero, operand }
          ∧ store.tape.current ≠ 0 := by
  obtain ⟨notice, operand, announced, condition⟩ := h
  have unfinished : (placed (.instructions list) address store metrics).finished = false := by
    cases done : (placed (.instructions list) address store metrics).finished with
    | false => rfl
    | true => simp [Machine.notice, done] at announced
  have inside : address < list.size := unfinished_placed.mp unfinished
  have found : list[address]? = some list[address] := Array.getElem?_eq_getElem inside
  have unit : (Code.instructions list).unitAtOffset? address = some (.instruction list[address]) := by
    rw [Code.unitAtOffset?, found]
    rfl
  rw [notice_placed unit] at announced
  cases announced
  refine ⟨operand, ?_⟩
  rw [found]
  rcases condition with ⟨unit, cell⟩ | ⟨unit, cell⟩
  · exact Or.inl ⟨congrArg some (CodeUnit.instruction.inj unit), cell⟩
  · exact Or.inr ⟨congrArg some (CodeUnit.instruction.inj unit), cell⟩

/-- Behind a jump that is taken none is, because the partner asks for the opposite. -/
theorem not_takesJump_twice (paired : JumpsPaired list)
    (h : (placed (.instructions list) address store metrics).TakesJump)
    : ¬ (placed (.instructions list) address store metrics).step.machine.TakesJump := by
  obtain ⟨operand, ⟨found, zero⟩ | ⟨found, nonzero⟩⟩ := instruction_of_takesJump h
  · obtain ⟨target, rfl, _, _, partner⟩ := paired.forward found
    rw [step_jumpIfZero found, if_pos zero]
    intro again
    obtain ⟨_, ⟨other, _⟩ | ⟨_, nonzero⟩⟩ := instruction_of_takesJump again
    · simp [partner] at other
    · exact nonzero zero
  · obtain ⟨target, rfl, _, partner⟩ := paired.backward found
    rw [step_jumpIfNonzero found, if_neg nonzero]
    intro again
    obtain ⟨_, ⟨_, zero⟩ | ⟨other, _⟩⟩ := instruction_of_takesJump again
    · exact nonzero zero
    · simp [partner] at other

/-- What a step does on code whose jumps are paired. -/
inductive StepWithin (list : Array Instruction) (address : Nat) (store : Store)
    (metrics : Metrics)
    : Prop
  | finished (done : address = list.size)
    (step
      : (placed (.instructions list) address store metrics).step
        = {
            machine := placed (.instructions list) address store metrics
            fault? := some .alreadyCompleted
          })
  | moves {next : Nat} {later : Store} {counted : Metrics} (within : next ≤ list.size)
    (wellFormed : store.tape.WellFormed → later.tape.WellFormed)
    (step
      : (placed (.instructions list) address store metrics).step
        = { machine := placed (.instructions list) next later counted })
  | fails {fault : Fault} {counted : Metrics}
    (kind : fault.kind = .pointerOutOfRange ∨ fault.kind = .cellOverflow)
    (step
      : (placed (.instructions list) address store metrics).step
        = {
            machine := placed (.instructions list) address store counted
            fault? := some fault
          })

/-- Every step stays within the code, by cases on the instruction. -/
theorem stepWithin (paired : JumpsPaired list) (role : ∀ instruction ∈ list, instruction.Role)
    (within : address ≤ list.size) (store : Store) (metrics : Metrics)
    : StepWithin list address store metrics := by
  rcases Nat.lt_or_eq_of_le within with inside | done
  · have found : list[address]? = some list[address] := Array.getElem?_eq_getElem inside
    have plays := role list[address] (Array.getElem_mem inside)
    generalize list[address] = instruction at found plays
    cases plays with
    | action action does =>
        have step := step_instruction found does store metrics
        cases acted : store.act action with
        | error fault =>
            rw [acted] at step
            exact .fails (Store.kind_of_act acted) step
        | ok next =>
            rw [acted] at step
            exact .moves inside (fun wellFormed => Store.wellFormed_of_act wellFormed acted) step
    | jumpIfZero target =>
        obtain ⟨_, same, _, bound, _⟩ := paired.forward found
        refine .moves ?_ id (step_jumpIfZero found store metrics)
        split <;> omega
    | jumpIfNonzero target =>
        obtain ⟨_, same, _, _⟩ := paired.backward found
        refine .moves ?_ id (step_jumpIfNonzero found store metrics)
        split <;> omega
  · have end_reached : (placed (.instructions list) address store metrics).finished = true :=
      finished_placed.mpr (Nat.le_of_eq done.symm)
    exact .finished done (step_of_finished end_reached)

/-- All machines that are reached are placed within the code, by induction on the steps. -/
theorem Reachable.placed_within (paired : JumpsPaired list)
    (role : ∀ instruction ∈ list, instruction.Role) (within : address ≤ list.size)
    {machine : Machine}
    (h : Reachable (placed (.instructions list) address store metrics) machine)
    : ∃ next later counted,
        machine = placed (.instructions list) next later counted
        ∧ next ≤ list.size
        ∧ (store.tape.WellFormed → later.tape.WellFormed) := by
  induction h with
  | start => exact ⟨address, store, metrics, rfl, within, id⟩
  | step _ ih =>
      obtain ⟨next, later, counted, rfl, inside, wellFormed⟩ := ih
      cases stepWithin paired role inside later counted with
      | finished _ step =>
          rw [step]
          exact ⟨next, later, counted, rfl, inside, wellFormed⟩
      | moves further keeps step =>
          rw [step]
          exact ⟨_, _, _, rfl, further, fun given => keeps (wellFormed given)⟩
      | fails _ step =>
          rw [step]
          exact ⟨next, later, _, rfl, inside, wellFormed⟩

/-- A machine that is placed within code whose jumps are paired is safe. -/
theorem safe_placed (paired : JumpsPaired list) (role : ∀ instruction ∈ list, instruction.Role)
    (within : address ≤ list.size) (store : Store) (metrics : Metrics)
    : (placed (.instructions list) address store metrics).Safe := by
  have faults
      : ∀ fault,
          (placed (.instructions list) address store metrics).step.fault? = some fault
          → fault.kind = .pointerOutOfRange
            ∨ fault.kind = .cellOverflow
            ∨ (placed (.instructions list) address store metrics).finished = true
              ∧ fault = .alreadyCompleted := by
    intro fault failed
    cases stepWithin paired role within store metrics with
    | finished done step =>
        rw [step] at failed
        cases failed
        exact Or.inr (Or.inr ⟨finished_placed.mpr (Nat.le_of_eq done.symm), rfl⟩)
    | moves _ _ step => simp [step] at failed
    | fails kind step =>
        rw [step] at failed
        cases failed
        exact kind.imp_right Or.inl
  have kinds {kind : FaultKind}
      (failed
        : (placed (.instructions list) address store metrics).step.fault?.map Fault.kind
          = some kind)
      : kind = .pointerOutOfRange ∨ kind = .cellOverflow ∨ kind = .illegalResume := by
    obtain ⟨fault, fails, rfl⟩ := Option.map_eq_some_iff.mp failed
    rcases faults fault fails with kind | kind | ⟨_, rfl⟩
    · exact Or.inl kind
    · exact Or.inr (Or.inl kind)
    · exact Or.inr (Or.inr rfl)
  refine
    {
      nonnegative := Int.natCast_nonneg address
      within := Int.ofNat_le.mpr within
      faults
      unit_found := ?_
      unit_known := ?_
      jumps := not_takesJump_twice paired
    }
  · intro failed
    simpa using kinds failed
  · intro failed
    simpa using kinds failed

end Machine

/-- Assembled code is safe. Its jumps are paired, and a virtual machine that executes it stays
safe whatever it has done, also when steps have failed. Runs are refused, for a bracket that
has no partner, when the brackets that they stand for are not balanced, and only then. What is
told is the cause, which is raised as it is when its offset can be written.
-/
theorem assembled_code_safe (runs : List SourceRun)
    : (∀ code,
        assemble runs = .ok code
        → JumpsPaired code
          ∧ ∀ tape input output machine,
              Machine.Reachable { code := .instructions code, tape, input, output } machine
              → machine.code = .instructions code
                ∧ machine.Safe
                ∧ (tape.WellFormed → machine.tape.WellFormed))
      ∧ ((∃ fault, assemble runs = .error fault ∧ fault.kind = .unmatchedBracket)
        ↔ ¬ Balanced (brackets (written runs))) := by
  have same
      : Balanced (brackets (written runs))
        ↔ Balanced (commandsOf (runs.flatMap SourceRun.pieces)) := by
    rw [← commandsOf_flatMap_singles, ← brackets_pieces, balanced_brackets]
  constructor
  · intro code assembled
    have paired := jumpsPaired_of_assemble assembled
    have role : ∀ instruction ∈ code, instruction.Role := by
      intro instruction member
      exact (laidOut_of_assemble assembled).role instruction (Array.mem_toList_iff.mpr member)
    refine ⟨paired, ?_⟩
    intro tape input output machine reachable
    have start
        : ({ code := .instructions code, tape, input, output } : Machine)
          = Machine.placed (.instructions code) 0 { tape, input, output } {} :=
      rfl
    rw [start] at reachable
    obtain ⟨next, later, counted, rfl, within, wellFormed⟩ :=
      reachable.placed_within paired role (Nat.zero_le _)
    exact ⟨rfl, Machine.safe_placed paired role within later counted, wellFormed⟩
  · rw [same]
    constructor
    · intro refusal balanced
      rcases refusal with ⟨fault, refused, _⟩
      obtain ⟨code, assembled, _⟩ := exists_laidOut_of_balanced balanced
      rw [refused] at assembled
      contradiction
    · intro unbalanced
      cases assembled : assemble runs with
      | ok code => exact absurd (balanced_of_assemble assembled) unbalanced
      | error fault => exact ⟨fault, rfl, kind_of_assemble assembled⟩

/-- A loop that a run of two `[` and a run of two `]` make, around runs that stand for nothing
but are emitted nevertheless.
-/
theorem assembled_code_safe_of_odd_counts
    : ∃ code,
        assemble
            [
              { offset := 7, byte := 0x5b, count := 2 },
              { offset := -3, byte := 0x2b, count := -5 },
              { offset := 0, byte := 0x5d, count := 0 },
              { offset := 0, byte := 0x5d, count := 2 }
            ]
          = .ok code
        ∧ JumpsPaired code
        ∧ ∀ tape input output machine,
            Machine.Reachable { code := .instructions code, tape, input, output } machine
            → machine.Safe := by
  obtain ⟨accepted, -⟩ :=
    assembled_code_safe
      [
        { offset := 7, byte := 0x5b, count := 2 },
        { offset := -3, byte := 0x2b, count := -5 },
        { offset := 0, byte := 0x5d, count := 0 },
        { offset := 0, byte := 0x5d, count := 2 }
      ]
  refine ⟨_, rfl, ?_⟩
  obtain ⟨paired, safe⟩ := accepted _ rfl
  refine ⟨paired, ?_⟩
  intro tape input output machine reachable
  exact (safe tape input output machine reachable).2.1

end Brainfuck
