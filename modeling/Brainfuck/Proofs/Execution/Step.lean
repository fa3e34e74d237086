import Brainfuck.Proofs.Brackets.Balance
import Brainfuck.Proofs.Execution.Effect

/-! Steps of both engines, one equation for each kind of unit.
A machine is written as its code, an address, a store and its metrics, and a step as the
change of these four. Each equation is the effect of the unit at the address.
-/

namespace Brainfuck

namespace Machine

/-- The machine that is about to execute the code at an address. -/
def placed (code : Code) (address : Nat) (store : Store) (metrics : Metrics) : Machine where
  code
  counter := address
  tape := store.tape
  input := store.input
  output := store.output
  metrics

/-- A machine in front of its first step is placed at the start of its code. -/
theorem machine?_eq (configuration : Configuration) (program : Program) (input : Input)
    (output : Output)
    : configuration.machine? program input output
      = match configuration.code? program with
        | .error fault => .error fault
        | .ok code => .ok (placed code 0 (.fresh configuration input output) {}) := by
  unfold Configuration.machine?
  cases configuration.code? program <;> rfl

section Placed

variable {code : Code} {program : Program} {list : Array Instruction} {address : Nat}
  {store next : Store} {metrics : Metrics} {action : Action} {fault : Fault}

@[simp] theorem counter_placed
    : (placed code address store metrics).counter = address :=
  rfl

@[simp] theorem metrics_placed : (placed code address store metrics).metrics = metrics :=
  rfl

theorem finished_placed
    : (placed code address store metrics).finished = true ↔ code.length ≤ address := by
  simp [finished, length, placed]

/-- A unit at an address is within the code. -/
theorem lt_length_of_unitAtOffset? {unit : CodeUnit}
    (found : code.unitAtOffset? address = some unit)
    : address < code.length := by
  cases code with
  | source program =>
      obtain ⟨byte, found, _⟩ := Option.map_eq_some_iff.mp found
      exact (Array.getElem?_eq_some_iff.mp found).1
  | instructions list =>
      obtain ⟨instruction, found, _⟩ := Option.map_eq_some_iff.mp found
      exact (Array.getElem?_eq_some_iff.mp found).1

theorem unfinished_placed
    : (placed code address store metrics).finished = false ↔ address < code.length := by
  simp [finished, length, placed]

theorem unfinished_source {command : Command}
    (found : program.commands[address]? = some command)
    : (placed (.source program) address store metrics).finished = false := by
  have lt := (List.getElem?_eq_some_iff.mp found).1
  rw [Program.commands, List.length_map, Array.length_toList] at lt
  exact unfinished_placed.mpr lt

theorem unfinished_instructions {instruction : Instruction}
    (found : list[address]? = some instruction)
    : (placed (.instructions list) address store metrics).finished = false :=
  unfinished_placed.mpr (Array.getElem?_eq_some_iff.mp found).1

theorem notice_placed {unit : CodeUnit} (found : code.unitAtOffset? address = some unit)
    : (placed code address store metrics).notice
      = .ok
          {
            counter := address
            unit
            pointer := store.tape.pointer
            cell := store.tape.current
          } := by
  have unfinished : (placed code address store metrics).finished = false :=
    unfinished_placed.mpr (lt_length_of_unitAtOffset? found)
  have nonnegative : ¬ (address : Int) < 0 := by omega
  have at_address : code.unitAt (address : Int) = .ok unit := by
    simp only [Code.unitAt, Code.offset, nonnegative, if_false, Int.toNat_natCast, found]
  unfold notice
  rw [unfinished, counter_placed]
  simp only [placed, at_address, Bool.false_eq_true, if_false]

/-- Within the code there is a unit at every offset. -/
theorem exists_unitAtOffset? (inside : address < code.length)
    : ∃ unit, code.unitAtOffset? address = some unit := by
  cases code with
  | source program =>
      exact ⟨_, Option.map_eq_some_iff.mpr ⟨_, Array.getElem?_eq_getElem inside, rfl⟩⟩
  | instructions list =>
      exact ⟨_, Option.map_eq_some_iff.mpr ⟨_, Array.getElem?_eq_getElem inside, rfl⟩⟩

/-- A machine within its code announces its next step. -/
theorem exists_notice_placed (inside : address < code.length) (store : Store)
    (metrics : Metrics)
    : ∃ notice, (placed code address store metrics).notice = .ok notice := by
  obtain ⟨unit, found⟩ := exists_unitAtOffset? inside
  exact ⟨_, notice_placed found⟩

/-- A step performs the unit at the address. -/
theorem step_placed {unit : CodeUnit} (found : code.unitAtOffset? address = some unit)
    : (placed code address store metrics).step
      = (placed code address store metrics).perform unit := by
  simp only [step, notice_placed found]

/-- A unit that acts does so at its address. It is counted also when it fails. -/
theorem step_of_action {unit : CodeUnit} (found : code.unitAtOffset? address = some unit)
    (does : unit.action? = some action) (store : Store) (metrics : Metrics)
    : (placed code address store metrics).step
      = match store.act action with
        | .error fault =>
            {
              machine := placed code address store (metrics.count 1 0 unit.failedChanges)
              fault? := some fault
            }
        | .ok next => { machine := placed code (address + 1) next (metrics.count 1 0 1) } := by
  have same : (placed code address store metrics).store = store := rfl
  rw [step_placed found, perform_eq, effect_of_action _ does, same]
  cases store.act action <;> rfl

/-- A unit that leads to an address leaves the store alone. -/
theorem step_of_passage {unit : CodeUnit} (found : code.unitAtOffset? address = some unit)
    (rests : unit.action? = none) {passage : Passage}
    (led : unit.passage code address store.tape.current = .ok passage) {target : Nat}
    (leads : passage.counter = target) (metrics : Metrics)
    : (placed code address store metrics).step
      = {
          machine :=
            placed code target store
              (metrics.count passage.executed passage.skipped passage.changes)
        } := by
  have effect
      : (placed code address store metrics).effect unit = .ok (store, passage) := by
    rw [effect_of_no_action _ rests]
    simp only [placed, led]
    rfl
  rw [step_placed found, perform_eq, effect]
  simp only [pass, leads]
  rfl

/-- A unit that leads nowhere leaves everything alone but the metrics. -/
theorem step_of_lost {unit : CodeUnit} (found : code.unitAtOffset? address = some unit)
    (rests : unit.action? = none)
    (lost : unit.passage code address store.tape.current = .error fault) (metrics : Metrics)
    : (placed code address store metrics).step
      = {
          machine := placed code address store (metrics.count 1 0 unit.failedChanges)
          fault? := some fault
        } := by
  have effect : (placed code address store metrics).effect unit = .error fault := by
    rw [effect_of_no_action _ rests]
    simp only [placed, lost]
  rw [step_placed found, perform_eq, effect]
  rfl

-----------------------------------------------------------------------------------------
-- Source bytes
-----------------------------------------------------------------------------------------

/-- A byte stands for every command. -/
theorem exists_byte_of_command {command : Command}
    (found : program.commands[address]? = some command)
    : ∃ byte,
        Command.ofByte byte = command
        ∧ Code.unitAtOffset? (.source program) address = some (.byte byte) := by
  simp only [Program.commands, List.getElem?_map, Option.map_eq_some_iff,
    Array.getElem?_toList] at found
  obtain ⟨byte, found, meaning⟩ := found
  refine ⟨byte, meaning, ?_⟩
  simp only [Code.unitAtOffset?, found, Option.map_some]

/-- An action of a command is done at its address. -/
theorem step_command {command : Command} (found : program.commands[address]? = some command)
    (does : command.action? = some action) (store : Store) (metrics : Metrics)
    : (placed (.source program) address store metrics).step
      = match store.act action with
        | .error fault =>
            {
              machine := placed (.source program) address store (metrics.count 1 0 0)
              fault? := some fault
            }
        | .ok next =>
            {
              machine := placed (.source program) (address + 1) next (metrics.count 1 0 1)
            } := by
  obtain ⟨byte, meaning, unit⟩ := exists_byte_of_command found
  have acts : (CodeUnit.byte byte).action? = some action := by
    rw [CodeUnit.action?, meaning, does]
  exact step_of_action unit acts store metrics

/-- A command that does not act leads where all bytes lead that stand for it. -/
theorem step_of_command {command : Command}
    (found : program.commands[address]? = some command) (rests : command.action? = none)
    {passage : Passage}
    (led
      : ∀ byte,
          Command.ofByte byte = command
          → (CodeUnit.byte byte).passage (.source program) address store.tape.current
            = .ok passage)
    {target : Nat} (leads : passage.counter = target) (metrics : Metrics)
    : (placed (.source program) address store metrics).step
      = {
          machine :=
            placed (.source program) target store
              (metrics.count passage.executed passage.skipped passage.changes)
        } := by
  obtain ⟨byte, meaning, unit⟩ := exists_byte_of_command found
  have silent : (CodeUnit.byte byte).action? = none := by
    rw [CodeUnit.action?, meaning, rests]
  exact step_of_passage unit silent (led byte meaning) leads metrics

/-- A command that leads nowhere changes nothing but the number of executed commands. -/
theorem step_of_lost_command {command : Command}
    (found : program.commands[address]? = some command) (rests : command.action? = none)
    (lost
      : ∀ byte,
          Command.ofByte byte = command
          → (CodeUnit.byte byte).passage (.source program) address store.tape.current
            = .error fault)
    (metrics : Metrics)
    : (placed (.source program) address store metrics).step
      = {
          machine := placed (.source program) address store (metrics.count 1 0 0)
          fault? := some fault
        } := by
  obtain ⟨byte, meaning, unit⟩ := exists_byte_of_command found
  have silent : (CodeUnit.byte byte).action? = none := by
    rw [CodeUnit.action?, meaning, rests]
  exact step_of_lost unit silent (lost byte meaning) metrics

theorem step_comment (found : program.commands[address]? = some .comment) (store : Store)
    (metrics : Metrics)
    : (placed (.source program) address store metrics).step
      = { machine := placed (.source program) (address + 1) store (metrics.count 0 1 1) } := by
  have led (byte : UInt8) (meaning : Command.ofByte byte = .comment)
      : (CodeUnit.byte byte).passage (.source program) address store.tape.current
        = .ok { counter := address + 1, executed := 0, skipped := 1 } := by
    simp only [CodeUnit.passage, meaning]
  exact step_of_command found rfl led rfl metrics

/-- A loop is entered when the current cell is not zero. -/
theorem step_enter (found : program.commands[address]? = some .beginLoop)
    (nonzero : store.tape.current ≠ 0)
    : (placed (.source program) address store metrics).step
      = { machine := placed (.source program) (address + 1) store (metrics.count 1 0 1) } := by
  have led (byte : UInt8) (meaning : Command.ofByte byte = .beginLoop)
      : (CodeUnit.byte byte).passage (.source program) address store.tape.current
        = .ok { counter := address + 1 } := by
    simp only [CodeUnit.passage, meaning, nonzero, if_false]
  exact step_of_command found rfl led rfl metrics

/-- A loop is left when the current cell is zero at its end. -/
theorem step_leave (found : program.commands[address]? = some .endLoop)
    (zero : store.tape.current = 0)
    : (placed (.source program) address store metrics).step
      = { machine := placed (.source program) (address + 1) store (metrics.count 1 0 1) } := by
  have led (byte : UInt8) (meaning : Command.ofByte byte = .endLoop)
      : (CodeUnit.byte byte).passage (.source program) address store.tape.current
        = .ok { counter := address + 1 } := by
    simp only [CodeUnit.passage, meaning, zero, if_true]
  exact step_of_command found rfl led rfl metrics

/-- A loop is skipped when the current cell is zero at its start: the machine goes behind
the partner.
-/
theorem step_skip (found : program.commands[address]? = some .beginLoop)
    (zero : store.tape.current = 0) {partner : Nat}
    (search : program.closingOf address = .ok partner)
    : (placed (.source program) address store metrics).step
      = { machine := placed (.source program) (partner + 1) store (metrics.count 1 0 2) } := by
  have led (byte : UInt8) (meaning : Command.ofByte byte = .beginLoop)
      : (CodeUnit.byte byte).passage (.source program) address store.tape.current
        = .ok { counter := partner + 1, changes := 2 } := by
    simp only [CodeUnit.passage, meaning, zero, if_true, Code.program, search, Passage.behind]
  exact step_of_command found rfl led rfl metrics

/-- A loop is repeated when the current cell is not zero at its end: the machine goes behind
the partner.
-/
theorem step_repeat (found : program.commands[address]? = some .endLoop)
    (nonzero : store.tape.current ≠ 0) {partner : Nat}
    (search : program.openingOf address = .ok partner)
    : (placed (.source program) address store metrics).step
      = { machine := placed (.source program) (partner + 1) store (metrics.count 1 0 2) } := by
  have led (byte : UInt8) (meaning : Command.ofByte byte = .endLoop)
      : (CodeUnit.byte byte).passage (.source program) address store.tape.current
        = .ok { counter := partner + 1, changes := 2 } := by
    simp only [CodeUnit.passage, meaning, nonzero, if_false, Code.program, search,
      Passage.behind]
  exact step_of_command found rfl led rfl metrics

/-- A loop that has no end cannot be skipped. -/
theorem step_skip_of_lost (found : program.commands[address]? = some .beginLoop)
    (zero : store.tape.current = 0) (search : program.closingOf address = .error fault)
    : (placed (.source program) address store metrics).step
      = {
          machine := placed (.source program) address store (metrics.count 1 0 0)
          fault? := some fault
        } := by
  have lost (byte : UInt8) (meaning : Command.ofByte byte = .beginLoop)
      : (CodeUnit.byte byte).passage (.source program) address store.tape.current
        = .error fault := by
    simp only [CodeUnit.passage, meaning, zero, if_true, Code.program, search, Passage.behind]
  exact step_of_lost_command found rfl lost metrics

/-- A loop that has no beginning cannot be repeated. -/
theorem step_repeat_of_lost (found : program.commands[address]? = some .endLoop)
    (nonzero : store.tape.current ≠ 0) (search : program.openingOf address = .error fault)
    : (placed (.source program) address store metrics).step
      = {
          machine := placed (.source program) address store (metrics.count 1 0 0)
          fault? := some fault
        } := by
  have lost (byte : UInt8) (meaning : Command.ofByte byte = .endLoop)
      : (CodeUnit.byte byte).passage (.source program) address store.tape.current
        = .error fault := by
    simp only [CodeUnit.passage, meaning, nonzero, if_false, Code.program, search,
      Passage.behind]
  exact step_of_lost_command found rfl lost metrics

-----------------------------------------------------------------------------------------
-- Instructions
-----------------------------------------------------------------------------------------

theorem unitAtOffset?_of_instruction {instruction : Instruction}
    (found : list[address]? = some instruction)
    : Code.unitAtOffset? (.instructions list) address = some (.instruction instruction) := by
  simp only [Code.unitAtOffset?, found, Option.map_some]

/-- An action of an instruction is done at its address. It is counted in full, also when it
fails.
-/
theorem step_instruction {instruction : Instruction}
    (found : list[address]? = some instruction) (does : instruction.action? = some action)
    (store : Store) (metrics : Metrics)
    : (placed (.instructions list) address store metrics).step
      = match store.act action with
        | .error fault =>
            {
              machine := placed (.instructions list) address store (metrics.count 1 0 1)
              fault? := some fault
            }
        | .ok next =>
            {
              machine := placed (.instructions list) (address + 1) next (metrics.count 1 0 1)
            } :=
  step_of_action (unitAtOffset?_of_instruction found) does store metrics

/-- A jump on zero is taken when the current cell is zero. -/
theorem step_jumpIfZero {target : Nat}
    (found : list[address]? = some { opcode := .jumpIfZero, operand := target }) (store : Store)
    (metrics : Metrics)
    : (placed (.instructions list) address store metrics).step
      = {
          machine :=
            placed (.instructions list)
              (if store.tape.current = 0 then target else address + 1) store
              (metrics.count 1 0 1)
        } := by
  apply step_of_passage (unitAtOffset?_of_instruction found) rfl rfl ?_ metrics
  split <;> rfl

/-- A jump on a number other than zero is taken when the current cell is not zero. -/
theorem step_jumpIfNonzero {target : Nat}
    (found : list[address]? = some { opcode := .jumpIfNonzero, operand := target }) (store : Store)
    (metrics : Metrics)
    : (placed (.instructions list) address store metrics).step
      = {
          machine :=
            placed (.instructions list)
              (if store.tape.current = 0 then address + 1 else target) store
              (metrics.count 1 0 1)
        } := by
  apply step_of_passage (unitAtOffset?_of_instruction found) rfl rfl ?_ metrics
  split <;> rfl

end Placed

end Machine

end Brainfuck
