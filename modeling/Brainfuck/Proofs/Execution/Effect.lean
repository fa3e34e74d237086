import Brainfuck.Proofs.Execution.Store

/-! Effects of units: one equation for both engines, in every state.
A unit acts on the store or leads the program counter on. All that it sees of the store is what
its action makes of it and, at a jump, the current cell; it never looks at the metrics. What
else is proved about steps builds on this equation.
-/

namespace Brainfuck

-----------------------------------------------------------------------------------------
-- Actions and passages
-----------------------------------------------------------------------------------------

/-- What a command does, unless it is a comment or a bracket. -/
def Command.action? : Command → Option Action
  | .moveRight => some (.move 1)
  | .moveLeft => some (.move (-1))
  | .increment => some (.add 1)
  | .decrement => some (.add (-1))
  | .output => some .write
  | .input => some .read
  | .comment | .beginLoop | .endLoop => none

/-- What an instruction does, unless it is a jump or unknown. -/
def Instruction.action? (instruction : Instruction) : Option Action :=
  match instruction.opcode with
  | .add => some (.add instruction.operand)
  | .subtract => some (.add (-instruction.operand))
  | .moveRight => some (.move instruction.operand)
  | .moveLeft => some (.move (-instruction.operand))
  | .read => some .read
  | .write => some .write
  | .jumpIfZero | .jumpIfNonzero | .foreign _ => none

/-- The part that a command plays in a program. -/
inductive Command.Role : Command → Prop
  | comment : Role .comment
  | beginLoop : Role .beginLoop
  | endLoop : Role .endLoop
  | action {command : Command} (action : Action) (does : command.action? = some action)
    : Role command

/-- Every command has a role. -/
theorem Command.role (command : Command) : command.Role := by
  cases command with
  | comment => exact .comment
  | beginLoop => exact .beginLoop
  | endLoop => exact .endLoop
  | moveRight | moveLeft | increment | decrement | output | input => exact .action _ rfl

/-- Counts commands that were executed, comments that were skipped, and changes of the
program counter.
-/
def Metrics.count (metrics : Metrics) (executed skipped counterChanges : Nat) : Metrics where
  executed := metrics.executed + executed
  skipped := metrics.skipped + skipped
  counterChanges := metrics.counterChanges + counterChanges

theorem Metrics.count_count (metrics : Metrics) (executed skipped changes : Nat)
    (moreExecuted moreSkipped moreChanges : Nat)
    : (metrics.count executed skipped changes).count moreExecuted moreSkipped moreChanges
      = metrics.count (executed + moreExecuted) (skipped + moreSkipped)
          (changes + moreChanges) := by
  simp only [count, Nat.add_assoc]

/-- What a unit does to the store, unless it leaves it alone. -/
def CodeUnit.action? : CodeUnit → Option Action
  | .byte value => (Command.ofByte value).action?
  | .instruction value => value.action?

/-- Where a unit leads, and what it counts on the way. -/
structure Passage where
  counter : Int
  executed : Nat := 1
  skipped : Nat := 0
  changes : Nat := 1

/-- The passage to behind the partner of a bracket, if it has one. -/
def Passage.behind : Except Fault Nat → Except Fault Passage
  | .error fault => .error fault
  | .ok partner => .ok { counter := partner + 1, changes := 2 }

/-- Where a unit leads from an address when the current cell holds a number. Only brackets and
jumps look at the cell.
-/
def CodeUnit.passage (code : Code) (counter cell : Int) : CodeUnit → Except Fault Passage
  | .byte value =>
      match Command.ofByte value with
      | .comment => .ok { counter := counter + 1, executed := 0, skipped := 1 }
      | .beginLoop =>
          if cell = 0 then Passage.behind (code.program.closingOf counter)
          else .ok { counter := counter + 1 }
      | .endLoop =>
          if cell = 0 then .ok { counter := counter + 1 }
          else Passage.behind (code.program.openingOf counter)
      | _ => .ok { counter := counter + 1 }
  | .instruction value =>
      match value.opcode with
      | .jumpIfZero => .ok { counter := if cell = 0 then value.operand else counter + 1 }
      | .jumpIfNonzero => .ok { counter := if cell = 0 then counter + 1 else value.operand }
      | .foreign _ => .error (.unknownInstruction value)
      | _ => .ok { counter := counter + 1 }

/-- What a unit makes of a store. -/
def CodeUnit.act (store : Store) (unit : CodeUnit) : Except Fault Store :=
  match unit.action? with
  | none => .ok store
  | some action => store.act action

/-- Changes of the program counter that a unit counts when it fails: instructions are counted
in full before they are executed, source commands only when they succeed.
-/
def CodeUnit.failedChanges : CodeUnit → Nat
  | .byte _ => 0
  | .instruction _ => 1

/-- A unit that acts leads to the next one, whatever the current cell holds. -/
theorem CodeUnit.passage_of_action {unit : CodeUnit} {action : Action}
    (does : unit.action? = some action) (code : Code) (counter cell : Int)
    : unit.passage code counter cell = .ok { counter := counter + 1 } := by
  cases unit with
  | byte value =>
      simp only [action?] at does
      simp only [passage]
      cases command : Command.ofByte value <;> simp_all [Command.action?]
  | instruction value =>
      obtain ⟨opcode, operand⟩ := value
      cases opcode <;> simp_all [action?, passage, Instruction.action?]

/-- A search for a `]` that finds none blames its start. -/
theorem Program.eq_of_closingOf {program : Program} {start : Int} {fault : Fault}
    (h : program.closingOf start = .error fault)
    : fault = .closingNotFound start := by
  unfold closingOf at h
  split at h <;> cases h
  rfl

/-- A search for a `[` that finds none blames its start. -/
theorem Program.eq_of_openingOf {program : Program} {start : Int} {fault : Fault}
    (h : program.openingOf start = .error fault)
    : fault = .openingNotFound start := by
  unfold openingOf at h
  split at h <;> cases h
  rfl

theorem Passage.eq_error_of_behind {search : Except Fault Nat} {fault : Fault}
    (h : Passage.behind search = .error fault)
    : search = .error fault := by
  cases search <;> cases h
  rfl

/-- Among source bytes only brackets without a partner lead nowhere, and they are blamed. -/
theorem CodeUnit.eq_of_byte_passage {code : Code} {counter cell : Int} {value : UInt8}
    {fault : Fault} (h : (CodeUnit.byte value).passage code counter cell = .error fault)
    : fault = .closingNotFound counter ∨ fault = .openingNotFound counter := by
  simp only [passage] at h
  split at h
  · contradiction
  · split at h
    · exact Or.inl (Program.eq_of_closingOf (Passage.eq_error_of_behind h))
    · contradiction
  · split at h
    · contradiction
    · exact Or.inr (Program.eq_of_openingOf (Passage.eq_error_of_behind h))
  · contradiction

theorem CodeUnit.kind_of_byte_passage {code : Code} {counter cell : Int} {value : UInt8}
    {fault : Fault} (h : (CodeUnit.byte value).passage code counter cell = .error fault)
    : fault.kind = .unmatchedBracket := by
  rcases eq_of_byte_passage h with rfl | rfl <;> rfl

/-- Among instructions only unknown ones lead nowhere. -/
theorem CodeUnit.eq_of_instruction_passage {code : Code} {counter cell : Int}
    {value : Instruction} {fault : Fault}
    (h : (CodeUnit.instruction value).passage code counter cell = .error fault)
    : (∃ command, value.opcode = .foreign command) ∧ fault = .unknownInstruction value := by
  obtain ⟨opcode, operand⟩ := value
  cases opcode <;> cases h
  exact ⟨⟨_, rfl⟩, rfl⟩

/-- Only brackets without a partner and unknown instructions lead nowhere. -/
theorem CodeUnit.kind_of_passage {code : Code} {counter cell : Int} {unit : CodeUnit} {fault : Fault}
    (h : unit.passage code counter cell = .error fault)
    : fault.kind = .unmatchedBracket ∨ fault.kind = .unknownInstruction := by
  cases unit with
  | byte value => exact Or.inl (kind_of_byte_passage h)
  | instruction value =>
      obtain ⟨_, rfl⟩ := eq_of_instruction_passage h
      exact Or.inr rfl

theorem Passage.nonnegative_of_behind {search : Except Fault Nat} {passage : Passage}
    (led : Passage.behind search = .ok passage)
    : 0 ≤ passage.counter := by
  cases search <;> cases led
  exact Int.le_add_one (Int.natCast_nonneg _)

/-- Source bytes lead from addresses that are not negative to such addresses. -/
theorem CodeUnit.nonnegative_of_passage {code : Code} {counter cell : Int} {value : UInt8}
    {passage : Passage} (nonnegative : 0 ≤ counter)
    (led : (CodeUnit.byte value).passage code counter cell = .ok passage)
    : 0 ≤ passage.counter := by
  have next : 0 ≤ counter + 1 := Int.le_add_one nonnegative
  simp only [CodeUnit.passage] at led
  split at led
  · cases led
    exact next
  · split at led
    · exact Passage.nonnegative_of_behind led
    · cases led
      exact next
  · split at led
    · cases led
      exact next
    · exact Passage.nonnegative_of_behind led
  · cases led
    exact next

-----------------------------------------------------------------------------------------
-- Units in machines
-----------------------------------------------------------------------------------------

namespace Machine

/-- The store of a machine. -/
def store (machine : Machine) : Store :=
  { tape := machine.tape, input := machine.input, output := machine.output }

/-- The machine with another store. -/
def withStore (machine : Machine) (store : Store) : Machine :=
  { machine with tape := store.tape, input := store.input, output := store.output }

/-- The machine with other metrics. -/
def withMetrics (machine : Machine) (metrics : Metrics) : Machine :=
  { machine with metrics }

/-- The machine behind a unit that has succeeded. -/
def pass (machine : Machine) (store : Store) (passage : Passage) : Machine :=
  {
    machine.withStore store with
      counter := passage.counter
      metrics := machine.metrics.count passage.executed passage.skipped passage.changes
  }

/-- The machine behind a unit that has failed. -/
def charge (machine : Machine) (unit : CodeUnit) : Machine :=
  machine.withMetrics (machine.metrics.count 1 0 unit.failedChanges)

/-- The store and the passage that a unit results in, or why it fails. -/
def effect (machine : Machine) (unit : CodeUnit) : Except Fault (Store × Passage) :=
  match unit.act machine.store, unit.passage machine.code machine.counter machine.tape.current with
  | .error fault, _ => .error fault
  | _, .error fault => .error fault
  | .ok store, .ok passage => .ok (store, passage)

/-- An action changes the store, or leaves the machine as it was. -/
theorem act_eq (machine : Machine) (action : Action)
    : machine.act action
      = match machine.store.act action with
        | .error fault => { machine, fault? := some fault }
        | .ok store => { machine := machine.withStore store } := by
  cases action with
  | move distance =>
      rw [act_move]
      simp only [Store.act, store]
      cases machine.tape.moved distance <;> rfl
  | add amount =>
      rw [act_add]
      simp only [Store.act, store]
      cases machine.tape.added amount <;> rfl
  | read => rfl
  | write => rfl

theorem effect_of_action (machine : Machine) {unit : CodeUnit} {action : Action}
    (does : unit.action? = some action)
    : machine.effect unit
      = match machine.store.act action with
        | .error fault => .error fault
        | .ok store => .ok (store, { counter := machine.counter + 1 }) := by
  simp only [effect, CodeUnit.act, does, CodeUnit.passage_of_action does]
  cases machine.store.act action <;> rfl

theorem effect_of_no_action (machine : Machine) {unit : CodeUnit}
    (rests : unit.action? = none)
    : machine.effect unit
      = match unit.passage machine.code machine.counter machine.tape.current with
        | .error fault => .error fault
        | .ok passage => .ok (machine.store, passage) := by
  simp only [effect, CodeUnit.act, rests]
  cases unit.passage machine.code machine.counter machine.tape.current <;> rfl

/-- Source bytes have their effect, by cases on the role of the command. -/
theorem performByte_eq (machine : Machine) (value : UInt8)
    : machine.performByte value
      = match machine.effect (.byte value) with
        | .error fault => { machine := machine.charge (.byte value), fault? := some fault }
        | .ok (store, passage) => { machine := machine.pass store passage } := by
  have role := (Command.ofByte value).role
  generalize command : Command.ofByte value = meaning at role
  cases role with
  | comment =>
      rw [effect_of_no_action machine (by simp [CodeUnit.action?, command, Command.action?])]
      simp only [performByte, CodeUnit.passage, command]
      rfl
  | beginLoop =>
      rw [effect_of_no_action machine (by simp [CodeUnit.action?, command, Command.action?])]
      simp only [performByte, CodeUnit.passage, command]
      by_cases zero : machine.tape.current = 0
      · simp only [zero, if_true, jumpInSource]
        cases machine.code.program.closingOf machine.counter <;> rfl
      · simp only [zero, if_false]
        rfl
  | endLoop =>
      rw [effect_of_no_action machine (by simp [CodeUnit.action?, command, Command.action?])]
      simp only [performByte, CodeUnit.passage, command]
      by_cases zero : machine.tape.current = 0
      · simp only [zero, if_true]
        rfl
      · simp only [zero, if_false, jumpInSource]
        cases machine.code.program.openingOf machine.counter <;> rfl
  | action action does =>
      have acts : machine.performByte value = machine.actInSource action := by
        unfold performByte
        rw [command]
        cases meaning <;> cases does <;> rfl
      rw [effect_of_action machine (by rw [CodeUnit.action?, command, does]), acts, actInSource,
        act_eq]
      have same : machine.countExecuted.store = machine.store := rfl
      rw [same]
      cases machine.store.act action <;> rfl

/-- Instructions have their effect, by cases on the operation. -/
theorem performInstruction_eq (machine : Machine) (value : Instruction)
    : machine.performInstruction value
      = match machine.effect (.instruction value) with
        | .error fault =>
            { machine := machine.charge (.instruction value), fault? := some fault }
        | .ok (store, passage) => { machine := machine.pass store passage } := by
  obtain ⟨opcode, operand⟩ := value
  cases does : (CodeUnit.instruction { opcode, operand }).action? with
  | some action =>
      have acts
          : machine.performInstruction { opcode, operand }
            = (machine.countExecuted.countChanges 1).actInCode action := by
        cases opcode <;> cases does <;> rfl
      have same : (machine.countExecuted.countChanges 1).store = machine.store := rfl
      rw [effect_of_action machine does, acts, actInCode, act_eq, same]
      cases machine.store.act action <;> rfl
  | none =>
      rw [effect_of_no_action machine does]
      by_cases zero : machine.tape.current = 0 <;> cases opcode <;> cases does <;>
        simp only [performInstruction, CodeUnit.passage, countExecuted, countChanges, zero,
          if_true, if_false] <;>
        rfl

/-- A unit has its effect, or fails and is counted. -/
theorem perform_eq (machine : Machine) (unit : CodeUnit)
    : machine.perform unit
      = match machine.effect unit with
        | .error fault => { machine := machine.charge unit, fault? := some fault }
        | .ok (store, passage) => { machine := machine.pass store passage } := by
  cases unit with
  | byte value => exact machine.performByte_eq value
  | instruction value => exact machine.performInstruction_eq value

end Machine

end Brainfuck
