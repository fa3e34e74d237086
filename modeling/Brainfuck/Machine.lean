import Brainfuck.Bracket
import Brainfuck.Channel

/-! Machines: a tape and a program counter over source bytes or over instructions.
Every step announces itself by a notice before anything changes. A failing step leaves
behind a machine that only its metrics tell apart from the one before; its fault is the
cause of the failure.
-/

namespace Brainfuck

/-- What a machine executes: source bytes, searched for brackets at every jump, or the
instructions of the virtual machine.
-/
inductive Code where
  | source (program : Program)
  | instructions (list : Array Instruction)
deriving DecidableEq, Repr

/-- What stands at an address of the code. -/
inductive CodeUnit where
  | byte (value : UInt8)
  | instruction (value : Instruction)
deriving DecidableEq, Repr

/-- A byte shows as its character, an instruction as its text. -/
def CodeUnit.describe : CodeUnit → String
  | .byte value => Text.shownByte value
  | .instruction value => value.describe

namespace Code

/-- The source bytes; instructions come without any. -/
def program : Code → Program
  | .source program => program
  | .instructions _ => #[]

/-- Number of addresses. -/
def length : Code → Nat
  | .source program => program.size
  | .instructions list => list.size

/-- The offset that an address names among `length` units: a negative address counts from
the end.
-/
def offset (length : Nat) (address : Int) : Int :=
  if address < 0 then address + length else address

/-- Addresses are looked up as signed words of 64 bits. -/
def IsWord (address : Int) : Prop :=
  -0x8000000000000000 ≤ address ∧ address < 0x8000000000000000

instance (address : Int) : Decidable (IsWord address) :=
  inferInstanceAs (Decidable (_ ∧ _))

/-- Why there is no unit at an address. -/
def missingUnit (code : Code) (address : Int) : Fault :=
  if IsWord address then
    match code with
    | .source _ => .byteNotFound
    | .instructions _ => .instructionNotFound
  else .addressTooLarge

/-- The unit at an offset that is not negative. -/
def unitAtOffset? : Code → Nat → Option CodeUnit
  | .source program, offset => program[offset]?.map CodeUnit.byte
  | .instructions list, offset => list[offset]?.map CodeUnit.instruction

/-- The unit at an address; negative addresses count from the end. -/
def unitAt (code : Code) (address : Int) : Except Fault CodeUnit :=
  let offset := offset code.length address
  if offset < 0 then .error (code.missingUnit address)
  else match code.unitAtOffset? offset.toNat with
    | some unit => .ok unit
    | none => .error (code.missingUnit address)

end Code

/-- Counters of a machine. Comments are skipped, everything else is executed; the third
counts the changes of the program counter.
-/
structure Metrics where
  executed : Nat := 0
  skipped : Nat := 0
  counterChanges : Nat := 0
deriving DecidableEq, Repr

/-- The metrics by name, as reports of a run show them. -/
def Metrics.describe (metrics : Metrics) : String :=
  "ExecutionMetrics(instructions_executed=" ++ toString metrics.executed
  ++ ", instructions_skipped=" ++ toString metrics.skipped
  ++ ", program_counter_changes=" ++ toString metrics.counterChanges ++ ")"

/-- Code in execution. -/
structure Machine where
  code : Code
  counter : Int := 0
  tape : Tape
  input : Input := .absent
  output : Output := .discarded
  metrics : Metrics := {}
deriving DecidableEq, Repr

/-- What a step announces before it changes anything: where it is, what it is about to
execute, and the current cell.
-/
structure Notice where
  counter : Int
  unit : CodeUnit
  pointer : Nat
  cell : Int
deriving DecidableEq, Repr

/-- What an attempted step leaves behind, and the fault if it failed. -/
structure Attempt where
  machine : Machine
  fault? : Option Fault := none
deriving DecidableEq, Repr

/-- What commands and instructions do apart from jumps. -/
inductive Action where
  | move (distance : Int)
  | add (amount : Int)
  | read
  | write
deriving DecidableEq, Repr

namespace Machine

/-- Number of addresses of the code. -/
def length (machine : Machine) : Nat :=
  machine.code.length

/-- A machine has finished when its program counter is behind the code. -/
def finished (machine : Machine) : Bool :=
  machine.length ≤ machine.counter

/-- The notice of the next step, or the reason why there is none: the machine has finished,
or its program counter is too far in front of the code.
-/
def notice (machine : Machine) : Except Fault Notice :=
  if machine.finished then .error .alreadyCompleted
  else match machine.code.unitAt machine.counter with
    | .error fault => .error fault
    | .ok unit =>
        .ok
          {
            counter := machine.counter
            unit
            pointer := machine.tape.pointer
            cell := machine.tape.current
          }

/-- Changes tape, input and output by an action, or nothing when it fails. -/
def act (machine : Machine) : Action → Attempt
  | .move distance =>
      match machine.tape.target distance with
      | .error fault => { machine, fault? := some fault }
      | .ok pointer =>
          let { code, counter, tape, input, output, metrics } := machine
          let { policy, cells, .. } := tape
          let tape := { policy, cells, pointer }
          { machine := { code, counter, tape, input, output, metrics } }
  | .add amount =>
      match machine.tape.sum amount with
      | .error fault => { machine, fault? := some fault }
      | .ok value =>
          let { code, counter, tape, input, output, metrics } := machine
          { machine := { code, counter, tape := tape.put value, input, output, metrics } }
  | .read =>
      let { code, counter, tape, input, output, metrics } := machine
      let (byte, unread) := input.next
      {
        machine :=
          { code, counter, tape := tape.write byte.toNat, input := unread, output, metrics }
      }
  | .write =>
      let { code, counter, tape, input, output, metrics } := machine
      let value := tape.current
      { machine := { code, counter, tape, input, output := output.write value, metrics } }

/-- A move is the move of the tape. -/
theorem act_move (machine : Machine) (distance : Int)
    : machine.act (.move distance)
      = match machine.tape.moved distance with
        | .error fault => { machine, fault? := some fault }
        | .ok tape => { machine := { machine with tape } } := by
  simp only [act, Tape.moved]
  cases machine.tape.target distance <;> rfl

/-- An addition is the addition of the tape. -/
theorem act_add (machine : Machine) (amount : Int)
    : machine.act (.add amount)
      = match machine.tape.added amount with
        | .error fault => { machine, fault? := some fault }
        | .ok tape => { machine := { machine with tape } } := by
  simp only [act, Tape.added]
  cases machine.tape.sum amount <;> rfl

/-- Counts an executed command. -/
def countExecuted (machine : Machine) : Machine :=
  { machine with metrics.executed := machine.metrics.executed + 1 }

/-- Counts a skipped comment. -/
def countSkipped (machine : Machine) : Machine :=
  { machine with metrics.skipped := machine.metrics.skipped + 1 }

/-- Counts changes of the program counter. -/
def countChanges (machine : Machine) (changes : Nat) : Machine :=
  { machine with metrics.counterChanges := machine.metrics.counterChanges + changes }

/-- Sets the program counter. -/
def goTo (machine : Machine) (counter : Int) : Machine :=
  { machine with counter }

/-- Goes to the next unit. -/
def advance (machine : Machine) : Machine :=
  machine.goTo (machine.counter + 1)

/-- Executes an action of a source command; the change of the program counter is counted
when the action succeeds.
-/
def actInSource (machine : Machine) (action : Action) : Attempt :=
  match machine.countExecuted.act action with
  | { machine, fault? := none } => { machine := (machine.countChanges 1).advance }
  | failed => failed

/-- Goes behind the partner of a bracket, if it has one. That changes the program counter
twice: to the partner, and on to the byte behind it.
-/
def jumpInSource (machine : Machine) : Except Fault Nat → Attempt
  | .error fault => { machine := machine.countExecuted, fault? := some fault }
  | .ok partner =>
      { machine := (machine.countExecuted.countChanges 2).goTo (partner + 1) }

/-- Executes a source byte. -/
def performByte (machine : Machine) (byte : UInt8) : Attempt :=
  match Command.ofByte byte with
  | .comment => { machine := (machine.countSkipped.countChanges 1).advance }
  | .moveRight => machine.actInSource (.move 1)
  | .moveLeft => machine.actInSource (.move (-1))
  | .increment => machine.actInSource (.add 1)
  | .decrement => machine.actInSource (.add (-1))
  | .output => machine.actInSource .write
  | .input => machine.actInSource .read
  | .beginLoop =>
      if machine.tape.current = 0 then
        machine.jumpInSource (machine.code.program.closingOf machine.counter)
      else { machine := (machine.countExecuted.countChanges 1).advance }
  | .endLoop =>
      if machine.tape.current = 0 then
        { machine := (machine.countExecuted.countChanges 1).advance }
      else machine.jumpInSource (machine.code.program.openingOf machine.counter)

/-- Executes an action of an instruction, which is counted already. -/
def actInCode (machine : Machine) (action : Action) : Attempt :=
  match machine.act action with
  | { machine, fault? := none } => { machine := machine.advance }
  | failed => failed

/-- Executes an instruction. It is counted before it can fail, and a jump that is taken
goes straight to its operand.
-/
def performInstruction (machine : Machine) (instruction : Instruction) : Attempt :=
  let counted := machine.countExecuted.countChanges 1
  match instruction.opcode with
  | .add => counted.actInCode (.add instruction.operand)
  | .subtract => counted.actInCode (.add (-instruction.operand))
  | .moveRight => counted.actInCode (.move instruction.operand)
  | .moveLeft => counted.actInCode (.move (-instruction.operand))
  | .jumpIfZero =>
      if counted.tape.current = 0 then { machine := counted.goTo instruction.operand }
      else { machine := counted.advance }
  | .jumpIfNonzero =>
      if counted.tape.current = 0 then { machine := counted.advance }
      else { machine := counted.goTo instruction.operand }
  | .read => counted.actInCode .read
  | .write => counted.actInCode .write
  | .foreign _ => { machine := counted, fault? := some (.unknownInstruction instruction) }

/-- Executes the unit that a notice has announced. -/
def perform (machine : Machine) : CodeUnit → Attempt
  | .byte value => machine.performByte value
  | .instruction value => machine.performInstruction value

/-- Attempts one step. -/
def step (machine : Machine) : Attempt :=
  match machine.notice with
  | .error fault => { machine, fault? := some fault }
  | .ok notice => machine.perform notice.unit

end Machine

end Brainfuck
