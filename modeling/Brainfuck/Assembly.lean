import Brainfuck.Fault
import Brainfuck.SourceRun

/-! Assembly of instructions from the runs of a program.
Each `[` is emitted as a jump without target and waits for its `]`, which then gives both
jumps the address of the other. For a bracket without a partner, assembly tells the cause.
-/

namespace Brainfuck

/-- Instructions emitted so far, and the address and source offset of every `[` that waits
for its `]`, the innermost first.
-/
structure Assembly where
  instructions : Array Instruction := #[]
  pending : List (Nat × Int) := []
deriving DecidableEq, Repr

namespace Assembly

/-- Emits an instruction. -/
def emit (assembly : Assembly) (instruction : Instruction) : Assembly :=
  { assembly with instructions := assembly.instructions.push instruction }

/-- Emits an instruction several times. -/
def emitTimes (assembly : Assembly) (instruction : Instruction) : Nat → Assembly
  | 0 => assembly
  | times + 1 => (assembly.emit instruction).emitTimes instruction times

/-- Emits the jump of a `[`, whose target is found later. -/
def beginLoop (assembly : Assembly) (offset : Int) : Assembly :=
  let { instructions, pending } := assembly
  {
    pending := (instructions.size, offset) :: pending
    instructions := instructions.push { opcode := .jumpIfZero }
  }

/-- Emits the jumps of adjacent `[`. -/
def beginLoops (assembly : Assembly) (offset : Int) : Nat → Assembly
  | 0 => assembly
  | times + 1 => (assembly.beginLoop offset).beginLoops (offset + 1) times

/-- Emits the jump of a `]` and points it and the jump of the innermost waiting `[` at each
other.
-/
def endLoop (assembly : Assembly) (offset : Int) : Except Fault Assembly :=
  match assembly with
  | { pending := [], .. } => .error (.unmatchedClosing offset)
  | { instructions, pending := (opening, _) :: outer } =>
      let address := instructions.size
      let extended := instructions.push { opcode := .jumpIfNonzero, operand := opening }
      .ok
        {
          instructions :=
            extended.setIfInBounds opening { opcode := .jumpIfZero, operand := address }
          pending := outer
        }

/-- Emits the jumps of adjacent `]`. -/
def endLoops (assembly : Assembly) (offset : Int) : Nat → Except Fault Assembly
  | 0 => .ok assembly
  | times + 1 =>
      match assembly.endLoop offset with
      | .error fault => .error fault
      | .ok closed => closed.endLoops (offset + 1) times

/-- Emits a run. Moves and additions carry the count of their run; the other commands are
emitted once for each byte, and comments not at all.
-/
def extend (assembly : Assembly) (run : SourceRun) : Except Fault Assembly :=
  match Command.ofByte run.byte with
  | .comment => .ok assembly
  | .moveRight => .ok (assembly.emit { opcode := .moveRight, operand := run.count })
  | .moveLeft => .ok (assembly.emit { opcode := .moveLeft, operand := run.count })
  | .increment => .ok (assembly.emit { opcode := .add, operand := run.count })
  | .decrement => .ok (assembly.emit { opcode := .subtract, operand := run.count })
  | .output => .ok (assembly.emitTimes { opcode := .write } run.count.toNat)
  | .input => .ok (assembly.emitTimes { opcode := .read } run.count.toNat)
  | .beginLoop => .ok (assembly.beginLoops run.offset run.count.toNat)
  | .endLoop => assembly.endLoops run.offset run.count.toNat

/-- Emits runs in order, up to the first that fails. -/
def extendAll (assembly : Assembly) : List SourceRun → Except Fault Assembly
  | [] => .ok assembly
  | run :: later =>
      match assembly.extend run with
      | .error fault => .error fault
      | .ok extended => extended.extendAll later

/-- The finished instructions, unless a `[` still waits; then the innermost is blamed. -/
def finish : Assembly → Except Fault (Array Instruction)
  | { instructions, pending := [] } => .ok instructions
  | { pending := (_, offset) :: _, .. } => .error (.unmatchedOpening offset)

end Assembly

/-- The instructions of a program given by its runs. -/
def assemble (runs : List SourceRun) : Except Fault (Array Instruction) :=
  match ({} : Assembly).extendAll runs with
  | .error fault => .error fault
  | .ok assembly => assembly.finish

/-- An optimization level is any number that is not negative. -/
def optimizationLevel? (level : Int) : Except Fault Nat :=
  if level < 0 then .error (.negativeLevel level) else .ok level.toNat

/-- The instructions of a program. Level 0 emits one instruction for each command, every
other level one for each maximal run of moves or additions.
-/
def Program.compile (program : Program) (level : Nat) : Except Fault (Array Instruction) :=
  assemble (if level = 0 then program.singleUnits else program.splitRuns)

end Brainfuck
