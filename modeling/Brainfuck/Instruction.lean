import Brainfuck.Command

/-! Instructions of the virtual machine.
A repeated command is one instruction that carries the count, and a bracket carries the
address of its partner, so no jump has to search.
-/

namespace Brainfuck

/-- Operation of an instruction. A source command is an operation that the virtual machine
does not know.
-/
inductive Opcode where
  | add
  | subtract
  | moveRight
  | moveLeft
  | jumpIfZero
  | jumpIfNonzero
  | read
  | write
  | foreign (command : Command)
deriving DecidableEq, Repr

/-- Mnemonic of an operation; a source command has only its number. -/
def Opcode.mnemonic : Opcode → String
  | .add => "ADD"
  | .subtract => "SUB"
  | .moveRight => "MADD"
  | .moveLeft => "MSUB"
  | .jumpIfZero => "JMZ"
  | .jumpIfNonzero => "JMN"
  | .read => "READ"
  | .write => "WRITE"
  | .foreign command => toString command.number

/-- The operation that a mnemonic, or the name of a source command, stands for. -/
def Opcode.ofName? (name : String) : Option Opcode :=
  let known : List Opcode :=
    [.add, .subtract, .moveRight, .moveLeft, .jumpIfZero, .jumpIfNonzero, .read, .write]
  (known.find? fun opcode => opcode.mnemonic == name)
    <|> (Command.ofName? name).map Opcode.foreign

/-- Operand of an instruction that uses none, and of a jump whose partner is unknown. -/
def unresolved : Int := -1

/-- An operation with a count or the address of a jump. -/
structure Instruction where
  opcode : Opcode
  operand : Int := unresolved
deriving DecidableEq, Repr

/-- Text of an instruction: jumps show their target, counted operations their count. -/
def Instruction.describe (instruction : Instruction) : String :=
  let mnemonic := instruction.opcode.mnemonic
  match instruction.opcode with
  | .jumpIfZero | .jumpIfNonzero =>
      mnemonic ++ " (target: " ++ toString instruction.operand ++ ")"
  | .read | .write => mnemonic
  | _ => mnemonic ++ " x" ++ toString instruction.operand

end Brainfuck
