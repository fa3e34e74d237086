import Brainfuck.Machine

/-! Texts of a machine: its one-line description and the snapshot of its state. -/

namespace Brainfuck

/-- Program counter, data pointer and memory at one moment. -/
structure Snapshot where
  counter : Int
  pointer : Int
  memory : Array Int
deriving DecidableEq, Repr

/-- The memory up to its last cell that is not zero. -/
def Snapshot.usedMemory (snapshot : Snapshot) : List Int :=
  (snapshot.memory.toList.reverse.dropWhile (· = 0)).reverse

/-- Text of a snapshot; only the part of the memory that is in use is shown. -/
def Snapshot.describe (snapshot : Snapshot) : String :=
  let cells := snapshot.usedMemory.map toString
  "MachineState(program_counter=" ++ toString snapshot.counter ++ ", data_pointer="
  ++ toString snapshot.pointer ++ ", memory=[" ++ String.intercalate ", " cells ++ "])"

namespace Machine

/-- The state of a machine at this moment. -/
def snapshot (machine : Machine) : Snapshot :=
  {
    counter := machine.counter
    pointer := machine.tape.pointer
    memory := machine.tape.cells
  }

/-- Text of a machine: what executes the code, its length, the program counter and the
tape.
-/
def describe (machine : Machine) : String :=
  let executor :=
    match machine.code with
    | .source _ => "Interpreter"
    | .instructions _ => "VirtualMachine"
  executor ++ "(length=" ++ toString machine.length ++ ", pc=" ++ toString machine.counter
  ++ ", tape=" ++ machine.tape.describe ++ ")"

end Machine

end Brainfuck
