import Brainfuck.Command

/-! Runs of equal bytes in a program.
A program is cut either into single bytes or into its maximal runs; both keep the offset
of every piece.
-/

namespace Brainfuck

/-- A byte that stands `count` times from an offset on. -/
structure SourceRun where
  offset : Int
  byte : UInt8
  count : Int
deriving DecidableEq, Repr

/-- Every byte of a program as a run of its own. -/
def Program.singleUnits (program : Program) : List SourceRun :=
  program.toList.zipIdx.map fun (byte, offset) => { offset, byte, count := 1 }

/-- Puts a byte in front of runs: it joins the first run when it is the same byte. -/
def SourceRun.prepend (unit : UInt8 × Nat) : List SourceRun → List SourceRun
  | [] => [{ offset := unit.2, byte := unit.1, count := 1 }]
  | run :: later =>
      if run.byte = unit.1 then
        { run with offset := unit.2, count := run.count + 1 } :: later
      else { offset := unit.2, byte := unit.1, count := 1 } :: run :: later

/-- The maximal runs of equal bytes of a program. -/
def Program.splitRuns (program : Program) : List SourceRun :=
  program.toList.zipIdx.foldr SourceRun.prepend []

end Brainfuck
