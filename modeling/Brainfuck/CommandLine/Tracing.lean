import Brainfuck.CommandLine.Answer
import Brainfuck.Machine.Run

/-! The tool that traces a program: one line for every step, up to a limit. -/

namespace Brainfuck.CommandLine

/-- Steps that are traced when nobody asks for another number. -/
def defaultStepLimit : Int := 2000000

/-- The line that explains how to call the tool. -/
def traceUsage : String :=
  "Usage: python3 trace_execution.py <bf_file> [steps] [flavor]"

/-- The line of a step: its number, and what its notice announces. Source bytes are shown
as their characters.
-/
def stepLine (number : Nat) (notice : Notice) : String :=
  let operation :=
    match notice.unit with
    | .byte value => String.singleton (Text.byteChar value)
    | .instruction value => value.describe
  "Step " ++ toString number ++ ": pc=" ++ toString notice.counter ++ " op=" ++ operation
  ++ " ptr=" ++ toString notice.pointer ++ " cell=" ++ toString notice.cell

/-- The lines of the steps that were heard, numbered from one. -/
def stepLines (notices : Array Notice) : List String :=
  notices.toList.zipIdx.map fun (notice, index) => stepLine (index + 1) notice

/-- Traces a machine that reads zeros and whose writes are discarded. A limit below zero
admits no step, but is reported as it was given, if it can be written. Limits that are read
from words can.
-/
def traceMachine (limit : Int) (machine : Machine) : Answer :=
  let { state, heard, ending, .. } := machine.run Array.push limit.toNat #[]
  let lines := ("Loaded " ++ toString machine.length ++ " units") :: stepLines heard
  let finalLine := "Final PC: " ++ toString state.counter
  match ending with
  | .failed fault => { ending := .crash fault, standardOutput := lineBytes lines }
  | .returned =>
      let outcome := "Finished at step " ++ toString heard.size
      { ending := .exit 0, standardOutput := lineBytes (lines ++ [outcome, finalLine]) }
  | .refused =>
      let outcome := "Step limit " ++ toString limit ++ " reached"
      { ending := .exit 0, standardOutput := lineBytes (lines ++ [outcome, finalLine]) }

/-- The step limit among the words behind the file name. -/
def stepLimit? : List String → Except Fault Int
  | [] => .ok defaultStepLimit
  | word :: _ =>
      match Text.readInteger word with
      | .ok limit => .ok limit
      | .error cause => .error (.integerFault cause)

/-- The flavor among the words behind the file name. -/
def tracedFlavor? : List String → Except Fault Flavor
  | _ :: word :: _ => Flavor.ofName? word
  | _ => .ok .classic

/-- The step limit and the machine of a trace. The words are read before the file. -/
def prepareTrace? (surroundings : Surroundings) (file : String) (words : List String)
    : Except Fault (Int × Machine) := do
  let limit ← stepLimit? words
  let flavor ← tracedFlavor? words
  let program ← surroundings.open? file
  let configuration ← Configuration.forFlavor? flavor Tape.defaultSize
  let machine ← configuration.machine? program .absent .discarded
  pure (limit, machine)

/-- Traces a program. -/
def trace (surroundings : Surroundings) : List String → Answer
  | [] => { ending := .exit 1, standardOutput := lineBytes [traceUsage] }
  | file :: words =>
      match prepareTrace? surroundings file words with
      | .error fault => crashAtOnce fault
      | .ok (limit, machine) => traceMachine limit machine

end Brainfuck.CommandLine
