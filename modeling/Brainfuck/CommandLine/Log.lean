import Brainfuck.Configuration
import Brainfuck.Machine.Snapshot

/-! The log that verbose tools keep: what is created, compiled, loaded and finished. -/

namespace Brainfuck.CommandLine.Log

/-- A line of the log: the part that reports, and what it reports. -/
def line (part report : String) : String :=
  "DEBUG " ++ part ++ ": " ++ report

/-- A member of a closed list, with the list, its place in it and its name. -/
def member (list place name : String) : String :=
  "<" ++ list ++ "." ++ place ++ ": " ++ Text.quoted name ++ ">"

/-- Text of an engine. -/
def engineText (engine : Engine) : String :=
  let place :=
    match engine with
    | .interpreter => "INTERPRETER"
    | .virtualMachine => "VM"
  member "Engine" place engine.name

/-- Text of a cell policy. -/
def policyText (policy : CellPolicy) : String :=
  let place :=
    match policy with
    | .wrapping => "WRAPPING"
    | .checked => "CHECKED"
  member "CellPolicy" place policy.name

/-- Text of a configuration. -/
def configurationText (configuration : Configuration) : String :=
  "MachineConfig(engine=" ++ engineText configuration.engine
  ++ ", cell_policy=" ++ policyText configuration.policy
  ++ ", tape_size=" ++ toString configuration.tapeSize
  ++ ", optimization_level=" ++ toString configuration.level ++ ")"

/-- A machine is about to be created. -/
def creating (configuration : Configuration) : String :=
  line "bf_machine"
    ("Creating " ++ configuration.engine.name ++ " machine with "
    ++ configurationText configuration)

/-- A machine has been created, after its program was compiled if it is compiled at all. -/
def created (configuration : Configuration) (program : Program) (machine : Machine)
    : List String :=
  match machine.code with
  | .source program =>
      [
        line "bf_interpreter"
          ("Interpreter loaded " ++ toString program.size ++ " program bytes, "
          ++ machine.tape.describe)
      ]
  | .instructions list =>
      [
        line "bf_compiler"
          ("Compiled " ++ toString program.size ++ " bytes into " ++ toString list.size
          ++ " instructions (optimization level " ++ toString configuration.level ++ ")"),
        line "bf_vm"
          ("VM loaded " ++ toString list.size ++ " instructions, "
          ++ machine.tape.describe)
      ]

/-- A run has finished. -/
def finished (machine : Machine) : String :=
  line "bf_runner"
    ("Finished " ++ machine.describe ++ " with " ++ machine.metrics.describe)

/-- A debugger has loaded a machine. -/
def loaded (machine : Machine) : String :=
  line "debugger" ("Loaded program into " ++ machine.describe)

/-- What an execution under a debugger reports. -/
def debugging (report : String) : String :=
  line "debugger" report

end Brainfuck.CommandLine.Log
