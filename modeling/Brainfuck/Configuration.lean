import Brainfuck.Assembly
import Brainfuck.Machine

/-! Configurations of machines, and the machines built from them.
A flavor is a configuration with a name; the options of the tools adjust it.
-/

namespace Brainfuck

/-- How a program is executed: byte by byte, or compiled to instructions. -/
inductive Engine where
  | interpreter
  | virtualMachine
deriving DecidableEq, Repr

/-- Name of an engine. -/
def Engine.name : Engine → String
  | .interpreter => "interpreter"
  | .virtualMachine => "vm"

/-- The engine of a name. -/
def Engine.ofName? (name : String) : Except Fault Engine :=
  if name = "interpreter" then .ok .interpreter
  else if name = "vm" then .ok .virtualMachine
  else .error (.notAMember name "Engine")

/-- The cell policy of a name. -/
def CellPolicy.ofName? (name : String) : Except Fault CellPolicy :=
  if name = "wrapping" then .ok .wrapping
  else if name = "checked" then .ok .checked
  else .error (.notAMember name "CellPolicy")

/-- Named configurations. -/
inductive Flavor where
  /-- Interpreted, with cells that wrap. -/
  | classic
  /-- Interpreted, with cells that are checked. -/
  | signedByte
  /-- Compiled with folded runs, with cells that wrap. -/
  | instant
deriving DecidableEq, Repr

/-- Name of a flavor. -/
def Flavor.name : Flavor → String
  | .classic => "classic"
  | .signedByte => "signed-byte"
  | .instant => "instant"

/-- All flavors, in the order in which they are offered. -/
def Flavor.all : List Flavor :=
  [.classic, .signedByte, .instant]

/-- The flavor of a name. -/
def Flavor.ofName? (name : String) : Except Fault Flavor :=
  match Flavor.all.find? fun flavor => flavor.name = name with
  | some flavor => .ok flavor
  | none => .error (.notAMember name "Flavor")

/-- Everything that decides how a program is executed. -/
structure Configuration where
  engine : Engine := .interpreter
  policy : CellPolicy := .wrapping
  tapeSize : Nat := Tape.defaultSize
  level : Nat := 0
  tapeSize_pos : 0 < tapeSize := by decide
deriving DecidableEq, Repr

namespace Configuration

/-- A configuration with any numbers that are a tape size and an optimization level; the
tape size is looked at first.
-/
def make? (engine : Engine) (policy : CellPolicy) (tapeSize level : Int)
    : Except Fault Configuration :=
  if positive : 0 < tapeSize then
    match optimizationLevel? level with
    | .error fault => .error fault
    | .ok level =>
        .ok
          {
            engine
            policy
            tapeSize := tapeSize.toNat
            level
            tapeSize_pos := Int.pos_iff_toNat_pos.mp positive
          }
  else .error (.tapeSizeNotPositive tapeSize)

/-- The configuration that a flavor names, with a tape of the given size. -/
def forFlavor? (flavor : Flavor) (tapeSize : Int) : Except Fault Configuration :=
  match flavor with
  | .classic => make? .interpreter .wrapping tapeSize 0
  | .signedByte => make? .interpreter .checked tapeSize 0
  | .instant => make? .virtualMachine .wrapping tapeSize 1

/-- A bare word is no flavor, even if it is the name of one. -/
def forBareWord? (word : String) : Except Fault Configuration :=
  .error (.unknownFlavor word)

/-- A flavor with a tape of the given size; an optimization level makes the program
compiled at that level, and keeps the cell policy.
-/
def ofOptions? (flavor : Flavor) (tapeSize : Int) (level : Option Int)
    : Except Fault Configuration :=
  match forFlavor? flavor tapeSize, level with
  | .error fault, _ => .error fault
  | .ok configuration, none => .ok configuration
  | .ok configuration, some level =>
      make? .virtualMachine configuration.policy configuration.tapeSize level

/-- The code that a program is executed as. -/
def code? (configuration : Configuration) (program : Program) : Except Fault Code :=
  match configuration.engine with
  | .interpreter => .ok (.source program)
  | .virtualMachine =>
      match program.compile configuration.level with
      | .error fault => .error fault
      | .ok list => .ok (.instructions list)

/-- A machine that is ready to execute a program from its start, on a blank tape. -/
def machine? (configuration : Configuration) (program : Program) (input : Input)
    (output : Output) : Except Fault Machine :=
  match configuration.code? program with
  | .error fault => .error fault
  | .ok code =>
      .ok
        {
          code
          tape := .blank configuration.tapeSize configuration.policy
          input
          output
        }

end Configuration

end Brainfuck
