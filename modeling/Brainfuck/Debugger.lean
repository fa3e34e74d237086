import Brainfuck.Breakpoints
import Brainfuck.Configuration
import Brainfuck.Machine.Run

/-! A debugger: a machine that pauses at breakpoints and can be stepped.
Addresses are those of the machine, so they are source offsets under the interpreter and
instruction addresses under the virtual machine.
-/

namespace Brainfuck

/-- A machine under observation, once a program is loaded. -/
structure Debugger where
  configuration : Configuration := {}
  breakpoints : Breakpoints := {}
  machine? : Option Machine := none
  complete : Bool := false
deriving DecidableEq, Repr

namespace Debugger

/-- Replaces the machine by one that starts a program; breakpoints stay, the interruption
is forgotten, and nothing changes when the program is refused.
-/
def load (debugger : Debugger) (program : Program) (input : Input) (output : Output)
    : Except Fault Debugger :=
  match debugger.configuration.machine? program input output with
  | .error fault => .error fault
  | .ok machine =>
      .ok
        {
          debugger with
            machine? := some machine
            complete := false
            breakpoints := debugger.breakpoints.clearInterrupt
        }

/-- The machine that is loaded. -/
def loaded? (debugger : Debugger) : Except Fault Machine :=
  match debugger.machine? with
  | none => .error .nothingLoaded
  | some machine => .ok machine

/-- Steps until the machine has finished or a breakpoint interrupts. Every step is preceded
by a query, also the first.
-/
@[specialize] def pursue {α : Type} (hear : α → Notice → α)
    : Nat → α → Breakpoints → Machine → Run (Breakpoints × Machine) α
  | 0, heard, breakpoints, machine =>
      if machine.finished then { state := (breakpoints, machine), heard, allowance := 0 }
      else match breakpoints.query machine.counter with
        | (true, paused) => { state := (paused, machine), heard, allowance := 0 }
        | (false, passed) =>
            let { state := next, heard, allowance, ending } := machine.attempt hear 0 heard
            { state := (passed, next), heard, allowance, ending }
  | left + 1, heard, breakpoints, machine =>
      if machine.finished then
        { state := (breakpoints, machine), heard, allowance := left + 1 }
      else match breakpoints.query machine.counter with
        | (true, paused) => { state := (paused, machine), heard, allowance := left + 1 }
        | (false, passed) =>
            match machine.attempt hear (left + 1) heard with
            | { state := next, heard, ending := .returned, .. } =>
                pursue hear left heard passed next
            | { state := next, heard, allowance, ending } =>
                { state := (passed, next), heard, allowance, ending }

/-- Executes up to the next pause, to completion or to a failure. -/
@[specialize] def execute {α : Type} (hear : α → Notice → α) (allowance : Nat) (heard : α)
    (debugger : Debugger) : Run Debugger α :=
  match debugger with
  | { machine? := none, .. } =>
      { state := debugger, heard, allowance, ending := .failed .nothingLoaded }
  | { complete := true, .. } =>
      { state := debugger, heard, allowance, ending := .failed .alreadyCompleted }
  | { configuration, breakpoints, machine? := some machine, complete := false } =>
      let { state := (breakpoints, machine), heard, allowance, ending } :=
        pursue hear allowance heard breakpoints machine
      let complete := ending = .returned && machine.finished
      {
        state := { configuration, breakpoints, machine? := some machine, complete }
        heard
        allowance
        ending
      }

/-- Attempts one step, whatever the breakpoints say. -/
@[specialize] def step {α : Type} (hear : α → Notice → α) (allowance : Nat) (heard : α)
    (debugger : Debugger) : Run Debugger α :=
  match debugger with
  | { machine? := none, .. } =>
      { state := debugger, heard, allowance, ending := .failed .nothingLoaded }
  | { complete := true, .. } =>
      { state := debugger, heard, allowance, ending := .failed .alreadyCompleted }
  | { configuration, breakpoints, machine? := some machine, complete := false } =>
      let { state := machine, heard, allowance, ending } :=
        if machine.finished then { state := machine, heard, allowance }
        else machine.attempt hear allowance heard
      let complete := ending = .returned && machine.finished
      {
        state :=
          {
            configuration
            breakpoints := breakpoints.clearInterrupt
            machine? := some machine
            complete
          }
        heard
        allowance
        ending
      }

/-- Adds a breakpoint. -/
def addBreakpoint (debugger : Debugger) (breakpoint : Breakpoint) : Except Fault Debugger :=
  match debugger.breakpoints.add breakpoint with
  | .error fault => .error fault
  | .ok breakpoints => .ok { debugger with breakpoints }

/-- Takes the breakpoint at an address away. -/
def removeBreakpoint (debugger : Debugger) (address : Int)
    : Except Fault (Breakpoint × Debugger) :=
  match debugger.breakpoints.remove address with
  | .error fault => .error fault
  | .ok (breakpoint, breakpoints) => .ok (breakpoint, { debugger with breakpoints })

/-- Turns the breakpoint at an address on or off, if there is one. -/
def switchBreakpoint (debugger : Debugger) (address : Int) (enabled : Bool) : Debugger :=
  { debugger with breakpoints := debugger.breakpoints.switch address enabled }

end Debugger

end Brainfuck
