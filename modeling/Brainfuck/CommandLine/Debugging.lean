import Brainfuck.CommandLine.Answer
import Brainfuck.CommandLine.Log
import Brainfuck.Debugger.Console

/-! The tool that debugs a program: a console conversation over the standard input. -/

namespace Brainfuck.CommandLine

/-- The lines of a text given by its bytes, whatever ends them. -/
def linesOf (bytes : Array UInt8) : List String :=
  let text := (String.fromUTF8? ⟨bytes⟩).getD ""
  Text.lines (String.ofList (Text.unifyLineEnds text.toList))

/-- Adds breakpoints in order, up to the first that is refused. -/
def addBreakpoints (debugger : Debugger) : List (Given Int) → Except Fault Debugger
  | [] => .ok debugger
  | .nothing :: _ => .error .breakpointMissing
  | .value address :: rest =>
      match debugger.addBreakpoint { address } with
      | .error fault => .error fault
      | .ok added => addBreakpoints added rest

/-- A debugger with the configuration and the breakpoints that the settings ask for. -/
def prepareDebugger? (settings : Settings) : Except Fault Debugger :=
  match settings.configuration? with
  | .error fault => .error fault
  | .ok configuration => addBreakpoints { configuration } settings.breakpoints

/-- A debugger that has loaded a program. -/
structure Opening where
  log : List String
  debugger? : Except Fault Debugger

/-- Sets a debugger up and loads a program; the log ends where a fault ends the loading. -/
def Opening.ofSettings (settings : Settings) (program : Program) (input : Input)
    : Opening :=
  match prepareDebugger? settings with
  | .error fault => { log := [], debugger? := .error fault }
  | .ok debugger =>
      let creating := Log.creating debugger.configuration
      match debugger.load program input .empty with
      | .error fault => { log := [creating], debugger? := .error fault }
      | .ok debugger =>
          let loaded :=
            match debugger.machine? with
            | none => []
            | some machine =>
                Log.created debugger.configuration program machine ++ [Log.loaded machine]
          { log := creating :: loaded, debugger? := .ok debugger }

/-- What a conversation with a debugger has come to: the text shown, the log, and the fault
that ended it.
-/
structure Session where
  text : String := ""
  log : List String := []
  fault? : Option Fault := none

/-- Opens a debugger and converses over lines; there is no session when the machine needs
more steps than the allowance.
-/
def session? (allowance : Nat) (settings : Settings) (program : Program) (input : Input)
    (lines : List String) : Option Session :=
  let opening := Opening.ofSettings settings program input
  match opening.debugger? with
  | .error fault => some { log := opening.log, fault? := some fault }
  | .ok debugger =>
      let conversation := debugger.converse (fun _ _ => ()) true allowance () lines
      let text := conversation.text
      let log := opening.log ++ conversation.log.toList.map Log.debugging
      match conversation.ending with
      | .refused => none
      | .returned => some { text, log }
      | .failed fault => some { text, log, fault? := some fault }

/-- The answer of a session: a fault of the program is shown behind the text. -/
def Session.answer (session : Session) (isVerbose : Bool) : Answer :=
  let standardError := lineBytes (if isVerbose then session.log else [])
  match session.fault? with
  | none =>
      { ending := .exit 0, standardOutput := textBytes session.text, standardError }
  | some fault =>
      if fault.kind.isReported then
        let report := Debugger.styled .red ("Error: " ++ fault.message) ++ "\n"
        {
          ending := .exit 1
          standardOutput := textBytes (session.text ++ report)
          standardError
        }
      else
        {
          ending := .crash fault
          standardOutput := textBytes session.text
          standardError
        }

/-- The input of a debugged program; without an input file it reads zeros. -/
def debuggedInput : Option (Array UInt8) → Input
  | some bytes => .stream bytes.toList
  | none => .absent

/-- Debugs the program that the settings name. -/
def debugUnder? (allowance : Nat) (surroundings : Surroundings) (settings : Settings)
    : Option Answer :=
  match openFiles surroundings settings with
  | .error fault => some (crashAtOnce fault)
  | .ok (program, bytes?) =>
      let lines := linesOf surroundings.standardInput
      (session? allowance settings program (debuggedInput bytes?) lines).map fun session =>
        session.answer settings.isVerbose

/-- Debugs a program, if its command line gives settings. -/
def debug? (allowance : Nat) (surroundings : Surroundings) (arguments : List String)
    : Option Outcome :=
  match Settings.ofArguments? Settings.debugOptions arguments with
  | .error stop => some (.error stop)
  | .ok settings => (debugUnder? allowance surroundings settings).map .ok

end Brainfuck.CommandLine
