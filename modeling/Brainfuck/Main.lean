import Brainfuck.CommandLine.Running
import Brainfuck.CommandLine.Tracing

/-! The command line: `run`, `debug` and `trace`, each with the arguments of its tool.
A debugger converses line by line with whoever types, which is the same conversation as the
one over all lines at once.
-/

namespace Brainfuck.Main

open CommandLine

/-- Writes bytes to standard output at once. -/
def display (bytes : Array UInt8) : IO Unit := do
  let standardOutput ← IO.getStdout
  standardOutput.write ⟨bytes⟩
  standardOutput.flush

/-- Writes bytes to standard error. -/
def complain (bytes : Array UInt8) : IO Unit := do
  (← IO.getStderr).write ⟨bytes⟩

/-- Reads a file by name. -/
def contentsOf (name : String) : IO (Except Fault (Array UInt8)) := do
  try
    pure (.ok (← IO.FS.readBinFile name).data)
  catch
    | .noFileOrDirectory .. => pure (.error (.fileNotFound name))
    | _ => pure (.error (.isDirectory name))

/-- Reads all that is left of standard input. -/
partial def readAll (read : ByteArray) : IO (Array UInt8) := do
  let more ← (← IO.getStdin).read 65536
  if more.isEmpty then pure read.data else readAll (read ++ more)

/-- Reads the named files, and standard input if it is asked for. -/
def surroundingsOf (names : List String) (readsInput : Bool) : IO Surroundings := do
  let contents ← names.mapM fun name => do pure (name, ← contentsOf name)
  let standardInput ← if readsInput then readAll .empty else pure #[]
  pure
    {
      contentsOf := fun name =>
        ((contents.find? fun entry => entry.1 = name).map (·.2)).getD
          (.error (.fileNotFound name))
      standardInput
    }

/-- Asks with ever larger allowances until there is an answer. -/
partial def insist {β : Type} (answer? : Nat → Option β) (allowance : Nat)
    : IO β :=
  match answer? allowance with
  | some answer => pure answer
  | none => insist answer? (4 * allowance)

/-- The allowance of the first attempt. -/
def firstAllowance : Nat := 1000000

/-- Writes an answer and gives its status. -/
def report (answer : Answer) : IO UInt32 := do
  display answer.standardOutput
  complain answer.standardError
  match answer.ending with
  | .exit status => pure status.toUInt32
  | .crash fault => do
      complain (lineBytes [fault.message])
      pure 1

/-- Explains why a tool does not start. -/
def reportStop : Stop → IO UInt32
  | .help => pure 0
  | .misuse fault => do
      complain (lineBytes ["error: " ++ fault.message])
      pure 2

/-- Shows what a conversation has said since the last time, and its log. -/
def flush (isVerbose : Bool) (conversation : Debugger.Conversation Unit)
    : IO (Debugger.Conversation Unit) := do
  display (textBytes conversation.text)
  if isVerbose then
    complain (lineBytes (conversation.log.toList.map Log.debugging))
  pure { conversation with text := "", log := #[] }

/-- Converses with whoever types, up to the end of standard input or of the conversation. -/
partial def converse (isVerbose : Bool) (conversation : Debugger.Conversation Unit)
    : IO (Debugger.Conversation Unit) := do
  let (turn, conversation) := Debugger.ask true conversation
  let conversation ← flush isVerbose conversation
  let line ← if turn = .goesOn then (← IO.getStdin).getLine else pure ""
  if line.isEmpty then flush isVerbose (Debugger.farewell true conversation)
  else
    let attempt := fun allowance =>
      let reply :=
        Debugger.takeLine (fun _ _ => ()) { conversation with allowance } line
      if reply.2.ending = .refused then none else some reply
    let (turn, conversation) ← insist attempt firstAllowance
    if turn = .goesOn then converse isVerbose conversation
    else flush isVerbose (Debugger.farewell true conversation)

/-- Debugs the program that the settings name. -/
def debugProgram (settings : Settings) : IO UInt32 := do
  let names := settings.file :: settings.inputFile?.toList
  match openFiles (← surroundingsOf names false) settings with
  | .error fault => report (crashAtOnce fault)
  | .ok (program, bytes?) => do
      let opening := Opening.ofSettings settings program (debuggedInput bytes?)
      if settings.isVerbose then complain (lineBytes opening.log)
      match opening.debugger? with
      | .error fault => report (Session.answer { fault? := some fault } false)
      | .ok debugger => do
          let conversation ← converse settings.isVerbose (.opened 0 () debugger)
          let fault? :=
            match conversation.ending with
            | .failed fault => some fault
            | _ => none
          report (Session.answer { fault? } false)

/-- Debugs under settings, if there are any. -/
def debugUnder : Except Stop Settings → IO UInt32
  | .error stop => reportStop stop
  | .ok settings => debugProgram settings

/-- The tool that debugs. -/
def debug (arguments : List String) : IO UInt32 :=
  debugUnder (Settings.ofArguments? Settings.debugOptions arguments)

/-- The tool that runs. -/
def run (arguments : List String) : IO UInt32 := do
  match Settings.ofArguments? Settings.runOptions arguments with
  | .error stop => reportStop stop
  | .ok settings =>
      if settings.debugs then debugUnder settings.handedOver?
      else
        let names := settings.file :: settings.inputFile?.toList
        let surroundings ← surroundingsOf names settings.inputFile?.isNone
        report (← insist (runUnder? · surroundings settings) firstAllowance)

/-- The tool that traces. -/
def trace (arguments : List String) : IO UInt32 := do
  report (CommandLine.trace (← surroundingsOf arguments.head?.toList false) arguments)

/-- Runs the tool that the first argument names. -/
def dispatch : List String → IO UInt32
  | "run" :: arguments => run arguments
  | "debug" :: arguments => debug arguments
  | "trace" :: arguments => trace arguments
  | _ => do
      complain (lineBytes ["usage: brainfuck (run | debug | trace) arguments"])
      pure 2

end Brainfuck.Main

/-- Entry point of the program. -/
def main (arguments : List String) : IO UInt32 :=
  Brainfuck.Main.dispatch arguments
