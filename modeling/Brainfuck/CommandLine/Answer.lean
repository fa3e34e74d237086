import Brainfuck.CommandLine.Settings

/-! What a tool finds when it starts, and what it leaves when it ends. -/

namespace Brainfuck.CommandLine

/-- The surroundings of a tool: the contents of files by name, and the standard input. -/
structure Surroundings where
  contentsOf : String → Except Fault (Array UInt8)
  standardInput : Array UInt8

/-- The contents of a file; a name with a null character is not even looked up. -/
def Surroundings.open? (surroundings : Surroundings) (name : String)
    : Except Fault (Array UInt8) :=
  if name.toList.contains '\x00' then .error .nullInName else surroundings.contentsOf name

/-- How a tool ends: with a status, or by a fault that it does not handle. -/
inductive ToolEnd where
  | exit (status : Nat)
  | crash (fault : Fault)
deriving DecidableEq, Repr

/-- The end of a tool, with the bytes that it has written. -/
structure Answer where
  ending : ToolEnd
  standardOutput : Array UInt8 := #[]
  standardError : Array UInt8 := #[]
deriving DecidableEq, Repr

/-- The bytes of a text. -/
def textBytes (text : String) : Array UInt8 :=
  text.toUTF8.data

/-- The bytes of lines, each with its line feed. -/
def lineBytes (lines : List String) : Array UInt8 :=
  textBytes (String.join (lines.map (· ++ "\n")))

/-- What a tool answers: it runs, or its command line stops it. -/
abbrev Outcome := Except Stop Answer

/-- The program and the input that a tool opens, in this order. -/
def openFiles (surroundings : Surroundings) (settings : Settings)
    : Except Fault (Program × Option (Array UInt8)) :=
  match surroundings.open? settings.file with
  | .error fault => .error fault
  | .ok program =>
      match settings.inputFile? with
      | none => .ok (program, none)
      | some name =>
          match surroundings.open? name with
          | .error fault => .error fault
          | .ok bytes => .ok (program, some bytes)

/-- An answer that ends before anything is written. -/
def crashAtOnce (fault : Fault) : Answer :=
  { ending := .crash fault }

end Brainfuck.CommandLine
