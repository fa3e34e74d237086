/-! Programs and their commands.
A program is a string of bytes; eight of them are commands and all others are comments.
-/

namespace Brainfuck

/-- What one byte of a program asks for. -/
inductive Command where
  | comment
  | moveRight
  | moveLeft
  | increment
  | decrement
  | output
  | input
  | beginLoop
  | endLoop
deriving DecidableEq, Repr, Inhabited

/-- Each command has a number, in the order in which commands are listed. -/
def Command.number : Command → Nat
  | .comment => 0
  | .moveRight => 1
  | .moveLeft => 2
  | .increment => 3
  | .decrement => 4
  | .output => 5
  | .input => 6
  | .beginLoop => 7
  | .endLoop => 8

/-- Name under which a command is listed. -/
def Command.name : Command → String
  | .comment => "NOP"
  | .moveRight => "INCREMENT_POINTER"
  | .moveLeft => "DECREMENT_POINTER"
  | .increment => "INCREMENT_VALUE"
  | .decrement => "DECREMENT_VALUE"
  | .output => "OUTPUT_VALUE"
  | .input => "INPUT_VALUE"
  | .beginLoop => "BEGIN_LOOP"
  | .endLoop => "END_LOOP"

/-- The command that a listed name stands for. -/
def Command.ofName? (name : String) : Option Command :=
  [.comment, .moveRight, .moveLeft, .increment, .decrement, .output, .input, .beginLoop,
    .endLoop].find? fun command : Command => command.name == name

/-- The byte `[`. -/
def openBracket : UInt8 := 0x5b

/-- The byte `]`. -/
def closeBracket : UInt8 := 0x5d

/-- The command that a byte stands for; a byte outside the eight is a comment. -/
def Command.ofByte (byte : UInt8) : Command :=
  if byte = 0x2b then .increment
  else if byte = 0x2d then .decrement
  else if byte = 0x3e then .moveRight
  else if byte = 0x3c then .moveLeft
  else if byte = openBracket then .beginLoop
  else if byte = closeBracket then .endLoop
  else if byte = 0x2e then .output
  else if byte = 0x2c then .input
  else .comment

/-- A program is its bytes; an address is an offset into them. -/
abbrev Program := Array UInt8

/-- The program that a text spells, by its UTF-8 bytes. -/
def Program.ofText (text : String) : Program :=
  text.toUTF8.data

end Brainfuck
