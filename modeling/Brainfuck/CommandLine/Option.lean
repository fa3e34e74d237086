import Brainfuck.CommandLine.Given
import Brainfuck.Text.DecimalDigit
import Brainfuck.Text.Quoted

/-! Options of the command lines, and how one argument is read.
An argument may spell an option in full, start an unambiguous long one, bundle several
flags behind one dash, and bring the option's value along.
-/

namespace Brainfuck.CommandLine

/-- Options that the tools know. -/
inductive OptionName where
  | help
  | flavor
  | optimize
  | tapeSize
  | breakAt
  | input
  | metrics
  | debug
  | verbose
deriving DecidableEq, Repr

namespace OptionName

/-- The ways to write an option in full, a short one first. -/
def spellings : OptionName → List String
  | .help => ["-h", "--help"]
  | .flavor => ["--flavor"]
  | .optimize => ["-O", "--optimize"]
  | .tapeSize => ["--tape-size"]
  | .breakAt => ["-b", "--break"]
  | .input => ["-i", "--input"]
  | .metrics => ["--metrics"]
  | .debug => ["-d", "--debug"]
  | .verbose => ["-v", "--verbose"]

/-- The option comes with a value; the others are flags. -/
def takesValue : OptionName → Bool
  | .flavor | .optimize | .tapeSize | .breakAt | .input => true
  | .help | .metrics | .debug | .verbose => false

/-- All spellings, as messages name an option. -/
def display (name : OptionName) : String :=
  String.intercalate "/" name.spellings

end OptionName

/-- Misuses of a command line. -/
inductive UsageFault where
  | ambiguous (argument : String) (candidates : List String)
  | expectedValue (name : OptionName)
  | ignoredValue (name : OptionName) (value : String)
  | invalidInteger (name : OptionName) (value : String)
  | invalidChoice (name : OptionName) (given : Given String) (choices : List String)
  | fileRequired
  | unrecognized (arguments : List String)
deriving DecidableEq, Repr

/-- The message of a misuse. -/
def UsageFault.message : UsageFault → String
  | .ambiguous argument candidates =>
      "ambiguous option: " ++ argument ++ " could match "
      ++ String.intercalate ", " candidates
  | .expectedValue name => "argument " ++ name.display ++ ": expected one argument"
  | .ignoredValue name value =>
      "argument " ++ name.display ++ ": ignored explicit argument " ++ Text.quoted value
  | .invalidInteger name value =>
      "argument " ++ name.display ++ ": invalid int value: " ++ Text.quoted value
  | .invalidChoice name given choices =>
      "argument " ++ name.display ++ ": invalid choice: " ++ given.describe Text.quoted
      ++ " (choose from " ++ String.intercalate ", " (choices.map Text.quoted) ++ ")"
  | .fileRequired => "the following arguments are required: file"
  | .unrecognized arguments =>
      "unrecognized arguments: " ++ String.intercalate " " arguments

/-- An option as an argument spells it, and the text that the argument attaches to it. -/
structure OptionUse where
  name : OptionName
  spelling : String
  attached? : Option (List Char) := none
deriving DecidableEq, Repr

/-- A short option has a single dash, and more flags may follow in its argument. -/
def OptionUse.isShort (use : OptionUse) : Bool :=
  use.spelling.toList[1]? ≠ some '-'

/-- What an argument is, by its form alone. -/
inductive Token where
  /-- The argument `--`, behind which everything is a word. -/
  | separator
  | word (text : String)
  | option (use : OptionUse)
  | unknown (text : String)
deriving DecidableEq, Repr

/-- Every spelling of every option, with its option. -/
def allSpellings (options : List OptionName) : List (String × OptionName) :=
  options.flatMap fun name => name.spellings.map fun spelling => (spelling, name)

/-- The option with a given spelling. -/
def optionSpelled? (options : List OptionName) (spelling : String) : Option OptionName :=
  ((allSpellings options).find? fun entry => entry.1 = spelling).map (·.2)

/-- The part in front of the first equals sign, and the part behind it. -/
def splitAtSign : List Char → List Char × Option (List Char)
  | [] => ([], none)
  | char :: rest =>
      if char = '=' then ([], some rest)
      else
        let (before, after?) := splitAtSign rest
        (char :: before, after?)

/-- Options that an argument may mean which spells none in full: behind two dashes those
that it starts, behind one dash the short one of its first letter.
-/
def candidates (options : List OptionName) (argument : List Char) : List OptionUse :=
  let entries := allSpellings options
  if argument[1]? = some '-' then
    let (start, value?) := splitAtSign argument
    (entries.filter fun entry => start.isPrefixOf entry.1.toList).map fun entry =>
      { name := entry.2, spelling := entry.1, attached? := value? }
  else
    (entries.filter fun entry => entry.1.toList = argument.take 2).map fun entry =>
      { name := entry.2, spelling := entry.1, attached? := some (argument.drop 2) }

/-- A dash and a number, with a decimal point or without; a line feed may end it. -/
def isNegativeNumber (argument : List Char) : Bool :=
  let isDigit := fun char => (Text.digitValue? char).isSome
  match argument with
  | '-' :: number =>
      let number := if number.getLast? = some '\n' then number.dropLast else number
      match number.dropWhile isDigit with
      | [] => !number.isEmpty
      | '.' :: fraction => !fraction.isEmpty && fraction.all isDigit
      | _ => false
  | _ => false

/-- Reads an argument by its form. What starts with a dash is a word all the same when it
is nothing but the dash, a negative number, or holds a space, unless it spells an option.
-/
def Token.ofArgument (options : List OptionName) (argument : String)
    : Except UsageFault Token :=
  let chars := argument.toList
  if chars.head? ≠ some '-' then .ok (.word argument)
  else match optionSpelled? options argument with
    | some name => .ok (.option { name, spelling := argument })
    | none =>
        if chars.length = 1 then .ok (.word argument)
        else
          let (before, value?) := splitAtSign chars
          let spelling := String.ofList before
          match value?, optionSpelled? options spelling with
          | some _, some name => .ok (.option { name, spelling, attached? := value? })
          | _, _ =>
              match candidates options chars with
              | [use] => .ok (.option use)
              | [] =>
                  if isNegativeNumber chars || chars.contains ' ' then .ok (.word argument)
                  else .ok (.unknown argument)
              | several => .error (.ambiguous argument (several.map (·.spelling)))

/-- Reads all arguments by their form, up to the first ambiguous one. -/
def Token.ofArguments (options : List OptionName)
    : List String → Except UsageFault (List Token)
  | [] => .ok []
  | argument :: rest =>
      if argument = "--" then .ok (.separator :: rest.map .word)
      else match Token.ofArgument options argument, Token.ofArguments options rest with
        | .error fault, _ | _, .error fault => .error fault
        | .ok token, .ok tokens => .ok (token :: tokens)

end Brainfuck.CommandLine
