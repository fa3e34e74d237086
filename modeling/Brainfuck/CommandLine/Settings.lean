import Brainfuck.CommandLine.Reading
import Brainfuck.Configuration
import Brainfuck.Text.Integer

/-! Settings of the tools, as a command line gives them.
The last value of a repeated option counts, except that breakpoints are collected.
-/

namespace Brainfuck.CommandLine

/-- Everything that a command line can set. -/
structure Settings where
  file : String := ""
  flavor : Given Flavor := .value .classic
  level? : Option (Given Int) := none
  tapeSize : Given Int := .value Tape.defaultSize
  breakpoints : List (Given Int) := []
  input? : Option String := none
  showsMetrics : Bool := false
  debugs : Bool := false
  isVerbose : Bool := false
deriving DecidableEq, Repr

/-- Why a command line gives no settings: it asks for help, or it is misused. -/
inductive Stop where
  | help
  | misuse (fault : UsageFault)
deriving DecidableEq, Repr

namespace Settings

/-- The input file; an empty name is no file. -/
def inputFile? (settings : Settings) : Option String :=
  settings.input?.filter fun name => !name.isEmpty

/-- The configuration that the settings ask for. What is given nothing is missed when it is
its turn: the flavor, the tape size, and then the level.
-/
def configuration? (settings : Settings) : Except Fault Configuration :=
  match settings.flavor, settings.tapeSize, settings.level? with
  | .nothing, _, _ => .error .flavorMissing
  | _, .nothing, _ => .error .tapeSizeMissing
  | .value flavor, .value tapeSize, none => Configuration.ofOptions? flavor tapeSize none
  | .value flavor, .value tapeSize, some (.value level) =>
      Configuration.ofOptions? flavor tapeSize (some level)
  | .value flavor, .value tapeSize, some .nothing =>
      match Configuration.forFlavor? flavor tapeSize with
      | .error fault => .error fault
      | .ok _ => .error .levelMissing

/-- The integer that an option is given. -/
def integerOf (name : OptionName) : Given String → Except Stop (Given Int)
  | .nothing => .ok .nothing
  | .value text =>
      match Text.readInteger text with
      | .ok number => .ok (.value number)
      | .error _ => .error (.misuse (.invalidInteger name text))

/-- The misuse of giving the flavor something that is none. -/
def notAFlavor (given : Given String) : UsageFault :=
  .invalidChoice .flavor given (Flavor.all.map Flavor.name)

/-- The flavor that an option is given. -/
def flavorOf : Given String → Except Stop (Given Flavor)
  | .nothing => .ok .nothing
  | .value text =>
      match Flavor.ofName? text with
      | .ok flavor => .ok (.value flavor)
      | .error _ => .error (.misuse (notAFlavor (.value text)))

/-- Sets what an option asks for. -/
def assign (settings : Settings) (name : OptionName) (given : Given String)
    : Except Stop Settings :=
  match name with
  | .help => .error .help
  | .flavor => (flavorOf given).map fun flavor => { settings with flavor }
  | .optimize =>
      (integerOf name given).map fun level => { settings with level? := some level }
  | .tapeSize => (integerOf name given).map fun tapeSize => { settings with tapeSize }
  | .breakAt =>
      (integerOf name given).map fun address =>
        { settings with breakpoints := settings.breakpoints ++ [address] }
  | .input => .ok { settings with input? := given.value? }
  | .metrics => .ok { settings with showsMetrics := true }
  | .debug => .ok { settings with debugs := true }
  | .verbose => .ok { settings with isVerbose := true }

/-- Sets what the occurrences of a command line ask for, up to the first bad value. -/
def assignAll (settings : Settings) : List Occurrence → Except Stop Settings
  | [] => .ok settings
  | .file file :: rest => { settings with file }.assignAll rest
  | .option name given :: rest =>
      match settings.assign name given with
      | .error stop => .error stop
      | .ok changed => changed.assignAll rest

/-- The occurrence gives the file. -/
def isFile : Occurrence → Bool
  | .file _ => true
  | .option _ _ => false

/-- The settings that a reading gives. A bad value wins over a later misuse, and that over
a missing file, and that over unrecognized arguments.
-/
def ofReading? (reading : Reading) : Except Stop Settings :=
  match ({} : Settings).assignAll reading.occurrences, reading.fault? with
  | .error stop, _ => .error stop
  | .ok _, some fault => .error (.misuse fault)
  | .ok settings, none =>
      if !reading.occurrences.any isFile then .error (.misuse .fileRequired)
      else if !reading.unrecognized.isEmpty then
        .error (.misuse (.unrecognized reading.unrecognized))
      else .ok settings

/-- The settings of a command line. -/
def ofArguments? (options : List OptionName) (arguments : List String)
    : Except Stop Settings :=
  ofReading? (.ofArguments options arguments)

/-- Options of the tool that runs a program. -/
def runOptions : List OptionName :=
  [.help, .flavor, .optimize, .tapeSize, .input, .metrics, .debug, .verbose]

/-- Options of the tool that debugs a program. -/
def debugOptions : List OptionName :=
  [.help, .flavor, .optimize, .tapeSize, .breakAt, .input, .verbose]

/-- The command line that hands the settings of a run over to the debugging tool. -/
def forwarded (settings : Settings) (flavor : Flavor) : List String :=
  [settings.file]
  ++ ["--flavor", flavor.name]
  ++ ["--tape-size", settings.tapeSize.describe toString]
  ++ (match settings.level? with
      | some level => ["--optimize", level.describe toString]
      | none => [])
  ++ (match settings.inputFile? with
      | some name => ["--input", name]
      | none => [])
  ++ (if settings.isVerbose then ["--verbose"] else [])

/-- The settings that the debugging tool reads from the command line handed over to it. A
flavor that was given nothing is refused when it is its turn, behind the file.
-/
def handedOver? (settings : Settings) : Except Stop Settings :=
  match settings.flavor with
  | .value flavor => ofArguments? debugOptions (settings.forwarded flavor)
  | .nothing =>
      ofReading?
        ((Reading.ofArguments debugOptions [settings.file]).endBy (notAFlavor .nothing))

end Settings

end Brainfuck.CommandLine
