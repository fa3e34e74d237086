import Brainfuck.Debugger
import Brainfuck.Text.Padded

/-! What a debugger shows: stretches of memory, and the surroundings of the next step.
The current cell and the current unit are marked by terminal escapes.
-/

namespace Brainfuck.Debugger

/-- Ways of showing a text on a terminal. -/
inductive Style where
  | blue
  | cyan
  | green
  | yellow
  | red
  | bold
  | reversed
deriving DecidableEq, Repr

/-- Number of a style in a terminal escape. -/
def Style.number : Style → Nat
  | .blue => 94
  | .cyan => 96
  | .green => 92
  | .yellow => 93
  | .red => 91
  | .bold => 1
  | .reversed => 7

/-- Terminal escape with a number. -/
def escapeSequence (number : Nat) : String :=
  "\x1b[" ++ toString number ++ "m"

/-- A text between the escape of a style and the one that ends it. -/
def styled (style : Style) (text : String) : String :=
  escapeSequence style.number ++ text ++ escapeSequence 0

/-- Text that was shown, and the fault that ended it. -/
structure Report where
  text : String
  fault? : Option Fault := none
deriving DecidableEq, Repr

/-- Number of terms of an arithmetic progression before it reaches its bound. -/
def progressionLength (start bound stride : Int) : Nat :=
  if 0 < stride then ((bound - start + stride - 1) / stride).toNat
  else if stride < 0 then ((start - bound - stride - 1) / (-stride)).toNat
  else 0

/-- The terms of an arithmetic progression in front of its bound, which is above the start
for a positive stride and below it for a negative one.
-/
def progression (start bound stride : Int) : List Int :=
  (List.range (progressionLength start bound stride)).map fun index : Nat =>
    start + index * stride

/-- The cell at an address, in four columns. -/
def cellText (tape : Tape) (address : Int) : String :=
  Text.paddedInteger 4 (tape.cells.getD address.toNat 0)

/-- A row of a memory dump: the address that labels it, and those of its cells. -/
structure DumpRow where
  label : Int
  addresses : List Int
deriving DecidableEq, Repr

/-- The rows that show the addresses from a start to a bound, with a number of columns. The
last row may be shorter; a negative number of columns leads downwards, through rows without
cells.
-/
def dumpRows (start bound columns : Int) : List DumpRow :=
  (progression start bound columns).map fun label =>
    { label, addresses := progression label (min bound (label + columns)) 1 }

/-- The text of a row; the current cell is highlighted. -/
def DumpRow.describe (tape : Tape) (row : DumpRow) : String :=
  let cell := fun address : Int =>
    if address = tape.pointer then styled .reversed (cellText tape address)
    else cellText tape address
  "  " ++ Text.zeroPadded 5 row.label ++ ": "
  ++ String.intercalate " " (row.addresses.map cell) ++ "\n"

/-- Where a dump that is asked to start at an address really starts. -/
def dumpStart (start : Int) : Int :=
  max 0 start

/-- Where a dump of `count` cells ends: behind them, or at the end of the tape. -/
def dumpBound (tape : Tape) (start count : Int) : Int :=
  min (tape.size : Int) (dumpStart start + count)

/-- Memory dump of `count` cells from an address on, cut to the tape, with a number of
cells in each row. No rows can be made of zero columns; the heading is shown all the same.
-/
def regionOf (tape : Tape) (start count columns : Int) : Report :=
  let heading :=
    styled .cyan ("[Memory (Start: " ++ toString (dumpStart start) ++ ")]") ++ "\n"
  if columns = 0 then { text := heading, fault? := some .zeroColumns }
  else
    let rows := dumpRows (dumpStart start) (dumpBound tape start count) columns
    { text := heading ++ String.join (rows.map (DumpRow.describe tape)) }

/-- Cells in a row of a memory dump when nobody asks for another number. -/
def defaultColumns : Int := 16

/-- Memory dump of the loaded machine. -/
def region (debugger : Debugger) (start count columns : Int) : Report :=
  match debugger.loaded? with
  | .error fault => { text := "", fault? := some fault }
  | .ok machine => regionOf machine.tape start count columns

/-- The cells within eight of the current one, which is bracketed. -/
def surroundingCells (tape : Tape) : String :=
  let first := max 0 ((tape.pointer : Int) - 8)
  let bound := min (tape.size : Int) (tape.pointer + 9)
  let cell := fun address : Int =>
    if address = tape.pointer then
      styled .reversed ("[" ++ cellText tape address ++ "]") ++ " "
    else " " ++ cellText tape address ++ "  "
  "Loc: " ++ String.join ((progression first bound 1).map cell) ++ "\n"

/-- Mark in front of an address: a star for a breakpoint, a circle for one that is off. -/
def breakpointMark (breakpoints : Breakpoints) (address : Int) : String :=
  match breakpoints.find? address with
  | none => " "
  | some breakpoint => if breakpoint.enabled then "*" else "o"

/-- One line of code; an arrow points to the unit that is executed next. -/
def unitLine (breakpoints : Breakpoints) (machine : Machine) (address : Int) : String :=
  let unit :=
    match machine.code.unitAt address with
    | .ok unit => unit.describe
    | .error _ => ""
  let line :=
    breakpointMark breakpoints address ++ Text.zeroPadded 4 address ++ ": " ++ unit
  if address = machine.counter then styled .green ("->" ++ line) ++ "\n"
  else "  " ++ line ++ "\n"

/-- The units within two of the one that is executed next. -/
def surroundingUnits (breakpoints : Breakpoints) (machine : Machine) : String :=
  let first := max 0 (machine.counter - 2)
  let bound := min (machine.length : Int) (machine.counter + 3)
  String.join ((progression first bound 1).map (unitLine breakpoints machine))

/-- Everything written so far. -/
def outputLine (machine : Machine) : String :=
  "Output: " ++ Text.quotedBytes machine.output.bytes ++ "\n"

/-- The state of a machine before its next step. -/
def stateOf (breakpoints : Breakpoints) (machine : Machine) (showsOutput : Bool) : String :=
  "\n" ++ styled .bold ("--- Step " ++ toString machine.metrics.executed ++ " ---") ++ "\n"
  ++ "PC: " ++ toString machine.counter ++ " / " ++ toString machine.length ++ "\n"
  ++ "Ptr: " ++ toString machine.tape.pointer ++ "\n"
  ++ surroundingCells machine.tape
  ++ surroundingUnits breakpoints machine
  ++ (if showsOutput then outputLine machine else "")

/-- The state of the loaded machine; without one there is nothing to show. -/
def state (debugger : Debugger) (showsOutput : Bool) : Report :=
  match debugger.machine? with
  | none => { text := "", fault? := some .noStateToShow }
  | some machine => { text := stateOf debugger.breakpoints machine showsOutput }

end Brainfuck.Debugger
