import Brainfuck.Breakpoint
import Brainfuck.Instruction
import Brainfuck.Text.Integer

/-! Everything that can go wrong, by cause.
The wording of every message is here; `Fault.kind` groups the causes for those who handle
them. A message is written when its fault is raised, and a number in it can be too long for
that: `Fault.raised` is what a cause is raised as. Tapes and breakpoints, which are given any
number, raise. Searches, assembly and machines tell the cause, and the tools report it as it
is: its numbers are bounded by the sizes of tape and program.
-/

namespace Brainfuck

/-- The cause of a failure, with what its message mentions. -/
inductive Fault where
  /-- A move of the data pointer would leave the tape. -/
  | pointerOutOfRange (target : Int) (size : Nat)
  /-- Arithmetic on a checked cell leaves the signed bytes. -/
  | cellOverflow (value : Int) (pointer : Nat)
  /-- Assembly ended with this opening bracket pending. -/
  | unmatchedOpening (position : Int)
  /-- Assembly met this closing bracket with none pending. -/
  | unmatchedClosing (position : Int)
  /-- The search from an opening bracket reached the end of the program. -/
  | closingNotFound (start : Int)
  /-- The search from a closing bracket reached the start of the program. -/
  | openingNotFound (start : Int)
  | tapeSizeNotPositive (size : Int)
  | negativeLevel (level : Int)
  | unknownFlavor (name : String)
  | negativeBreakpoint (breakpoint : Breakpoint)
  | duplicateBreakpoint (breakpoint : Breakpoint)
  | breakpointNotFound (address : Int)
  | alreadyCompleted
  | nothingLoaded
  /-- There is no program byte at the address. -/
  | byteNotFound
  /-- There is no instruction at the address. -/
  | instructionNotFound
  /-- There is nothing at the address, which does not even fit a word of 64 bits. -/
  | addressTooLarge
  | unknownInstruction (instruction : Instruction)
  /-- The state of a debugger without a machine was to be shown. -/
  | noStateToShow
  | integerFault (cause : Text.IntegerFault)
  /-- A word that names no member of a closed list, such as the list of flavors. -/
  | notAMember (word list : String)
  | zeroColumns
  | byteOutOfRange
  /-- An option that names a flavor was given nothing. -/
  | flavorMissing
  | tapeSizeMissing
  | levelMissing
  /-- An option that adds a breakpoint was given nothing. -/
  | breakpointMissing
  /-- The name of a file contains the null character, which ends names. -/
  | nullInName
  | fileNotFound (name : String)
  | isDirectory (name : String)
deriving DecidableEq, Repr

/-- Groups of causes that are handled alike. -/
inductive FaultKind where
  | unmatchedBracket
  | pointerOutOfRange
  | cellOverflow
  | invalidConfiguration
  | illegalResume
  | badIndex
  | badValue
  | numberMissing
  | unknownInstruction
  | noStateToShow
  | fileNotFound
  | isDirectory
deriving DecidableEq, Repr

/-- The group of a cause. -/
def Fault.kind : Fault → FaultKind
  | .pointerOutOfRange _ _ => .pointerOutOfRange
  | .cellOverflow _ _ => .cellOverflow
  | .unmatchedOpening _ | .unmatchedClosing _ | .closingNotFound _ | .openingNotFound _ =>
      .unmatchedBracket
  | .tapeSizeNotPositive _ | .negativeLevel _ | .unknownFlavor _ | .negativeBreakpoint _
  | .duplicateBreakpoint _ | .breakpointNotFound _ => .invalidConfiguration
  | .alreadyCompleted | .nothingLoaded => .illegalResume
  | .byteNotFound | .instructionNotFound | .addressTooLarge => .badIndex
  | .integerFault _ | .notAMember _ _ | .flavorMissing | .zeroColumns | .byteOutOfRange
  | .nullInName => .badValue
  | .tapeSizeMissing | .levelMissing | .breakpointMissing => .numberMissing
  | .unknownInstruction _ => .unknownInstruction
  | .noStateToShow => .noStateToShow
  | .fileNotFound _ => .fileNotFound
  | .isDirectory _ => .isDirectory

/-- Faults of programs, configurations and debugging sessions, which the tools report in a
line of their own; all others end a tool.
-/
def FaultKind.isReported : FaultKind → Bool
  | .unmatchedBracket | .pointerOutOfRange | .cellOverflow | .invalidConfiguration
  | .illegalResume => true
  | _ => false

/-- Offset in the program of the bracket that has no partner. -/
def Fault.position? : Fault → Option Int
  | .unmatchedOpening position | .unmatchedClosing position
  | .closingNotFound position | .openingNotFound position => some position
  | _ => none

/-- The message of a fault. -/
def Fault.message : Fault → String
  | .pointerOutOfRange target size =>
      "Memory cell out of bounds: <" ++ toString target ++ "> (tape size " ++ toString size
      ++ ")"
  | .cellOverflow value pointer =>
      "Value <" ++ toString value ++ "> out of bounds at <" ++ toString pointer ++ ">"
  | .unmatchedOpening position =>
      "Unmatched opening bracket at <" ++ toString position ++ ">"
  | .unmatchedClosing position =>
      "Unmatched closing bracket at <" ++ toString position ++ ">"
  | .closingNotFound start =>
      "Unmatched opening bracket at <" ++ toString start ++ ">: couldn't find closing ']'"
  | .openingNotFound start =>
      "Unmatched closing bracket at <" ++ toString start ++ ">: couldn't find opening '['"
  | .tapeSizeNotPositive size => "Tape size must be positive, got " ++ toString size
  | .negativeLevel level =>
      "Optimization level must not be negative, got " ++ toString level
  | .unknownFlavor name => "Unknown flavor: " ++ Text.quoted name
  | .negativeBreakpoint breakpoint =>
      "Invalid breakpoint address: " ++ breakpoint.describe
  | .duplicateBreakpoint breakpoint =>
      "Breakpoint already exists: " ++ breakpoint.describe
  | .breakpointNotFound address =>
      "Cannot find breakpoint at address " ++ toString address
  | .alreadyCompleted => "Program has already completed"
  | .nothingLoaded => "No program loaded"
  | .byteNotFound => "index out of range"
  | .instructionNotFound => "tuple index out of range"
  | .addressTooLarge => "cannot fit 'int' into an index-sized integer"
  | .unknownInstruction instruction => "Unknown instruction: " ++ instruction.describe
  | .noStateToShow => "'NoneType' object has no attribute 'tape'"
  | .integerFault cause => cause.message
  | .notAMember word list => Text.quoted word ++ " is not a valid " ++ list
  | .zeroColumns => "range() arg 3 must not be zero"
  | .byteOutOfRange => "bytes must be in range(0, 256)"
  | .flavorMissing => "[] is not a valid Flavor"
  | .tapeSizeMissing => "'<=' not supported between instances of 'list' and 'int'"
  | .levelMissing | .breakpointMissing =>
      "'<' not supported between instances of 'list' and 'int'"
  | .nullInName => "embedded null byte"
  | .fileNotFound name => "[Errno 2] No such file or directory: " ++ Text.quoted name
  | .isDirectory name => "[Errno 21] Is a directory: " ++ Text.quoted name

/-- The numbers that the message of a fault mentions, however long they are. -/
def Fault.numbers : Fault → List Int
  | .pointerOutOfRange target size => [target, size]
  | .cellOverflow value pointer => [value, pointer]
  | .unmatchedOpening position | .unmatchedClosing position
  | .closingNotFound position | .openingNotFound position => [position]
  | .tapeSizeNotPositive size => [size]
  | .negativeLevel level => [level]
  | .negativeBreakpoint breakpoint | .duplicateBreakpoint breakpoint => [breakpoint.address]
  | .breakpointNotFound address => [address]
  | .unknownInstruction instruction => [instruction.operand]
  | _ => []

/-- All numbers in the message of a fault are short enough to be written. -/
def Fault.IsWritable (fault : Fault) : Prop :=
  ∀ number ∈ fault.numbers, Text.IsShort number

instance (fault : Fault) : Decidable fault.IsWritable :=
  inferInstanceAs (Decidable (∀ number ∈ fault.numbers, Text.IsShort number))

/-- A message that mentions a single number can be written when that number can. -/
theorem Fault.isWritable_iff_of_numbers {fault : Fault} {number : Int}
    (mentions : fault.numbers = [number])
    : fault.IsWritable ↔ Text.IsShort number := by
  simp [IsWritable, mentions]

@[simp] theorem Fault.isWritable_pointerOutOfRange (target : Int) (size : Nat)
    : (Fault.pointerOutOfRange target size).IsWritable
      ↔ Text.IsShort target ∧ Text.IsShort size := by
  simp [IsWritable, numbers]

@[simp] theorem Fault.isWritable_cellOverflow (value : Int) (pointer : Nat)
    : (Fault.cellOverflow value pointer).IsWritable
      ↔ Text.IsShort value ∧ Text.IsShort pointer := by
  simp [IsWritable, numbers]

/-- What a cause is raised as. Its message is written first, so if a number in it cannot be
written, that is what is raised.
-/
def Fault.raised (fault : Fault) : Fault :=
  if fault.IsWritable then fault else .integerFault .unwritable

theorem Fault.raised_of_isWritable {fault : Fault} (h : fault.IsWritable)
    : fault.raised = fault :=
  if_pos h

theorem Fault.raised_of_not_isWritable {fault : Fault} (h : ¬ fault.IsWritable)
    : fault.raised = .integerFault .unwritable :=
  if_neg h

/-- Causes of one kind are raised as faults of one kind when both can be written or neither. -/
theorem Fault.kind_raised_eq {left right : Fault} (kind : left.kind = right.kind)
    (writable : left.IsWritable ↔ right.IsWritable)
    : left.raised.kind = right.raised.kind := by
  by_cases h : left.IsWritable
  · rw [raised_of_isWritable h, raised_of_isWritable (writable.mp h), kind]
  · rw [raised_of_not_isWritable h, raised_of_not_isWritable (mt writable.mpr h)]

/-- What is raised is raised as it is, by whether the cause can be written. -/
theorem Fault.raised_raised (fault : Fault) : fault.raised.raised = fault.raised := by
  by_cases h : fault.IsWritable
  · rw [raised_of_isWritable h, raised_of_isWritable h]
  · rw [raised_of_not_isWritable h]
    exact raised_of_isWritable nofun

/-- The program with the given byte values. -/
def Program.ofCodes? (codes : List Int) : Except Fault Program :=
  if codes.all fun code => 0 ≤ code ∧ code < 256 then
    .ok (codes.map fun code => UInt8.ofNat code.toNat).toArray
  else .error .byteOutOfRange

end Brainfuck
