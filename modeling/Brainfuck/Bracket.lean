import Brainfuck.Fault

/-! Search for the partner of a bracket.
A search counts the loops that it meets on its way and ends at the first bracket that
belongs to none of them. Unbalanced programs are searched the same way. A search that finds
no such bracket tells the cause.
-/

namespace Brainfuck.Program

/-- The byte at an address; there are only comments behind the end. -/
@[inline] def byteAt (program : Program) (address : Nat) : UInt8 :=
  program.getD address 0

/-- The first of the last `remaining` bytes that closes a loop opened before them, when
`depth` loops are open that the search has met itself.
-/
def closingAmongLast (program : Program) (depth : Nat) : Nat → Option Nat
  | 0 => none
  | remaining + 1 =>
      let address := program.size - (remaining + 1)
      let byte := program.byteAt address
      if byte = openBracket then program.closingAmongLast (depth + 1) remaining
      else if byte = closeBracket then
        match depth with
        | 0 => some address
        | outer + 1 => program.closingAmongLast outer remaining
      else program.closingAmongLast depth remaining

/-- The last byte before an address that opens a loop closed at or behind it, when `depth`
loops are closed that the search has met itself.
-/
def openingBefore (program : Program) (depth : Nat) : Nat → Option Nat
  | 0 => none
  | address + 1 =>
      let byte := program.byteAt address
      if byte = closeBracket then program.openingBefore (depth + 1) address
      else if byte = openBracket then
        match depth with
        | 0 => some address
        | outer + 1 => program.openingBefore outer address
      else program.openingBefore depth address

/-- The address of the `]` that closes the `[` at `start`; the byte there is not read. -/
def closingOf (program : Program) (start : Int) : Except Fault Nat :=
  match program.closingAmongLast 0 (program.size - (start + 1).toNat) with
  | some address => .ok address
  | none => .error (.closingNotFound start)

/-- The address of the `[` that opens the `]` at `start`; the byte there is not read. -/
def openingOf (program : Program) (start : Int) : Except Fault Nat :=
  match program.openingBefore 0 start.toNat with
  | some address => .ok address
  | none => .error (.openingNotFound start)

end Brainfuck.Program
