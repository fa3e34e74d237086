/-! Breakpoints: program addresses at which a debugger pauses. -/

namespace Brainfuck

/-- A program address to pause at, unless the breakpoint is switched off. -/
structure Breakpoint where
  address : Int
  enabled : Bool := true
deriving DecidableEq, Repr

/-- Two breakpoints are the same one when their addresses are, whatever their switches. -/
def Breakpoint.isSame (left right : Breakpoint) : Bool :=
  left.address == right.address

/-- The address alone decides the hash, so the same breakpoint has the same hash. -/
instance : Hashable Breakpoint where
  hash breakpoint := hash breakpoint.address

/-- The breakpoint with its switch on. -/
def Breakpoint.enable (breakpoint : Breakpoint) : Breakpoint :=
  { breakpoint with enabled := true }

/-- The breakpoint with its switch off. -/
def Breakpoint.disable (breakpoint : Breakpoint) : Breakpoint :=
  { breakpoint with enabled := false }

/-- Text of a breakpoint: its address and its switch. -/
def Breakpoint.describe (breakpoint : Breakpoint) : String :=
  "Breakpoint(address=" ++ toString breakpoint.address ++ ", enabled="
  ++ (if breakpoint.enabled then "True" else "False") ++ ")"

end Brainfuck
