import Brainfuck.Breakpoints

/-! Breakpoints that are shared.
Whoever creates a breakpoint can turn it on and off from then on, and so can whoever gets it
from a registry or removes it from there. They all turn the same switch; the registry sees it
turned as long as it holds the breakpoint. A debugger needs only `Registry.values`, what its
registry holds at a time.
-/

namespace Brainfuck

/-- All breakpoints that were created, as they are now, and which of them are held. The number
of a breakpoint, its place among the created ones, tells it from others at its address.
-/
structure Registry where
  created : List Breakpoint := []
  /-- The numbers of the breakpoints that are held, with their addresses, as they were added.
  -/
  held : List (Int × Nat) := []
  interrupted : Bool := false
deriving DecidableEq, Repr

namespace Registry

/-- Creates a breakpoint. Nothing holds it yet. -/
def create (registry : Registry) (breakpoint : Breakpoint) : Registry :=
  { registry with created := registry.created ++ [breakpoint] }

/-- The breakpoint that is held at an address. -/
def find? (registry : Registry) (address : Int) : Option Nat :=
  (registry.held.find? fun entry => entry.1 = address).map (·.2)

/-- A breakpoint is held at an address. -/
def contains (registry : Registry) (address : Int) : Bool :=
  (registry.find? address).isSome

/-- Holds a breakpoint from now on, if its address is not negative and has none yet. There is
nothing to hold for a number under which nothing was created.
-/
def add (registry : Registry) (number : Nat) : Except Fault Unit × Registry :=
  match registry.created[number]? with
  | none => (.ok (), registry)
  | some breakpoint =>
      if breakpoint.address < 0 then
        (.error (Fault.negativeBreakpoint breakpoint).raised, registry)
      else if registry.contains breakpoint.address then
        (.error (Fault.duplicateBreakpoint breakpoint).raised, registry)
      else
        (.ok (), { registry with held := registry.held ++ [(breakpoint.address, number)] })

/-- No longer holds the breakpoint at an address, and gives it back. -/
def remove (registry : Registry) (address : Int) : Except Fault Nat × Registry :=
  match registry.find? address with
  | none => (.error (Fault.breakpointNotFound address).raised, registry)
  | some number =>
      (.ok number,
        { registry with held := registry.held.filter fun entry => entry.1 ≠ address })

/-- Turns a breakpoint on or off, whether it is held or not. -/
def switch (registry : Registry) (number : Nat) (enabled : Bool) : Registry :=
  {
    registry with
      created := registry.created.modify number fun breakpoint => { breakpoint with enabled }
  }

/-- The switch of the breakpoint that is held at an address. -/
def switchAt? (registry : Registry) (address : Int) : Option Bool :=
  (registry.find? address).bind fun number => registry.created[number]?.map (·.enabled)

/-- Execution is to pause in front of an address: an enabled breakpoint is held there, and
the latest query did not interrupt. The answer is remembered.
-/
def query (registry : Registry) (address : Int) : Bool × Registry :=
  let interrupts := !registry.interrupted && (registry.switchAt? address).getD false
  (interrupts, { registry with interrupted := interrupts })

/-- Forgets the answer to the latest query. -/
def clearInterrupt (registry : Registry) : Registry :=
  { registry with interrupted := false }

/-- Breakpoints in the order of their addresses. -/
def sorted (breakpoints : List Breakpoint) : List Breakpoint :=
  breakpoints.foldl (fun before breakpoint => Breakpoints.insertOrdered breakpoint before) []

/-- What a registry holds at a time. -/
def values (registry : Registry) : Breakpoints :=
  {
    entries := sorted (registry.held.filterMap fun entry => registry.created[entry.2]?)
    interrupted := registry.interrupted
  }

end Registry

end Brainfuck
