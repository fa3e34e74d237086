import Brainfuck.Fault

/-! The breakpoints of a debugger, and whether one of them has just interrupted.
An interruption is for one time: the next query lets execution through, so that a program
can be resumed from a breakpoint and pause there again on a later pass.
-/

namespace Brainfuck

/-- Breakpoints in the order of their addresses, and the answer to the latest query. -/
structure Breakpoints where
  entries : List Breakpoint := []
  interrupted : Bool := false
deriving DecidableEq, Repr

namespace Breakpoints

/-- The breakpoint at an address. -/
def find? (breakpoints : Breakpoints) (address : Int) : Option Breakpoint :=
  breakpoints.entries.find? fun entry => entry.address = address

/-- There is a breakpoint at an address. -/
def contains (breakpoints : Breakpoints) (address : Int) : Bool :=
  (breakpoints.find? address).isSome

/-- Puts a breakpoint in front of the first one with a greater address. -/
def insertOrdered (breakpoint : Breakpoint) : List Breakpoint → List Breakpoint
  | [] => [breakpoint]
  | entry :: later =>
      if breakpoint.address < entry.address then breakpoint :: entry :: later
      else entry :: insertOrdered breakpoint later

/-- An ordered insertion adds the breakpoint and keeps the others, by list induction. -/
theorem mem_insertOrdered {breakpoint entry : Breakpoint} {entries : List Breakpoint}
    : entry ∈ insertOrdered breakpoint entries ↔ entry = breakpoint ∨ entry ∈ entries := by
  induction entries with
  | nil => simp [insertOrdered]
  | cons first later ih =>
      unfold insertOrdered
      split
      · simp
      · simp only [List.mem_cons, ih]
        constructor <;> rintro (h | h | h) <;> simp [h]

/-- Addresses in strictly increasing order, so that no address occurs twice. -/
def Ordered (entries : List Breakpoint) : Prop :=
  entries.Pairwise fun left right => left.address < right.address

/-- An insertion at a new address keeps the order, by list induction. -/
theorem Ordered.insertOrdered {breakpoint : Breakpoint} {entries : List Breakpoint}
    (h : Ordered entries) (new : ∀ entry ∈ entries, entry.address ≠ breakpoint.address)
    : Ordered (insertOrdered breakpoint entries) := by
  induction entries with
  | nil => exact List.pairwise_singleton _ _
  | cons first later ih =>
      obtain ⟨below, ordered⟩ := List.pairwise_cons.mp h
      have different := new first (by simp)
      unfold Breakpoints.insertOrdered
      split
      · refine List.pairwise_cons.mpr ⟨?_, h⟩
        intro entry member
        rcases List.mem_cons.mp member with rfl | member
        · assumption
        · have := below entry member
          omega
      · have newLater : ∀ entry ∈ later, entry.address ≠ breakpoint.address :=
          fun entry member => new entry (by simp [member])
        refine List.pairwise_cons.mpr ⟨?_, ih ordered newLater⟩
        intro entry member
        rcases mem_insertOrdered.mp member with rfl | member
        · omega
        · exact below entry member

/-- Adds a breakpoint at an address that is not negative and has none yet. -/
def add (breakpoints : Breakpoints) (breakpoint : Breakpoint) : Except Fault Breakpoints :=
  if breakpoint.address < 0 then .error (Fault.negativeBreakpoint breakpoint).raised
  else if breakpoints.contains breakpoint.address then
    .error (Fault.duplicateBreakpoint breakpoint).raised
  else
    .ok { breakpoints with entries := insertOrdered breakpoint breakpoints.entries }

/-- Takes the breakpoint at an address away. -/
def remove (breakpoints : Breakpoints) (address : Int)
    : Except Fault (Breakpoint × Breakpoints) :=
  match breakpoints.find? address with
  | none => .error (Fault.breakpointNotFound address).raised
  | some breakpoint =>
      .ok
        (breakpoint,
          {
            breakpoints with
              entries := breakpoints.entries.filter fun entry => entry.address ≠ address
          })

/-- Turns the breakpoint at an address on or off, if there is one. -/
def switch (breakpoints : Breakpoints) (address : Int) (enabled : Bool) : Breakpoints :=
  {
    breakpoints with
      entries :=
        breakpoints.entries.map fun entry =>
          if entry.address = address then { entry with enabled } else entry
  }

/-- Execution is to pause in front of an address: it has an enabled breakpoint, and the
latest query did not interrupt. The answer is remembered.
-/
def query (breakpoints : Breakpoints) (address : Int) : Bool × Breakpoints :=
  let interrupts :=
    !breakpoints.interrupted
    && ((breakpoints.find? address).map (·.enabled)).getD false
  (interrupts, { breakpoints with interrupted := interrupts })

/-- Forgets the answer to the latest query. -/
def clearInterrupt (breakpoints : Breakpoints) : Breakpoints :=
  { breakpoints with interrupted := false }

end Breakpoints

end Brainfuck
