import Brainfuck.Fault

/-! The tape: cells that hold signed bytes, and the data pointer.
The cell policy decides what arithmetic outside the signed bytes does. What a move or an
addition comes to is found out before anything changes, so an operation that fails leaves
the tape as it was.
-/

namespace Brainfuck

/-- What happens to arithmetic that leaves the signed bytes. -/
inductive CellPolicy where
  /-- The result is taken modulo 256. -/
  | wrapping
  /-- The operation fails. -/
  | checked
deriving DecidableEq, Repr

/-- Name of a policy. -/
def CellPolicy.name : CellPolicy → String
  | .wrapping => "wrapping"
  | .checked => "checked"

/-- The signed byte that is congruent to a number modulo 256. -/
def signedByte (value : Int) : Int :=
  value.bmod 256

/-- The byte that is congruent to a number modulo 256. -/
def lowByte (value : Int) : UInt8 :=
  UInt8.ofNat (value % 256).toNat

/-- Numbers that a cell can hold. -/
def IsSignedByte (value : Int) : Prop :=
  -128 ≤ value ∧ value ≤ 127

instance (value : Int) : Decidable (IsSignedByte value) :=
  inferInstanceAs (Decidable (_ ∧ _))

/-- A number modulo 256 is a signed byte, by the bounds of the balanced remainder. -/
theorem isSignedByte_signedByte (value : Int) : IsSignedByte (signedByte value) := by
  have lower := Int.le_bmod (x := value) (m := 256) (by decide)
  have upper := Int.bmod_lt (x := value) (m := 256) (by decide)
  simp only [IsSignedByte, signedByte]
  omega

/-- Signed bytes are their own remainders, because the remainder is unique. -/
theorem signedByte_of_isSignedByte {value : Int} (h : IsSignedByte value)
    : signedByte value = value := by
  obtain ⟨lower, upper⟩ := h
  exact Int.bmod_eq_of_le (by omega) (by omega)

/-- Wrapping before an addition changes nothing about wrapping after it. -/
theorem signedByte_add_signedByte (left right : Int)
    : signedByte (signedByte left + right) = signedByte (left + right) :=
  Int.bmod_add_bmod

/-- Cells from address 0 on, and the address of the current one. -/
structure Tape where
  policy : CellPolicy
  cells : Array Int
  pointer : Nat
deriving DecidableEq, Repr

namespace Tape

/-- Number of cells of a tape that nobody asks to be larger or smaller. -/
def defaultSize : Nat := 30000

/-- A tape of zeros with the pointer at its first cell. -/
def blank (size : Nat) (policy : CellPolicy) : Tape :=
  { policy, cells := Array.replicate size 0, pointer := 0 }

/-- A blank tape, for any number that is a size. -/
def ofSize? (size : Int) (policy : CellPolicy) : Except Fault Tape :=
  if size ≤ 0 then .error (.tapeSizeNotPositive size)
  else .ok (blank size.toNat policy)

/-- Number of cells. -/
@[inline] def size (tape : Tape) : Nat :=
  tape.cells.size

/-- The current cell. -/
@[inline] def current (tape : Tape) : Int :=
  tape.cells.getD tape.pointer 0

/-- The pointer is at a cell, and every cell holds a signed byte. -/
structure WellFormed (tape : Tape) : Prop where
  pointer_lt : tape.pointer < tape.size
  cells_signed : ∀ value ∈ tape.cells, IsSignedByte value

/-- Replaces the current cell. -/
@[inline] def put (tape : Tape) (value : Int) : Tape :=
  let { policy, cells, pointer } := tape
  { policy, cells := cells.setIfInBounds pointer value, pointer }

/-- Stores a number of any size as a signed byte. -/
@[inline] def write (tape : Tape) (value : Int) : Tape :=
  tape.put (signedByte value)

/-- Where the pointer comes to rest when it moves by a distance, or the cause why it cannot.
-/
@[inline] def target (tape : Tape) (distance : Int) : Except Fault Nat :=
  let address := tape.pointer + distance
  if address < 0 ∨ tape.size ≤ address then
    .error (.pointerOutOfRange address tape.size)
  else .ok address.toNat

/-- What the current cell holds after an addition, or the cause why it cannot hold it. -/
@[inline] def sum (tape : Tape) (amount : Int) : Except Fault Int :=
  let value := tape.current + amount
  match tape.policy with
  | .wrapping => .ok (signedByte value)
  | .checked =>
      if IsSignedByte value then .ok value
      else .error (.cellOverflow tape.current tape.pointer)

/-- The tape with its pointer moved by a distance in either direction. -/
def moved (tape : Tape) (distance : Int) : Except Fault Tape :=
  match tape.target distance with
  | .error cause => .error cause
  | .ok address => .ok { tape with pointer := address }

/-- The tape with a number added to its current cell. -/
def added (tape : Tape) (amount : Int) : Except Fault Tape :=
  match tape.sum amount with
  | .error cause => .error cause
  | .ok value => .ok (tape.put value)

/-- What can be asked of a tape to change it. -/
inductive Operation where
  | write (value : Int)
  | move (distance : Int)
  | add (amount : Int)
  | subtract (amount : Int)
  | increment
  | decrement
deriving DecidableEq, Repr

/-- What an attempted operation leaves behind, and what it raised if it failed. -/
structure Attempt where
  tape : Tape
  fault? : Option Fault := none
deriving DecidableEq, Repr

/-- Attempts to move the pointer by a distance in either direction. -/
def attemptMove (tape : Tape) (distance : Int) : Attempt :=
  match tape.target distance with
  | .error cause => { tape, fault? := some cause.raised }
  | .ok address => { tape := { tape with pointer := address } }

/-- Attempts to add to the current cell. -/
def attemptAdd (tape : Tape) (amount : Int) : Attempt :=
  match tape.sum amount with
  | .error cause => { tape, fault? := some cause.raised }
  | .ok value => { tape := tape.put value }

/-- Attempts an operation. To subtract is to add the opposite. -/
def attempt (tape : Tape) : Operation → Attempt
  | .write value => { tape := tape.write value }
  | .move distance => tape.attemptMove distance
  | .add amount => tape.attemptAdd amount
  | .subtract amount => tape.attemptAdd (-amount)
  | .increment => tape.attemptAdd 1
  | .decrement => tape.attemptAdd (-1)

/-- The tape that an attempt has come to, or what it raised. -/
def Attempt.result (attempt : Attempt) : Except Fault Tape :=
  match attempt.fault? with
  | some fault => .error fault
  | none => .ok attempt.tape

/-- Moves the pointer by a distance in either direction. -/
def move (tape : Tape) (distance : Int) : Except Fault Tape :=
  (tape.attempt (.move distance)).result

/-- Adds to the current cell. -/
def add (tape : Tape) (amount : Int) : Except Fault Tape :=
  (tape.attempt (.add amount)).result

/-- Subtracts from the current cell. -/
def subtract (tape : Tape) (amount : Int) : Except Fault Tape :=
  (tape.attempt (.subtract amount)).result

/-- Adds one to the current cell. -/
def increment (tape : Tape) : Except Fault Tape :=
  (tape.attempt .increment).result

/-- Subtracts one from the current cell. -/
def decrement (tape : Tape) : Except Fault Tape :=
  (tape.attempt .decrement).result

/-- Storing keeps the number of cells. -/
@[simp] theorem size_put (tape : Tape) (value : Int) : (tape.put value).size = tape.size :=
  Array.size_setIfInBounds

/-- Storing keeps the pointer. -/
@[simp] theorem pointer_put (tape : Tape) (value : Int)
    : (tape.put value).pointer = tape.pointer :=
  rfl

/-- What is stored is what the current cell then holds. -/
theorem current_put {tape : Tape} (h : tape.pointer < tape.size) (value : Int)
    : (tape.put value).current = value := by
  simp only [size] at h
  simp [put, current, h]

/-- A blank tape with any cells is well formed, because zero is a signed byte. -/
theorem wellFormed_blank {size : Nat} (h : 0 < size) (policy : CellPolicy)
    : (blank size policy).WellFormed where
  pointer_lt := by simpa [blank, Tape.size] using h
  cells_signed value member := by
    obtain ⟨_, rfl⟩ := Array.mem_replicate.mp member
    decide

/-- Storing a signed byte keeps a tape well formed, cell by cell. -/
theorem WellFormed.put {tape : Tape} (h : tape.WellFormed) {value : Int}
    (signed : IsSignedByte value)
    : (tape.put value).WellFormed where
  pointer_lt := by simpa using h.pointer_lt
  cells_signed other member := by
    rcases Array.mem_or_eq_of_mem_setIfInBounds member with member | rfl
    · exact h.cells_signed other member
    · exact signed

/-- A sum that succeeds is a signed byte, under either policy. -/
theorem isSignedByte_of_sum {tape : Tape} {amount value : Int}
    (h : tape.sum amount = .ok value)
    : IsSignedByte value := by
  unfold sum at h
  split at h
  · cases h
    exact isSignedByte_signedByte _
  · simp only at h
    split at h
    · cases h
      assumption
    · contradiction

/-- Text of a tape: its size, its policy and its pointer. -/
def describe (tape : Tape) : String :=
  "Tape(size=" ++ toString tape.size ++ ", policy=" ++ tape.policy.name ++ ", ptr="
  ++ toString tape.pointer ++ ")"

/-- The cells that are not zero, with their addresses, in order. -/
def nonzeroCells (tape : Tape) : Array (Nat × Int) :=
  (tape.cells.mapIdx fun address value => (address, value)).filter fun cell => cell.2 ≠ 0

end Tape

end Brainfuck
