import Brainfuck.Proofs.Execution.Failure

/-! The shape of memory.
A tape keeps its size, its pointer stays on it and its cells hold signed bytes, whatever is
asked of it. Every change is a move of the pointer within the tape, or a signed byte put into
the current cell; both engines change their tape in no other way.
-/

namespace Brainfuck

namespace Tape

/-- What an operation makes of a tape, or the cause why it cannot be done. -/
def apply (tape : Tape) : Operation → Except Fault Tape
  | .write value => .ok (tape.write value)
  | .move distance => tape.moved distance
  | .add amount => tape.added amount
  | .subtract amount => tape.added (-amount)
  | .increment => tape.added 1
  | .decrement => tape.added (-1)

/-- An attempt comes to what the operation makes of the tape, or raises the cause and leaves the
tape as it was; by cases on the operation.
-/
theorem attempt_eq (tape : Tape) (operation : Operation)
    : tape.attempt operation
      = match tape.apply operation with
        | .error cause => { tape, fault? := some cause.raised }
        | .ok next => { tape := next } := by
  have moves (distance : Int)
      : tape.attemptMove distance
        = match tape.moved distance with
          | .error cause => { tape, fault? := some cause.raised }
          | .ok next => { tape := next } := by
    unfold attemptMove moved
    cases tape.target distance <;> rfl
  have adds (amount : Int)
      : tape.attemptAdd amount
        = match tape.added amount with
          | .error cause => { tape, fault? := some cause.raised }
          | .ok next => { tape := next } := by
    unfold attemptAdd added
    cases tape.sum amount <;> rfl
  cases operation with
  | write value => rfl
  | move distance => exact moves distance
  | add amount | subtract amount | increment | decrement => exact adds _

theorem attempt_of_ok {tape next : Tape} {operation : Operation}
    (h : tape.apply operation = .ok next)
    : tape.attempt operation = { tape := next } := by
  rw [attempt_eq, h]

theorem attempt_of_error {tape : Tape} {operation : Operation} {cause : Fault}
    (h : tape.apply operation = .error cause)
    : tape.attempt operation = { tape, fault? := some cause.raised } := by
  rw [attempt_eq, h]

/-- The tape that operations leave behind when they are attempted in order, whether they fail or
not.
-/
def performAll (tape : Tape) (operations : List Operation) : Tape :=
  operations.foldl (fun tape operation => (tape.attempt operation).tape) tape

/-- Every operation that can be done is a change, by cases on the operation. -/
theorem change_of_apply {tape next : Tape} {operation : Operation}
    (h : tape.apply operation = .ok next)
    : tape.Change next := by
  cases operation with
  | write value =>
      cases h
      exact .puts (isSignedByte_signedByte value)
  | move distance => exact change_of_moved h
  | add amount | subtract amount | increment | decrement => exact change_of_added h

theorem change_attempt (tape : Tape) (operation : Operation)
    : tape.Change (tape.attempt operation).tape := by
  cases applied : tape.apply operation with
  | error cause =>
      rw [attempt_of_error applied]
      exact .rests
  | ok next =>
      rw [attempt_of_ok applied]
      exact change_of_apply applied

/-- What a tape has from its creation on: a policy, a number of cells, a pointer that is on the
tape, and signed bytes in all cells.
-/
structure HasShape (tape : Tape) (size : Int) (policy : CellPolicy) : Prop where
  policy_eq : tape.policy = policy
  size_eq : tape.size = size
  wellFormed : tape.WellFormed

/-- Changes keep the shape, because nothing is put on the tape but signed bytes. -/
theorem HasShape.change {tape next : Tape} {size : Int} {policy : CellPolicy}
    (h : tape.HasShape size policy) (change : tape.Change next)
    : next.HasShape size policy := by
  obtain ⟨rfl, rfl, wellFormed⟩ := h
  refine ⟨?_, ?_, wellFormed.change change⟩
  · cases change <;> rfl
  · cases change with
    | rests | moves inside => rfl
    | puts signed => rw [size_put]

/-- A tape that has been made has a shape. -/
theorem hasShape_of_ofSize? {size : Int} {policy : CellPolicy} {tape : Tape}
    (made : ofSize? size policy = .ok tape)
    : tape.HasShape size policy := by
  unfold ofSize? at made
  split at made
  · contradiction
  · rename_i positive
    cases made
    refine ⟨rfl, ?_, wellFormed_blank (by omega) policy⟩
    simp only [blank, Tape.size, Array.size_replicate]
    omega

/-- Operations keep the shape, by induction on them. -/
theorem HasShape.performAll {tape : Tape} {size : Int} {policy : CellPolicy}
    (h : tape.HasShape size policy) (operations : List Operation)
    : (tape.performAll operations).HasShape size policy := by
  induction operations generalizing tape with
  | nil => exact h
  | cons operation operations ih => exact ih (h.change (tape.change_attempt operation))

/-- A tape and what has become of it differ in one place at most, the pointer or the cell
under it.
-/
structure DiffersInOnePlace (tape next : Tape) : Prop where
  place : next.cells = tape.cells ∨ next.pointer = tape.pointer
  others : ∀ address, address ≠ tape.pointer → next.cells[address]? = tape.cells[address]?

theorem Change.differsInOnePlace {tape next : Tape} (h : tape.Change next)
    : tape.DiffersInOnePlace next := by
  cases h with
  | rests | moves inside => exact ⟨Or.inl rfl, fun _ _ => rfl⟩
  | puts signed =>
      refine ⟨Or.inr rfl, ?_⟩
      intro address other
      simp [put, Ne.symm other]

/-- What operations do to a tape. An operation fails for its cause, which is also what it raises
unless a number in the message is too long to be written.
-/
structure Lawful (tape : Tape) : Prop where
  onePlace : ∀ operation, tape.DiffersInOnePlace (tape.attempt operation).tape
  failing
    : ∀ operation fault,
        (tape.attempt operation).fault? = some fault → (tape.attempt operation).tape = tape
  move_raises
    : ∀ distance fault,
        (tape.attempt (.move distance)).fault? = some fault
        ↔ ¬ (0 ≤ tape.pointer + distance ∧ tape.pointer + distance < tape.size)
          ∧ fault = (Fault.pointerOutOfRange (tape.pointer + distance) tape.size).raised
  move_fails
    : ∀ distance fault,
        (Fault.pointerOutOfRange (tape.pointer + distance) tape.size).IsWritable
        → ((tape.attempt (.move distance)).fault? = some fault
          ↔ ¬ (0 ≤ tape.pointer + distance ∧ tape.pointer + distance < tape.size)
            ∧ fault = .pointerOutOfRange (tape.pointer + distance) tape.size)
  add_raises
    : ∀ amount fault,
        (tape.attempt (.add amount)).fault? = some fault
        ↔ tape.policy = .checked
          ∧ ¬ IsSignedByte (tape.current + amount)
          ∧ fault = (Fault.cellOverflow tape.current tape.pointer).raised
  add_fails
    : ∀ amount fault,
        (Fault.cellOverflow tape.current tape.pointer).IsWritable
        → ((tape.attempt (.add amount)).fault? = some fault
          ↔ tape.policy = .checked
            ∧ ¬ IsSignedByte (tape.current + amount)
            ∧ fault = .cellOverflow tape.current tape.pointer)

/-- A move raises its cause exactly when its target is not on the tape. -/
theorem attempt_move_raises (tape : Tape) (distance : Int) (fault : Fault)
    : (tape.attempt (.move distance)).fault? = some fault
      ↔ ¬ (0 ≤ (tape.pointer : Int) + distance
            ∧ (tape.pointer : Int) + distance < tape.size)
        ∧ fault = (Fault.pointerOutOfRange (tape.pointer + distance) tape.size).raised := by
  rw [attempt_eq, apply, moved_eq]
  by_cases inside : 0 ≤ (tape.pointer : Int) + distance
      ∧ (tape.pointer : Int) + distance < tape.size
  · simp [inside]
  · simp only [inside, if_false, Option.some.injEq, not_false_iff, true_and, eq_comm]

/-- An addition raises its cause exactly when a checked cell cannot hold the sum. -/
theorem attempt_add_raises (tape : Tape) (amount : Int) (fault : Fault)
    : (tape.attempt (.add amount)).fault? = some fault
      ↔ tape.policy = .checked
        ∧ ¬ IsSignedByte (tape.current + amount)
        ∧ fault = (Fault.cellOverflow tape.current tape.pointer).raised := by
  rw [attempt_eq, apply]
  cases policy : tape.policy with
  | wrapping => simp [added_of_wrapping policy]
  | checked =>
      rw [added_of_checked policy]
      by_cases signed : IsSignedByte (tape.current + amount)
      · simp [signed]
      · simp only [signed, if_false, Option.some.injEq, not_false_iff, true_and, eq_comm]

theorem lawful (tape : Tape) : tape.Lawful where
  onePlace operation := (tape.change_attempt operation).differsInOnePlace
  failing operation fault failed := by
    cases applied : tape.apply operation with
    | error cause => rw [attempt_of_error applied]
    | ok next =>
        rw [attempt_of_ok applied] at failed
        contradiction
  move_raises := tape.attempt_move_raises
  move_fails distance fault writable := by
    rw [attempt_move_raises, Fault.raised_of_isWritable writable]
  add_raises := tape.attempt_add_raises
  add_fails amount fault writable := by
    rw [attempt_add_raises, Fault.raised_of_isWritable writable]

end Tape

-----------------------------------------------------------------------------------------
-- Engines
-----------------------------------------------------------------------------------------

namespace Machine

/-- What a unit does to the tape is one change, because only its action touches the store. -/
theorem change_of_effect {machine : Machine} {unit : CodeUnit} {store : Store}
    {passage : Passage} (h : machine.effect unit = .ok (store, passage))
    : machine.tape.Change store.tape := by
  cases does : unit.action? with
  | none =>
      rw [effect_of_no_action machine does] at h
      split at h
      · contradiction
      · cases h
        exact .rests
  | some action =>
      rw [effect_of_action machine does] at h
      cases acted : machine.store.act action with
      | error fault => simp [acted] at h
      | ok next =>
          rw [acted] at h
          cases h
          exact Store.change_of_act acted

/-- A step changes the tape once at most, by cases on what the step does. -/
theorem change_step (machine : Machine) : machine.tape.Change machine.step.machine.tape := by
  cases machine.stepping with
  | completed done step | missing unfinished front kind step =>
      rw [step]
      exact .rests
  | fails unfinished inside announced effect step =>
      rw [step]
      exact .rests
  | passes unfinished inside announced effect step =>
      rw [step]
      exact change_of_effect effect

/-- Attempted steps keep the shape of the tape, by induction on them. -/
theorem Reachable.hasShape {start machine : Machine} {size : Int} {policy : CellPolicy}
    (shape : start.tape.HasShape size policy) (h : Reachable start machine)
    : machine.tape.HasShape size policy := by
  induction h with
  | start => exact shape
  | @step machine _ ih => exact ih.change machine.change_step

end Machine

/-- Memory keeps its shape. After any operations a tape has as many cells as it was made with,
the pointer is on it, and all cells hold signed bytes; operations change one place at most,
and fail exactly at the ends of the tape and of checked cells. The tape of every machine has
the same shape, whatever it executes and however often its steps have failed; each step changes
one place at most, and none when it fails.
-/
theorem memory_keeps_shape {size : Int} {policy : CellPolicy} {fresh : Tape}
    (made : Tape.ofSize? size policy = .ok fresh)
    : (∀ operations,
        (fresh.performAll operations).HasShape size policy
        ∧ (fresh.performAll operations).Lawful)
      ∧ ∀ code input output machine,
          Machine.Reachable { code, tape := fresh, input, output } machine
          → machine.tape.HasShape size policy
            ∧ machine.tape.DiffersInOnePlace machine.step.machine.tape
            ∧ ∀ fault,
                machine.step.fault? = some fault
                → machine.step.machine.tape = machine.tape := by
  have shape := Tape.hasShape_of_ofSize? made
  constructor
  · intro operations
    exact ⟨shape.performAll operations, Tape.lawful _⟩
  · intro code input output machine reachable
    refine ⟨reachable.hasShape shape, machine.change_step.differsInOnePlace, ?_⟩
    intro fault fails
    obtain ⟨metrics, left⟩ := Machine.exists_metrics_of_fault fails
    rw [left]
    rfl

/-- Two checked cells, after operations of which every other one fails, and under instructions
that reach far outside.
-/
theorem memory_keeps_shape_of_two_cells
    : ∃ fresh,
        Tape.ofSize? 2 .checked = .ok fresh
        ∧ fresh.performAll
            [.write 200, .move 2, .move 1, .add 128, .subtract 128, .decrement]
          = { policy := .checked, cells := #[-56, -128], pointer := 1 }
        ∧ Tape.Lawful { policy := .checked, cells := #[-56, -128], pointer := 1 }
        ∧ ∀ machine,
            Machine.Reachable
                {
                  code :=
                    .instructions
                      #[{ opcode := .moveLeft, operand := -1 },
                        { opcode := .subtract, operand := -1000 },
                        { opcode := .jumpIfZero, operand := -2 }]
                  tape := fresh
                }
                machine
            → machine.tape.HasShape 2 .checked := by
  have made : Tape.ofSize? 2 .checked = .ok _ := rfl
  obtain ⟨operations, engines⟩ := memory_keeps_shape made
  have left
      : (Tape.blank 2 .checked).performAll
            [.write 200, .move 2, .move 1, .add 128, .subtract 128, .decrement]
          = { policy := .checked, cells := #[-56, -128], pointer := 1 } := by
    decide
  refine ⟨_, made, left, left ▸ (operations _).2, ?_⟩
  intro machine reachable
  exact (engines _ _ _ _ reachable).1

end Brainfuck
