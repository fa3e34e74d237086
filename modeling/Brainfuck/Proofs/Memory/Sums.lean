import Brainfuck.Channel
import Brainfuck.Proofs.Memory.Shape
import Brainfuck.Proofs.Text.Numerals
import Mathlib.Algebra.BigOperators.Group.List.Basic
import Mathlib.Algebra.Ring.Int.Defs

/-! Sums on a tape.
One operation by a number is as good as that number of operations by one, but that it fails at once
and that the target of a failing move may be too long to be written. Additions to one cell depend on
nothing but their exact sum as long as the cell wraps; a checked cell takes them as long as no sum
on the way leaves the signed bytes, and then it holds the exact sum too.
-/

namespace Brainfuck

/-- The byte written for a signed byte is the number that it stands for, modulo 256. -/
theorem toNat_lowByte_signedByte (value : Int)
    : ((lowByte (signedByte value)).toNat : Int) = value % 256 := by
  have same : signedByte value % 256 = value % 256 := Int.bmod_emod
  have lower : 0 ≤ value % 256 := Int.emod_nonneg value (by decide)
  have upper : value % 256 < 256 := Int.emod_lt_of_pos value (by decide)
  have small : (value % 256).toNat < UInt8.size := by
    simp only [UInt8.size]
    omega
  rw [lowByte, same, UInt8.toNat_ofNat_of_lt' small, Int.toNat_of_nonneg lower]

namespace Tape

-----------------------------------------------------------------------------------------
-- Operations in order
-----------------------------------------------------------------------------------------

/-- Attempts operations in order, up to the first that fails. -/
def attemptInOrder (tape : Tape) : List Operation → Attempt
  | [] => { tape }
  | first :: rest =>
      match tape.attempt first with
      | { tape := next, fault? := none } => next.attemptInOrder rest
      | failed => failed

/-- What operations in order make of a tape, or the cause why the first that fails cannot be
done.
-/
def applyInOrder (tape : Tape) : List Operation → Except Fault Tape
  | [] => .ok tape
  | first :: rest =>
      match tape.apply first with
      | .error cause => .error cause
      | .ok next => next.applyInOrder rest

/-- Attempts come to what the operations make of the tape, by induction on the operations. -/
theorem attemptInOrder_of_ok {tape final : Tape} {operations : List Operation}
    (h : tape.applyInOrder operations = .ok final)
    : tape.attemptInOrder operations = { tape := final } := by
  induction operations generalizing tape with
  | nil =>
      cases h
      rfl
  | cons first rest ih =>
      unfold applyInOrder at h
      split at h
      · contradiction
      · rename_i applied
        unfold attemptInOrder
        rw [attempt_of_ok applied]
        exact ih h

/-- Attempts raise the cause of the first that fails, by induction on the operations. -/
theorem attemptInOrder_of_error {tape : Tape} {operations : List Operation} {cause : Fault}
    (h : tape.applyInOrder operations = .error cause)
    : (tape.attemptInOrder operations).fault? = some cause.raised := by
  induction operations generalizing tape with
  | nil => contradiction
  | cons first rest ih =>
      unfold applyInOrder at h
      unfold attemptInOrder
      split at h
      · rename_i applied
        cases h
        rw [attempt_of_error applied]
      · rename_i applied
        rw [attempt_of_ok applied]
        exact ih h

/-- Equal operations in order are a repetition, by induction on their number. -/
theorem applyInOrder_replicate (tape : Tape) (turns : Nat) (operation : Operation)
    : tape.applyInOrder (List.replicate turns operation)
      = repeated (apply · operation) turns tape := by
  induction turns generalizing tape with
  | zero => rfl
  | succ turns ih =>
      rw [List.replicate_succ, applyInOrder, repeated]
      cases tape.apply operation with
      | error cause => rfl
      | ok next => exact ih next

-----------------------------------------------------------------------------------------
-- Operations by one
-----------------------------------------------------------------------------------------

/-- Operations by one, on the current cell or of the pointer. -/
inductive UnitOperation where
  | increment
  | decrement
  | moveRight
  | moveLeft
deriving DecidableEq, Repr

/-- An operation by one, done once. -/
def UnitOperation.once : UnitOperation → Operation
  | .increment => .increment
  | .decrement => .decrement
  | .moveRight => .move 1
  | .moveLeft => .move (-1)

/-- The operation that does at once what an operation by one does in a number of turns. -/
def UnitOperation.times (unit : UnitOperation) (turns : Nat) : Operation :=
  match unit with
  | .increment => .add turns
  | .decrement => .subtract turns
  | .moveRight => .move turns
  | .moveLeft => .move (-turns)

/-- An operation by a number is that number of operations by one, in either direction. -/
theorem agree_repeated_apply {tape : Tape} (wellFormed : tape.WellFormed)
    (unit : UnitOperation) (turns : Nat)
    : AgreeUpToKind (tape.apply (unit.times turns))
        (repeated (apply · unit.once) turns tape) := by
  have right : IsUnit 1 := Or.inl rfl
  have left : IsUnit (-1) := Or.inr rfl
  have forward : 1 * (turns : Int) = turns := Int.one_mul _
  have backward : -1 * (turns : Int) = -turns := Int.neg_one_mul _
  cases unit with
  | increment =>
      have adds := agree_repeated_added wellFormed right turns
      rwa [forward] at adds
  | decrement =>
      have adds := agree_repeated_added wellFormed left turns
      rwa [backward] at adds
  | moveRight =>
      have moves := agree_repeated_moved wellFormed right turns
      rwa [forward] at moves
  | moveLeft =>
      have moves := agree_repeated_moved wellFormed left turns
      rwa [backward] at moves

-----------------------------------------------------------------------------------------
-- What failing operations raise
-----------------------------------------------------------------------------------------

/-- The number that the message of a failing operation shows besides those of the tape, the target
of a move, is short enough to be written.
-/
def TargetIsShort (tape : Tape) : Operation → Prop
  | .move distance => Text.IsShort (tape.pointer + distance)
  | _ => True

/-- A move with a short target raises a fault of the same kind as moves by one that have failed in
either direction, because these fail next to the tape.
-/
theorem kind_raised_of_moves {tape : Tape} (wellFormed : tape.WellFormed) {sign : Int}
    (unit : IsUnit sign) {distance : Int} {turns : Nat} {cause other : Fault}
    (single : tape.moved distance = .error cause)
    (inOrder : repeated (moved · sign) turns tape = .error other)
    (short : Text.IsShort (tape.pointer + distance))
    : cause.raised.kind = other.raised.kind := by
  obtain ⟨_, rfl⟩ := of_moved_error single
  obtain ⟨turn, _, reached, before, failed⟩ := exists_turn_of_repeated inOrder
  have keeps {place next : Tape} (kept : place.WellFormed ∧ place.size = tape.size)
      (moves : place.moved sign = .ok next)
      : next.WellFormed ∧ next.size = tape.size := by
    have change := change_of_moved moves
    refine ⟨kept.1.change change, ?_⟩
    cases change with
    | rests | moves inside => exact kept.2
    | puts signed => exact (size_put _ _).trans kept.2
  have kept := keeps_of_repeated keeps ⟨wellFormed, rfl⟩ before
  obtain ⟨outside, rfl⟩ := of_moved_error failed
  have inside := kept.1.pointer_lt
  rw [kept.2] at outside inside ⊢
  have next : ((reached.pointer : Int) + sign).natAbs ≤ (tape.size : Int).natAbs := by
    rcases unit with rfl | rfl <;> omega
  refine Fault.kind_raised_eq rfl ?_
  rw [Fault.isWritable_pointerOutOfRange, Fault.isWritable_pointerOutOfRange]
  constructor
  · rintro ⟨_, size⟩
    exact ⟨Text.isShort_of_natAbs_le next size, size⟩
  · rintro ⟨_, size⟩
    exact ⟨short, size⟩

/-- Additions that fail raise faults of the same kind, because the pointer stays and all that a
cell can hold is short.
-/
theorem kind_raised_of_additions {tape : Tape} (wellFormed : tape.WellFormed) {sign : Int}
    {amount : Int} {turns : Nat} {cause other : Fault}
    (single : tape.added amount = .error cause)
    (inOrder : repeated (added · sign) turns tape = .error other)
    : cause.raised.kind = other.raised.kind := by
  obtain ⟨_, rfl⟩ := of_added_error single
  obtain ⟨turn, _, reached, before, failed⟩ := exists_turn_of_repeated inOrder
  have keeps {place next : Tape} (kept : place.WellFormed ∧ place.pointer = tape.pointer)
      (adds : place.added sign = .ok next)
      : next.WellFormed ∧ next.pointer = tape.pointer := by
    refine ⟨kept.1.change (change_of_added adds), ?_⟩
    unfold added at adds
    split at adds
    · contradiction
    · cases adds
      exact kept.2
  have kept := keeps_of_repeated keeps ⟨wellFormed, rfl⟩ before
  obtain ⟨_, rfl⟩ := of_added_error failed
  refine Fault.kind_raised_eq rfl ?_
  rw [Fault.isWritable_cellOverflow, Fault.isWritable_cellOverflow, kept.2]
  simp only [isShort_of_isSignedByte wellFormed.current_signed,
    isShort_of_isSignedByte kept.1.current_signed, true_and]

/-- A single operation with a short target and its operations by one raise faults of one kind, by
cases on the operation.
-/
theorem kind_raised_of_units {tape : Tape} (wellFormed : tape.WellFormed) {unit : UnitOperation}
    {turns : Nat} {cause other : Fault}
    (single : tape.apply (unit.times turns) = .error cause)
    (inOrder : repeated (apply · unit.once) turns tape = .error other)
    (short : tape.TargetIsShort (unit.times turns))
    : cause.raised.kind = other.raised.kind := by
  cases unit with
  | increment | decrement => exact kind_raised_of_additions wellFormed single inOrder
  | moveRight => exact kind_raised_of_moves wellFormed (Or.inl rfl) single inOrder short
  | moveLeft => exact kind_raised_of_moves wellFormed (Or.inr rfl) single inOrder short

/-- An operation whose target is not short cannot write the message of its failure. -/
theorem raised_of_long_target {tape : Tape} {operation : Operation} {cause : Fault}
    (h : tape.apply operation = .error cause) (long : ¬ tape.TargetIsShort operation)
    : cause.raised = .integerFault .unwritable := by
  cases operation with
  | move distance =>
      obtain ⟨_, rfl⟩ := of_moved_error h
      apply Fault.raised_of_not_isWritable
      rw [Fault.isWritable_pointerOutOfRange]
      exact fun writable => long writable.1
  | write value | add amount | subtract amount | increment | decrement =>
      exact absurd trivial long

/-- A single operation by a number does what that number of operations by one does, up to the first
that fails. When it fails it leaves the tape alone, and raises a fault of the same kind, unless the
target of a move is too long to be written.
-/
structure DoesAtOnce (tape : Tape) (unit : UnitOperation) (turns : Nat) : Prop where
  done_iff
    : (tape.attempt (unit.times turns)).fault? = none
      ↔ (tape.attemptInOrder (List.replicate turns unit.once)).fault? = none
  sameTape
    : (tape.attempt (unit.times turns)).fault? = none
      → (tape.attempt (unit.times turns)).tape
        = (tape.attemptInOrder (List.replicate turns unit.once)).tape
  leaves
    : ∀ fault,
        (tape.attempt (unit.times turns)).fault? = some fault
        → (tape.attempt (unit.times turns)).tape = tape
  sameKind
    : ∀ fault other,
        (tape.attempt (unit.times turns)).fault? = some fault
        → (tape.attemptInOrder (List.replicate turns unit.once)).fault? = some other
        → tape.TargetIsShort (unit.times turns)
        → fault.kind = other.kind
  unwritable
    : ∀ fault,
        (tape.attempt (unit.times turns)).fault? = some fault
        → ¬ tape.TargetIsShort (unit.times turns)
        → fault = .integerFault .unwritable

/-- Both ways are done or both fail, by cases on what the operations by one come to. -/
theorem doesAtOnce {tape : Tape} (wellFormed : tape.WellFormed) (unit : UnitOperation)
    (turns : Nat)
    : tape.DoesAtOnce unit turns := by
  have agree := agree_repeated_apply wellFormed unit turns
  have leaves := tape.lawful.failing (unit.times turns)
  have replicated := tape.applyInOrder_replicate turns unit.once
  cases inOrder : repeated (apply · unit.once) turns tape with
  | ok final =>
      have single := attempt_of_ok ((inOrder ▸ agree).eq_ok)
      have each := attemptInOrder_of_ok (replicated.trans inOrder)
      constructor
      · rw [single, each]
      · rw [single, each]
        exact fun _ => rfl
      · exact leaves
      · rw [single]
        rintro _ _ ⟨⟩
      · rw [single]
        rintro _ ⟨⟩
  | error other =>
      obtain ⟨cause, applied, _⟩ := (inOrder ▸ agree).exists_error
      have single := attempt_of_error applied
      have each := attemptInOrder_of_error (replicated.trans inOrder)
      constructor
      · rw [single, each]
        simp
      · rw [single]
        nofun
      · exact leaves
      · rw [single, each]
        rintro _ _ ⟨⟩ ⟨⟩ short
        exact kind_raised_of_units wellFormed applied inOrder short
      · rw [single]
        rintro _ ⟨⟩ long
        exact raised_of_long_target applied long

-----------------------------------------------------------------------------------------
-- Additions to one cell
-----------------------------------------------------------------------------------------

/-- Additions to the current cell and subtractions from it, of numbers of any size. -/
inductive Adjustment where
  | add (amount : Int)
  | subtract (amount : Int)
deriving DecidableEq, Repr

namespace Adjustment

/-- The operation that makes an adjustment. -/
def operation : Adjustment → Operation
  | .add amount => .add amount
  | .subtract amount => .subtract amount

/-- The exact number that an adjustment adds. -/
def change : Adjustment → Int
  | .add amount => amount
  | .subtract amount => -amount

/-- The exact number that adjustments add together. -/
def total (adjustments : List Adjustment) : Int :=
  (adjustments.map change).sum

@[simp] theorem total_nil : total [] = 0 :=
  rfl

@[simp] theorem total_cons (first : Adjustment) (rest : List Adjustment)
    : total (first :: rest) = first.change + total rest := by
  simp [total]

/-- The order of adjustments does not change what they add together. -/
theorem total_of_perm {adjustments others : List Adjustment} (h : others.Perm adjustments)
    : total others = total adjustments :=
  (h.map change).sum_eq

/-- Groups of adjustments add together what all of them add, by induction on the groups. -/
theorem total_of_groups (groups : List (List Adjustment))
    : total (groups.map fun group => .add (total group)) = total groups.flatten := by
  induction groups with
  | nil => rfl
  | cons group groups ih =>
      rw [List.map_cons, total_cons, ih, List.flatten_cons]
      simp [total, change]

end Adjustment

/-- Attempts to adjust the current cell in order, up to the first adjustment that fails. -/
def attemptAdjust (tape : Tape) (adjustments : List Adjustment) : Attempt :=
  tape.attemptInOrder (adjustments.map Adjustment.operation)

/-- The tape with its current cell adjusted in order, or the cause why it cannot be. -/
def adjusted (tape : Tape) (adjustments : List Adjustment) : Except Fault Tape :=
  tape.applyInOrder (adjustments.map Adjustment.operation)

@[simp] theorem adjusted_nil (tape : Tape) : tape.adjusted [] = .ok tape :=
  rfl

/-- An adjustment adds its exact number; to subtract is to add the opposite. -/
theorem adjusted_cons (tape : Tape) (first : Adjustment) (rest : List Adjustment)
    : tape.adjusted (first :: rest)
      = match tape.added first.change with
        | .error cause => .error cause
        | .ok next => next.adjusted rest := by
  cases first <;> rfl

/-- Adjustments of a cell that wraps come to their exact sum, reduced once, by induction on
them; reducing on the way does not matter.
-/
theorem adjusted_of_wrapping {tape : Tape} (wellFormed : tape.WellFormed)
    (policy : tape.policy = .wrapping) (adjustments : List Adjustment)
    : tape.adjusted adjustments
      = .ok (tape.put (signedByte (tape.current + Adjustment.total adjustments))) := by
  induction adjustments generalizing tape with
  | nil =>
      rw [adjusted_nil, Adjustment.total_nil, Int.add_zero,
        signedByte_of_isSignedByte wellFormed.current_signed, put_current wellFormed]
  | cons first rest ih =>
      have signed := isSignedByte_signedByte (tape.current + first.change)
      have policyNext
          : (tape.put (signedByte (tape.current + first.change))).policy = .wrapping :=
        policy
      simp only [adjusted_cons, added_of_wrapping policy]
      rw [ih (wellFormed.put signed) policyNext, put_put, current_put wellFormed.pointer_lt,
        signedByte_add_signedByte, Adjustment.total_cons, Int.add_assoc]

/-- No sum of adjustments on the way from a value leaves the signed bytes. -/
def StaysSigned (value : Int) (adjustments : List Adjustment) : Prop :=
  ∀ front, front <+: adjustments → IsSignedByte (value + Adjustment.total front)

theorem staysSigned_nil {value : Int} : StaysSigned value [] ↔ IsSignedByte value := by
  simp [StaysSigned]

/-- The sums on the way are the value itself and those on the way from the first sum. -/
theorem staysSigned_cons {value : Int} {first : Adjustment} {rest : List Adjustment}
    : StaysSigned value (first :: rest)
      ↔ IsSignedByte value ∧ StaysSigned (value + first.change) rest := by
  constructor
  · intro stays
    constructor
    · simpa using stays [] (List.nil_prefix)
    · intro front inFront
      have signed := stays (first :: front) (List.cons_prefix_cons.mpr ⟨rfl, inFront⟩)
      rwa [Adjustment.total_cons, ← Int.add_assoc] at signed
  · rintro ⟨signed, stays⟩ front inFront
    rcases List.prefix_cons_iff.mp inFront with rfl | ⟨later, rfl, inRest⟩
    · simpa using signed
    · rw [Adjustment.total_cons, ← Int.add_assoc]
      exact stays later inRest

/-- The first sum is on the way. -/
theorem StaysSigned.start {value : Int} {adjustments : List Adjustment}
    (h : StaysSigned value adjustments)
    : IsSignedByte value := by
  simpa using h [] List.nil_prefix

/-- Adjustments of a checked cell come to their exact sum as long as no sum on the way leaves
the signed bytes, and fail otherwise, by induction on them.
-/
theorem adjusted_of_checked {tape : Tape} (wellFormed : tape.WellFormed)
    (policy : tape.policy = .checked) (adjustments : List Adjustment)
    : (StaysSigned tape.current adjustments
        → tape.adjusted adjustments
          = .ok (tape.put (tape.current + Adjustment.total adjustments)))
      ∧ (¬ StaysSigned tape.current adjustments
        → ∃ cause, tape.adjusted adjustments = .error cause ∧ cause.kind = .cellOverflow) := by
  induction adjustments generalizing tape with
  | nil =>
      constructor
      · intro _
        rw [adjusted_nil, Adjustment.total_nil, Int.add_zero, put_current wellFormed]
      · intro leaves
        exact absurd (staysSigned_nil.mpr wellFormed.current_signed) leaves
  | cons first rest ih =>
      have stays_iff
          : StaysSigned tape.current (first :: rest)
            ↔ StaysSigned (tape.current + first.change) rest := by
        rw [staysSigned_cons, and_iff_right wellFormed.current_signed]
      simp only [adjusted_cons, added_of_checked policy, stays_iff]
      by_cases signed : IsSignedByte (tape.current + first.change)
      · have policyNext : (tape.put (tape.current + first.change)).policy = .checked := policy
        have later := ih (wellFormed.put signed) policyNext
        rw [current_put wellFormed.pointer_lt, put_put, Int.add_assoc,
          ← Adjustment.total_cons] at later
        simpa only [signed, if_true] using later
      · constructor
        · intro stays
          exact absurd stays.start signed
        · intro _
          exact ⟨_, by simp only [signed, if_false]; rfl, rfl⟩

/-- What adjustments make of a cell that wraps: a tape that holds their exact sum, reduced once,
whatever their order and however they are grouped.
-/
structure WrapsTo (tape : Tape) (adjustments : List Adjustment) (final : Tape) : Prop where
  made : tape.attemptAdjust adjustments = { tape := final }
  cell : final.current = signedByte (tape.current + Adjustment.total adjustments)
  elsewhere : final = tape.put final.current
  reordered
    : ∀ others, others.Perm adjustments → tape.attemptAdjust others = { tape := final }
  regrouped
    : ∀ groups : List (List Adjustment),
        groups.flatten = adjustments
        → tape.attemptAdjust (groups.map fun group => .add (Adjustment.total group))
          = { tape := final }
  written
    : ∃ byte : UInt8,
        (byte.toNat : Int) = (tape.current + Adjustment.total adjustments) % 256
        ∧ ∀ bytes, (Output.collected bytes).write final.current = .collected (bytes.push byte)

theorem wrapsTo {tape : Tape} (wellFormed : tape.WellFormed) (policy : tape.policy = .wrapping)
    (adjustments : List Adjustment)
    : tape.WrapsTo adjustments
        (tape.put (signedByte (tape.current + Adjustment.total adjustments))) := by
  have cell := current_put wellFormed.pointer_lt
    (signedByte (tape.current + Adjustment.total adjustments))
  have made (others : List Adjustment)
      : tape.attemptAdjust others
        = { tape := tape.put (signedByte (tape.current + Adjustment.total others)) } :=
    attemptInOrder_of_ok (adjusted_of_wrapping wellFormed policy others)
  exact
    {
      made := made adjustments
      cell
      elsewhere := by rw [cell]
      reordered := by
        intro others reordered
        rw [made, Adjustment.total_of_perm reordered]
      regrouped := by
        intro groups regrouped
        rw [made, Adjustment.total_of_groups, regrouped]
      written := by
        refine ⟨lowByte (signedByte (tape.current + Adjustment.total adjustments)),
          toNat_lowByte_signedByte _, ?_⟩
        intro bytes
        rw [cell]
        rfl
    }

/-- What adjustments make of a checked cell: it takes them as long as no sum on the way leaves
the signed bytes, and holds their exact sum then.
-/
structure ChecksTo (tape : Tape) (adjustments : List Adjustment) : Prop where
  made_iff
    : (tape.attemptAdjust adjustments).fault? = none ↔ StaysSigned tape.current adjustments
  cell
    : ∀ final,
        tape.attemptAdjust adjustments = { tape := final }
        → final.current = tape.current + Adjustment.total adjustments
          ∧ final = tape.put final.current
  overflows
    : ∀ fault,
        (tape.attemptAdjust adjustments).fault? = some fault
        → ∃ cause : Fault, fault = cause.raised ∧ cause.kind = .cellOverflow

theorem checksTo {tape : Tape} (wellFormed : tape.WellFormed) (policy : tape.policy = .checked)
    (adjustments : List Adjustment)
    : tape.ChecksTo adjustments := by
  obtain ⟨takes, refuses⟩ := adjusted_of_checked wellFormed policy adjustments
  have cell := current_put wellFormed.pointer_lt (tape.current + Adjustment.total adjustments)
  by_cases stays : StaysSigned tape.current adjustments
  · have made : tape.attemptAdjust adjustments = _ := attemptInOrder_of_ok (takes stays)
    constructor
    · rw [made]
      exact iff_of_true rfl stays
    · intro final same
      cases made.symm.trans same
      exact ⟨cell, by rw [cell]⟩
    · rw [made]
      nofun
  · obtain ⟨cause, failed, kind⟩ := refuses stays
    have raises : (tape.attemptAdjust adjustments).fault? = some cause.raised :=
      attemptInOrder_of_error failed
    constructor
    · rw [raises]
      exact iff_of_false nofun stays
    · intro final made
      rw [made] at raises
      contradiction
    · intro fault same
      obtain rfl := Option.some.inj (raises.symm.trans same)
      exact ⟨cause, rfl, kind⟩

-----------------------------------------------------------------------------------------
-- Arithmetic
-----------------------------------------------------------------------------------------

/-- Arithmetic adds up. A single operation by a number does what that number of operations by one
does, up to the first that fails, and leaves the tape alone when it fails; what it raises then is
of the same kind, unless the target of a move is too long to be written. Adjustments of one cell
come to their exact sum, reduced once where cells wrap and as it is where they are checked.
-/
theorem arithmetic_adds_up {tape : Tape} (wellFormed : tape.WellFormed)
    : (∀ unit turns, tape.DoesAtOnce unit turns)
      ∧ (tape.policy = .wrapping
        → ∀ adjustments, ∃ final, tape.WrapsTo adjustments final)
      ∧ (tape.policy = .checked → ∀ adjustments, tape.ChecksTo adjustments) := by
  refine ⟨doesAtOnce wellFormed, ?_, ?_⟩
  · intro policy adjustments
    exact ⟨_, wrapsTo wellFormed policy adjustments⟩
  · intro policy adjustments
    exact checksTo wellFormed policy adjustments

/-- Next to the largest signed byte: 28 increments overflow like the addition of 28. A cell that
wraps takes any sum, and a checked one refuses what it passes through only for a moment.
-/
theorem arithmetic_adds_up_next_to_limit
    : ∃ wrapping checked : Tape,
        wrapping = { policy := .wrapping, cells := #[100, 0], pointer := 0 }
        ∧ checked = { policy := .checked, cells := #[100, 0], pointer := 0 }
        ∧ wrapping.WellFormed
        ∧ checked.WellFormed
        ∧ checked.attempt (UnitOperation.increment.times 28)
          = { tape := checked, fault? := some (.cellOverflow 100 0) }
        ∧ checked.DoesAtOnce .increment 28
        ∧ wrapping.DoesAtOnce .moveLeft 3
        ∧ wrapping.WrapsTo [.add 1000, .subtract (-2000)]
            { policy := .wrapping, cells := #[28, 0], pointer := 0 }
        ∧ (checked.attemptAdjust [.add 28, .subtract 28]).fault? ≠ none := by
  have signed : ∀ value ∈ #[(100 : Int), 0], IsSignedByte value := by decide
  have wraps
      : WellFormed { policy := .wrapping, cells := #[100, 0], pointer := 0 } :=
    ⟨by decide, signed⟩
  have checks
      : WellFormed { policy := .checked, cells := #[100, 0], pointer := 0 } :=
    ⟨by decide, signed⟩
  obtain ⟨moves, wrapped, _⟩ := arithmetic_adds_up wraps
  obtain ⟨units, _, checked⟩ := arithmetic_adds_up checks
  refine ⟨_, _, rfl, rfl, wraps, checks, by decide, units _ _, moves _ _, ?_, ?_⟩
  · obtain ⟨final, sum⟩ := wrapped rfl [.add 1000, .subtract (-2000)]
    have made
        : attemptAdjust { policy := .wrapping, cells := #[100, 0], pointer := 0 }
              [.add 1000, .subtract (-2000)]
          = { tape := { policy := .wrapping, cells := #[28, 0], pointer := 0 } } := by
      decide
    cases sum.made.symm.trans made
    exact sum
  · intro taken
    have stays := (checked rfl [.add 28, .subtract 28]).made_iff.mp taken
    have outside := stays [.add 28] (by decide)
    exact absurd outside (by decide)

/-- On the second of two cells a move to the least address that is too long to be written raises
something else than the moves by one, of which already the first one fails.
-/
theorem kinds_differ_at_long_target
    : ∃ tape : Tape,
        tape = { policy := .wrapping, cells := #[0, 0], pointer := 1 }
        ∧ tape.WellFormed
        ∧ ∃ turns : Nat,
            turns = 10 ^ Text.maxDigits - 1
            ∧ ∃ fault other,
                (tape.attempt (UnitOperation.moveRight.times turns)).fault? = some fault
                ∧ (tape.attemptInOrder
                    (List.replicate turns UnitOperation.moveRight.once)).fault?
                  = some other
                ∧ fault.kind = .badValue
                ∧ other.kind = .pointerOutOfRange := by
  have large : 10 ≤ 10 ^ Text.maxDigits := Nat.le_self_pow (by decide) 10
  obtain ⟨more, turns⟩ : ∃ more, 10 ^ Text.maxDigits - 1 = more + 1 :=
    ⟨10 ^ Text.maxDigits - 2, by omega⟩
  have target : (1 : Int) + ((10 ^ Text.maxDigits - 1 : Nat) : Int) = 10 ^ Text.maxDigits := by
    have power : ((10 ^ Text.maxDigits : Nat) : Int) = 10 ^ Text.maxDigits :=
      Int.natCast_pow 10 _
    omega
  refine ⟨_, rfl, ⟨by decide, by decide⟩, _, rfl, .integerFault .unwritable,
    .pointerOutOfRange 2 2, ?_, ?_, rfl, rfl⟩
  · refine (attempt_move_raises _ _ _).mpr ⟨?_, ?_⟩
    · show ¬ (0 ≤ (1 : Int) + ((10 ^ Text.maxDigits - 1 : Nat) : Int)
        ∧ (1 : Int) + ((10 ^ Text.maxDigits - 1 : Nat) : Int) < (2 : Nat))
      omega
    · symm
      apply Fault.raised_of_not_isWritable
      rw [Fault.isWritable_pointerOutOfRange]
      show ¬ (Text.IsShort ((1 : Int) + ((10 ^ Text.maxDigits - 1 : Nat) : Int)) ∧ _)
      rw [target]
      exact fun writable => Text.not_isShort_pow writable.1
  · rw [turns]
    rfl

end Tape

end Brainfuck
