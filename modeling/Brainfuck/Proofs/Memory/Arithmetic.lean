import Brainfuck.Tape

/-! Arithmetic of tapes: moves add up, additions add up, and one move or addition by a number
is that number of moves or additions by one.
Repetition stops at its first failure. The single operation fails for the same kind of
cause then.
-/

namespace Brainfuck

/-- Repeats an operation, up to its first failure. -/
def repeated {α : Type} (operation : α → Except Fault α) : Nat → α → Except Fault α
  | 0, value => .ok value
  | times + 1, value =>
      match operation value with
      | .error fault => .error fault
      | .ok next => repeated operation times next

/-- A repetition that fails does so at a definite turn, by induction on the turns. -/
theorem exists_turn_of_repeated {α : Type} {operation : α → Except Fault α} {times : Nat}
    {value : α} {fault : Fault} (h : repeated operation times value = .error fault)
    : ∃ turn < times, ∃ reached,
        repeated operation turn value = .ok reached ∧ operation reached = .error fault := by
  induction times generalizing value with
  | zero => contradiction
  | succ times ih =>
      unfold repeated at h
      split at h
      · cases h
        exact ⟨0, by omega, value, rfl, by assumption⟩
      · rename_i next done
        obtain ⟨turn, lt, reached, before, failed⟩ := ih h
        exact ⟨turn + 1, by omega, reached, by simp only [repeated, done, before], failed⟩

/-- A repetition that succeeds does so at every turn before, by induction on the turns. -/
theorem repeated_ok_of_le {α : Type} {operation : α → Except Fault α} {times fewer : Nat}
    {value last : α} (h : repeated operation times value = .ok last) (le : fewer ≤ times)
    : ∃ reached, repeated operation fewer value = .ok reached := by
  induction fewer generalizing times value with
  | zero => exact ⟨value, rfl⟩
  | succ fewer ih =>
      obtain ⟨times, rfl⟩ : ∃ more, times = more + 1 := ⟨times - 1, by omega⟩
      unfold repeated at h ⊢
      split at h
      · contradiction
      · exact ih h (by omega)

/-- What an operation keeps, its repetition keeps, by induction on the turns. -/
theorem keeps_of_repeated {α : Type} {operation : α → Except Fault α} {holds : α → Prop}
    (keeps : ∀ {value next}, holds value → operation value = .ok next → holds next)
    {times : Nat} {value last : α} (start : holds value)
    (h : repeated operation times value = .ok last)
    : holds last := by
  induction times generalizing value with
  | zero =>
      cases h
      exact start
  | succ times ih =>
      unfold repeated at h
      split at h
      · contradiction
      · exact ih (keeps start ‹_›) h

/-- Two results are the same value, or faults of one kind. -/
inductive AgreeUpToKind {α : Type} : Except Fault α → Except Fault α → Prop
  | ok (value : α) : AgreeUpToKind (.ok value) (.ok value)
  | error {left right : Fault} (same : left.kind = right.kind)
    : AgreeUpToKind (.error left) (.error right)

theorem AgreeUpToKind.eq_ok {α : Type} {left : Except Fault α} {value : α}
    (h : AgreeUpToKind left (.ok value))
    : left = .ok value := by
  cases h
  rfl

theorem AgreeUpToKind.exists_error {α : Type} {left : Except Fault α} {fault : Fault}
    (h : AgreeUpToKind left (.error fault))
    : ∃ other, left = .error other ∧ other.kind = fault.kind := by
  cases h with
  | error same => exact ⟨_, rfl, same⟩

theorem AgreeUpToKind.trans {α : Type} {left middle right : Except Fault α}
    (hl : AgreeUpToKind left middle) (hr : AgreeUpToKind middle right)
    : AgreeUpToKind left right := by
  cases hl with
  | ok => exact hr
  | error first =>
      cases hr with
      | error second => exact .error (first.trans second)

namespace Tape

/-- A move succeeds exactly when its target is on the tape. -/
theorem moved_eq (tape : Tape) (distance : Int)
    : tape.moved distance
      = if 0 ≤ tape.pointer + distance ∧ tape.pointer + distance < tape.size then
          .ok { tape with pointer := (tape.pointer + distance).toNat }
        else .error (.pointerOutOfRange (tape.pointer + distance) tape.size) := by
  unfold moved target
  by_cases outside : tape.pointer + distance < 0 ∨ (tape.size : Int) ≤ tape.pointer + distance
  · have nowhere : ¬ (0 ≤ tape.pointer + distance ∧ tape.pointer + distance < tape.size) := by
      omega
    simp only [outside, nowhere, if_true, if_false]
  · have somewhere : 0 ≤ tape.pointer + distance ∧ tape.pointer + distance < tape.size := by
      omega
    simp only [outside, somewhere, and_self, if_true, if_false]

/-- Cells that wrap take every addition. -/
theorem added_of_wrapping {tape : Tape} (policy : tape.policy = .wrapping) (amount : Int)
    : tape.added amount = .ok (tape.put (signedByte (tape.current + amount))) := by
  simp only [added, sum, policy]

/-- Checked cells take exactly the additions that stay within the signed bytes. -/
theorem added_of_checked {tape : Tape} (policy : tape.policy = .checked) (amount : Int)
    : tape.added amount
      = if IsSignedByte (tape.current + amount) then
          .ok (tape.put (tape.current + amount))
        else .error (.cellOverflow tape.current tape.pointer) := by
  simp only [added, sum, policy]
  by_cases signed : IsSignedByte (tape.current + amount) <;> simp only [signed, if_true, if_false]

/-- A move fails for its target, which is not on the tape. -/
theorem of_moved_error {tape : Tape} {distance : Int} {cause : Fault}
    (h : tape.moved distance = .error cause)
    : ¬ (0 ≤ (tape.pointer : Int) + distance
          ∧ (tape.pointer : Int) + distance < tape.size)
      ∧ cause = .pointerOutOfRange (tape.pointer + distance) tape.size := by
  rw [moved_eq] at h
  split at h
  · contradiction
  · cases h
    exact ⟨‹_›, rfl⟩

/-- An addition fails for the current cell, which is checked. -/
theorem of_added_error {tape : Tape} {amount : Int} {cause : Fault}
    (h : tape.added amount = .error cause)
    : ¬ IsSignedByte (tape.current + amount)
      ∧ cause = .cellOverflow tape.current tape.pointer := by
  cases policy : tape.policy with
  | wrapping =>
      rw [added_of_wrapping policy] at h
      contradiction
  | checked =>
      rw [added_of_checked policy] at h
      split at h
      · contradiction
      · cases h
        exact ⟨‹_›, rfl⟩

/-- What becomes of a tape by one operation: the pointer moves within the tape, or a signed byte
is put into the current cell.
-/
inductive Change (tape : Tape) : Tape → Prop
  | rests : Change tape tape
  | moves {address : Nat} (inside : address < tape.size)
    : Change tape { tape with pointer := address }
  | puts {value : Int} (signed : IsSignedByte value) : Change tape (tape.put value)

theorem change_of_moved {tape next : Tape} {distance : Int}
    (h : tape.moved distance = .ok next)
    : tape.Change next := by
  rw [moved_eq] at h
  split at h
  · rename_i inside
    cases h
    exact .moves (by omega)
  · contradiction

theorem change_of_added {tape next : Tape} {amount : Int} (h : tape.added amount = .ok next)
    : tape.Change next := by
  unfold added at h
  split at h
  · contradiction
  · rename_i value sum
    cases h
    exact .puts (isSignedByte_of_sum sum)

theorem WellFormed.change {tape next : Tape} (h : tape.WellFormed)
    (change : tape.Change next)
    : next.WellFormed := by
  cases change with
  | rests => exact h
  | moves inside => exact ⟨inside, h.cells_signed⟩
  | puts signed => exact h.put signed

/-- A signed byte is short enough to be written. -/
theorem isShort_of_isSignedByte {value : Int} (signed : IsSignedByte value)
    : Text.IsShort value := by
  have le : value.natAbs ≤ (128 : Int).natAbs := by
    obtain ⟨lower, upper⟩ := signed
    omega
  exact Text.isShort_of_natAbs_le le (by decide)

/-- The current cell of a well-formed tape holds a signed byte. -/
theorem WellFormed.current_signed {tape : Tape} (h : tape.WellFormed)
    : IsSignedByte tape.current := by
  have lt : tape.pointer < tape.cells.size := h.pointer_lt
  have here : tape.current = tape.cells[tape.pointer] := by simp [current, lt]
  rw [here]
  exact h.cells_signed _ (Array.getElem_mem lt)

theorem put_put (tape : Tape) (first second : Int)
    : (tape.put first).put second = tape.put second := by
  simp [put]

theorem put_current {tape : Tape} (h : tape.WellFormed) : tape.put tape.current = tape := by
  have lt : tape.pointer < tape.cells.size := h.pointer_lt
  have same : tape.cells.setIfInBounds tape.pointer tape.current = tape.cells := by
    apply Array.ext (by simp)
    intro address _ inside
    rw [Array.getElem_setIfInBounds inside]
    split
    · rename_i here
      subst here
      simp [current, lt]
    · rfl
  simp only [put, same]

/-- A move by nothing stays, because the pointer of a well-formed tape is on the tape. -/
theorem moved_zero {tape : Tape} (h : tape.WellFormed) : tape.moved 0 = .ok tape := by
  have lt := h.pointer_lt
  rw [moved_eq, if_pos (by omega)]
  simp

/-- An addition of nothing changes nothing, because the current cell is a signed byte. -/
theorem added_zero {tape : Tape} (h : tape.WellFormed) : tape.added 0 = .ok tape := by
  have signed := h.current_signed
  cases policy : tape.policy with
  | wrapping =>
      rw [added_of_wrapping policy, Int.add_zero, signedByte_of_isSignedByte signed, put_current h]
  | checked => rw [added_of_checked policy, Int.add_zero, if_pos signed, put_current h]

/-- Moves add up: the second one has the same target as both together. -/
theorem moved_moved {tape next : Tape} {first : Int} (h : tape.moved first = .ok next)
    (second : Int)
    : AgreeUpToKind (tape.moved (first + second)) (next.moved second) := by
  rw [moved_eq] at h
  split at h
  · rename_i inside
    have moved := Except.ok.inj h
    have start : (next.pointer : Int) = tape.pointer + first := by
      rw [← moved]
      exact Int.toNat_of_nonneg inside.1
    have size : next.size = tape.size := by rw [← moved]; rfl
    have cells (pointer : Nat) : { next with pointer } = { tape with pointer } := by
      rw [← moved]
    rw [moved_eq, moved_eq, start, size, Int.add_assoc, cells]
    by_cases lands : 0 ≤ (tape.pointer : Int) + (first + second)
        ∧ (tape.pointer : Int) + (first + second) < tape.size
    · rw [if_pos lands]
      exact .ok _
    · rw [if_neg lands]
      exact .error rfl
  · contradiction

/-- Additions add up: with cells that wrap because wrapping in between changes nothing, and
with checked cells because the first sum is exact.
-/
theorem added_added {tape next : Tape} {first : Int} (wellFormed : tape.WellFormed)
    (h : tape.added first = .ok next) (second : Int)
    : AgreeUpToKind (tape.added (first + second)) (next.added second) := by
  cases policy : tape.policy with
  | wrapping =>
      rw [added_of_wrapping policy] at h
      cases h
      have wraps : (tape.put (signedByte (tape.current + first))).policy = .wrapping := policy
      rw [added_of_wrapping policy, added_of_wrapping wraps, put_put,
        current_put wellFormed.pointer_lt, signedByte_add_signedByte, Int.add_assoc]
      exact .ok _
  | checked =>
      rw [added_of_checked policy] at h
      split at h
      · cases h
        have checks : (tape.put (tape.current + first)).policy = .checked := policy
        rw [added_of_checked policy, added_of_checked checks, put_put,
          current_put wellFormed.pointer_lt, Int.add_assoc]
        by_cases signed : IsSignedByte (tape.current + (first + second))
        · rw [if_pos signed, if_pos signed]
          exact .ok _
        · rw [if_neg signed, if_neg signed]
          exact .error rfl
      · contradiction

/-- A direction in which to move or to count. -/
def IsUnit (sign : Int) : Prop :=
  sign = 1 ∨ sign = -1

/-- Who cannot move by one cannot move further in that direction. -/
theorem moved_further {tape : Tape} (wellFormed : tape.WellFormed) {sign : Int}
    (unit : IsUnit sign) {fault : Fault} (h : tape.moved sign = .error fault) (times : Nat)
    : ∃ other, tape.moved (sign * (times + 1)) = .error other ∧ other.kind = fault.kind := by
  have lt := wellFormed.pointer_lt
  rw [moved_eq] at h
  split at h
  · contradiction
  · rename_i outside
    cases h
    have nowhere : ¬ (0 ≤ (tape.pointer : Int) + sign * (times + 1)
        ∧ (tape.pointer : Int) + sign * (times + 1) < tape.size) := by
      rcases unit with rfl | rfl <;> omega
    refine ⟨.pointerOutOfRange (tape.pointer + sign * (times + 1)) tape.size, ?_, rfl⟩
    rw [moved_eq, if_neg nowhere]

/-- Who cannot add one cannot add more of the same sign, because the current cell is still a
signed byte.
-/
theorem added_further {tape : Tape} (wellFormed : tape.WellFormed) {sign : Int}
    (unit : IsUnit sign) {fault : Fault} (h : tape.added sign = .error fault) (times : Nat)
    : ∃ other, tape.added (sign * (times + 1)) = .error other ∧ other.kind = fault.kind := by
  obtain ⟨lower, upper⟩ := wellFormed.current_signed
  cases policy : tape.policy with
  | wrapping =>
      rw [added_of_wrapping policy] at h
      contradiction
  | checked =>
      rw [added_of_checked policy] at h
      split at h
      · contradiction
      · rename_i overflow
        cases h
        have overflows : ¬ IsSignedByte (tape.current + sign * (times + 1)) := by
          simp only [IsSignedByte] at overflow ⊢
          rcases unit with rfl | rfl <;> omega
        exact ⟨.cellOverflow _ _, by rw [added_of_checked policy, if_neg overflows], rfl⟩

/-- An operation by a number is that number of operations by one, when it does nothing by
zero, adds up, and fails for more if it fails for one. The induction is on the number; each
turn takes one off in front.
-/
theorem agree_repeated {operation : Tape → Int → Except Fault Tape} {sign : Int}
    (zero : ∀ {tape}, tape.WellFormed → operation tape 0 = .ok tape)
    (addUp
      : ∀ {tape next}, tape.WellFormed → operation tape sign = .ok next → ∀ more,
          AgreeUpToKind (operation tape (sign + more)) (operation next more))
    (further
      : ∀ {tape fault}, tape.WellFormed → operation tape sign = .error fault → ∀ times : Nat,
          ∃ other,
            operation tape (sign * (times + 1)) = .error other ∧ other.kind = fault.kind)
    (keeps
      : ∀ {tape next}, tape.WellFormed → operation tape sign = .ok next → next.WellFormed)
    {tape : Tape} (wellFormed : tape.WellFormed) (times : Nat)
    : AgreeUpToKind (operation tape (sign * times))
        (repeated (operation · sign) times tape) := by
  induction times generalizing tape with
  | zero =>
      rw [Int.ofNat_zero, Int.mul_zero, zero wellFormed]
      exact .ok tape
  | succ times ih =>
      unfold repeated
      cases first : operation tape sign with
      | error fault =>
          obtain ⟨other, failed, same⟩ := further wellFormed first times
          rw [Int.natCast_succ, failed]
          exact .error same
      | ok next =>
          have split : sign * ((times + 1 : Nat) : Int) = sign + sign * times := by
            rw [Int.natCast_succ, Int.mul_add, Int.mul_one, Int.add_comm]
          rw [split]
          exact (addUp wellFormed first _).trans (ih (keeps wellFormed first))

/-- A move by a number is that number of moves by one. -/
theorem agree_repeated_moved {tape : Tape} (wellFormed : tape.WellFormed) {sign : Int}
    (unit : IsUnit sign) (times : Nat)
    : AgreeUpToKind (tape.moved (sign * times)) (repeated (moved · sign) times tape) :=
  agree_repeated moved_zero (fun _ moved more => moved_moved moved more)
    (fun wellFormed failed times => moved_further wellFormed unit failed times)
    (fun wellFormed moved => wellFormed.change (change_of_moved moved)) wellFormed times

/-- An addition of a number is that number of additions of one. -/
theorem agree_repeated_added {tape : Tape} (wellFormed : tape.WellFormed) {sign : Int}
    (unit : IsUnit sign) (times : Nat)
    : AgreeUpToKind (tape.added (sign * times)) (repeated (added · sign) times tape) :=
  agree_repeated added_zero added_added
    (fun wellFormed failed times => added_further wellFormed unit failed times)
    (fun wellFormed added => wellFormed.change (change_of_added added)) wellFormed times

end Tape

end Brainfuck
