import Brainfuck.Proofs.Execution.Course

/-! Visits of a course to chosen machines.
Visits are numbered in the order in which the course comes to them. The number is that of the
earlier visits, so nothing but the plain steps decides which visit is which.
-/

namespace Brainfuck.Machine

variable {chosen : Machine → Prop} {start middle machine : Machine}

/-- No machine is chosen from one number of steps up to another. -/
def Quiet (chosen : Machine → Prop) (start : Machine) (low high : Nat) : Prop :=
  ∀ count,
    low ≤ count
    → count < high
    → ∀ passed, start.after? count = some passed → ¬ chosen passed

/-- After this number of steps the course comes to a chosen machine, for the first time when
as many steps as the lower number are left out of account.
-/
structure ComesIn (chosen : Machine → Prop) (low count : Nat) (start machine : Machine)
    : Prop where
  late : low ≤ count
  reached : start.after? count = some machine
  isChosen : chosen machine
  quiet : Quiet chosen start low count

/-- The first chosen machine after at least so many steps. -/
def ComesTo (chosen : Machine → Prop) (low : Nat) (start machine : Machine) : Prop :=
  ∃ count, ComesIn chosen low count start machine

/-- The visits of a course by their numbers. Behind a visit the course has to step before it
comes to the next one.
-/
inductive Visited (chosen : Machine → Prop) (start : Machine) : Nat → Machine → Prop
  | first {machine : Machine} (comes : ComesTo chosen 0 start machine)
    : Visited chosen start 0 machine
  | next {number : Nat} {before machine : Machine} (visited : Visited chosen start number before)
    (comes : ComesTo chosen 1 before machine)
    : Visited chosen start (number + 1) machine

/-- No step is quiet. -/
theorem quiet_none {low : Nat} : Quiet chosen start low low :=
  fun _ late lt => absurd lt (Nat.not_lt.mpr late)

/-- A single machine is quiet when it is not chosen. -/
theorem quiet_here (not : ¬ chosen start) : Quiet chosen start 0 1 := by
  intro count _ lt passed reached
  obtain rfl : count = 0 := by omega
  cases reached
  exact not

/-- Behind a first step all is quiet up to the second one when the machine between them is
not chosen.
-/
theorem quiet_between (step : start.step = { machine := middle }) (not : ¬ chosen middle)
    : Quiet chosen start 1 2 := by
  intro count late lt passed reached
  obtain rfl : count = 1 := by omega
  rw [after?_succ step] at reached
  cases reached
  exact not

/-- Where a course is stuck before quiet ends, it comes to no further machine. -/
theorem not_comesTo_of_stuck {turn count : Nat} (quiet : Quiet chosen start 1 count)
    (lt : turn < count) (reached : start.after? turn = some middle)
    (stuck : middle.step.fault? ≠ none)
    : ¬ ComesTo chosen 1 start machine := by
  intro comes
  rcases comes with ⟨total, late, reaches, isChosen, _⟩
  rcases Nat.lt_or_ge total count with within | beyond
  · exact quiet total late within machine reaches isChosen
  · obtain ⟨_, next, again, step⟩ :=
      exists_step_of_after?_lt reaches (Nat.lt_of_lt_of_le lt beyond)
    cases again.symm.trans reached
    exact stuck (by rw [step])

theorem not_comesTo_of_fault {next : Machine} {fault : Fault}
    (step : start.step = { machine := next, fault? := some fault })
    : ¬ ComesTo chosen 1 start machine :=
  not_comesTo_of_stuck quiet_none Nat.one_pos (after?_zero start) (by simp [step])

/-- A course comes to one machine only, because the one with fewer steps is not passed. -/
theorem ComesTo.unique {low : Nat} {other : Machine} (h : ComesTo chosen low start machine)
    (hOther : ComesTo chosen low start other)
    : machine = other := by
  obtain ⟨count, late, reached, isChosen, quiet⟩ := h
  obtain ⟨another, lateOther, reachedOther, isChosenOther, quietOther⟩ := hOther
  rcases Nat.lt_trichotomy count another with lt | rfl | lt
  · exact absurd isChosen (quietOther count late lt machine reached)
  · exact Option.some.inj (reached.symm.trans reachedOther)
  · exact absurd isChosenOther (quiet another lateOther lt other reachedOther)

theorem Visited.isChosen {number : Nat} (h : Visited chosen start number machine)
    : chosen machine := by
  cases h with
  | first comes =>
      obtain ⟨_, comes⟩ := comes
      exact comes.isChosen
  | next _ comes =>
      obtain ⟨_, comes⟩ := comes
      exact comes.isChosen

/-- Plain steps lead to every visit, by induction on its number. -/
theorem Visited.exists_count {number : Nat} (h : Visited chosen start number machine)
    : ∃ count, start.after? count = some machine := by
  induction h with
  | first comes =>
      obtain ⟨count, _, reached, _⟩ := comes
      exact ⟨count, reached⟩
  | next _ comes ih =>
      obtain ⟨count, reached⟩ := ih
      obtain ⟨more, _, behind, _⟩ := comes
      exact ⟨count + more, (after?_add reached more).trans behind⟩

/-- There is one visit of each number, by induction on the number. -/
theorem Visited.unique {number : Nat} {other : Machine}
    (h : Visited chosen start number machine) (hOther : Visited chosen start number other)
    : machine = other := by
  induction h generalizing other with
  | first comes =>
      cases hOther with
      | first comesOther => exact comes.unique comesOther
  | next _ comes ih =>
      cases hOther with
      | next visitedOther comesOther =>
          obtain rfl := ih visitedOther
          exact comes.unique comesOther

/-- What lies behind some steps is quiet there, when it is so behind the machine that they
lead to.
-/
theorem Quiet.shift {count low high : Nat} (reached : start.after? count = some middle)
    (h : Quiet chosen middle low high)
    : Quiet chosen start (count + low) (count + high) := by
  intro total late lt passed here
  obtain ⟨more, rfl⟩ : ∃ more, total = count + more := ⟨total - count, by omega⟩
  exact h more (by omega) (by omega) passed ((after?_add reached more).symm.trans here)

theorem Quiet.append {low between high : Nat} (h : Quiet chosen start low between)
    (later : Quiet chosen start between high)
    : Quiet chosen start low high := by
  intro count late lt
  rcases Nat.lt_or_ge count between with early | behind
  · exact h count late early
  · exact later count behind lt

/-- Steps that are quiet behind the start are quiet throughout when the start is not chosen. -/
theorem Quiet.from_start {high : Nat} (h : Quiet chosen start 1 high) (not : ¬ chosen start)
    : Quiet chosen start 0 high := by
  intro count _ lt passed reached
  cases count with
  | zero => exact Option.some.inj reached ▸ not
  | succ count => exact h (count + 1) (Nat.le_add_left 1 count) lt passed reached

/-- A course comes to what it comes to behind quiet steps. -/
theorem ComesTo.prepend {count low : Nat} (le : low ≤ count)
    (reached : start.after? count = some middle) (quiet : Quiet chosen start low count)
    (h : ComesTo chosen 0 middle machine)
    : ComesTo chosen low start machine := by
  obtain ⟨more, _, behind, isChosen, later⟩ := h
  exact ⟨count + more, by omega, (after?_add reached more).trans behind, isChosen,
    quiet.append (later.shift reached)⟩

/-- Behind quiet steps a course goes on to what it comes to, in the steps that are left. -/
theorem ComesIn.behind {count low total : Nat} (le : low ≤ count)
    (reached : start.after? count = some middle) (quiet : Quiet chosen start low count)
    (h : ComesIn chosen low total start machine)
    : ∃ more, total = count + more ∧ ComesIn chosen 0 more middle machine := by
  obtain ⟨late, there, isChosen, quietBefore⟩ := h
  have further : count ≤ total := by
    apply Nat.le_of_not_lt
    intro lt
    exact quiet total late lt machine there isChosen
  obtain ⟨more, rfl⟩ : ∃ more, total = count + more := ⟨total - count, by omega⟩
  refine ⟨more, rfl, Nat.zero_le _, (after?_add reached more).symm.trans there, isChosen, ?_⟩
  intro index _ lt passed here
  exact quietBefore (count + index) (by omega) (by omega) passed
    ((after?_add reached index).trans here)

-----------------------------------------------------------------------------------------
-- Numbers of visits
-----------------------------------------------------------------------------------------

section Numbers

variable [DecidablePred chosen]

/-- The machine after so many steps is chosen. -/
def visits (chosen : Machine → Prop) [DecidablePred chosen] (start : Machine) (count : Nat)
    : Bool :=
  (start.after? count).any fun machine => chosen machine

/-- How many machines are chosen before so many steps. -/
def visitsBefore (chosen : Machine → Prop) [DecidablePred chosen] (start : Machine)
    (count : Nat)
    : Nat :=
  (List.range count).countP (visits chosen start)

theorem visits_iff {count : Nat}
    : visits chosen start count = true
      ↔ ∃ machine, start.after? count = some machine ∧ chosen machine := by
  simp [visits, Option.any_eq_true]

theorem visitsBefore_succ (count : Nat)
    : visitsBefore chosen start (count + 1)
      = visitsBefore chosen start count + if visits chosen start count then 1 else 0 := by
  simp [visitsBefore, List.range_succ]

/-- Quiet steps add no visit, by induction on their number. -/
theorem visitsBefore_of_quiet {low more : Nat} (quiet : Quiet chosen start low (low + more))
    : visitsBefore chosen start (low + more) = visitsBefore chosen start low := by
  induction more with
  | zero => rfl
  | succ more ih =>
      have none : visits chosen start (low + more) = false := by
        apply Bool.eq_false_iff.mpr
        intro visit
        obtain ⟨passed, reached, isChosen⟩ := visits_iff.mp visit
        exact quiet (low + more) (by omega) (by omega) passed reached isChosen
      have before := ih (fun count late lt => quiet count late (by omega))
      rw [← Nat.add_assoc, visitsBefore_succ, none, before]
      rfl

/-- Without an earlier visit all is quiet. Otherwise there is a last one, with nothing but
quiet behind it; by induction on the number of steps.
-/
theorem quiet_or_exists_last (chosen : Machine → Prop) [DecidablePred chosen]
    (start : Machine) (count : Nat)
    : Quiet chosen start 0 count ∧ visitsBefore chosen start count = 0
      ∨ ∃ earlier before,
          earlier < count
          ∧ start.after? earlier = some before
          ∧ chosen before
          ∧ Quiet chosen start (earlier + 1) count
          ∧ visitsBefore chosen start count = visitsBefore chosen start earlier + 1 := by
  induction count with
  | zero => exact Or.inl ⟨quiet_none, rfl⟩
  | succ count ih =>
      rw [visitsBefore_succ]
      cases visit : visits chosen start count with
      | true =>
          obtain ⟨machine, reached, isChosen⟩ := visits_iff.mp visit
          refine Or.inr ⟨count, machine, Nat.lt_succ_self _, reached, isChosen, ?_, rfl⟩
          intro index late lt
          omega
      | false =>
          have here : Quiet chosen start count (count + 1) := by
            intro index late lt passed reached isChosen
            obtain rfl : index = count := by omega
            have visited := visits_iff.mpr ⟨passed, reached, isChosen⟩
            simp [visit] at visited
          rcases ih with ⟨quiet, none⟩ | ⟨earlier, before, lt, reached, isChosen, quiet, number⟩
          · exact Or.inl ⟨quiet.append here, by simpa using none⟩
          · exact Or.inr ⟨earlier, before, by omega, reached, isChosen, quiet.append here,
              by simpa using number⟩

/-- The number of a visit is that of the visits before it. Witness: one direction by induction
on the visit, the other on the number.
-/
theorem visited_iff {number : Nat}
    : Visited chosen start number machine
      ↔ ∃ count,
          start.after? count = some machine
          ∧ chosen machine
          ∧ visitsBefore chosen start count = number := by
  constructor
  · intro h
    induction h with
    | first comes =>
        obtain ⟨count, _, reached, isChosen, quiet⟩ := comes
        refine ⟨count, reached, isChosen, ?_⟩
        rw [← Nat.zero_add count] at quiet ⊢
        exact visitsBefore_of_quiet quiet
    | @next number before machine visited comes ih =>
        obtain ⟨first, reached, isChosen, same⟩ := ih
        obtain ⟨count, late, behind, isChosenNext, quiet⟩ := comes
        obtain ⟨more, rfl⟩ : ∃ more, count = 1 + more := ⟨count - 1, by omega⟩
        refine ⟨first + (1 + more), (after?_add reached _).trans behind, isChosenNext, ?_⟩
        have between : Quiet chosen start (first + 1) (first + 1 + more) := by
          rw [Nat.add_assoc]
          exact quiet.shift reached
        have visit : visits chosen start first = true := visits_iff.mpr ⟨_, reached, isChosen⟩
        rw [← Nat.add_assoc, visitsBefore_of_quiet between, visitsBefore_succ, visit, same]
        rfl
  · intro counted
    rcases counted with ⟨count, reached, isChosen, same⟩
    induction number generalizing count machine with
    | zero =>
        rcases quiet_or_exists_last chosen start count with
          ⟨quiet, _⟩ | ⟨_, _, _, _, _, _, number⟩
        · exact .first ⟨count, Nat.zero_le _, reached, isChosen, quiet⟩
        · omega
    | succ number ih =>
        rcases quiet_or_exists_last chosen start count with
          ⟨_, none⟩ | ⟨earlier, before, lt, passed, isChosenBefore, quiet, more⟩
        · omega
        · have visited := ih earlier passed isChosenBefore (by omega)
          obtain ⟨further, rfl⟩ : ∃ further, count = earlier + further :=
            ⟨count - earlier, by omega⟩
          refine .next visited ⟨further, by omega, (after?_add passed _).symm.trans reached,
            isChosen, ?_⟩
          intro index late lt middle here
          exact quiet (earlier + index) (by omega) (by omega) middle
            ((after?_add passed index).trans here)

end Numbers

end Brainfuck.Machine
