import Brainfuck.Proofs.Execution.Stepping

/-! Checked cells against cells that wrap.
A policy matters to an addition alone, and only when the exact sum is no signed byte. Two runs
that differ in their policy are the same up to the first such addition. Checked cells fail
there, and the cells are left as they were.
-/

namespace Brainfuck

/-- The tape under another policy. -/
def Tape.withPolicy (tape : Tape) (policy : CellPolicy) : Tape :=
  { tape with policy }

/-- The store under another policy. -/
def Store.withPolicy (store : Store) (policy : CellPolicy) : Store :=
  { store with tape := store.tape.withPolicy policy }

/-- A sum that a cell can hold is stored under every policy. -/
theorem Tape.added_of_signed {tape : Tape} {amount : Int}
    (signed : IsSignedByte (tape.current + amount))
    : tape.added amount = .ok (tape.put (tape.current + amount)) := by
  cases policy : tape.policy with
  | wrapping => rw [added_of_wrapping policy, signedByte_of_isSignedByte signed]
  | checked => rw [added_of_checked policy, if_pos signed]

/-- An action does not look at the policy, unless it adds up to more than a cell can hold. -/
theorem Store.act_withPolicy {store : Store} {action : Action}
    (fits : ∀ amount, action = .add amount → IsSignedByte (store.tape.current + amount))
    (policy : CellPolicy)
    : (store.withPolicy policy).act action
      = match store.act action with
        | .error fault => .error fault
        | .ok next => .ok (next.withPolicy policy) := by
  cases action with
  | move distance =>
      simp only [act, Tape.moved_eq]
      have same
          : (store.withPolicy policy).tape.size = store.tape.size
            ∧ (store.withPolicy policy).tape.pointer = store.tape.pointer :=
        ⟨rfl, rfl⟩
      rw [same.1, same.2]
      split <;> rfl
  | add amount =>
      have signed := fits amount rfl
      have also : IsSignedByte ((store.withPolicy policy).tape.current + amount) := signed
      simp only [act, Tape.added_of_signed signed, Tape.added_of_signed also]
      rfl
  | read => rfl
  | write => rfl

namespace Machine

/-- The machine under another policy. -/
def withPolicy (machine : Machine) (policy : CellPolicy) : Machine :=
  { machine with tape := machine.tape.withPolicy policy }

/-- The next step adds to the current cell, and the exact sum is no signed byte. -/
def Overflows (machine : Machine) : Prop :=
  ∃ notice amount,
    machine.notice = .ok notice
    ∧ notice.unit.action? = some (.add amount)
    ∧ ¬ IsSignedByte (notice.cell + amount)

/-- The next step fails because a cell would overflow. -/
def RaisesOverflow (machine : Machine) : Prop :=
  ∃ fault, machine.step.fault? = some fault ∧ fault.kind = .cellOverflow

/-- A unit has the same effect under all policies when its step does not overflow. -/
theorem effect_withPolicy {machine : Machine} {notice : Notice}
    (announced : machine.notice = .ok notice) (fits : ¬ machine.Overflows)
    (policy : CellPolicy)
    : (machine.withPolicy policy).effect notice.unit
      = match machine.effect notice.unit with
        | .error fault => .error fault
        | .ok (store, passage) => .ok (store.withPolicy policy, passage) := by
  cases does : notice.unit.action? with
  | none =>
      rw [effect_of_no_action _ does, effect_of_no_action _ does]
      have same
          : notice.unit.passage (machine.withPolicy policy).code
                (machine.withPolicy policy).counter (machine.withPolicy policy).tape.current
              = notice.unit.passage machine.code machine.counter machine.tape.current :=
        rfl
      rw [same]
      cases notice.unit.passage machine.code machine.counter machine.tape.current <;> rfl
  | some action =>
      have signed
          : ∀ amount,
              action = .add amount
              → IsSignedByte (machine.store.tape.current + amount) := by
        intro amount adds
        subst adds
        apply Decidable.byContradiction
        intro overflows
        exact fits ⟨notice, amount, announced, does, cell_of_notice announced ▸ overflows⟩
      rw [effect_of_action _ does, effect_of_action _ does]
      have same : (machine.withPolicy policy).store = machine.store.withPolicy policy := rfl
      rw [same, Store.act_withPolicy signed]
      cases machine.store.act action <;> rfl

/-- A step is the same under all policies, unless it overflows. -/
theorem step_withPolicy {machine : Machine} (fits : ¬ machine.Overflows) (policy : CellPolicy)
    : (machine.withPolicy policy).step
      = {
          machine := machine.step.machine.withPolicy policy
          fault? := machine.step.fault?
        } := by
  have notice : (machine.withPolicy policy).notice = machine.notice := rfl
  unfold step
  rw [notice]
  cases announced : machine.notice with
  | error fault => rfl
  | ok notice =>
      simp only [perform_eq, effect_withPolicy announced fits]
      cases machine.effect notice.unit <;> rfl

/-- Checked cells fail at an addition that overflows. -/
theorem raisesOverflow_of_overflows {machine : Machine}
    (checked : machine.tape.policy = .checked) (overflows : machine.Overflows)
    : machine.RaisesOverflow := by
  obtain ⟨notice, amount, announced, does, unsigned⟩ := overflows
  rw [cell_of_notice announced] at unsigned
  have policy : machine.store.tape.policy = .checked := checked
  have sum : ¬ IsSignedByte (machine.store.tape.current + amount) := unsigned
  refine ⟨.cellOverflow machine.tape.current machine.tape.pointer, ?_, rfl⟩
  simp only [step, announced, perform_eq, effect_of_action machine does, Store.act,
    Tape.added_of_checked policy, if_neg sum, Store.withTape]
  rfl

/-- Only additions to checked cells overflow, by cases on what the step does. -/
theorem raisesOverflow_iff {machine : Machine}
    : machine.RaisesOverflow ↔ machine.tape.policy = .checked ∧ machine.Overflows := by
  constructor
  · rintro ⟨fault, raises, kind⟩
    cases machine.stepping with
    | completed done step =>
        rw [step] at raises
        cases raises
        contradiction
    | missing unfinished front other step =>
        rw [step] at raises
        cases raises
        simp [kind] at other
    | passes unfinished inside announced effect step => simp [step] at raises
    | @fails notice _ unfinished inside announced effect step =>
        rw [step] at raises
        cases raises
        rcases refuses_or_lost effect with ⟨action, does, refuses⟩ | lost
        · cases refuses with
          | move outside => contradiction
          | @add amount checked overflows =>
              refine ⟨checked, notice, amount, announced, does, ?_⟩
              rw [cell_of_notice announced]
              exact overflows
        · have lostKind := CodeUnit.kind_of_passage lost
          simp [kind] at lostKind
  · rintro ⟨checked, overflows⟩
    exact raisesOverflow_of_overflows checked overflows

/-- A step that does not fail for an overflow under checked cells does not overflow. -/
theorem not_overflows {machine : Machine}
    (quiet : ¬ (machine.withPolicy .checked).RaisesOverflow)
    : ¬ machine.Overflows := by
  rw [raisesOverflow_iff] at quiet
  intro overflows
  exact quiet ⟨rfl, overflows⟩

-----------------------------------------------------------------------------------------
-- Runs under both policies
-----------------------------------------------------------------------------------------

/-- How a run under checked cells compares with the same run under cells that wrap. -/
structure OnlyAddsOverflows (checked wrapping : Machine) : Prop where
  /-- Up to the first overflow the machines differ in their policy alone. -/
  alike
    : ∀ count,
        (∀ earlier < count, ¬ (checked.tried earlier).RaisesOverflow)
        → checked.tried count = (wrapping.tried count).withPolicy .checked
  /-- Up to the first overflow a step that fails does so in both runs, for the same reason. -/
  faults
    : ∀ count,
        (∀ earlier ≤ count, ¬ (checked.tried earlier).RaisesOverflow)
        → (checked.tried count).step.fault? = (wrapping.tried count).step.fault?
  overflow
    : ∀ count,
        checked.FirstAfter RaisesOverflow count ↔ wrapping.FirstAfter Overflows count
  /-- The step that overflows leaves everything as the other run has it in front of the step. -/
  kept
    : ∀ count,
        checked.FirstAfter RaisesOverflow count
        → (checked.tried (count + 1)).store = (wrapping.tried count).store.withPolicy .checked
          ∧ (checked.tried (count + 1)).counter = (wrapping.tried count).counter
  finishes
    : ∀ final,
        checked.FinishesAs final
        → wrapping.FinishesAs (final.withPolicy .wrapping)
  fails
    : ∀ final fault,
        checked.FailsAs final fault
        → fault.kind = .cellOverflow ∨ wrapping.FailsAs (final.withPolicy .wrapping) fault
  forever : checked.RunsForever → wrapping.RunsForever

variable {machine : Machine}

/-- Attempted steps lead to the same machine under both policies as long as none overflows, by
induction on the steps.
-/
theorem tried_withPolicy {count : Nat}
    (quiet
      : ∀ earlier < count, ¬ ((machine.withPolicy .checked).tried earlier).RaisesOverflow)
    : (machine.withPolicy .checked).tried count
      = ((machine.withPolicy .wrapping).tried count).withPolicy .checked := by
  induction count with
  | zero => rfl
  | succ count ih =>
      have same := ih fun earlier lt => quiet earlier (Nat.lt_succ_of_lt lt)
      have fits := quiet count (Nat.lt_succ_self count)
      rw [same] at fits
      rw [tried, same, step_withPolicy (not_overflows fits), tried]

/-- Steps that succeed with checked cells succeed with cells that wrap, by induction on them.
-/
theorem after?_withPolicy {last : Machine} {count : Nat}
    (reached : (machine.withPolicy .checked).after? count = some last)
    : ∃ middle : Machine,
        last = middle.withPolicy .checked
        ∧ (machine.withPolicy .wrapping).after? count = some (middle.withPolicy .wrapping) := by
  induction count generalizing machine with
  | zero =>
      cases reached
      exact ⟨machine, rfl, rfl⟩
  | succ count ih =>
      obtain ⟨next, step, rest⟩ := exists_step_of_after? reached
      have fits : ¬ machine.Overflows := by
        apply not_overflows
        rintro ⟨fault, raises, _⟩
        simp [step] at raises
      rw [step_withPolicy fits, Attempt.mk.injEq] at step
      obtain ⟨rfl, returns⟩ := step
      obtain ⟨middle, same, also⟩ := ih rest
      have other := step_withPolicy fits .wrapping
      rw [returns] at other
      exact ⟨middle, same, (after?_succ other count).trans also⟩

/-- Checked cells only add failures. From every state, the run under checked cells is the one
under cells that wrap up to the first sum that no cell can hold. There it fails and leaves the
cells as they were. A checked run without such a sum ends as the other one does.
-/
theorem checking_only_adds_overflows (machine : Machine)
    : OnlyAddsOverflows (machine.withPolicy .checked) (machine.withPolicy .wrapping) where
  alike count quiet := tried_withPolicy quiet
  faults count quiet := by
    have same := tried_withPolicy fun earlier lt => quiet earlier (Nat.le_of_lt lt)
    have fits := quiet count (Nat.le_refl count)
    rw [same] at fits ⊢
    rw [step_withPolicy (not_overflows fits)]
  overflow := by
    apply firstAfter_iff
    intro count quiet
    rw [tried_withPolicy quiet, raisesOverflow_iff]
    exact and_iff_right rfl
  kept count first := by
    obtain ⟨raises, quiet⟩ := first
    obtain ⟨fault, raises, _⟩ := raises
    obtain ⟨metrics, left⟩ := exists_metrics_of_fault raises
    rw [tried, left, tried_withPolicy quiet]
    exact ⟨rfl, rfl⟩
  finishes final finishes := by
    obtain ⟨count, reached, done⟩ := finishesAs_iff.mp finishes
    obtain ⟨middle, rfl, also⟩ := after?_withPolicy reached
    exact finishesAs_iff.mpr ⟨count, also, done⟩
  fails final fault fails := by
    obtain ⟨count, last, reached, unfinished, step⟩ := failsAs_iff.mp fails
    obtain ⟨middle, rfl, also⟩ := after?_withPolicy reached
    by_cases kind : fault.kind = .cellOverflow
    · exact Or.inl kind
    · refine Or.inr (failsAs_iff.mpr ⟨count, _, also, unfinished, ?_⟩)
      have fits : ¬ middle.Overflows := by
        apply not_overflows
        rintro ⟨other, raises, overflow⟩
        rw [step] at raises
        cases raises
        exact kind overflow
      rw [step_withPolicy fits, Attempt.mk.injEq] at step ⊢
      obtain ⟨rfl, raises⟩ := step
      exact ⟨rfl, raises⟩
  forever forever := by
    apply runsForever_iff.mpr
    intro count
    obtain ⟨last, reached⟩ := Option.isSome_iff_exists.mp (runsForever_iff.mp forever count)
    obtain ⟨middle, _, also⟩ := after?_withPolicy reached
    exact Option.isSome_of_eq_some also

end Machine

end Brainfuck
