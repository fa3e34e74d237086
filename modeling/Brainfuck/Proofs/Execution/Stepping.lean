import Brainfuck.Proofs.Execution.Course
import Brainfuck.Proofs.Execution.Step

/-! Everything that a step can do, from every state and in any code.
A step has no unit to execute, or the unit fails, or the unit has its effect. Attempts are
steps that may have failed; what comes up first among them is counted in attempts.
-/

namespace Brainfuck.Machine

/-- What a step does. It has no unit to execute, or the unit fails, or the unit has its
effect.
-/
inductive Stepping (machine : Machine) : Prop
  | completed (done : machine.finished = true)
    (step : machine.step = { machine, fault? := some .alreadyCompleted })
  | missing {fault : Fault} (unfinished : machine.finished = false)
    (front : machine.counter < -machine.length) (kind : fault.kind = .badIndex)
    (step : machine.step = { machine, fault? := some fault })
  | fails {notice : Notice} {fault : Fault} (unfinished : machine.finished = false)
    (inside : -machine.length ≤ machine.counter) (announced : machine.notice = .ok notice)
    (effect : machine.effect notice.unit = .error fault)
    (step
      : machine.step = { machine := machine.charge notice.unit, fault? := some fault })
  | passes {notice : Notice} {store : Store} {passage : Passage}
    (unfinished : machine.finished = false) (inside : -machine.length ≤ machine.counter)
    (announced : machine.notice = .ok notice)
    (effect : machine.effect notice.unit = .ok (store, passage))
    (step : machine.step = { machine := machine.pass store passage })

theorem kind_missingUnit (code : Code) (address : Int)
    : (code.missingUnit address).kind = .badIndex := by
  unfold Code.missingUnit
  split
  · cases code <;> rfl
  · rfl

/-- Code has units at all addresses from its start to its end, counted from either side. -/
theorem unitAt_eq_ok {code : Code} {address : Int} (front : -code.length ≤ address)
    (behind : address < code.length)
    : ∃ unit, code.unitAt address = .ok unit := by
  have offset : 0 ≤ Code.offset code.length address := by
    unfold Code.offset
    split <;> omega
  have inside : (Code.offset code.length address).toNat < code.length := by
    unfold Code.offset
    split <;> omega
  obtain ⟨unit, found⟩ := exists_unitAtOffset? inside
  refine ⟨unit, ?_⟩
  simp only [Code.unitAt, Int.not_lt.mpr offset, if_false, found]

theorem unitAt_of_front {code : Code} {address : Int} (front : address < -code.length)
    : code.unitAt address = .error (code.missingUnit address) := by
  have offset : Code.offset code.length address < 0 := by
    unfold Code.offset
    split <;> omega
  rw [Code.unitAt, if_pos offset]

/-- Every step does one of these, by cases on the notice and on the effect. -/
theorem stepping (machine : Machine) : machine.Stepping := by
  cases done : machine.finished with
  | true => exact .completed done (step_of_finished done)
  | false =>
      rcases Int.lt_or_le machine.counter (-machine.length) with front | inside
      · refine .missing done front (kind_missingUnit machine.code machine.counter) ?_
        have none : machine.code.unitAt machine.counter = .error _ := unitAt_of_front front
        simp only [step, notice, done, none, Bool.false_eq_true, if_false]
      · have behind : machine.counter < machine.code.length :=
          Int.not_le.mp (of_decide_eq_false done)
        obtain ⟨unit, found⟩ := unitAt_eq_ok inside behind
        have announced
            : machine.notice
              = .ok
                  {
                    counter := machine.counter
                    unit
                    pointer := machine.tape.pointer
                    cell := machine.tape.current
                  } := by
          simp only [notice, done, found, Bool.false_eq_true, if_false]
        have step : machine.step = machine.perform unit := by
          simp only [step, announced]
        rw [perform_eq] at step
        cases effect : machine.effect unit with
        | error fault =>
            rw [effect] at step
            exact .fails done inside announced effect step
        | ok result =>
            rw [effect] at step
            exact .passes done inside announced effect step

theorem unit_of_notice {machine : Machine} {notice : Notice}
    (announced : machine.notice = .ok notice)
    : machine.code.unitAt machine.counter = .ok notice.unit := by
  unfold Machine.notice at announced
  split at announced
  · contradiction
  · split at announced
    · contradiction
    · cases announced
      assumption

theorem cell_of_notice {machine : Machine} {notice : Notice}
    (announced : machine.notice = .ok notice)
    : notice.cell = machine.tape.current := by
  unfold Machine.notice at announced
  split at announced
  · contradiction
  · split at announced
    · contradiction
    · cases announced
      rfl

theorem code_step (machine : Machine) : machine.step.machine.code = machine.code := by
  cases machine.stepping with
  | completed done step | missing unfinished front kind step => rw [step]
  | fails unfinished inside announced effect step
  | passes unfinished inside announced effect step =>
      rw [step]
      rfl

/-- A step that fails changes nothing but the metrics. -/
theorem exists_metrics_of_fault {machine : Machine} {fault : Fault}
    (h : machine.step.fault? = some fault)
    : ∃ metrics, machine.step.machine = machine.withMetrics metrics := by
  cases machine.stepping with
  | completed done step => exact ⟨machine.metrics, by rw [step]; rfl⟩
  | missing unfinished front kind step => exact ⟨machine.metrics, by rw [step]; rfl⟩
  | @fails notice fault unfinished inside announced effect step =>
      exact ⟨machine.metrics.count 1 0 notice.unit.failedChanges, by rw [step]; rfl⟩
  | passes unfinished inside announced effect step => simp [step] at h

/-- Why a unit fails: its action is refused, or it leads nowhere. -/
theorem refuses_or_lost {machine : Machine} {unit : CodeUnit} {fault : Fault}
    (h : machine.effect unit = .error fault)
    : (∃ action, unit.action? = some action ∧ machine.store.Refuses action fault)
      ∨ unit.passage machine.code machine.counter machine.tape.current = .error fault := by
  cases does : unit.action? with
  | some action =>
      rw [effect_of_action machine does] at h
      cases acted : machine.store.act action with
      | error cause =>
          rw [acted] at h
          cases h
          exact Or.inl ⟨action, rfl, Store.refuses_of_act acted⟩
      | ok store => simp [acted] at h
  | none =>
      rw [effect_of_no_action machine does] at h
      cases led : unit.passage machine.code machine.counter machine.tape.current with
      | error cause =>
          rw [led] at h
          cases h
          exact Or.inr rfl
      | ok passage => simp [led] at h

-----------------------------------------------------------------------------------------
-- Attempts one after the other
-----------------------------------------------------------------------------------------

/-- The machine after a number of attempted steps, also ones that have failed. -/
def tried (machine : Machine) : Nat → Machine
  | 0 => machine
  | count + 1 => (machine.tried count).step.machine

theorem code_tried (machine : Machine) (count : Nat)
    : (machine.tried count).code = machine.code := by
  induction count with
  | zero => rfl
  | succ count ih => rw [tried, code_step, ih]

/-- A machine has a property for the first time after so many attempted steps. -/
def FirstAfter (machine : Machine) (property : Machine → Prop) (count : Nat) : Prop :=
  property (machine.tried count) ∧ ∀ earlier < count, ¬ property (machine.tried earlier)

/-- Two properties come up first after the same number of attempts, when each attempt that
neither has come up before shows both or none of them.
-/
theorem firstAfter_iff {left right : Machine} {first second : Machine → Prop}
    (together
      : ∀ count,
          (∀ earlier < count, ¬ first (left.tried earlier))
          → (first (left.tried count) ↔ second (right.tried count)))
    (count : Nat)
    : left.FirstAfter first count ↔ right.FirstAfter second count := by
  have quiet_iff
      : (∀ earlier < count, ¬ first (left.tried earlier))
        ↔ ∀ earlier < count, ¬ second (right.tried earlier) := by
    constructor
    · intro quiet earlier lt
      rw [← together earlier fun other below => quiet other (Nat.lt_trans below lt)]
      exact quiet earlier lt
    · intro quiet earlier lt
      induction earlier using Nat.strongRecOn with
      | ind earlier ih =>
          rw [together earlier fun other below => ih other below (Nat.lt_trans below lt)]
          exact quiet earlier lt
  constructor
  · rintro ⟨here, quiet⟩
    exact ⟨(together count quiet).mp here, quiet_iff.mp quiet⟩
  · rintro ⟨here, quiet⟩
    have also := quiet_iff.mpr quiet
    exact ⟨(together count also).mpr here, also⟩

end Brainfuck.Machine
