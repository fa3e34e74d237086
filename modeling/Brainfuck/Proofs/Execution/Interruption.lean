import Brainfuck.Proofs.Execution.Listening
import Mathlib.Data.ENat.Basic

/-! Runs that are cut off.
A run that is cut off and continued is the run that nobody cuts off. How many steps that run
attempts decides whether a limit cuts it off, and nothing else does.
-/

namespace Brainfuck.Machine

-----------------------------------------------------------------------------------------
-- Runs in portions
-----------------------------------------------------------------------------------------

/-- A run that goes on with more notices admitted, unless it has ended by itself. -/
def resume {α : Type} (hear : α → Notice → α) (more : Nat) (left : Run Machine α)
    : Run Machine α :=
  match left with
  | { state, heard, ending := .refused, .. } => state.run hear more heard
  | { state, heard, allowance, ending } => { state, heard, allowance := allowance + more, ending }

/-- Two runs end alike when nothing but the notices that were left over tells them apart. -/
structure EndsAlike {α : Type} (left right : Run Machine α) : Prop where
  state : left.state = right.state
  heard : left.heard = right.heard
  ending : left.ending = right.ending

theorem EndsAlike.symm {α : Type} {left right : Run Machine α} (h : EndsAlike left right)
    : EndsAlike right left :=
  ⟨h.state.symm, h.heard.symm, h.ending.symm⟩

theorem EndsAlike.trans {α : Type} {left middle right : Run Machine α}
    (h : EndsAlike left middle) (behind : EndsAlike middle right)
    : EndsAlike left right :=
  ⟨h.state.trans behind.state, h.heard.trans behind.heard, h.ending.trans behind.ending⟩

section Listeners

variable {α : Type} (hear : α → Notice → α)

end Listeners

-----------------------------------------------------------------------------------------
-- Whole runs
-----------------------------------------------------------------------------------------

/-- What becomes of a run that nobody cuts off. -/
inductive Fate where
  | finished (final : Machine)
  | failed (final : Machine) (fault : Fault)
  | endless

/-- The machine that such a run leaves behind and how it ends, if it does. -/
def Fate.end? : Fate → Option (Machine × Ending)
  | .finished final => some (final, .returned)
  | .failed final fault => some (final, .failed fault)
  | .endless => none

/-- How many steps a run attempts when nobody cuts it off, and what becomes of it. A step that
fails is attempted, unless the machine cannot even announce it.
-/
inductive WholeRun (machine : Machine) : ENat → Fate → Prop
  | finishes {count : Nat} {final : Machine} (reached : machine.after? count = some final)
    (done : final.finished = true)
    : WholeRun machine count (.finished final)
  | fails {count : Nat} {last final : Machine} {notice : Notice} {fault : Fault}
    (reached : machine.after? count = some last) (unfinished : last.finished = false)
    (announced : last.notice = .ok notice)
    (step : last.step = { machine := final, fault? := some fault })
    : WholeRun machine (count + 1 : Nat) (.failed final fault)
  | breaksOff {count : Nat} {last : Machine} {fault : Fault}
    (reached : machine.after? count = some last) (unfinished : last.finished = false)
    (unannounced : last.notice = .error fault)
    : WholeRun machine count (.failed last fault)
  | endless (forever : machine.RunsForever) : WholeRun machine ⊤ .endless

section Listeners

variable {α : Type} (hear : α → Notice → α) {machine : Machine} {attempts : ENat}

/-- Behind the steps that succeed a run ends by itself, with one more attempt or with none, by
cases on its fate.
-/
theorem WholeRun.exists_end {fate : Fate} {final : Machine} {ending : Ending}
    (h : machine.WholeRun attempts fate) (ends : fate.end? = some (final, ending))
    : ∃ count used middle,
        attempts = (count + used : Nat)
        ∧ machine.after? count = some middle
        ∧ ∀ spare between, ∃ last,
            middle.run hear (used + spare) between
            = { state := final, heard := last, allowance := spare, ending } := by
  cases h with
  | @finishes count _ reached done =>
      cases ends
      refine ⟨count, 0, final, rfl, reached, ?_⟩
      intro spare between
      rw [Nat.zero_add]
      exact ⟨between, run_of_finished hear done spare between⟩
  | @fails count last _ _ _ reached unfinished announced step =>
      cases ends
      refine ⟨count, 1, last, rfl, reached, ?_⟩
      intro spare between
      rw [Nat.add_comm]
      exact ⟨_, run_of_announced_fault hear unfinished announced step spare between⟩
  | @breaksOff count _ _ reached unfinished unannounced =>
      cases ends
      refine ⟨count, 0, final, rfl, reached, ?_⟩
      intro spare between
      rw [Nat.zero_add]
      exact ⟨between, run_of_unannounced hear unfinished unannounced spare between⟩
  | endless forever => cases ends

end Listeners

-----------------------------------------------------------------------------------------
-- Interruptible machines
-----------------------------------------------------------------------------------------

end Brainfuck.Machine
