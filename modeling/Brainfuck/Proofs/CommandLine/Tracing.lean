import Brainfuck.CommandLine.Tracing
import Brainfuck.Proofs.Execution.Interruption
import Brainfuck.Proofs.Text.Numerals

/-! Traces of programs.
A trace is a run that its own listener cuts off at the limit, so it shows the steps that the run
attempts, up to the limit, and tells whether there would have been more.
-/

namespace Brainfuck.CommandLine

open Machine

/-- The limits that the tool takes can be written: one is set, all others have been read. -/
theorem isShort_of_stepLimit? {words : List String} {limit : Int}
    (h : stepLimit? words = .ok limit)
    : Text.IsShort limit := by
  unfold stepLimit? at h
  split at h
  · cases h
    have small : (2000000 : Nat) < 10 ^ 7 := by decide
    exact Text.isShort_iff.mpr
      (Nat.lt_of_lt_of_le small (Nat.pow_le_pow_right (by decide) (by decide)))
  · split at h
    · rename_i read
      cases h
      exact Text.isShort_of_readInteger read
    · contradiction

end Brainfuck.CommandLine
