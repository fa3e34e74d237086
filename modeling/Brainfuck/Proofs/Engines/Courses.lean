import Brainfuck.Proofs.Engines.Agreement
import Brainfuck.Proofs.Engines.Folding

/-! Courses under all configurations.
Every engine takes the course of the virtual machine on folded code, so configurations that
have the cell policy and the tape size in common take one course: what they write is the same,
also when they fail.
-/

namespace Brainfuck

namespace Machine

section Relations

variable {left right : Machine} {finals : Machine → Machine → Prop}
  {failures : Machine → Fault → Machine → Fault → Prop}

/-- A course of the same kind is so the other way round. -/
theorem SameCourse.symm (h : SameCourse left right finals failures)
    : SameCourse right left (fun final other => finals other final)
        (fun final fault other otherFault => failures other otherFault final fault) where
  finish := h.finish.symm
  fail := h.fail.symm
  forever := h.forever.symm
  related finishRight finishLeft := h.related finishLeft finishRight
  failed failRight failLeft := h.failed failLeft failRight

end Relations

/-- Two machines have written the same. -/
def WroteAlike (final other : Machine) : Prop :=
  final.output = other.output

/-- Two machines have written the same and then failed in the same way, at an end of the tape
or of the signed bytes.
-/
structure FailedAlike (final : Machine) (fault : Fault) (other : Machine) (otherFault : Fault)
    : Prop where
  output : final.output = other.output
  kind : fault.kind = otherFault.kind
  cause : fault.kind = .pointerOutOfRange ∨ fault.kind = .cellOverflow

theorem FailedAlike.symm {final other : Machine} {fault otherFault : Fault}
    (h : FailedAlike final fault other otherFault)
    : FailedAlike other otherFault final fault :=
  ⟨h.output.symm, h.kind.symm, h.kind ▸ h.cause⟩

theorem FailedAlike.trans {final between other : Machine} {fault betweenFault otherFault : Fault}
    (h : FailedAlike final fault between betweenFault)
    (behind : FailedAlike between betweenFault other otherFault)
    : FailedAlike final fault other otherFault :=
  ⟨h.output.trans behind.output, h.kind.trans behind.kind, h.cause⟩

/-- Machines whose courses are alike write the same on one and the same course. -/
abbrev CourseAlike (left right : Machine) : Prop :=
  SameCourse left right WroteAlike FailedAlike

theorem CourseAlike.symm {left right : Machine} (h : CourseAlike left right)
    : CourseAlike right left :=
  (SameCourse.symm h).mono Eq.symm FailedAlike.symm

theorem CourseAlike.trans {left middle right : Machine} (h : CourseAlike left middle)
    (behind : CourseAlike middle right)
    : CourseAlike left right := by
  refine (SameCourse.trans h behind).mono ?_ ?_
  · rintro final other ⟨between, wrote, wroteBehind⟩
    exact Eq.trans wrote wroteBehind
  · rintro final fault other otherFault ⟨between, betweenFault, failed, failedBehind⟩
    exact failed.trans failedBehind

variable {program : Program} {list unfolded folded : Array Instruction} {store : Store}

/-- Folded code takes the course of unfolded code. -/
theorem courseAlike_folded (codes : BothCodes program unfolded folded)
    (wellFormed : store.tape.WellFormed)
    : CourseAlike (placed (.instructions unfolded) 0 store {})
        (placed (.instructions folded) 0 store {}) := by
  have start := InStep.start program unfolded folded wellFormed
  have course := sameCourse_of_pace (InStep.stays codes) start
  refine course.mono ?_ ?_
  · intro final other same
    exact congrArg Store.output same
  · rintro final fault other otherFault ⟨kind, cause, _, output, _⟩
    exact ⟨output.symm, kind.symm, cause⟩

/-- The interpreter takes the course of folded code, by way of unfolded code. -/
theorem courseAlike_interpreter (codes : BothCodes program unfolded folded)
    (laidOut : Unfolded program unfolded) (wellFormed : store.tape.WellFormed)
    : CourseAlike (placed (.source program) 0 store {})
        (placed (.instructions folded) 0 store {}) := by
  have start := Abreast.start program unfolded store
  have course := sameCourse_of_pace (Abreast.proceeds laidOut) start
  refine (course.trans (courseAlike_folded codes wellFormed)).mono ?_ ?_
  · rintro final other ⟨between, agree, wrote⟩
    exact (congrArg Store.output agree.1).trans wrote
  · rintro final fault other otherFault ⟨between, betweenFault, ⟨rfl, same, _⟩, failed⟩
    exact ⟨(congrArg Store.output same).trans failed.output, failed.kind, failed.cause⟩

end Machine

namespace Configuration

open Machine

variable {program : Program}

/-- Every configuration takes the course of the virtual machine on folded code. -/
theorem exists_code_courseAlike (configuration : Configuration) (matched : program.Matched)
    {folded : Array Instruction} (compiled : program.compile 1 = .ok folded) {store : Store}
    (wellFormed : store.tape.WellFormed)
    : ∃ code,
        configuration.code? program = .ok code
        ∧ CourseAlike (placed code 0 store {}) (placed (.instructions folded) 0 store {}) := by
  obtain ⟨unfolded, unfoldedCompiled, laidOut⟩ := program.exists_laidOut matched 0
  have both {level : Nat} (folds : level ≠ 0) {list : Array Instruction}
      (result : program.compile level = .ok list)
      : BothCodes program unfolded list := by
    obtain ⟨same, again, foldedLaidOut⟩ := program.exists_laidOut matched level
    obtain rfl := Except.ok.inj (result.symm.trans again)
    rw [Program.pieces, if_neg folds] at foldedLaidOut
    rw [← singles_foldedPieces] at laidOut
    exact ⟨laidOut, foldedLaidOut⟩
  have codes := both Nat.one_ne_zero compiled
  unfold code?
  cases engine : configuration.engine with
  | interpreter =>
      exact ⟨_, rfl, courseAlike_interpreter codes ⟨matched, laidOut⟩ wellFormed⟩
  | virtualMachine =>
      have start := courseAlike_folded codes wellFormed
      by_cases unfolds : configuration.level = 0
      · rw [unfolds, unfoldedCompiled]
        exact ⟨_, rfl, start⟩
      · obtain ⟨list, result, _⟩ := program.exists_laidOut matched configuration.level
        rw [result]
        have own := courseAlike_folded (both unfolds result) wellFormed
        exact ⟨_, rfl, own.symm.trans start⟩

/-- Configurations with one cell policy and one tape size take one course on programs whose
brackets match.
-/
theorem exists_courseAlike (left right : Configuration) (policy : left.policy = right.policy)
    (size : left.tapeSize = right.tapeSize) (matched : program.Matched) (input : Input)
    (output : Output)
    : ∃ machine other,
        left.machine? program input output = .ok machine
        ∧ right.machine? program input output = .ok other
        ∧ CourseAlike machine other := by
  obtain ⟨folded, compiled, _⟩ := program.exists_laidOut matched 1
  have wellFormed : (Store.fresh left input output).tape.WellFormed :=
    Tape.wellFormed_blank left.tapeSize_pos left.policy
  have same : Store.fresh right input output = Store.fresh left input output := by
    simp only [Store.fresh, policy, size]
  obtain ⟨code, ofLeft, course⟩ := left.exists_code_courseAlike matched compiled wellFormed
  obtain ⟨otherCode, ofRight, otherCourse⟩ :=
    right.exists_code_courseAlike matched compiled wellFormed
  refine ⟨_, _, ?_, ?_, course.trans otherCourse.symm⟩
  · rw [machine?_eq, ofLeft]
  · rw [machine?_eq, ofRight, same]

end Configuration

end Brainfuck
