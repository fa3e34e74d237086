import Brainfuck.Proofs.Execution.Course

/-! Comparison of two courses.
Two machines that are related, and that come to related machines again and again until the
comparison stops, have courses of the same kind. One of them may rest while the other steps,
as long as a rank falls meanwhile; without it a machine that rests could be compared with
one that never ends.
-/

namespace Brainfuck.Machine

-----------------------------------------------------------------------------------------
-- A run ends in one way only
-----------------------------------------------------------------------------------------

/-- A run returns with one machine only, since no step leads on from a finished one. -/
theorem FinishesAs.unique {machine left right : Machine} (hl : machine.FinishesAs left)
    (hr : machine.FinishesAs right)
    : left = right := by
  obtain ⟨first, reachedLeft, doneLeft⟩ := finishesAs_iff.mp hl
  obtain ⟨second, reachedRight, doneRight⟩ := finishesAs_iff.mp hr
  exact (after?_unique reachedLeft reachedRight (by simp [step_of_finished doneLeft])
    (by simp [step_of_finished doneRight])).2

/-- A run fails with one machine and one fault only, since steps have one outcome. -/
theorem FailsAs.unique {machine left right : Machine} {first second : Fault}
    (hl : machine.FailsAs left first) (hr : machine.FailsAs right second)
    : left = right ∧ first = second := by
  obtain ⟨_, lastLeft, reachedLeft, _, stepLeft⟩ := failsAs_iff.mp hl
  obtain ⟨_, lastRight, reachedRight, _, stepRight⟩ := failsAs_iff.mp hr
  have same := (after?_unique reachedLeft reachedRight (by simp [stepLeft])
    (by simp [stepRight])).2
  subst same
  simpa using stepLeft.symm.trans stepRight

/-- A run that returns does not fail: both would stop at the same machine, finished or not.
-/
theorem FinishesAs.not_failsAs {machine final other : Machine} {fault : Fault}
    (h : machine.FinishesAs final)
    : ¬ machine.FailsAs other fault := by
  intro fails
  obtain ⟨_, reached, done⟩ := finishesAs_iff.mp h
  obtain ⟨_, last, reachedLast, unfinished, step⟩ := failsAs_iff.mp fails
  have same := (after?_unique reached reachedLast (by simp [step_of_finished done])
    (by simp [step])).2
  rw [same, unfinished] at done
  contradiction

theorem FinishesAs.not_runsForever {machine final : Machine} (h : machine.FinishesAs final)
    : ¬ machine.RunsForever := by
  obtain ⟨allowance, _, ending⟩ := h
  intro forever
  simp [forever allowance] at ending

theorem FailsAs.not_runsForever {machine final : Machine} {fault : Fault}
    (h : machine.FailsAs final fault)
    : ¬ machine.RunsForever := by
  obtain ⟨allowance, _, ending⟩ := h
  intro forever
  simp [forever allowance] at ending

theorem FinishesAs.of_finished {machine : Machine} (done : machine.finished = true)
    : machine.FinishesAs machine :=
  finishesAs_iff.mpr ⟨0, rfl, done⟩

theorem FailsAs.of_step {machine next : Machine} {fault : Fault}
    (unfinished : machine.finished = false)
    (step : machine.step = { machine := next, fault? := some fault })
    : machine.FailsAs next fault :=
  failsAs_iff.mpr ⟨0, machine, rfl, unfinished, step⟩

theorem FinishesAs.prepend {machine middle final : Machine} {count : Nat}
    (h : middle.FinishesAs final) (reached : machine.after? count = some middle)
    : machine.FinishesAs final := by
  obtain ⟨more, behind, done⟩ := finishesAs_iff.mp h
  exact finishesAs_iff.mpr ⟨count + more, (after?_add reached more).trans behind, done⟩

theorem FailsAs.prepend {machine middle final : Machine} {fault : Fault} {count : Nat}
    (h : middle.FailsAs final fault) (reached : machine.after? count = some middle)
    : machine.FailsAs final fault := by
  obtain ⟨more, last, behind, fails⟩ := failsAs_iff.mp h
  exact failsAs_iff.mpr ⟨count + more, last, (after?_add reached more).trans behind, fails⟩

/-- A machine that takes more steps than any number runs for ever, because it takes all
the steps in front of them.
-/
theorem runsForever_of_unbounded {machine : Machine}
    (h : ∀ bound, ∃ count last, bound ≤ count ∧ machine.after? count = some last)
    : machine.RunsForever := by
  apply runsForever_iff.mpr
  intro bound
  obtain ⟨count, last, le, reached⟩ := h (bound + 1)
  obtain ⟨middle, _, passed, _⟩ := exists_step_of_after?_lt reached (by omega : bound < count)
  exact Option.isSome_of_eq_some passed

/-- A machine that comes to one that runs for ever does so itself. -/
theorem RunsForever.prepend {machine middle : Machine} {count : Nat}
    (h : middle.RunsForever) (reached : machine.after? count = some middle)
    : machine.RunsForever := by
  apply runsForever_of_unbounded
  intro bound
  obtain ⟨last, behind⟩ := Option.isSome_iff_exists.mp (runsForever_iff.mp h bound)
  exact ⟨count + bound, last, Nat.le_add_left bound count, (after?_add reached bound).trans behind⟩

-----------------------------------------------------------------------------------------
-- Courses of the same kind
-----------------------------------------------------------------------------------------

/-- The runs of two machines both return, both fail or both never end, and what they leave
behind at their end is related.
-/
structure SameCourse (left right : Machine) (finals : Machine → Machine → Prop)
    (failures : Machine → Fault → Machine → Fault → Prop) : Prop where
  finish : (∃ final, left.FinishesAs final) ↔ ∃ final, right.FinishesAs final
  fail
    : (∃ final fault, left.FailsAs final fault) ↔ ∃ final fault, right.FailsAs final fault
  forever : left.RunsForever ↔ right.RunsForever
  related
    : ∀ {finalLeft finalRight},
        left.FinishesAs finalLeft
        → right.FinishesAs finalRight
        → finals finalLeft finalRight
  failed
    : ∀ {finalLeft finalRight faultLeft faultRight},
        left.FailsAs finalLeft faultLeft
        → right.FailsAs finalRight faultRight
        → failures finalLeft faultLeft finalRight faultRight

theorem SameCourse.of_finish {left right finalLeft finalRight : Machine}
    {finals : Machine → Machine → Prop} {failures : Machine → Fault → Machine → Fault → Prop}
    (hl : left.FinishesAs finalLeft) (hr : right.FinishesAs finalRight)
    (related : finals finalLeft finalRight)
    : SameCourse left right finals failures where
  finish := iff_of_true ⟨_, hl⟩ ⟨_, hr⟩
  fail :=
    iff_of_false (fun ⟨_, _, fails⟩ => hl.not_failsAs fails)
      (fun ⟨_, _, fails⟩ => hr.not_failsAs fails)
  forever := iff_of_false hl.not_runsForever hr.not_runsForever
  related otherLeft otherRight := hl.unique otherLeft ▸ hr.unique otherRight ▸ related
  failed fails := absurd fails hl.not_failsAs

theorem SameCourse.of_fail {left right finalLeft finalRight : Machine}
    {faultLeft faultRight : Fault} {finals : Machine → Machine → Prop}
    {failures : Machine → Fault → Machine → Fault → Prop}
    (hl : left.FailsAs finalLeft faultLeft) (hr : right.FailsAs finalRight faultRight)
    (failed : failures finalLeft faultLeft finalRight faultRight)
    : SameCourse left right finals failures where
  finish :=
    iff_of_false (fun ⟨_, finishes⟩ => finishes.not_failsAs hl)
      (fun ⟨_, finishes⟩ => finishes.not_failsAs hr)
  fail := iff_of_true ⟨_, _, hl⟩ ⟨_, _, hr⟩
  forever := iff_of_false hl.not_runsForever hr.not_runsForever
  related finishes := absurd hl finishes.not_failsAs
  failed otherLeft otherRight := by
    obtain ⟨rfl, rfl⟩ := hl.unique otherLeft
    obtain ⟨rfl, rfl⟩ := hr.unique otherRight
    exact failed

theorem SameCourse.of_forever {left right : Machine} {finals : Machine → Machine → Prop}
    {failures : Machine → Fault → Machine → Fault → Prop} (hl : left.RunsForever)
    (hr : right.RunsForever)
    : SameCourse left right finals failures where
  finish :=
    iff_of_false (fun ⟨_, finishes⟩ => finishes.not_runsForever hl)
      (fun ⟨_, finishes⟩ => finishes.not_runsForever hr)
  fail :=
    iff_of_false (fun ⟨_, _, fails⟩ => fails.not_runsForever hl)
      (fun ⟨_, _, fails⟩ => fails.not_runsForever hr)
  forever := iff_of_true hl hr
  related finishes := absurd hl finishes.not_runsForever
  failed fails := absurd hl fails.not_runsForever

/-- Courses of the same kind as a third one are of the same kind. -/
theorem SameCourse.trans {left middle right : Machine}
    {finals finalsBehind : Machine → Machine → Prop}
    {failures failuresBehind : Machine → Fault → Machine → Fault → Prop}
    (h : SameCourse left middle finals failures)
    (behind : SameCourse middle right finalsBehind failuresBehind)
    : SameCourse left right
        (fun final other => ∃ between, finals final between ∧ finalsBehind between other)
        (fun final fault other otherFault =>
          ∃ between betweenFault,
            failures final fault between betweenFault
            ∧ failuresBehind between betweenFault other otherFault) where
  finish := h.finish.trans behind.finish
  fail := h.fail.trans behind.fail
  forever := h.forever.trans behind.forever
  related finishLeft finishRight := by
    obtain ⟨between, finishes⟩ := h.finish.mp ⟨_, finishLeft⟩
    exact ⟨between, h.related finishLeft finishes, behind.related finishes finishRight⟩
  failed failLeft failRight := by
    obtain ⟨between, fault, fails⟩ := h.fail.mp ⟨_, _, failLeft⟩
    exact ⟨between, fault, h.failed failLeft fails, behind.failed fails failRight⟩

theorem SameCourse.mono {left right : Machine} {finals weaker : Machine → Machine → Prop}
    {failures weakerFailures : Machine → Fault → Machine → Fault → Prop}
    (h : SameCourse left right finals failures)
    (finish : ∀ {final other}, finals final other → weaker final other)
    (fail
      : ∀ {final fault other otherFault},
          failures final fault other otherFault → weakerFailures final fault other otherFault)
    : SameCourse left right weaker weakerFailures where
  finish := h.finish
  fail := h.fail
  forever := h.forever
  related finishLeft finishRight := finish (h.related finishLeft finishRight)
  failed failLeft failRight := fail (h.failed failLeft failRight)

-----------------------------------------------------------------------------------------
-- Machines that keep pace with each other
-----------------------------------------------------------------------------------------

/-- Two runs end in related ways. -/
inductive Ends (finals : Machine → Machine → Prop)
    (failures : Machine → Fault → Machine → Fault → Prop) (left right : Machine) : Prop
  | finish {finalLeft finalRight} (finishLeft : left.FinishesAs finalLeft)
    (finishRight : right.FinishesAs finalRight) (related : finals finalLeft finalRight)
  | fail {finalLeft finalRight faultLeft faultRight}
    (failLeft : left.FailsAs finalLeft faultLeft)
    (failRight : right.FailsAs finalRight faultRight)
    (failed : failures finalLeft faultLeft finalRight faultRight)

/-- How a comparison goes on from two related machines. -/
inductive Pace (Related Stop : Machine → Machine → Prop) (rank : Machine → Nat)
    (left right : Machine) : Prop
  | stop (stopped : Stop left right)
  /-- Both machines step at least once. -/
  | both {countLeft countRight nextLeft nextRight}
    (reachedLeft : left.after? (countLeft + 1) = some nextLeft)
    (reachedRight : right.after? (countRight + 1) = some nextRight)
    (related : Related nextLeft nextRight)
  /-- The right machine rests. -/
  | left {count next} (reached : left.after? (count + 1) = some next)
    (falls : rank next < rank left) (related : Related next right)

section Paces

variable {Related Stop : Machine → Machine → Prop} {rank : Machine → Nat}

/-- Two machines reach related ones after given numbers of steps. -/
structure Meets (Related : Machine → Machine → Prop) (left right : Machine)
    (countLeft countRight : Nat) (nextLeft nextRight : Machine) : Prop where
  reachedLeft : left.after? countLeft = some nextLeft
  reachedRight : right.after? countRight = some nextRight
  related : Related nextLeft nextRight

theorem Meets.prepend {left right middleLeft middleRight nextLeft nextRight : Machine}
    {firstLeft firstRight countLeft countRight : Nat}
    (hl : left.after? firstLeft = some middleLeft)
    (hr : right.after? firstRight = some middleRight)
    (h : Meets Related middleLeft middleRight countLeft countRight nextLeft nextRight)
    : Meets Related left right (firstLeft + countLeft) (firstRight + countRight)
        nextLeft nextRight where
  reachedLeft := (after?_add hl _).trans h.reachedLeft
  reachedRight := (after?_add hr _).trans h.reachedRight
  related := h.related

/-- Unless the comparison stops somewhere, both machines step and meet again. Witness:
induction on the rank, which falls as long as the right machine rests.
-/
theorem exists_later_meeting
    (pace : ∀ {left right}, Related left right → Pace Related Stop rank left right)
    {left right : Machine} (start : Related left right)
    (goesOn
      : ∀ countLeft countRight nextLeft nextRight,
          Meets Related left right countLeft countRight nextLeft nextRight
          → ¬ Stop nextLeft nextRight)
    : ∃ countLeft countRight nextLeft nextRight,
        Meets Related left right (countLeft + 1) (countRight + 1) nextLeft nextRight := by
  induction bound : rank left using Nat.strongRecOn generalizing left with
  | ind bound ih =>
      cases pace start with
      | stop stopped => exact absurd stopped (goesOn 0 0 left right ⟨rfl, rfl, start⟩)
      | both reachedLeft reachedRight related =>
          exact ⟨_, _, _, _, reachedLeft, reachedRight, related⟩
      | @left count next reached falls related =>
          -- The right machine rests, so the meeting is one of the next left machine.
          have later := ih (rank next) (bound ▸ falls) related
            (fun countLeft countRight nextLeft nextRight meets =>
              goesOn _ _ nextLeft nextRight (meets.prepend reached (after?_zero right))) rfl
          obtain ⟨countLeft, countRight, nextLeft, nextRight, meets⟩ := later
          refine ⟨count + 1 + countLeft, countRight, nextLeft, nextRight, ?_⟩
          simpa only [Nat.add_assoc, Nat.zero_add]
            using meets.prepend reached (after?_zero right)

/-- Unless the comparison stops somewhere, both machines take any number of steps and meet
behind them, by induction on that number.
-/
theorem exists_meeting_behind
    (pace : ∀ {left right}, Related left right → Pace Related Stop rank left right)
    {left right : Machine} (start : Related left right)
    (goesOn
      : ∀ countLeft countRight nextLeft nextRight,
          Meets Related left right countLeft countRight nextLeft nextRight
          → ¬ Stop nextLeft nextRight)
    (bound : Nat)
    : ∃ countLeft countRight nextLeft nextRight,
        bound ≤ countLeft
        ∧ bound ≤ countRight
        ∧ Meets Related left right countLeft countRight nextLeft nextRight := by
  induction bound with
  | zero => exact ⟨0, 0, left, right, Nat.zero_le _, Nat.zero_le _, rfl, rfl, start⟩
  | succ bound ih =>
      obtain ⟨countLeft, countRight, middleLeft, middleRight, hl, hr, meets⟩ := ih
      have later := exists_later_meeting pace meets.related
        (fun _ _ nextLeft nextRight again =>
          goesOn _ _ nextLeft nextRight (again.prepend meets.reachedLeft meets.reachedRight))
      obtain ⟨moreLeft, moreRight, nextLeft, nextRight, again⟩ := later
      exact ⟨countLeft + (moreLeft + 1), countRight + (moreRight + 1), nextLeft, nextRight,
        by omega, by omega, again.prepend meets.reachedLeft meets.reachedRight⟩

/-- Machines that keep pace meet where the comparison stops, or both run for ever. -/
theorem meets_or_runsForever
    (pace : ∀ {left right}, Related left right → Pace Related Stop rank left right)
    {left right : Machine} (start : Related left right)
    : (∃ countLeft countRight nextLeft nextRight,
        Meets Related left right countLeft countRight nextLeft nextRight
        ∧ Stop nextLeft nextRight)
      ∨ left.RunsForever ∧ right.RunsForever := by
  by_cases stops : ∃ countLeft countRight nextLeft nextRight,
      Meets Related left right countLeft countRight nextLeft nextRight
      ∧ Stop nextLeft nextRight
  · exact Or.inl stops
  · have later := exists_meeting_behind pace start
      (fun countLeft countRight nextLeft nextRight meets stopped =>
        stops ⟨countLeft, countRight, nextLeft, nextRight, meets, stopped⟩)
    refine Or.inr ⟨runsForever_of_unbounded ?_, runsForever_of_unbounded ?_⟩ <;> intro bound
    · obtain ⟨count, _, next, _, le, _, meets⟩ := later bound
      exact ⟨count, next, le, meets.reachedLeft⟩
    · obtain ⟨_, count, _, next, _, le, meets⟩ := later bound
      exact ⟨count, next, le, meets.reachedRight⟩

/-- Machines that keep pace up to related ends have the same course. -/
theorem sameCourse_of_pace {finals : Machine → Machine → Prop}
    {failures : Machine → Fault → Machine → Fault → Prop}
    (pace
      : ∀ {left right},
          Related left right → Pace Related (Ends finals failures) rank left right)
    {left right : Machine} (start : Related left right)
    : SameCourse left right finals failures := by
  rcases meets_or_runsForever pace start with
    ⟨_, _, _, _, meets, ends⟩ | ⟨foreverLeft, foreverRight⟩
  · cases ends with
    | finish finishLeft finishRight related =>
        exact .of_finish (finishLeft.prepend meets.reachedLeft)
          (finishRight.prepend meets.reachedRight) related
    | fail failLeft failRight failed =>
        exact .of_fail (failLeft.prepend meets.reachedLeft)
          (failRight.prepend meets.reachedRight) failed
  · exact .of_forever foreverLeft foreverRight

end Paces

end Brainfuck.Machine
