import Brainfuck.Proofs.Execution.Comparison
import Brainfuck.Proofs.Execution.Step
import Brainfuck.Proofs.Execution.Visits

/-! Comparison of visits.
Two machines that keep pace, choose the same machines when they are level, and choose none on
the way from one level to the next, make the same visits. Nothing is chosen while one of them
rests, so a level is always reached before a visit.
-/

namespace Brainfuck.Machine

/-- How a comparison goes on from two machines that are level: both are chosen or neither is,
and on the way to where they meet again nothing is.
-/
inductive LevelPace (Related Stop : Machine → Machine → Prop)
    (chosenLeft chosenRight : Machine → Prop) (left right : Machine) : Prop
  | stop (stopped : Stop left right) (aligned : chosenLeft left ↔ chosenRight right)
    (lastLeft : ∀ machine, ¬ ComesTo chosenLeft 1 left machine)
    (lastRight : ∀ machine, ¬ ComesTo chosenRight 1 right machine)
  | both {countLeft countRight nextLeft nextRight}
    (aligned : chosenLeft left ↔ chosenRight right)
    (reachedLeft : left.after? (countLeft + 1) = some nextLeft)
    (quietLeft : Quiet chosenLeft left 1 (countLeft + 1))
    (reachedRight : right.after? (countRight + 1) = some nextRight)
    (quietRight : Quiet chosenRight right 1 (countRight + 1))
    (related : Related nextLeft nextRight)

/-- How a comparison goes on from two related machines, together with their visits. -/
inductive VisitPace (Related Stop : Machine → Machine → Prop)
    (chosenLeft chosenRight : Machine → Prop) (rank : Machine → Nat)
    (left right : Machine) : Prop
  | level (level : LevelPace Related Stop chosenLeft chosenRight left right)
  /-- The right machine rests, and nothing is chosen on the left. -/
  | left {count next} (reached : left.after? (count + 1) = some next)
    (quiet : Quiet chosenLeft left 0 (count + 1)) (falls : rank next < rank left)
    (related : Related next right)

/-- Related machines become level behind quiet steps. -/
def BecomeLevel (Related Stop : Machine → Machine → Prop)
    (chosenLeft chosenRight : Machine → Prop) : Prop :=
  ∀ left right,
    Related left right
    → ∃ countLeft countRight levelLeft levelRight,
        left.after? countLeft = some levelLeft
        ∧ Quiet chosenLeft left 0 countLeft
        ∧ right.after? countRight = some levelRight
        ∧ Quiet chosenRight right 0 countRight
        ∧ Related levelLeft levelRight
        ∧ LevelPace Related Stop chosenLeft chosenRight levelLeft levelRight

/-- Two courses make the same visits, and those of the same number agree. -/
structure VisitsAlike (chosenLeft chosenRight : Machine → Prop)
    (Agree : Machine → Machine → Prop) (left right : Machine) : Prop where
  forth
    : ∀ {number machine},
        Visited chosenLeft left number machine
        → ∃ other, Visited chosenRight right number other ∧ Agree machine other
  back
    : ∀ {number other},
        Visited chosenRight right number other
        → ∃ machine, Visited chosenLeft left number machine ∧ Agree machine other

variable {Related Stop : Machine → Machine → Prop} {chosenLeft chosenRight : Machine → Prop}
  {rank : Machine → Nat} {left right machine : Machine}

/-- A comparison of visits is a comparison of courses. -/
theorem VisitPace.pace (h : VisitPace Related Stop chosenLeft chosenRight rank left right)
    : Pace Related Stop rank left right := by
  cases h with
  | level level =>
      cases level with
      | stop stopped => exact .stop stopped
      | both _ reachedLeft _ reachedRight _ related => exact .both reachedLeft reachedRight related
  | left reached _ falls related => exact .left reached falls related

theorem LevelPace.aligned (h : LevelPace Related Stop chosenLeft chosenRight left right)
    : chosenLeft left ↔ chosenRight right := by
  cases h with
  | stop _ aligned => exact aligned
  | both aligned => exact aligned

theorem LevelPace.swap (h : LevelPace Related Stop chosenLeft chosenRight left right)
    : LevelPace (fun right left => Related left right) (fun right left => Stop left right)
        chosenRight chosenLeft right left := by
  cases h with
  | stop stopped aligned lastLeft lastRight =>
      exact .stop stopped aligned.symm lastRight lastLeft
  | both aligned reachedLeft quietLeft reachedRight quietRight related =>
      exact .both aligned.symm reachedRight quietRight reachedLeft quietLeft related

theorem BecomeLevel.swap (h : BecomeLevel Related Stop chosenLeft chosenRight)
    : BecomeLevel (fun right left => Related left right) (fun right left => Stop left right)
        chosenRight chosenLeft := by
  intro right left related
  obtain ⟨countLeft, countRight, levelLeft, levelRight, reachedLeft, quietLeft, reachedRight,
    quietRight, meets, level⟩ := h left right related
  exact ⟨countRight, countLeft, levelRight, levelLeft, reachedRight, quietRight, reachedLeft,
    quietLeft, meets, level.swap⟩

/-- Machines that keep pace become level, by induction on the rank of the left one. -/
theorem becomeLevel_of_pace
    (pace
      : ∀ {left right},
          Related left right → VisitPace Related Stop chosenLeft chosenRight rank left right)
    : BecomeLevel Related Stop chosenLeft chosenRight := by
  intro left right related
  induction bound : rank left using Nat.strongRecOn generalizing left with
  | ind bound ih =>
      cases pace related with
      | level level =>
          exact ⟨0, 0, left, right, rfl, quiet_none, rfl, quiet_none, related, level⟩
      | @left count next reached quiet falls relatedNext =>
          obtain ⟨countLeft, countRight, levelLeft, levelRight, reachedLeft, quietLeft,
            reachedRight, quietRight, meets, level⟩ :=
            ih (rank next) (bound ▸ falls) next relatedNext rfl
          exact ⟨count + 1 + countLeft, countRight, levelLeft, levelRight,
            (after?_add reached countLeft).trans reachedLeft,
            quiet.append (quietLeft.shift reached), reachedRight, quietRight, meets, level⟩

/-- A chosen machine is level at once: no quiet step leads on from it. -/
theorem eq_of_quiet {start middle : Machine} {count : Nat} (isChosen : chosenLeft start)
    (reached : start.after? count = some middle) (quiet : Quiet chosenLeft start 0 count)
    : middle = start := by
  cases count with
  | zero => exact (Option.some.inj reached).symm
  | succ count =>
      exact absurd isChosen (quiet 0 (Nat.le_refl 0) (Nat.succ_pos count) start rfl)

/-- What the left course comes to, the right one comes to as well. Witness: induction on the
number of steps on the left, of which each level takes some.
-/
theorem BecomeLevel.exists_comesTo (h : BecomeLevel Related Stop chosenLeft chosenRight)
    (related : Related left right) (comes : ComesTo chosenLeft 0 left machine)
    : ∃ other, ComesTo chosenRight 0 right other ∧ Related machine other := by
  obtain ⟨count, comes⟩ := comes
  induction count using Nat.strongRecOn generalizing left right with
  | ind count ih =>
      obtain ⟨countLeft, countRight, levelLeft, levelRight, reachedLeft, quietLeft,
        reachedRight, quietRight, meets, level⟩ := h _ _ related
      obtain ⟨more, rfl, further⟩ := comes.behind (Nat.zero_le _) reachedLeft quietLeft
      have here (same : levelLeft = machine)
          : ∃ other, ComesTo chosenRight 0 right other ∧ Related machine other := by
        subst same
        have isChosen := level.aligned.mp further.isChosen
        exact ⟨levelRight, ⟨countRight, Nat.zero_le _, reachedRight, isChosen, quietRight⟩,
          meets⟩
      cases more with
      | zero => exact here (Option.some.inj further.reached)
      | succ more =>
          cases level with
          | stop _ _ lastLeft _ =>
              refine absurd ⟨more + 1, by omega, further.reached, further.isChosen, ?_⟩
                (lastLeft machine)
              intro index _ lt
              exact further.quiet index (Nat.zero_le _) lt
          | @both stepsLeft stepsRight nextLeft nextRight aligned forward quietForward forwardRight
              quietForwardRight relatedNext =>
              -- The level itself is not chosen, since the visit is behind it.
              have notHere : ¬ chosenLeft levelLeft :=
                further.quiet 0 (Nat.le_refl 0) (by omega) levelLeft rfl
              obtain ⟨rest, split, later⟩ :=
                further.behind (Nat.zero_le _) forward (quietForward.from_start notHere)
              obtain ⟨other, comesRight, agree⟩ := ih rest (by omega) relatedNext later
              have notThere : ¬ chosenRight levelRight := fun isChosen =>
                notHere (aligned.mpr isChosen)
              have comesLevel :=
                comesRight.prepend (Nat.zero_le _) forwardRight
                  (quietForwardRight.from_start notThere)
              exact ⟨other, comesLevel.prepend (Nat.zero_le _) reachedRight quietRight, agree⟩

/-- Behind a visit on both sides the courses come to the same again. -/
theorem BecomeLevel.exists_comesTo_behind (h : BecomeLevel Related Stop chosenLeft chosenRight)
    (related : Related left right) (isChosen : chosenLeft left) (isChosenRight : chosenRight right)
    (comes : ComesTo chosenLeft 1 left machine)
    : ∃ other, ComesTo chosenRight 1 right other ∧ Related machine other := by
  obtain ⟨countLeft, countRight, levelLeft, levelRight, reachedLeft, quietLeft, reachedRight,
    quietRight, meets, level⟩ := h _ _ related
  obtain rfl := eq_of_quiet isChosen reachedLeft quietLeft
  obtain rfl := eq_of_quiet isChosenRight reachedRight quietRight
  cases level with
  | stop _ _ lastLeft _ => exact absurd comes (lastLeft machine)
  | both _ forward quietForward forwardRight quietForwardRight relatedNext =>
      obtain ⟨count, comes⟩ := comes
      obtain ⟨rest, _, later⟩ := comes.behind (Nat.le_add_left 1 _) forward quietForward
      obtain ⟨other, comesRight, agree⟩ := h.exists_comesTo relatedNext ⟨rest, later⟩
      exact ⟨other, comesRight.prepend (Nat.le_add_left 1 _) forwardRight quietForwardRight, agree⟩

/-- Every visit on the left is one on the right, by induction on its number. -/
theorem BecomeLevel.exists_visited (h : BecomeLevel Related Stop chosenLeft chosenRight)
    (related : Related left right) {number : Nat}
    (visited : Visited chosenLeft left number machine)
    : ∃ other, Visited chosenRight right number other ∧ Related machine other := by
  induction visited with
  | first comes =>
      obtain ⟨other, comesRight, agree⟩ := h.exists_comesTo related comes
      exact ⟨other, .first comesRight, agree⟩
  | next before comes ih =>
      obtain ⟨middle, visitedRight, meets⟩ := ih
      obtain ⟨other, comesRight, agree⟩ :=
        h.exists_comesTo_behind meets before.isChosen visitedRight.isChosen comes
      exact ⟨other, .next visitedRight comesRight, agree⟩

/-- Machines that keep pace in their visits make the same ones, in both directions. -/
theorem visitsAlike_of_pace
    (pace
      : ∀ {left right},
          Related left right → VisitPace Related Stop chosenLeft chosenRight rank left right)
    (start : Related left right)
    : VisitsAlike chosenLeft chosenRight Related left right where
  forth visited := by
    have levels : BecomeLevel Related Stop chosenLeft chosenRight := becomeLevel_of_pace pace
    exact levels.exists_visited start visited
  back visited := by
    have levels : BecomeLevel Related Stop chosenLeft chosenRight := becomeLevel_of_pace pace
    exact levels.swap.exists_visited start visited

/-- Visits agree in what follows for chosen machines. -/
theorem VisitsAlike.mono {Agree Weaker : Machine → Machine → Prop}
    (h : VisitsAlike chosenLeft chosenRight Agree left right)
    (weaker
      : ∀ {machine other},
          chosenLeft machine → chosenRight other → Agree machine other → Weaker machine other)
    : VisitsAlike chosenLeft chosenRight Weaker left right where
  forth visited := by
    obtain ⟨other, visitedRight, agree⟩ := h.forth visited
    exact ⟨other, visitedRight, weaker visited.isChosen visitedRight.isChosen agree⟩
  back visited := by
    obtain ⟨machine, visitedLeft, agree⟩ := h.back visited
    exact ⟨machine, visitedLeft, weaker visitedLeft.isChosen visited.isChosen agree⟩

/-- What agrees with something that agrees in turn makes the same visits. -/
theorem VisitsAlike.trans {chosenMiddle : Machine → Prop} {middle : Machine}
    {Agree AgreeBehind : Machine → Machine → Prop}
    (h : VisitsAlike chosenLeft chosenMiddle Agree left middle)
    (behind : VisitsAlike chosenMiddle chosenRight AgreeBehind middle right)
    : VisitsAlike chosenLeft chosenRight
        (fun machine other => ∃ between, Agree machine between ∧ AgreeBehind between other)
        left right where
  forth visited := by
    obtain ⟨between, visitedMiddle, agree⟩ := h.forth visited
    obtain ⟨other, visitedRight, agreeBehind⟩ := behind.forth visitedMiddle
    exact ⟨other, visitedRight, between, agree, agreeBehind⟩
  back visited := by
    obtain ⟨between, visitedMiddle, agreeBehind⟩ := behind.back visited
    obtain ⟨machine, visitedLeft, agree⟩ := h.back visitedMiddle
    exact ⟨machine, visitedLeft, between, agree, agreeBehind⟩

-----------------------------------------------------------------------------------------
-- Machines at given addresses
-----------------------------------------------------------------------------------------

/-- A machine is about to execute what stands at one of these addresses. -/
def Awaiting (addresses : Nat → Prop) (machine : Machine) : Prop :=
  machine.finished = false
  ∧ ∃ address : Nat, machine.counter = address ∧ addresses address

theorem awaiting_placed {addresses : Nat → Prop} {code : Code} {address : Nat} {store : Store}
    {metrics : Metrics} (inside : address < code.length)
    : Awaiting addresses (placed code address store metrics) ↔ addresses address := by
  constructor
  · intro awaits
    rcases awaits with ⟨_, other, same, awaited⟩
    exact Int.ofNat_inj.mp same ▸ awaited
  · intro awaited
    exact ⟨unfinished_placed.mpr inside, address, rfl, awaited⟩

theorem not_awaiting_of_finished {addresses : Nat → Prop} (done : machine.finished = true)
    : ¬ Awaiting addresses machine := by
  intro awaits
  rcases awaits with ⟨unfinished, _⟩
  rw [done] at unfinished
  contradiction

end Brainfuck.Machine
