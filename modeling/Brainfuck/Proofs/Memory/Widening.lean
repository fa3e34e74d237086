import Brainfuck.Proofs.Execution.Comparison
import Brainfuck.Proofs.Execution.Listening
import Brainfuck.Proofs.Memory.Shape

/-! Tapes with more cells.
Cells behind the end of a tape are neither read nor written before a move would reach them, and a
tape that ends there fails at that move. So a larger tape makes no difference up to that step, and
none at all when there is no such step.
-/

namespace Brainfuck

-----------------------------------------------------------------------------------------
-- Widened tapes
-----------------------------------------------------------------------------------------

namespace Tape

/-- The tape with more cells behind its end, all of them zero. -/
def widen (tape : Tape) (extra : Nat) : Tape :=
  { tape with cells := tape.cells ++ Array.replicate extra 0 }

@[simp] theorem size_widen (tape : Tape) (extra : Nat)
    : (tape.widen extra).size = tape.size + extra := by
  simp [widen, size]

theorem blank_widen (size extra : Nat) (policy : CellPolicy)
    : (blank size policy).widen extra = blank (size + extra) policy := by
  simp [widen, blank]

/-- Behind its end a tape reads as zero anyway. -/
@[simp] theorem current_widen (tape : Tape) (extra : Nat)
    : (tape.widen extra).current = tape.current := by
  simp only [current, widen, Array.getD_eq_getD_getElem?]
  rw [Array.getElem?_append]
  split
  · rfl
  · rename_i behind
    rw [Array.getElem?_eq_none (Nat.not_lt.mp behind), Array.getElem?_replicate]
    split <;> rfl

/-- What is put on a tape is put in front of the cells behind its end. -/
theorem put_widen {tape : Tape} (inside : tape.pointer < tape.size) (extra : Nat) (value : Int)
    : (tape.widen extra).put value = (tape.put value).widen extra := by
  have here : tape.pointer < tape.cells.size := inside
  simp only [put, widen, Array.setIfInBounds_append_left here]

end Tape

/-- A tape with this shape has this number of cells. -/
theorem Tape.HasShape.size_nat {tape : Tape} {size : Nat} {policy : CellPolicy}
    (shape : tape.HasShape size policy)
    : tape.size = size :=
  Int.ofNat_inj.mp shape.size_eq

/-- The store with more cells behind the end of its tape. -/
def Store.widen (store : Store) (extra : Nat) : Store :=
  { store with tape := store.tape.widen extra }

@[simp] theorem Store.tape_widen (store : Store) (extra : Nat)
    : (store.widen extra).tape = store.tape.widen extra :=
  rfl

/-- The fault with the size of another tape, where it mentions one. -/
def Fault.onTape (size : Nat) : Fault → Fault
  | .pointerOutOfRange target _ => .pointerOutOfRange target size
  | fault => fault

theorem Fault.onTape_of_kind {fault : Fault} (kind : fault.kind ≠ .pointerOutOfRange)
    (size : Nat)
    : fault.onTape size = fault := by
  cases fault <;> first | rfl | exact absurd rfl kind

/-- An action does the same in front of more cells, unless it moves to one of them. -/
theorem Store.act_widen {store : Store} (inside : store.tape.pointer < store.tape.size)
    {action : Action}
    (stays : ∀ distance, action = .move distance → store.tape.pointer + distance < store.tape.size)
    (extra : Nat)
    : (store.widen extra).act action
      = match store.act action with
        | .error fault => .error (fault.onTape (store.tape.size + extra))
        | .ok next => .ok (next.widen extra) := by
  cases action with
  | move distance =>
      have behind := stays distance rfl
      have pointer : (store.tape.widen extra).pointer = store.tape.pointer := rfl
      simp only [act, Tape.moved_eq, tape_widen, Tape.size_widen, pointer]
      by_cases front : 0 ≤ (store.tape.pointer : Int) + distance
      · rw [if_pos ⟨front, by omega⟩, if_pos ⟨front, behind⟩]
        rfl
      · rw [if_neg fun both => front both.1, if_neg fun both => front both.1]
        rfl
  | add amount =>
      cases policy : store.tape.policy with
      | wrapping =>
          have also : (store.tape.widen extra).policy = .wrapping := policy
          simp only [act, Tape.added_of_wrapping policy, tape_widen, Tape.added_of_wrapping also,
            Tape.current_widen, Tape.put_widen inside]
          rfl
      | checked =>
          have also : (store.tape.widen extra).policy = .checked := policy
          simp only [act, Tape.added_of_checked policy, tape_widen, Tape.added_of_checked also,
            Tape.current_widen, Tape.put_widen inside]
          by_cases signed : IsSignedByte (store.tape.current + amount)
          · simp only [if_pos signed]
            rfl
          · simp only [if_neg signed]
            rfl
  | read =>
      simp only [act, Tape.write, tape_widen, Tape.put_widen inside]
      rfl
  | write =>
      simp only [act, tape_widen, Tape.current_widen]
      rfl

namespace Machine

-----------------------------------------------------------------------------------------
-- Steps on widened tapes
-----------------------------------------------------------------------------------------

/-- The machine with more cells behind the end of its tape. -/
def widen (machine : Machine) (extra : Nat) : Machine :=
  { machine with tape := machine.tape.widen extra }

@[simp] theorem tape_widen (machine : Machine) (extra : Nat)
    : (machine.widen extra).tape = machine.tape.widen extra :=
  rfl

@[simp] theorem store_widen (machine : Machine) (extra : Nat)
    : (machine.widen extra).store = machine.store.widen extra :=
  rfl

@[simp] theorem code_widen (machine : Machine) (extra : Nat)
    : (machine.widen extra).code = machine.code :=
  rfl

@[simp] theorem counter_widen (machine : Machine) (extra : Nat)
    : (machine.widen extra).counter = machine.counter :=
  rfl

/-- The next step fails because it would move behind the end of the tape. -/
def RunsOff (machine : Machine) : Prop :=
  ∃ target size,
    machine.step.fault? = some (.pointerOutOfRange target size) ∧ machine.tape.size ≤ target

variable {machine : Machine} {size : Nat} {policy : CellPolicy}

theorem notice_widen (machine : Machine) (extra : Nat)
    : (machine.widen extra).notice = machine.notice := by
  unfold notice
  rw [tape_widen, Tape.current_widen]
  rfl

/-- Only a machine that has finished, or has left its code, has no notice. -/
theorem kind_of_unannounced {fault : Fault} (unannounced : machine.notice = .error fault)
    : fault.kind = .illegalResume ∨ fault.kind = .badIndex := by
  have failed := step_of_unannounced unannounced
  cases machine.stepping with
  | completed done step =>
      cases failed.symm.trans step
      exact Or.inl rfl
  | missing unfinished front kind step =>
      cases failed.symm.trans step
      exact Or.inr kind
  | fails unfinished inside announced effect step
  | passes unfinished inside announced effect step =>
      rw [unannounced] at announced
      contradiction

/-- A move that does not run off ends in front of the end of the tape. -/
theorem lt_size_of_not_runsOff {notice : Notice} (announced : machine.notice = .ok notice)
    (stays : ¬ machine.RunsOff) {distance : Int}
    (moves : notice.unit.action? = some (.move distance))
    : machine.tape.pointer + distance < machine.tape.size := by
  apply Int.not_le.mp
  intro behind
  apply stays
  refine ⟨machine.tape.pointer + distance, machine.tape.size, ?_, behind⟩
  have outside
      : ¬ (0 ≤ (machine.store.tape.pointer : Int) + distance
          ∧ (machine.store.tape.pointer : Int) + distance < machine.store.tape.size) :=
    fun both => Int.not_lt.mpr behind both.2
  simp only [step, announced, perform_eq, effect_of_action machine moves, Store.act,
    Tape.moved_eq, if_neg outside, Store.withTape]
  rfl

/-- A unit has the same effect in front of more cells, unless it runs off. -/
theorem effect_widen {notice : Notice} (announced : machine.notice = .ok notice)
    (inside : machine.tape.pointer < machine.tape.size) (stays : ¬ machine.RunsOff)
    (extra : Nat)
    : (machine.widen extra).effect notice.unit
      = match machine.effect notice.unit with
        | .error fault => .error (fault.onTape (machine.tape.size + extra))
        | .ok (store, passage) => .ok (store.widen extra, passage) := by
  cases does : notice.unit.action? with
  | none =>
      rw [effect_of_no_action _ does, effect_of_no_action _ does, tape_widen, Tape.current_widen,
        code_widen, counter_widen]
      cases led : notice.unit.passage machine.code machine.counter machine.tape.current with
      | error fault =>
          have kind : fault.kind ≠ .pointerOutOfRange := by
            rcases CodeUnit.kind_of_passage led with kind | kind <;> simp [kind]
          simp only [Fault.onTape_of_kind kind]
      | ok passage => rfl
  | some action =>
      have within : machine.store.tape.pointer < machine.store.tape.size := inside
      rw [effect_of_action _ does, effect_of_action _ does, store_widen, Store.act_widen within]
      · cases machine.store.act action <;> rfl
      · intro distance moves
        exact lt_size_of_not_runsOff announced stays (moves ▸ does)

/-- A step does the same in front of more cells, unless it runs off. -/
theorem step_widen (inside : machine.tape.pointer < machine.tape.size)
    (stays : ¬ machine.RunsOff) (extra : Nat)
    : (machine.widen extra).step
      = {
          machine := machine.step.machine.widen extra
          fault? := machine.step.fault?.map (Fault.onTape (machine.tape.size + extra))
        } := by
  unfold step
  rw [notice_widen]
  cases announced : machine.notice with
  | error fault =>
      have kind : fault.kind ≠ .pointerOutOfRange := by
        rcases kind_of_unannounced announced with kind | kind <;> simp [kind]
      simp only [Option.map_some, Fault.onTape_of_kind kind]
  | ok notice =>
      simp only [perform_eq, effect_widen announced inside stays]
      cases machine.effect notice.unit <;> rfl

-----------------------------------------------------------------------------------------
-- Runs on two tapes
-----------------------------------------------------------------------------------------

/-- Machines that only the size of their tapes tells apart: the larger one goes on with zeros. -/
structure AgreeUpToSize (size larger : Nat) (small large : Machine) : Prop where
  code : large.code = small.code
  counter : large.counter = small.counter
  policy : large.tape.policy = small.tape.policy
  pointer : large.tape.pointer = small.tape.pointer
  sizes : small.tape.size = size ∧ large.tape.size = larger
  cells : ∀ address < size, large.tape.cells[address]? = small.tape.cells[address]?
  zeros
    : ∀ address,
        size ≤ address → address < larger → large.tape.cells[address]? = some 0
  input : large.input = small.input
  output : large.output = small.output
  metrics : large.metrics = small.metrics

/-- Faults that are the same, up to the size of the tape when a move would leave it in front. -/
inductive SameUpToSize (size larger : Nat) : Fault → Fault → Prop
  | same (fault : Fault) : SameUpToSize size larger fault fault
  | inFront {target : Int} (front : target < 0)
    : SameUpToSize size larger (.pointerOutOfRange target size) (.pointerOutOfRange target larger)

/-- How a run on a tape compares with the run on a larger one. -/
structure UnchangedByCells (size larger : Nat) (small large : Machine) : Prop where
  /-- Up to the first step that runs off the machines agree. -/
  alike
    : ∀ count,
        (∀ earlier < count, ¬ (small.tried earlier).RunsOff)
        → AgreeUpToSize size larger (small.tried count) (large.tried count)
  /-- Up to the first step that runs off the same steps fail. -/
  faults
    : ∀ count,
        (∀ earlier ≤ count, ¬ (small.tried earlier).RunsOff)
        → Option.Rel (SameUpToSize size larger) (small.tried count).step.fault?
            (large.tried count).step.fault?
  course
    : (∀ count, ¬ (small.tried count).RunsOff)
      → SameCourse small large (AgreeUpToSize size larger)
          fun final fault other otherFault =>
            AgreeUpToSize size larger final other ∧ SameUpToSize size larger fault otherFault

/-- More cells leave everything alone but the size. -/
theorem agreeUpToSize_widen (shape : machine.tape.HasShape size policy) (extra : Nat)
    : AgreeUpToSize size (size + extra) machine (machine.widen extra) := by
  have same := shape.size_nat
  have cells : machine.tape.cells.size = size := same
  refine ⟨rfl, rfl, rfl, rfl, ⟨same, ?_⟩, ?_, ?_, rfl, rfl, rfl⟩
  · rw [← same]
    exact machine.tape.size_widen extra
  · intro address inside
    simp [widen, Tape.widen, Array.getElem?_append, cells, inside]
  · intro address behind within
    have outside : ¬ address < size := Nat.not_lt.mpr behind
    have further : address - size < extra := by omega
    simp [widen, Tape.widen, Array.getElem?_append, cells, outside, further]

theorem reachable_tried (start : Machine) (count : Nat) : Reachable start (start.tried count) := by
  induction count with
  | zero => exact .start
  | succ count ih => exact ih.step

theorem hasShape_tried (shape : machine.tape.HasShape size policy) (count : Nat)
    : (machine.tried count).tape.HasShape size policy :=
  (machine.reachable_tried count).hasShape shape

/-- A step that fails does so alike in front of more cells, unless it runs off: then its target
is in front of the tape, if it fails for a move at all.
-/
theorem sameUpToSize_onTape (shape : machine.tape.HasShape size policy)
    (stays : ¬ machine.RunsOff) {fault : Fault} (fails : machine.step.fault? = some fault)
    (extra : Nat)
    : SameUpToSize size (size + extra) fault (fault.onTape (size + extra)) := by
  have other (kind : fault.kind ≠ .pointerOutOfRange)
      : SameUpToSize size (size + extra) fault (fault.onTape (size + extra)) := by
    rw [Fault.onTape_of_kind kind]
    exact .same fault
  cases machine.stepping with
  | completed done step =>
      rw [step] at fails
      cases fails
      exact .same _
  | missing unfinished front kind step =>
      rw [step] at fails
      cases fails
      exact other (by simp [kind])
  | passes unfinished inside announced effect step => simp [step] at fails
  | fails unfinished inside announced effect step =>
      rw [step] at fails
      cases fails
      rcases refuses_or_lost effect with ⟨action, _, refuses⟩ | lost
      · cases refuses with
        | @move distance outside =>
            have same : machine.store.tape.size = size := shape.size_nat
            rw [same] at outside ⊢
            refine .inFront (Int.not_le.mp ?_)
            intro behind
            refine stays ⟨_, _, by rw [step], ?_⟩
            rw [shape.size_eq]
            omega
        | add checked overflows => exact other (by simp [Fault.kind])
      · rcases CodeUnit.kind_of_passage lost with kind | kind <;> exact other (by simp [kind])

/-- Attempted steps lead to the same machine in front of more cells as long as none runs off, by
induction on the steps.
-/
theorem tried_widen (shape : machine.tape.HasShape size policy) (extra : Nat) {count : Nat}
    (stays : ∀ earlier < count, ¬ (machine.tried earlier).RunsOff)
    : (machine.widen extra).tried count = (machine.tried count).widen extra := by
  induction count with
  | zero => rfl
  | succ count ih =>
      have same := ih fun earlier lt => stays earlier (Nat.lt_succ_of_lt lt)
      have inside := (hasShape_tried shape count).wellFormed.pointer_lt
      rw [tried, same, step_widen inside (stays count (Nat.lt_succ_self count)), tried]

/-- Steps that succeed do so in front of more cells, by induction on them. -/
theorem after?_widen (shape : machine.tape.HasShape size policy) (extra : Nat)
    (stays : ∀ earlier, ¬ (machine.tried earlier).RunsOff) {last : Machine} {count : Nat}
    (reached : machine.after? count = some last)
    : (machine.widen extra).after? count = some (last.widen extra) := by
  induction count generalizing machine with
  | zero =>
      cases reached
      rfl
  | succ count ih =>
      obtain ⟨next, step, rest⟩ := exists_step_of_after? reached
      have first : machine.tried 1 = next := by rw [tried, tried, step]
      have wide := step_widen shape.wellFormed.pointer_lt (stays 0) extra
      rw [step] at wide
      have further : next.tape.HasShape size policy :=
        first ▸ hasShape_tried shape 1
      refine (after?_succ wide count).trans (ih further ?_ rest)
      intro earlier
      rw [← first, tried_add]
      exact stays (1 + earlier)

/-- Without a step that runs off a run takes the same course in front of more cells. -/
theorem sameCourse_widen (shape : machine.tape.HasShape size policy) (extra : Nat)
    (stays : ∀ earlier, ¬ (machine.tried earlier).RunsOff)
    : SameCourse machine (machine.widen extra) (AgreeUpToSize size (size + extra))
        fun final fault other otherFault =>
          AgreeUpToSize size (size + extra) final other
          ∧ SameUpToSize size (size + extra) fault otherFault := by
  have further := hasShape_tried shape
  rcases machine.course with ⟨final, finishes⟩ | ⟨final, fault, fails⟩ | forever
  · obtain ⟨count, reached, done⟩ := finishesAs_iff.mp finishes
    have also := finishesAs_iff.mpr ⟨count, after?_widen shape extra stays reached, done⟩
    exact .of_finish finishes also
      (agreeUpToSize_widen (tried_of_after? reached ▸ further count) extra)
  · obtain ⟨count, last, reached, unfinished, step⟩ := failsAs_iff.mp fails
    have there : machine.tried count = last := tried_of_after? reached
    have left : machine.tried (count + 1) = final := by rw [tried, there, step]
    have shapeThere := there ▸ further count
    have staysThere := there ▸ stays count
    have wide := step_widen shapeThere.wellFormed.pointer_lt staysThere extra
    rw [step] at wide
    have also :=
      failsAs_iff.mpr ⟨count, _, after?_widen shape extra stays reached, unfinished, wide⟩
    refine .of_fail fails also ⟨agreeUpToSize_widen (left ▸ further (count + 1)) extra, ?_⟩
    rw [shapeThere.size_nat]
    exact sameUpToSize_onTape shapeThere staysThere (by rw [step]) extra
  · refine .of_forever forever (runsForever_iff.mpr ?_)
    intro count
    obtain ⟨last, reached⟩ := Option.isSome_iff_exists.mp (runsForever_iff.mp forever count)
    exact Option.isSome_of_eq_some (after?_widen shape extra stays reached)

/-- Runs from any machine compare so with runs in front of more cells. -/
theorem unchangedByCells_widen (shape : machine.tape.HasShape size policy) (extra : Nat)
    : UnchangedByCells size (size + extra) machine (machine.widen extra) where
  alike count stays := by
    rw [tried_widen shape extra stays]
    exact agreeUpToSize_widen (hasShape_tried shape count) extra
  faults count stays := by
    have further := hasShape_tried shape count
    have staysHere := stays count (Nat.le_refl count)
    rw [tried_widen shape extra fun earlier lt => stays earlier (Nat.le_of_lt lt),
      step_widen further.wellFormed.pointer_lt staysHere, further.size_nat]
    cases fails : (machine.tried count).step.fault? with
    | none => exact .none
    | some fault => exact .some (sameUpToSize_onTape further staysHere fails extra)
  course := sameCourse_widen shape extra

/-- A larger tape changes nothing for a program that fits. The runs of any code on a blank tape
and on a larger one agree up to the first move behind the end of the smaller tape. Without such a
move they both finish, both fail for the same reason or both never end.
-/
theorem larger_tape_changes_nothing (code : Code) (policy : CellPolicy) (input : Input)
    (output : Output) {size larger : Nat} (positive : 0 < size) (le : size ≤ larger)
    : UnchangedByCells size larger { code, tape := .blank size policy, input, output }
        { code, tape := .blank larger policy, input, output } := by
  obtain ⟨extra, rfl⟩ := Nat.exists_eq_add_of_le le
  rw [← Tape.blank_widen]
  apply unchangedByCells_widen
  exact ⟨rfl, by simp [Tape.blank, Tape.size], Tape.wellFormed_blank positive policy⟩

/-- A program that writes, and then moves in front of its two cells. -/
theorem larger_tape_changes_nothing_in_front
    : 0 < 2
      ∧ 2 ≤ 5
      ∧ UnchangedByCells 2 5
          {
            code := .source #[0x2b, 0x3e, 0x2e, 0x3c, 0x3c]
            tape := .blank 2 .checked
            output := .empty
          }
          {
            code := .source #[0x2b, 0x3e, 0x2e, 0x3c, 0x3c]
            tape := .blank 5 .checked
            output := .empty
          }
      ∧ FailsAs
          {
            code := .source #[0x2b, 0x3e, 0x2e, 0x3c, 0x3c]
            tape := .blank 2 .checked
            output := .empty
          }
          {
            code := .source #[0x2b, 0x3e, 0x2e, 0x3c, 0x3c]
            counter := 4
            tape := { policy := .checked, cells := #[1, 0], pointer := 0 }
            output := .collected #[0]
            metrics := { executed := 5, counterChanges := 4 }
          }
          (.pointerOutOfRange (-1) 2) :=
  ⟨by decide, by decide,
    larger_tape_changes_nothing _ .checked .absent .empty (by decide) (by decide), 5, rfl, rfl⟩

end Machine

end Brainfuck
