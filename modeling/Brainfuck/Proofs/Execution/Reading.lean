import Brainfuck.Proofs.Execution.Accounting
import Brainfuck.Proofs.Memory.Widening

/-! Reading the input.
A read takes the next byte, or a zero when none is left, and nothing else looks at the input. So
two inputs make no difference before the first read that gets different bytes from them, and the
end of an input is as good as zeros.
-/

namespace Brainfuck

-----------------------------------------------------------------------------------------
-- Padded inputs
-----------------------------------------------------------------------------------------

namespace Input

/-- The byte that a read gets behind so many others: one of the stream, or a zero behind it. -/
def padded : Input → Nat → UInt8
  | .absent, _ => 0
  | .stream unread, index => unread.getD index 0

/-- The input without its first bytes, as far as there are so many. -/
def drop : Input → Nat → Input
  | .absent, _ => .absent
  | .stream unread, count => .stream (unread.drop count)

theorem next_eq (input : Input) : input.next = (input.padded 0, input.drop 1) := by
  cases input with
  | absent => rfl
  | stream unread => cases unread <;> rfl

theorem drop_zero (input : Input) : input.drop 0 = input := by
  cases input <;> rfl

theorem drop_drop (input : Input) (first more : Nat)
    : (input.drop first).drop more = input.drop (first + more) := by
  cases input with
  | absent => rfl
  | stream unread => simp only [drop, List.drop_drop]

theorem padded_drop (input : Input) (count index : Nat)
    : (input.drop count).padded index = input.padded (count + index) := by
  cases input with
  | absent => rfl
  | stream unread => simp only [drop, padded, List.getD_eq_getElem?_getD, List.getElem?_drop]

/-- Zeros behind a stream are what is read there anyway. -/
theorem padded_append_zeros (bytes : List UInt8) (length : Nat)
    : (stream (bytes ++ List.replicate length 0)).padded = (stream bytes).padded := by
  funext index
  simp only [padded, List.getD_eq_getElem?_getD]
  rcases Nat.lt_or_ge index bytes.length with inside | behind
  · rw [List.getElem?_append_left inside]
  · rw [List.getElem?_append_right behind, List.getElem?_eq_none behind, List.getElem?_replicate]
    split <;> rfl

theorem padded_zeros (length : Nat)
    : (stream (List.replicate length 0)).padded = absent.padded :=
  padded_append_zeros [] length

end Input

/-- The store with another input. -/
def Store.withInput (store : Store) (input : Input) : Store :=
  { store with input }

/-- Actions do not look at the input, unless they read. -/
theorem Store.act_withInput {action : Action} (idle : action ≠ .read) (store : Store)
    (input : Input)
    : (store.withInput input).act action
      = match store.act action with
        | .error fault => .error fault
        | .ok next => .ok (next.withInput input) := by
  have tape : (store.withInput input).tape = store.tape := rfl
  cases action with
  | move distance =>
      simp only [act, tape]
      cases store.tape.moved distance <;> rfl
  | add amount =>
      simp only [act, tape]
      cases store.tape.added amount <;> rfl
  | read => contradiction
  | write => rfl

namespace Machine

-----------------------------------------------------------------------------------------
-- Machines that step alike
-----------------------------------------------------------------------------------------

/-- Two runs have ended alike: in related machines, and with no difference to whoever listens.
-/
inductive RunsAlike {α : Type} (related : Machine → Machine → Prop)
    : Run Machine α → Run Machine α → Prop
  | intro {left right : Machine} (same : related left right) (heard : α) (allowance : Nat)
    (ending : Ending)
    : RunsAlike related { state := left, heard, allowance, ending }
        { state := right, heard, allowance, ending }

/-- Related machines announce the same step, which succeeds or fails in both for the same reason
and leads to related machines.
-/
structure StepsAlike (related : Machine → Machine → Prop) : Prop where
  finished : ∀ {left right : Machine}, related left right → left.finished = right.finished
  notice : ∀ {left right : Machine}, related left right → left.notice = right.notice
  fault
    : ∀ {left right : Machine}, related left right → left.step.fault? = right.step.fault?
  step
    : ∀ {left right : Machine},
        related left right → related left.step.machine right.step.machine

section StepsAlike

variable {related : Machine → Machine → Prop} (alike : StepsAlike related)
  {left right : Machine} (same : related left right) {α : Type} (hear : α → Notice → α)
include alike same

theorem StepsAlike.tried (count : Nat) : related (left.tried count) (right.tried count) := by
  induction count with
  | zero => exact same
  | succ count ih => exact alike.step ih

/-- Related machines attempt the same step, by cases on what the listener finds. -/
theorem StepsAlike.attempt (allowance : Nat) (heard : α)
    : RunsAlike related (left.attempt hear allowance heard)
        (right.attempt hear allowance heard) := by
  have notice := alike.notice same
  cases announced : left.notice with
  | error fault =>
      have also := notice.symm.trans announced
      rw [attempt_of_unannounced hear announced, attempt_of_unannounced hear also]
      exact .intro same heard allowance _
  | ok unit =>
      have also := notice.symm.trans announced
      cases allowance with
      | zero =>
          rw [attempt_zero hear announced, attempt_zero hear also]
          exact .intro same heard 0 _
      | succ admitted =>
          rw [attempt_of_announced hear announced, attempt_of_announced hear also,
            alike.fault same]
          exact .intro (alike.step same) _ admitted _

/-- Related machines take the same steps, by induction on their number. -/
theorem StepsAlike.steps (count allowance : Nat) (heard : α)
    : RunsAlike related (left.steps hear count allowance heard)
        (right.steps hear count allowance heard) := by
  induction count generalizing left right allowance heard with
  | zero => exact .intro same heard allowance _
  | succ count ih =>
      have first := alike.attempt same hear allowance heard
      simp only [Machine.steps]
      generalize left.attempt hear allowance heard = attempted at first ⊢
      generalize right.attempt hear allowance heard = other at first ⊢
      rcases first with ⟨next, later, admitted, _ | fault | _⟩
      · exact ih next admitted later
      · exact .intro next later admitted _
      · exact .intro next later admitted _

/-- Related machines have the same runs, by induction on the notices that are admitted. -/
theorem StepsAlike.run (allowance : Nat) (heard : α)
    : RunsAlike related (left.run hear allowance heard)
        (right.run hear allowance heard) := by
  induction allowance generalizing left right heard with
  | zero =>
      simp only [Machine.run, alike.finished same]
      split
      · exact .intro same heard 0 _
      · exact alike.attempt same hear 0 heard
  | succ admitted ih =>
      have first := alike.attempt same hear (admitted + 1) heard
      simp only [Machine.run, alike.finished same]
      generalize left.attempt hear (admitted + 1) heard = attempted at first ⊢
      generalize right.attempt hear (admitted + 1) heard = other at first ⊢
      split
      · exact .intro same heard (admitted + 1) _
      · rcases first with ⟨next, later, left, _ | fault | _⟩
        · exact ih next later
        · exact .intro next later left _
        · exact .intro next later left _

theorem StepsAlike.conduct (heard : α) (operation : Operation)
    : RunsAlike related (left.conduct hear heard operation)
        (right.conduct hear heard operation) := by
  cases operation with
  | steps count allowance => exact alike.steps same hear count allowance heard
  | run allowance => exact alike.run same hear allowance heard

end StepsAlike

-----------------------------------------------------------------------------------------
-- Steps that read
-----------------------------------------------------------------------------------------

/-- The machine with another input. -/
def withInput (machine : Machine) (input : Input) : Machine :=
  { machine with input }

/-- The next step reads. -/
def reads (machine : Machine) : Bool :=
  machine.announces fun notice => notice.unit.action? = some .read

/-- The machine behind a read that has got a byte, with its input as it was. -/
def given (machine : Machine) (byte : UInt8) : Machine :=
  machine.pass { machine.store with tape := machine.tape.write byte.toNat }
    { counter := machine.counter + 1 }

/-- A step that reads gets the next byte, and leaves the rest. -/
theorem step_of_reads {machine : Machine} (reading : machine.reads = true)
    : machine.step
      = {
          machine :=
            (machine.given (machine.input.padded 0)).withInput (machine.input.drop 1)
        } := by
  unfold reads announces at reading
  split at reading
  · rename_i notice announced
    have does : notice.unit.action? = some .read := of_decide_eq_true reading
    have input : machine.store.input = machine.input := rfl
    simp only [step, announced, perform_eq, effect_of_action machine does, Store.act, input,
      Input.next_eq]
    rfl
  · contradiction

/-- A unit that does not read has the same effect with any input. -/
theorem effect_withInput {unit : CodeUnit} (idle : unit.action? ≠ some .read)
    (machine : Machine) (input : Input)
    : (machine.withInput input).effect unit
      = match machine.effect unit with
        | .error fault => .error fault
        | .ok (store, passage) => .ok (store.withInput input, passage) := by
  have store : (machine.withInput input).store = machine.store.withInput input := rfl
  cases does : unit.action? with
  | none =>
      rw [effect_of_no_action _ does, effect_of_no_action _ does, store]
      have same
          : unit.passage (machine.withInput input).code (machine.withInput input).counter
                (machine.withInput input).tape.current
              = unit.passage machine.code machine.counter machine.tape.current :=
        rfl
      rw [same]
      cases unit.passage machine.code machine.counter machine.tape.current <;> rfl
  | some action =>
      have other : action ≠ .read := by
        intro reads
        exact idle (reads ▸ does)
      rw [effect_of_action _ does, effect_of_action _ does, store, Store.act_withInput other]
      cases machine.store.act action <;> rfl

/-- A step that does not read is the same with any input. -/
theorem step_withInput {machine : Machine} (idle : machine.reads = false) (input : Input)
    : (machine.withInput input).step
      = {
          machine := machine.step.machine.withInput input
          fault? := machine.step.fault?
        } := by
  have notice : (machine.withInput input).notice = machine.notice := rfl
  unfold step
  rw [notice]
  cases announced : machine.notice with
  | error fault => rfl
  | ok unit =>
      have other : unit.unit.action? ≠ some .read := by
        rw [reads, announces_eq announced] at idle
        exact of_decide_eq_false idle
      simp only [perform_eq, effect_withInput other]
      cases machine.effect unit.unit <;> rfl

/-- A step takes a byte from the input when it reads, and else none. -/
theorem input_step (machine : Machine)
    : machine.step.machine.input = machine.input.drop (if machine.reads then 1 else 0) := by
  cases reading : machine.reads with
  | true =>
      rw [step_of_reads reading]
      rfl
  | false =>
      have same := step_withInput reading machine.input
      have kept := congrArg (fun attempt : Attempt => attempt.machine.input) same
      exact kept.trans machine.input.drop_zero.symm

/-- The input has lost as many bytes as reads were executed, by induction on the attempts. -/
theorem input_tried (machine : Machine) (count : Nat)
    : (machine.tried count).input = machine.input.drop (machine.occurrences reads count) := by
  induction count with
  | zero => exact machine.input.drop_zero.symm
  | succ count ih => rw [tried, input_step, ih, Input.drop_drop, occurrences_succ]

-----------------------------------------------------------------------------------------
-- Machines with different inputs
-----------------------------------------------------------------------------------------

/-- Nothing but their inputs tells two machines apart. -/
def SameButInput (left right : Machine) : Prop :=
  ∃ input, right = left.withInput input

/-- Nothing but their inputs tells two machines apart, and the next bytes to be read agree. -/
structure AgreeFor (limit : Nat) (left right : Machine) : Prop where
  same : SameButInput left right
  bytes : ∀ index < limit, left.input.padded index = right.input.padded index

section Agreement

variable {left right : Machine} {limit : Nat}

/-- Steps succeed and fail alike, whatever is read. -/
theorem SameButInput.fault (h : SameButInput left right)
    : left.step.fault? = right.step.fault? := by
  obtain ⟨input, rfl⟩ := h
  cases reading : left.reads with
  | true =>
      have also : (left.withInput input).reads = true := reading
      rw [step_of_reads reading, step_of_reads also]
  | false => rw [step_withInput reading]

/-- Steps lead to machines that differ in their inputs alone, when they read the same. -/
theorem SameButInput.step (h : SameButInput left right)
    (next : left.reads = true → left.input.padded 0 = right.input.padded 0)
    : SameButInput left.step.machine right.step.machine := by
  obtain ⟨input, rfl⟩ := h
  cases reading : left.reads with
  | true =>
      have also : (left.withInput input).reads = true := reading
      rw [step_of_reads reading, step_of_reads also, next reading]
      exact ⟨_, rfl⟩
  | false =>
      rw [step_withInput reading]
      exact ⟨input, rfl⟩

theorem SameButInput.reads_eq (h : SameButInput left right) : left.reads = right.reads := by
  obtain ⟨input, rfl⟩ := h
  rfl

/-- A step uses up the byte that it reads. -/
theorem AgreeFor.step (h : AgreeFor (limit + if left.reads then 1 else 0) left right)
    : AgreeFor limit left.step.machine right.step.machine := by
  obtain ⟨same, bytes⟩ := h
  constructor
  · apply same.step
    intro reading
    exact bytes 0 (by simp [reading])
  · intro index lt
    rw [input_step, input_step, Input.padded_drop, Input.padded_drop, ← same.reads_eq]
    exact bytes _ (by omega)

/-- Attempted steps use up the bytes that they read, by induction on them. -/
theorem AgreeFor.tried {count : Nat}
    (h : AgreeFor (limit + left.occurrences reads count) left right)
    : AgreeFor limit (left.tried count) (right.tried count) := by
  induction count generalizing limit with
  | zero => exact h
  | succ count ih =>
      apply AgreeFor.step
      apply ih
      rwa [Nat.add_assoc, Nat.add_comm (ite _ _ _), ← occurrences_succ]

end Agreement

/-- Nothing but their inputs tells two machines apart, and reads get the same bytes for ever. -/
def Indistinct (left right : Machine) : Prop :=
  ∀ limit, AgreeFor limit left right

theorem stepsAlike_indistinct : StepsAlike Indistinct where
  finished h := by
    obtain ⟨input, rfl⟩ := (h 0).same
    rfl
  notice h := by
    obtain ⟨input, rfl⟩ := (h 0).same
    rfl
  fault h := (h 0).same.fault
  step h limit := (h _).step

/-- Two machines behave alike under all that can be asked of them. -/
structure BehaveAlike (left right : Machine) : Prop where
  attempts : ∀ count, Indistinct (left.tried count) (right.tried count)
  faults : ∀ count, (left.tried count).step.fault? = (right.tried count).step.fault?
  operations
    : ∀ {α : Type} (hear : α → Notice → α) (heard : α) (operation : Operation),
        RunsAlike Indistinct (left.conduct hear heard operation)
          (right.conduct hear heard operation)

/-- Inputs with the same padded form make no difference at all. -/
theorem behaveAlike_of_padded (machine : Machine) {left right : Input}
    (same : left.padded = right.padded)
    : BehaveAlike (machine.withInput left) (machine.withInput right) := by
  have start : Indistinct (machine.withInput left) (machine.withInput right) := by
    intro limit
    exact ⟨⟨right, rfl⟩, fun index _ => congrFun same index⟩
  have attempts := stepsAlike_indistinct.tried start
  exact
    {
      attempts
      faults := fun count => stepsAlike_indistinct.fault (attempts count)
      operations := fun hear heard => stepsAlike_indistinct.conduct start hear heard
    }

/-- What a machine does with its input, and what it does not. -/
structure ReadsLazily (machine : Machine) : Prop where
  /-- Only reads take bytes, each of them the next one while one is left. -/
  takes
    : ∀ count,
        (machine.tried count).input = machine.input.drop (machine.occurrences reads count)
  /-- A read succeeds, and puts its byte of the padded input into the current cell. -/
  stores
    : ∀ count,
        (machine.tried count).reads = true
        → (machine.tried count).step.fault? = none
          ∧ (machine.tried (count + 1)).tape
            = (machine.tried count).tape.put
                (signedByte (machine.input.padded (machine.occurrences reads count)).toNat)
          ∧ (machine.tape.WellFormed
            → (machine.tried (count + 1)).tape.current
              = signedByte (machine.input.padded (machine.occurrences reads count)).toNat)
  /-- Inputs that agree in their first bytes make no difference before one more byte is read. -/
  agrees
    : ∀ left right limit,
        (∀ index < limit, left.padded index = right.padded index)
        → ∀ count,
            (machine.withInput left).occurrences reads count ≤ limit
            → SameButInput ((machine.withInput left).tried count)
                ((machine.withInput right).tried count)
              ∧ ((machine.withInput left).tried count).step.fault?
                = ((machine.withInput right).tried count).step.fault?
  zeros
    : ∀ length,
        BehaveAlike (machine.withInput .absent)
          (machine.withInput (.stream (List.replicate length 0)))
  padding
    : ∀ bytes length,
        BehaveAlike (machine.withInput (.stream bytes))
          (machine.withInput (.stream (bytes ++ List.replicate length 0)))

/-- A read puts the next byte of the padded input into the current cell. -/
theorem stores_of_reads {machine : Machine} {count : Nat}
    (reading : (machine.tried count).reads = true)
    : (machine.tried (count + 1)).tape
      = (machine.tried count).tape.put
          (signedByte (machine.input.padded (machine.occurrences reads count)).toNat) := by
  rw [tried, step_of_reads reading, input_tried, Input.padded_drop]
  rfl

/-- Input is read lazily. Every executed read takes one byte, while one is left, and stores it;
behind the end of the input it stores a zero. Whatever the machine is, inputs that agree in their
first bytes make no difference in front of the first read behind these, and the end of an input
makes none to zeros in its place, nor does the lack of an input.
-/
theorem input_read_lazily (machine : Machine) : ReadsLazily machine where
  takes := machine.input_tried
  stores count reading := by
    have stored := stores_of_reads reading
    refine ⟨by rw [step_of_reads reading], stored, ?_⟩
    intro wellFormed
    have shape := hasShape_tried ⟨rfl, rfl, wellFormed⟩ count
    rw [stored, Tape.current_put shape.wellFormed.pointer_lt]
  agrees left right limit same count early := by
    obtain ⟨spare, rfl⟩ := Nat.exists_eq_add_of_le' early
    have start
        : AgreeFor (spare + (machine.withInput left).occurrences reads count)
            (machine.withInput left) (machine.withInput right) :=
      ⟨⟨right, rfl⟩, same⟩
    exact ⟨start.tried.same, start.tried.same.fault⟩
  zeros length := machine.behaveAlike_of_padded (Input.padded_zeros length).symm
  padding bytes length :=
    machine.behaveAlike_of_padded (Input.padded_append_zeros bytes length).symm

end Machine

end Brainfuck
