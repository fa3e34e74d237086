import Brainfuck.Proofs.Execution.Listening

/-! Addresses outside the instructions.
Nothing keeps a jump within the instructions of a virtual machine. In front of the first one it
counts from the end, and goes on to the first one as it would from any other address; farther in
front it is stuck for ever, and behind the last one it has finished.
-/

namespace Brainfuck

/-- An address at most as many places in front of the instructions as there are instructions
stands for one of them, counted from the end.
-/
theorem Code.unitAt_of_negative {list : Array Instruction} {address : Int}
    (inside : -(list.size : Int) ≤ address) (negative : address < 0)
    : ∃ instruction,
        list[(address + list.size).toNat]? = some instruction
        ∧ (Code.instructions list).unitAt address = .ok (.instruction instruction) := by
  have bound : (address + list.size).toNat < list.size := by omega
  have found := Array.getElem?_eq_getElem bound
  have offset : ¬ address + list.size < 0 := by omega
  refine ⟨_, found, ?_⟩
  simp only [unitAt, Code.offset, length, negative, if_true, offset, if_false, unitAtOffset?,
    found, Option.map_some]

namespace Machine

variable {machine next : Machine} {list : Array Instruction}

/-- The next step takes a jump to an address. -/
def JumpsTo (machine : Machine) (address : Int) : Prop :=
  ∃ notice,
    machine.notice = .ok notice
    ∧ (notice.unit = .instruction { opcode := .jumpIfZero, operand := address }
        ∧ notice.cell = 0
      ∨ notice.unit = .instruction { opcode := .jumpIfNonzero, operand := address }
        ∧ notice.cell ≠ 0)

theorem takesJump_iff : machine.TakesJump ↔ ∃ address, machine.JumpsTo address := by
  constructor
  · rintro ⟨notice, address, announced, taken⟩
    exact ⟨address, notice, announced, taken⟩
  · rintro ⟨address, notice, announced, taken⟩
    exact ⟨notice, address, announced, taken⟩

/-- A jump that is taken is one of the instructions. -/
theorem JumpsTo.exists_instruction {address : Int} (h : machine.JumpsTo address)
    (instructions : machine.code = .instructions list)
    : ∃ instruction ∈ list,
        (instruction.opcode = .jumpIfZero ∨ instruction.opcode = .jumpIfNonzero)
        ∧ instruction.operand = address := by
  obtain ⟨notice, announced, taken⟩ := h
  have found := unit_of_notice announced
  rw [instructions] at found
  obtain ⟨offset, present⟩ := Code.exists_offset_of_unitAt found
  obtain ⟨instruction, here, unit⟩ := Option.map_eq_some_iff.mp present
  have member : instruction ∈ list := Array.mem_of_getElem? here
  rw [← unit] at taken
  rcases taken with ⟨same, _⟩ | ⟨same, _⟩
  · cases same
    exact ⟨_, member, Or.inl rfl, rfl⟩
  · cases same
    exact ⟨_, member, Or.inr rfl, rfl⟩

/-- Where an instruction leads: a jump whose condition holds leads to its operand, and all that
else succeeds leads to the next address. By cases on the operation.
-/
theorem counter_of_passage {notice : Notice} {instruction : Instruction} {passage : Passage}
    (announced : machine.notice = .ok notice) (unit : notice.unit = .instruction instruction)
    (led
      : (CodeUnit.instruction instruction).passage machine.code machine.counter notice.cell
        = .ok passage)
    : machine.JumpsTo passage.counter
      ∨ ¬ machine.TakesJump ∧ passage.counter = machine.counter + 1 := by
  obtain ⟨opcode, operand⟩ := instruction
  have taken_only (jumps : machine.TakesJump)
      : opcode = .jumpIfZero ∧ notice.cell = 0 ∨ opcode = .jumpIfNonzero ∧ notice.cell ≠ 0 := by
    obtain ⟨other, address, same, taken⟩ := jumps
    cases announced.symm.trans same
    rcases taken with ⟨this, zero⟩ | ⟨this, nonzero⟩
    · cases unit.symm.trans this
      exact Or.inl ⟨rfl, zero⟩
    · cases unit.symm.trans this
      exact Or.inr ⟨rfl, nonzero⟩
  cases opcode with
  | jumpIfZero =>
      cases led
      by_cases zero : notice.cell = 0
      · simp only [zero, if_true]
        exact Or.inl ⟨notice, announced, Or.inl ⟨unit, zero⟩⟩
      · refine Or.inr ⟨fun jumps => ?_, if_neg zero⟩
        simpa [zero] using taken_only jumps
  | jumpIfNonzero =>
      cases led
      by_cases zero : notice.cell = 0
      · refine Or.inr ⟨fun jumps => ?_, if_pos zero⟩
        simpa [zero] using taken_only jumps
      · simp only [zero, if_false]
        exact Or.inl ⟨notice, announced, Or.inr ⟨unit, zero⟩⟩
  | foreign command => cases led
  | add | subtract | moveRight | moveLeft | read | write =>
      cases led
      refine Or.inr ⟨fun jumps => ?_, rfl⟩
      simpa using taken_only jumps

/-- A step that succeeds takes a jump, or goes on to the next address. -/
theorem counter_of_step (instructions : machine.code = .instructions list)
    (step : machine.step = { machine := next })
    : machine.JumpsTo next.counter
      ∨ ¬ machine.TakesJump ∧ next.counter = machine.counter + 1 := by
  cases machine.stepping with
  | completed done failed | missing unfinished front kind failed
  | fails unfinished inside announced effect failed =>
      rw [failed] at step
      cases step
  | @passes notice store passage unfinished inside announced effect passed =>
      rw [passed] at step
      cases step
      have found := unit_of_notice announced
      rw [instructions] at found
      obtain ⟨instruction, unit⟩ := Code.exists_instruction found
      have led := passage_of_effect effect
      rw [unit, ← cell_of_notice announced] at led
      exact counter_of_passage announced unit led

-----------------------------------------------------------------------------------------
-- In front of the instructions
-----------------------------------------------------------------------------------------

/-- A machine that can do nothing any more: whatever is asked of it, it has no instruction to
announce, and fails for the same reason.
-/
structure Stuck (machine : Machine) (fault : Fault) : Prop where
  kind : fault.kind = .badIndex
  message
    : fault.message
      = if Code.IsWord machine.counter then "tuple index out of range"
        else "cannot fit 'int' into an index-sized integer"
  step : machine.step = { machine, fault? := some fault }
  tried : ∀ count, machine.tried count = machine
  steps
    : ∀ {α : Type} (hear : α → Notice → α) (count allowance : Nat) (heard : α),
        machine.steps hear (count + 1) allowance heard
        = { state := machine, heard, allowance, ending := .failed fault }
  run
    : ∀ {α : Type} (hear : α → Notice → α) (allowance : Nat) (heard : α),
        machine.run hear allowance heard
        = { state := machine, heard, allowance, ending := .failed fault }
  conductAll
    : ∀ {α : Type} (hear : α → Notice → α) (operations : List Operation) (heard : α),
        Machine.conductAll hear operations heard machine = (machine, heard)

theorem message_missingUnit (list : Array Instruction) (address : Int)
    : ((Code.instructions list).missingUnit address).message
      = if Code.IsWord address then "tuple index out of range"
        else "cannot fit 'int' into an index-sized integer" := by
  unfold Code.missingUnit
  split <;> rfl

/-- Operations on a machine that cannot announce its step leave it alone, by induction on them. -/
theorem conductAll_of_unannounced {α : Type} (hear : α → Notice → α) {fault : Fault}
    (unfinished : machine.finished = false) (unannounced : machine.notice = .error fault)
    (operations : List Operation) (heard : α)
    : conductAll hear operations heard machine = (machine, heard) := by
  induction operations with
  | nil => rfl
  | cons operation later ih =>
      have left
          : (machine.conduct hear heard operation).state = machine
            ∧ (machine.conduct hear heard operation).heard = heard := by
        cases operation with
        | steps count allowance =>
            cases count with
            | zero => exact ⟨rfl, rfl⟩
            | succ count =>
                simp only [conduct, Machine.steps, attempt_of_unannounced hear unannounced,
                  and_self]
        | run allowance =>
            simp only [conduct, run_of_unannounced hear unfinished unannounced, and_self]
      simp only [conductAll, left, ih]

theorem unannounced_of_front (front : machine.counter < -machine.length)
    : machine.notice = .error (machine.code.missingUnit machine.counter) := by
  have none : machine.code.unitAt machine.counter = .error _ := unitAt_of_front front
  simp only [notice, unfinished_of_front front, none, Bool.false_eq_true, if_false]

/-- A virtual machine that is farther in front of its instructions than there are any is stuck. -/
theorem stuck_of_front (instructions : machine.code = .instructions list)
    (front : machine.counter < -machine.length)
    : machine.Stuck (machine.code.missingUnit machine.counter) := by
  have unfinished := unfinished_of_front front
  have unannounced := unannounced_of_front front
  have step := step_of_unannounced unannounced
  exact
    {
      kind := kind_missingUnit machine.code machine.counter
      message := by
        rw [instructions]
        exact message_missingUnit list machine.counter
      step
      tried := by
        intro count
        induction count with
        | zero => rfl
        | succ count ih => rw [Machine.tried, ih, step]
      steps := by
        intro α hear count allowance heard
        rw [Machine.steps, attempt_of_unannounced hear unannounced]
      run := fun hear => run_of_unannounced hear unfinished unannounced
      conductAll := fun hear => conductAll_of_unannounced hear unfinished unannounced
    }

/-- No unit is missing unless the machine is in front of the code, by cases on what the step
does.
-/
theorem missing_iff
    : (∃ fault, machine.step.fault? = some fault ∧ fault.kind = .badIndex)
      ↔ machine.counter < -machine.length := by
  constructor
  · rintro ⟨fault, fails, kind⟩
    cases machine.stepping with
    | missing unfinished front cause step => exact front
    | completed done step =>
        rw [step] at fails
        cases fails
        cases kind
    | fails unfinished inside announced effect step =>
        rw [step] at fails
        cases fails
        exact absurd kind (kind_of_effect effect).2
    | passes unfinished inside announced effect step =>
        rw [step] at fails
        cases fails
  · intro front
    have step := step_of_unannounced (unannounced_of_front front)
    exact ⟨_, congrArg Attempt.fault? step, kind_missingUnit machine.code machine.counter⟩

-----------------------------------------------------------------------------------------
-- Histories of an address
-----------------------------------------------------------------------------------------

variable {start : Machine}

theorem code_tried_eq (instructions : start.code = .instructions list) (count : Nat)
    : (start.tried count).code = .instructions list :=
  (start.code_tried count).trans instructions

/-- An address has been jumped to within so many attempted steps. -/
def Jumped (start : Machine) (count : Nat) (address : Int) : Prop :=
  ∃ earlier < count, (start.tried earlier).JumpsTo address

theorem Jumped.mono {count later : Nat} {address : Int} (h : start.Jumped count address)
    (le : count ≤ later)
    : start.Jumped later address := by
  obtain ⟨earlier, before, jumps⟩ := h
  exact ⟨earlier, Nat.lt_of_lt_of_le before le, jumps⟩

/-- Only a jump leads to an address that is neither among the instructions, counted from either
side, nor right behind them; by induction on the attempts. Going on from the last instruction
leads right behind it.
-/
theorem near_or_jumped (instructions : start.code = .instructions list)
    (fresh : start.counter = 0) (count : Nat)
    : -(list.size : Int) ≤ (start.tried count).counter
          ∧ (start.tried count).counter ≤ list.size
      ∨ start.Jumped count (start.tried count).counter := by
  induction count with
  | zero =>
      rw [tried, fresh]
      omega
  | succ count ih =>
      have code := code_tried_eq instructions count
      have length : ((start.tried count).length : Int) = list.size := by
        simp only [Machine.length, code, Code.length]
      have stays
          (same : (start.tried count).step.machine.counter = (start.tried count).counter)
          : -(list.size : Int) ≤ (start.tried (count + 1)).counter
              ∧ (start.tried (count + 1)).counter ≤ list.size
            ∨ start.Jumped (count + 1) (start.tried (count + 1)).counter := by
        rw [tried, same]
        exact ih.imp_right fun jumped => jumped.mono (Nat.le_succ count)
      cases (start.tried count).stepping with
      | completed done step | missing unfinished front kind step =>
          exact stays (by rw [step])
      | fails unfinished inside announced effect step =>
          exact stays (by rw [step]; rfl)
      | passes unfinished inside announced effect step =>
          have behind := of_decide_eq_false unfinished
          rcases counter_of_step code step with jumps | ⟨_, next⟩
          · rw [tried, step]
            exact Or.inr ⟨count, Nat.lt_succ_self count, jumps⟩
          · rw [tried, step, next]
            omega

-----------------------------------------------------------------------------------------
-- What an address tells
-----------------------------------------------------------------------------------------

/-- What the address of a virtual machine tells about it after so many attempted steps. -/
structure Addressed (start : Machine) (list : Array Instruction) (count : Nat)
    (machine : Machine)
    : Prop where
  missing
    : (∃ fault, machine.step.fault? = some fault ∧ fault.kind = .badIndex)
      ↔ machine.counter < -(list.size : Int)
  jumped : machine.counter < -(list.size : Int) → start.Jumped count machine.counter
  stuck : machine.counter < -(list.size : Int) → ∃ fault, machine.Stuck fault
  found
    : (∀ instruction ∈ list,
        instruction.opcode = .jumpIfZero ∨ instruction.opcode = .jumpIfNonzero
        → -(list.size : Int) ≤ instruction.operand)
      → ∀ {α : Type} (hear : α → Notice → α) (heard : α) (operation : Operation) fault,
          (machine.conduct hear heard operation).ending = .failed fault
          → fault.kind ≠ .badIndex
  wraps
    : -(list.size : Int) ≤ machine.counter
      → machine.counter < 0
      → machine.finished = false
        ∧ ∃ instruction,
            list[(list.size + machine.counter).toNat]? = some instruction
            ∧ machine.step = machine.perform (.instruction instruction)
  goesOn
    : ∀ next,
        machine.step = { machine := next }
        → machine.JumpsTo next.counter
          ∨ ¬ machine.TakesJump ∧ next.counter = machine.counter + 1
  restarts
    : machine.counter = -1
      → ¬ machine.TakesJump
      → ∀ next,
          machine.step = { machine := next } → next.counter = 0 ∧ next.finished = false
  finished_iff : machine.finished = true ↔ (list.size : Int) ≤ machine.counter
  finishing
    : machine.finished = true
      → machine.counter = list.size ∨ start.Jumped count machine.counter

theorem length_of_instructions (instructions : machine.code = .instructions list)
    : (machine.length : Int) = list.size := by
  simp only [Machine.length, instructions, Code.length]

/-- In front of the instructions, but near enough to them, a machine executes the one that its
address stands for when it is counted from the end.
-/
theorem step_of_negative (instructions : machine.code = .instructions list)
    (inside : -(list.size : Int) ≤ machine.counter) (negative : machine.counter < 0)
    : machine.finished = false
      ∧ ∃ instruction,
          list[(list.size + machine.counter).toNat]? = some instruction
          ∧ machine.step = machine.perform (.instruction instruction) := by
  have length := length_of_instructions instructions
  have unfinished : machine.finished = false := by
    apply decide_eq_false
    omega
  obtain ⟨instruction, present, found⟩ := Code.unitAt_of_negative inside negative
  rw [Int.add_comm] at present
  rw [← instructions] at found
  refine ⟨unfinished, instruction, present, ?_⟩
  simp only [step, notice, unfinished, found, Bool.false_eq_true, if_false]

/-- Behind the last instruction, counted from the end, a machine starts over. -/
theorem restarts_of_last (instructions : machine.code = .instructions list)
    (last : machine.counter = -1) (straight : ¬ machine.TakesJump)
    (step : machine.step = { machine := next })
    : next.counter = 0 ∧ next.finished = false := by
  have unfound : ¬ machine.counter < -machine.length := by
    intro front
    rw [(stuck_of_front instructions front).step] at step
    cases step
  have code : next.code = machine.code := by
    have kept := code_step machine
    rwa [step] at kept
  have counter : next.counter = 0 := by
    rcases counter_of_step instructions step with jumps | ⟨_, goes⟩
    · exact absurd (takesJump_iff.mpr ⟨_, jumps⟩) straight
    · omega
  refine ⟨counter, decide_eq_false ?_⟩
  have same : next.length = machine.length := congrArg Code.length code
  omega

/-- What has been jumped to is the operand of one of the jumps. -/
theorem Jumped.exists_instruction {count : Nat} {address : Int}
    (h : start.Jumped count address) (instructions : start.code = .instructions list)
    : ∃ instruction ∈ list,
        (instruction.opcode = .jumpIfZero ∨ instruction.opcode = .jumpIfNonzero)
        ∧ instruction.operand = address := by
  obtain ⟨earlier, _, jumps⟩ := h
  exact jumps.exists_instruction (code_tried_eq instructions earlier)

/-- The address of a virtual machine tells whether it is stuck, where it has been looking, and
how it has come there. A machine is stuck in front of its instructions for ever, and only a jump
leads so far; between there and the first instruction it executes the last ones, and starts over
behind them; and it has finished at all addresses behind them, most of which only jumps lead to.
-/
theorem addressed (list : Array Instruction) (tape : Tape) (input : Input) (output : Output)
    (count : Nat)
    : Addressed { code := .instructions list, tape, input, output } list count
        (tried { code := .instructions list, tape, input, output } count) := by
  generalize beginning
    : ({ code := .instructions list, tape, input, output } : Machine) = start
  have instructions : start.code = .instructions list := by rw [← beginning]
  have fresh : start.counter = 0 := by rw [← beginning]
  have code := code_tried_eq instructions count
  have length := length_of_instructions code
  have reached := near_or_jumped instructions fresh
  have finished_iff
      : (start.tried count).finished = true
        ↔ (list.size : Int) ≤ (start.tried count).counter := by
    rw [← length]
    exact decide_eq_true_iff
  exact
    {
      missing := by
        rw [← length]
        exact missing_iff
      jumped := fun front => (reached count).resolve_left (by omega)
      stuck := fun front => ⟨_, stuck_of_front code (by omega)⟩
      found := by
        intro inside α hear heard operation fault failed kind
        obtain ⟨notices, conducted⟩ :=
          conduct_conducted hear heard (start.tried count) operation
        have fails := conducted.failed fault failed
        rw [conducted.attempted.last_eq, tried_add] at fails
        have front := missing_iff.mp ⟨fault, fails, kind⟩
        rw [length_of_instructions (code_tried_eq instructions _)] at front
        have jumped := (reached (count + notices.length)).resolve_left (by omega)
        obtain ⟨instruction, member, jump, operand⟩ := jumped.exists_instruction instructions
        have bound := inside instruction member jump
        omega
      wraps := step_of_negative code
      goesOn := fun next => counter_of_step code
      restarts := fun last straight next => restarts_of_last code last straight
      finished_iff
      finishing := by
        intro done
        have behind := finished_iff.mp done
        exact (reached count).imp_left fun near => Int.le_antisymm near.2 behind
    }

example
    : ((List.range 5).map fun count =>
          (tried
            {
              code :=
                .instructions #[{ opcode := .jumpIfZero, operand := -1 }, { opcode := .write }]
              tape := .blank 1 .checked
            }
            count).counter)
      = [0, -1, 0, -1, 0] := by
  decide

/-- A machine that jumps too far in front of its instructions for a word of 64 bits. The missing
instruction has another message there.
-/
theorem message_of_far_jump
    : ∃ fault,
        (tried
            {
              code :=
                .instructions
                  #[
                    { opcode := .jumpIfZero, operand := -0x8000000000000001 },
                    { opcode := .add, operand := 1 }
                  ]
              tape := .blank 2 .wrapping
            }
            1).step.fault?
          = some fault
        ∧ fault.kind = .badIndex
        ∧ fault.message ≠ "tuple index out of range" :=
  ⟨.addressTooLarge, by decide, rfl, by decide⟩

end Machine

end Brainfuck
