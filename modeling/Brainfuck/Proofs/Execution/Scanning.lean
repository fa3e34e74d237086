import Brainfuck.Proofs.Brackets.Matching
import Brainfuck.Proofs.Execution.Safety

/-! Execution of programs whose brackets need not be balanced.
Whatever the interpreter does, it stays within the program or right behind it. It asks for the
partner of a bracket only when it has to jump there, so brackets without a partner do no harm
until then.
-/

namespace Brainfuck

-----------------------------------------------------------------------------------------
-- Brackets that strand the interpreter
-----------------------------------------------------------------------------------------

namespace Program

variable {program : Program} {address : Nat} {cell : Int} {command : Command}

/-- A bracket that has to be jumped from while a stack pairs it off with none. -/
inductive Strands (program : Program) (address : Nat) (cell : Int) : Prop
  | opening (begins : program[address]? = some openBracket) (zero : cell = 0)
    (alone : ∀ closing, (address, closing) ∉ stackPairs program.commands)
  | closing (ends : program[address]? = some closeBracket) (nonzero : cell ≠ 0)
    (alone : ∀ opening, (opening, address) ∉ stackPairs program.commands)

/-- Only brackets whose condition for a jump holds can strand the interpreter. -/
theorem command_of_strands (strands : program.Strands address cell)
    : program.commands[address]? = some .beginLoop ∧ cell = 0
      ∨ program.commands[address]? = some .endLoop ∧ cell ≠ 0 := by
  cases strands with
  | opening begins zero alone => exact Or.inl ⟨commands_eq_beginLoop_iff.mpr begins, zero⟩
  | closing ends nonzero alone => exact Or.inr ⟨commands_eq_endLoop_iff.mpr ends, nonzero⟩

/-- No command that acts strands the interpreter, and no comment. -/
theorem not_strands_of_plain (found : program.commands[address]? = some command)
    (notBegin : command ≠ .beginLoop) (notEnd : command ≠ .endLoop)
    : ¬ program.Strands address cell := by
  intro strands
  rcases command_of_strands strands with ⟨begins, _⟩ | ⟨ends, _⟩
  · exact notBegin (Option.some.inj (found.symm.trans begins))
  · exact notEnd (Option.some.inj (found.symm.trans ends))

/-- A `[` strands the interpreter when the cell is zero and the search forwards fails. -/
theorem strands_beginLoop_iff (found : program.commands[address]? = some .beginLoop)
    (cell : Int)
    : program.Strands address cell
      ↔ cell = 0 ∧ ∃ fault, program.closingOf address = .error fault := by
  have begins := commands_eq_beginLoop_iff.mp found
  constructor
  · rintro (⟨_, zero, alone⟩ | ⟨ends, _, _⟩)
    · refine ⟨zero, ?_⟩
      cases search : program.closingOf address with
      | error fault => exact ⟨fault, rfl⟩
      | ok closing =>
          have closes := (closingOf_eq_ok_iff (by omega)).mp search
          exact absurd (mem_stackPairs_iff.mpr (partners_iff_closesFrom.mpr ⟨begins, closes⟩))
            (alone closing)
    · exact absurd (Option.some.inj (begins.symm.trans ends)) (by decide)
  · rintro ⟨zero, fault, failed⟩
    refine .opening begins zero ?_
    intro closing paired
    obtain ⟨_, closes⟩ := partners_iff_closesFrom.mp (mem_stackPairs_iff.mp paired)
    rw [(closingOf_eq_ok_iff (by omega)).mpr closes] at failed
    contradiction

/-- A `]` strands the interpreter when the cell is not zero and the search backwards fails. -/
theorem strands_endLoop_iff (found : program.commands[address]? = some .endLoop) (cell : Int)
    : program.Strands address cell
      ↔ cell ≠ 0 ∧ ∃ fault, program.openingOf address = .error fault := by
  have ends := commands_eq_endLoop_iff.mp found
  have upper : (address : Int) ≤ program.size := by
    have inside := (Array.getElem?_eq_some_iff.mp ends).1
    omega
  constructor
  · rintro (⟨begins, _, _⟩ | ⟨_, nonzero, alone⟩)
    · exact absurd (Option.some.inj (begins.symm.trans ends)) (by decide)
    · refine ⟨nonzero, ?_⟩
      cases search : program.openingOf address with
      | error fault => exact ⟨fault, rfl⟩
      | ok opening =>
          have opens := (openingOf_eq_ok_iff upper).mp search
          exact absurd (mem_stackPairs_iff.mpr (partners_iff_opensTo.mpr ⟨ends, opens⟩))
            (alone opening)
  · rintro ⟨nonzero, fault, failed⟩
    refine .closing ends nonzero ?_
    intro opening paired
    obtain ⟨_, opens⟩ := partners_iff_opensTo.mp (mem_stackPairs_iff.mp paired)
    rw [(openingOf_eq_ok_iff upper).mpr opens] at failed
    contradiction

/-- A partner that the search forwards finds stands within the program. -/
theorem lt_size_of_closingOf {closing : Nat} (search : program.closingOf address = .ok closing)
    : closing < program.size := by
  have closes := (closingOf_eq_ok_iff (by omega)).mp search
  exact (Array.getElem?_eq_some_iff.mp closes.ends).1

/-- A partner that the search backwards finds stands in front of its start. -/
theorem lt_of_openingOf (upper : address ≤ program.size) {opening : Nat}
    (search : program.openingOf address = .ok opening)
    : opening < address := by
  have opens := (openingOf_eq_ok_iff (Int.ofNat_le.mpr upper)).mp search
  exact Int.ofNat_lt.mp opens.front

end Program

-----------------------------------------------------------------------------------------
-- Steps and runs
-----------------------------------------------------------------------------------------

namespace Machine

variable {program : Program} {address : Nat} {store : Store} {metrics : Metrics}

/-- What a step does on a program, and whether a bracket strands it. -/
inductive StepInSource (program : Program) (address : Nat) (store : Store) (metrics : Metrics)
    : Prop
  | moves {next : Nat} {later : Store} {counted : Metrics} (within : next ≤ program.size)
    (free : ¬ program.Strands address store.tape.current)
    (step
      : (placed (.source program) address store metrics).step
        = { machine := placed (.source program) next later counted })
  | fails {fault : Fault} {counted : Metrics} (kind : fault.kind ≠ .unmatchedBracket)
    (free : ¬ program.Strands address store.tape.current)
    (step
      : (placed (.source program) address store metrics).step
        = {
            machine := placed (.source program) address store counted
            fault? := some fault
          })
  | strands {fault : Fault} {counted : Metrics} (kind : fault.kind = .unmatchedBracket)
    (stranded : program.Strands address store.tape.current)
    (step
      : (placed (.source program) address store metrics).step
        = {
            machine := placed (.source program) address store counted
            fault? := some fault
          })

/-- A `[` enters its loop or leads behind its end, and strands without one. -/
theorem stepInSource_beginLoop (found : program.commands[address]? = some .beginLoop)
    (inside : address < program.size) (store : Store) (metrics : Metrics)
    : StepInSource program address store metrics := by
  have strands_iff := Program.strands_beginLoop_iff found store.tape.current
  by_cases zero : store.tape.current = 0
  · cases search : program.closingOf address with
    | ok partner =>
        have free : ¬ program.Strands address store.tape.current := by
          simp [strands_iff, search]
        exact .moves (Program.lt_size_of_closingOf search) free (step_skip found zero search)
    | error fault =>
        exact .strands (congrArg Fault.kind (Program.eq_of_closingOf search))
          (strands_iff.mpr ⟨zero, fault, search⟩) (step_skip_of_lost found zero search)
  · have free : ¬ program.Strands address store.tape.current := by simp [strands_iff, zero]
    exact .moves inside free (step_enter found zero)

/-- A `]` leaves its loop or leads back behind its beginning, and strands without one. -/
theorem stepInSource_endLoop (found : program.commands[address]? = some .endLoop)
    (inside : address < program.size) (store : Store) (metrics : Metrics)
    : StepInSource program address store metrics := by
  have strands_iff := Program.strands_endLoop_iff found store.tape.current
  by_cases zero : store.tape.current = 0
  · have free : ¬ program.Strands address store.tape.current :=
      fun strands => (strands_iff.mp strands).1 zero
    exact .moves inside free (step_leave found zero)
  · cases search : program.openingOf address with
    | ok partner =>
        have front := Program.lt_of_openingOf (Nat.le_of_lt inside) search
        have free : ¬ program.Strands address store.tape.current := by
          simp [strands_iff, search]
        exact .moves (by omega) free (step_repeat found zero search)
    | error fault =>
        exact .strands (congrArg Fault.kind (Program.eq_of_openingOf search))
          (strands_iff.mpr ⟨zero, fault, search⟩) (step_repeat_of_lost found zero search)

/-- Behind the last byte there is no bracket to strand a step. -/
theorem not_strands_of_done (done : program.size ≤ address) (cell : Int)
    : ¬ program.Strands address cell := by
  have nothing : program.commands[address]? = none := by
    rw [List.getElem?_eq_none_iff, Program.length_commands]
    exact done
  intro strands
  rcases Program.command_of_strands strands with ⟨found, _⟩ | ⟨found, _⟩ <;>
    simp [nothing] at found

/-- Every step stays within the program, by cases on the role of the command. -/
theorem stepInSource (within : address ≤ program.size) (store : Store) (metrics : Metrics)
    : StepInSource program address store metrics := by
  rcases Nat.lt_or_eq_of_le within with inside | done
  · obtain ⟨command, found⟩ : ∃ command, program.commands[address]? = some command := by
      rw [← Program.length_commands] at inside
      exact ⟨_, List.getElem?_eq_getElem inside⟩
    cases command.role with
    | comment =>
        exact .moves inside (Program.not_strands_of_plain found nofun nofun)
          (step_comment found store metrics)
    | action action does =>
        have free : ¬ program.Strands address store.tape.current :=
          Program.not_strands_of_plain found (by rintro rfl; cases does) (by rintro rfl; cases does)
        have step := step_command found does store metrics
        cases acted : store.act action with
        | ok next =>
            rw [acted] at step
            exact .moves inside free step
        | error fault =>
            rw [acted] at step
            refine .fails ?_ free step
            rcases Store.kind_of_act acted with kind | kind <;> simp [kind]
    | beginLoop => exact stepInSource_beginLoop found inside store metrics
    | endLoop => exact stepInSource_endLoop found inside store metrics
  · have finished : (placed (.source program) address store metrics).finished = true :=
      finished_placed.mpr (Nat.le_of_eq done.symm)
    exact .fails (by decide) (not_strands_of_done (Nat.le_of_eq done.symm) _)
      (step_of_finished finished)

/-- All machines that are reached are placed within the program, by induction on the steps. -/
theorem Reachable.placed_in_source (within : address ≤ program.size) {machine : Machine}
    (h : Reachable (placed (.source program) address store metrics) machine)
    : ∃ next later counted,
        machine = placed (.source program) next later counted ∧ next ≤ program.size := by
  induction h with
  | start => exact ⟨address, store, metrics, rfl, within⟩
  | step _ ih =>
      obtain ⟨next, later, counted, rfl, inside⟩ := ih
      cases stepInSource inside later counted with
      | moves further _ step =>
          rw [step]
          exact ⟨_, _, _, rfl, further⟩
      | fails _ _ step | strands _ _ step =>
          rw [step]
          exact ⟨next, later, _, rfl, inside⟩

/-- A step fails for a bracket without a partner when a bracket strands it. -/
theorem unmatched_iff_strands (within : address ≤ program.size) (store : Store)
    (metrics : Metrics)
    : (placed (.source program) address store metrics).step.fault?.map Fault.kind
        = some .unmatchedBracket
      ↔ program.Strands address store.tape.current := by
  cases stepInSource within store metrics with
  | moves _ free step => simp [step, free]
  | fails kind free step => simp [step, kind, free]
  | strands kind stranded step => simp [step, kind, stranded]

end Machine

-----------------------------------------------------------------------------------------
-- The matching that the searches compute
-----------------------------------------------------------------------------------------

open Program in
/-- Both searches compute the matching of brackets, whether the brackets are balanced or not.
From any start they find the one bracket up to which the text is balanced, and they fail, and
blame their start, when there is none; the cause that they tell is raised as it is when the start
can be written. From bracket to bracket they are inverse to each other.
So a run of the interpreter never leaves the program, and it fails for a bracket exactly when
it has to jump from one that a stack pairs off with none.
-/
theorem searches_compute_matching (program : Program)
    : (∀ start : Int,
        -1 ≤ start
        → (∀ closing : Nat,
            program.closingOf start = .ok closing ↔ program.ClosesFrom start closing)
          ∧ (BlamesStart (program.closingOf start) start
            ↔ ∀ closing, ¬ program.ClosesFrom start closing)
          ∧ ∀ closing other,
              program.ClosesFrom start closing
              → program.ClosesFrom start other
              → closing = other)
      ∧ (∀ start : Int,
          start ≤ program.size
          → (∀ opening : Nat,
              program.openingOf start = .ok opening ↔ program.OpensTo start opening)
            ∧ (BlamesStart (program.openingOf start) start
              ↔ ∀ opening, ¬ program.OpensTo start opening)
            ∧ (start ≤ 0 → BlamesStart (program.openingOf start) start)
            ∧ ∀ opening other,
                program.OpensTo start opening
                → program.OpensTo start other
                → opening = other)
      ∧ (∀ opening closing : Nat,
          program[opening]? = some openBracket
          → program.closingOf opening = .ok closing
          → program.openingOf closing = .ok opening)
      ∧ (∀ opening closing : Nat,
          program[closing]? = some closeBracket
          → program.openingOf closing = .ok opening
          → program.closingOf opening = .ok closing)
      ∧ ∀ tape input output machine,
          Machine.Reachable { code := .source program, tape, input, output } machine
          → ∃ address : Nat,
              machine.counter = address
              ∧ address ≤ program.size
              ∧ (machine.step.fault?.map Fault.kind = some .unmatchedBracket
                ↔ program.Strands address machine.tape.current) := by
  refine ⟨?_, ?_, ?_, ?_, ?_⟩
  · intro start lower
    refine ⟨fun closing => closingOf_eq_ok_iff lower, blamesStart_closingOf_iff lower, ?_⟩
    intro closing other closes closesOther
    exact closes.unique lower closesOther
  · intro start upper
    refine ⟨fun opening => openingOf_eq_ok_iff upper, blamesStart_openingOf_iff upper, ?_, ?_⟩
    · intro nonpositive
      exact (blamesStart_openingOf_iff upper).mpr fun _ => not_opensTo_of_nonpositive nonpositive
    · intro opening other opens opensOther
      exact opens.unique upper opensOther
  · intro opening closing begins found
    have closes := (closingOf_eq_ok_iff (by omega)).mp found
    exact (searches_of_partners (partners_iff_closesFrom.mpr ⟨begins, closes⟩)).2
  · intro opening closing ends found
    have upper := (Array.getElem?_eq_some_iff.mp ends).1
    have opens := (openingOf_eq_ok_iff (by omega)).mp found
    exact (searches_of_partners (partners_iff_opensTo.mpr ⟨ends, opens⟩)).1
  · intro tape input output machine reachable
    have start
        : ({ code := .source program, tape, input, output } : Machine)
          = Machine.placed (.source program) 0 { tape, input, output } {} :=
      rfl
    rw [start] at reachable
    obtain ⟨address, store, metrics, rfl, within⟩ :=
      reachable.placed_in_source (Nat.zero_le _)
    exact ⟨address, rfl, within, Machine.unmatched_iff_strands within store metrics⟩

end Brainfuck
