import Brainfuck.Proofs.Compilation.Decoding
import Brainfuck.Proofs.Memory.Shape

/-! Causes that are raised as they are.
Machines, searches and assembly tell the cause of a failure, and the tools report it as it is. The
numbers in its message are bounded by tape and program: brackets are blamed at their offsets, and
compiled moves lead no further than the program is long. So something else than the cause is raised
only for tapes or programs whose sizes are too long to be written themselves, or by code that no
program is compiled to.
-/

namespace Brainfuck

-----------------------------------------------------------------------------------------
-- Assembly
-----------------------------------------------------------------------------------------

/-- What waits behind pieces, or is blamed among them, has what all offsets have that wait in front
of them or are theirs; by induction on the pieces.
-/
theorem awaitAll_of_offsets {holds : Int → Prop} {pieces : List SourceRun}
    (offsets : ∀ piece ∈ pieces, holds piece.offset) {waiting : List Int}
    (before : ∀ offset ∈ waiting, holds offset)
    : match awaitAll waiting pieces with
      | .error fault => ∃ offset, holds offset ∧ fault = .unmatchedClosing offset
      | .ok left => ∀ offset ∈ left, holds offset := by
  induction pieces generalizing waiting with
  | nil => exact before
  | cons piece rest ih =>
      obtain ⟨first, others⟩ := List.forall_mem_cons.mp offsets
      by_cases begins : piece.command = .beginLoop
      · rw [awaitAll, SourceRun.await_beginLoop begins]
        exact ih others (List.forall_mem_cons.mpr ⟨first, before⟩)
      · by_cases ends : piece.command = .endLoop
        · cases waiting with
          | nil =>
              rw [awaitAll, SourceRun.await_surplus ends]
              exact ⟨_, first, rfl⟩
          | cons opening outer =>
              rw [awaitAll, SourceRun.await_endLoop ends]
              exact ih others (List.forall_mem_cons.mp before).2
        · rw [awaitAll, SourceRun.await_plain begins ends]
          exact ih others before

/-- Refused runs are blamed at the offset of one of their pieces. -/
theorem exists_offset_of_assemble {holds : Int → Prop} {runs : List SourceRun} {cause : Fault}
    (refused : assemble runs = .error cause)
    (offsets : ∀ piece ∈ runs.flatMap SourceRun.pieces, holds piece.offset)
    : ∃ offset, holds offset ∧ cause.numbers = [offset] := by
  have awaited := awaitAll_of_offsets offsets (List.forall_mem_nil holds)
  have account
      : (({} : Assembly).extendAll (runs.flatMap SourceRun.pieces)).map Assembly.waiting
        = awaitAll [] (runs.flatMap SourceRun.pieces) :=
    Assembly.map_waiting_extendAll (isPiece_of_mem_flatMap_pieces runs) {}
  rw [← account] at awaited
  rw [assemble_eq] at refused
  cases extended : ({} : Assembly).extendAll (runs.flatMap SourceRun.pieces) with
  | error fault =>
      rw [extended] at refused awaited
      cases refused
      obtain ⟨offset, has, rfl⟩ := awaited
      exact ⟨offset, has, rfl⟩
  | ok assembly =>
      simp only [extended, Except.map, Assembly.finish_eq] at refused awaited
      generalize assembly.waiting = left at refused awaited
      cases left with
      | nil => contradiction
      | cons offset outer =>
          cases refused
          exact ⟨offset, awaited offset List.mem_cons_self, rfl⟩

/-- Refused runs are blamed as they are when all their pieces have short offsets. -/
theorem raised_of_assemble {runs : List SourceRun} {cause : Fault}
    (refused : assemble runs = .error cause)
    (short : ∀ piece ∈ runs.flatMap SourceRun.pieces, Text.IsShort piece.offset)
    : cause.raised = cause := by
  obtain ⟨_, shortOffset, mentions⟩ := exists_offset_of_assemble refused short
  exact Fault.raised_of_isWritable ((Fault.isWritable_iff_of_numbers mentions).mpr shortOffset)

/-- A refused program is blamed at one of its offsets. -/
theorem Program.raised_of_compile {program : Program} {level : Nat} {cause : Fault}
    (refused : program.compile level = .error cause) (short : Text.IsShort program.size)
    : cause.raised = cause := by
  have inside {offset : Nat} {command : Command}
      (found : program.commands[offset]? = some command)
      : Text.IsShort offset := by
    have lt := (List.getElem?_eq_some_iff.mp found).1
    rw [length_commands] at lt
    exact Text.isShort_of_natAbs_le (by omega) short
  rcases program.compile_or_blames level with ⟨code, compiled⟩ | ⟨_, again, blames⟩
  · rw [refused] at compiled
    contradiction
  · obtain rfl := Except.error.inj (refused.symm.trans again)
    apply Fault.raised_of_isWritable
    cases blames with
    | closing surplus => exact (Fault.isWritable_iff_of_numbers rfl).mpr (inside surplus.ends)
    | opening _ unended => exact (Fault.isWritable_iff_of_numbers rfl).mpr (inside unended.begins)

-----------------------------------------------------------------------------------------
-- Machines
-----------------------------------------------------------------------------------------

/-- What an instruction fails for can be written, on a tape of a size: a move mentions where it
leads, and an unknown instruction its operand.
-/
def Instruction.FailsWritably (size : Nat) (instruction : Instruction) : Prop :=
  match instruction.opcode with
  | .moveRight | .moveLeft => Text.IsShort (size + instruction.operand.natAbs : Nat)
  | .foreign _ => Text.IsShort instruction.operand
  | _ => True

/-- What code fails for can be written, on a tape of a size. -/
def Code.FailsWritably (size : Nat) : Code → Prop
  | .source program => Text.IsShort (size + program.size : Nat)
  | .instructions list =>
      Text.IsShort size ∧ ∀ instruction ∈ list, instruction.FailsWritably size

/-- A store refuses actions for causes that are raised as they are, if its size is short and moves
lead to short addresses.
-/
theorem Store.raised_of_refuses {store : Store} {action : Action} {cause : Fault}
    (wellFormed : store.tape.WellFormed) (short : Text.IsShort store.tape.size)
    (reaches
      : ∀ distance,
          action = .move distance
          → Text.IsShort (store.tape.size + distance.natAbs : Nat))
    (refuses : store.Refuses action cause)
    : cause.raised = cause := by
  have onTape := wellFormed.pointer_lt
  apply Fault.raised_of_isWritable
  cases refuses with
  | @move distance outside =>
      rw [Fault.isWritable_pointerOutOfRange]
      refine ⟨Text.isShort_of_natAbs_le ?_ (reaches distance rfl), short⟩
      omega
  | add checked overflows =>
      rw [Fault.isWritable_cellOverflow]
      refine ⟨Tape.isShort_of_isSignedByte wellFormed.current_signed, ?_⟩
      exact Text.isShort_of_natAbs_le (by omega) short

namespace Machine

variable {machine : Machine} {cause : Fault}

/-- Source bytes fail for causes that are raised as they are. -/
theorem raised_of_byte_effect {program : Program} {value : UInt8}
    (wellFormed : machine.tape.WellFormed)
    (short : Text.IsShort (machine.tape.size + program.size : Nat))
    (nonnegative : 0 ≤ machine.counter) (inside : machine.counter < program.size)
    (effect : machine.effect (.byte value) = .error cause)
    : cause.raised = cause := by
  rcases refuses_or_lost effect with ⟨action, does, refuses⟩ | lost
  · have shortSize : Text.IsShort machine.tape.size :=
      Text.isShort_of_natAbs_le (by omega) short
    refine Store.raised_of_refuses wellFormed shortSize ?_ refuses
    rintro distance rfl
    have step : distance.natAbs = 1 := by
      simp only [CodeUnit.action?] at does
      cases command : Command.ofByte value <;> rw [command] at does <;> cases does <;> rfl
    have size : machine.store.tape.size = machine.tape.size := rfl
    exact Text.isShort_of_natAbs_le (by omega) short
  · have shortCounter : Text.IsShort machine.counter :=
      Text.isShort_of_natAbs_le (by omega) short
    apply Fault.raised_of_isWritable
    rcases CodeUnit.eq_of_byte_passage lost with rfl | rfl <;>
      exact (Fault.isWritable_iff_of_numbers rfl).mpr shortCounter

/-- Instructions fail for causes that are raised as they are. -/
theorem raised_of_instruction_effect {value : Instruction}
    (wellFormed : machine.tape.WellFormed) (short : Text.IsShort machine.tape.size)
    (writable : value.FailsWritably machine.tape.size)
    (effect : machine.effect (.instruction value) = .error cause)
    : cause.raised = cause := by
  rcases refuses_or_lost effect with ⟨action, does, refuses⟩ | lost
  · refine Store.raised_of_refuses wellFormed short ?_ refuses
    rintro distance rfl
    obtain ⟨opcode, operand⟩ := value
    cases opcode <;> cases does
    · exact writable
    · rw [Int.natAbs_neg]
      exact writable
  · obtain ⟨⟨command, foreign⟩, rfl⟩ := CodeUnit.eq_of_instruction_passage lost
    apply Fault.raised_of_isWritable
    rw [Fault.isWritable_iff_of_numbers rfl]
    simpa only [Instruction.FailsWritably, foreign] using writable

/-- Every step fails for a cause that is raised as it is, by cases on what the step does. -/
theorem raised_of_step (wellFormed : machine.tape.WellFormed)
    (writable : machine.code.FailsWritably machine.tape.size)
    (inSource : ∀ program, machine.code = .source program → 0 ≤ machine.counter)
    (fails : machine.step.fault? = some cause)
    : cause.raised = cause := by
  cases machine.stepping with
  | completed done step =>
      rw [step] at fails
      cases fails
      exact Fault.raised_of_isWritable nofun
  | missing unfinished front kind step =>
      rw [step] at fails
      cases fails
      apply Fault.raised_of_isWritable
      cases cause <;> cases kind <;> exact nofun
  | passes unfinished inside announced effect step => simp [step] at fails
  | @fails notice _ unfinished inside announced effect step =>
      rw [step] at fails
      cases fails
      have found := unit_of_notice announced
      have behind := Int.not_le.mp (of_decide_eq_false unfinished)
      cases code : machine.code with
      | source program =>
          rw [code] at found writable
          obtain ⟨value, unit⟩ := Code.exists_byte found
          rw [unit] at effect
          rw [length, code] at behind
          exact raised_of_byte_effect wellFormed writable (inSource program code) behind effect
      | instructions list =>
          rw [code] at found writable
          obtain ⟨offset, present⟩ := Code.exists_offset_of_unitAt found
          obtain ⟨value, member, unit⟩ := Option.map_eq_some_iff.mp present
          rw [← unit] at effect
          obtain ⟨short, instructions⟩ := writable
          exact raised_of_instruction_effect wellFormed short
            (instructions value (Array.mem_of_getElem? member)) effect

/-- Attempted steps keep the code, by induction on them. -/
theorem Reachable.code_eq {start : Machine} (h : Reachable start machine)
    : machine.code = start.code := by
  induction h with
  | start => rfl
  | step _ ih => rw [code_step, ih]

/-- All attempted steps fail for causes that are raised as they are. -/
theorem Reachable.raised_of_step {start : Machine} (wellFormed : start.tape.WellFormed)
    (writable : start.code.FailsWritably start.tape.size) (nonnegative : 0 ≤ start.counter)
    (h : Reachable start machine) (fails : machine.step.fault? = some cause)
    : cause.raised = cause := by
  have shape := h.hasShape ⟨rfl, rfl, wellFormed⟩
  refine Machine.raised_of_step shape.wellFormed ?_ (fun _ => h.nonnegative nonnegative) fails
  rw [h.code_eq, Int.ofNat_inj.mp shape.size_eq]
  exact writable

end Machine

-----------------------------------------------------------------------------------------
-- Programs
-----------------------------------------------------------------------------------------

/-- No instruction counts more commands than its program has, since it spells them. -/
theorem Program.Faithful.operand_le {program : Program} {level : Nat} {code : Array Instruction}
    (h : program.Faithful level code) {instruction : Instruction} (member : instruction ∈ code)
    (counted : instruction.isCounted = true)
    : instruction.operand.natAbs ≤ program.size := by
  have positive := h.positive instruction member counted
  have spelled : instruction.source.Sublist program.toList := by
    have own := List.sublist_flatten_of_mem
      (List.mem_map_of_mem (f := Instruction.source) (Array.mem_toList_iff.mpr member))
    rw [← List.flatMap_def, h.source] at own
    exact own.trans List.filter_sublist
  have length : instruction.source.length = instruction.operand.toNat := by
    obtain ⟨opcode, operand⟩ := instruction
    cases opcode <;> cases counted <;> exact List.length_replicate
  have le := spelled.length_le
  rw [length, Array.length_toList] at le
  omega

/-- What programs are executed as fails for causes that are raised as they are, if tape and program
together have a short size.
-/
theorem Configuration.failsWritably_of_code? {configuration : Configuration} {program : Program}
    {code : Code} {size : Nat} (made : configuration.code? program = .ok code)
    (short : Text.IsShort (size + program.size : Nat))
    : code.FailsWritably size := by
  have executable := executable_of_code? made
  unfold code? at made
  split at made
  · cases made
    exact short
  · split at made
    · contradiction
    · rename_i list compiled
      cases made
      have matched := Program.matched_of_compile compiled
      obtain ⟨_, again, laidOut⟩ := program.exists_laidOut matched configuration.level
      obtain rfl := Except.ok.inj (compiled.symm.trans again)
      have faithful := Program.faithful_of_laidOut matched laidOut
      refine ⟨Text.isShort_of_natAbs_le (by omega) short, ?_⟩
      intro instruction member
      have bound (counted : instruction.isCounted = true)
          : Text.IsShort (size + instruction.operand.natAbs : Nat) := by
        have le := faithful.operand_le member counted
        exact Text.isShort_of_natAbs_le (by omega) short
      cases executable instruction member with
      | action action does =>
          obtain ⟨opcode, operand⟩ := instruction
          cases opcode <;> first | exact trivial | exact bound rfl | cases does
      | jumpIfZero target | jumpIfNonzero target => exact trivial

/-- Whatever goes wrong with a program is raised as the cause that is told, if tape and program
together have a size that can be written: a bracket that compilation refuses, and all that
attempted steps fail for.
-/
theorem Configuration.raised_of_program (configuration : Configuration) (program : Program)
    (input : Input) (output : Output)
    (short : Text.IsShort (configuration.tapeSize + program.size : Nat))
    : (∀ cause,
        configuration.machine? program input output = .error cause → cause.raised = cause)
      ∧ ∀ loaded machine cause,
          configuration.machine? program input output = .ok loaded
          → Machine.Reachable loaded machine
          → machine.step.fault? = some cause
          → cause.raised = cause := by
  constructor
  · intro cause refused
    unfold machine? code? at refused
    cases engine : configuration.engine with
    | interpreter => simp [engine] at refused
    | virtualMachine =>
        cases compiled : program.compile configuration.level with
        | ok list => simp [engine, compiled] at refused
        | error fault =>
            simp only [engine, compiled, Except.error.injEq] at refused
            subst refused
            exact Program.raised_of_compile compiled (Text.isShort_of_natAbs_le (by omega) short)
  · intro loaded machine cause made reachable fails
    unfold machine? at made
    split at made
    · contradiction
    · rename_i code executed
      cases made
      have size
          : (Tape.blank configuration.tapeSize configuration.policy).size
            = configuration.tapeSize :=
        Array.size_replicate
      refine reachable.raised_of_step
        (Tape.wellFormed_blank configuration.tapeSize_pos configuration.policy) ?_ (Int.le_refl 0)
        fails
      rw [size]
      exact failsWritably_of_code? executed short

end Brainfuck
