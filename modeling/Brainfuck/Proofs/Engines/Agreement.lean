import Brainfuck.Proofs.Brackets.Search
import Brainfuck.Proofs.Compilation.Addresses
import Brainfuck.Proofs.Execution.Pacing

/-! Agreement of both engines.
The interpreter on a program and the virtual machine on its unfolded code pass the same
commands with the same store. The virtual machine rests at comments, and a jump that is taken
costs it a second step at the partner, where it falls through.
-/

namespace Brainfuck.Machine

open SourceRun (pieces)
open Program (commands_at count_at offset_at pieces_at pieces_split)

variable {program : Program} {list : Array Instruction}

/-- The code of the program without folding, in order. -/
structure Unfolded (program : Program) (list : Array Instruction) : Prop where
  matched : program.Matched
  laidOut : LaidOut 0 (program.singleUnits.flatMap pieces) list.toList

/-- Both engines have passed the same commands, and hold the same store. -/
inductive Abreast (program : Program) (list : Array Instruction) : Machine → Machine → Prop
  | at {passed left : List SourceRun} (split : program.singleUnits = passed ++ left)
    {address codeAddress : Nat} (position : address = passed.length)
    (codePosition : codeAddress = (passed.flatMap pieces).length) {store : Store}
    {metrics codeMetrics : Metrics}
    (counted : codeMetrics.executed + metrics.skipped = metrics.counterChanges)
    : Abreast program list (placed (.source program) address store metrics)
        (placed (.instructions list) codeAddress store codeMetrics)

/-- Both engines have finished: only comments tell their counters apart. -/
def AgreeAtEnd (interpreter machine : Machine) : Prop :=
  interpreter.store = machine.store
  ∧ (machine.metrics.executed : Int)
    = interpreter.metrics.counterChanges - interpreter.metrics.skipped

/-- Both engines have failed: the virtual machine has counted the instruction already. -/
def AgreeAtFailure (interpreter : Machine) (fault : Fault) (machine : Machine)
    (other : Fault)
    : Prop :=
  fault = other
  ∧ interpreter.store = machine.store
  ∧ (machine.metrics.executed : Int)
    = interpreter.metrics.counterChanges - interpreter.metrics.skipped + 1
  ∧ fault.kind ≠ .unmatchedBracket

/-- The commands are nested around the one that is next to be executed. -/
theorem Unfolded.nested_at (unfolded : Unfolded program list) {singles : List SourceRun}
    (split : program.singleUnits = singles)
    : Nested (commandsOf singles) := by
  rw [← split, program.commandsOf_singleUnits]
  exact balanced_iff_nested.mp unfolded.matched

/-- A single command and its instruction do the same. -/
theorem action_of_instruction {single : SourceRun} {action : Action}
    (once : single.count = 1) (does : single.command.action? = some action)
    : ∃ instruction,
        single.instruction? = some instruction ∧ instruction.action? = some action := by
  unfold SourceRun.instruction?
  cases command : single.command <;> rw [command] at does <;> cases does <;> rw [once] <;>
    exact ⟨_, rfl, rfl⟩

/-- As many bytes are left to the interpreter as its counter is in front of the end. -/
def bytesLeft (machine : Machine) : Nat :=
  machine.length - machine.counter.toNat

/-- The comparison of both engines goes on, and nothing is passed that is to be stopped at. -/
abbrev Proceeds (program : Program) (list : Array Instruction) (stops : Nat → Prop)
    : Machine → Machine → Prop :=
  VisitPace (Abreast program list) (Ends AgreeAtEnd AgreeAtFailure) (Awaiting stops)
    (Awaiting (program.EmittedFor 0 stops)) bytesLeft

section Places

variable {passed left : List SourceRun} {single : SourceRun} {store : Store}
  {metrics codeMetrics : Metrics} {stops : Nat → Prop}

/-- Both engines are to be stopped at a command, or neither is. -/
theorem aligned_at (unfolded : Unfolded program list)
    (split : program.singleUnits = passed ++ single :: left)
    (visible : single.command ≠ .comment)
    : Awaiting stops (placed (.source program) passed.length store metrics)
      ↔ Awaiting (program.EmittedFor 0 stops)
          (placed (.instructions list) (passed.flatMap pieces).length store codeMetrics) := by
  have inside : passed.length < program.size := by
    rw [← Program.length_commands]
    exact (List.getElem?_eq_some_iff.mp (commands_at split)).1
  have parts : program.pieces 0 = passed.flatMap pieces ++ single :: left.flatMap pieces :=
    pieces_split split visible
  have codeInside : (passed.flatMap pieces).length < list.size := by
    rw [← Array.length_toList, unfolded.laidOut.length_eq, pieces_split split visible,
      List.length_append, List.length_cons]
    omega
  rw [awaiting_placed inside, awaiting_placed codeInside,
    Program.emittedFor_iff unfolded.matched parts, offset_at split]
  constructor
  · intro stop
    exact ⟨passed.length, rfl, stop⟩
  · intro awaits
    rcases awaits with ⟨offset, same, stop⟩
    exact Int.ofNat_inj.mp same ▸ stop

/-- The virtual machine is not stopped at a bracket. -/
theorem not_awaiting_bracket (unfolded : Unfolded program list)
    (allowed : ∀ offset, stops offset → program.StopOffset offset)
    (split : program.singleUnits = passed ++ single :: left)
    (bracket : single.command = .beginLoop ∨ single.command = .endLoop) (store : Store)
    (codeMetrics : Metrics)
    : ¬ Awaiting (program.EmittedFor 0 stops)
          (placed (.instructions list) (passed.flatMap pieces).length store codeMetrics) := by
  have visible : single.command ≠ .comment := by
    intro comment
    rw [comment] at bracket
    rcases bracket with same | same <;> contradiction
  have source : ¬ Awaiting stops (placed (.source program) passed.length store codeMetrics) := by
    intro awaits
    rcases awaits with ⟨_, offset, same, stop⟩
    obtain rfl := Int.ofNat_inj.mp same
    exact Program.not_stopOffset (commands_at split) (Or.inr bracket) (allowed _ stop)
  intro awaits
  exact source ((aligned_at unfolded split visible).mpr awaits)

/-- A comment is passed by the interpreter alone. -/
theorem proceeds_comment (allowed : ∀ offset, stops offset → program.StopOffset offset)
    (split : program.singleUnits = passed ++ single :: left)
    (comment : single.command = .comment)
    (counted : codeMetrics.executed + metrics.skipped = metrics.counterChanges)
    : Proceeds program list stops (placed (.source program) passed.length store metrics)
        (placed (.instructions list) (passed.flatMap pieces).length store codeMetrics) := by
  have found := commands_at split
  rw [comment] at found
  have inside : passed.length < program.size := by
    rw [← Program.length_commands]
    exact (List.getElem?_eq_some_iff.mp found).1
  refine .left (after?_succ (step_comment found store metrics) 0) (quiet_here ?_) ?_ ?_
  · intro awaits
    exact Program.not_stopOffset found (.inl rfl)
      (allowed _ ((awaiting_placed inside).mp awaits))
  · simp only [bytesLeft, length, placed, Code.length, Int.toNat_natCast]
    omega
  · have nothing : single.pieces = [] := by simp [pieces, comment]
    refine .at (split_behind split) (by simp) (by simp [nothing]) ?_
    simp only [Metrics.count]
    omega

/-- An action is done by both engines, or fails in both. -/
theorem proceeds_action (unfolded : Unfolded program list)
    (split : program.singleUnits = passed ++ single :: left) {action : Action}
    (does : single.command.action? = some action)
    (counted : codeMetrics.executed + metrics.skipped = metrics.counterChanges)
    : Proceeds program list stops (placed (.source program) passed.length store metrics)
        (placed (.instructions list) (passed.flatMap pieces).length store codeMetrics) := by
  have found := commands_at split
  have visible : single.command ≠ .comment := by
    intro comment
    rw [comment] at does
    contradiction
  obtain ⟨instruction, is, same⟩ := action_of_instruction (count_at split) does
  have code := unfolded.laidOut.plain_found (pieces_split split visible) is
  rw [Array.getElem?_toList] at code
  have stepSource := step_command found does store metrics
  have stepCode := step_instruction code same store codeMetrics
  cases acted : store.act action with
  | error fault =>
      simp only [acted] at stepSource stepCode
      refine .level (.stop (.fail (.of_step (unfinished_source found) stepSource)
        (.of_step (unfinished_instructions code) stepCode) ⟨rfl, rfl, ?_, ?_⟩)
        (aligned_at unfolded split visible) (fun _ => not_comesTo_of_fault stepSource)
        fun _ => not_comesTo_of_fault stepCode)
      · simp only [metrics_placed, Metrics.count]
        omega
      · intro unmatched
        rcases Store.kind_of_act acted with kind | kind <;> rw [kind] at unmatched <;>
          contradiction
  | ok next =>
      simp only [acted] at stepSource stepCode
      have own := pieces_at split visible
      refine .level (.both (aligned_at unfolded split visible) (after?_succ stepSource 0)
        quiet_none (after?_succ stepCode 0) quiet_none
        (.at (split_behind split) (by simp) (by simp [own]) ?_))
      simp only [Metrics.count]
      omega

/-- What both engines find at the ends of a loop: one searches for the partner of a bracket,
the other has its address.
-/
structure LoopFound (program : Program) (list : Array Instruction)
    (front body : List SourceRun) : Prop where
  begins : program.commands[front.length]? = some .beginLoop
  ends : program.commands[front.length + 1 + body.length]? = some .endLoop
  closing : program.closingOf front.length = .ok (front.length + 1 + body.length)
  opening
    : program.openingOf ((front.length + 1 + body.length : Nat) : Int) = .ok front.length
  first
    : list[(front.flatMap pieces).length]?
      = some
          (.jumpIfZero ((front.flatMap pieces).length + 1 + (body.flatMap pieces).length))
  last
    : list[(front.flatMap pieces).length + 1 + (body.flatMap pieces).length]?
      = some (.jumpIfNonzero (front.flatMap pieces).length)

/-- Both engines find the same partners: dropping comments keeps a body nested. -/
theorem loopFound (unfolded : Unfolded program list) {front body later : List SourceRun}
    {opening closing : SourceRun}
    (split : program.singleUnits = front ++ opening :: (body ++ closing :: later))
    (begins : opening.command = .beginLoop) (ends : closing.command = .endLoop)
    (inside : Nested (commandsOf body))
    : opening.pieces = [opening] ∧ closing.pieces = [closing]
      ∧ LoopFound program list front body := by
  have own := pieces_at split (by simp [begins])
  have partner := pieces_at (split_at_end split) (by simp [ends])
  have source
      : program.commands
        = commandsOf front ++ .beginLoop :: (commandsOf body ++ .endLoop :: commandsOf later) := by
    rw [← program.commandsOf_singleUnits, split]
    simp [begins, ends]
  have code
      : program.singleUnits.flatMap pieces
        = front.flatMap pieces
          ++ opening :: (body.flatMap pieces ++ closing :: later.flatMap pieces) := by
    simp [split, own, partner]
  have once : ∀ single ∈ body, single.count = 1 := fun single member =>
    program.count_of_mem_singleUnits (by simp [split, member])
  have nested := (nested_flatMap_pieces once).mpr inside
  have first := unfolded.laidOut.jumpIfZero_found code begins ends nested
  have last := unfolded.laidOut.jumpIfNonzero_found code begins ends nested
  have atEnd := commands_at (split_at_end split)
  rw [length_at_end, ends] at atEnd
  refine ⟨own, partner, ?_⟩
  exact
    {
      begins := begins ▸ commands_at split
      ends := atEnd
      closing := by simpa using Program.closingOf_partner inside source
      opening := by simpa using Program.openingOf_partner inside source
      first := by simpa using first
      last := by simpa using last
    }

/-- A `[` is entered by both engines, or passed together with its body. -/
theorem proceeds_beginLoop (unfolded : Unfolded program list)
    (allowed : ∀ offset, stops offset → program.StopOffset offset)
    (split : program.singleUnits = passed ++ single :: left)
    (begins : single.command = .beginLoop)
    (counted : codeMetrics.executed + metrics.skipped = metrics.counterChanges)
    : Proceeds program list stops (placed (.source program) passed.length store metrics)
        (placed (.instructions list) (passed.flatMap pieces).length store codeMetrics) := by
  obtain ⟨body, closing, later, rfl, ends, inside⟩ :=
    exists_closing (unfolded.nested_at split) begins
  obtain ⟨own, partner, loop⟩ := loopFound unfolded split begins ends inside
  have visible : single.command ≠ .comment := by simp [begins]
  have first := step_jumpIfZero loop.first store codeMetrics
  by_cases zero : store.tape.current = 0
  · rw [if_pos zero] at first
    -- The virtual machine only gets to the partner, and falls through there.
    have second := step_jumpIfNonzero loop.last store (codeMetrics.count 1 0 1)
    rw [if_pos zero] at second
    have between :=
      not_awaiting_bracket unfolded allowed (split_at_end split) (.inr ends) store
        (codeMetrics.count 1 0 1)
    rw [length_flatMap_at_end own] at between
    refine .level (.both (aligned_at unfolded split visible)
      (after?_succ (step_skip loop.begins zero loop.closing) 0) quiet_none
      ((after?_succ first 1).trans (after?_succ second 0))
      (quiet_between first between) (.at (split_behind_loop split) ?_ ?_ ?_))
    · simp only [List.length_append, List.length_cons, List.length_nil]
      omega
    · simp [own, partner]
      omega
    · simp only [Metrics.count]
      omega
  · rw [if_neg zero] at first
    refine .level (.both (aligned_at unfolded split visible)
      (after?_succ (step_enter loop.begins zero) 0) quiet_none (after?_succ first 0) quiet_none
      (.at (split_behind split) (by simp) (by simp [own]) ?_))
    simp only [Metrics.count]
    omega

/-- A `]` is left by both engines, or takes both back into the body. -/
theorem proceeds_endLoop (unfolded : Unfolded program list)
    (allowed : ∀ offset, stops offset → program.StopOffset offset)
    (split : program.singleUnits = passed ++ single :: left)
    (ends : single.command = .endLoop)
    (counted : codeMetrics.executed + metrics.skipped = metrics.counterChanges)
    : Proceeds program list stops (placed (.source program) passed.length store metrics)
        (placed (.instructions list) (passed.flatMap pieces).length store codeMetrics) := by
  obtain ⟨front, opening, body, rfl, begins, inside⟩ :=
    exists_opening (unfolded.nested_at split) ends
  have whole : program.singleUnits = front ++ opening :: (body ++ single :: left) := by
    simp [split]
  obtain ⟨own, partner, loop⟩ := loopFound unfolded whole begins ends inside
  have aligned
      : Awaiting stops
            (placed (.source program) (front ++ opening :: body).length store metrics)
        ↔ Awaiting (program.EmittedFor 0 stops)
            (placed (.instructions list) ((front ++ opening :: body).flatMap pieces).length store
              codeMetrics) :=
    aligned_at unfolded split (by simp [ends])
  rw [length_at_end, length_flatMap_at_end own] at aligned ⊢
  have first := step_jumpIfNonzero loop.last store codeMetrics
  by_cases zero : store.tape.current = 0
  · rw [if_pos zero] at first
    refine .level (.both aligned (after?_succ (step_leave loop.ends zero) 0) quiet_none
      (after?_succ first 0) quiet_none (.at (split_behind_loop whole) ?_ ?_ ?_))
    · simp only [List.length_append, List.length_cons, List.length_nil]
      omega
    · simp [own, partner]
      omega
    · simp only [Metrics.count]
      omega
  · rw [if_neg zero] at first
    -- The virtual machine only gets back to the partner, and falls through there.
    have second := step_jumpIfZero loop.first store (codeMetrics.count 1 0 1)
    rw [if_neg zero] at second
    have between :=
      not_awaiting_bracket unfolded allowed whole (.inl begins) store (codeMetrics.count 1 0 1)
    refine .level (.both aligned (after?_succ (step_repeat loop.ends zero loop.opening) 0)
      quiet_none ((after?_succ first 1).trans (after?_succ second 0))
      (quiet_between first between) (.at (split_behind whole) (by simp) (by simp [own]) ?_))
    simp only [Metrics.count]
    omega

end Places

/-- Both engines start with no command passed. -/
theorem Abreast.start (program : Program) (list : Array Instruction) (store : Store)
    : Abreast program list (placed (.source program) 0 store {})
        (placed (.instructions list) 0 store {}) :=
  .at (List.nil_append program.singleUnits).symm rfl rfl rfl

/-- From every place that both engines have reached the comparison goes on, by cases on the
command that stands there.
-/
theorem Abreast.keepsPace (unfolded : Unfolded program list) {stops : Nat → Prop}
    (allowed : ∀ offset, stops offset → program.StopOffset offset)
    {interpreter machine : Machine} (h : Abreast program list interpreter machine)
    : Proceeds program list stops interpreter machine := by
  obtain ⟨split, rfl, rfl, counted⟩ := h
  rename_i passed left store metrics codeMetrics
  cases left with
  | nil =>
      rw [List.append_nil] at split
      have size : program.size = passed.length := by
        rw [← Program.length_commands, ← program.commandsOf_singleUnits, split,
          length_commandsOf]
      have codeSize : list.size = (passed.flatMap pieces).length := by
        rw [← split, ← unfolded.laidOut.length_eq, Array.length_toList]
      have done : (placed (.source program) passed.length store metrics).finished = true :=
        finished_placed.mpr (Nat.le_of_eq size)
      have codeDone
          : (placed (.instructions list) (passed.flatMap pieces).length store
              codeMetrics).finished = true :=
        finished_placed.mpr (Nat.le_of_eq codeSize)
      refine .level (.stop (.finish (.of_finished done) (.of_finished codeDone) ⟨rfl, ?_⟩)
        (iff_of_false (not_awaiting_of_finished done) (not_awaiting_of_finished codeDone))
        (fun _ => not_comesTo_of_fault (step_of_finished done))
        fun _ => not_comesTo_of_fault (step_of_finished codeDone))
      simp only [metrics_placed]
      omega
  | cons single left =>
      have role := single.command.role
      generalize command : single.command = next at role
      cases role with
      | comment => exact proceeds_comment allowed split command counted
      | beginLoop => exact proceeds_beginLoop unfolded allowed split command counted
      | endLoop => exact proceeds_endLoop unfolded allowed split command counted
      | action action does => exact proceeds_action unfolded split (command ▸ does) counted

/-- From every place that both engines have reached their courses go on. -/
theorem Abreast.proceeds (unfolded : Unfolded program list) {interpreter machine : Machine}
    (h : Abreast program list interpreter machine)
    : Pace (Abreast program list) (Ends AgreeAtEnd AgreeAtFailure) bytesLeft interpreter
        machine := by
  have nowhere : ∀ offset, False → program.StopOffset offset := nofun
  exact (h.keepsPace unfolded nowhere).pace

end Brainfuck.Machine

namespace Brainfuck.Configuration

open Machine

/-- The interpreter on a program whose brackets match and the virtual machine on its unfolded
code take the same course: they end with the same store or with the same fault, which is never
that of a bracket, and the virtual machine has executed as many instructions as the
interpreter has changed its counter for other things than comments, and one more when both
have failed.
-/
theorem engines_agree (configuration : Configuration) {program : Program}
    (matched : program.Matched) (input : Input) (output : Output)
    : ∃ interpreter machine,
        { configuration with engine := .interpreter }.machine? program input output
          = .ok interpreter
        ∧ { configuration with engine := .virtualMachine, level := 0 }.machine? program input
            output
          = .ok machine
        ∧ SameCourse interpreter machine AgreeAtEnd AgreeAtFailure
        ∧ ∀ final fault,
            interpreter.FailsAs final fault → fault.kind ≠ .unmatchedBracket := by
  obtain ⟨list, compiled, laidOut⟩ := program.exists_laidOut matched 0
  have unfolded : Unfolded program list := ⟨matched, laidOut⟩
  let fresh := Store.fresh configuration input output
  have same
      : SameCourse (placed (.source program) 0 fresh {}) (placed (.instructions list) 0 fresh {})
          AgreeAtEnd AgreeAtFailure :=
    sameCourse_of_pace (Abreast.proceeds unfolded)
      (.at (List.nil_append program.singleUnits).symm rfl rfl rfl)
  refine ⟨placed (.source program) 0 fresh {}, placed (.instructions list) 0 fresh {}, ?_, ?_,
    same, ?_⟩
  · rw [machine?_eq]
    rfl
  · rw [machine?_eq]
    simp only [code?, compiled]
    rfl
  · intro final fault fails
    obtain ⟨_, _, failsToo⟩ := same.fail.mp ⟨final, fault, fails⟩
    exact (same.failed fails failsToo).2.2.2

/-- A loop with a comment in it, which writes and counts down what was read. -/
theorem engines_agree_on_loop
    : Program.Matched #[0x2c, 0x5b, 0x2e, 0x20, 0x2d, 0x5d]
      ∧ ∃ interpreter machine,
          { policy := .checked, tapeSize := 1 : Configuration }.machine?
              #[0x2c, 0x5b, 0x2e, 0x20, 0x2d, 0x5d] (.stream [2]) .empty
            = .ok interpreter
          ∧ { engine := .virtualMachine, policy := .checked, tapeSize := 1
              : Configuration }.machine?
              #[0x2c, 0x5b, 0x2e, 0x20, 0x2d, 0x5d] (.stream [2]) .empty
            = .ok machine
          ∧ SameCourse interpreter machine AgreeAtEnd AgreeAtFailure
          ∧ ∀ final fault,
              interpreter.FailsAs final fault → fault.kind ≠ .unmatchedBracket :=
  ⟨by decide,
    engines_agree { policy := .checked, tapeSize := 1 } (by decide) (.stream [2]) .empty⟩

end Brainfuck.Configuration
