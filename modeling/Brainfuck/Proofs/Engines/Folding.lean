import Brainfuck.Proofs.Compilation.Addresses
import Brainfuck.Proofs.Execution.Pacing

/-! Soundness of folded runs.
One folded instruction does what its single ones do one after the other. Folded and unfolded
code pass the same pieces of the program with the same store, and when single instructions
fail half way through a run, the folded one fails in front of all of them.
-/

namespace Brainfuck.Machine

open SourceRun (singles)

variable {program : Program} {level : Nat} {unfolded folded : Array Instruction}

/-- A folded instruction, the unit of which it is a multiple, and what the unit does. Units
of reads and writes are not multiplied.
-/
structure Folds (piece : SourceRun) (multiple unit : Instruction) (action : Action)
    : Prop where
  isUnit : ∀ offset, { piece with offset, count := 1 }.instruction? = some unit
  does : unit.action? = some action
  doesAll : multiple.action? = some (action.times piece.count.toNat)
  counted
    : action.IsUnit ∧ piece.command.isCounted = true
      ∨ piece.count = 1 ∧ (action = .read ∨ action = .write)

/-- Every piece that is no bracket is a multiple of a unit, by cases on its command. -/
theorem exists_folds {piece : SourceRun} {instruction : Instruction}
    (isPiece : piece.IsPiece) (positive : 0 < piece.count)
    (is : piece.instruction? = some instruction)
    : ∃ unit action, Folds piece instruction unit action := by
  have number : (piece.count.toNat : Int) = piece.count := Int.toNat_of_nonneg (by omega)
  have once := isPiece.single
  have same (offset : Int) : { piece with offset, count := 1 }.command = piece.command := rfl
  unfold SourceRun.instruction? at is
  cases command : piece.command <;> rw [command] at is once <;> cases is
  case moveRight =>
    refine ⟨{ opcode := .moveRight, operand := 1 }, .move 1, ?_, rfl, ?_, ?_⟩
    · simp only [SourceRun.instruction?, same, command, implies_true]
    · simp [Instruction.action?, Action.times, number]
    · exact .inl ⟨.move (.inl rfl), by rw [command]; rfl⟩
  case moveLeft =>
    refine ⟨{ opcode := .moveLeft, operand := 1 }, .move (-1), ?_, rfl, ?_, ?_⟩
    · simp only [SourceRun.instruction?, same, command, implies_true]
    · simp [Instruction.action?, Action.times, number]
    · exact .inl ⟨.move (.inr rfl), by rw [command]; rfl⟩
  case increment =>
    refine ⟨{ opcode := .add, operand := 1 }, .add 1, ?_, rfl, ?_, ?_⟩
    · simp only [SourceRun.instruction?, same, command, implies_true]
    · simp [Instruction.action?, Action.times, number]
    · exact .inl ⟨.add (.inl rfl), by rw [command]; rfl⟩
  case decrement =>
    refine ⟨{ opcode := .subtract, operand := 1 }, .add (-1), ?_, rfl, ?_, ?_⟩
    · simp only [SourceRun.instruction?, same, command, implies_true]
    · simp [Instruction.action?, Action.times, number]
    · exact .inl ⟨.add (.inr rfl), by rw [command]; rfl⟩
  case output =>
    refine ⟨{ opcode := .write }, .write, ?_, rfl, rfl, .inr ⟨once rfl, .inr rfl⟩⟩
    simp only [SourceRun.instruction?, same, command, implies_true]
  case input =>
    refine ⟨{ opcode := .read }, .read, ?_, rfl, rfl, .inr ⟨once rfl, .inl rfl⟩⟩
    simp only [SourceRun.instruction?, same, command, implies_true]

/-- A multiple does what its units do, or fails with the same kind of fault. -/
theorem Folds.agree {piece : SourceRun} {multiple unit : Instruction} {action : Action}
    (h : Folds piece multiple unit action) {store : Store}
    (wellFormed : store.tape.WellFormed)
    : AgreeUpToKind (store.act (action.times piece.count.toNat))
        (repeated (·.act action) piece.count.toNat store) := by
  rcases h.counted with ⟨isUnit, -⟩ | ⟨once, channel⟩
  · exact Store.agree_repeated_act wellFormed isUnit _
  · rw [once]
    rcases channel with rfl | rfl <;> exact .ok _

/-- Units that fail have left the channels alone, because only moves and additions fail. -/
theorem Folds.channels_of_fault {piece : SourceRun} {multiple unit : Instruction}
    {action : Action} (h : Folds piece multiple unit action) {store reached : Store}
    {turn : Nat} {fault : Fault} (before : repeated (·.act action) turn store = .ok reached)
    (failed : reached.act action = .error fault)
    : reached.input = store.input ∧ reached.output = store.output := by
  have onTape (operation : Tape → Except Fault Tape)
      (same : ∀ store : Store, store.act action = store.withTape (operation store.tape))
      : reached.input = store.input ∧ reached.output = store.output := by
    rw [Store.repeated_act operation same] at before
    cases done : repeated operation turn store.tape with
    | error other => simp [done, Store.withTape] at before
    | ok tape =>
        simp only [done, Store.withTape, Except.ok.injEq] at before
        subst before
        exact ⟨rfl, rfl⟩
  rcases h.counted with ⟨isUnit, -⟩ | ⟨once, channel⟩
  · cases isUnit with
    | @move sign => exact onTape (Tape.moved · sign) fun _ => rfl
    | @add sign => exact onTape (Tape.added · sign) fun _ => rfl
  · rcases channel with rfl | rfl <;> simp [Store.act] at failed

/-- Equal instructions in a row do their action once each, by induction on their number. -/
theorem after?_repeated {list : Array Instruction} {address count : Nat}
    {instruction : Instruction} {action : Action}
    (found : ∀ turn < count, list[address + turn]? = some instruction)
    (does : instruction.action? = some action) {store reached : Store} (metrics : Metrics)
    (done : repeated (·.act action) count store = .ok reached)
    : ∃ later,
        (placed (.instructions list) address store metrics).after? count
        = some (placed (.instructions list) (address + count) reached later) := by
  induction count generalizing address store metrics with
  | zero =>
      cases done
      exact ⟨metrics, rfl⟩
  | succ count ih =>
      have step := step_instruction (found 0 (by omega)) does store metrics
      unfold repeated at done
      cases acted : store.act action with
      | error fault => simp [acted] at done
      | ok next =>
          simp only [acted] at done step
          have others : ∀ turn < count, list[address + 1 + turn]? = some instruction := by
            intro turn lt
            rw [Nat.add_assoc, Nat.add_comm 1]
            exact found (turn + 1) (by omega)
          obtain ⟨later, rest⟩ := ih others (metrics.count 1 0 1) done
          refine ⟨later, (after?_succ step count).trans ?_⟩
          rw [rest, Nat.add_assoc, Nat.add_comm 1]

/-- As long as equal instructions in a row succeed, every step goes to the next one, by
induction on the steps.
-/
theorem exists_placed_of_after? {list : Array Instruction} {address count index : Nat}
    {instruction : Instruction} {action : Action}
    (found : ∀ turn < count, list[address + turn]? = some instruction)
    (does : instruction.action? = some action) (le : index ≤ count) {store : Store}
    {metrics : Metrics} {last : Machine}
    (reached : (placed (.instructions list) address store metrics).after? index = some last)
    : ∃ later counted, last = placed (.instructions list) (address + index) later counted := by
  induction index generalizing address count store metrics with
  | zero =>
      cases reached
      exact ⟨store, metrics, rfl⟩
  | succ index ih =>
      obtain ⟨next, first, rest⟩ := exists_step_of_after? reached
      have step := step_instruction (found 0 (by omega)) does store metrics
      rw [Nat.add_zero] at step
      rw [step] at first
      split at first
      · cases first
      · cases first
        have others : ∀ turn < count - 1, list[address + 1 + turn]? = some instruction := by
          intro turn lt
          rw [Nat.add_assoc, Nat.add_comm 1]
          exact found (turn + 1) (by omega)
        obtain ⟨later, counted, rfl⟩ := ih others (by omega) rest
        exact ⟨later, counted, by rw [Nat.add_assoc, Nat.add_comm 1]⟩

-----------------------------------------------------------------------------------------
-- Failures within runs
-----------------------------------------------------------------------------------------

/-- Number of bytes that are commands. -/
def visibleBytes (bytes : List UInt8) : Nat :=
  (bytes.filter fun byte => Command.ofByte byte ≠ .comment).length

/-- A machine of unfolded code fails within a maximal run of moves or additions: it starts at
the first instruction of the run, executes some of them in a row, and fails at the next. All
bytes of such a run are commands, so they are the instructions that are executed.
-/
def FailsInRun (program : Program) (machine start final : Machine) (fault : Fault) : Prop :=
  ∃ before byte count behind,
    program.MaximalRun before byte count behind
    ∧ (Command.ofByte byte).isCounted = true
    ∧ (∃ steps, machine.after? steps = some start)
    ∧ start.counter = visibleBytes before
    ∧ ∃ turn < count,
        (∀ passed ≤ turn, ∃ middle,
          start.after? passed = some middle ∧ middle.counter = start.counter + passed)
        ∧ ∃ last,
            start.after? turn = some last
            ∧ last.step = { machine := final, fault? := some fault }

/-- Unfolded code has failed at an end of the tape or of the signed bytes, and folded code in
the same way. They have read and written the same, and the tape of the folded code is the one
in front of the run that the unfolded code has failed in.
-/
def FoldedFailure (program : Program) (machine final : Machine) (fault : Fault)
    (folded : Machine) (other : Fault)
    : Prop :=
  other.kind = fault.kind
  ∧ (fault.kind = .pointerOutOfRange ∨ fault.kind = .cellOverflow)
  ∧ folded.input = final.input
  ∧ folded.output = final.output
  ∧ ∃ start, FailsInRun program machine start final fault ∧ folded.tape = start.tape

/-- The unfolded address of a run is the number of commands in front of it, by induction on
the runs in front.
-/
theorem length_singles_pieces (runs : List SourceRun)
    : ((runs.flatMap SourceRun.pieces).flatMap singles).length
      = visibleBytes (runs.flatMap SourceRun.bytes) := by
  induction runs with
  | nil => rfl
  | cons run runs ih =>
      simp only [List.flatMap_cons, List.flatMap_append, List.length_append, ih, visibleBytes,
        List.filter_append, flatMap_singles_pieces]
      congr 1
      rw [SourceRun.bytes, List.filter_replicate]
      by_cases comment : run.command = .comment
      · have hidden : Command.ofByte run.byte = .comment := comment
        simp [comment, hidden]
      · have shown : ¬ Command.ofByte run.byte = .comment := comment
        simp [comment, shown]

-----------------------------------------------------------------------------------------
-- Both codes side by side
-----------------------------------------------------------------------------------------

/-- The pieces that a program is folded into. -/
abbrev foldedPieces (program : Program) : List SourceRun :=
  program.splitRuns.flatMap SourceRun.pieces

/-- The code of a program without folding and with it. -/
structure BothCodes (program : Program) (unfolded folded : Array Instruction) : Prop where
  unfolded : LaidOut 0 ((foldedPieces program).flatMap singles) unfolded.toList
  folded : LaidOut 0 (foldedPieces program) folded.toList

/-- Both codes have passed the same pieces, and hold the same store. -/
inductive InStep (program : Program) (unfolded folded : Array Instruction) (start : Machine)
    : Machine → Machine → Prop
  | at {passed left : List SourceRun} (split : foldedPieces program = passed ++ left)
    {address foldedAddress : Nat} (position : address = (passed.flatMap singles).length)
    (foldedPosition : foldedAddress = passed.length) {store : Store}
    (wellFormed : store.tape.WellFormed) {metrics foldedMetrics : Metrics} {steps : Nat}
    (reached
      : start.after? steps = some (placed (.instructions unfolded) address store metrics))
    : InStep program unfolded folded start
        (placed (.instructions unfolded) address store metrics)
        (placed (.instructions folded) foldedAddress store foldedMetrics)

/-- The comparison of both codes goes on, and nothing is passed that is to be stopped at. No
code rests, so there is no rank.
-/
abbrev StaysInStep (program : Program) (unfolded folded : Array Instruction)
    (stops : Nat → Prop) (start : Machine)
    : Machine → Machine → Prop :=
  VisitPace (InStep program unfolded folded start)
    (Ends (fun final foldedFinal => final.store = foldedFinal.store)
      (FoldedFailure program start))
    (Awaiting (program.EmittedFor 0 stops)) (Awaiting (program.EmittedFor 1 stops))
    fun _ => 0

/-- Only programs whose brackets match are laid out. -/
theorem BothCodes.matched (codes : BothCodes program unfolded folded) : program.Matched :=
  (program.balanced_pieces 1).mp (balanced_iff_nested.mpr codes.folded.nested)

/-- Every piece is a piece of a run, and stands at least once. -/
theorem of_mem_foldedPieces {piece : SourceRun} (member : piece ∈ foldedPieces program)
    : piece.IsPiece ∧ 0 < piece.count := by
  obtain ⟨run, runMember, member⟩ := List.mem_flatMap.mp member
  have positive := program.tiles_splitRuns.1.positive run runMember
  exact ⟨SourceRun.isPiece_of_mem_pieces member,
    SourceRun.positive_of_mem_pieces positive member⟩

/-- Unfolding the folded pieces gives those of the single bytes. -/
theorem singles_foldedPieces (program : Program)
    : (foldedPieces program).flatMap singles = program.pieces 0 := by
  have sameRun (run : SourceRun)
      : run.pieces.flatMap singles = run.singles.flatMap SourceRun.pieces := by
    rw [flatMap_singles_pieces, flatMap_pieces_singles]
  rw [foldedPieces, List.flatMap_assoc, Program.pieces, if_pos rfl, ← program.tiles_splitRuns.2,
    List.flatMap_assoc]
  exact congrArg (program.splitRuns.flatMap ·) (funext sameRun)

section Places

variable {start : Machine} {passed left : List SourceRun} {piece : SourceRun}
  {store : Store} {metrics foldedMetrics : Metrics} {steps : Nat} {stops : Nat → Prop}

/-- The single bytes of a piece stand one behind the other in the unfolded pieces. -/
theorem split_singles (split : foldedPieces program = passed ++ piece :: left) {turn : Nat}
    (lt : turn < piece.count.toNat)
    : ∃ before behind,
        program.pieces 0
          = before
            ++ { offset := piece.offset + turn, byte := piece.byte, count := 1 } :: behind
        ∧ before.length = (passed.flatMap singles).length + turn := by
  have own
      : piece.singles[turn]?
        = some { offset := piece.offset + turn, byte := piece.byte, count := 1 } :=
    SourceRun.getElem?_singlesFrom piece.byte piece.offset lt
  obtain ⟨before, behind, apart, same⟩ := exists_split_of_getElem? own
  refine ⟨passed.flatMap singles ++ before, behind ++ left.flatMap singles, ?_, ?_⟩
  · rw [← singles_foldedPieces, split, List.flatMap_append, List.flatMap_cons, apart]
    simp
  · rw [List.length_append, same]

/-- Both codes are to be stopped at a piece, or neither is. -/
theorem aligned_at_piece (codes : BothCodes program unfolded folded)
    (split : foldedPieces program = passed ++ piece :: left)
    : Awaiting (program.EmittedFor 0 stops)
          (placed (.instructions unfolded) (passed.flatMap singles).length store metrics)
      ↔ Awaiting (program.EmittedFor 1 stops)
          (placed (.instructions folded) passed.length store foldedMetrics) := by
  have member : piece ∈ foldedPieces program := by simp [split]
  have positive : 0 < piece.count.toNat := by
    have positive := (of_mem_foldedPieces member).2
    omega
  obtain ⟨before, behind, parts, length⟩ := split_singles split positive
  rw [Nat.add_zero] at length
  have size := codes.unfolded.length_eq
  have foldedSize := codes.folded.length_eq
  rw [Array.length_toList] at size foldedSize
  have inside : (passed.flatMap singles).length < unfolded.size := by
    rw [size, singles_foldedPieces, parts, List.length_append, List.length_cons]
    omega
  have foldedInside : passed.length < folded.size := by
    rw [foldedSize, split, List.length_append, List.length_cons]
    omega
  have folds : program.pieces 1 = passed ++ piece :: left := split
  rw [awaiting_placed inside, awaiting_placed foldedInside, ← length,
    Program.emittedFor_iff codes.matched parts, Program.emittedFor_iff codes.matched folds]
  simp

/-- Within a counted piece no code is stopped. -/
theorem quiet_inside (codes : BothCodes program unfolded folded)
    (allowed : ∀ offset, stops offset → program.StopOffset offset)
    (split : foldedPieces program = passed ++ piece :: left)
    (counted : piece.command.isCounted = true ∨ piece.count = 1) {unit : Instruction}
    {action : Action}
    (found
      : ∀ turn < piece.count.toNat,
          unfolded[(passed.flatMap singles).length + turn]? = some unit)
    (does : unit.action? = some action)
    : Quiet (Awaiting (program.EmittedFor 0 stops))
        (placed (.instructions unfolded) (passed.flatMap singles).length store metrics) 1
        piece.count.toNat := by
  intro turn late lt last reached awaits
  obtain ⟨later, counting, rfl⟩ :=
    exists_placed_of_after? found does (Nat.le_of_lt lt) reached
  obtain ⟨before, behind, parts, length⟩ := split_singles split lt
  have inside := (Array.getElem?_eq_some_iff.mp (found turn lt)).1
  rw [awaiting_placed inside, ← length, Program.emittedFor_iff codes.matched parts] at awaits
  obtain ⟨offset, same, stop⟩ := awaits
  rcases counted with counted | once
  · obtain ⟨earlier, others, runs, rfl⟩ := exists_run_of_piece split counted
    have starts : piece.offset = ((earlier.flatMap SourceRun.bytes).length : Int) := by
      have tiles := program.tiles_splitRuns.1
      rw [runs] at tiles
      simpa using tiles.offset_eq
    obtain rfl : (earlier.flatMap SourceRun.bytes).length + turn = offset := by
      simp only [starts] at same
      omega
    exact Program.not_stopOffset_inside (Program.maximalRun_of_splitRuns runs) counted late lt
      (allowed _ stop)
  · omega

/-- Units that fail one by one fail within a maximal run. -/
theorem failsInRun (split : foldedPieces program = passed ++ piece :: left)
    (counted : piece.command.isCounted = true) {unit : Instruction} {action : Action}
    (found
      : ∀ turn < piece.count.toNat,
          unfolded[(passed.flatMap singles).length + turn]? = some unit)
    (does : unit.action? = some action)
    (reached
      : start.after? steps
        = some
            (placed (.instructions unfolded) (passed.flatMap singles).length store metrics))
    {turn : Nat} (lt : turn < piece.count.toNat) {middle : Store}
    (before : repeated (·.act action) turn store = .ok middle) {fault : Fault}
    (failed : middle.act action = .error fault)
    : ∃ final,
        FailsInRun program start
          (placed (.instructions unfolded) (passed.flatMap singles).length store metrics) final
          fault
        ∧ (placed (.instructions unfolded) (passed.flatMap singles).length store metrics).FailsAs
          final fault
        ∧ final.input = middle.input
        ∧ final.output = middle.output
        ∧ ∃ stuck,
            (placed (.instructions unfolded) (passed.flatMap singles).length store metrics).after?
                turn
              = some stuck
            ∧ stuck.step.fault? ≠ none := by
  obtain ⟨earlier, later, runs, rfl⟩ := exists_run_of_piece split counted
  -- All turns in front of the failing one succeed, so its run is the steps from the start on.
  have enough {turns : Nat} (le : turns ≤ turn)
      : ∀ index < turns, unfolded[_ + index]? = some unit :=
    fun index small => found index (by omega)
  obtain ⟨lastMetrics, last⟩ := after?_repeated (enough (Nat.le_refl turn)) does metrics before
  have step := step_instruction (found turn lt) does middle lastMetrics
  simp only [failed] at step
  refine ⟨_, ⟨_, _, _, _, program.maximalRun_of_splitRuns runs, counted, ⟨steps, reached⟩, ?_,
    turn, lt, ?_, _, last, step⟩, ?_, rfl, rfl, _, last, by rw [step]; simp⟩
  · rw [counter_placed, length_singles_pieces]
  · intro turns le
    obtain ⟨reachedStore, done⟩ := repeated_ok_of_le before le
    obtain ⟨reachedMetrics, passes⟩ := after?_repeated (enough le) does metrics done
    exact ⟨_, passes, by simp⟩
  · exact (FailsAs.of_step (unfinished_instructions (found turn lt)) step).prepend last

/-- A piece that is no bracket is done by both codes, or fails in both. -/
theorem staysInStep_plain (codes : BothCodes program unfolded folded)
    (allowed : ∀ offset, stops offset → program.StopOffset offset)
    (split : foldedPieces program = passed ++ piece :: left) {instruction : Instruction}
    (is : piece.instruction? = some instruction)
    (code : folded[passed.length]? = some instruction) (wellFormed : store.tape.WellFormed)
    (reached
      : start.after? steps
        = some
            (placed (.instructions unfolded) (passed.flatMap singles).length store metrics))
    : StaysInStep program unfolded folded stops start
        (placed (.instructions unfolded) (passed.flatMap singles).length store metrics)
        (placed (.instructions folded) passed.length store foldedMetrics) := by
  have member : piece ∈ foldedPieces program := by simp [split]
  obtain ⟨isPiece, positive⟩ := of_mem_foldedPieces member
  obtain ⟨unit, action, folds⟩ := exists_folds isPiece positive is
  have found
      : ∀ turn < piece.count.toNat,
          unfolded[(passed.flatMap singles).length + turn]? = some unit := by
    intro turn lt
    obtain ⟨before, behind, parts, length⟩ := split_singles split lt
    rw [← singles_foldedPieces] at parts
    rw [← Array.getElem?_toList, ← length]
    exact codes.unfolded.plain_found parts (folds.isUnit _)
  have quiet
      : Quiet (Awaiting (program.EmittedFor 0 stops))
          (placed (.instructions unfolded) (passed.flatMap singles).length store metrics) 1
          piece.count.toNat :=
    quiet_inside codes allowed split (folds.counted.imp And.right And.left) found folds.does
  have step := step_instruction code folds.doesAll store foldedMetrics
  have agree := folds.agree wellFormed
  cases done : repeated (·.act action) piece.count.toNat store with
  | ok next =>
      have acted := (done ▸ agree).eq_ok
      simp only [acted] at step
      obtain ⟨later, passes⟩ := after?_repeated found folds.does metrics done
      -- Both machines step: a run is never empty.
      obtain ⟨more, number⟩ : ∃ more, piece.count.toNat = more + 1 :=
        ⟨piece.count.toNat - 1, by omega⟩
      rw [number] at passes quiet
      have kept := Store.wellFormed_of_act wellFormed acted
      exact .level (.both (aligned_at_piece codes split) passes quiet (after?_succ step 0)
        quiet_none
        (.at (split_behind split) (by simp [number]) (by simp) kept
          ((after?_add reached _).trans passes)))
  | error fault =>
      obtain ⟨other, acted, kind⟩ := (done ▸ agree).exists_error
      simp only [acted] at step
      obtain ⟨turn, lt, middle, before, failed⟩ := exists_turn_of_repeated done
      have counted : piece.command.isCounted = true := by
        rcases folds.counted with ⟨-, counted⟩ | ⟨-, rfl | rfl⟩
        · exact counted
        · simp [Store.act] at failed
        · simp [Store.act] at failed
      obtain ⟨final, inRun, fails, input, output, _, reaches, stuck⟩ :=
        failsInRun split counted found folds.does reached lt before failed
      obtain ⟨sameInput, sameOutput⟩ := folds.channels_of_fault before failed
      exact .level (.stop (.fail fails (.of_step (unfinished_instructions code) step)
        ⟨kind, Store.kind_of_act failed, (input.trans sameInput).symm,
          (output.trans sameOutput).symm, _, inRun, rfl⟩) (aligned_at_piece codes split)
        (fun _ => not_comesTo_of_stuck quiet lt reaches stuck)
        fun _ => not_comesTo_of_fault step)

/-- The jumps of a loop in both codes. -/
structure LoopInBoth (unfolded folded : Array Instruction) (front body : List SourceRun)
    : Prop where
  first
    : unfolded[(front.flatMap singles).length]?
      = some
          (.jumpIfZero ((front.flatMap singles).length + 1 + (body.flatMap singles).length))
  last
    : unfolded[(front.flatMap singles).length + 1 + (body.flatMap singles).length]?
      = some (.jumpIfNonzero (front.flatMap singles).length)
  foldedFirst
    : folded[front.length]? = some (.jumpIfZero (front.length + 1 + body.length))
  foldedLast
    : folded[front.length + 1 + body.length]? = some (.jumpIfNonzero front.length)

/-- A loop has its jumps in both codes, because unfolding keeps the body nested. -/
theorem loopInBoth (codes : BothCodes program unfolded folded)
    {front body later : List SourceRun} {opening closing : SourceRun}
    (split : foldedPieces program = front ++ opening :: (body ++ closing :: later))
    (begins : opening.command = .beginLoop) (ends : closing.command = .endLoop)
    (inside : Nested (commandsOf body))
    : opening.singles = [opening] ∧ closing.singles = [closing]
      ∧ LoopInBoth unfolded folded front body := by
  have isPiece {piece : SourceRun} (member : piece ∈ foldedPieces program) : piece.IsPiece :=
    (of_mem_foldedPieces member).1
  have own : opening.singles = [opening] :=
    SourceRun.singles_of_single ((isPiece (by simp [split])).single (by rw [begins]; rfl))
  have partner : closing.singles = [closing] :=
    SourceRun.singles_of_single ((isPiece (by simp [split])).single (by rw [ends]; rfl))
  have unfoldedSplit
      : (foldedPieces program).flatMap singles
        = front.flatMap singles
          ++ opening :: (body.flatMap singles ++ closing :: later.flatMap singles) := by
    simp [split, own, partner]
  have nested : Nested (commandsOf (body.flatMap singles)) :=
    (nested_flatMap_singles fun piece member => isPiece (by simp [split, member])).mpr inside
  have first := codes.unfolded.jumpIfZero_found unfoldedSplit begins ends nested
  have last := codes.unfolded.jumpIfNonzero_found unfoldedSplit begins ends nested
  have foldedFirst := codes.folded.jumpIfZero_found split begins ends inside
  have foldedLast := codes.folded.jumpIfNonzero_found split begins ends inside
  refine ⟨own, partner, ?_, ?_, ?_, ?_⟩
  · simpa using first
  · simpa using last
  · simpa using foldedFirst
  · simpa using foldedLast

/-- A `[` is entered in both codes, or both go to its partner. -/
theorem staysInStep_beginLoop (codes : BothCodes program unfolded folded)
    {body later : List SourceRun} {closing : SourceRun}
    (split : foldedPieces program = passed ++ piece :: (body ++ closing :: later))
    (begins : piece.command = .beginLoop) (ends : closing.command = .endLoop)
    (inside : Nested (commandsOf body)) (wellFormed : store.tape.WellFormed)
    (reached
      : start.after? steps
        = some
            (placed (.instructions unfolded) (passed.flatMap singles).length store metrics))
    : StaysInStep program unfolded folded stops start
        (placed (.instructions unfolded) (passed.flatMap singles).length store metrics)
        (placed (.instructions folded) passed.length store foldedMetrics) := by
  obtain ⟨own, partner, loop⟩ := loopInBoth codes split begins ends inside
  have step := step_jumpIfZero loop.first store metrics
  have foldedStep := step_jumpIfZero loop.foldedFirst store foldedMetrics
  by_cases zero : store.tape.current = 0
  · rw [if_pos zero] at step foldedStep
    exact .level (.both (aligned_at_piece codes split) (after?_succ step 0) quiet_none
      (after?_succ foldedStep 0) quiet_none
      (.at (split_at_end split) (length_flatMap_at_end own passed body).symm
        (length_at_end passed body piece).symm wellFormed (after?_snoc reached step)))
  · rw [if_neg zero] at step foldedStep
    exact .level (.both (aligned_at_piece codes split) (after?_succ step 0) quiet_none
      (after?_succ foldedStep 0) quiet_none
      (.at (split_behind split) (by simp [own]) (by simp) wellFormed
        (after?_snoc reached step)))

/-- A `]` is left in both codes, or both go back to its partner. -/
theorem staysInStep_endLoop (codes : BothCodes program unfolded folded)
    {earlier body : List SourceRun} {opening : SourceRun}
    (split : foldedPieces program = earlier ++ opening :: (body ++ piece :: left))
    (begins : opening.command = .beginLoop) (ends : piece.command = .endLoop)
    (inside : Nested (commandsOf body)) (wellFormed : store.tape.WellFormed)
    (reached
      : start.after? steps
        = some
            (placed (.instructions unfolded)
              ((earlier ++ opening :: body).flatMap singles).length store metrics))
    : StaysInStep program unfolded folded stops start
        (placed (.instructions unfolded)
          ((earlier ++ opening :: body).flatMap singles).length store metrics)
        (placed (.instructions folded) (earlier ++ opening :: body).length store
          foldedMetrics) := by
  obtain ⟨own, partner, loop⟩ := loopInBoth codes split begins ends inside
  have aligned
      : Awaiting (program.EmittedFor 0 stops)
            (placed (.instructions unfolded)
              ((earlier ++ opening :: body).flatMap singles).length store metrics)
        ↔ Awaiting (program.EmittedFor 1 stops)
            (placed (.instructions folded) (earlier ++ opening :: body).length store
              foldedMetrics) :=
    aligned_at_piece codes (split_at_end split)
  rw [length_flatMap_at_end own] at reached aligned ⊢
  rw [length_at_end] at aligned ⊢
  have step := step_jumpIfNonzero loop.last store metrics
  have foldedStep := step_jumpIfNonzero loop.foldedLast store foldedMetrics
  by_cases zero : store.tape.current = 0
  · rw [if_pos zero] at step foldedStep
    refine .level (.both aligned (after?_succ step 0) quiet_none (after?_succ foldedStep 0)
      quiet_none (.at (split_behind_loop split) ?_ ?_ wellFormed (after?_snoc reached step)))
    · simp [own, partner]
      omega
    · simp
      omega
  · rw [if_neg zero] at step foldedStep
    exact .level (.both aligned (after?_succ step 0) quiet_none (after?_succ foldedStep 0)
      quiet_none (.at split rfl rfl wellFormed (after?_snoc reached step)))

end Places

/-- Both codes start with no piece passed. -/
theorem InStep.start (program : Program) (unfolded folded : Array Instruction) {store : Store}
    (wellFormed : store.tape.WellFormed)
    : InStep program unfolded folded (placed (.instructions unfolded) 0 store {})
        (placed (.instructions unfolded) 0 store {}) (placed (.instructions folded) 0 store {}) :=
  .at (List.nil_append (foldedPieces program)).symm rfl rfl wellFormed (after?_zero _)

/-- From every place that both codes have reached the comparison goes on, by cases on the
placement of the piece that stands there.
-/
theorem InStep.keepsPace (codes : BothCodes program unfolded folded) {stops : Nat → Prop}
    (allowed : ∀ offset, stops offset → program.StopOffset offset) {start : Machine}
    {machine foldedMachine : Machine}
    (h : InStep program unfolded folded start machine foldedMachine)
    : StaysInStep program unfolded folded stops start machine foldedMachine := by
  obtain ⟨split, rfl, rfl, wellFormed, reached⟩ := h
  rename_i passed left store metrics foldedMetrics steps
  cases left with
  | nil =>
      rw [List.append_nil] at split
      have size := codes.unfolded.length_eq
      have foldedSize := codes.folded.length_eq
      rw [split, Array.length_toList] at size foldedSize
      have done
          : (placed (.instructions unfolded) (passed.flatMap singles).length store
              metrics).finished = true :=
        finished_placed.mpr (Nat.le_of_eq size)
      have foldedDone
          : (placed (.instructions folded) passed.length store foldedMetrics).finished = true :=
        finished_placed.mpr (Nat.le_of_eq foldedSize)
      exact .level (.stop (.finish (.of_finished done) (.of_finished foldedDone) rfl)
        (iff_of_false (not_awaiting_of_finished done) (not_awaiting_of_finished foldedDone))
        (fun _ => not_comesTo_of_fault (step_of_finished done))
        fun _ => not_comesTo_of_fault (step_of_finished foldedDone))
  | cons piece left =>
      cases codes.folded.placement split with
      | plain is found =>
          rw [Array.getElem?_toList] at found
          exact staysInStep_plain codes allowed split is found wellFormed reached
      | beginLoop begins behind ends inside =>
          subst behind
          exact staysInStep_beginLoop codes split begins ends inside wellFormed reached
      | endLoop ends before begins inside =>
          subst before
          rw [List.append_assoc, List.cons_append] at split
          exact staysInStep_endLoop codes split begins ends inside wellFormed reached

/-- From every place that both codes have reached their courses go on. -/
theorem InStep.stays (codes : BothCodes program unfolded folded) {start : Machine}
    {machine foldedMachine : Machine}
    (h : InStep program unfolded folded start machine foldedMachine)
    : Pace (InStep program unfolded folded start)
        (Ends (fun final foldedFinal => final.store = foldedFinal.store)
          (FoldedFailure program start))
        (fun _ => 0) machine foldedMachine := by
  have nowhere : ∀ offset, False → program.StopOffset offset := nofun
  exact (h.keepsPace codes nowhere).pace

end Brainfuck.Machine

namespace Brainfuck.Configuration

open Machine

/-- Folding runs is sound. The virtual machine takes the same course on folded code as on
unfolded code: it ends with the same store, or it fails in the same way, and then its tape is
the one in front of the run that the unfolded code has failed in.
-/
theorem folding_sound (configuration : Configuration) {level : Nat} (folds : 1 ≤ level)
    {program : Program} (matched : program.Matched) (input : Input) (output : Output)
    : ∃ machine folded,
        { configuration with engine := .virtualMachine, level := 0 }.machine? program input
            output
          = .ok machine
        ∧ { configuration with engine := .virtualMachine, level }.machine? program input output
          = .ok folded
        ∧ SameCourse machine folded (fun final foldedFinal => final.store = foldedFinal.store)
            (FoldedFailure program machine) := by
  obtain ⟨list, compiled, laidOut⟩ := program.exists_laidOut matched 0
  obtain ⟨foldedList, foldedCompiled, foldedLaidOut⟩ := program.exists_laidOut matched level
  rw [← singles_foldedPieces] at laidOut
  rw [Program.pieces, if_neg (Nat.ne_of_gt folds)] at foldedLaidOut
  let fresh := Store.fresh configuration input output
  let machine := placed (.instructions list) 0 fresh {}
  have wellFormed : fresh.tape.WellFormed := Tape.wellFormed_blank configuration.tapeSize_pos _
  have same
      : SameCourse machine (placed (.instructions foldedList) 0 fresh {})
          (fun final foldedFinal => final.store = foldedFinal.store)
          (FoldedFailure program machine) :=
    sameCourse_of_pace (InStep.stays ⟨laidOut, foldedLaidOut⟩)
      (.at (List.nil_append (foldedPieces program)).symm rfl rfl wellFormed (after?_zero machine))
  refine ⟨machine, placed (.instructions foldedList) 0 fresh {}, ?_, ?_, same⟩
  · rw [machine?_eq]
    simp only [code?, compiled]
    rfl
  · rw [machine?_eq]
    simp only [code?, foldedCompiled]
    rfl

/-- A run of four moves to the right that three cells end half way, behind an addition. -/
theorem folding_sound_of_moves
    : 1 ≤ 2
      ∧ Program.Matched #[0x2b, 0x3e, 0x3e, 0x3e, 0x3e]
      ∧ ∃ machine folded,
          { engine := .virtualMachine, tapeSize := 3 : Configuration }.machine?
              #[0x2b, 0x3e, 0x3e, 0x3e, 0x3e] (.stream [7]) .empty
            = .ok machine
          ∧ { engine := .virtualMachine, tapeSize := 3, level := 2 : Configuration }.machine?
              #[0x2b, 0x3e, 0x3e, 0x3e, 0x3e] (.stream [7]) .empty
            = .ok folded
          ∧ SameCourse machine folded
              (fun final foldedFinal => final.store = foldedFinal.store)
              (FoldedFailure #[0x2b, 0x3e, 0x3e, 0x3e, 0x3e] machine) :=
  ⟨by decide, by decide,
    folding_sound { tapeSize := 3 } (by decide) (by decide) (.stream [7]) .empty⟩

end Brainfuck.Configuration
