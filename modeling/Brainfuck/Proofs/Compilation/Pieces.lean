import Brainfuck.Assembly
import Brainfuck.Proofs.Brackets.Balance
import Brainfuck.Proofs.Compilation.Runs

/-! Pieces of runs, each of which is one instruction.
A run of moves or additions is one piece, every other command is a piece of its own, and
comments are none. Assembling a run is assembling its pieces.
-/

namespace Brainfuck

/-- Commands of which a whole run becomes one instruction. -/
def Command.isCounted : Command → Bool
  | .moveRight | .moveLeft | .increment | .decrement => true
  | _ => false

namespace SourceRun

/-- The pieces that a run is assembled from. -/
def pieces (run : SourceRun) : List SourceRun :=
  if run.command = .comment then []
  else if run.command.isCounted then [run]
  else run.singles

/-- The instruction of a piece that is no bracket. -/
def instruction? (piece : SourceRun) : Option Instruction :=
  match piece.command with
  | .moveRight => some { opcode := .moveRight, operand := piece.count }
  | .moveLeft => some { opcode := .moveLeft, operand := piece.count }
  | .increment => some { opcode := .add, operand := piece.count }
  | .decrement => some { opcode := .subtract, operand := piece.count }
  | .output => some { opcode := .write }
  | .input => some { opcode := .read }
  | .comment | .beginLoop | .endLoop => none

/-- A run that is one instruction. -/
structure IsPiece (run : SourceRun) : Prop where
  visible : run.command ≠ .comment
  single : run.command.isCounted = false → run.count = 1

/-- A piece is an instruction unless it is a bracket. -/
theorem IsPiece.exists_instruction {piece : SourceRun} (h : piece.IsPiece)
    (notBegin : piece.command ≠ .beginLoop) (notEnd : piece.command ≠ .endLoop)
    : ∃ instruction, piece.instruction? = some instruction := by
  unfold instruction?
  cases command : piece.command with
  | comment => exact absurd command h.visible
  | beginLoop => exact absurd command notBegin
  | endLoop => exact absurd command notEnd
  | moveRight | moveLeft | increment | decrement | output | input => exact ⟨_, rfl⟩

/-- Single bytes are those of their run, and stand once. -/
theorem of_mem_singlesFrom {byte : UInt8} {offset : Int} {count : Nat}
    {single : SourceRun} (member : single ∈ singlesFrom byte offset count)
    : single.byte = byte ∧ single.count = 1 := by
  induction count generalizing offset with
  | zero => cases member
  | succ count ih =>
      rcases List.mem_cons.mp member with rfl | member
      · exact ⟨rfl, rfl⟩
      · exact ih member

theorem isPiece_of_mem_pieces {run piece : SourceRun} (member : piece ∈ run.pieces)
    : piece.IsPiece := by
  unfold pieces at member
  split at member
  · cases member
  · rename_i visible
    split at member <;> rename_i counted
    · obtain rfl := List.mem_singleton.mp member
      refine ⟨visible, ?_⟩
      intro uncounted
      rw [uncounted] at counted
      contradiction
    · obtain ⟨byte, count⟩ := of_mem_singlesFrom member
      exact ⟨by simpa only [command, byte] using visible, fun _ => count⟩

theorem byte_of_mem_pieces {run piece : SourceRun} (member : piece ∈ run.pieces)
    : piece.byte = run.byte := by
  unfold pieces at member
  split at member
  · cases member
  · split at member
    · rw [List.mem_singleton.mp member]
    · exact (of_mem_singlesFrom member).1

/-- The pieces of a run that is not empty are not empty. -/
theorem positive_of_mem_pieces {run piece : SourceRun} (positive : 0 < run.count)
    (member : piece ∈ run.pieces)
    : 0 < piece.count := by
  unfold pieces at member
  split at member
  · cases member
  · split at member
    · rwa [List.mem_singleton.mp member]
    · rw [(of_mem_singlesFrom member).2]
      exact Int.one_pos

theorem singles_of_single {run : SourceRun} (single : run.count = 1)
    : run.singles = [run] := by
  obtain ⟨offset, byte, count⟩ := run
  subst single
  rfl

/-- A run that is one instruction as a whole is its only piece. -/
theorem pieces_of_counted {run : SourceRun} (counted : run.command.isCounted = true)
    : run.pieces = [run] := by
  have visible : ¬ run.command = .comment := by
    intro comment
    rw [comment] at counted
    contradiction
  rw [pieces, if_neg visible, if_pos counted]

/-- A piece is its only piece. -/
theorem IsPiece.pieces_eq {piece : SourceRun} (h : piece.IsPiece)
    : piece.pieces = [piece] := by
  rw [pieces, if_neg h.visible]
  split
  · rfl
  · rename_i uncounted
    exact singles_of_single (h.single (Bool.eq_false_iff.mpr uncounted))

/-- A single byte that is no comment is a piece. -/
theorem isPiece_of_single {run : SourceRun} (single : run.count = 1)
    (visible : run.command ≠ .comment)
    : run.IsPiece :=
  ⟨visible, fun _ => single⟩

end SourceRun

/-- The commands of pieces. -/
def commandsOf (pieces : List SourceRun) : List Command :=
  pieces.map SourceRun.command

@[simp] theorem commandsOf_append (left right : List SourceRun)
    : commandsOf (left ++ right) = commandsOf left ++ commandsOf right :=
  List.map_append

@[simp] theorem commandsOf_cons (piece : SourceRun) (rest : List SourceRun)
    : commandsOf (piece :: rest) = piece.command :: commandsOf rest :=
  rfl

@[simp] theorem length_commandsOf (pieces : List SourceRun)
    : (commandsOf pieces).length = pieces.length :=
  List.length_map _

/-- The single bytes of a program stand for its commands. -/
theorem Program.commandsOf_singleUnits (program : Program)
    : commandsOf program.singleUnits = program.commands := by
  rw [commands, ← program.map_byte_singleUnits, List.map_map]
  rfl

/-- A run of brackets. -/
def SourceRun.isBracket (run : SourceRun) : Bool :=
  run.command.isBracket

theorem SourceRun.isBracket_iff {run : SourceRun}
    : run.isBracket = true ↔ run.command = .beginLoop ∨ run.command = .endLoop := by
  unfold isBracket
  cases run.command <;> simp [Command.isBracket]

/-- The brackets of pieces are the commands of those pieces that are brackets. -/
theorem brackets_commandsOf (pieces : List SourceRun)
    : brackets (commandsOf pieces) = commandsOf (pieces.filter SourceRun.isBracket) :=
  List.filter_map

/-- The single bytes of a run that is no run of brackets are no brackets. -/
theorem SourceRun.filter_singles_of_plain {run : SourceRun} (plain : run.isBracket = false)
    : run.singles.filter isBracket = [] := by
  apply List.filter_eq_nil_iff.mpr
  intro single member
  have same : single.isBracket = run.isBracket := by
    rw [isBracket, command, (of_mem_singlesFrom member).1]
    rfl
  simp [same, plain]

/-- A run and its pieces have the same brackets, because a run that is not taken apart has
none.
-/
theorem SourceRun.filter_pieces (run : SourceRun)
    : run.pieces.filter isBracket = run.singles.filter isBracket := by
  unfold pieces
  split
  · rename_i comment
    rw [filter_singles_of_plain (by rw [isBracket, comment]; rfl)]
    rfl
  · split <;> rename_i counted
    · have plain : run.isBracket = false := by
        rw [isBracket]
        cases command : run.command <;> rw [command] at counted <;> first | rfl | contradiction
      rw [filter_singles_of_plain plain]
      simp [plain]
    · rfl

theorem filter_flatMap_pieces (runs : List SourceRun)
    : (runs.flatMap SourceRun.pieces).filter SourceRun.isBracket
      = (runs.flatMap SourceRun.singles).filter SourceRun.isBracket := by
  rw [List.filter_flatMap, List.filter_flatMap]
  exact congrArg (runs.flatMap ·) (funext SourceRun.filter_pieces)

/-- Runs have the brackets of their pieces. -/
theorem brackets_pieces (runs : List SourceRun)
    : brackets (commandsOf (runs.flatMap SourceRun.pieces))
      = brackets (commandsOf (runs.flatMap SourceRun.singles)) := by
  rw [brackets_commandsOf, brackets_commandsOf, filter_flatMap_pieces]

/-- Everything that runs stand for, with each byte as often as its run says; a count that is
not positive says never.
-/
def written (runs : List SourceRun) : List Command :=
  runs.flatMap fun run => List.replicate run.count.toNat run.command

theorem commandsOf_singlesFrom (byte : UInt8) (offset : Int) (count : Nat)
    : commandsOf (SourceRun.singlesFrom byte offset count)
      = List.replicate count (Command.ofByte byte) := by
  induction count generalizing offset with
  | zero => rfl
  | succ count ih =>
      rw [SourceRun.singlesFrom, commandsOf_cons, ih, List.replicate_succ]
      rfl

theorem commandsOf_flatMap_singles (runs : List SourceRun)
    : commandsOf (runs.flatMap SourceRun.singles) = written runs := by
  rw [commandsOf, List.map_flatMap]
  exact congrArg (runs.flatMap ·) (funext fun run => commandsOf_singlesFrom _ _ _)

/-- Single bytes are not taken apart, by induction on them. -/
theorem flatMap_singles_eq {runs : List SourceRun} (once : ∀ run ∈ runs, run.count = 1)
    : runs.flatMap SourceRun.singles = runs := by
  induction runs with
  | nil => rfl
  | cons run runs ih =>
      rw [List.flatMap_cons, ih fun run member => once run (by simp [member])]
      rw [SourceRun.singles_of_single (once run (by simp))]
      rfl

/-- Pieces are not taken apart, by induction on them. -/
theorem flatMap_pieces_eq {runs : List SourceRun} (isPiece : ∀ run ∈ runs, run.IsPiece)
    : runs.flatMap SourceRun.pieces = runs := by
  induction runs with
  | nil => rfl
  | cons run runs ih =>
      rw [List.flatMap_cons, ih fun run member => isPiece run (by simp [member])]
      rw [(isPiece run (by simp)).pieces_eq]
      rfl

/-- The single bytes of the pieces of a run are its own, unless they are comments. -/
theorem flatMap_singles_pieces (run : SourceRun)
    : run.pieces.flatMap SourceRun.singles
      = if run.command = .comment then [] else run.singles := by
  unfold SourceRun.pieces
  split
  · rfl
  · split
    · simp
    · apply flatMap_singles_eq
      intro single member
      exact (SourceRun.of_mem_singlesFrom member).2

/-- The pieces of the single bytes of a run are these bytes, unless they are comments. -/
theorem flatMap_pieces_singles (run : SourceRun)
    : run.singles.flatMap SourceRun.pieces
      = if run.command = .comment then [] else run.singles := by
  have same {single : SourceRun} (member : single ∈ run.singles)
      : single.command = run.command := by
    rw [SourceRun.command, (SourceRun.of_mem_singlesFrom member).1]
    rfl
  split <;> rename_i comment
  · apply List.flatMap_eq_nil_iff.mpr
    intro single member
    rw [SourceRun.pieces, if_pos ((same member).trans comment)]
  · apply flatMap_pieces_eq
    intro single member
    exact SourceRun.isPiece_of_single (SourceRun.of_mem_singlesFrom member).2
      (same member ▸ comment)

/-- A piece of which a whole run is one instruction is found again among the runs, since such
a run is its only piece.
-/
theorem exists_run_of_piece {runs passed left : List SourceRun} {piece : SourceRun}
    (split : runs.flatMap SourceRun.pieces = passed ++ piece :: left)
    (counted : piece.command.isCounted = true)
    : ∃ earlier later,
        runs = earlier ++ piece :: later ∧ earlier.flatMap SourceRun.pieces = passed := by
  obtain ⟨earlier, run, later, before, after, rfl, own, rfl⟩ := exists_split_of_flatMap split
  have member : piece ∈ run.pieces := by simp [own]
  have byte := SourceRun.byte_of_mem_pieces member
  rw [SourceRun.command, byte, ← SourceRun.command] at counted
  rw [SourceRun.pieces_of_counted counted] at own
  rcases List.append_eq_singleton_iff.mp own.symm with ⟨rfl, only⟩ | ⟨_, none⟩
  · obtain ⟨rfl, -⟩ := List.cons.inj only
    exact ⟨earlier, later, rfl, (List.append_nil _).symm⟩
  · contradiction

namespace Program

variable {program : Program} {passed left : List SourceRun} {single : SourceRun}

/-- The command that is next to be executed. -/
theorem commands_at (split : program.singleUnits = passed ++ single :: left)
    : program.commands[passed.length]? = some single.command := by
  rw [← program.commandsOf_singleUnits, split]
  simp [commandsOf]

/-- A byte stands at the offset of its run. -/
theorem offset_at (split : program.singleUnits = passed ++ single :: left)
    : single.offset = passed.length := by
  have found : program.singleUnits[passed.length]? = some single := by simp [split]
  simp only [singleUnits, List.getElem?_map, Option.map_eq_some_iff, List.getElem?_zipIdx] at found
  obtain ⟨_, ⟨_, _, rfl⟩, rfl⟩ := found
  simp

/-- The byte that is next to be executed stands once. -/
theorem count_at (split : program.singleUnits = passed ++ single :: left)
    : single.count = 1 :=
  program.count_of_mem_singleUnits (split ▸ List.mem_append_right passed List.mem_cons_self)

/-- The command that is next to be executed is a piece of its own. -/
theorem pieces_at (split : program.singleUnits = passed ++ single :: left)
    (visible : single.command ≠ .comment)
    : single.pieces = [single] :=
  (SourceRun.isPiece_of_single (count_at split) visible).pieces_eq

/-- The pieces in front of a command, its own one, and the others. -/
theorem pieces_split (split : program.singleUnits = passed ++ single :: left)
    (visible : single.command ≠ .comment)
    : program.singleUnits.flatMap SourceRun.pieces
      = passed.flatMap SourceRun.pieces ++ single :: left.flatMap SourceRun.pieces := by
  rw [split, List.flatMap_append, List.flatMap_cons, pieces_at split visible]
  rfl

end Program

/-- Dropping comments from single bytes keeps them nested. -/
theorem nested_flatMap_pieces {runs : List SourceRun} (once : ∀ run ∈ runs, run.count = 1)
    : Nested (commandsOf (runs.flatMap SourceRun.pieces)) ↔ Nested (commandsOf runs) := by
  rw [← balanced_iff_nested, ← balanced_iff_nested]
  apply balanced_congr
  rw [brackets_pieces, flatMap_singles_eq once]

/-- Taking pieces apart keeps them nested. -/
theorem nested_flatMap_singles {runs : List SourceRun}
    (isPiece : ∀ run ∈ runs, run.IsPiece)
    : Nested (commandsOf (runs.flatMap SourceRun.singles)) ↔ Nested (commandsOf runs) := by
  rw [← balanced_iff_nested, ← balanced_iff_nested]
  apply balanced_congr
  rw [← brackets_pieces, flatMap_pieces_eq isPiece]

/-- How far the end of a loop is from the start when everything is taken apart, except for
the beginning of the loop.
-/
theorem length_flatMap_at_end {apart : SourceRun → List SourceRun} {opening : SourceRun}
    (own : apart opening = [opening]) (front body : List SourceRun)
    : ((front ++ opening :: body).flatMap apart).length
      = (front.flatMap apart).length + 1 + (body.flatMap apart).length := by
  rw [List.flatMap_append, List.flatMap_cons, own]
  exact length_at_end (front.flatMap apart) (body.flatMap apart) opening

/-- The partner of a `[` among nested runs. -/
theorem exists_closing {before behind : List SourceRun} {opening : SourceRun}
    (nested : Nested (commandsOf (before ++ opening :: behind)))
    (begins : opening.command = .beginLoop)
    : ∃ body closing later,
        behind = body ++ closing :: later
        ∧ closing.command = .endLoop
        ∧ Nested (commandsOf body) := by
  rw [commandsOf_append, commandsOf_cons, begins] at nested
  obtain ⟨inside, outside, split, inner⟩ := nested.exists_end
  obtain ⟨body, tail, rfl, rfl, rest⟩ := List.map_eq_append_iff.mp split
  obtain ⟨closing, later, rfl, ends, rfl⟩ := List.map_eq_cons_iff.mp rest
  exact ⟨body, closing, later, rfl, ends, inner⟩

/-- The partner of a `]` among nested runs. -/
theorem exists_opening {before behind : List SourceRun} {closing : SourceRun}
    (nested : Nested (commandsOf (before ++ closing :: behind)))
    (ends : closing.command = .endLoop)
    : ∃ earlier opening body,
        before = earlier ++ opening :: body
        ∧ opening.command = .beginLoop
        ∧ Nested (commandsOf body) := by
  rw [commandsOf_append, commandsOf_cons, ends] at nested
  obtain ⟨outside, inside, split, inner⟩ := nested.exists_begin
  obtain ⟨earlier, tail, rfl, rfl, rest⟩ := List.map_eq_append_iff.mp split
  obtain ⟨opening, body, rfl, begins, rfl⟩ := List.map_eq_cons_iff.mp rest
  exact ⟨earlier, opening, body, rfl, begins, inner⟩

namespace Assembly

/-- Assembling runs in portions. -/
theorem extendAll_append (assembly : Assembly) (left right : List SourceRun)
    : assembly.extendAll (left ++ right)
      = match assembly.extendAll left with
        | .error fault => .error fault
        | .ok extended => extended.extendAll right := by
  induction left generalizing assembly with
  | nil => rfl
  | cons run left ih =>
      rw [List.cons_append, extendAll, extendAll]
      cases assembly.extend run with
      | error fault => rfl
      | ok extended => exact ih extended

theorem extendAll_singleton (assembly : Assembly) (run : SourceRun)
    : assembly.extendAll [run] = assembly.extend run := by
  rw [extendAll]
  cases assembly.extend run <;> rfl

/-- A piece that is no bracket emits its instruction. -/
theorem extend_plain (assembly : Assembly) {piece : SourceRun} {instruction : Instruction}
    (isPiece : piece.IsPiece) (is : piece.instruction? = some instruction)
    : assembly.extend piece = .ok (assembly.emit instruction) := by
  have single := isPiece.single
  unfold SourceRun.instruction? at is
  unfold extend
  cases command : piece.command <;> rw [command] at is single <;> cases is <;>
    unfold SourceRun.command at command <;> simp only [command]
  case output =>
    rw [single rfl]
    rfl
  case input =>
    rw [single rfl]
    rfl

/-- A piece that is a `[` begins a loop. -/
theorem extend_beginLoop (assembly : Assembly) {piece : SourceRun} (isPiece : piece.IsPiece)
    (begins : piece.command = .beginLoop)
    : assembly.extend piece = .ok (assembly.beginLoop piece.offset) := by
  have single := isPiece.single (by rw [begins]; rfl)
  unfold SourceRun.command at begins
  simp only [extend, begins, single]
  rfl

/-- A piece that is a `]` ends a loop. -/
theorem extend_endLoop (assembly : Assembly) {piece : SourceRun} (isPiece : piece.IsPiece)
    (ends : piece.command = .endLoop)
    : assembly.extend piece = assembly.endLoop piece.offset := by
  have single := isPiece.single (by rw [ends]; rfl)
  unfold SourceRun.command at ends
  have once : (1 : Int).toNat = 1 := rfl
  simp only [extend, ends, single, once, endLoops]
  cases assembly.endLoop piece.offset <;> rfl

/-- The end of a loop emits one instruction and takes the innermost `[` from those that wait. -/
theorem of_endLoop {assembly closed : Assembly} {offset : Int}
    (h : assembly.endLoop offset = .ok closed)
    : closed.instructions.size = assembly.instructions.size + 1
      ∧ ∃ opening, assembly.pending = opening :: closed.pending := by
  obtain ⟨instructions, pending⟩ := assembly
  cases pending with
  | nil => contradiction
  | cons opening outer =>
      cases h
      exact ⟨by simp, opening, rfl⟩

/-- What a single piece makes of an assembly. -/
inductive Extension (assembly : Assembly) (piece : SourceRun) : Except Fault Assembly → Prop
  | plain {instruction : Instruction} (is : piece.instruction? = some instruction)
    (notBegin : piece.command ≠ .beginLoop) (notEnd : piece.command ≠ .endLoop)
    : Extension assembly piece (.ok (assembly.emit instruction))
  | beginLoop (begins : piece.command = .beginLoop)
    : Extension assembly piece (.ok (assembly.beginLoop piece.offset))
  | endLoop {closed : Assembly} (ends : piece.command = .endLoop)
    (closes : assembly.endLoop piece.offset = .ok closed)
    : Extension assembly piece (.ok closed)
  | surplus (ends : piece.command = .endLoop) (alone : assembly.pending = [])
    : Extension assembly piece (.error (.unmatchedClosing piece.offset))

/-- Every piece makes one of these of an assembly, by cases on its command. -/
theorem extension (assembly : Assembly) {piece : SourceRun} (isPiece : piece.IsPiece)
    : Extension assembly piece (assembly.extend piece) := by
  by_cases begins : piece.command = .beginLoop
  · rw [assembly.extend_beginLoop isPiece begins]
    exact .beginLoop begins
  · by_cases ends : piece.command = .endLoop
    · rw [assembly.extend_endLoop isPiece ends]
      cases closes : assembly.endLoop piece.offset with
      | ok closed => exact .endLoop ends closes
      | error fault =>
          obtain ⟨instructions, pending⟩ := assembly
          cases pending with
          | nil =>
              cases closes
              exact .surplus ends rfl
          | cons opening outer => contradiction
    · obtain ⟨instruction, is⟩ := isPiece.exists_instruction begins ends
      rw [assembly.extend_plain isPiece is]
      exact .plain is begins ends

/-- Single bytes emit the same instruction each, by induction on their number. -/
theorem extendAll_singlesFrom_plain {byte : UInt8} {instruction : Instruction}
    (each
      : ∀ (assembly : Assembly) offset,
          assembly.extend { offset, byte, count := 1 } = .ok (assembly.emit instruction))
    (assembly : Assembly) (offset : Int) (count : Nat)
    : assembly.extendAll (SourceRun.singlesFrom byte offset count)
      = .ok (assembly.emitTimes instruction count) := by
  induction count generalizing assembly offset with
  | zero => rfl
  | succ count ih =>
      rw [SourceRun.singlesFrom, extendAll, each]
      exact ih (assembly.emit instruction) (offset + 1)

/-- Single `[` begin one loop each, by induction on their number. -/
theorem extendAll_singlesFrom_beginLoop {byte : UInt8}
    (begins : Command.ofByte byte = .beginLoop) (assembly : Assembly) (offset : Int)
    (count : Nat)
    : assembly.extendAll (SourceRun.singlesFrom byte offset count)
      = .ok (assembly.beginLoops offset count) := by
  induction count generalizing assembly offset with
  | zero => rfl
  | succ count ih =>
      have once
          : assembly.extend { offset, byte, count := 1 } = .ok (assembly.beginLoop offset) := by
        simp only [extend, begins]
        rfl
      rw [SourceRun.singlesFrom, extendAll, once]
      exact ih (assembly.beginLoop offset) (offset + 1)

/-- Single `]` end one loop each, by induction on their number. -/
theorem extendAll_singlesFrom_endLoop {byte : UInt8}
    (ends : Command.ofByte byte = .endLoop) (assembly : Assembly) (offset : Int)
    (count : Nat)
    : assembly.extendAll (SourceRun.singlesFrom byte offset count)
      = assembly.endLoops offset count := by
  induction count generalizing assembly offset with
  | zero => rfl
  | succ count ih =>
      have once
          : assembly.extend { offset, byte, count := 1 } = assembly.endLoop offset :=
        assembly.extend_endLoop ⟨by simp [SourceRun.command, ends], fun _ => rfl⟩ ends
      rw [SourceRun.singlesFrom, extendAll, once, endLoops]
      cases assembly.endLoop offset with
      | error fault => rfl
      | ok closed => exact ih closed (offset + 1)

/-- Assembling a run is assembling its pieces. -/
theorem extendAll_pieces (assembly : Assembly) (run : SourceRun)
    : assembly.extendAll run.pieces = assembly.extend run := by
  obtain ⟨offset, byte, count⟩ := run
  cases command : Command.ofByte byte <;>
    simp only [SourceRun.pieces, SourceRun.singles, SourceRun.command, Command.isCounted,
      command, reduceCtorEq, if_true, if_false, Bool.false_eq_true]
  case comment => simp only [extendAll, extend, command]
  case moveRight => exact extendAll_singleton assembly _
  case moveLeft => exact extendAll_singleton assembly _
  case increment => exact extendAll_singleton assembly _
  case decrement => exact extendAll_singleton assembly _
  case output =>
    have each (assembly : Assembly) (offset : Int)
        : assembly.extend { offset, byte, count := 1 }
          = .ok (assembly.emit { opcode := .write }) := by
      simp only [extend, command]
      rfl
    rw [extendAll_singlesFrom_plain each]
    simp only [extend, command]
  case input =>
    have each (assembly : Assembly) (offset : Int)
        : assembly.extend { offset, byte, count := 1 }
          = .ok (assembly.emit { opcode := .read }) := by
      simp only [extend, command]
      rfl
    rw [extendAll_singlesFrom_plain each]
    simp only [extend, command]
  case beginLoop =>
    rw [extendAll_singlesFrom_beginLoop command]
    simp only [extend, command]
  case endLoop =>
    rw [extendAll_singlesFrom_endLoop command]
    simp only [extend, command]

/-- Assembling runs is assembling their pieces, by induction on the runs. -/
theorem extendAll_flatMap_pieces (assembly : Assembly) (runs : List SourceRun)
    : assembly.extendAll (runs.flatMap SourceRun.pieces) = assembly.extendAll runs := by
  induction runs generalizing assembly with
  | nil => rfl
  | cons run runs ih =>
      rw [List.flatMap_cons, extendAll_append, extendAll_pieces, extendAll]
      cases assembly.extend run with
      | error fault => rfl
      | ok extended => exact ih extended

end Assembly

end Brainfuck
