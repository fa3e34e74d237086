import Brainfuck.Proofs.Brackets.Matching
import Brainfuck.Proofs.Compilation.Addresses
import Mathlib.Data.List.SplitBy

/-! Code read back as source.
Every instruction spells the bytes of its piece, so code spells the commands of its program,
and comments are all that is lost. What stands in front of a piece is spelled by the
instructions in front of its own, which is why jumps go where the searches in the source go.
-/

namespace Brainfuck

-----------------------------------------------------------------------------------------
-- Source of instructions
-----------------------------------------------------------------------------------------

/-- The byte of a command; a comment has no byte of its own. -/
def Command.byte : Command → UInt8
  | .increment => 0x2b
  | .decrement => 0x2d
  | .moveRight => 0x3e
  | .moveLeft => 0x3c
  | .output => 0x2e
  | .input => 0x2c
  | .beginLoop => openBracket
  | .endLoop => closeBracket
  | .comment => 0

/-- The bytes that are commands, without the comments between them. -/
def commandBytes (bytes : List UInt8) : List UInt8 :=
  bytes.filter fun byte => Command.ofByte byte ≠ .comment

namespace Instruction

/-- Instructions that carry a count. -/
def isCounted (instruction : Instruction) : Bool :=
  match instruction.opcode with
  | .add | .subtract | .moveRight | .moveLeft => true
  | _ => false

/-- The source of an instruction; an unknown one has none. -/
def source (instruction : Instruction) : List UInt8 :=
  match instruction.opcode with
  | .add => List.replicate instruction.operand.toNat Command.increment.byte
  | .subtract => List.replicate instruction.operand.toNat Command.decrement.byte
  | .moveRight => List.replicate instruction.operand.toNat Command.moveRight.byte
  | .moveLeft => List.replicate instruction.operand.toNat Command.moveLeft.byte
  | .write => [Command.output.byte]
  | .read => [Command.input.byte]
  | .jumpIfZero => [Command.beginLoop.byte]
  | .jumpIfNonzero => [Command.endLoop.byte]
  | .foreign _ => []

end Instruction

/-- A byte that is no comment is the one byte of its command. -/
theorem Command.byte_ofByte {byte : UInt8} (visible : Command.ofByte byte ≠ .comment)
    : (Command.ofByte byte).byte = byte := by
  unfold Command.ofByte at visible ⊢
  repeat' split
  all_goals first
    | (rename_i same; exact same.symm)
    | simp_all

/-- An instruction that says as much as the piece that it is emitted for. -/
structure SpelledBy (piece : SourceRun) (instruction : Instruction) : Prop where
  source : instruction.source = piece.bytes
  counted : instruction.isCounted = piece.command.isCounted
  operand : instruction.isCounted = true → instruction.operand = piece.count

namespace SourceRun

variable {piece run : SourceRun}

/-- The bytes of a piece are those of its command, as often as it stands. -/
theorem IsPiece.bytes_eq (h : piece.IsPiece)
    : piece.bytes = List.replicate piece.count.toNat piece.command.byte := by
  rw [bytes, command, Command.byte_ofByte h.visible]

/-- The bytes of a piece that is not counted is the byte of its command. -/
theorem IsPiece.bytes_of_uncounted (h : piece.IsPiece)
    (uncounted : piece.command.isCounted = false)
    : piece.bytes = [piece.command.byte] := by
  rw [h.bytes_eq, h.single uncounted]
  rfl

/-- The instruction of a piece that is no bracket spells it, by cases on the command. -/
theorem IsPiece.spelledBy (h : piece.IsPiece) {instruction : Instruction}
    (is : piece.instruction? = some instruction)
    : SpelledBy piece instruction := by
  have bytes := h.bytes_eq
  have single := h.bytes_of_uncounted
  unfold instruction? at is
  cases command : piece.command <;> rw [command] at is bytes single <;> cases is
  case moveRight | moveLeft | increment | decrement =>
    exact ⟨bytes.symm, by rw [command]; rfl, fun _ => rfl⟩
  case output | input => exact ⟨(single rfl).symm, by rw [command]; rfl, nofun⟩

end SourceRun

/-- Code spells the pieces that it is laid out from, by induction on the layout. -/
theorem LaidOut.spelledBy {address : Nat} {pieces : List SourceRun} {code : List Instruction}
    (h : LaidOut address pieces code) (visible : ∀ piece ∈ pieces, piece.IsPiece)
    : List.Forall₂ SpelledBy pieces code := by
  induction h with
  | nil => exact .nil
  | plain is _ ih =>
      obtain ⟨shown, others⟩ := List.forall_mem_cons.mp visible
      exact .cons (shown.spelledBy is) (ih others)
  | @loop _ opening closing body rest _ _ begins ends _ _ ihBody ihRest =>
      obtain ⟨shownOpening, others⟩ := List.forall_mem_cons.mp visible
      obtain ⟨inside, outside⟩ := List.forall_mem_append.mp others
      obtain ⟨shownClosing, behind⟩ := List.forall_mem_cons.mp outside
      have first (target : Nat) : SpelledBy opening (.jumpIfZero target) := by
        have bytes := shownOpening.bytes_of_uncounted (by rw [begins]; rfl)
        rw [begins] at bytes
        exact ⟨bytes.symm, by rw [begins]; rfl, nofun⟩
      have last (target : Nat) : SpelledBy closing (.jumpIfNonzero target) := by
        have bytes := shownClosing.bytes_of_uncounted (by rw [ends]; rfl)
        rw [ends] at bytes
        exact ⟨bytes.symm, by rw [ends]; rfl, nofun⟩
      exact .cons (first _) (List.rel_append (ihBody inside) (.cons (last _) (ihRest behind)))

section Spelled

variable {pieces : List SourceRun} {code : List Instruction}

/-- What code spells, instruction by instruction. -/
theorem map_source_eq (h : List.Forall₂ SpelledBy pieces code)
    : code.map Instruction.source = pieces.map SourceRun.bytes := by
  induction h with
  | nil => rfl
  | cons spells _ ih => rw [List.map_cons, List.map_cons, spells.source, ih]

theorem flatMap_source_eq (h : List.Forall₂ SpelledBy pieces code)
    : code.flatMap Instruction.source = pieces.flatMap SourceRun.bytes := by
  rw [List.flatMap_def, map_source_eq h, List.flatMap_def]

/-- Counted instructions spell the counted pieces. -/
theorem map_source_filter_eq (h : List.Forall₂ SpelledBy pieces code)
    : (code.filter Instruction.isCounted).map Instruction.source
      = (pieces.filter fun piece => piece.command.isCounted).map SourceRun.bytes := by
  apply map_source_eq
  induction h with
  | nil => exact .nil
  | cons spells _ ih =>
      rw [List.filter_cons, List.filter_cons, spells.counted]
      split
      · exact .cons spells ih
      · exact ih

/-- What holds for the counts of all pieces holds for the operands of counted instructions. -/
theorem forall_operand (holds : Int → Prop) (h : List.Forall₂ SpelledBy pieces code)
    (counts : ∀ piece ∈ pieces, holds piece.count)
    : ∀ instruction ∈ code, instruction.isCounted = true → holds instruction.operand := by
  induction h with
  | nil => simp
  | cons spells _ ih =>
      obtain ⟨first, others⟩ := List.forall_mem_cons.mp counts
      intro instruction member counted
      rcases List.mem_cons.mp member with rfl | member
      · rw [spells.operand counted]
        exact first
      · exact ih others instruction member counted

end Spelled

-----------------------------------------------------------------------------------------
-- Bytes of pieces
-----------------------------------------------------------------------------------------

@[simp] theorem commandBytes_append (left right : List UInt8)
    : commandBytes (left ++ right) = commandBytes left ++ commandBytes right :=
  List.filter_append left right

/-- Equal bytes are all comments or all commands. -/
theorem commandBytes_replicate (count : Nat) (byte : UInt8)
    : commandBytes (List.replicate count byte)
      = if Command.ofByte byte = .comment then [] else List.replicate count byte := by
  rw [commandBytes, List.filter_replicate]
  by_cases comment : Command.ofByte byte = .comment <;> simp [comment]

/-- Comments are no brackets, so nothing is lost with them. -/
theorem brackets_commandBytes (bytes : List UInt8)
    : brackets ((commandBytes bytes).map Command.ofByte)
      = brackets (bytes.map Command.ofByte) := by
  rw [brackets, brackets, List.filter_map, List.filter_map, commandBytes, List.filter_filter]
  congr 2
  funext byte
  cases command : Command.ofByte byte <;> simp [Command.isBracket, command]

namespace SourceRun

variable {run piece : SourceRun}

/-- Runs of one byte each have that byte, by induction on the runs. -/
theorem flatMap_bytes_of_once {runs : List SourceRun} (once : ∀ run ∈ runs, run.count = 1)
    : runs.flatMap bytes = runs.map SourceRun.byte := by
  induction runs with
  | nil => rfl
  | cons run runs ih =>
      obtain ⟨first, others⟩ := List.forall_mem_cons.mp once
      rw [List.flatMap_cons, ih others, bytes, first]
      rfl

/-- Some single bytes of a run are its byte, as often as they are. -/
theorem flatMap_bytes_of_singles {part : List SourceRun}
    (own : ∀ single ∈ part, single ∈ run.singles)
    : part.flatMap bytes = List.replicate part.length run.byte := by
  rw [flatMap_bytes_of_once fun single member => (of_mem_singlesFrom (own single member)).2]
  apply List.map_eq_replicate_iff.mpr
  intro single member
  exact (of_mem_singlesFrom (own single member)).1

/-- The pieces of a single byte are single. -/
theorem count_of_mem_pieces (once : run.count = 1) (member : piece ∈ run.pieces)
    : piece.count = 1 := by
  unfold pieces at member
  split at member
  · cases member
  · split at member
    · rw [List.mem_singleton.mp member, once]
    · exact (of_mem_singlesFrom member).2

/-- The pieces of a run have its bytes, unless it is a comment. -/
theorem flatMap_bytes_pieces (run : SourceRun)
    : run.pieces.flatMap bytes = commandBytes run.bytes := by
  rw [bytes, commandBytes_replicate]
  unfold pieces
  split
  · rename_i comment
    exact (if_pos comment).symm
  · rename_i visible
    rw [command] at visible
    rw [if_neg visible]
    split
    · exact List.flatMap_singleton bytes run
    · rw [flatMap_bytes_of_singles fun _ => id, length_singles]

/-- A piece of a run stands as far behind its start as bytes are in front of it. -/
theorem exists_turn (positive : 0 < run.count) {before after : List SourceRun}
    (split : run.pieces = before ++ piece :: after)
    : ∃ turn < run.count.toNat,
        piece.offset = run.offset + turn
        ∧ before.flatMap bytes = commandBytes (List.replicate turn run.byte) := by
  have member : piece ∈ run.pieces := by simp [split]
  unfold pieces at split
  split at split
  · simp at split
  · rename_i visible
    rw [command] at visible
    split at split
    · obtain ⟨rfl, alone⟩ | ⟨_, nothing⟩ := List.append_eq_singleton_iff.mp split.symm
      · obtain ⟨rfl, -⟩ := List.cons.inj alone
        exact ⟨0, by omega, by simp, rfl⟩
      · contradiction
    · have lt : before.length < run.count.toNat := by
        rw [← run.length_singles, split, List.length_append, List.length_cons]
        omega
      have found : run.singles[before.length]? = some piece := by simp [split]
      rw [singles, getElem?_singlesFrom run.byte run.offset lt] at found
      refine ⟨before.length, lt, ?_, ?_⟩
      · rw [← Option.some.inj found]
      · rw [commandBytes_replicate, if_neg visible]
        apply flatMap_bytes_of_singles
        intro single among
        rw [split]
        exact List.mem_append_left _ among

end SourceRun

-----------------------------------------------------------------------------------------
-- Programs cut into runs
-----------------------------------------------------------------------------------------

/-- Runs that a program is cut into: none is empty, and each starts where those in front end. -/
structure Program.Cut (program : Program) (runs : List SourceRun) : Prop where
  bytes : runs.flatMap SourceRun.bytes = program.toList
  positive : ∀ run ∈ runs, 0 < run.count
  starts
    : ∀ {earlier later : List SourceRun} {run : SourceRun},
        runs = earlier ++ run :: later
        → run.offset = (earlier.flatMap SourceRun.bytes).length

/-- The pieces of runs have the bytes of the runs that are commands, by induction on the runs. -/
theorem flatMap_bytes_flatMap_pieces (runs : List SourceRun)
    : (runs.flatMap SourceRun.pieces).flatMap SourceRun.bytes
      = commandBytes (runs.flatMap SourceRun.bytes) := by
  induction runs with
  | nil => rfl
  | cons run runs ih =>
      rw [List.flatMap_cons, List.flatMap_append, List.flatMap_cons, commandBytes_append, ih,
        run.flatMap_bytes_pieces]

/-- The brackets of pieces are those of their bytes. -/
theorem brackets_map_bytes {pieces : List SourceRun} (isPiece : ∀ piece ∈ pieces, piece.IsPiece)
    : brackets ((pieces.flatMap SourceRun.bytes).map Command.ofByte)
      = brackets (commandsOf pieces) := by
  have same : (pieces.flatMap SourceRun.bytes).map Command.ofByte = written pieces := by
    rw [List.map_flatMap, written]
    congr 1
    funext piece
    exact List.map_replicate
  rw [same, ← commandsOf_flatMap_singles, ← brackets_pieces, flatMap_pieces_eq isPiece]

namespace Program

variable {program : Program} {runs : List SourceRun}

/-- A program is cut into its runs at every level. -/
theorem cut_at_level (program : Program) (level : Nat)
    : program.Cut (if level = 0 then program.singleUnits else program.splitRuns) := by
  split
  · have once : ∀ single ∈ program.singleUnits, single.count = 1 :=
      fun _ => program.count_of_mem_singleUnits
    refine ⟨?_, ?_, ?_⟩
    · rw [SourceRun.flatMap_bytes_of_once once, map_byte_singleUnits]
    · intro single member
      rw [once single member]
      exact Int.one_pos
    · intro earlier later run split
      rw [split] at once
      obtain ⟨front, _⟩ := List.forall_mem_append.mp once
      rw [offset_at split, SourceRun.flatMap_bytes_of_once front, List.length_map]
  · obtain ⟨tiles, _⟩ := program.tiles_splitRuns
    refine ⟨program.flatMap_bytes_splitRuns, tiles.positive, ?_⟩
    intro earlier later run split
    rw [split] at tiles
    rw [tiles.offset_eq, Int.zero_add]

/-- What stands at the offset of a piece, and what the pieces in front of it say. -/
theorem Cut.exists_offset (cut : program.Cut runs) {passed left : List SourceRun}
    {piece : SourceRun} (split : runs.flatMap SourceRun.pieces = passed ++ piece :: left)
    : ∃ offset : Nat,
        piece.offset = offset
        ∧ program.toList[offset]? = some piece.byte
        ∧ passed.flatMap SourceRun.bytes = commandBytes (program.toList.take offset) := by
  obtain ⟨earlier, run, later, before, after, rfl, own, rfl⟩ := exists_split_of_flatMap split
  have positive := cut.positive run (by simp)
  obtain ⟨turn, lt, place, front⟩ := SourceRun.exists_turn positive own
  have byte : piece.byte = run.byte := SourceRun.byte_of_mem_pieces (by simp [own])
  have whole
      : program.toList
        = (earlier.flatMap SourceRun.bytes ++ List.replicate turn run.byte)
          ++ (List.replicate (run.count.toNat - turn) run.byte
            ++ later.flatMap SourceRun.bytes) := by
    rw [← cut.bytes, List.flatMap_append, List.flatMap_cons, List.append_assoc,
      ← List.append_assoc (List.replicate turn run.byte), List.replicate_append_replicate,
      Nat.add_sub_cancel' (Nat.le_of_lt lt)]
    rfl
  have length
      : (earlier.flatMap SourceRun.bytes ++ List.replicate turn run.byte).length
        = (earlier.flatMap SourceRun.bytes).length + turn := by
    rw [List.length_append, List.length_replicate]
  refine ⟨(earlier.flatMap SourceRun.bytes).length + turn, ?_, ?_, ?_⟩
  · rw [place, cut.starts rfl, Int.natCast_add]
  · obtain ⟨more, left⟩ : ∃ more, run.count.toNat - turn = more + 1 :=
      ⟨run.count.toNat - turn - 1, by omega⟩
    rw [whole, ← length, List.getElem?_append_right (Nat.le_refl _), left, byte]
    simp [List.replicate_succ]
  · rw [whole, ← length, List.take_left, commandBytes_append, List.flatMap_append, front,
      flatMap_bytes_flatMap_pieces]

/-- The brackets in front of a piece are those of the pieces in front of it. -/
theorem brackets_take {passed : List SourceRun} (isPiece : ∀ piece ∈ passed, piece.IsPiece)
    {offset : Nat}
    (front : passed.flatMap SourceRun.bytes = commandBytes (program.toList.take offset))
    : brackets (program.commands.take offset) = brackets (commandsOf passed) := by
  rw [← brackets_map_bytes isPiece, front, brackets_commandBytes, commands, List.map_take]

theorem brackets_at_beginLoop (front behind : List Command)
    : brackets (front ++ .beginLoop :: behind)
      = brackets front ++ .beginLoop :: brackets behind :=
  List.filter_append front (.beginLoop :: behind)

/-- Commands up to an offset are those up to a command in front of it, and what is between. -/
theorem take_eq_append_between {commands : List Command} {start stop : Nat} {command : Command}
    (found : commands[start]? = some command) (lt : start < stop)
    : commands.take stop = commands.take start ++ command :: between commands start stop := by
  have front : (commands.take stop).take (start + 1) = commands.take start ++ [command] := by
    rw [List.take_take, Nat.min_eq_left lt, List.take_add_one, found]
    rfl
  have back : (commands.take stop).drop (start + 1) = between commands start stop := rfl
  rw [← List.take_append_drop (start + 1) (commands.take stop), front, back, List.append_assoc]
  rfl

/-- The brackets of a loop among the pieces are partners in the program: what the pieces between
them say is balanced, and nothing but comments is lost.
-/
theorem Cut.exists_partners (cut : program.Cut runs) {before body later : List SourceRun}
    {opening closing : SourceRun}
    (split : runs.flatMap SourceRun.pieces = before ++ opening :: (body ++ closing :: later))
    (begins : opening.command = .beginLoop) (ends : closing.command = .endLoop)
    (nested : Nested (commandsOf body))
    : ∃ start stop : Nat,
        opening.offset = start
        ∧ closing.offset = stop
        ∧ Partners program.commands start stop := by
  have isPiece {passed left : List SourceRun}
      (front : runs.flatMap SourceRun.pieces = passed ++ left)
      : ∀ piece ∈ passed, piece.IsPiece := fun piece member =>
    isPiece_of_mem_flatMap_pieces runs piece (by simp [front, member])
  obtain ⟨start, starts, first, front⟩ := cut.exists_offset split
  obtain ⟨stop, stops, last, inside⟩ := cut.exists_offset (split_at_end split)
  have found : program.commands[start]? = some .beginLoop := begins ▸ commands_getElem? first
  have foundEnd : program.commands[stop]? = some .endLoop := ends ▸ commands_getElem? last
  have upTo := brackets_take (isPiece split) front
  have within := brackets_take (isPiece (split_at_end split)) inside
  rw [commandsOf_append, commandsOf_cons, begins, brackets_at_beginLoop] at within
  have lt : start < stop := by
    apply Nat.lt_of_not_le
    intro le
    have isPart : program.commands.take stop <+: program.commands.take start :=
      List.take_prefix_take_left le
    have shorter := (isPart.filter Command.isBracket).length_le
    rw [← brackets, ← brackets, upTo, within, List.length_append, List.length_cons] at shorter
    omega
  refine ⟨start, stop, starts, stops, partners_iff_closesFrom.mpr ⟨?_, ?_, ?_, ?_⟩⟩
  · exact commands_eq_beginLoop_iff.mp found
  · exact Int.ofNat_lt.mpr lt
  · exact commands_eq_endLoop_iff.mp foundEnd
  · rw [take_eq_append_between found lt, brackets_at_beginLoop, upTo] at within
    have same := List.cons.inj (List.append_cancel_left within)
    exact (balanced_congr same.2).mpr nested.balanced

end Program

-----------------------------------------------------------------------------------------
-- Counted instructions
-----------------------------------------------------------------------------------------

/-- Tiles are the longest runs of equal bytes, by induction on the tiling. -/
theorem Tiles.splitBy_eq {offset : Int} {runs : List SourceRun} (h : Tiles offset runs)
    : (runs.flatMap SourceRun.bytes).splitBy (· == ·) = runs.map SourceRun.bytes := by
  induction h with
  | nil => rfl
  | @cons offset run rest starts positive differs behind ih =>
      have different := (Tiles.cons starts positive differs behind).head?_ne
      have filled : run.count.toNat ≠ 0 := by omega
      have own : run.bytes.splitBy (· == ·) = [run.bytes] := by
        apply List.splitBy_of_isChain
        · simpa [SourceRun.bytes] using filled
        · exact List.isChain_replicate_of_rel _ (beq_self_eq_true run.byte)
      rw [List.flatMap_cons, List.splitBy_append, own, ih]
      · rfl
      · intro last isLast next isNext
        rw [SourceRun.bytes, List.getLast?_replicate, if_neg filled] at isLast
        obtain rfl := Option.some.inj isLast
        rw [beq_eq_false_iff_ne]
        rintro rfl
        exact different isNext

/-- The counted pieces of runs are the counted runs, since these are not taken apart. -/
theorem filter_isCounted_flatMap_pieces (runs : List SourceRun)
    : (runs.flatMap SourceRun.pieces).filter (fun piece => piece.command.isCounted)
      = runs.filter fun run => run.command.isCounted := by
  induction runs with
  | nil => rfl
  | cons run runs ih =>
      rw [List.flatMap_cons, List.filter_append, ih]
      cases counted : run.command.isCounted with
      | true => simp [SourceRun.pieces_of_counted counted, counted]
      | false =>
          have none : run.pieces.filter (fun piece => piece.command.isCounted) = [] := by
            apply List.filter_eq_nil_iff.mpr
            intro piece member
            rw [SourceRun.command, SourceRun.byte_of_mem_pieces member, ← SourceRun.command,
              counted]
            exact Bool.false_ne_true
          simp [none, counted]

/-- Bytes of which a whole run becomes one instruction. -/
def countedRun (bytes : List UInt8) : Bool :=
  bytes.any fun byte => (Command.ofByte byte).isCounted

theorem countedRun_bytes {run : SourceRun} (positive : 0 < run.count)
    : countedRun run.bytes = run.command.isCounted := by
  have filled : run.count.toNat ≠ 0 := by omega
  simp [countedRun, SourceRun.bytes, filled, SourceRun.command]

namespace Program

/-- The counted pieces of a program whose runs are folded are its counted runs. -/
theorem map_bytes_filter_pieces {program : Program} {level : Nat} (folds : 1 ≤ level)
    : ((program.pieces level).filter fun piece => piece.command.isCounted).map SourceRun.bytes
      = (program.toList.splitBy (· == ·)).filter countedRun := by
  obtain ⟨tiles, _⟩ := program.tiles_splitRuns
  rw [← program.flatMap_bytes_splitRuns, tiles.splitBy_eq, pieces, if_neg (Nat.ne_of_gt folds),
    filter_isCounted_flatMap_pieces, List.filter_map]
  congr 1
  apply List.filter_congr
  intro run member
  exact (countedRun_bytes (tiles.positive run member)).symm

-----------------------------------------------------------------------------------------
-- What compiled code says
-----------------------------------------------------------------------------------------

/-- Code that says what its program says. Read back, it is the commands of the program; it
counts single commands at level 0 and the longest runs at all others; and its jumps go where
the searches in the program find the partners of brackets.
-/
structure Faithful (program : Program) (level : Nat) (code : Array Instruction) : Prop where
  source : code.toList.flatMap Instruction.source = commandBytes program.toList
  positive : ∀ instruction ∈ code, instruction.isCounted = true → 1 ≤ instruction.operand
  unfolded
    : level = 0
      → ∀ instruction ∈ code, instruction.isCounted = true → instruction.operand = 1
  folded
    : 1 ≤ level
      → (code.toList.filter Instruction.isCounted).map Instruction.source
        = (program.toList.splitBy (· == ·)).filter countedRun
  front
    : ∀ {offset address : Nat},
        program.EmittedAt level offset address
        → (code.toList.take address).flatMap Instruction.source
          = commandBytes (program.toList.take offset)
  forward
    : ∀ {opening : Nat},
        program[opening]? = some openBracket
        → ∃ closing address target,
            program.closingOf opening = .ok closing
            ∧ program.EmittedAt level opening address
            ∧ program.EmittedAt level closing target
            ∧ code[address]? = some (.jumpIfZero target)
  backward
    : ∀ {closing : Nat},
        program[closing]? = some closeBracket
        → ∃ opening address target,
            program.openingOf closing = .ok opening
            ∧ program.EmittedAt level closing address
            ∧ program.EmittedAt level opening target
            ∧ code[address]? = some (.jumpIfNonzero target)

variable {program : Program} {level : Nat}

theorem pieces_eq (program : Program) (level : Nat)
    : program.pieces level
      = (if level = 0 then program.singleUnits else program.splitRuns).flatMap
          SourceRun.pieces :=
  rfl

/-- Every bracket of a program is a piece, at every level. -/
theorem exists_piece_of_bracket {offset : Nat} {command : Command}
    (found : program.commands[offset]? = some command) (bracket : command.isBracket = true)
    (level : Nat)
    : ∃ passed piece left,
        program.pieces level = passed ++ piece :: left
        ∧ piece.offset = (offset : Int)
        ∧ piece.command = command := by
  rw [← program.commandsOf_singleUnits, commandsOf, List.getElem?_map] at found
  obtain ⟨single, stands, rfl⟩ := Option.map_eq_some_iff.mp found
  obtain ⟨front, behind, split, rfl⟩ := exists_split_of_getElem? stands
  have among : single ∈ program.singleUnits.filter SourceRun.isBracket :=
    List.mem_filter.mpr ⟨List.mem_of_getElem? stands, bracket⟩
  rw [← program.filter_pieces level] at among
  obtain ⟨passed, left, pieces⟩ := List.append_of_mem (List.mem_filter.mp among).1
  exact ⟨passed, single, left, pieces, offset_at split, rfl⟩

/-- A loop among the pieces of a program whose brackets match: both searches find the partner,
and both brackets have their addresses.
-/
theorem loop_at (matched : program.Matched) {before body later : List SourceRun}
    {opening closing : SourceRun}
    (split : program.pieces level = before ++ opening :: (body ++ closing :: later))
    (begins : opening.command = .beginLoop) (ends : closing.command = .endLoop)
    (nested : Nested (commandsOf body))
    : ∃ start stop : Nat,
        opening.offset = start
        ∧ closing.offset = stop
        ∧ program.closingOf start = .ok stop
        ∧ program.openingOf stop = .ok start
        ∧ program.EmittedAt level start before.length
        ∧ program.EmittedAt level stop (before.length + 1 + body.length) := by
  obtain ⟨start, stop, starts, stops, partners⟩ :=
    (program.cut_at_level level).exists_partners split begins ends nested
  obtain ⟨found, foundBack⟩ := searches_of_partners partners
  refine ⟨start, stop, starts, stops, found, foundBack, ?_, ?_⟩
  · exact (emittedAt_iff matched split).mpr starts
  · rw [← length_at_end before body opening]
    exact (emittedAt_iff matched (split_at_end split)).mpr stops

section Jumps

variable {code : Array Instruction}

/-- A `[` is compiled to a jump to where its partner is emitted. -/
theorem exists_jump_forward (matched : program.Matched)
    (laidOut : LaidOut 0 (program.pieces level) code.toList) {start : Nat}
    (begins : program[start]? = some openBracket)
    : ∃ stop address target,
        program.closingOf start = .ok stop
        ∧ program.EmittedAt level start address
        ∧ program.EmittedAt level stop target
        ∧ code[address]? = some (.jumpIfZero target) := by
  have nested := balanced_iff_nested.mp ((program.balanced_pieces level).mpr matched)
  obtain ⟨before, opening, behind, split, starts, opens⟩ :=
    exists_piece_of_bracket (commands_eq_beginLoop_iff.mpr begins) rfl level
  rw [split] at nested
  obtain ⟨body, closing, later, rfl, ends, inside⟩ := exists_closing nested opens
  obtain ⟨place, stop, same, _, found, _, emitted, emittedEnd⟩ :=
    loop_at matched split opens ends inside
  obtain rfl := Int.ofNat_inj.mp (starts.symm.trans same)
  refine ⟨stop, before.length, _, found, emitted, emittedEnd, ?_⟩
  have jump := laidOut.jumpIfZero_found split opens ends inside
  rwa [Array.getElem?_toList, Nat.zero_add] at jump

/-- A `]` is compiled to a jump to where its partner is emitted. -/
theorem exists_jump_backward (matched : program.Matched)
    (laidOut : LaidOut 0 (program.pieces level) code.toList) {stop : Nat}
    (closes : program[stop]? = some closeBracket)
    : ∃ start address target,
        program.openingOf stop = .ok start
        ∧ program.EmittedAt level stop address
        ∧ program.EmittedAt level start target
        ∧ code[address]? = some (.jumpIfNonzero target) := by
  have nested := balanced_iff_nested.mp ((program.balanced_pieces level).mpr matched)
  obtain ⟨front, closing, later, split, stops, ends⟩ :=
    exists_piece_of_bracket (commands_eq_endLoop_iff.mpr closes) rfl level
  rw [split] at nested
  obtain ⟨before, opening, body, rfl, opens, inside⟩ := exists_opening nested ends
  rw [List.append_assoc, List.cons_append] at split
  obtain ⟨start, place, _, same, _, found, emitted, emittedEnd⟩ :=
    loop_at matched split opens ends inside
  obtain rfl := Int.ofNat_inj.mp (stops.symm.trans same)
  refine ⟨start, _, before.length, found, emittedEnd, emitted, ?_⟩
  have jump := laidOut.jumpIfNonzero_found split opens ends inside
  rwa [Array.getElem?_toList, Nat.zero_add] at jump

end Jumps

/-- Compiled code says what its program says. -/
theorem faithful_of_laidOut (matched : program.Matched) {code : Array Instruction}
    (laidOut : LaidOut 0 (program.pieces level) code.toList)
    : program.Faithful level code := by
  have cut := program.cut_at_level level
  have spells := laidOut.spelledBy (program.isPiece_of_mem_pieces level)
  constructor
  case source =>
    rw [flatMap_source_eq spells, pieces_eq, flatMap_bytes_flatMap_pieces, cut.bytes]
  case positive =>
    intro instruction member
    refine forall_operand (1 ≤ ·) spells ?_ instruction (Array.mem_toList_iff.mpr member)
    intro piece inside
    rw [pieces_eq] at inside
    obtain ⟨run, among, own⟩ := List.mem_flatMap.mp inside
    exact SourceRun.positive_of_mem_pieces (cut.positive run among) own
  case unfolded =>
    rintro rfl instruction member
    have once : ∀ piece ∈ program.pieces 0, piece.count = 1 := by
      intro piece inside
      obtain ⟨single, among, own⟩ := List.mem_flatMap.mp inside
      exact SourceRun.count_of_mem_pieces (program.count_of_mem_singleUnits among) own
    exact forall_operand (· = 1) spells once instruction (Array.mem_toList_iff.mpr member)
  case folded =>
    intro folds
    rw [map_source_filter_eq spells, map_bytes_filter_pieces folds]
  case front =>
    intro offset address emitted
    obtain ⟨passed, piece, left, split, same, rfl⟩ := emitted.exists_split
    obtain ⟨place, offset_eq, _, front⟩ := cut.exists_offset split
    obtain rfl := Int.ofNat_inj.mp (same.symm.trans offset_eq)
    rw [← front, flatMap_source_eq (List.forall₂_take passed.length spells), split,
      List.take_left]
  case forward =>
    exact exists_jump_forward matched laidOut
  case backward =>
    exact exists_jump_backward matched laidOut

/-- Compilation loses nothing but comments and folds as far as it may. Read back, the code of a
program is its commands, counted by single commands at level 0 and by the longest runs at all
other levels, and its jumps go to the partners that the searches in the program find. So the
same code comes from the same commands only.
-/
theorem compilation_loses_nothing (matched : program.Matched) (level : Nat)
    : (∃ code, program.compile level = .ok code ∧ program.Faithful level code)
      ∧ ∀ (other : Program) (otherLevel : Nat),
          program.compile level = other.compile otherLevel
          → commandBytes program.toList = commandBytes other.toList := by
  obtain ⟨code, compiled, laidOut⟩ := exists_laidOut matched level
  have faithful := faithful_of_laidOut matched laidOut
  refine ⟨⟨code, compiled, faithful⟩, ?_⟩
  intro other otherLevel same
  rw [compiled] at same
  have otherMatched := matched_of_compile same.symm
  obtain ⟨again, otherCompiled, otherLaidOut⟩ := exists_laidOut otherMatched otherLevel
  obtain rfl := Except.ok.inj (same.trans otherCompiled)
  rw [← faithful.source, (faithful_of_laidOut otherMatched otherLaidOut).source]

/-- A comment between two additions has the effect of level 0 on two adjacent ones. -/
theorem compilation_loses_nothing_with_a_comment
    : Program.Matched #[0x2b, 0x2b]
      ∧ Program.compile #[0x2b, 0x2b] 0 = Program.compile #[0x2b, 0x20, 0x2b] 1
      ∧ commandBytes [0x2b, 0x2b] = commandBytes [0x2b, 0x20, 0x2b] := by
  have matched : Program.Matched #[0x2b, 0x2b] := by decide
  have same : Program.compile #[0x2b, 0x2b] 0 = Program.compile #[0x2b, 0x20, 0x2b] 1 := rfl
  exact ⟨matched, same, (compilation_loses_nothing matched 0).2 _ _ same⟩

end Program

end Brainfuck
