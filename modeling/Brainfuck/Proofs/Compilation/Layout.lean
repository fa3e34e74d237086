import Brainfuck.Proofs.Compilation.Pieces

/-! Layout of assembled code.
Nested pieces are laid out one instruction each, with both jumps of a loop pointing at each
other. The layout follows the grammar of nested commands, so that assembly, whose jumps get
their targets late, is shown to produce it without a look at unfinished code.
-/

namespace Brainfuck

/-- A jump to an address, taken when the current cell is zero. -/
abbrev Instruction.jumpIfZero (target : Nat) : Instruction :=
  { opcode := .jumpIfZero, operand := target }

/-- A jump to an address, taken when the current cell is not zero. -/
abbrev Instruction.jumpIfNonzero (target : Nat) : Instruction :=
  { opcode := .jumpIfNonzero, operand := target }

/-- The instructions of pieces whose first one has the given address. -/
inductive LaidOut : Nat → List SourceRun → List Instruction → Prop
  | nil {address : Nat} : LaidOut address [] []
  | plain {address : Nat} {piece : SourceRun} {instruction : Instruction}
    {rest : List SourceRun} {code : List Instruction}
    (is : piece.instruction? = some instruction) (behind : LaidOut (address + 1) rest code)
    : LaidOut address (piece :: rest) (instruction :: code)
  | loop {address : Nat} {opening closing : SourceRun} {body rest : List SourceRun}
    {inner outer : List Instruction} (begins : opening.command = .beginLoop)
    (ends : closing.command = .endLoop) (inside : LaidOut (address + 1) body inner)
    (behind : LaidOut (address + inner.length + 2) rest outer)
    : LaidOut address (opening :: (body ++ closing :: rest))
        (.jumpIfZero (address + 1 + inner.length) :: (inner ++ .jumpIfNonzero address :: outer))

namespace LaidOut

variable {address : Nat} {pieces : List SourceRun} {code : List Instruction}

/-- Every piece is one instruction, by induction on the layout. -/
theorem length_eq (h : LaidOut address pieces code) : code.length = pieces.length := by
  induction h with
  | nil => rfl
  | plain is behind ih => simp only [List.length_cons, ih]
  | loop begins ends inside behind ihBody ihRest =>
      simp only [List.length_cons, List.length_append, ihBody, ihRest]

/-- The instruction of a piece tells that it is no bracket. -/
theorem plain_of_instruction? {piece : SourceRun} {instruction : Instruction}
    (is : piece.instruction? = some instruction)
    : piece.command ≠ .beginLoop ∧ piece.command ≠ .endLoop := by
  unfold SourceRun.instruction? at is
  constructor <;> intro bracket <;> rw [bracket] at is <;> contradiction

/-- Only nested pieces are laid out, by induction on the layout. -/
theorem nested (h : LaidOut address pieces code) : Nested (commandsOf pieces) := by
  induction h with
  | nil => exact .nil
  | plain is behind ih =>
      obtain ⟨notBegin, notEnd⟩ := plain_of_instruction? is
      exact .plain notBegin notEnd ih
  | loop begins ends inside behind ihBody ihRest =>
      simp only [commandsOf_cons, commandsOf_append, begins, ends]
      exact .loop ihBody ihRest

/-- All nested pieces are laid out, by induction on the grammar. -/
theorem of_nested (nested : Nested (commandsOf pieces))
    (visible : ∀ piece ∈ pieces, piece.IsPiece) (address : Nat)
    : ∃ code, LaidOut address pieces code := by
  generalize whole : commandsOf pieces = commands at nested
  induction nested generalizing pieces address with
  | nil =>
      obtain rfl := List.map_eq_nil_iff.mp whole
      exact ⟨[], .nil⟩
  | plain notBegin notEnd _ ih =>
      obtain ⟨piece, rest, rfl, rfl, behind⟩ := List.map_eq_cons_iff.mp whole
      obtain ⟨code, laidOut⟩ :=
        ih (fun piece member => visible piece (by simp [member])) (address + 1) behind
      obtain ⟨instruction, is⟩ :=
        (visible piece (by simp)).exists_instruction notBegin notEnd
      exact ⟨instruction :: code, .plain is laidOut⟩
  | loop _ _ ihBody ihRest =>
      obtain ⟨opening, behind, rfl, begins, split⟩ := List.map_eq_cons_iff.mp whole
      obtain ⟨body, tail, rfl, inside, split⟩ := List.map_eq_append_iff.mp split
      obtain ⟨closing, rest, rfl, ends, later⟩ := List.map_eq_cons_iff.mp split
      obtain ⟨inner, laidBody⟩ :=
        ihBody (fun piece member => visible piece (by simp [member])) (address + 1) inside
      obtain ⟨outer, laidRest⟩ :=
        ihRest (fun piece member => visible piece (by simp [member]))
          (address + inner.length + 2) later
      exact ⟨_, .loop begins ends laidBody laidRest⟩

/-- The end of a loop completes the code of the loop: the unfinished jump that waits in front
of the body gets its target.
-/
theorem endLoop_behind (assembly : Assembly) (offset closing : Int)
    (inner : List Instruction)
    : Assembly.endLoop
          {
            assembly.beginLoop offset with
              instructions := (assembly.beginLoop offset).instructions ++ inner.toArray
          }
          closing
      = .ok
          {
            assembly with
              instructions :=
                assembly.instructions
                ++ (.jumpIfZero (assembly.instructions.size + 1 + inner.length)
                    :: (inner ++ [.jumpIfNonzero assembly.instructions.size])).toArray
          } := by
  obtain ⟨⟨emitted⟩, pending⟩ := assembly
  simp only [Assembly.beginLoop, Assembly.endLoop, Except.ok.injEq, Assembly.mk.injEq, and_true]
  apply Array.ext'
  simp [Nat.add_assoc]
  omega

/-- Assembly lays nested pieces out behind what it has emitted and leaves the waiting
brackets alone, by induction on the layout.
-/
theorem extendAll_eq (h : LaidOut address pieces code)
    (visible : ∀ piece ∈ pieces, piece.IsPiece) (assembly : Assembly)
    (size : assembly.instructions.size = address)
    : assembly.extendAll pieces
      = .ok { assembly with instructions := assembly.instructions ++ code.toArray } := by
  induction h generalizing assembly with
  | nil => simp [Assembly.extendAll]
  | @plain address piece instruction rest code is behind ih =>
      rw [Assembly.extendAll, assembly.extend_plain (visible piece (by simp)) is]
      have later :=
        ih (fun piece member => visible piece (by simp [member])) (assembly.emit instruction)
          (by simp [Assembly.emit, size])
      simpa [Assembly.emit] using later
  | @loop address opening closing body rest inner outer begins ends inside behind ihBody
      ihRest =>
      rw [Assembly.extendAll, assembly.extend_beginLoop (visible opening (by simp)) begins]
      have within :=
        ihBody (fun piece member => visible piece (by simp [member]))
          (assembly.beginLoop opening.offset) (by simp [Assembly.beginLoop, size])
      simp only [Assembly.extendAll_append, within, Assembly.extendAll]
      rw [Assembly.extend_endLoop _ (visible closing (by simp)) ends]
      rw [endLoop_behind, size]
      have later :=
        ihRest (fun piece member => visible piece (by simp [member]))
          {
            instructions :=
              assembly.instructions
                ++ (.jumpIfZero (address + 1 + inner.length)
                    :: (inner ++ [.jumpIfNonzero address])).toArray
            pending := assembly.pending
          }
          (by simp [size]; omega)
      simpa using later

-----------------------------------------------------------------------------------------
-- What stands at an address
-----------------------------------------------------------------------------------------

/-- How a piece between others is laid out: as its instruction, or as a jump to the partner
of its bracket.
-/
inductive Placement (address : Nat) (code : List Instruction) (before : List SourceRun)
    (piece : SourceRun) (behind : List SourceRun) : Prop
  | plain {instruction : Instruction} (is : piece.instruction? = some instruction)
    (found : code[before.length]? = some instruction)
  | beginLoop {body later : List SourceRun} {closing : SourceRun}
    (begins : piece.command = .beginLoop) (split : behind = body ++ closing :: later)
    (ends : closing.command = .endLoop) (inside : Nested (commandsOf body))
    (found
      : code[before.length]?
        = some (.jumpIfZero (address + before.length + 1 + body.length)))
  | endLoop {earlier body : List SourceRun} {opening : SourceRun}
    (ends : piece.command = .endLoop) (split : before = earlier ++ opening :: body)
    (begins : opening.command = .beginLoop) (inside : Nested (commandsOf body))
    (found : code[before.length]? = some (.jumpIfNonzero (address + earlier.length)))

/-- A placement stays when more is laid out around it. -/
theorem Placement.within {before behind : List SourceRun} {piece : SourceRun}
    (front : List SourceRun) (frontCode : List Instruction)
    (size : frontCode.length = front.length)
    (h : Placement (address + front.length) code before piece behind) (back : List SourceRun)
    (backCode : List Instruction)
    : Placement address (frontCode ++ (code ++ backCode)) (front ++ before) piece
        (behind ++ back) := by
  have found {instruction : Instruction} (inner : code[before.length]? = some instruction)
      : (frontCode ++ (code ++ backCode))[(front ++ before).length]? = some instruction := by
    have lt := (List.getElem?_eq_some_iff.mp inner).1
    rw [List.length_append, List.getElem?_append_right (by omega),
      List.getElem?_append_left (by omega), size, Nat.add_sub_cancel_left, inner]
  cases h with
  | plain is inner => exact .plain is (found inner)
  | beginLoop begins split ends inside inner =>
      subst split
      refine .beginLoop begins (List.append_assoc _ _ _) ends inside ?_
      rw [found inner, List.length_append, Nat.add_assoc address]
  | endLoop ends split begins inside inner =>
      subst split
      refine .endLoop ends (List.append_assoc _ _ _).symm begins inside ?_
      rw [found inner, List.length_append, Nat.add_assoc address]

/-- Every piece has its placement, by induction on the layout: a piece is the first one, in
the body of the loop that comes first, the end of that body, or behind.
-/
theorem placement (h : LaidOut address pieces code) {before behind : List SourceRun}
    {piece : SourceRun} (split : pieces = before ++ piece :: behind)
    : Placement address code before piece behind := by
  induction h generalizing before behind with
  | nil => simp at split
  | @plain address first instruction rest code is _ ih =>
      cases before with
      | nil =>
          obtain ⟨rfl, rfl⟩ := List.cons.inj split
          exact .plain is rfl
      | cons _ before =>
          obtain ⟨rfl, remains⟩ := List.cons.inj split
          simpa using (ih remains).within [first] [instruction] rfl [] []
  | @loop address opening closing body rest inner outer begins ends inside outside ihBody
      ihRest =>
      have size := inside.length_eq
      cases before with
      | nil =>
          obtain ⟨rfl, rfl⟩ := List.cons.inj split
          exact .beginLoop begins rfl ends inside.nested (by simp [size])
      | cons _ before =>
          obtain ⟨rfl, remains⟩ := List.cons.inj split
          have atEnd
              : Placement address
                  (.jumpIfZero (address + 1 + inner.length)
                    :: (inner ++ .jumpIfNonzero address :: outer))
                  (opening :: body) closing rest :=
            .endLoop ends (List.nil_append (opening :: body)).symm begins inside.nested
              (by simp [← size])
          rcases List.append_eq_append_iff.mp remains with
            ⟨middle, rfl, tail⟩ | ⟨middle, rfl, tail⟩
          · cases middle with
            | nil =>
                obtain ⟨rfl, rfl⟩ := List.cons.inj tail
                simpa using atEnd
            | cons _ middle =>
                obtain ⟨rfl, later⟩ := List.cons.inj tail
                have front : address + inner.length + 2 = address + (body.length + 2) := by omega
                rw [front] at ihRest
                have placed :=
                  Placement.within (opening :: (body ++ [closing]))
                    (.jumpIfZero (address + 1 + inner.length)
                      :: (inner ++ [.jumpIfNonzero address]))
                    (by simp [size]) (by simpa using ihRest later) [] []
                simpa using placed
          · cases middle with
            | nil =>
                obtain ⟨rfl, rfl⟩ := List.cons.inj tail
                simpa using atEnd
            | cons _ middle =>
                obtain ⟨rfl, rfl⟩ := List.cons.inj tail
                exact
                  (ihBody rfl).within [opening] [.jumpIfZero (address + 1 + inner.length)] rfl
                    (closing :: rest) (.jumpIfNonzero address :: outer)

/-- The instruction of a piece that is no bracket. -/
theorem plain_found (h : LaidOut address pieces code) {before behind : List SourceRun}
    {piece : SourceRun} {instruction : Instruction}
    (split : pieces = before ++ piece :: behind) (is : piece.instruction? = some instruction)
    : code[before.length]? = some instruction := by
  obtain ⟨notBegin, notEnd⟩ := plain_of_instruction? is
  cases h.placement split with
  | plain other found => exact found.trans (other.symm.trans is)
  | beginLoop begins => exact absurd begins notBegin
  | endLoop ends => exact absurd ends notEnd

/-- The jump of a `[` goes to its partner, whose address is found by counting the body. -/
theorem jumpIfZero_found (h : LaidOut address pieces code) {before body behind : List SourceRun}
    {opening closing : SourceRun}
    (split : pieces = before ++ opening :: (body ++ closing :: behind))
    (begins : opening.command = .beginLoop) (ends : closing.command = .endLoop)
    (inside : Nested (commandsOf body))
    : code[before.length]?
      = some (.jumpIfZero (address + before.length + 1 + body.length)) := by
  cases h.placement split with
  | plain is => exact absurd begins (plain_of_instruction? is).1
  | endLoop ends => exact absurd (begins.symm.trans ends) (by decide)
  | @beginLoop other later partner _ same endsOther insideOther found =>
      have commands := congrArg commandsOf same
      simp only [commandsOf_append, commandsOf_cons, ends, endsOther] at commands
      have bodies := congrArg List.length (inside.end_unique insideOther commands)
      rw [length_commandsOf, length_commandsOf] at bodies
      rw [found, bodies]

/-- The jump of a `]` goes to its partner, in front of the body. -/
theorem jumpIfNonzero_found (h : LaidOut address pieces code)
    {before body behind : List SourceRun} {opening closing : SourceRun}
    (split : pieces = before ++ opening :: (body ++ closing :: behind))
    (begins : opening.command = .beginLoop) (ends : closing.command = .endLoop)
    (inside : Nested (commandsOf body))
    : code[before.length + 1 + body.length]?
      = some (.jumpIfNonzero (address + before.length)) := by
  cases h.placement (split_at_end split) with
  | plain is => exact absurd ends (plain_of_instruction? is).2
  | beginLoop begins => exact absurd (ends.symm.trans begins) (by decide)
  | @endLoop earlier other partner _ same beginsOther insideOther found =>
      have commands := congrArg commandsOf same
      simp only [commandsOf_append, commandsOf_cons, begins, beginsOther] at commands
      have bodies := congrArg List.length (inside.begin_unique insideOther commands)
      have whole := congrArg List.length same
      simp only [length_commandsOf, List.length_append, List.length_cons] at bodies whole
      have fronts : earlier.length = before.length := by omega
      rw [← length_at_end before body opening, found, fronts]

end LaidOut

-----------------------------------------------------------------------------------------
-- Compilation
-----------------------------------------------------------------------------------------

/-- Assembly counts the brackets: those that wait are those that were begun and not ended. -/
theorem Assembly.length_pending {assembly extended : Assembly} {pieces : List SourceRun}
    (visible : ∀ piece ∈ pieces, piece.IsPiece)
    (h : assembly.extendAll pieces = .ok extended)
    : extended.pending.length + (commandsOf pieces).count .endLoop
      = assembly.pending.length + (commandsOf pieces).count .beginLoop := by
  induction pieces generalizing assembly with
  | nil =>
      cases h
      rfl
  | cons piece rest ih =>
      obtain ⟨shown, others⟩ := List.forall_mem_cons.mp visible
      have extension := assembly.extension shown
      rw [extendAll] at h
      generalize assembly.extend piece = result at h extension
      rw [commandsOf_cons, List.count_cons, List.count_cons]
      cases extension with
      | plain _ notBegin notEnd => simpa [emit, notBegin, notEnd] using ih others h
      | beginLoop begins =>
          have later := ih others h
          simp only [beginLoop, List.length_cons] at later
          simp only [begins, beq_iff_eq, reduceCtorEq, if_true, if_false]
          omega
      | endLoop ends closes =>
          have later := ih others h
          obtain ⟨_, opening, waits⟩ := of_endLoop closes
          simp only [ends, waits, List.length_cons, beq_iff_eq, reduceCtorEq, if_true, if_false]
          omega
      | surplus => contradiction

/-- Assembling runs is assembling their pieces and finishing. -/
theorem assemble_eq (runs : List SourceRun)
    : assemble runs
      = match ({} : Assembly).extendAll (runs.flatMap SourceRun.pieces) with
        | .error fault => .error fault
        | .ok assembly => assembly.finish := by
  rw [Assembly.extendAll_flatMap_pieces]
  rfl

theorem isPiece_of_mem_flatMap_pieces (runs : List SourceRun)
    : ∀ piece ∈ runs.flatMap SourceRun.pieces, piece.IsPiece := by
  intro piece member
  obtain ⟨run, _, member⟩ := List.mem_flatMap.mp member
  exact SourceRun.isPiece_of_mem_pieces member

/-- Assembly of pieces fails for a bracket only, by induction on the pieces. -/
theorem Assembly.kind_of_extendAll {pieces : List SourceRun}
    (visible : ∀ piece ∈ pieces, piece.IsPiece) {assembly : Assembly} {fault : Fault}
    (h : assembly.extendAll pieces = .error fault)
    : fault.kind = .unmatchedBracket := by
  induction pieces generalizing assembly with
  | nil => contradiction
  | cons piece rest ih =>
      obtain ⟨shown, others⟩ := List.forall_mem_cons.mp visible
      have extension := assembly.extension shown
      rw [extendAll] at h
      generalize assembly.extend piece = result at h extension
      cases extension with
      | plain => exact ih others h
      | beginLoop => exact ih others h
      | endLoop => exact ih others h
      | surplus =>
          cases h
          rfl

/-- Runs whose pieces are balanced are assembled, and laid out in order. -/
theorem exists_laidOut_of_balanced {runs : List SourceRun}
    (balanced : Balanced (commandsOf (runs.flatMap SourceRun.pieces)))
    : ∃ code,
        assemble runs = .ok code
        ∧ LaidOut 0 (runs.flatMap SourceRun.pieces) code.toList := by
  obtain ⟨code, laidOut⟩ :=
    LaidOut.of_nested (balanced_iff_nested.mp balanced) (isPiece_of_mem_flatMap_pieces runs) 0
  refine ⟨code.toArray, ?_, laidOut⟩
  rw [assemble_eq, laidOut.extendAll_eq (isPiece_of_mem_flatMap_pieces runs) {} rfl]
  simp [Assembly.finish]

/-- Only runs whose pieces are balanced are assembled. -/
theorem balanced_of_assemble {runs : List SourceRun} {code : Array Instruction}
    (h : assemble runs = .ok code)
    : Balanced (commandsOf (runs.flatMap SourceRun.pieces)) := by
  rw [assemble_eq] at h
  split at h
  · contradiction
  · rename_i assembly extended
    constructor
    · rintro initial ⟨more, split⟩
      -- Assembly gets past every part at the start, and what waits there is a number.
      obtain ⟨first, second, whole, rfl, _⟩ := List.map_eq_append_iff.mp split.symm
      rw [whole, Assembly.extendAll_append] at extended
      split at extended
      · contradiction
      · rename_i middle reached
        have visible : ∀ piece ∈ first, piece.IsPiece :=
          fun piece member =>
            isPiece_of_mem_flatMap_pieces runs piece
              (whole ▸ List.mem_append_left second member)
        have counted := Assembly.length_pending visible reached
        simp only [commandsOf, List.length_nil] at counted
        omega
    · have counted := Assembly.length_pending (isPiece_of_mem_flatMap_pieces runs) extended
      have finished : assembly.pending = [] := by
        unfold Assembly.finish at h
        split at h
        · rfl
        · contradiction
      simpa [finished] using counted

/-- Runs are refused for a bracket only. -/
theorem kind_of_assemble {runs : List SourceRun} {fault : Fault}
    (h : assemble runs = .error fault)
    : fault.kind = .unmatchedBracket := by
  rw [assemble_eq] at h
  split at h <;> rename_i extended
  · cases h
    exact Assembly.kind_of_extendAll (isPiece_of_mem_flatMap_pieces runs) extended
  · unfold Assembly.finish at h
    split at h <;> cases h
    rfl

/-- Assembled code is laid out in the order of its pieces. -/
theorem laidOut_of_assemble {runs : List SourceRun} {code : Array Instruction}
    (h : assemble runs = .ok code)
    : LaidOut 0 (runs.flatMap SourceRun.pieces) code.toList := by
  obtain ⟨same, again, laidOut⟩ := exists_laidOut_of_balanced (balanced_of_assemble h)
  rwa [Except.ok.inj (h.symm.trans again)]

namespace Program

/-- The pieces that a program is compiled from. -/
def pieces (program : Program) (level : Nat) : List SourceRun :=
  (if level = 0 then program.singleUnits else program.splitRuns).flatMap SourceRun.pieces

variable {program : Program} {level : Nat}

/-- The runs that a program is compiled from are its single bytes when they are taken apart, at
every level.
-/
theorem singles_at_level (program : Program) (level : Nat)
    : (if level = 0 then program.singleUnits else program.splitRuns).flatMap SourceRun.singles
      = program.singleUnits := by
  split
  · exact flatMap_singles_eq fun _ => program.count_of_mem_singleUnits
  · exact program.tiles_splitRuns.2

theorem isPiece_of_mem_pieces (program : Program) (level : Nat)
    : ∀ piece ∈ program.pieces level, piece.IsPiece :=
  isPiece_of_mem_flatMap_pieces _

theorem compile_eq (program : Program) (level : Nat)
    : program.compile level
      = match ({} : Assembly).extendAll (program.pieces level) with
        | .error fault => .error fault
        | .ok assembly => assembly.finish :=
  assemble_eq _

/-- The brackets among the pieces are those of the program, with their offsets, at every
level.
-/
theorem filter_pieces (program : Program) (level : Nat)
    : (program.pieces level).filter SourceRun.isBracket
      = program.singleUnits.filter SourceRun.isBracket := by
  rw [pieces, filter_flatMap_pieces, singles_at_level]

/-- The pieces of a program have its brackets, at every level. -/
theorem brackets_pieces (program : Program) (level : Nat)
    : brackets (commandsOf (program.pieces level)) = brackets program.commands := by
  rw [pieces, Brainfuck.brackets_pieces, singles_at_level, commandsOf_singleUnits]

/-- The pieces of a program are balanced when its brackets match. -/
theorem balanced_pieces (program : Program) (level : Nat)
    : Balanced (commandsOf (program.pieces level)) ↔ program.Matched :=
  balanced_congr (program.brackets_pieces level)

/-- A program whose brackets match is compiled at every level, and laid out in order. -/
theorem exists_laidOut (matched : program.Matched) (level : Nat)
    : ∃ code,
        program.compile level = .ok code ∧ LaidOut 0 (program.pieces level) code.toList :=
  exists_laidOut_of_balanced ((program.balanced_pieces level).mpr matched)

/-- Only programs whose brackets match are compiled. -/
theorem matched_of_compile {code : Array Instruction}
    (h : program.compile level = .ok code)
    : program.Matched :=
  (program.balanced_pieces level).mp (balanced_of_assemble h)

end Program

end Brainfuck
