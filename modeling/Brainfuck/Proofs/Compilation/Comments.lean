import Brainfuck.Proofs.Compilation.Decoding
import Mathlib.Data.List.Forall2

/-! Comments in compilation.
Programs that say the same with other comments in between have their commands at other offsets, and
offsets matter to faults alone. So they compile to the same code, or are refused for brackets that
are the same command of each.
-/

namespace Brainfuck

namespace Program

/-- The command of a number stands at an offset: so many commands stand in front of it, whatever
comments there are.
-/
structure CommandAt (program : Program) (number offset : Nat) : Prop where
  visible : ∃ byte, program.toList[offset]? = some byte ∧ Command.ofByte byte ≠ .comment
  number_eq : (commandBytes (program.toList.take offset)).length = number

/-- Offsets at which two programs have the command of the same number. -/
inductive Counterparts (program other : Program) : Int → Int → Prop
  | at {number offset otherOffset : Nat} (here : program.CommandAt number offset)
    (there : other.CommandAt number otherOffset)
    : Counterparts program other offset otherOffset

end Program

/-- Faults of two programs that blame the same bracket of each, in the same words. -/
inductive SameBlame (program other : Program) : Fault → Fault → Prop
  | unmatchedOpening {place otherPlace : Int}
    (counterparts : program.Counterparts other place otherPlace)
    : SameBlame program other (.unmatchedOpening place) (.unmatchedOpening otherPlace)
  | unmatchedClosing {place otherPlace : Int}
    (counterparts : program.Counterparts other place otherPlace)
    : SameBlame program other (.unmatchedClosing place) (.unmatchedClosing otherPlace)
  | closingNotFound {place otherPlace : Int}
    (counterparts : program.Counterparts other place otherPlace)
    : SameBlame program other (.closingNotFound place) (.closingNotFound otherPlace)
  | openingNotFound {place otherPlace : Int}
    (counterparts : program.Counterparts other place otherPlace)
    : SameBlame program other (.openingNotFound place) (.openingNotFound otherPlace)

/-- Two programs both have results that are related, or the same bracket of both is to blame. -/
inductive SameVerdict {α : Type} (program other : Program) (related : α → α → Prop)
    : Except Fault α → Except Fault α → Prop
  | ok {result otherResult : α} (same : related result otherResult)
    : SameVerdict program other related (.ok result) (.ok otherResult)
  | error {fault otherFault : Fault} (blame : SameBlame program other fault otherFault)
    : SameVerdict program other related (.error fault) (.error otherFault)

/-- Single commands of two programs that are the same command of each. -/
structure SourceRun.SameCommand (program other : Program) (piece otherPiece : SourceRun)
    : Prop where
  byte : piece.byte = otherPiece.byte
  count : piece.count = otherPiece.count
  isPiece : piece.IsPiece
  counterparts : program.Counterparts other piece.offset otherPiece.offset

/-- Assemblies that nothing tells apart but the offsets of the `[` that wait. -/
structure Assembly.SameCode (program other : Program) (assembly otherAssembly : Assembly)
    : Prop where
  instructions : assembly.instructions = otherAssembly.instructions
  pending
    : List.Forall₂
        (fun waiting otherWaiting =>
          waiting.1 = otherWaiting.1 ∧ program.Counterparts other waiting.2 otherWaiting.2)
        assembly.pending otherAssembly.pending

variable {program other : Program}

namespace SourceRun.SameCommand

variable {piece otherPiece : SourceRun}

theorem command (h : SameCommand program other piece otherPiece)
    : otherPiece.command = piece.command := by
  rw [SourceRun.command, SourceRun.command, h.byte]

theorem isPiece_other (h : SameCommand program other piece otherPiece) : otherPiece.IsPiece := by
  refine ⟨h.command ▸ h.isPiece.visible, ?_⟩
  rw [h.command, ← h.count]
  exact h.isPiece.single

/-- The same command is the same instruction. -/
theorem instruction? (h : SameCommand program other piece otherPiece)
    : otherPiece.instruction? = piece.instruction? := by
  simp only [SourceRun.instruction?, h.command, h.count]

end SourceRun.SameCommand

namespace Assembly

variable {assembly otherAssembly : Assembly} {piece otherPiece : SourceRun}

/-- A `]` takes the same `[` from those that wait, or is one too many in both programs. -/
theorem SameCode.endLoop (h : SameCode program other assembly otherAssembly)
    {place otherPlace : Int} (counterparts : program.Counterparts other place otherPlace)
    : SameVerdict program other (SameCode program other) (assembly.endLoop place)
        (otherAssembly.endLoop otherPlace) := by
  obtain ⟨instructions, pending⟩ := assembly
  obtain ⟨otherInstructions, otherPending⟩ := otherAssembly
  obtain ⟨rfl, waits⟩ := h
  cases waits with
  | nil => exact .error (.unmatchedClosing counterparts)
  | @cons waiting otherWaiting outer otherOuter same rest =>
      obtain ⟨opening, offset⟩ := waiting
      obtain ⟨otherOpening, otherOffset⟩ := otherWaiting
      obtain ⟨rfl, _⟩ := same
      exact .ok ⟨rfl, rest⟩

/-- The same command makes the same of both assemblies, by cases on the command. -/
theorem SameCode.extend (h : SameCode program other assembly otherAssembly)
    (same : SourceRun.SameCommand program other piece otherPiece)
    : SameVerdict program other (SameCode program other) (assembly.extend piece)
        (otherAssembly.extend otherPiece) := by
  by_cases begins : piece.command = .beginLoop
  · rw [assembly.extend_beginLoop same.isPiece begins,
      otherAssembly.extend_beginLoop same.isPiece_other (same.command.trans begins)]
    obtain ⟨instructions, pending⟩ := assembly
    obtain ⟨otherInstructions, otherPending⟩ := otherAssembly
    obtain ⟨rfl, waits⟩ := h
    exact .ok ⟨rfl, .cons ⟨rfl, same.counterparts⟩ waits⟩
  · by_cases ends : piece.command = .endLoop
    · rw [assembly.extend_endLoop same.isPiece ends,
        otherAssembly.extend_endLoop same.isPiece_other (same.command.trans ends)]
      exact h.endLoop same.counterparts
    · obtain ⟨instruction, is⟩ := same.isPiece.exists_instruction begins ends
      rw [assembly.extend_plain same.isPiece is,
        otherAssembly.extend_plain same.isPiece_other (same.instruction?.trans is)]
      exact .ok ⟨congrArg (·.push instruction) h.instructions, h.pending⟩

/-- The same commands make the same of both assemblies, by induction on them. -/
theorem SameCode.extendAll (h : SameCode program other assembly otherAssembly)
    {pieces otherPieces : List SourceRun}
    (same : List.Forall₂ (SourceRun.SameCommand program other) pieces otherPieces)
    : SameVerdict program other (SameCode program other) (assembly.extendAll pieces)
        (otherAssembly.extendAll otherPieces) := by
  induction same generalizing assembly otherAssembly with
  | nil => exact .ok h
  | @cons piece otherPiece rest otherRest first _ ih =>
      have verdict := h.extend first
      rw [Assembly.extendAll, Assembly.extendAll]
      generalize assembly.extend piece = result at verdict
      generalize otherAssembly.extend otherPiece = otherResult at verdict
      cases verdict with
      | ok same => exact ih same
      | error fault => exact .error fault

theorem SameCode.finish (h : SameCode program other assembly otherAssembly)
    : SameVerdict program other Eq assembly.finish otherAssembly.finish := by
  obtain ⟨instructions, pending⟩ := assembly
  obtain ⟨otherInstructions, otherPending⟩ := otherAssembly
  obtain ⟨rfl, waits⟩ := h
  cases waits with
  | nil => exact .ok rfl
  | cons same rest => exact .error (.unmatchedOpening same.2)

end Assembly

namespace Program

/-- The pieces of a program at level 0 are its commands one by one. -/
theorem count_of_mem_pieces {piece : SourceRun} (member : piece ∈ program.pieces 0)
    : piece.count = 1 := by
  obtain ⟨single, among, own⟩ := List.mem_flatMap.mp member
  exact SourceRun.count_of_mem_pieces (program.count_of_mem_singleUnits among) own

theorem map_byte_pieces (program : Program)
    : (program.pieces 0).map SourceRun.byte = commandBytes program.toList := by
  rw [← SourceRun.flatMap_bytes_of_once fun _ => count_of_mem_pieces, pieces_eq,
    flatMap_bytes_flatMap_pieces, (program.cut_at_level 0).bytes]

/-- A piece at level 0 stands where its command stands, by the pieces in front of it. -/
theorem commandAt_of_pieces {number : Nat} {piece : SourceRun}
    (found : (program.pieces 0)[number]? = some piece)
    : ∃ offset : Nat, piece.offset = offset ∧ program.CommandAt number offset := by
  obtain ⟨passed, left, split, rfl⟩ := exists_split_of_getElem? found
  obtain ⟨offset, place, byte, front⟩ := (program.cut_at_level 0).exists_offset split
  have isPiece := program.isPiece_of_mem_pieces 0 piece (List.mem_of_getElem? found)
  refine ⟨offset, place, ⟨piece.byte, byte, isPiece.visible⟩, ?_⟩
  rw [← front, SourceRun.flatMap_bytes_of_once, List.length_map]
  intro single member
  exact count_of_mem_pieces (by rw [split]; exact List.mem_append_left _ member)

/-- Programs that say the same have the same commands as pieces. -/
theorem sameCommand_pieces
    (same : commandBytes program.toList = commandBytes other.toList)
    : List.Forall₂ (SourceRun.SameCommand program other) (program.pieces 0) (other.pieces 0) := by
  have bytes : (program.pieces 0).map SourceRun.byte = (other.pieces 0).map SourceRun.byte := by
    rw [map_byte_pieces, same, map_byte_pieces]
  have length : (program.pieces 0).length = (other.pieces 0).length := by
    simpa using congrArg List.length bytes
  refine List.forall₂_iff_get.mpr ⟨length, ?_⟩
  intro number inside insideOther
  have found := List.getElem?_eq_getElem inside
  have foundOther := List.getElem?_eq_getElem insideOther
  obtain ⟨offset, place, here⟩ := commandAt_of_pieces found
  obtain ⟨otherOffset, otherPlace, there⟩ := commandAt_of_pieces foundOther
  have member := List.getElem_mem inside
  constructor
  · have sameByte := congrArg (·[number]?) bytes
    simpa [found, foundOther] using sameByte
  · exact (count_of_mem_pieces member).trans
      (count_of_mem_pieces (List.getElem_mem insideOther)).symm
  · exact program.isPiece_of_mem_pieces 0 _ member
  · rw [List.get_eq_getElem, List.get_eq_getElem, place, otherPlace]
    exact .at here there

/-- Comments do not matter to compilation without folding. -/
theorem compile_of_sameCommands
    (same : commandBytes program.toList = commandBytes other.toList)
    : SameVerdict program other Eq (program.compile 0) (other.compile 0) := by
  have start : Assembly.SameCode program other {} {} := ⟨rfl, .nil⟩
  have verdict := start.extendAll (sameCommand_pieces same)
  rw [compile_eq, compile_eq]
  generalize ({} : Assembly).extendAll (program.pieces 0) = result at verdict
  generalize ({} : Assembly).extendAll (other.pieces 0) = otherResult at verdict
  cases verdict with
  | ok same => exact same.finish
  | error fault => exact .error fault

end Program

end Brainfuck
