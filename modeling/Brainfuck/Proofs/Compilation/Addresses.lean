import Brainfuck.Proofs.Compilation.Layout
import Mathlib.Data.List.Flatten
import Mathlib.Data.List.Nodup

/-! Addresses of the instructions that are emitted for offsets.
Reads, writes and the starts of counted runs are offsets at which both engines can be stopped:
for each of them one instruction is emitted at every level. Offsets within a counted run are
none of them, since nothing is emitted for them when the run is folded.
-/

namespace Brainfuck

/-- Every piece emits one instruction, by induction on the pieces. -/
theorem Assembly.size_extendAll {pieces : List SourceRun}
    (visible : ∀ piece ∈ pieces, piece.IsPiece) {assembly extended : Assembly}
    (h : assembly.extendAll pieces = .ok extended)
    : extended.instructions.size = assembly.instructions.size + pieces.length := by
  induction pieces generalizing assembly with
  | nil =>
      cases h
      rfl
  | cons piece rest ih =>
      obtain ⟨shown, others⟩ := List.forall_mem_cons.mp visible
      have extension := assembly.extension shown
      rw [extendAll] at h
      generalize assembly.extend piece = result at h extension
      cases extension with
      | plain =>
          have later := ih others h
          simp only [emit, Array.size_push, List.length_cons] at later ⊢
          omega
      | beginLoop =>
          have later := ih others h
          simp only [beginLoop, Array.size_push, List.length_cons] at later ⊢
          omega
      | endLoop _ closes =>
          have later := ih others h
          obtain ⟨size, _⟩ := of_endLoop closes
          rw [List.length_cons]
          omega
      | surplus => contradiction

namespace Program

variable {program : Program} {level : Nat}

-----------------------------------------------------------------------------------------
-- Offsets to stop at
-----------------------------------------------------------------------------------------

/-- An offset of a read or a write, or the start of a maximal run of moves or additions. -/
inductive StopOffset (program : Program) : Nat → Prop
  | channel {offset : Nat} {command : Command}
    (found : program.commands[offset]? = some command)
    (channel : command = .output ∨ command = .input)
    : StopOffset program offset
  | run {before behind : List UInt8} {byte : UInt8} {count : Nat}
    (run : program.MaximalRun before byte count behind)
    (counted : (Command.ofByte byte).isCounted = true)
    : StopOffset program before.length

/-- The bytes of a maximal run. -/
theorem MaximalRun.getElem? {before behind : List UInt8} {byte : UInt8} {count turn : Nat}
    (h : program.MaximalRun before byte count behind) (lt : turn < count)
    : program.toList[before.length + turn]? = some byte := by
  rw [h.split, List.append_assoc, List.getElem?_append_right (Nat.le_add_right _ _),
    Nat.add_sub_cancel_left, List.getElem?_append_left (by simpa using lt),
    List.getElem?_replicate_of_lt lt]

theorem commands_getElem? {offset : Nat} {byte : UInt8}
    (found : program.toList[offset]? = some byte)
    : program.commands[offset]? = some (Command.ofByte byte) := by
  rw [commands, List.getElem?_map, found]
  rfl

/-- What stands at an offset to stop at is neither a comment nor a bracket. -/
theorem StopOffset.exists_command {offset : Nat} (h : program.StopOffset offset)
    : ∃ command,
        program.commands[offset]? = some command
        ∧ (command = .output ∨ command = .input ∨ command.isCounted = true) := by
  cases h with
  | channel found channel => exact ⟨_, found, channel.imp_right Or.inl⟩
  | run run counted =>
      have found := run.getElem? run.positive
      exact ⟨_, commands_getElem? found, Or.inr (Or.inr counted)⟩

theorem not_stopOffset {offset : Nat} {command : Command}
    (found : program.commands[offset]? = some command)
    (hidden : command = .comment ∨ command = .beginLoop ∨ command = .endLoop)
    : ¬ program.StopOffset offset := by
  intro stop
  obtain ⟨other, foundOther, acts⟩ := stop.exists_command
  obtain rfl := Option.some.inj (found.symm.trans foundOther)
  rcases hidden with rfl | rfl | rfl <;> simp [Command.isCounted] at acts

/-- Behind its first byte a maximal run has no offset to stop at: the byte in front of another
run would not differ from it.
-/
theorem not_stopOffset_inside {before behind : List UInt8} {byte : UInt8} {count turn : Nat}
    (h : program.MaximalRun before byte count behind)
    (counted : (Command.ofByte byte).isCounted = true) (positive : 0 < turn) (lt : turn < count)
    : ¬ program.StopOffset (before.length + turn) := by
  generalize place : before.length + turn = offset
  have here := h.getElem? lt
  rw [place] at here
  intro stop
  cases stop with
  | channel found channel =>
      obtain rfl := Option.some.inj ((commands_getElem? here).symm.trans found)
      rcases channel with same | same <;> simp [same, Command.isCounted] at counted
  | @run front later other number run =>
      have there := run.getElem? run.positive
      rw [Nat.add_zero, here] at there
      cases there
      have last : front.getLast? = some byte := by
        have earlier := h.getElem? (Nat.lt_of_le_of_lt (Nat.sub_le turn 1) lt)
        have index : before.length + (turn - 1) = front.length - 1 := by omega
        rw [index, run.split, List.append_assoc, List.getElem?_append_left (by omega)] at earlier
        rw [List.getLast?_eq_getElem?]
        exact earlier
      exact run.starts last

-----------------------------------------------------------------------------------------
-- Addresses
-----------------------------------------------------------------------------------------

/-- The address of the instruction that is emitted for an offset: as many instructions have
been emitted for the pieces in front of it.
-/
def EmittedAt (program : Program) (level offset address : Nat) : Prop :=
  ∃ passed piece left assembly,
    program.pieces level = passed ++ piece :: left
    ∧ piece.offset = (offset : Int)
    ∧ ({} : Assembly).extendAll passed = .ok assembly
    ∧ assembly.instructions.size = address

/-- The address of a piece is the number of pieces in front of it. -/
theorem EmittedAt.exists_split {offset address : Nat}
    (h : program.EmittedAt level offset address)
    : ∃ passed piece left,
        program.pieces level = passed ++ piece :: left
        ∧ piece.offset = (offset : Int)
        ∧ passed.length = address := by
  obtain ⟨passed, piece, left, assembly, split, same, extended, rfl⟩ := h
  have visible : ∀ piece ∈ passed, piece.IsPiece := fun piece member =>
    program.isPiece_of_mem_pieces level piece (by simp [split, member])
  have size := Assembly.size_extendAll visible extended
  exact ⟨passed, piece, left, split, same, by simpa using size.symm⟩

/-- A piece of a program that is compiled is emitted at its own address and for its own offset
only.
-/
theorem emittedAt_iff (matched : program.Matched) {passed left : List SourceRun}
    {piece : SourceRun} (split : program.pieces level = passed ++ piece :: left) {offset : Nat}
    : program.EmittedAt level offset passed.length ↔ piece.offset = offset := by
  constructor
  · intro h
    obtain ⟨others, other, behind, splitOther, same, length⟩ := h.exists_split
    have here : (program.pieces level)[passed.length]? = some piece := by simp [split]
    have there : (program.pieces level)[passed.length]? = some other := by
      simp [splitOther, ← length]
    rw [Option.some.inj (here.symm.trans there)]
    exact same
  · intro same
    obtain ⟨code, compiled, _⟩ := exists_laidOut matched level
    rw [compile_eq, split, Assembly.extendAll_append] at compiled
    cases extended : ({} : Assembly).extendAll passed with
    | error fault => simp [extended] at compiled
    | ok assembly =>
        have visible : ∀ piece ∈ passed, piece.IsPiece := fun piece member =>
          program.isPiece_of_mem_pieces level piece (by simp [split, member])
        have size := Assembly.size_extendAll visible extended
        exact ⟨passed, piece, left, assembly, split, same, extended, by simpa using size⟩

/-- An instruction is emitted for the offset of every piece. -/
theorem exists_emittedAt_of_mem (matched : program.Matched) {piece : SourceRun}
    (member : piece ∈ program.pieces level) {offset : Nat} (same : piece.offset = offset)
    : ∃ address, program.EmittedAt level offset address := by
  obtain ⟨passed, left, split⟩ := List.append_of_mem member
  exact ⟨passed.length, (emittedAt_iff matched split).mpr same⟩

/-- Every byte stands in one of the maximal runs, some bytes behind the start of it. -/
theorem exists_run_of_single {single : SourceRun} (member : single ∈ program.singleUnits)
    : ∃ earlier run later turn,
        program.splitRuns = earlier ++ run :: later
        ∧ turn < run.count.toNat
        ∧ single ∈ run.singles
        ∧ single.offset = ((earlier.flatMap SourceRun.bytes).length + turn : Nat) := by
  obtain ⟨tiles, apart⟩ := program.tiles_splitRuns
  rw [← apart] at member
  obtain ⟨run, inside, member⟩ := List.mem_flatMap.mp member
  obtain ⟨earlier, later, split⟩ := List.append_of_mem inside
  obtain ⟨turn, found⟩ := List.getElem?_of_mem member
  have lt : turn < run.count.toNat := by
    rw [← run.length_singles]
    exact (List.getElem?_eq_some_iff.mp found).1
  rw [split] at tiles
  have starts := tiles.offset_eq
  rw [SourceRun.singles, SourceRun.getElem?_singlesFrom _ _ lt] at found
  refine ⟨earlier, run, later, turn, split, lt, member, ?_⟩
  rw [← Option.some.inj found, starts]
  simp

/-- The single byte at an offset to stop at is no comment. -/
theorem StopOffset.exists_single {offset : Nat} (h : program.StopOffset offset)
    : ∃ single ∈ program.singleUnits,
        single.offset = offset ∧ single.command ≠ .comment := by
  obtain ⟨command, found, acts⟩ := h.exists_command
  rw [← program.commandsOf_singleUnits, commandsOf, List.getElem?_map] at found
  obtain ⟨single, stands, rfl⟩ := Option.map_eq_some_iff.mp found
  obtain ⟨passed, left, split, rfl⟩ := exists_split_of_getElem? stands
  refine ⟨single, List.mem_of_getElem? stands, offset_at split, ?_⟩
  intro comment
  simp [comment, Command.isCounted] at acts

/-- For every offset to stop at an instruction is emitted, at every level. When runs are folded,
the offset is the start of its run, because there is no stop within a counted one.
-/
theorem StopOffset.exists_emittedAt (matched : program.Matched) {offset : Nat}
    (h : program.StopOffset offset) (level : Nat)
    : ∃ address, program.EmittedAt level offset address := by
  obtain ⟨single, member, place, visible⟩ := h.exists_single
  by_cases unfolded : level = 0
  · have once := program.count_of_mem_singleUnits member
    have own : single ∈ single.pieces := by
      rw [(SourceRun.isPiece_of_single once visible).pieces_eq]
      exact List.mem_singleton_self single
    refine exists_emittedAt_of_mem matched ?_ place
    rw [pieces, if_pos unfolded]
    exact List.mem_flatMap.mpr ⟨single, member, own⟩
  · obtain ⟨earlier, run, later, turn, runs, lt, within, starts⟩ := exists_run_of_single member
    have inside : run ∈ program.splitRuns := by simp [runs]
    have byte : single.byte = run.byte := (SourceRun.of_mem_singlesFrom within).1
    rw [SourceRun.command, byte, ← SourceRun.command] at visible
    by_cases counted : run.command.isCounted = true
    · have maximal := maximalRun_of_splitRuns runs
      have first : turn = 0 := by
        apply Nat.eq_zero_of_not_pos
        intro positive
        obtain rfl := Int.ofNat_inj.mp (place.symm.trans starts)
        exact not_stopOffset_inside maximal counted positive lt h
      have tiles := program.tiles_splitRuns.1
      rw [runs] at tiles
      have same : run.offset = offset := by
        rw [← place, starts, first, tiles.offset_eq]
        simp
      refine exists_emittedAt_of_mem matched ?_ same
      rw [pieces, if_neg unfolded]
      refine List.mem_flatMap.mpr ⟨run, inside, ?_⟩
      rw [SourceRun.pieces_of_counted counted]
      exact List.mem_singleton_self run
    · refine exists_emittedAt_of_mem matched ?_ place
      rw [pieces, if_neg unfolded]
      refine List.mem_flatMap.mpr ⟨run, inside, ?_⟩
      rw [SourceRun.pieces, if_neg visible, if_neg counted]
      exact within

/-- The offsets of the pieces of a run are some of those of its single bytes. -/
theorem offsets_sublist_of_run {run : SourceRun} (positive : 0 < run.count)
    : (run.pieces.map SourceRun.offset).Sublist (run.singles.map SourceRun.offset) := by
  unfold SourceRun.pieces
  split
  · exact List.nil_sublist _
  · split
    · obtain ⟨more, number⟩ : ∃ more, run.count.toNat = more + 1 :=
        ⟨run.count.toNat - 1, by omega⟩
      rw [SourceRun.singles, number, SourceRun.singlesFrom, List.map_cons]
      exact (List.nil_sublist _).cons_cons run.offset
    · exact List.Sublist.refl _

/-- Pieces keep the offsets of single bytes in order, at every level. -/
theorem offsets_sublist (program : Program) (level : Nat)
    : ((program.pieces level).map SourceRun.offset).Sublist
        (program.singleUnits.map SourceRun.offset) := by
  rw [← program.singles_at_level level, pieces, List.map_flatMap, List.map_flatMap]
  apply List.Sublist.flatMap_right
  intro run member
  apply offsets_sublist_of_run
  split at member
  · rw [program.count_of_mem_singleUnits member]
    exact Int.one_pos
  · exact program.tiles_splitRuns.1.positive run member

/-- No two single bytes have the same offset. -/
theorem nodup_offsets_singleUnits (program : Program)
    : (program.singleUnits.map SourceRun.offset).Nodup := by
  have offsets
      : program.singleUnits.map SourceRun.offset
        = (program.toList.zipIdx.map Prod.snd).map Int.ofNat := by
    rw [singleUnits, List.map_map, List.map_map]
    rfl
  rw [offsets, List.zipIdx_map_snd]
  exact List.Nodup.map (fun _ _ => Int.ofNat.inj) (List.nodup_range' 1)

/-- No offset has two addresses, since no two pieces have the same offset. -/
theorem EmittedAt.address_unique {offset address other : Nat}
    (h : program.EmittedAt level offset address)
    (hOther : program.EmittedAt level offset other)
    : address = other := by
  obtain ⟨passed, piece, left, split, same, rfl⟩ := h.exists_split
  obtain ⟨others, another, behind, splitOther, sameOther, rfl⟩ := hOther.exists_split
  have here : ((program.pieces level).map SourceRun.offset)[passed.length]? = some ↑offset := by
    simp [split, same]
  have there : ((program.pieces level).map SourceRun.offset)[others.length]? = some ↑offset := by
    simp [splitOther, sameOther]
  have unique := program.nodup_offsets_singleUnits.sublist (program.offsets_sublist level)
  have inside := (List.getElem?_eq_some_iff.mp here).1
  exact (List.getElem?_inj inside unique).mp (here.trans there.symm)

/-- An address at which an instruction is emitted for one of the given offsets. -/
def EmittedFor (program : Program) (level : Nat) (stops : Nat → Prop) (address : Nat) : Prop :=
  ∃ offset, stops offset ∧ program.EmittedAt level offset address

/-- The address of a piece is one of the given ones when its offset is. -/
theorem emittedFor_iff (matched : program.Matched) {passed left : List SourceRun}
    {piece : SourceRun} (split : program.pieces level = passed ++ piece :: left)
    {stops : Nat → Prop}
    : program.EmittedFor level stops passed.length
      ↔ ∃ offset : Nat, piece.offset = offset ∧ stops offset := by
  constructor
  · intro emittedFor
    rcases emittedFor with ⟨offset, stop, emitted⟩
    exact ⟨offset, (emittedAt_iff matched split).mp emitted, stop⟩
  · intro starting
    rcases starting with ⟨offset, starts, stop⟩
    exact ⟨offset, stop, (emittedAt_iff matched split).mpr starts⟩

/-- All levels that fold runs emit the same instructions. -/
theorem emittedAt_of_folds (folds : 1 ≤ level) : program.EmittedAt level = program.EmittedAt 1 := by
  have same : program.pieces level = program.pieces 1 := by
    rw [pieces, pieces, if_neg (Nat.ne_of_gt folds), if_neg Nat.one_ne_zero]
  unfold EmittedAt
  rw [same]

theorem emittedFor_of_folds (folds : 1 ≤ level)
    : program.EmittedFor level = program.EmittedFor 1 := by
  unfold EmittedFor
  rw [emittedAt_of_folds folds]

end Program

end Brainfuck
