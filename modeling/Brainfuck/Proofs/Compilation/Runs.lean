import Brainfuck.SourceRun

/-! Runs of a program tile it.
Cutting a program into runs neither loses bytes nor moves them, and every run is as long as
it can be. Both facts follow from what one byte in front of a tiling does to it.
-/

namespace Brainfuck

/-- The command that the byte of a run stands for. -/
def SourceRun.command (run : SourceRun) : Command :=
  Command.ofByte run.byte

/-- Equal bytes one by one, from an offset on. -/
def SourceRun.singlesFrom (byte : UInt8) (offset : Int) : Nat → List SourceRun
  | 0 => []
  | count + 1 => { offset, byte, count := 1 } :: singlesFrom byte (offset + 1) count

/-- The bytes of a run one by one, as runs of their own. -/
def SourceRun.singles (run : SourceRun) : List SourceRun :=
  singlesFrom run.byte run.offset run.count.toNat

/-- The bytes of a run. -/
def SourceRun.bytes (run : SourceRun) : List UInt8 :=
  List.replicate run.count.toNat run.byte

/-- The bytes of a run are those of its single bytes, by induction on their number. -/
theorem SourceRun.map_byte_singlesFrom (byte : UInt8) (offset : Int) (count : Nat)
    : (singlesFrom byte offset count).map SourceRun.byte = List.replicate count byte := by
  induction count generalizing offset with
  | zero => rfl
  | succ count ih => rw [singlesFrom, List.map_cons, ih, List.replicate_succ]

@[simp] theorem SourceRun.length_singles (run : SourceRun)
    : run.singles.length = run.count.toNat := by
  rw [← List.length_map SourceRun.byte, singles, map_byte_singlesFrom, List.length_replicate]

/-- The single bytes of a run, by their number. -/
theorem SourceRun.getElem?_singlesFrom (byte : UInt8) (offset : Int) {count turn : Nat}
    (lt : turn < count)
    : (singlesFrom byte offset count)[turn]?
      = some { offset := offset + turn, byte, count := 1 } := by
  induction count generalizing offset turn with
  | zero => contradiction
  | succ count ih =>
      cases turn with
      | zero => simp [singlesFrom]
      | succ turn =>
          rw [singlesFrom, List.getElem?_cons_succ, ih (offset + 1) (by omega)]
          congr 2
          omega

/-- Runs one behind the other from an offset on, each of them not empty and followed by a
different byte.
-/
inductive Tiles : Int → List SourceRun → Prop
  | nil {offset : Int} : Tiles offset []
  | cons {offset : Int} {run : SourceRun} {rest : List SourceRun}
    (starts : run.offset = offset) (positive : 0 < run.count)
    (differs : ∀ next ∈ rest.head?, next.byte ≠ run.byte)
    (behind : Tiles (offset + run.count) rest)
    : Tiles offset (run :: rest)

/-- No run of a tiling is empty, by induction on the tiling. -/
theorem Tiles.positive {offset : Int} {runs : List SourceRun} (h : Tiles offset runs)
    : ∀ run ∈ runs, 0 < run.count := by
  induction h with
  | nil => simp
  | cons starts positive differs behind ih =>
      intro run member
      rcases List.mem_cons.mp member with rfl | member
      · exact positive
      · exact ih run member

/-- A byte in front of a tiling makes a tiling with one byte more. -/
theorem Tiles.prepend (byte : UInt8) {offset : Nat} {runs : List SourceRun}
    (h : Tiles (offset + 1) runs)
    : Tiles offset (SourceRun.prepend (byte, offset) runs)
      ∧ (SourceRun.prepend (byte, offset) runs).flatMap SourceRun.singles
        = { offset, byte, count := 1 } :: runs.flatMap SourceRun.singles := by
  cases h with
  | nil =>
      have single : Tiles offset [{ offset, byte, count := 1 }] :=
        .cons rfl Int.one_pos (by simp) .nil
      exact ⟨single, rfl⟩
  | @cons _ run rest starts positive differs behind =>
      by_cases same : run.byte = byte
      · have number : (run.count + 1).toNat = run.count.toNat + 1 := by omega
        have longer : (offset : Int) + (run.count + 1) = offset + 1 + run.count := by omega
        simp only [SourceRun.prepend, same, if_true]
        constructor
        · have other : ∀ next ∈ rest.head?, next.byte ≠ byte := by simpa only [same] using differs
          refine .cons rfl (Int.add_pos positive Int.one_pos) other ?_
          simpa only [longer] using behind
        · simp only [List.flatMap_cons, SourceRun.singles, number, SourceRun.singlesFrom, starts,
            same, List.cons_append]
      · simp only [SourceRun.prepend, same, if_false]
        refine ⟨.cons rfl Int.one_pos (by simpa using same) ?_, rfl⟩
        exact .cons starts positive differs behind

/-- Runs behind others in a tiling are a tiling, by induction on the runs in front. -/
theorem Tiles.of_append {offset : Int} {earlier later : List SourceRun}
    (h : Tiles offset (earlier ++ later))
    : ∃ middle, Tiles middle later := by
  induction earlier generalizing offset with
  | nil => exact ⟨offset, h⟩
  | cons first earlier ih =>
      cases h with
      | cons starts positive differs behind => exact ih behind

/-- A run in a tiling starts behind the bytes of the runs in front, by induction on them. -/
theorem Tiles.offset_eq {offset : Int} {earlier later : List SourceRun} {run : SourceRun}
    (h : Tiles offset (earlier ++ run :: later))
    : run.offset = offset + (earlier.flatMap SourceRun.bytes).length := by
  induction earlier generalizing offset with
  | nil =>
      cases h with
      | cons starts => simp [starts]
  | cons first earlier ih =>
      cases h with
      | cons starts positive differs behind =>
          rw [ih behind, List.flatMap_cons, List.length_append, SourceRun.bytes,
            List.length_replicate]
          omega

/-- The byte at the end of runs in front of another run differs from that of the run, by
induction on the runs in front.
-/
theorem Tiles.getLast?_ne {offset : Int} {earlier later : List SourceRun} {run : SourceRun}
    (h : Tiles offset (earlier ++ run :: later))
    : (earlier.flatMap SourceRun.bytes).getLast? ≠ some run.byte := by
  induction earlier generalizing offset with
  | nil => simp
  | cons first earlier ih =>
      cases h with
      | cons starts positive differs behind =>
          have different := ih behind
          rw [List.flatMap_cons, List.getLast?_append]
          cases last : (earlier.flatMap SourceRun.bytes).getLast? with
          | some byte => simpa only [last, Option.some_or] using different
          | none =>
              -- Only no run at all has no last byte, so the first run is right in front.
              have nothing : earlier = [] := by
                cases earlier with
                | nil => rfl
                | cons second earlier =>
                    have longer := behind.positive second (by simp)
                    have empty := congrArg List.length (List.getLast?_eq_none_iff.mp last)
                    simp only [List.flatMap_cons, SourceRun.bytes, List.length_append,
                      List.length_replicate, List.length_nil] at empty
                    omega
              subst nothing
              have byte := differs run rfl
              rw [Option.none_or, SourceRun.bytes, List.getLast?_replicate]
              split
              · simp
              · simpa using byte.symm

/-- The byte behind a run in a tiling differs from that of the run. -/
theorem Tiles.head?_ne {offset : Int} {run : SourceRun} {later : List SourceRun}
    (h : Tiles offset (run :: later))
    : (later.flatMap SourceRun.bytes).head? ≠ some run.byte := by
  cases h with
  | cons starts positive differs behind =>
      cases later with
      | nil => simp
      | cons next later =>
          have longer := behind.positive next (by simp)
          obtain ⟨count, number⟩ : ∃ count, next.count.toNat = count + 1 :=
            ⟨next.count.toNat - 1, by omega⟩
          simpa [SourceRun.bytes, number, List.replicate_succ] using differs next rfl

/-- Bytes put together from an offset on tile what is behind it, and taken apart they are the
single bytes, by induction on the bytes from the last to the first.
-/
theorem tiles_foldr_prepend (bytes : List UInt8) (offset : Nat)
    : Tiles offset ((bytes.zipIdx offset).foldr SourceRun.prepend [])
      ∧ ((bytes.zipIdx offset).foldr SourceRun.prepend []).flatMap SourceRun.singles
        = (bytes.zipIdx offset).map fun unit =>
            { offset := unit.2, byte := unit.1, count := 1 } := by
  induction bytes generalizing offset with
  | nil => exact ⟨.nil, rfl⟩
  | cons byte bytes ih =>
      obtain ⟨tiles, apart⟩ := ih (offset + 1)
      obtain ⟨longer, more⟩ := tiles.prepend byte
      rw [List.zipIdx_cons, List.foldr_cons, List.map_cons, ← apart]
      exact ⟨longer, more⟩

namespace Program

variable {program : Program}

/-- The maximal runs tile the program, and taken apart they are the single bytes. -/
theorem tiles_splitRuns (program : Program)
    : Tiles 0 program.splitRuns
      ∧ program.splitRuns.flatMap SourceRun.singles = program.singleUnits :=
  tiles_foldr_prepend program.toList 0

theorem count_of_mem_singleUnits (program : Program) {single : SourceRun}
    (member : single ∈ program.singleUnits)
    : single.count = 1 := by
  obtain ⟨_, _, rfl⟩ := List.mem_map.mp member
  rfl

theorem map_byte_singleUnits (program : Program)
    : program.singleUnits.map SourceRun.byte = program.toList := by
  rw [singleUnits, List.map_map]
  exact List.zipIdx_map_fst 0 program.toList

/-- The bytes of the maximal runs are those of the program. -/
theorem flatMap_bytes_splitRuns (program : Program)
    : program.splitRuns.flatMap SourceRun.bytes = program.toList := by
  have apart := congrArg (List.map SourceRun.byte) program.tiles_splitRuns.2
  rw [map_byte_singleUnits, List.map_flatMap] at apart
  rw [← apart]
  congr 1
  funext run
  exact (SourceRun.map_byte_singlesFrom _ _ _).symm

/-- Equal bytes of a program between bytes that differ from them. -/
structure MaximalRun (program : Program) (before : List UInt8) (byte : UInt8) (count : Nat)
    (behind : List UInt8) : Prop where
  split : program.toList = before ++ List.replicate count byte ++ behind
  positive : 0 < count
  starts : before.getLast? ≠ some byte
  ends : behind.head? ≠ some byte

/-- Each of the maximal runs is one. -/
theorem maximalRun_of_splitRuns {earlier later : List SourceRun} {run : SourceRun}
    (h : program.splitRuns = earlier ++ run :: later)
    : program.MaximalRun (earlier.flatMap SourceRun.bytes) run.byte run.count.toNat
        (later.flatMap SourceRun.bytes) := by
  have tiles := program.tiles_splitRuns.1
  have bytes := program.flatMap_bytes_splitRuns
  rw [h] at tiles bytes
  obtain ⟨offset, behind⟩ := tiles.of_append
  have positive := behind.positive run (by simp)
  exact
    {
      split := by
        rw [← bytes, List.flatMap_append, List.flatMap_cons, List.append_assoc]
        rfl
      positive := by omega
      starts := tiles.getLast?_ne
      ends := behind.head?_ne
    }

end Program

end Brainfuck
