import Brainfuck.Proofs.Compilation.Decoding
import Mathlib.Algebra.Ring.Int.Defs

/-! Runs as a run-length code.
A program has one such code, in which no run is empty and neighbours differ: its maximal runs.
Two nested loops find them, the outer one from run to run and the inner one byte by byte; every
turn either learns a byte or completes a run, so the loops end.
-/

namespace Brainfuck

-----------------------------------------------------------------------------------------
-- The code of a program
-----------------------------------------------------------------------------------------

/-- Runs that say what the bytes of a program are, and say it in only one way. -/
structure Program.RunLengthCode (program : Program) (runs : List SourceRun) : Prop where
  positive : ∀ run ∈ runs, 1 ≤ run.count
  offset_eq
    : ∀ earlier run later,
        runs = earlier ++ run :: later → run.offset = (earlier.map SourceRun.count).sum
  bytes_eq : runs.flatMap SourceRun.bytes = program.toList
  neighbours_differ
    : ∀ earlier run next later,
        runs = earlier ++ run :: next :: later → run.byte ≠ next.byte

/-- Runs tile what is behind an offset when none is empty, each starts where the counts in front
of it add up to, and neighbours differ; by induction on the runs.
-/
theorem tiles_of_counts {offset : Int} {runs : List SourceRun}
    (positive : ∀ run ∈ runs, 1 ≤ run.count)
    (starts
      : ∀ earlier run later,
          runs = earlier ++ run :: later
          → run.offset = offset + (earlier.map SourceRun.count).sum)
    (differ
      : ∀ earlier run next later,
          runs = earlier ++ run :: next :: later → run.byte ≠ next.byte)
    : Tiles offset runs := by
  induction runs generalizing offset with
  | nil => exact .nil
  | cons first rest ih =>
      have here : first.offset = offset := by simpa using starts [] first rest rfl
      refine .cons here (positive first (by simp)) ?_ ?_
      · intro next isNext
        obtain ⟨later, rfl⟩ := List.head?_eq_some_iff.mp isNext
        exact (differ [] first next later rfl).symm
      · apply ih
        · intro run member
          exact positive run (by simp [member])
        · intro earlier run later split
          rw [starts (first :: earlier) run later (by rw [split]; rfl), List.map_cons,
            List.sum_cons, Int.add_assoc]
        · intro earlier run next later split
          exact differ (first :: earlier) run next later (by rw [split]; rfl)

/-- A run of a tiling starts where the counts in front of it add up to, by induction on these. -/
theorem Tiles.offset_eq_sum {offset : Int} {earlier later : List SourceRun} {run : SourceRun}
    (h : Tiles offset (earlier ++ run :: later))
    : run.offset = offset + (earlier.map SourceRun.count).sum := by
  induction earlier generalizing offset with
  | nil =>
      cases h with
      | cons starts => simp [starts]
  | cons first earlier ih =>
      cases h with
      | cons starts positive differs behind =>
          rw [ih behind, List.map_cons, List.sum_cons, Int.add_assoc]

/-- Neighbours in a tiling differ, because what is behind some of its runs is a tiling. -/
theorem Tiles.byte_ne {offset : Int} {earlier later : List SourceRun} {run next : SourceRun}
    (h : Tiles offset (earlier ++ run :: next :: later))
    : run.byte ≠ next.byte := by
  obtain ⟨middle, behind⟩ := h.of_append
  cases behind with
  | cons starts positive differs behind => exact (differs next rfl).symm

/-- Only one tiling from an offset has given bytes: these determine the bytes of every run, and
so its byte and its count. The induction is on the tiling.
-/
theorem Tiles.unique {offset : Int} {runs others : List SourceRun} (h : Tiles offset runs)
    (hOther : Tiles offset others)
    (same : runs.flatMap SourceRun.bytes = others.flatMap SourceRun.bytes)
    : runs = others := by
  have cut : runs.map SourceRun.bytes = others.map SourceRun.bytes := by
    rw [← h.splitBy_eq, same, hOther.splitBy_eq]
  clear same
  induction h generalizing others with
  | nil => exact (List.map_eq_nil_iff.mp cut.symm).symm
  | @cons offset run rest starts positive differs behind ih =>
      cases hOther with
      | nil => simp at cut
      | @cons _ other others startsOther positiveOther differsOther behindOther =>
          obtain ⟨first, later⟩ := List.cons.inj cut
          obtain ⟨count, empty | byte⟩ := List.replicate_inj.mp first
          · omega
          · have count : run.count = other.count := by omega
            rw [← count] at behindOther
            obtain rfl := ih behindOther later
            obtain ⟨_, _, _⟩ := run
            obtain ⟨_, _, _⟩ := other
            simp_all

/-- A program has one run-length code, its maximal runs. -/
theorem Program.runLengthCode_iff (program : Program) (runs : List SourceRun)
    : program.RunLengthCode runs ↔ runs = program.splitRuns := by
  have tiles := program.tiles_splitRuns.1
  have bytes := program.flatMap_bytes_splitRuns
  constructor
  · intro code
    have starts
        : ∀ earlier run later,
            runs = earlier ++ run :: later
            → run.offset = 0 + (earlier.map SourceRun.count).sum := by
      intro earlier run later split
      rw [code.offset_eq earlier run later split, Int.zero_add]
    exact (tiles_of_counts code.positive starts code.neighbours_differ).unique tiles
      (code.bytes_eq.trans bytes.symm)
  · rintro rfl
    exact
      {
        positive := tiles.positive
        offset_eq := by
          intro earlier run later split
          rw [split] at tiles
          rw [tiles.offset_eq_sum, Int.zero_add]
        bytes_eq := bytes
        neighbours_differ := by
          intro earlier run next later split
          rw [split] at tiles
          exact tiles.byte_ne
      }

-----------------------------------------------------------------------------------------
-- The loops that find the runs
-----------------------------------------------------------------------------------------

/-- Where the search for runs stands, with the runs that it has found: in front of a run, or
behind some bytes of one.
-/
inductive RunSearch where
  | between (found : List SourceRun) (offset : Nat)
  | inside (found : List SourceRun) (offset : Nat) (byte : UInt8) (count : Nat)
deriving DecidableEq, Repr

namespace RunSearch

variable {program : Program}

/-- The runs found so far. -/
def found : RunSearch → List SourceRun
  | .between found _ | .inside found _ _ _ => found

/-- One turn of the loops. The outer one starts a run wherever there is a byte; the inner one
takes the next byte into the run if it is the same, and completes the run otherwise.
-/
def next? (program : Program) : RunSearch → Option RunSearch
  | .between found offset => program[offset]?.map fun byte => .inside found offset byte 1
  | .inside found offset byte count =>
      if program[offset + count]? = some byte then
        some (.inside found offset byte (count + 1))
      else some (.between (found ++ [{ offset, byte, count }]) (offset + count))

/-- Some turns of the loops, if they do not end before. -/
def turns? (program : Program) : Nat → RunSearch → Option RunSearch
  | 0, search => some search
  | turns + 1, search => (search.next? program).bind (turns? program turns)

/-- The runs of the bytes behind an offset. -/
def runsFrom (program : Program) (offset : Nat) : List SourceRun :=
  (program.toList.zipIdx.drop offset).foldr SourceRun.prepend []

/-- Puts equal bytes in front of runs: they join the first run when it is of the same byte. -/
def attach (offset : Nat) (byte : UInt8) (count : Nat) : List SourceRun → List SourceRun
  | [] => [{ offset, byte, count }]
  | run :: later =>
      if run.byte = byte then { run with offset, count := run.count + count } :: later
      else { offset, byte, count } :: run :: later

/-- The runs that a search is still to find. -/
def outlook (program : Program) : RunSearch → List SourceRun
  | .between _ offset => runsFrom program offset
  | .inside _ offset byte count => attach offset byte count (runsFrom program (offset + count))

/-- Bytes behind all those that a search has looked at. -/
def unseen (program : Program) : RunSearch → Nat
  | .between _ offset => program.size - offset
  | .inside _ offset _ count => program.size - (offset + count)

/-- Turns that a search still takes: one for every unseen byte, one for every run to complete. -/
def turnsLeft (program : Program) (search : RunSearch) : Nat :=
  search.unseen program + (search.outlook program).length

theorem runsFrom_of_byte {offset : Nat} {byte : UInt8} (h : program[offset]? = some byte)
    : runsFrom program offset = attach offset byte 1 (runsFrom program (offset + 1)) := by
  have unit : program.toList.zipIdx[offset]? = some (byte, offset) := by
    simp [List.getElem?_zipIdx, h]
  obtain ⟨inside, here⟩ := List.getElem?_eq_some_iff.mp unit
  rw [runsFrom, List.drop_eq_getElem_cons inside, here, List.foldr_cons, ← runsFrom]
  cases runsFrom program (offset + 1) <;> rfl

theorem runsFrom_of_end {offset : Nat} (h : program[offset]? = none)
    : runsFrom program offset = [] := by
  have outside : program.toList.zipIdx.length ≤ offset := by
    simpa using Array.getElem?_eq_none_iff.mp h
  rw [runsFrom, List.drop_eq_nil_of_le outside, List.foldr_nil]

/-- Of equal bytes in front of runs the last can be put there first. -/
theorem attach_attach (offset : Nat) (byte : UInt8) (count : Nat) (runs : List SourceRun)
    : attach offset byte count (attach (offset + count) byte 1 runs)
      = attach offset byte (count + 1) runs := by
  cases runs with
  | nil => simp [attach, Int.add_comm]
  | cons run later =>
      by_cases same : run.byte = byte
      · have counts : run.count + 1 + (count : Int) = run.count + (count + 1 : Nat) := by omega
        simp [attach, same, counts]
      · simp [attach, same, Int.add_comm]

/-- The runs behind an offset start with its byte. -/
theorem byte_of_head?_runsFrom {offset : Nat} {run : SourceRun}
    (h : (runsFrom program offset).head? = some run)
    : program[offset]? = some run.byte := by
  cases here : program[offset]? with
  | none => simp [runsFrom_of_end here] at h
  | some byte =>
      rw [runsFrom_of_byte here] at h
      cases behind : runsFrom program (offset + 1) with
      | nil =>
          simp only [behind, attach, List.head?_cons, Option.some.injEq] at h
          rw [← h]
      | cons first later =>
          by_cases same : first.byte = byte <;>
            simp only [behind, attach, same, if_true, if_false, List.head?_cons,
              Option.some.injEq] at h <;>
            rw [← h]

/-- Bytes in front of runs of another byte are a run of their own. -/
theorem attach_runsFrom {offset count : Nat} {byte : UInt8}
    (differs : program[offset + count]? ≠ some byte)
    : attach offset byte count (runsFrom program (offset + count))
      = { offset, byte, count } :: runsFrom program (offset + count) := by
  cases behind : runsFrom program (offset + count) with
  | nil => rfl
  | cons run later =>
      have byte : program[offset + count]? = some run.byte :=
        byte_of_head?_runsFrom (by rw [behind]; rfl)
      rw [byte] at differs
      simp [attach, Option.some.injEq] at differs ⊢
      exact differs

/-- One turn keeps what is found and still to be found together, and leaves one turn less, by
cases on where the search stands; a search without a turn left has found everything.
-/
theorem turn (program : Program) (search : RunSearch)
    : (∃ next,
        search.next? program = some next
        ∧ next.found ++ next.outlook program = search.found ++ search.outlook program
        ∧ search.turnsLeft program = next.turnsLeft program + 1)
      ∨ (search.next? program = none
        ∧ search.outlook program = []
        ∧ search.turnsLeft program = 0) := by
  cases search with
  | between found offset =>
      cases here : program[offset]? with
      | none =>
          have outside := Array.getElem?_eq_none_iff.mp here
          have nothing := runsFrom_of_end here
          right
          simp [next?, outlook, nothing, turnsLeft, unseen, outside]
      | some byte =>
          obtain ⟨inside, -⟩ := Array.getElem?_eq_some_iff.mp here
          have more := runsFrom_of_byte here
          left
          refine ⟨.inside found offset byte 1, by simp [next?, here], ?_, ?_⟩
          · simp only [RunSearch.found, outlook, more]
          · simp only [turnsLeft, outlook, unseen, more]
            omega
  | inside found offset byte count =>
      left
      by_cases same : program[offset + count]? = some byte
      · obtain ⟨inside, -⟩ := Array.getElem?_eq_some_iff.mp same
        have more := runsFrom_of_byte same
        refine ⟨.inside found offset byte (count + 1), by simp [next?, same], ?_, ?_⟩
        · simp only [RunSearch.found, outlook, more, attach_attach, Nat.add_assoc]
        · simp only [turnsLeft, outlook, unseen, more, attach_attach, Nat.add_assoc]
          omega
      · have complete := attach_runsFrom same
        have completed
            : next? program (.inside found offset byte count)
              = some
                  (.between (found ++ [{ offset, byte, count : SourceRun }])
                    (offset + count)) := by
          simp [next?, same]
        refine ⟨_, completed, ?_, ?_⟩
        · simp [RunSearch.found, outlook, complete]
        · simp only [turnsLeft, outlook, unseen, complete, List.length_cons]
          omega

/-- The loops end, after the turns that are left, and have found all runs by then. The
induction is on the turns; each of them leaves one less.
-/
theorem exists_end (search : RunSearch)
    : ∃ final,
        turns? program (search.turnsLeft program) search = some final
        ∧ final.next? program = none
        ∧ final.found = search.found ++ search.outlook program := by
  induction left : search.turnsLeft program generalizing search with
  | zero =>
      rcases search.turn program with ⟨next, _, _, fewer⟩ | ⟨ends, nothing, _⟩
      · omega
      · exact ⟨search, rfl, ends, by rw [nothing, List.append_nil]⟩
  | succ turns ih =>
      rcases search.turn program with ⟨next, leads, same, fewer⟩ | ⟨_, _, none⟩
      · obtain ⟨final, turned, ends, all⟩ := ih next (by omega)
        exact ⟨final, by rw [turns?, leads, Option.bind_some, turned], ends, all.trans same⟩
      · omega

end RunSearch

-----------------------------------------------------------------------------------------
-- Run-length encoding
-----------------------------------------------------------------------------------------

/-- The runs of a program are its run-length code. The loops that look for them end, after one
turn for every byte and one for every run, and have found them by then; they are the only runs
that code the program; and taken apart they are its single bytes.
-/
theorem Program.splitRuns_encodes (program : Program)
    : (∃ final,
        RunSearch.turns? program (program.size + program.splitRuns.length) (.between [] 0)
          = some final
        ∧ final.next? program = none
        ∧ final.found = program.splitRuns)
      ∧ (∀ runs, program.RunLengthCode runs ↔ runs = program.splitRuns)
      ∧ program.splitRuns.flatMap SourceRun.singles = program.singleUnits :=
  ⟨RunSearch.exists_end (.between [] 0), program.runLengthCode_iff, program.tiles_splitRuns.2⟩

/-- A run of one byte, and one that touches the end. -/
example
    : (Program.ofText "+--").splitRuns
      = [{ offset := 0, byte := 0x2b, count := 1 }, { offset := 1, byte := 0x2d, count := 2 }] := by
  decide

end Brainfuck
