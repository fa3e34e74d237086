import Brainfuck.Debugger.Display
import Mathlib.Data.List.Nodup

/-! Memory dumps tile the addresses that they are asked for.
The rows of a dump are cut from one interval of addresses, which lies on the tape: read in order
they show every cell of it once, and the current cell is highlighted wherever it is among them.
-/

namespace Brainfuck.Debugger

-----------------------------------------------------------------------------------------
-- Progressions
-----------------------------------------------------------------------------------------

section Progressions

variable {start bound stride : Int}

/-- A progression upwards goes on as long as its terms are in front of its bound. -/
theorem lt_progressionLength_iff (upwards : 0 < stride) (index : Nat)
    : index < progressionLength start bound stride ↔ start + index * stride < bound := by
  rw [progressionLength, if_pos upwards, Int.lt_toNat, ← Int.add_one_le_iff,
    Int.le_ediv_iff_mul_le upwards, Int.add_mul, Int.one_mul]
  omega

/-- The terms of a progression upwards. -/
theorem getElem?_progression (upwards : 0 < stride) (index : Nat)
    : (progression start bound stride)[index]?
      = if start + index * stride < bound then some (start + index * stride) else none := by
  have terms
      : index < progressionLength start bound stride ↔ start + index * stride < bound :=
    lt_progressionLength_iff upwards index
  rw [progression, List.getElem?_map]
  by_cases inFront : start + index * stride < bound
  · rw [List.getElem?_range (terms.mpr inFront), if_pos inFront, Option.map_some]
  · have outside : progressionLength start bound stride ≤ index :=
      Nat.le_of_not_lt (mt terms.mp inFront)
    rw [List.getElem?_eq_none (by rwa [List.length_range]), if_neg inFront, Option.map_none]

theorem progression_of_le (upwards : 0 < stride) (h : bound ≤ start)
    : progression start bound stride = [] := by
  apply List.eq_nil_of_length_eq_zero
  have terms : 0 < progressionLength start bound stride ↔ _ := lt_progressionLength_iff upwards 0
  simp [progression] at terms ⊢
  omega

theorem progression_of_lt (upwards : 0 < stride) (h : start < bound)
    : progression start bound stride = start :: progression (start + stride) bound stride := by
  apply List.ext_getElem?
  intro index
  rw [getElem?_progression upwards]
  cases index with
  | zero => simp [h]
  | succ index =>
      have next : start + ((index + 1 : Nat) : Int) * stride = start + stride + index * stride := by
        rw [Int.natCast_succ, Int.add_mul, Int.one_mul]
        omega
      rw [List.getElem?_cons_succ, getElem?_progression upwards, next]

/-- The addresses from one to another, as a progression by one. -/
theorem progression_by_one (nonneg : 0 ≤ start)
    : progression start bound 1
      = (List.range' start.toNat (bound - start).toNat).map Int.ofNat := by
  apply List.ext_getElem?
  intro index
  rw [getElem?_progression Int.one_pos, List.getElem?_map, Int.mul_one]
  by_cases inFront : start + index < bound
  · have inside : index < (bound - start).toNat := by omega
    have address : Int.ofNat (start.toNat + index) = start + index := by
      rw [Int.ofNat_eq_natCast]
      omega
    rw [if_pos inFront, List.getElem?_range' inside, Option.map_some, Nat.one_mul, address]
  · have outside : ¬ index < (bound - start).toNat := by omega
    simp [inFront, outside]

theorem progression_append {middle : Int} (below : start ≤ middle) (above : middle ≤ bound)
    (nonneg : 0 ≤ start)
    : progression start middle 1 ++ progression middle bound 1 = progression start bound 1 := by
  have next : middle.toNat = start.toNat + (middle - start).toNat := by omega
  have lengths : (bound - start).toNat = (middle - start).toNat + (bound - middle).toNat := by
    omega
  rw [progression_by_one nonneg, progression_by_one (by omega : 0 ≤ middle),
    progression_by_one nonneg, ← List.map_append, next, List.range'_append_1, lengths]

end Progressions

-----------------------------------------------------------------------------------------
-- Rows
-----------------------------------------------------------------------------------------

section Rows

variable {start bound columns : Int}

theorem dumpRows_of_le (upwards : 0 < columns) (h : bound ≤ start)
    : dumpRows start bound columns = [] := by
  rw [dumpRows, progression_of_le upwards h, List.map_nil]

theorem dumpRows_of_lt (upwards : 0 < columns) (h : start < bound)
    : dumpRows start bound columns
      = { label := start, addresses := progression start (min bound (start + columns)) 1 }
        :: dumpRows (start + columns) bound columns := by
  rw [dumpRows, progression_of_lt upwards h, List.map_cons, ← dumpRows]

/-- The rows of a dump, one behind the other, are the whole interval. The induction is on the
number of addresses that are left; each row takes some off in front.
-/
theorem flatMap_dumpRows (upwards : 0 < columns) (nonneg : 0 ≤ start)
    : (dumpRows start bound columns).flatMap DumpRow.addresses
      = progression start bound 1 := by
  induction left : (bound - start).toNat using Nat.strongRecOn generalizing start with
  | _ left ih =>
      rcases Int.lt_or_le start bound with inside | outside
      · rw [dumpRows_of_lt upwards inside, List.flatMap_cons,
          ih _ (by omega) (by omega : 0 ≤ start + columns) rfl]
        rcases Int.lt_or_le (start + columns) bound with more | last
        · rw [Int.min_eq_right (Int.le_of_lt more)]
          exact progression_append (by omega) (Int.le_of_lt more) nonneg
        · rw [Int.min_eq_left last, progression_of_le Int.one_pos last, List.append_nil]
      · rw [dumpRows_of_le upwards outside, progression_of_le Int.one_pos outside,
          List.flatMap_nil]

/-- A row by its number: it starts where the rows in front of it end. -/
theorem getElem?_dumpRows (upwards : 0 < columns) (index : Nat)
    : (dumpRows start bound columns)[index]?
      = if start + index * columns < bound then
          some
            {
              label := start + index * columns
              addresses :=
                progression (start + index * columns)
                  (min bound (start + index * columns + columns)) 1
            }
        else none := by
  rw [dumpRows, List.getElem?_map, getElem?_progression upwards]
  split <;> rfl

/-- Rows downwards are empty, because each ends where the next one starts. -/
theorem addresses_of_downwards (downwards : columns < 0) {row : DumpRow}
    (member : row ∈ dumpRows start bound columns)
    : row.addresses = [] := by
  obtain ⟨label, _, rfl⟩ := List.mem_map.mp member
  exact progression_of_le Int.one_pos (by omega)

end Rows

-----------------------------------------------------------------------------------------
-- What is shown
-----------------------------------------------------------------------------------------

/-- A cell as a dump shows it. -/
structure ShownCell where
  address : Nat
  value : Int
  isHighlighted : Bool
deriving DecidableEq, Repr

/-- A row as a dump shows it. -/
structure ShownRow where
  label : Int
  cells : List ShownCell
deriving DecidableEq, Repr

/-- A cell takes four columns. -/
def ShownCell.text (cell : ShownCell) : String :=
  let number := Text.paddedInteger 4 cell.value
  if cell.isHighlighted then styled .reversed number else number

/-- A row is a line: its label, and its cells with blanks between them. -/
def ShownRow.text (row : ShownRow) : String :=
  "  " ++ Text.zeroPadded 5 row.label ++ ": "
  ++ String.intercalate " " (row.cells.map ShownCell.text) ++ "\n"

/-- The text of a dump: a heading, and rows. -/
def dumpText (start : Int) (rows : List ShownRow) : String :=
  styled .cyan ("[Memory (Start: " ++ toString start ++ ")]") ++ "\n"
  ++ String.join (rows.map ShownRow.text)

/-- What is shown of the cell at an address. -/
def shownCell (tape : Tape) (address : Nat) : ShownCell :=
  { address, value := tape.cells.getD address 0, isHighlighted := address = tape.pointer }

/-- What is shown of a row. -/
def DumpRow.shown (tape : Tape) (row : DumpRow) : ShownRow :=
  { label := row.label, cells := row.addresses.map fun address => shownCell tape address.toNat }

/-- A row of addresses that are not negative is described by what is shown of it. -/
theorem DumpRow.describe_eq {tape : Tape} {row : DumpRow}
    (nonneg : ∀ address ∈ row.addresses, 0 ≤ address)
    : row.describe tape = (row.shown tape).text := by
  have cells
      : (row.addresses.map fun address : Int =>
            if address = tape.pointer then styled .reversed (cellText tape address)
            else cellText tape address)
        = (row.shown tape).cells.map ShownCell.text := by
    rw [DumpRow.shown, List.map_map]
    apply List.map_congr_left
    intro address member
    have same : address = tape.pointer ↔ address.toNat = tape.pointer := by
      have := nonneg address member
      omega
    simp only [Function.comp_apply, ShownCell.text, shownCell, same, decide_eq_true_eq, cellText]
  rw [DumpRow.describe, cells]
  rfl

/-- Rows that show the interval from a first address to a bound, all but the last of them full. -/
structure ShowsInterval (tape : Tape) (first bound columns : Int) (rows : List ShownRow) : Prop
    where
  labels
    : ∀ index : Nat,
        rows[index]?.map ShownRow.label
        = if first + index * columns < bound then some (first + index * columns) else none
  starts
    : ∀ row ∈ rows, ∃ cell later, row.cells = cell :: later ∧ (cell.address : Int) = row.label
  atMost : ∀ row ∈ rows, (row.cells.length : Int) ≤ columns
  full
    : ∀ earlier row next later,
        rows = earlier ++ row :: next :: later → (row.cells.length : Int) = columns
  addresses
    : (rows.flatMap ShownRow.cells).map ShownCell.address
      = List.range' first.toNat (bound - first).toNat
  read
    : ∀ row ∈ rows, ∀ cell ∈ row.cells, tape.cells[cell.address]? = some cell.value
  highlighted
    : ((rows.flatMap ShownRow.cells).filter ShownCell.isHighlighted).map ShownCell.address
      = if first ≤ tape.pointer ∧ (tape.pointer : Int) < bound then [tape.pointer] else []

section Intervals

variable {tape : Tape} {first bound columns : Int}

/-- The cells shown, row by row, are those of the interval. -/
theorem flatMap_shown (upwards : 0 < columns) (nonneg : 0 ≤ first)
    : ((dumpRows first bound columns).map (DumpRow.shown tape)).flatMap ShownRow.cells
      = (List.range' first.toNat (bound - first).toNat).map (shownCell tape) := by
  have addresses
      : (dumpRows first bound columns).flatMap DumpRow.addresses = progression first bound 1 :=
    flatMap_dumpRows upwards nonneg
  have cells
      : ((dumpRows first bound columns).map (DumpRow.shown tape)).flatMap ShownRow.cells
        = ((dumpRows first bound columns).flatMap DumpRow.addresses).map fun address =>
            shownCell tape address.toNat := by
    rw [List.flatMap_map, List.map_flatMap]
    rfl
  rw [cells, addresses, progression_by_one nonneg, List.map_map]
  rfl

/-- A row of a dump shows the addresses from its label to the next label, cut to the bound. -/
theorem exists_of_mem_dumpRows (upwards : 0 < columns) {row : DumpRow}
    (member : row ∈ dumpRows first bound columns)
    : first ≤ row.label
      ∧ row.label < bound
      ∧ row.addresses = progression row.label (min bound (row.label + columns)) 1 := by
  obtain ⟨index, here⟩ := List.mem_iff_getElem?.mp member
  rw [getElem?_dumpRows upwards] at here
  split at here
  · rename_i inFront
    obtain rfl := Option.some.inj here
    have above : 0 ≤ (index : Int) * columns := Int.mul_nonneg (by omega) (by omega)
    exact ⟨by simp only; omega, inFront, rfl⟩
  · contradiction

/-- Number of cells in a row from a label that is not negative. -/
theorem length_progression_by_one {start bound : Int} (nonneg : 0 ≤ start)
    : (progression start bound 1).length = (bound - start).toNat := by
  rw [progression_by_one nonneg, List.length_map, List.length_range']

/-- A row with another one behind it is full, because the label of that one is in front of the
bound.
-/
theorem length_of_followed (upwards : 0 < columns) (nonneg : 0 ≤ first)
    {earlier later : List DumpRow} {row next : DumpRow}
    (split : dumpRows first bound columns = earlier ++ row :: next :: later)
    : (row.addresses.length : Int) = columns := by
  have here : (dumpRows first bound columns)[earlier.length]? = some row := by
    rw [split]
    simp
  have behind : (dumpRows first bound columns)[earlier.length + 1]? = some next := by
    rw [split]
    simp
  rw [getElem?_dumpRows upwards] at here behind
  have longer
      : first + ((earlier.length + 1 : Nat) : Int) * columns
        = first + earlier.length * columns + columns := by
    rw [Int.natCast_succ, Int.add_mul, Int.one_mul]
    omega
  have more : first + earlier.length * columns + columns < bound := by
    rw [longer] at behind
    exact (Option.ite_none_right_eq_some.mp behind).1
  have above : 0 ≤ (earlier.length : Int) * columns := Int.mul_nonneg (by omega) (by omega)
  obtain ⟨_, same⟩ := Option.ite_none_right_eq_some.mp here
  obtain rfl := Option.some.inj same
  rw [Int.min_eq_right (Int.le_of_lt more), length_progression_by_one (by omega)]
  omega

/-- The current cell is highlighted in an interval if it is there, and no other cell is. -/
theorem map_address_filter_isHighlighted (tape : Tape) (nonneg : 0 ≤ first)
    : (((List.range' first.toNat (bound - first).toNat).map (shownCell tape)).filter
          ShownCell.isHighlighted).map ShownCell.address
      = if first ≤ tape.pointer ∧ (tape.pointer : Int) < bound then [tape.pointer] else [] := by
  have current
      : (List.range' first.toNat (bound - first).toNat).filter
            (ShownCell.isHighlighted ∘ shownCell tape)
        = List.replicate
            ((List.range' first.toNat (bound - first).toNat).count tape.pointer)
            tape.pointer :=
    List.filter_eq tape.pointer
  have inside
      : tape.pointer ∈ List.range' first.toNat (bound - first).toNat
        ↔ first ≤ tape.pointer ∧ (tape.pointer : Int) < bound := by
    rw [List.mem_range'_1]
    omega
  rw [List.filter_map, List.map_map, current, (List.nodup_range' 1).count]
  by_cases among : first ≤ tape.pointer ∧ (tape.pointer : Int) < bound
  · rw [if_pos (inside.mpr among), if_pos among]
    rfl
  · rw [if_neg (mt inside.mp among), if_neg among]
    rfl

/-- The rows of a dump show the interval that it is cut from, if that is on the tape. -/
theorem showsInterval (upwards : 0 < columns) (nonneg : 0 ≤ first) (onTape : bound ≤ tape.size)
    : ShowsInterval tape first bound columns
        ((dumpRows first bound columns).map (DumpRow.shown tape)) := by
  have cells
      : ((dumpRows first bound columns).map (DumpRow.shown tape)).flatMap ShownRow.cells
        = (List.range' first.toNat (bound - first).toNat).map (shownCell tape) :=
    flatMap_shown upwards nonneg
  exact
    {
      labels := by
        intro index
        rw [List.getElem?_map, getElem?_dumpRows upwards]
        split <;> rfl
      starts := by
        intro shown member
        obtain ⟨row, inRows, rfl⟩ := List.mem_map.mp member
        obtain ⟨above, below, addresses⟩ := exists_of_mem_dumpRows upwards inRows
        rw [progression_of_lt Int.one_pos (by omega)] at addresses
        refine ⟨shownCell tape row.label.toNat, _,
          by rw [DumpRow.shown, addresses, List.map_cons], ?_⟩
        exact Int.toNat_of_nonneg (by omega)
      atMost := by
        intro shown member
        obtain ⟨row, inRows, rfl⟩ := List.mem_map.mp member
        obtain ⟨above, below, addresses⟩ := exists_of_mem_dumpRows upwards inRows
        rw [DumpRow.shown, List.length_map, addresses, length_progression_by_one (by omega)]
        omega
      full := by
        intro earlier shown next later split
        obtain ⟨front, rest, rows, _, behind⟩ := List.map_eq_append_iff.mp split
        obtain ⟨row, others, rfl, rfl, more⟩ := List.map_eq_cons_iff.mp behind
        obtain ⟨_, _, rfl, _, _⟩ := List.map_eq_cons_iff.mp more
        rw [DumpRow.shown, List.length_map]
        exact length_of_followed upwards nonneg rows
      addresses := by
        rw [cells, List.map_map]
        exact List.map_id' _
      read := by
        intro row inRows cell inRow
        have member := List.mem_flatMap.mpr ⟨row, inRows, inRow⟩
        rw [cells] at member
        obtain ⟨address, inside, rfl⟩ := List.mem_map.mp member
        have lt : address < tape.cells.size := by
          have := List.mem_range'_1.mp inside
          simp only [Tape.size] at onTape
          omega
        simp [shownCell, lt]
      highlighted := by rw [cells, map_address_filter_isHighlighted tape nonneg]
    }

end Intervals

-----------------------------------------------------------------------------------------
-- Dumps
-----------------------------------------------------------------------------------------

/-- A dump in some columns is a heading and the rows that are shown. -/
theorem regionOf_eq (tape : Tape) (start count : Int) {columns : Int} (h : columns ≠ 0)
    : regionOf tape start count columns
      = {
          text :=
            dumpText (dumpStart start)
              ((dumpRows (dumpStart start) (dumpBound tape start count) columns).map
                (DumpRow.shown tape))
        } := by
  have described
      : ∀ row ∈ dumpRows (dumpStart start) (dumpBound tape start count) columns,
          row.describe tape = (row.shown tape).text := by
    intro row member
    apply DumpRow.describe_eq
    rcases Int.lt_or_gt_of_ne h with downwards | upwards
    · simp [addresses_of_downwards downwards member]
    · obtain ⟨above, _, addresses⟩ := exists_of_mem_dumpRows upwards member
      have start : 0 ≤ dumpStart start := Int.le_max_left 0 start
      rw [addresses, progression_by_one (by omega)]
      intro address inRow
      obtain ⟨natural, _, rfl⟩ := List.mem_map.mp inRow
      exact Int.natCast_nonneg natural
  simp only [regionOf, if_neg h, List.map_congr_left described]
  rw [dumpText, List.map_map]
  rfl

/-- A dump tiles the interval that it is asked for, cut to the tape: its rows show every cell of
it once and in order, and nothing else, and highlight the current one if it is among them. No
rows can be made of zero columns, and a negative number of columns shows no cell.
-/
theorem dump_tiles_interval {debugger : Debugger} {machine : Machine}
    (loaded : debugger.machine? = some machine) (start count columns : Int)
    : let first := max 0 start
      let bound := min (machine.tape.size : Int) (first + count)
      (columns = 0
        → ∃ fault,
            debugger.region start count columns
              = { text := dumpText first [], fault? := some fault }
            ∧ fault.kind = .badValue)
      ∧ (0 < columns
        → ∃ rows,
            debugger.region start count columns = { text := dumpText first rows }
            ∧ ShowsInterval machine.tape first bound columns rows)
      ∧ (columns < 0
        → ∃ rows,
            debugger.region start count columns = { text := dumpText first rows }
            ∧ ∀ row ∈ rows, row.cells = []) := by
  simp only [region, loaded?, loaded]
  refine ⟨?_, ?_, ?_⟩
  · rintro rfl
    exact ⟨.zeroColumns, by simp [regionOf, dumpText, dumpStart, String.join], rfl⟩
  · intro upwards
    refine ⟨_, regionOf_eq machine.tape start count (by omega), ?_⟩
    exact showsInterval upwards (Int.le_max_left 0 start) (Int.min_le_left _ _)
  · intro downwards
    refine ⟨_, regionOf_eq machine.tape start count (by omega), ?_⟩
    intro shown member
    obtain ⟨row, inRows, rfl⟩ := List.mem_map.mp member
    rw [DumpRow.shown, addresses_of_downwards downwards inRows, List.map_nil]

/-- Asked for four cells from in front of the tape on, in rows of three: a full row and a short
one, the current cell in the short one; in rows of minus three there are no cells at all.
-/
theorem dump_tiles_interval_from_in_front
    : ∃ debugger : Debugger, ∃ machine : Machine,
        debugger.machine? = some machine
        ∧ machine.tape = { policy := .wrapping, cells := #[7, 0, 0, -1, 5], pointer := 3 }
        ∧ (∃ rows,
            debugger.region (-5) 4 3 = { text := dumpText 0 rows }
            ∧ ShowsInterval machine.tape 0 4 3 rows
            ∧ (rows.flatMap ShownRow.cells).map ShownCell.address = [0, 1, 2, 3]
            ∧ ((rows.flatMap ShownRow.cells).filter ShownCell.isHighlighted).map
                  ShownCell.address
              = [3])
        ∧ (∃ rows,
            debugger.region (-5) (-4) (-3) = { text := dumpText 0 rows }
            ∧ ∀ row ∈ rows, row.cells = [])
        ∧ ∃ fault, debugger.region 2 2 0 = { text := dumpText 2 [], fault? := some fault } := by
  have loaded (machine : Machine)
      : ({ machine? := some machine } : Debugger).machine? = some machine :=
    rfl
  have dumps :=
    dump_tiles_interval
      (loaded
        {
          code := .source #[]
          tape := { policy := .wrapping, cells := #[7, 0, 0, -1, 5], pointer := 3 }
        })
  refine ⟨_, _, loaded _, rfl, ?_, (dumps (-5) (-4) (-3)).2.2 (by decide), ?_⟩
  · obtain ⟨rows, shown, tiles⟩ := (dumps (-5) 4 3).2.1 (by decide)
    exact ⟨rows, shown, tiles, tiles.addresses, tiles.highlighted⟩
  · obtain ⟨fault, shown, _⟩ := (dumps 2 2 0).1 rfl
    exact ⟨fault, shown⟩

end Brainfuck.Debugger
