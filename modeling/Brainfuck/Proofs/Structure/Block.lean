import Brainfuck.Proofs.Execution.Step

/-! Programs as trees.
A block is a sequence of actions and loops. Reading a program from its end yields its block:
a `]` opens a body, whatever follows it waits for the `[` in front.
-/

namespace Brainfuck

/-- Actions and loops one behind the other; comments are not part of it. -/
inductive Block where
  | done
  | action (action : Action) (rest : Block)
  | loop (body rest : Block)
deriving DecidableEq, Repr

namespace Block

/-- The block that commands spell. -/
inductive Spells : List Command → Block → Prop
  | done : Spells [] .done
  | comment {rest : List Command} {block : Block} (behind : Spells rest block)
    : Spells (.comment :: rest) block
  | action {command : Command} {action : Action} {rest : List Command} {block : Block}
    (does : command.action? = some action) (behind : Spells rest block)
    : Spells (command :: rest) (.action action block)
  | loop {body rest : List Command} {inner outer : Block} (inside : Spells body inner)
    (behind : Spells rest outer)
    : Spells (.beginLoop :: (body ++ .endLoop :: rest)) (.loop inner outer)

/-- Reads a command in front of a block, where other blocks wait for the beginnings of the
loops that they are behind.
-/
def readFront : Command → Block × List Block → Option (Block × List Block)
  | .comment, (block, waiting) => some (block, waiting)
  | .endLoop, (block, waiting) => some (.done, block :: waiting)
  | .beginLoop, (body, outer :: waiting) => some (.loop body outer, waiting)
  | .beginLoop, (_, []) => none
  | command, (block, waiting) =>
      command.action?.map fun action => (.action action block, waiting)

/-- Reads commands from the last to the first. -/
def read : List Command → Option (Block × List Block)
  | [] => some (.done, [])
  | command :: rest => (read rest).bind (readFront command)

/-- A command that acts is read as its action. -/
theorem readFront_action {command : Command} {action : Action}
    (does : command.action? = some action) (block : Block) (waiting : List Block)
    : readFront command (block, waiting) = some (.action action block, waiting) := by
  cases command <;> cases does <;> rfl

/-- Commands that spell a block are read as it in front of the end of a body, by induction on
the spelling. The end of the program is such a place too.
-/
theorem Spells.read_append {commands : List Command} {block : Block}
    (h : Spells commands block) {tail : List Command} {waiting : List Block}
    (after : read tail = some (.done, waiting))
    : read (commands ++ tail) = some (block, waiting) := by
  induction h generalizing tail waiting with
  | done => exact after
  | comment behind ih =>
      rw [List.cons_append, read, ih after]
      rfl
  | action does behind ih =>
      rw [List.cons_append, read, ih after]
      exact readFront_action does _ _
  | @loop body rest inner outer inside behind ihBody ihRest =>
      have atEnd : read (.endLoop :: (rest ++ tail)) = some (.done, outer :: waiting) := by
        rw [read, ihRest after]
        rfl
      rw [List.cons_append, List.append_assoc, List.cons_append, read, ihBody atEnd]
      rfl

/-- Commands that spell a block, end a body, spell the next waiting block, and so on. -/
inductive SpellsAll : List Command → Block → List Block → Prop
  | last {commands : List Command} {block : Block} (spells : Spells commands block)
    : SpellsAll commands block []
  | next {commands later : List Command} {block outer : Block} {waiting : List Block}
    (spells : Spells commands block) (behind : SpellsAll later outer waiting)
    : SpellsAll (commands ++ .endLoop :: later) block (outer :: waiting)

/-- What is put in front of a block is put in front of all that is spelled. -/
theorem SpellsAll.prepend {commands : List Command} {block longer : Block}
    {waiting : List Block} {command : Command}
    (h : SpellsAll commands block waiting)
    (one : ∀ {part}, Spells part block → Spells (command :: part) longer)
    : SpellsAll (command :: commands) longer waiting := by
  cases h with
  | last spells => exact .last (one spells)
  | next spells behind => exact .next (one spells) behind

/-- What is read is what is spelled, by induction on the commands. -/
theorem spellsAll_of_read {commands : List Command} {block : Block} {waiting : List Block}
    (h : read commands = some (block, waiting))
    : SpellsAll commands block waiting := by
  induction commands generalizing block waiting with
  | nil =>
      cases h
      exact .last .done
  | cons command rest ih =>
      obtain ⟨⟨first, others⟩, reads, front⟩ := Option.bind_eq_some_iff.mp h
      have spelled := ih reads
      have role := command.role
      cases role with
      | comment =>
          cases front
          exact spelled.prepend .comment
      | endLoop =>
          cases front
          exact .next .done spelled
      | beginLoop =>
          cases spelled with
          | last => contradiction
          | next inside behind =>
              cases front
              cases behind with
              | last spells => exact .last (.loop inside spells)
              | next spells later =>
                  simpa using SpellsAll.next (.loop inside spells) later
      | action action does =>
          rw [readFront_action does] at front
          cases front
          exact spelled.prepend (.action does)

/-- Nested commands spell a block, by induction on the grammar. -/
theorem exists_spells {commands : List Command} (nested : Nested commands)
    : ∃ block, Spells commands block := by
  induction nested with
  | nil => exact ⟨.done, .done⟩
  | @plain command rest notBegin notEnd _ ih =>
      obtain ⟨block, spells⟩ := ih
      have role := command.role
      cases role with
      | comment => exact ⟨block, .comment spells⟩
      | beginLoop => contradiction
      | endLoop => contradiction
      | action action does => exact ⟨.action action block, .action does spells⟩
  | loop _ _ ihBody ihRest =>
      obtain ⟨inner, inside⟩ := ihBody
      obtain ⟨outer, behind⟩ := ihRest
      exact ⟨.loop inner outer, .loop inside behind⟩

/-- Commands that spell a block are nested, by induction on the spelling. -/
theorem Spells.nested {commands : List Command} {block : Block} (h : Spells commands block)
    : Nested commands := by
  induction h with
  | done => exact .nil
  | comment behind ih => exact .plain (by decide) (by decide) ih
  | @action command action rest block does behind ih =>
      refine .plain ?_ ?_ ih <;> intro bracket <;> rw [bracket] at does <;> contradiction
  | loop inside behind ihBody ihRest => exact .loop ihBody ihRest

end Block

/-- The block of a program, unless a bracket has no partner. -/
def Program.block? (program : Program) : Option Block :=
  match Block.read program.commands with
  | some (block, []) => some block
  | _ => none

/-- The block of a program is the one that its commands spell. -/
theorem Program.block?_eq_some_iff {program : Program} {block : Block}
    : program.block? = some block ↔ Block.Spells program.commands block := by
  constructor
  · intro h
    unfold block? at h
    split at h
    · rename_i found reads
      cases h
      have spelled := Block.spellsAll_of_read reads
      generalize program.commands = commands at spelled ⊢
      cases spelled with
      | last spells => exact spells
    · contradiction
  · intro spells
    have atEnd : Block.read [] = some (.done, []) := rfl
    have reads := spells.read_append atEnd
    rw [List.append_nil] at reads
    rw [block?, reads]

/-- A program whose brackets match has a block. -/
theorem Program.exists_block (matched : Program.Matched program)
    : ∃ block, program.block? = some block := by
  obtain ⟨block, spells⟩ := Block.exists_spells (balanced_iff_nested.mp matched)
  exact ⟨block, block?_eq_some_iff.mpr spells⟩

end Brainfuck
