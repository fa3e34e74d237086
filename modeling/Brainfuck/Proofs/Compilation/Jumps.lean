import Brainfuck.Proofs.Compilation.Layout

/-! Jumps of assembled code.
Both jumps of a loop point at each other, loops do not cross, and no jump waits for its
target any more. All of it is read off the layout, which follows the grammar of loops.
-/

namespace Brainfuck

/-- The jumps of code go to each other in pairs that do not cross. -/
structure JumpsPaired (code : Array Instruction) : Prop where
  forward
    : ∀ {address : Nat} {operand : Int},
        code[address]? = some { opcode := .jumpIfZero, operand }
        → ∃ target : Nat,
            operand = target
            ∧ address < target
            ∧ target < code.size
            ∧ code[target]? = some { opcode := .jumpIfNonzero, operand := address }
  backward
    : ∀ {address : Nat} {operand : Int},
        code[address]? = some { opcode := .jumpIfNonzero, operand }
        → ∃ target : Nat,
            operand = target
            ∧ target < address
            ∧ code[target]? = some { opcode := .jumpIfZero, operand := address }
  nested
    : ∀ {outer outerEnd inner innerEnd : Nat},
        code[outer]? = some { opcode := .jumpIfZero, operand := outerEnd }
        → code[inner]? = some { opcode := .jumpIfZero, operand := innerEnd }
        → outer < inner
        → inner < outerEnd
        → innerEnd < outerEnd
  resolved
    : ∀ instruction ∈ code,
        instruction.opcode = .jumpIfZero ∨ instruction.opcode = .jumpIfNonzero
        → instruction.operand ≠ unresolved

namespace LaidOut

variable {pieces : List SourceRun} {code : List Instruction}

/-- An instruction is that of a piece between others. -/
theorem exists_split (h : LaidOut 0 pieces code) {address : Nat} {instruction : Instruction}
    (found : code[address]? = some instruction)
    : ∃ before piece behind,
        pieces = before ++ piece :: behind ∧ before.length = address := by
  have lt : address < pieces.length := h.length_eq ▸ (List.getElem?_eq_some_iff.mp found).1
  obtain ⟨before, behind, split⟩ := exists_split_of_getElem? (List.getElem?_eq_getElem lt)
  exact ⟨before, _, behind, split⟩

/-- A jump on zero is that of a `[` in front of its body and its partner. -/
theorem exists_loop_of_jumpIfZero (h : LaidOut 0 pieces code) {address : Nat} {operand : Int}
    (found : code[address]? = some { opcode := .jumpIfZero, operand })
    : ∃ before opening body closing later,
        pieces = before ++ opening :: (body ++ closing :: later)
        ∧ before.length = address
        ∧ opening.command = .beginLoop
        ∧ closing.command = .endLoop
        ∧ Nested (commandsOf body)
        ∧ operand = (address + 1 + body.length : Nat) := by
  obtain ⟨before, piece, behind, split, rfl⟩ := h.exists_split found
  cases h.placement split with
  | plain is other =>
      obtain rfl := Option.some.inj (found.symm.trans other)
      unfold SourceRun.instruction? at is
      split at is <;> cases is
  | endLoop _ _ _ _ other => simp [found] at other
  | @beginLoop body later closing begins behind ends inside other =>
      subst behind
      refine ⟨before, piece, body, closing, later, split, rfl, begins, ends, inside, ?_⟩
      have same := Option.some.inj (found.symm.trans other)
      simpa using congrArg Instruction.operand same

/-- A jump on a number other than zero is that of a `]` behind its partner and its body. -/
theorem exists_loop_of_jumpIfNonzero (h : LaidOut 0 pieces code) {address : Nat}
    {operand : Int} (found : code[address]? = some { opcode := .jumpIfNonzero, operand })
    : ∃ before opening body closing later,
        pieces = before ++ opening :: (body ++ closing :: later)
        ∧ before.length + 1 + body.length = address
        ∧ opening.command = .beginLoop
        ∧ closing.command = .endLoop
        ∧ Nested (commandsOf body)
        ∧ operand = before.length := by
  obtain ⟨before, piece, behind, split, rfl⟩ := h.exists_split found
  cases h.placement split with
  | plain is other =>
      obtain rfl := Option.some.inj (found.symm.trans other)
      unfold SourceRun.instruction? at is
      split at is <;> cases is
  | beginLoop _ _ _ _ other => simp [found] at other
  | @endLoop earlier body opening ends front begins inside other =>
      subst front
      rw [List.append_assoc, List.cons_append] at split
      refine ⟨earlier, opening, body, piece, behind, split, ?_, begins, ends, inside, ?_⟩
      · rw [length_at_end]
      · have same := Option.some.inj (found.symm.trans other)
        simpa using congrArg Instruction.operand same

/-- The jumps of a loop within another loop stay within it, because the partner of a `[` in a
nested body is in that body.
-/
theorem jump_lt_of_inside (h : LaidOut 0 pieces code) {before body later : List SourceRun}
    {opening closing : SourceRun}
    (split : pieces = before ++ opening :: (body ++ closing :: later))
    (inside : Nested (commandsOf body)) {address : Nat} {target : Nat}
    (found : code[address]? = some { opcode := .jumpIfZero, operand := target })
    (behind : before.length < address) (within : address < before.length + 1 + body.length)
    : target < before.length + 1 + body.length := by
  obtain ⟨front, inner, _, _, _, whole, rfl, begins, _⟩ := h.exists_loop_of_jumpIfZero found
  have index : body[front.length - before.length - 1]? = some inner := by
    have here : pieces[front.length]? = some inner := by simp [whole]
    rw [split, List.getElem?_append_right (by omega), List.getElem?_cons, if_neg (by omega),
      List.getElem?_append_left (by omega)] at here
    exact here
  obtain ⟨first, rest, rfl, place⟩ := exists_split_of_getElem? index
  obtain ⟨own, partner, more, rfl, ends, nested⟩ := exists_closing inside begins
  have whole : pieces
      = (before ++ opening :: first) ++ inner :: (own ++ partner :: (more ++ closing :: later)) := by
    simp [split]
  have jump := h.jumpIfZero_found whole begins ends nested
  have here : (before ++ opening :: first).length = front.length := by
    rw [length_at_end]
    omega
  rw [here, found] at jump
  have same := congrArg Instruction.operand (Option.some.inj jump)
  simp only [Nat.zero_add, Int.natCast_inj] at same
  simp only [List.length_append, List.length_cons] at within ⊢
  omega

end LaidOut

/-- The jumps of assembled code are paired, by what the layout says about both kinds. -/
theorem jumpsPaired_of_assemble {runs : List SourceRun} {code : Array Instruction}
    (h : assemble runs = .ok code)
    : JumpsPaired code := by
  have laidOut := laidOut_of_assemble h
  have forward {address : Nat} {operand : Int}
      (found : code[address]? = some { opcode := .jumpIfZero, operand })
      : ∃ target : Nat,
          operand = target
          ∧ address < target
          ∧ target < code.size
          ∧ code[target]? = some { opcode := .jumpIfNonzero, operand := address } := by
    rw [← Array.getElem?_toList] at found
    obtain ⟨before, opening, body, closing, later, split, rfl, begins, ends, inside, operand⟩ :=
      laidOut.exists_loop_of_jumpIfZero found
    have partner := laidOut.jumpIfNonzero_found split begins ends inside
    rw [Array.getElem?_toList, Nat.zero_add] at partner
    exact ⟨_, operand, by omega, (Array.getElem?_eq_some_iff.mp partner).1, partner⟩
  have backward {address : Nat} {operand : Int}
      (found : code[address]? = some { opcode := .jumpIfNonzero, operand })
      : ∃ target : Nat,
          operand = target
          ∧ target < address
          ∧ code[target]? = some { opcode := .jumpIfZero, operand := address } := by
    rw [← Array.getElem?_toList] at found
    obtain ⟨before, opening, body, closing, later, split, rfl, begins, ends, inside, operand⟩ :=
      laidOut.exists_loop_of_jumpIfNonzero found
    have partner := laidOut.jumpIfZero_found split begins ends inside
    rw [Array.getElem?_toList, Nat.zero_add] at partner
    exact ⟨_, operand, by omega, partner⟩
  refine ⟨forward, backward, ?_, ?_⟩
  · intro outer outerEnd inner innerEnd foundOuter foundInner behind within
    rw [← Array.getElem?_toList] at foundOuter foundInner
    obtain ⟨before, _, body, _, _, split, rfl, _, _, inside, operand⟩ :=
      laidOut.exists_loop_of_jumpIfZero foundOuter
    rw [Int.natCast_inj] at operand
    subst operand
    exact laidOut.jump_lt_of_inside split inside foundInner behind within
  · intro instruction member jumps
    obtain ⟨opcode, operand⟩ := instruction
    rcases jumps with rfl | rfl
    · obtain ⟨address, found⟩ := Array.mem_iff_getElem?.mp member
      obtain ⟨target, rfl, _⟩ := forward found
      simp only [unresolved]
      omega
    · obtain ⟨address, found⟩ := Array.mem_iff_getElem?.mp member
      obtain ⟨target, rfl, _⟩ := backward found
      simp only [unresolved]
      omega

end Brainfuck
