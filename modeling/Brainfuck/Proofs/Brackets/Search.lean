import Brainfuck.Bracket
import Brainfuck.Proofs.Brackets.Balance

/-! Searches for partners.
A search that meets nested commands comes out of them as deep as it went in, so the first
bracket that it stops at is the partner.
-/

namespace Brainfuck

/-- A byte is a `[` when it begins a loop. -/
theorem Command.ofByte_eq_beginLoop {byte : UInt8}
    : Command.ofByte byte = .beginLoop ↔ byte = openBracket := by
  constructor
  · intro begins
    apply Decidable.byContradiction
    intro other
    simp only [Command.ofByte, other, if_false] at begins
    repeat' split at begins
    all_goals contradiction
  · rintro rfl
    rfl

/-- A byte is a `]` when it ends a loop. -/
theorem Command.ofByte_eq_endLoop {byte : UInt8}
    : Command.ofByte byte = .endLoop ↔ byte = closeBracket := by
  constructor
  · intro ends
    apply Decidable.byContradiction
    intro other
    simp only [Command.ofByte, other, if_false] at ends
    repeat' split at ends
    all_goals contradiction
  · rintro rfl
    rfl

namespace Program

variable {program : Program} {before behind : List Command} {command : Command}

@[simp] theorem length_commands (program : Program)
    : program.commands.length = program.size := by
  simp [commands]

/-- The byte between commands in front of it and behind it. -/
theorem ofByte_byteAt (split : program.commands = before ++ command :: behind)
    : Command.ofByte (program.byteAt before.length) = command := by
  have found : program.commands[before.length]? = some command := by simp [split]
  simp only [commands, List.getElem?_map, Option.map_eq_some_iff, Array.getElem?_toList] at found
  obtain ⟨byte, found, meaning⟩ := found
  rw [byteAt, ← meaning, Array.getD_eq_getD_getElem?, found, Option.getD_some]

/-- As many commands are left from a position on as bytes. -/
theorem size_sub_length (split : program.commands = before ++ command :: behind)
    : program.size - (behind.length + 1) = before.length := by
  have size : program.size = before.length + (behind.length + 1) := by
    rw [← length_commands, split]
    simp
  omega

theorem byteAt_ne_openBracket (split : program.commands = before ++ command :: behind)
    (notBegin : command ≠ .beginLoop)
    : program.byteAt before.length ≠ openBracket := by
  intro opens
  apply notBegin
  rw [← ofByte_byteAt split]
  exact Command.ofByte_eq_beginLoop.mpr opens

theorem byteAt_ne_closeBracket (split : program.commands = before ++ command :: behind)
    (notEnd : command ≠ .endLoop)
    : program.byteAt before.length ≠ closeBracket := by
  intro closes
  apply notEnd
  rw [← ofByte_byteAt split]
  exact Command.ofByte_eq_endLoop.mpr closes

-----------------------------------------------------------------------------------------
-- One command of a search
-----------------------------------------------------------------------------------------

/-- A search forwards goes one deeper behind a `[`. -/
theorem closingAmongLast_beginLoop
    (split : program.commands = before ++ .beginLoop :: behind) (depth : Nat)
    : program.closingAmongLast depth (Command.beginLoop :: behind).length
      = program.closingAmongLast (depth + 1) behind.length := by
  have opens := Command.ofByte_eq_beginLoop.mp (ofByte_byteAt split)
  rw [List.length_cons, closingAmongLast.eq_def program depth (behind.length + 1)]
  simp only [size_sub_length split, opens, if_true]

/-- A search forwards ends at a `]` or comes out of a loop there. -/
theorem closingAmongLast_endLoop (split : program.commands = before ++ .endLoop :: behind)
    (depth : Nat)
    : program.closingAmongLast depth (Command.endLoop :: behind).length
      = match depth with
        | 0 => some before.length
        | outer + 1 => program.closingAmongLast outer behind.length := by
  have closes := Command.ofByte_eq_endLoop.mp (ofByte_byteAt split)
  have distinct : closeBracket ≠ openBracket := by decide
  rw [List.length_cons, closingAmongLast.eq_def program depth (behind.length + 1)]
  cases depth with
  | zero => simp only [size_sub_length split, closes, distinct, if_true, if_false]
  | succ outer => simp only [size_sub_length split, closes, distinct, if_true, if_false]

/-- A search forwards passes everything else. -/
theorem closingAmongLast_plain (split : program.commands = before ++ command :: behind)
    (notBegin : command ≠ .beginLoop) (notEnd : command ≠ .endLoop) (depth : Nat)
    : program.closingAmongLast depth (command :: behind).length
      = program.closingAmongLast depth behind.length := by
  rw [List.length_cons, closingAmongLast.eq_def program depth (behind.length + 1)]
  simp only [size_sub_length split, byteAt_ne_openBracket split notBegin,
    byteAt_ne_closeBracket split notEnd, if_false]

/-- A search backwards goes one deeper in front of a `]`. -/
theorem openingBefore_endLoop (split : program.commands = before ++ .endLoop :: behind)
    (depth : Nat)
    : program.openingBefore depth (before ++ [Command.endLoop]).length
      = program.openingBefore (depth + 1) before.length := by
  have closes := Command.ofByte_eq_endLoop.mp (ofByte_byteAt split)
  rw [List.length_append, List.length_singleton,
    openingBefore.eq_def program depth (before.length + 1)]
  simp only [closes, if_true]

/-- A search backwards ends at a `[` or comes out of a loop there. -/
theorem openingBefore_beginLoop (split : program.commands = before ++ .beginLoop :: behind)
    (depth : Nat)
    : program.openingBefore depth (before ++ [Command.beginLoop]).length
      = match depth with
        | 0 => some before.length
        | outer + 1 => program.openingBefore outer before.length := by
  have opens := Command.ofByte_eq_beginLoop.mp (ofByte_byteAt split)
  have distinct : openBracket ≠ closeBracket := by decide
  rw [List.length_append, List.length_singleton,
    openingBefore.eq_def program depth (before.length + 1)]
  cases depth with
  | zero => simp only [opens, distinct, if_true, if_false]
  | succ outer => simp only [opens, distinct, if_true, if_false]

/-- A search backwards passes everything else. -/
theorem openingBefore_plain (split : program.commands = before ++ command :: behind)
    (notBegin : command ≠ .beginLoop) (notEnd : command ≠ .endLoop) (depth : Nat)
    : program.openingBefore depth (before ++ [command]).length
      = program.openingBefore depth before.length := by
  rw [List.length_append, List.length_singleton,
    openingBefore.eq_def program depth (before.length + 1)]
  simp only [byteAt_ne_openBracket split notBegin, byteAt_ne_closeBracket split notEnd,
    if_false]

-----------------------------------------------------------------------------------------
-- Nested commands
-----------------------------------------------------------------------------------------

/-- A search forwards passes nested commands, by induction on the grammar. -/
theorem closingAmongLast_nested {inside : List Command} (nested : Nested inside)
    (split : program.commands = before ++ (inside ++ behind)) (depth : Nat)
    : program.closingAmongLast depth (inside ++ behind).length
      = program.closingAmongLast depth behind.length := by
  induction nested generalizing before behind depth with
  | nil => rfl
  | @plain command rest notBegin notEnd _ ih =>
      have later : program.commands = (before ++ [command]) ++ (rest ++ behind) :=
        split_behind split
      exact (closingAmongLast_plain split notBegin notEnd depth).trans (ih later depth)
  | @loop body rest _ _ ihBody ihRest =>
      rw [List.cons_append, List.append_assoc, List.cons_append] at split ⊢
      calc
        _ = program.closingAmongLast (depth + 1) (body ++ .endLoop :: (rest ++ behind)).length :=
          closingAmongLast_beginLoop split depth
        _ = program.closingAmongLast (depth + 1) (Command.endLoop :: (rest ++ behind)).length :=
          ihBody (split_behind split) (depth + 1)
        _ = program.closingAmongLast depth (rest ++ behind).length :=
          closingAmongLast_endLoop (split_at_end split) (depth + 1)
        _ = _ := ihRest (split_behind_loop split) depth

/-- A search backwards passes nested commands, by induction on the grammar. -/
theorem openingBefore_nested {inside : List Command} (nested : Nested inside)
    (split : program.commands = before ++ (inside ++ behind)) (depth : Nat)
    : program.openingBefore depth (before ++ inside).length
      = program.openingBefore depth before.length := by
  induction nested generalizing before behind depth with
  | nil => rw [List.append_nil]
  | @plain command rest notBegin notEnd _ ih =>
      have later : program.commands = (before ++ [command]) ++ (rest ++ behind) :=
        split_behind split
      have passed := ih later depth
      rw [List.append_assoc, List.singleton_append] at passed
      exact passed.trans (openingBefore_plain split notBegin notEnd depth)
  | @loop body rest _ _ ihBody ihRest =>
      simp only [List.cons_append, List.append_assoc] at split
      have passesRest := ihRest (split_behind_loop split) depth
      have goesIn := openingBefore_endLoop (split_at_end split) depth
      have passesBody := ihBody (split_behind split) (depth + 1)
      have comesOut := openingBefore_beginLoop split (depth + 1)
      simp only [List.append_assoc, List.cons_append, List.nil_append]
        at passesRest goesIn passesBody comesOut ⊢
      rw [passesRest, goesIn, passesBody, comesOut]

-----------------------------------------------------------------------------------------
-- Partners
-----------------------------------------------------------------------------------------

/-- The search from a `[` finds the `]` behind a nested body. -/
theorem closingOf_partner {body : List Command} (nested : Nested body)
    (split : program.commands = before ++ .beginLoop :: (body ++ .endLoop :: behind))
    : program.closingOf before.length = .ok (before.length + 1 + body.length) := by
  have left
      : program.size - ((before.length : Int) + 1).toNat
        = (body ++ Command.endLoop :: behind).length := by
    rw [← length_commands, split]
    simp only [List.length_append, List.length_cons]
    omega
  rw [closingOf, left, closingAmongLast_nested nested (split_behind split),
    closingAmongLast_endLoop (split_at_end split)]
  simp only [length_at_end]

/-- The search from a `]` finds the `[` in front of a nested body. -/
theorem openingOf_partner {body : List Command} (nested : Nested body)
    (split : program.commands = before ++ .beginLoop :: (body ++ .endLoop :: behind))
    : program.openingOf ((before.length + 1 + body.length : Nat) : Int)
      = .ok before.length := by
  have address
      : before.length + 1 + body.length = (before ++ [Command.beginLoop] ++ body).length := by
    simp only [List.length_append, List.length_singleton]
  rw [openingOf, Int.toNat_natCast, address, openingBefore_nested nested (split_behind split),
    openingBefore_beginLoop split]

end Program

end Brainfuck
