import Brainfuck.Proofs.Brackets.Blame
import Brainfuck.Proofs.Brackets.Search
import Brainfuck.Proofs.Compilation.Layout

/-! The verdict of compilation.
A program is compiled at every level, or refused at every level with the same fault. Only the
brackets of its pieces matter, and these are the same at all levels, with their offsets; so
what waits during assembly is what waits behind the commands of the program.
-/

namespace Brainfuck

/-- The fault of commands that are not balanced: the first `]` that ends a loop too many, or
else the last `[` without partner.
-/
inductive Blames (commands : List Command) : Fault → Prop
  | closing {offset : Nat} (surplus : Surplus commands offset)
    (first : ∀ earlier < offset, ¬ Surplus commands earlier)
    : Blames commands (.unmatchedClosing offset)
  | opening {offset : Nat} (none : ∀ other, ¬ Surplus commands other)
    (unended : Unended commands offset)
    (last : ∀ later, offset < later → ¬ Unended commands later)
    : Blames commands (.unmatchedOpening offset)

/-- Commands have one fault at most, since there is one first and one last offset. -/
theorem Blames.unique {commands : List Command} {fault other : Fault}
    (h : Blames commands fault) (hOther : Blames commands other)
    : fault = other := by
  cases h with
  | @closing offset surplus first =>
      cases hOther with
      | @closing another surplusOther firstOther =>
          rcases Nat.lt_trichotomy offset another with lt | rfl | lt
          · exact absurd surplus (firstOther offset lt)
          · rfl
          · exact absurd surplusOther (first another lt)
      | opening none => exact absurd surplus (none offset)
  | @opening offset none unended last =>
      cases hOther with
      | closing surplus => exact absurd surplus (none _)
      | @opening another _ unendedOther lastOther =>
          rcases Nat.lt_trichotomy offset another with lt | rfl | lt
          · exact absurd unendedOther (last another lt)
          · rfl
          · exact absurd unended (lastOther offset lt)

/-- Balanced commands have no fault. -/
theorem Balanced.not_blames {commands : List Command} (h : Balanced commands) (fault : Fault)
    : ¬ Blames commands fault := by
  intro blames
  cases blames with
  | closing surplus => exact (h.blameless _).1 surplus
  | opening _ unended => exact (h.blameless _).2 unended

-----------------------------------------------------------------------------------------
-- Only the brackets matter
-----------------------------------------------------------------------------------------

/-- What a piece leaves of the offsets of the `[` that wait, the innermost first. -/
def SourceRun.await (piece : SourceRun) (waiting : List Int) : Except Fault (List Int) :=
  match piece.command with
  | .beginLoop => .ok (piece.offset :: waiting)
  | .endLoop =>
      match waiting with
      | [] => .error (.unmatchedClosing piece.offset)
      | _ :: outer => .ok outer
  | _ => .ok waiting

/-- What pieces leave of the offsets that wait, up to the first `]` that is one too many. -/
def awaitAll (waiting : List Int) : List SourceRun → Except Fault (List Int)
  | [] => .ok waiting
  | piece :: later =>
      match piece.await waiting with
      | .error fault => .error fault
      | .ok left => awaitAll left later

namespace SourceRun

variable {piece : SourceRun}

theorem await_beginLoop (begins : piece.command = .beginLoop) (waiting : List Int)
    : piece.await waiting = .ok (piece.offset :: waiting) := by
  unfold await
  rw [begins]

theorem await_surplus (ends : piece.command = .endLoop)
    : piece.await [] = .error (.unmatchedClosing piece.offset) := by
  unfold await
  rw [ends]

theorem await_endLoop (ends : piece.command = .endLoop) (opening : Int) (outer : List Int)
    : piece.await (opening :: outer) = .ok outer := by
  unfold await
  rw [ends]

theorem await_plain (notBegin : piece.command ≠ .beginLoop) (notEnd : piece.command ≠ .endLoop)
    (waiting : List Int)
    : piece.await waiting = .ok waiting := by
  unfold await
  cases command : piece.command <;> first | rfl | contradiction

end SourceRun

/-- Pieces that are no brackets leave what waits alone, by induction on the pieces. -/
theorem awaitAll_filter (waiting : List Int) (pieces : List SourceRun)
    : awaitAll waiting (pieces.filter SourceRun.isBracket) = awaitAll waiting pieces := by
  induction pieces generalizing waiting with
  | nil => rfl
  | cons piece rest ih =>
      by_cases bracket : piece.isBracket = true
      · rw [List.filter_cons_of_pos bracket, awaitAll, awaitAll]
        cases piece.await waiting with
        | error fault => rfl
        | ok left => exact ih left
      · have plain := bracket
        rw [SourceRun.isBracket_iff, not_or] at plain
        rw [List.filter_cons_of_neg bracket, awaitAll, SourceRun.await_plain plain.1 plain.2]
        exact ih waiting

namespace Assembly

/-- The offsets of the `[` that wait, the innermost first. -/
def waiting (assembly : Assembly) : List Int :=
  assembly.pending.map Prod.snd

/-- Assembly is finished when nothing waits; else the innermost is blamed. -/
theorem finish_eq (assembly : Assembly)
    : assembly.finish
      = match assembly.waiting with
        | [] => .ok assembly.instructions
        | offset :: _ => .error (.unmatchedOpening offset) := by
  obtain ⟨instructions, pending⟩ := assembly
  cases pending <;> rfl

/-- What waits behind a piece is what it leaves of those that wait in front of it. -/
theorem map_waiting_extend (assembly : Assembly) {piece : SourceRun} (isPiece : piece.IsPiece)
    : (assembly.extend piece).map waiting = piece.await assembly.waiting := by
  have extension := assembly.extension isPiece
  generalize assembly.extend piece = result at extension
  cases extension with
  | plain _ notBegin notEnd => exact (SourceRun.await_plain notBegin notEnd _).symm
  | beginLoop begins => exact (SourceRun.await_beginLoop begins _).symm
  | endLoop ends closes =>
      obtain ⟨_, opening, waits⟩ := of_endLoop closes
      rw [waiting, waits]
      exact (SourceRun.await_endLoop ends _ _).symm
  | surplus ends alone =>
      rw [waiting, alone]
      exact (SourceRun.await_surplus ends).symm

/-- Assembly keeps account of what waits, by induction on the pieces. -/
theorem map_waiting_extendAll {pieces : List SourceRun}
    (visible : ∀ piece ∈ pieces, piece.IsPiece) (assembly : Assembly)
    : (assembly.extendAll pieces).map waiting = awaitAll assembly.waiting pieces := by
  induction pieces generalizing assembly with
  | nil => rfl
  | cons piece rest ih =>
      obtain ⟨shown, others⟩ := List.forall_mem_cons.mp visible
      rw [extendAll, awaitAll, ← assembly.map_waiting_extend shown]
      cases assembly.extend piece with
      | error fault => rfl
      | ok extended => exact ih others extended

end Assembly

namespace Program

variable {program : Program}

/-- What becomes of all that waits: something waits still, or a `]` was one too many. -/
inductive Outcome (commands : List Command) : Except Fault (List Int) → Prop
  | waits {waiting : List Nat} (waits : Waits commands waiting)
    : Outcome commands (.ok (waiting.map Int.ofNat))
  | blames {fault : Fault} (blames : Blames commands fault) : Outcome commands (.error fault)

/-- What is left of those that wait is what waits behind the commands, by induction on the
single bytes that are left.
-/
theorem outcome_of_split {passed left : List SourceRun}
    (split : program.singleUnits = passed ++ left) {waiting : List Nat}
    (waits : Waits (commandsOf passed) waiting)
    : Outcome program.commands (awaitAll (waiting.map Int.ofNat) left) := by
  induction left generalizing passed waiting with
  | nil =>
      rw [List.append_nil] at split
      rw [← program.commandsOf_singleUnits, split]
      exact .waits waits
  | cons single left ih =>
      have further := split_behind split
      have commands : commandsOf (passed ++ [single]) = commandsOf passed ++ [single.command] :=
        commandsOf_append passed [single]
      have place : single.offset = ((commandsOf passed).length : Int) := by
        rw [length_commandsOf]
        exact offset_at split
      rw [awaitAll]
      by_cases begins : single.command = .beginLoop
      · have more := waits.beginLoop
        rw [← begins, ← commands] at more
        rw [SourceRun.await_beginLoop begins, place]
        exact ih further more
      · by_cases ends : single.command = .endLoop
        · cases waiting with
          | nil =>
              have source
                  : program.commands = commandsOf passed ++ .endLoop :: commandsOf left := by
                rw [← program.commandsOf_singleUnits, split, commandsOf_append, commandsOf_cons,
                  ends]
              obtain ⟨surplus, first⟩ := waits.nested.surplus
              rw [← source] at surplus first
              rw [List.map_nil, SourceRun.await_surplus ends, place]
              exact .blames (.closing surplus first)
          | cons opening outer =>
              have fewer := waits.endLoop
              rw [← ends, ← commands] at fewer
              rw [List.map_cons, SourceRun.await_endLoop ends]
              exact ih further fewer
        · have more := waits.plain begins ends
          rw [← commands] at more
          rw [SourceRun.await_plain begins ends]
          exact ih further more

/-- The outcome of assembly is the same at every level. -/
theorem outcome (program : Program) (level : Nat)
    : Outcome program.commands
        ((({} : Assembly).extendAll (program.pieces level)).map Assembly.waiting) := by
  rw [Assembly.map_waiting_extendAll (program.isPiece_of_mem_pieces level), ← awaitAll_filter,
    program.filter_pieces, awaitAll_filter]
  exact outcome_of_split (List.nil_append _).symm (.none .nil)

/-- Compilation returns code, or blames a bracket. -/
theorem compile_or_blames (program : Program) (level : Nat)
    : (∃ code, program.compile level = .ok code)
      ∨ ∃ fault, program.compile level = .error fault ∧ Blames program.commands fault := by
  have outcome := program.outcome level
  rw [compile_eq]
  cases extended : ({} : Assembly).extendAll (program.pieces level) with
  | error fault =>
      rw [extended] at outcome
      cases outcome with
      | blames blames => exact Or.inr ⟨fault, rfl, blames⟩
  | ok assembly =>
      rw [extended, Except.map] at outcome
      simp only [Assembly.finish_eq]
      generalize assembly.waiting = offsets at outcome
      cases outcome with
      | @waits waiting waits =>
          cases waiting with
          | nil => exact Or.inl ⟨_, rfl⟩
          | cons opening outer =>
              obtain ⟨unended, last⟩ := waits.unended
              exact Or.inr ⟨_, rfl, .opening waits.not_surplus unended last⟩

/-- The compiler accepts exactly the programs whose brackets match. It refuses all others at
the first `]` that ends a loop too many, or else at the last `[` without partner, and it does
so at every level alike.
-/
theorem compile_verdict (program : Program) (level : Nat)
    : ((∃ code, program.compile level = .ok code) ↔ program.Matched)
      ∧ (∀ fault,
          program.compile level = .error fault
          → ∃ offset : Nat,
              fault.kind = .unmatchedBracket
              ∧ fault.position? = some (offset : Int)
              ∧ (fault.message = "Unmatched closing bracket at <" ++ toString offset ++ ">"
                  ∧ Surplus program.commands offset
                  ∧ (∀ earlier < offset, ¬ Surplus program.commands earlier)
                ∨ fault.message = "Unmatched opening bracket at <" ++ toString offset ++ ">"
                  ∧ (∀ other, ¬ Surplus program.commands other)
                  ∧ Unended program.commands offset
                  ∧ ∀ later, offset < later → ¬ Unended program.commands later))
      ∧ ∀ other,
          (∃ code otherCode,
            program.compile level = .ok code ∧ program.compile other = .ok otherCode)
          ∨ ∃ fault,
              program.compile level = .error fault ∧ program.compile other = .error fault := by
  refine ⟨⟨fun ⟨_, compiled⟩ => matched_of_compile compiled, ?_⟩, ?_, ?_⟩
  · intro matched
    obtain ⟨code, compiled, _⟩ := exists_laidOut matched level
    exact ⟨code, compiled⟩
  · intro fault refused
    rcases program.compile_or_blames level with ⟨code, compiled⟩ | ⟨_, again, blames⟩
    · rw [refused] at compiled
      contradiction
    · obtain rfl := Except.error.inj (refused.symm.trans again)
      cases blames with
      | @closing offset surplus first =>
          exact ⟨offset, rfl, rfl, Or.inl ⟨rfl, surplus, first⟩⟩
      | @opening offset none unended last =>
          exact ⟨offset, rfl, rfl, Or.inr ⟨rfl, none, unended, last⟩⟩
  · intro other
    rcases program.compile_or_blames level with ⟨code, compiled⟩ | ⟨fault, refused, blames⟩
    · obtain ⟨otherCode, also, _⟩ := exists_laidOut (matched_of_compile compiled) other
      exact Or.inl ⟨code, otherCode, compiled, also⟩
    · rcases program.compile_or_blames other with ⟨code, compiled⟩ | ⟨_, also, blamesToo⟩
      · exact absurd blames (Balanced.not_blames (matched_of_compile compiled) fault)
      · exact Or.inr ⟨fault, refused, blames.unique blamesToo ▸ also⟩

/-- A program with both kinds of fault: the second `]` of a run is one too many, and the `[`
behind it has no partner.
-/
theorem compile_verdict_on_both_faults
    : Program.compile #[0x5b, 0x2b, 0x2b, 0x5d, 0x5d, 0x5d, 0x5b] 1
          = .error (.unmatchedClosing 4)
      ∧ Surplus (Program.commands #[0x5b, 0x2b, 0x2b, 0x5d, 0x5d, 0x5d, 0x5b]) 4
      ∧ (∀ earlier < 4,
          ¬ Surplus (Program.commands #[0x5b, 0x2b, 0x2b, 0x5d, 0x5d, 0x5d, 0x5b]) earlier)
      ∧ Program.compile #[0x5b, 0x2b, 0x2b, 0x5d, 0x5d, 0x5d, 0x5b] 0
          = .error (.unmatchedClosing 4) := by
  have refused
      : Program.compile #[0x5b, 0x2b, 0x2b, 0x5d, 0x5d, 0x5d, 0x5b] 1
        = .error (.unmatchedClosing 4) :=
    rfl
  obtain ⟨-, blamed, alike⟩ := compile_verdict #[0x5b, 0x2b, 0x2b, 0x5d, 0x5d, 0x5d, 0x5b] 1
  obtain ⟨offset, -, position, texts⟩ := blamed _ refused
  have place : (4 : Int) = offset := Option.some.inj position
  obtain rfl : 4 = offset := by omega
  refine ⟨refused, ?_⟩
  rcases texts with ⟨-, surplus, first⟩ | ⟨text, -⟩
  · refine ⟨surplus, first, ?_⟩
    rcases alike 0 with ⟨code, _, compiled, -⟩ | ⟨fault, same, other⟩
    · rw [refused] at compiled
      contradiction
    · rw [other, ← same, refused]
  · exact absurd text (by decide)

end Program

end Brainfuck
