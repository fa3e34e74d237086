import Brainfuck.Proofs.Brackets.Balance

/-! The bracket that is to blame when commands are not balanced.
It is the first `]` that ends a loop too many, or else the last `[` without a partner. What
waits for its end behind a part at the start says which one it is: nested commands stand
between the beginnings that wait.
-/

namespace Brainfuck

/-- The `]` at an offset ends a loop too many: up to it more loops end than begin. -/
structure Surplus (commands : List Command) (offset : Nat) : Prop where
  ends : commands[offset]? = some .endLoop
  exceeds
    : (commands.take (offset + 1)).count .beginLoop
      < (commands.take (offset + 1)).count .endLoop

/-- The `[` and the `]` at two offsets are partners: what they enclose is balanced. -/
inductive Partners : List Command → Nat → Nat → Prop
  | enclose {before body behind : List Command} (inside : Balanced body)
    : Partners (before ++ .beginLoop :: (body ++ .endLoop :: behind)) before.length
        (before.length + 1 + body.length)

/-- The `[` at an offset has no partner. -/
structure Unended (commands : List Command) (offset : Nat) : Prop where
  begins : commands[offset]? = some .beginLoop
  alone : ∀ closing, ¬ Partners commands offset closing

/-- Commands in which loops wait for their ends, and the offsets of the beginnings of these
loops, the innermost first.
-/
inductive Waits : List Command → List Nat → Prop
  | none {commands : List Command} (nested : Nested commands) : Waits commands []
  | one {outer inside : List Command} {waiting : List Nat} (before : Waits outer waiting)
    (nested : Nested inside)
    : Waits (outer ++ .beginLoop :: inside) (outer.length :: waiting)

/-- Nested commands one behind the other are nested, by induction on those in front. -/
theorem Nested.append {left right : List Command} (hl : Nested left) (hr : Nested right)
    : Nested (left ++ right) := by
  induction hl with
  | nil => exact hr
  | plain notBegin notEnd _ ih => exact .plain notBegin notEnd ih
  | loop inside _ _ ihRest =>
      simpa only [List.cons_append, List.append_assoc] using Nested.loop inside ihRest

-----------------------------------------------------------------------------------------
-- One more command
-----------------------------------------------------------------------------------------

namespace Waits

variable {commands : List Command} {waiting : List Nat}

theorem nested (h : Waits commands []) : Nested commands := by
  cases h with
  | none nested => exact nested

/-- Nested commands behind others leave alone what waits. -/
theorem append (h : Waits commands waiting) {more : List Command} (nested : Nested more)
    : Waits (commands ++ more) waiting := by
  cases h with
  | none first => exact .none (first.append nested)
  | one before inside =>
      rw [List.append_assoc, List.cons_append]
      exact .one before (inside.append nested)

theorem plain (h : Waits commands waiting) {command : Command}
    (notBegin : command ≠ .beginLoop) (notEnd : command ≠ .endLoop)
    : Waits (commands ++ [command]) waiting :=
  h.append (.plain notBegin notEnd .nil)

theorem beginLoop (h : Waits commands waiting)
    : Waits (commands ++ [.beginLoop]) (commands.length :: waiting) :=
  .one h .nil

/-- The end of the innermost loop that waits makes nested commands of this loop. -/
theorem endLoop {opening : Nat} (h : Waits commands (opening :: waiting))
    : Waits (commands ++ [.endLoop]) waiting := by
  cases h with
  | one before inside =>
      rw [List.append_assoc, List.cons_append]
      exact before.append (.loop inside .nil)

/-- Parts at the start end no loop too many, by induction on the loops that wait. -/
theorem count_le (h : Waits commands waiting)
    : ∀ initial, initial <+: commands
        → initial.count .endLoop ≤ initial.count .beginLoop := by
  induction h with
  | none nested => exact nested.balanced.initial
  | @one outer inside waiting _ nested ih =>
      intro initial isInitial
      rcases isInitial with ⟨more, split⟩
      rcases List.append_eq_append_iff.mp split with ⟨within, rfl, _⟩ | ⟨part, rfl, tail⟩
      · exact ih initial (List.prefix_append initial within)
      · have whole := ih outer List.prefix_rfl
        rcases List.prefix_cons_iff.mp ⟨more, tail.symm⟩ with rfl | ⟨later, rfl, isLater⟩
        · simpa using whole
        · have bound := nested.balanced.initial later isLater
          simp only [List.count_append, List.count_cons, beq_iff_eq, reduceCtorEq, if_false,
            if_true]
          omega

/-- Commands that can wait have no surplus. -/
theorem not_surplus (h : Waits commands waiting) (offset : Nat)
    : ¬ Surplus commands offset := by
  intro surplus
  have bound := h.count_le _ (List.take_prefix (offset + 1) commands)
  have exceeds := surplus.exceeds
  omega

end Waits

/-- A `]` behind nested commands is the first surplus. -/
theorem Nested.surplus {commands rest : List Command} (h : Nested commands)
    : Surplus (commands ++ .endLoop :: rest) commands.length
      ∧ ∀ earlier < commands.length, ¬ Surplus (commands ++ .endLoop :: rest) earlier := by
  constructor
  · refine ⟨by simp, ?_⟩
    have whole := h.balanced.whole
    have part : (commands ++ .endLoop :: rest).take (commands.length + 1)
        = commands ++ [.endLoop] := by
      rw [List.append_cons, List.take_left' (by simp)]
    rw [part]
    simp only [List.count_append, List.count_cons, List.count_nil, beq_iff_eq, reduceCtorEq,
      if_false, if_true]
    omega
  · intro earlier lt surplus
    have part : (commands ++ .endLoop :: rest).take (earlier + 1) = commands.take (earlier + 1) :=
      List.take_append_of_le_length lt
    have bound := h.balanced.initial _ (List.take_prefix (earlier + 1) commands)
    have exceeds := surplus.exceeds
    rw [part] at exceeds
    omega

-----------------------------------------------------------------------------------------
-- Beginnings without partner
-----------------------------------------------------------------------------------------

/-- A `[` in nested commands has a partner, also when they are part of others. -/
theorem Nested.not_unended {inside : List Command} (h : Nested inside) (front : List Command)
    (offset : Nat)
    : ¬ Unended (front ++ inside) (front.length + offset) := by
  intro unended
  have begins := unended.begins
  rw [List.getElem?_append_right (Nat.le_add_right _ _), Nat.add_sub_cancel_left] at begins
  obtain ⟨before, behind, rfl, rfl⟩ := exists_split_of_getElem? begins
  obtain ⟨body, later, rfl, nested⟩ := h.exists_end
  apply unended.alone (front.length + before.length + 1 + body.length)
  rw [← List.append_assoc, ← List.length_append]
  exact .enclose nested.balanced

/-- The innermost beginning that waits is the last one without partner: everything behind it
is nested.
-/
theorem Waits.unended {commands : List Command} {opening : Nat} {waiting : List Nat}
    (h : Waits commands (opening :: waiting))
    : Unended commands opening ∧ ∀ later, opening < later → ¬ Unended commands later := by
  cases h with
  | @one outer inside _ before nested =>
      constructor
      · refine ⟨by simp, ?_⟩
        intro closing partners
        generalize whole : outer ++ .beginLoop :: inside = commands at partners
        generalize place : outer.length = opening at partners
        cases partners with
        | @enclose front body behind balanced =>
            obtain ⟨rfl, rest⟩ := List.append_inj whole place
            obtain rfl := (List.cons.inj rest).2
            exact (balanced_iff_nested.mp balanced).not_nested_endLoop nested
      · intro later lt unended
        rw [List.append_cons] at unended
        have place : later = (outer ++ [Command.beginLoop]).length + (later - outer.length - 1) := by
          rw [List.length_append, List.length_singleton]
          omega
        rw [place] at unended
        exact nested.not_unended _ _ unended

/-- Balanced commands have no surplus and no beginning without partner. -/
theorem Balanced.blameless {commands : List Command} (h : Balanced commands) (offset : Nat)
    : ¬ Surplus commands offset ∧ ¬ Unended commands offset := by
  have nested := balanced_iff_nested.mp h
  refine ⟨(Waits.none nested).not_surplus offset, ?_⟩
  simpa using nested.not_unended [] offset

end Brainfuck
